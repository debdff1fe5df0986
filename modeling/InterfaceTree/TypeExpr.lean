/-!
# Kinds of nodes and type expressions

A reference carries a cell for the class it denotes: empty when it is built, filled at most once.
-/
namespace InterfaceTree

inductive Kind
  | module | constant | function | signature | parameter | classDecl | templateItem
  | namedType | classReference | containerType | genericType | unionType | intersectionType
  deriving DecidableEq, Repr

namespace Kind

/-- Declarations from the module inwards, then the type expressions. -/
def all : List Kind :=
  [.module, .constant, .function, .signature, .parameter, .classDecl, .templateItem,
    .namedType, .classReference, .containerType, .genericType, .unionType, .intersectionType]

theorem mem_all (k : Kind) : k ∈ all := by
  cases k <;> decide

def word : Kind → String
  | .module => "module"
  | .constant => "constant"
  | .function => "function"
  | .signature => "signature"
  | .parameter => "parameter"
  | .classDecl => "class"
  | .templateItem => "template item"
  | .namedType => "named type"
  | .classReference => "class reference"
  | .containerType => "container type"
  | .genericType => "generic type"
  | .unionType => "union type"
  | .intersectionType => "intersection type"

theorem word_injective {k l : Kind} (h : k.word = l.word) : k = l := by
  revert h
  cases k <;> cases l <;> decide

end Kind

/-- Identity of a class object; two classes of equal content still differ by it. -/
abbrev ClassId := Nat

structure Reference where
  name : String
  target : Option ClassId := none
  deriving DecidableEq, Repr, Inhabited

/-- The name of the universal type, which annotations leave out. -/
def universalName : String := "object"

inductive TypeExpr
  | named (name : String)
  | ref (reference : Reference)
  /-- A usage written with exactly one argument, such as `list<int>`. -/
  | container (base element : TypeExpr)
  /-- A usage written with an argument list of any length, such as `dict<str, int>`. -/
  | generic (base : TypeExpr) (args : List TypeExpr)
  | union (members : List TypeExpr)
  | inter (members : List TypeExpr)
  deriving Repr

namespace TypeExpr

def universal : TypeExpr := .named universalName

instance : Inhabited TypeExpr := ⟨universal⟩

/-- A reference whose cell is still empty. -/
abbrev unlinked (name : String) : TypeExpr := .ref ⟨name, none⟩

abbrev linked (name : String) (target : ClassId) : TypeExpr := .ref ⟨name, some target⟩

mutual

def same : TypeExpr → TypeExpr → Bool
  | .named m, .named n => m == n
  | .ref q, .ref r => q == r
  | .container b e, .container c f => b.same c && e.same f
  | .generic b as, .generic c bs => b.same c && sameAll as bs
  | .union as, .union bs => sameAll as bs
  | .inter as, .inter bs => sameAll as bs
  | _, _ => false

def sameAll : List TypeExpr → List TypeExpr → Bool
  | [], [] => true
  | a :: as, b :: bs => a.same b && sameAll as bs
  | _, _ => false

end

mutual

theorem same_iff (s t : TypeExpr) : s.same t = true ↔ s = t := by
  cases s <;> cases t <;> simp [same, same_iff, sameAll_iff]

theorem sameAll_iff (as bs : List TypeExpr) : sameAll as bs = true ↔ as = bs := by
  cases as <;> cases bs <;> simp [sameAll, same_iff, sameAll_iff]

end

instance : DecidableEq TypeExpr := fun s t => decidable_of_iff _ (same_iff s t)

def kind : TypeExpr → Kind
  | .named _ => .namedType
  | .ref _ => .classReference
  | .container _ _ => .containerType
  | .generic _ _ => .genericType
  | .union _ => .unionType
  | .inter _ => .intersectionType

def name? : TypeExpr → Option String
  | .named name => some name
  | .ref reference => some reference.name
  | _ => none

def reference? : TypeExpr → Option Reference
  | .ref reference => some reference
  | _ => none

/-- The universal type, whether still a name or already a reference. -/
def isUniversal (t : TypeExpr) : Bool := t.name? == some universalName

end TypeExpr
end InterfaceTree
