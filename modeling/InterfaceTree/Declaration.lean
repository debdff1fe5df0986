import InterfaceTree.TypeExpr

/-!
# Declarations

A module lists its classes either by content, `Module Class`, or by identity, `Module ClassId`, when
the class objects live in a store.
-/
namespace InterfaceTree

structure Constant where
  name : String
  type : TypeExpr
  deriving DecidableEq, Repr, Inhabited

structure Parameter where
  name : String
  type : TypeExpr := .universal
  deriving DecidableEq, Repr, Inhabited

/-- One overload of a function; `variadic` marks a trailing `...`. -/
structure Signature where
  params : List Parameter := []
  variadic : Bool := false
  returns : TypeExpr := .universal
  raises : List TypeExpr := []
  deriving DecidableEq, Repr, Inhabited

structure Function where
  name : String
  signatures : List Signature := []
  deriving DecidableEq, Repr, Inhabited

structure TemplateItem where
  name : String
  bound : TypeExpr := .universal
  deriving DecidableEq, Repr, Inhabited

structure Class where
  name : String
  template : List TemplateItem := []
  parents : List TypeExpr := []
  constants : List Constant := []
  methods : List Function := []
  deriving DecidableEq, Repr, Inhabited

namespace Class

def isGeneric (c : Class) : Bool := !c.template.isEmpty

def parameterNames (c : Class) : List String := c.template.map (·.name)

def constant? (c : Class) (name : String) : Option Constant := c.constants.find? (·.name == name)

def method? (c : Class) (name : String) : Option Function := c.methods.find? (·.name == name)

end Class

structure Module (κ : Type) where
  constants : List Constant := []
  functions : List Function := []
  classes : List κ := []
  deriving DecidableEq, Repr, Inhabited

namespace Module

variable {κ : Type}

def hasGenericClasses (m : Module Class) : Bool := m.classes.any Class.isGeneric

def classIndex? (m : Module Class) (name : String) : Option Nat :=
  m.classes.findIdx? (·.name == name)

def mapClasses {ι : Type} (f : κ → ι) (m : Module κ) : Module ι :=
  { m with classes := m.classes.map f }

end Module

/-- A piece of a declaration tree of any kind. -/
inductive Node (κ : Type)
  | module (m : Module κ)
  | constant (c : Constant)
  | function (f : Function)
  | signature (s : Signature)
  | parameter (p : Parameter)
  | classDecl (c : Class)
  | templateItem (i : TemplateItem)
  | type (t : TypeExpr)
  deriving DecidableEq, Repr

namespace Node

variable {κ : Type}

def kind : Node κ → Kind
  | .module _ => .module
  | .constant _ => .constant
  | .function _ => .function
  | .signature _ => .signature
  | .parameter _ => .parameter
  | .classDecl _ => .classDecl
  | .templateItem _ => .templateItem
  | .type t => t.kind

end Node

section Receivers

/-- A signature without parameters stays as it is. -/
def Signature.dropReceiver (s : Signature) : Signature := { s with params := s.params.tail }

def Function.dropReceiver (f : Function) : Function :=
  { f with signatures := f.signatures.map Signature.dropReceiver }

def Class.dropReceivers (c : Class) : Class :=
  { c with methods := c.methods.map Function.dropReceiver }

def Module.dropReceivers (x : Module Class) : Module Class := x.mapClasses Class.dropReceivers

/-- Only classes, and the classes of a module, have methods. -/
def Node.dropReceivers : Node Class → Node Class
  | .module x => .module x.dropReceivers
  | .classDecl c => .classDecl c.dropReceivers
  | n => n

end Receivers
end InterfaceTree
