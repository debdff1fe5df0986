import InterfaceTree.ClassTable
import InterfaceTree.Walk.Rebuild

/-!
# Resolution

First names become references with an empty cell, and references that are there lose their target,
which belongs to the tree that is being replaced. Then linking fills the empty cells. The classes
that a module is linked with are its own, so they may refer to each other in cycles.
-/
namespace InterfaceTree

section Scope

/-- Whether a name stays a name inside a class with these parameters. -/
def staysName (params : List String) (name : String) : Bool :=
  name == universalName || params.contains name

/-- The reference that a leaf becomes; the state counts the names among them. -/
def referLeaf (params : List String) (t : TypeExpr) : StateM Nat TypeExpr :=
  match t with
  | .named name =>
    if staysName params name then pure t
    else do
      modify (· + 1)
      pure (.unlinked name)
  | .ref reference => pure (.unlinked reference.name)
  | _ => pure t

def Constant.refer (c : Constant) : StateM Nat Constant := c.rebuildM (.ofType (referLeaf []))

def Function.refer (f : Function) : StateM Nat Function := f.rebuildM (.ofType (referLeaf []))

/-- The bounds of a template are in the scope of its parameters. -/
def Class.refer (c : Class) : StateM Nat Class :=
  c.rebuildM (.ofType (referLeaf c.parameterNames))

def Module.refer (x : Module Class) : StateM Nat (Module Class) :=
  x.traverseM Constant.refer Function.refer Class.refer

def Node.refer : Node Class → StateM Nat (Node Class)
  | .module x => .module <$> x.refer
  | .classDecl c => .classDecl <$> c.refer
  | n => n.rebuildM (.ofType (referLeaf []))

/-- The module with references for names. -/
def Module.withReferences (x : Module Class) : Module Class := (x.refer.run 0).1

end Scope

section Link

structure Linking where
  store : Store
  written : Nat := 0
  missing : Option String := none

namespace Linking

def outcome (l : Linking) : Except Fault Nat :=
  match l.missing with
  | some name => .error (UnknownClass.toFault ⟨name⟩)
  | none => .ok l.written

variable (find : String → Option ClassId)

def fill (reference : Reference) : StateM Linking Reference := do
  let l ← get
  if reference.target.isSome || l.missing.isSome then return reference
  else
    match find reference.name with
    | some id =>
      set { l with written := l.written + 1 }
      return { reference with target := some id }
    | none =>
      set { l with missing := some reference.name }
      return reference

def onLeaf (t : TypeExpr) : StateM Linking TypeExpr :=
  match t with
  | .ref reference => .ref <$> fill find reference
  | _ => pure t

def rebuilder : Rebuilder (StateM Linking) := .ofType (onLeaf find)

/-- A class object is changed in the store; every module that holds it sees the change. -/
def onObject (id : ClassId) : StateM Linking ClassId := do
  let c ← ((← get).store.read id).rebuildM (rebuilder find)
  modify fun l => { l with store := l.store.write id c }
  return id

def onModule (x : Module ClassId) : StateM Linking (Module ClassId) :=
  x.traverseM (Constant.rebuildM (rebuilder find)) (Function.rebuildM (rebuilder find))
    (onObject find)

end Linking

def Store.link (s : Store) (find : String → Option ClassId) (x : Module ClassId) :
    Module ClassId × Linking :=
  (Linking.onModule find x).run { store := s }

def Store.indexOf (s : Store) (x : Module ClassId) : ClassIndex := .ofList (s.objectsOf x)

def Store.linkOwn (s : Store) (x : Module ClassId) : Module ClassId × Linking :=
  s.link (ClassTable.id? (s.indexOf x)) x

end Link

section Resolve

/-- Work on held modules. What it did to the store stays done when it fails. -/
abbrev StoreM := ExceptT Fault (StateM Store)

def linkAll (x : Module ClassId) : StoreM (Module ClassId) := do
  let (y, l) := (← get).linkOwn x
  set l.store
  let _ ← l.outcome
  return y

def resolve (x : Module ClassId) : StoreM (Module ClassId) := do
  let s ← get
  let (staged, s) := s.hold (s.load x).withReferences
  set s
  linkAll staged

end Resolve
end InterfaceTree
