import InterfaceTree.Instance.Specialize
import InterfaceTree.Resolution

namespace InterfaceTree

section

variable {τ : Type} [ClassTable τ] (table : τ)

def usageRebuilder : Rebuilder Instantiating := .ofType (onUsage (specialize table []))

def Class.instantiate (c : Class) : Instantiating ClassId := do
  let c ← c.rebuildM (usageRebuilder table)
  modifyGet (Instantiation.addObject c)

/-- All instances made so far go to the module, those of earlier trees too. -/
def Module.instantiate (x : Module Class) : Instantiating (Module ClassId) := do
  let concrete := { x with classes := x.classes.filter fun c => !Class.isGeneric c }
  let y ← concrete.traverseM (Constant.rebuildM (usageRebuilder table))
    (Function.rebuildM (usageRebuilder table)) (Class.instantiate table)
  let made ← modifyGet Instantiation.takeInstances
  return { y with classes := y.classes ++ made }

def Node.instantiate : Node Class → Instantiating (Node ClassId)
  | .module x => .module <$> x.instantiate table
  | .constant c => .constant <$> c.rebuildM (usageRebuilder table)
  | .function f => .function <$> f.rebuildM (usageRebuilder table)
  | .signature s => .signature <$> s.rebuildM (usageRebuilder table)
  | .parameter p => .parameter <$> p.rebuildM (usageRebuilder table)
  | .classDecl c => .classDecl <$> c.rebuildM (usageRebuilder table)
  | .templateItem i => .templateItem <$> i.rebuildM (usageRebuilder table)
  | .type t => .type <$> t.rebuildM (usageRebuilder table).type

/-- Instantiates a module with a fresh cache and without linking the result. -/
def instantiateUnlinked (x : Module ClassId) : StoreM (Module ClassId) := do
  let s ← get
  let (result, after) := ((s.load x).instantiate table).run.run { store := s }
  set after.store
  result

end

/-- Afterwards the module holds its concrete classes and then the instances, and every reference in
it is linked with one of its classes. -/
def instantiate (x : Module ClassId) : StoreM (Module ClassId) := do
  let y ← instantiateUnlinked ((← get).indexOf x) x
  linkAll y

end InterfaceTree
