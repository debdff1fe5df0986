import InterfaceTree.Declaration

/-!
# Rebuilding a tree

Each hook receives its node with the parts rebuilt already. The result of a hook is not rebuilt
again.
-/
namespace InterfaceTree

structure Rebuilder (m : Type → Type) [Monad m] where
  /-- Runs at a declaration before its parts; type expressions are not entered. -/
  enter : Node Class → m Unit := fun _ => pure ()
  module : Module Class → m (Module Class) := pure
  constant : Constant → m Constant := pure
  function : Function → m Function := pure
  signature : Signature → m Signature := pure
  parameter : Parameter → m Parameter := pure
  classDecl : Class → m Class := pure
  templateItem : TemplateItem → m TemplateItem := pure
  type : TypeExpr → m TypeExpr := pure

variable {m : Type → Type} [Monad m]

def Rebuilder.ofType (f : TypeExpr → m TypeExpr) : Rebuilder m := { type := f }

@[simp] theorem Rebuilder.type_ofType (f : TypeExpr → m TypeExpr) : (ofType f).type = f := rfl

namespace TypeExpr

mutual

def rebuildM (f : TypeExpr → m TypeExpr) : TypeExpr → m TypeExpr
  | .named name => f (.named name)
  | .ref reference => f (.ref reference)
  | .container base element => do
    let base ← base.rebuildM f
    let element ← element.rebuildM f
    f (.container base element)
  | .generic base args => do
    let base ← base.rebuildM f
    let args ← rebuildAllM f args
    f (.generic base args)
  | .union members => do
    let members ← rebuildAllM f members
    f (.union members)
  | .inter members => do
    let members ← rebuildAllM f members
    f (.inter members)

def rebuildAllM (f : TypeExpr → m TypeExpr) : List TypeExpr → m (List TypeExpr)
  | [] => pure []
  | t :: ts => do
    let t ← t.rebuildM f
    let ts ← rebuildAllM f ts
    pure (t :: ts)

end

theorem rebuildAllM_eq_mapM [LawfulMonad m] (f : TypeExpr → m TypeExpr) (ts : List TypeExpr) :
    rebuildAllM f ts = ts.mapM (rebuildM f) := by
  induction ts with
  | nil => simp [rebuildAllM]
  | cons t ts ih => simp [rebuildAllM, ih]

end TypeExpr

def Constant.rebuildM (r : Rebuilder m) (c : Constant) : m Constant := do
  r.enter (.constant c)
  let type ← c.type.rebuildM r.type
  r.constant { c with type }

def Parameter.rebuildM (r : Rebuilder m) (p : Parameter) : m Parameter := do
  r.enter (.parameter p)
  let type ← p.type.rebuildM r.type
  r.parameter { p with type }

def TemplateItem.rebuildM (r : Rebuilder m) (i : TemplateItem) : m TemplateItem := do
  r.enter (.templateItem i)
  let bound ← i.bound.rebuildM r.type
  r.templateItem { i with bound }

def Signature.rebuildM (r : Rebuilder m) (s : Signature) : m Signature := do
  r.enter (.signature s)
  let params ← s.params.mapM (Parameter.rebuildM r)
  let returns ← s.returns.rebuildM r.type
  let raises ← s.raises.mapM (TypeExpr.rebuildM r.type)
  r.signature { s with params, returns, raises }

def Function.rebuildM (r : Rebuilder m) (f : Function) : m Function := do
  r.enter (.function f)
  let signatures ← f.signatures.mapM (Signature.rebuildM r)
  r.function { f with signatures }

def Class.rebuildM (r : Rebuilder m) (c : Class) : m Class := do
  r.enter (.classDecl c)
  let template ← c.template.mapM (TemplateItem.rebuildM r)
  let parents ← c.parents.mapM (TypeExpr.rebuildM r.type)
  let constants ← c.constants.mapM (Constant.rebuildM r)
  let methods ← c.methods.mapM (Function.rebuildM r)
  r.classDecl { c with template, parents, constants, methods }

/-- Rebuilds a module section by section, whatever it lists as its classes. -/
def Module.traverseM {κ ι : Type} (constant : Constant → m Constant)
    (function : Function → m Function) (cls : κ → m ι) (x : Module κ) : m (Module ι) := do
  let constants ← x.constants.mapM constant
  let functions ← x.functions.mapM function
  let classes ← x.classes.mapM cls
  pure { constants, functions, classes }

def Module.rebuildM (r : Rebuilder m) (x : Module Class) : m (Module Class) := do
  r.enter (.module x)
  let y ← x.traverseM (Constant.rebuildM r) (Function.rebuildM r) (Class.rebuildM r)
  r.module y

def Node.rebuildM (r : Rebuilder m) : Node Class → m (Node Class)
  | .module x => .module <$> x.rebuildM r
  | .constant c => .constant <$> c.rebuildM r
  | .function f => .function <$> f.rebuildM r
  | .signature s => .signature <$> s.rebuildM r
  | .parameter p => .parameter <$> p.rebuildM r
  | .classDecl c => .classDecl <$> c.rebuildM r
  | .templateItem i => .templateItem <$> i.rebuildM r
  | .type t => .type <$> t.rebuildM r.type

/-- The tree that a rebuilder without hooks builds. -/
def Node.rebuilt (n : Node Class) : Node Class := (n.rebuildM (m := Id) {}).run

section OfType

variable [LawfulMonad m] (f : TypeExpr → m TypeExpr)

theorem Constant.rebuildM_ofType (c : Constant) : c.rebuildM (.ofType f) = (do
    let type ← c.type.rebuildM f
    pure { c with type }) := by
  simp [Constant.rebuildM, Rebuilder.ofType]

theorem Parameter.rebuildM_ofType (p : Parameter) : p.rebuildM (.ofType f) = (do
    let type ← p.type.rebuildM f
    pure { p with type }) := by
  simp [Parameter.rebuildM, Rebuilder.ofType]

theorem TemplateItem.rebuildM_ofType (i : TemplateItem) : i.rebuildM (.ofType f) = (do
    let bound ← i.bound.rebuildM f
    pure { i with bound }) := by
  simp [TemplateItem.rebuildM, Rebuilder.ofType]

theorem Signature.rebuildM_ofType (s : Signature) : s.rebuildM (.ofType f) = (do
    let params ← s.params.mapM (Parameter.rebuildM (.ofType f))
    let returns ← s.returns.rebuildM f
    let raises ← s.raises.mapM (TypeExpr.rebuildM f)
    pure { s with params, returns, raises }) := by
  simp [Signature.rebuildM, Rebuilder.ofType]

theorem Function.rebuildM_ofType (g : Function) : g.rebuildM (.ofType f) = (do
    let signatures ← g.signatures.mapM (Signature.rebuildM (.ofType f))
    pure { g with signatures }) := by
  simp [Function.rebuildM, Rebuilder.ofType]

theorem Class.rebuildM_ofType (c : Class) : c.rebuildM (.ofType f) = (do
    let template ← c.template.mapM (TemplateItem.rebuildM (.ofType f))
    let parents ← c.parents.mapM (TypeExpr.rebuildM f)
    let constants ← c.constants.mapM (Constant.rebuildM (.ofType f))
    let methods ← c.methods.mapM (Function.rebuildM (.ofType f))
    pure { c with template, parents, constants, methods }) := by
  simp [Class.rebuildM, Rebuilder.ofType]

theorem Module.rebuildM_ofType (x : Module Class) : x.rebuildM (.ofType f) =
    x.traverseM (Constant.rebuildM (.ofType f)) (Function.rebuildM (.ofType f))
      (Class.rebuildM (.ofType f)) := by
  simp [Module.rebuildM, Rebuilder.ofType]

end OfType
end InterfaceTree
