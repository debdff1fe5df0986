import InterfaceTree.Declaration

/-! # Observing a tree -/
namespace InterfaceTree

structure Observer (m : Type → Type) [Monad m] where
  /-- Runs at a declaration before its parts; type expressions are not entered. -/
  enter : Node Class → m Unit := fun _ => pure ()
  leave : Node Class → m Unit := fun _ => pure ()

variable {m : Type → Type} [Monad m]

namespace TypeExpr

mutual

def observe (o : Observer m) : TypeExpr → m Unit
  | .named name => o.leave (.type (.named name))
  | .ref reference => o.leave (.type (.ref reference))
  | .container base element => do
    base.observe o
    element.observe o
    o.leave (.type (.container base element))
  | .generic base args => do
    base.observe o
    observeAll o args
    o.leave (.type (.generic base args))
  | .union members => do
    observeAll o members
    o.leave (.type (.union members))
  | .inter members => do
    observeAll o members
    o.leave (.type (.inter members))

def observeAll (o : Observer m) : List TypeExpr → m Unit
  | [] => pure ()
  | t :: ts => do
    t.observe o
    observeAll o ts

end

theorem observeAll_eq_forM (o : Observer m) (ts : List TypeExpr) :
    observeAll o ts = ts.forM (observe o) := by
  induction ts with
  | nil => rfl
  | cons t ts ih =>
    rw [observeAll, ih]
    rfl

end TypeExpr

def Constant.observe (o : Observer m) (c : Constant) : m Unit := do
  o.enter (.constant c)
  c.type.observe o
  o.leave (.constant c)

def Parameter.observe (o : Observer m) (p : Parameter) : m Unit := do
  o.enter (.parameter p)
  p.type.observe o
  o.leave (.parameter p)

def TemplateItem.observe (o : Observer m) (i : TemplateItem) : m Unit := do
  o.enter (.templateItem i)
  i.bound.observe o
  o.leave (.templateItem i)

def Signature.observe (o : Observer m) (s : Signature) : m Unit := do
  o.enter (.signature s)
  s.params.forM (Parameter.observe o)
  s.returns.observe o
  s.raises.forM (TypeExpr.observe o)
  o.leave (.signature s)

def Function.observe (o : Observer m) (f : Function) : m Unit := do
  o.enter (.function f)
  f.signatures.forM (Signature.observe o)
  o.leave (.function f)

def Class.observe (o : Observer m) (c : Class) : m Unit := do
  o.enter (.classDecl c)
  c.template.forM (TemplateItem.observe o)
  c.parents.forM (TypeExpr.observe o)
  c.constants.forM (Constant.observe o)
  c.methods.forM (Function.observe o)
  o.leave (.classDecl c)

def Module.observe (o : Observer m) (x : Module Class) : m Unit := do
  o.enter (.module x)
  x.constants.forM (Constant.observe o)
  x.functions.forM (Function.observe o)
  x.classes.forM (Class.observe o)
  o.leave (.module x)

def Node.observe (o : Observer m) : Node Class → m Unit
  | .module x => x.observe o
  | .constant c => c.observe o
  | .function f => f.observe o
  | .signature s => s.observe o
  | .parameter p => p.observe o
  | .classDecl c => c.observe o
  | .templateItem i => i.observe o
  | .type t => t.observe o

def Node.references (n : Node Class) : List Reference :=
  let collect : Observer (StateM (Array Reference)) := {
    leave := fun
      | .type (.ref reference) => modify (·.push reference)
      | _ => pure () }
  ((n.observe collect).run #[]).2.toList

end InterfaceTree
