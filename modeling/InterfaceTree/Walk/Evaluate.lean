import InterfaceTree.Declaration

/-! # Evaluating a tree -/
namespace InterfaceTree

structure Evaluator (m : Type → Type) (α : Type) where
  module : Module Class → (constants functions classes : List α) → m α
  constant : Constant → (type : α) → m α
  function : Function → (signatures : List α) → m α
  signature : Signature → (params : List α) → (returns : α) → (raises : List α) → m α
  parameter : Parameter → (type : α) → m α
  classDecl : Class → (template parents constants methods : List α) → m α
  templateItem : TemplateItem → (bound : α) → m α
  named : (name : String) → m α
  ref : Reference → m α
  container : TypeExpr → (base element : α) → m α
  generic : TypeExpr → (base : α) → (args : List α) → m α
  union : TypeExpr → (members : List α) → m α
  inter : TypeExpr → (members : List α) → m α

variable {m : Type → Type} [Monad m] {α : Type}

namespace TypeExpr

mutual

def evaluate (e : Evaluator m α) : TypeExpr → m α
  | .named name => e.named name
  | .ref reference => e.ref reference
  | .container base element => do
    let b ← base.evaluate e
    let a ← element.evaluate e
    e.container (.container base element) b a
  | .generic base args => do
    let b ← base.evaluate e
    let as ← evaluateAll e args
    e.generic (.generic base args) b as
  | .union members => do
    let as ← evaluateAll e members
    e.union (.union members) as
  | .inter members => do
    let as ← evaluateAll e members
    e.inter (.inter members) as

def evaluateAll (e : Evaluator m α) : List TypeExpr → m (List α)
  | [] => pure []
  | t :: ts => do
    let a ← t.evaluate e
    let as ← evaluateAll e ts
    pure (a :: as)

end

theorem evaluateAll_eq_mapM [LawfulMonad m] (e : Evaluator m α) (ts : List TypeExpr) :
    evaluateAll e ts = ts.mapM (evaluate e) := by
  induction ts with
  | nil => simp [evaluateAll]
  | cons t ts ih => simp [evaluateAll, ih]

end TypeExpr

def Constant.evaluate (e : Evaluator m α) (c : Constant) : m α := do
  let type ← c.type.evaluate e
  e.constant c type

def Parameter.evaluate (e : Evaluator m α) (p : Parameter) : m α := do
  let type ← p.type.evaluate e
  e.parameter p type

def TemplateItem.evaluate (e : Evaluator m α) (i : TemplateItem) : m α := do
  let bound ← i.bound.evaluate e
  e.templateItem i bound

def Signature.evaluate (e : Evaluator m α) (s : Signature) : m α := do
  let params ← s.params.mapM (Parameter.evaluate e)
  let returns ← s.returns.evaluate e
  let raises ← s.raises.mapM (TypeExpr.evaluate e)
  e.signature s params returns raises

def Function.evaluate (e : Evaluator m α) (f : Function) : m α := do
  let signatures ← f.signatures.mapM (Signature.evaluate e)
  e.function f signatures

def Class.evaluate (e : Evaluator m α) (c : Class) : m α := do
  let template ← c.template.mapM (TemplateItem.evaluate e)
  let parents ← c.parents.mapM (TypeExpr.evaluate e)
  let constants ← c.constants.mapM (Constant.evaluate e)
  let methods ← c.methods.mapM (Function.evaluate e)
  e.classDecl c template parents constants methods

def Module.evaluate (e : Evaluator m α) (x : Module Class) : m α := do
  let constants ← x.constants.mapM (Constant.evaluate e)
  let functions ← x.functions.mapM (Function.evaluate e)
  let classes ← x.classes.mapM (Class.evaluate e)
  e.module x constants functions classes

def Node.evaluate (e : Evaluator m α) : Node Class → m α
  | .module x => x.evaluate e
  | .constant c => c.evaluate e
  | .function f => f.evaluate e
  | .signature s => s.evaluate e
  | .parameter p => p.evaluate e
  | .classDecl c => c.evaluate e
  | .templateItem i => i.evaluate e
  | .type t => t.evaluate e

end InterfaceTree
