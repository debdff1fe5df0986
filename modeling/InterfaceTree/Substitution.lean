import Std.Data.TreeMap
import InterfaceTree.Fault
import InterfaceTree.Walk.Rebuild

/-!
# Replacing leaves by name

Replacement is done all at once: what is put in is not searched again.
-/
namespace InterfaceTree

abbrev TypeMapping := Std.TreeMap String TypeExpr

/-- What a mapping puts in the place of a leaf; all else stays. -/
def TypeMapping.onLeaf (f : TypeMapping) (t : TypeExpr) : TypeExpr :=
  match t.name? with
  | some name => f.getD name t
  | none => t

def TypeMapping.rebuilder (f : TypeMapping) : Rebuilder Id := .ofType fun t => pure (f.onLeaf t)

def TypeExpr.replace (f : TypeMapping) (t : TypeExpr) : TypeExpr :=
  (t.rebuildM f.rebuilder.type).run

def Constant.replace (f : TypeMapping) (c : Constant) : Constant := (c.rebuildM f.rebuilder).run

def Function.replace (f : TypeMapping) (g : Function) : Function := (g.rebuildM f.rebuilder).run

def Class.replace (f : TypeMapping) (c : Class) : Class := (c.rebuildM f.rebuilder).run

def Module.replace (f : TypeMapping) (x : Module Class) : Module Class :=
  (x.rebuildM f.rebuilder).run

def Node.replace (f : TypeMapping) (n : Node Class) : Node Class := (n.rebuildM f.rebuilder).run

section

variable (f : TypeMapping)

namespace TypeExpr

theorem replace_named (name : String) : replace f (.named name) = f.onLeaf (.named name) := rfl

theorem replace_ref (reference : Reference) :
    replace f (.ref reference) = f.onLeaf (.ref reference) := rfl

theorem replace_container (base element : TypeExpr) :
    replace f (.container base element) = .container (base.replace f) (element.replace f) := rfl

private theorem run_rebuildAllM (ts : List TypeExpr) :
    (rebuildAllM f.rebuilder.type ts).run = ts.map (replace f) := by
  rw [rebuildAllM_eq_mapM, List.idRun_mapM]
  rfl

theorem replace_generic (base : TypeExpr) (args : List TypeExpr) :
    replace f (.generic base args) = .generic (base.replace f) (args.map (replace f)) := by
  rw [← run_rebuildAllM]
  rfl

theorem replace_union (members : List TypeExpr) :
    replace f (.union members) = .union (members.map (replace f)) := by
  rw [← run_rebuildAllM]
  rfl

theorem replace_inter (members : List TypeExpr) :
    replace f (.inter members) = .inter (members.map (replace f)) := by
  rw [← run_rebuildAllM]
  rfl

end TypeExpr

theorem Constant.replace_eq (c : Constant) :
    c.replace f = { c with type := c.type.replace f } := rfl

theorem Function.replace_eq (g : Function) : g.replace f =
    { g with
      signatures := g.signatures.map fun s => { s with
        params := s.params.map fun p => { p with type := p.type.replace f }
        returns := s.returns.replace f
        raises := s.raises.map (TypeExpr.replace f) } } := by
  simp [Function.replace, TypeMapping.rebuilder, Function.rebuildM_ofType,
    Signature.rebuildM_ofType, Parameter.rebuildM_ofType, TypeExpr.replace]

theorem Class.replace_eq (c : Class) : c.replace f =
    { c with
      template := c.template.map fun i => { i with bound := i.bound.replace f }
      parents := c.parents.map (TypeExpr.replace f)
      constants := c.constants.map (Constant.replace f)
      methods := c.methods.map (Function.replace f) } := by
  simp [Class.replace, TypeMapping.rebuilder, Class.rebuildM_ofType, TemplateItem.rebuildM_ofType,
    Constant.replace, Function.replace, TypeExpr.replace]

theorem Module.replace_eq (x : Module Class) : x.replace f =
    { constants := x.constants.map (Constant.replace f)
      functions := x.functions.map (Function.replace f)
      classes := x.classes.map (Class.replace f) } := by
  simp [Module.replace, TypeMapping.rebuilder, Module.rebuildM_ofType, Module.traverseM,
    Constant.replace, Function.replace, Class.replace]

end

namespace Template

/-- Binds parameters to arguments in order; a parameter declared twice keeps the later one. -/
def bindAll (template : List TemplateItem) (args : List TypeExpr) : TypeMapping :=
  (template.zip args).foldl (fun f (item, arg) => f.insert item.name arg) ∅

def bind (className : String) (template : List TemplateItem) (args : List TypeExpr) :
    Except Fault TypeMapping :=
  if template.length = args.length then .ok (bindAll template args)
  else .error (.malformed .classDecl (.arity className template.length args.length))

/-- The concrete class of that name, with the mapping applied to the body of the template. -/
def apply (template : Class) (name : String) (f : TypeMapping) : Class :=
  Class.replace f { template with name, template := [] }

end Template
end InterfaceTree
