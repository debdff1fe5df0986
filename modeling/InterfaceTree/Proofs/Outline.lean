import InterfaceTree.Proofs.Origin

/-!
# The outline of a tree

What is left of a tree when it is not told in which of two ways a usage is written, nor where a
reference leads.
-/
namespace InterfaceTree

namespace TypeExpr

/-- A usage of that base, as a container when there is one argument. -/
def applied (base : TypeExpr) : List TypeExpr → TypeExpr
  | [element] => .container base element
  | args => .generic base args

mutual

/-- The expression with a container for every usage that has one argument. -/
def contained : TypeExpr → TypeExpr
  | .named name => .named name
  | .ref reference => .ref reference
  | .container base element => .container base.contained element.contained
  | .generic base args => applied base.contained (containedAll args)
  | .union members => .union (containedAll members)
  | .inter members => .inter (containedAll members)

def containedAll : List TypeExpr → List TypeExpr
  | [] => []
  | t :: ts => t.contained :: containedAll ts

end

theorem containedAll_eq_map (ts : List TypeExpr) : containedAll ts = ts.map contained := by
  induction ts with
  | nil => rfl
  | cons t ts ih => rw [containedAll, ih, List.map_cons]

def detachedLeaf : TypeExpr → TypeExpr
  | .ref reference => .unlinked reference.name
  | t => t

def detached (t : TypeExpr) : TypeExpr := t.mapLeaves detachedLeaf

def outline (t : TypeExpr) : TypeExpr := t.contained.detached

section Equations

variable (base element : TypeExpr) (ts : List TypeExpr)

@[simp] theorem contained_container :
    contained (.container base element) = .container base.contained element.contained := rfl

@[simp] theorem contained_generic :
    contained (.generic base ts) = applied base.contained (ts.map contained) := by
  rw [← containedAll_eq_map]
  rfl

@[simp] theorem contained_union : contained (.union ts) = .union (ts.map contained) := by
  rw [← containedAll_eq_map]
  rfl

@[simp] theorem contained_inter : contained (.inter ts) = .inter (ts.map contained) := by
  rw [← containedAll_eq_map]
  rfl

@[simp] theorem mapLeaves_applied (g : TypeExpr → TypeExpr) :
    (applied base ts).mapLeaves g = applied (base.mapLeaves g) (ts.map (mapLeaves g)) := by
  rcases ts with _ | ⟨t, _ | ⟨u, ts⟩⟩ <;> simp [applied]

@[simp] theorem contained_applied :
    (applied base ts).contained = applied base.contained (ts.map contained) := by
  rcases ts with _ | ⟨t, _ | ⟨u, ts⟩⟩ <;> simp [applied]

@[simp] theorem leaves_applied :
    (applied base ts).leaves = base.leaves ++ ts.flatMap leaves := by
  rcases ts with _ | ⟨t, _ | ⟨u, ts⟩⟩ <;> simp [applied]

end Equations

theorem isLeaf_detachedLeaf (u : TypeExpr) : u.detachedLeaf.isLeaf = u.isLeaf := by
  cases u <;> rfl

theorem contained_of_isLeaf {u : TypeExpr} (leaf : u.isLeaf = true) : u.contained = u := by
  cases u <;> first | rfl | cases leaf

@[simp] theorem leaves_contained (t : TypeExpr) : t.contained.leaves = t.leaves := by
  have all {ts : List TypeExpr} (h : ∀ t ∈ ts, t.contained.leaves = t.leaves) :
      (ts.map contained).flatMap leaves = ts.flatMap leaves := by
    rw [List.flatMap_map]
    exact List.flatMap_congr h
  induction t with
  | named name => rfl
  | ref reference => rfl
  | container base element hb he => simp [hb, he]
  | generic base args hb ha => rw [contained_generic, leaves_applied, hb, all ha, leaves_generic]
  | union members hm => rw [contained_union, leaves_union, all hm, leaves_union]
  | inter members hm => rw [contained_inter, leaves_inter, all hm, leaves_inter]

theorem contained_contained (t : TypeExpr) : t.contained.contained = t.contained := by
  have all {ts : List TypeExpr} (h : ∀ t ∈ ts, t.contained.contained = t.contained) :
      (ts.map contained).map contained = ts.map contained := by
    rw [List.map_map]
    exact List.map_congr_left h
  induction t with
  | named name => rfl
  | ref reference => rfl
  | container base element hb he => rw [contained_container, contained_container, hb, he]
  | generic base args hb ha => rw [contained_generic, contained_applied, hb, all ha]
  | union members hm => rw [contained_union, contained_union, all hm]
  | inter members hm => rw [contained_inter, contained_inter, all hm]

/-- Which way usages are written does not matter for what is put in the place of leaves. -/
theorem contained_mapLeaves (g : TypeExpr → TypeExpr) (t : TypeExpr) :
    (t.mapLeaves g).contained = t.contained.mapLeaves fun u => (g u).contained := by
  have all {ts : List TypeExpr} (h : ∀ t ∈ ts,
      (t.mapLeaves g).contained = t.contained.mapLeaves fun u => (g u).contained) :
      (ts.map (mapLeaves g)).map contained =
        (ts.map contained).map (mapLeaves fun u => (g u).contained) := by
    rw [List.map_map, List.map_map]
    exact List.map_congr_left h
  induction t with
  | named name => rfl
  | ref reference => rfl
  | container base element hb he => simp [hb, he]
  | generic base args hb ha =>
    rw [mapLeaves_generic, contained_generic, hb, all ha, contained_generic, mapLeaves_applied]
  | union members hm =>
    rw [mapLeaves_union, contained_union, all hm, contained_union, mapLeaves_union]
  | inter members hm =>
    rw [mapLeaves_inter, contained_inter, all hm, contained_inter, mapLeaves_inter]

theorem outline_mapLeaves {g : TypeExpr → TypeExpr}
    (hg : ∀ u, u.isLeaf = true → (g u).detachedLeaf = u.detachedLeaf) (t : TypeExpr) :
    (t.mapLeaves g).outline = t.outline := by
  rw [outline, contained_mapLeaves, detached, mapLeaves_mapLeaves, outline, detached]
  apply mapLeaves_congr
  intro u hu
  have leaf := isLeaf_of_mem_leaves hu
  have image : (g u).isLeaf = true := by
    rw [← isLeaf_detachedLeaf, hg u leaf, isLeaf_detachedLeaf, leaf]
  rw [contained_of_isLeaf image, mapLeaves_of_isLeaf image, hg u leaf]

theorem outline_detached (t : TypeExpr) : t.detached.outline = t.outline := by
  apply outline_mapLeaves
  intro u _
  cases u <;> rfl

theorem name?_outline (t : TypeExpr) : t.outline.name? = t.name? := by
  rcases t with _ | _ | _ | ⟨base, _ | ⟨t, _ | ⟨u, ts⟩⟩⟩ | _ | _ <;> rfl

/-- Putting an expression in the place of a name is seen in the outline and nothing else of it. -/
theorem outline_put (t : TypeExpr) (name : String) (element : TypeExpr) :
    (t.put name element).outline = t.outline.put name element.outline := by
  simp only [put, outline, contained_mapLeaves, detached, mapLeaves_mapLeaves]
  apply mapLeaves_congr
  intro u hu
  have leaf := isLeaf_of_mem_leaves hu
  have same : u.detachedLeaf.name? = u.name? := by
    cases u <;> rfl
  have leaf' : u.detachedLeaf.isLeaf = true := by rw [isLeaf_detachedLeaf, leaf]
  rw [mapLeaves_of_isLeaf leaf', same]
  split
  · rfl
  · rw [contained_of_isLeaf leaf, mapLeaves_of_isLeaf leaf]

end TypeExpr

section Rebuild

variable {spec : TypeExpr → TypeExpr → Instantiating TypeExpr}

namespace TypeExpr

/-- One usage, however it is written, is one usage to instantiation. -/
theorem rebuildM_applied (base : TypeExpr) (ts : List TypeExpr) :
    (applied base ts).rebuildM (onUsage spec) = (generic base ts).rebuildM (onUsage spec) := by
  rcases ts with _ | ⟨t, _ | ⟨u, ts⟩⟩
  · rfl
  · rw [applied, rebuildM_usage rfl, rebuildM_usage (u := generic base [t]) rfl]
  · rfl

private theorem rebuildAllM_map {f : TypeExpr → TypeExpr} {ts : List TypeExpr}
    (h : ∀ t ∈ ts, (f t).rebuildM (onUsage spec) = t.rebuildM (onUsage spec)) :
    rebuildAllM (onUsage spec) (ts.map f) = rebuildAllM (onUsage spec) ts := by
  induction ts with
  | nil => rfl
  | cons t ts ih =>
    rw [List.forall_mem_cons] at h
    rw [List.map_cons, rebuildAllM, rebuildAllM, h.1, ih h.2]

theorem rebuildM_contained (t : TypeExpr) :
    t.contained.rebuildM (onUsage spec) = t.rebuildM (onUsage spec) := by
  induction t with
  | named name => rfl
  | ref reference => rfl
  | container base element hb he => rw [contained_container, rebuildM, hb, he, rebuildM]
  | generic base args hb ha =>
    rw [contained_generic, rebuildM_applied, rebuildM, hb, rebuildAllM_map ha, rebuildM]
  | union members hm => rw [contained_union, rebuildM, rebuildAllM_map hm, rebuildM]
  | inter members hm => rw [contained_inter, rebuildM, rebuildAllM_map hm, rebuildM]

theorem rebuildM_detached (t : TypeExpr) :
    t.detached.rebuildM (onUsage spec) = t.rebuildM (onUsage spec) := by
  rw [detached]
  induction t with
  | named name => rfl
  | ref reference => rfl
  | container base element hb he => rw [mapLeaves_container, rebuildM, hb, he, rebuildM]
  | generic base args hb ha =>
    rw [mapLeaves_generic, rebuildM, hb, rebuildAllM_map ha, rebuildM]
  | union members hm => rw [mapLeaves_union, rebuildM, rebuildAllM_map hm, rebuildM]
  | inter members hm => rw [mapLeaves_inter, rebuildM, rebuildAllM_map hm, rebuildM]

/-- Instantiation sees no more of an expression than its outline. -/
theorem rebuildM_outline (t : TypeExpr) :
    t.outline.rebuildM (onUsage spec) = t.rebuildM (onUsage spec) := by
  rw [outline, rebuildM_detached, rebuildM_contained]

end TypeExpr

end Rebuild

section MapTypes

variable {m : Type → Type} [Monad m] [LawfulMonad m] {f : TypeExpr → TypeExpr}

theorem mapM_map_congr {α β : Type} {v : α → m β} {f : α → α}
    (h : ∀ a, v (f a) = v a) (as : List α) : (as.map f).mapM v = as.mapM v := by
  rw [List.mapM_map]
  exact congrArg (as.mapM ·) (funext h)

section Rebuild

variable {g : TypeExpr → m TypeExpr} (h : ∀ t, (f t).rebuildM g = t.rebuildM g)
include h

theorem Constant.rebuildM_mapTypes (c : Constant) :
    (c.mapTypes f).rebuildM (.ofType g) = c.rebuildM (.ofType g) := by
  simp only [rebuildM_ofType, mapTypes, h]

private theorem Signature.rebuildM_mapTypes (s : Signature) :
    (s.mapTypes f).rebuildM (.ofType g) = s.rebuildM (.ofType g) := by
  have params := mapM_map_congr (v := Parameter.rebuildM (.ofType g))
    (f := Parameter.mapTypes f) fun p => by
      simp only [Parameter.rebuildM_ofType, Parameter.mapTypes, h]
  simp only [rebuildM_ofType, mapTypes, params, h, mapM_map_congr h]

theorem Function.rebuildM_mapTypes (k : Function) :
    (k.mapTypes f).rebuildM (.ofType g) = k.rebuildM (.ofType g) := by
  simp only [rebuildM_ofType, mapTypes, mapM_map_congr (Signature.rebuildM_mapTypes h)]

theorem Class.rebuildM_mapTypes (c : Class) :
    (c.mapTypes f).rebuildM (.ofType g) = c.rebuildM (.ofType g) := by
  have template := mapM_map_congr (v := TemplateItem.rebuildM (.ofType g))
    (f := TemplateItem.mapTypes f) fun i => by
      simp only [TemplateItem.rebuildM_ofType, TemplateItem.mapTypes, h]
  simp only [rebuildM_ofType, mapTypes, template, mapM_map_congr h,
    mapM_map_congr (Constant.rebuildM_mapTypes h), mapM_map_congr (Function.rebuildM_mapTypes h)]

end Rebuild

section Evaluate

/-- An evaluator that makes no difference between a tree and its image. -/
structure Evaluator.Ignores {α : Type} (e : Evaluator m α) (f : TypeExpr → TypeExpr) : Prop where
  type : ∀ t, (f t).evaluate e = t.evaluate e
  constant : ∀ c, e.constant (c.mapTypes f) = e.constant c
  parameter : ∀ p, e.parameter (p.mapTypes f) = e.parameter p
  templateItem : ∀ i, e.templateItem (i.mapTypes f) = e.templateItem i
  signature : ∀ s, e.signature (s.mapTypes f) = e.signature s
  function : ∀ k, e.function (k.mapTypes f) = e.function k
  classDecl : ∀ c, e.classDecl (c.mapTypes f) = e.classDecl c
  module : ∀ x, e.module (x.mapTypes f) = e.module x

variable {α : Type} {e : Evaluator m α} (h : e.Ignores f)
include h

omit [LawfulMonad m] in
private theorem Constant.evaluate_mapTypes (c : Constant) :
    (c.mapTypes f).evaluate e = c.evaluate e := by
  rw [evaluate, h.constant]
  simp only [mapTypes, h.type, evaluate]

private theorem Signature.evaluate_mapTypes (s : Signature) :
    (s.mapTypes f).evaluate e = s.evaluate e := by
  have params := mapM_map_congr (v := Parameter.evaluate e) (f := Parameter.mapTypes f)
    fun p => by
      rw [Parameter.evaluate, h.parameter]
      simp only [Parameter.mapTypes, h.type, Parameter.evaluate]
  rw [evaluate, h.signature]
  simp only [mapTypes, params, h.type, mapM_map_congr h.type, evaluate]

private theorem Function.evaluate_mapTypes (k : Function) :
    (k.mapTypes f).evaluate e = k.evaluate e := by
  rw [evaluate, h.function]
  simp only [mapTypes, mapM_map_congr (Signature.evaluate_mapTypes h), evaluate]

private theorem Class.evaluate_mapTypes (c : Class) :
    (c.mapTypes f).evaluate e = c.evaluate e := by
  have template := mapM_map_congr (v := TemplateItem.evaluate e)
    (f := TemplateItem.mapTypes f) fun i => by
      rw [TemplateItem.evaluate, h.templateItem]
      simp only [TemplateItem.mapTypes, h.type, TemplateItem.evaluate]
  rw [evaluate, h.classDecl]
  simp only [mapTypes, template, mapM_map_congr h.type,
    mapM_map_congr (Constant.evaluate_mapTypes h), mapM_map_congr (Function.evaluate_mapTypes h),
    evaluate]

theorem Module.evaluate_mapTypes (x : Module Class) : (x.mapTypes f).evaluate e = x.evaluate e := by
  rw [evaluate, h.module]
  simp only [mapTypes, mapM_map_congr (Constant.evaluate_mapTypes h),
    mapM_map_congr (Function.evaluate_mapTypes h), mapM_map_congr (Class.evaluate_mapTypes h),
    evaluate]

end Evaluate
end MapTypes

section Text

variable (indent : Nat) (style : Name.Style)

namespace TypeExpr

private theorem evaluate_applied (base : TypeExpr) (ts : List TypeExpr) :
    (applied base ts).evaluate (Layout.rules indent style) =
      (generic base ts).evaluate (Layout.rules indent style) := by
  rcases ts with _ | ⟨t, _ | ⟨u, ts⟩⟩
  · rfl
  · simp [applied, evaluate, evaluateAll, Layout.rules]
  · rfl

private theorem evaluateAll_map {f : TypeExpr → TypeExpr} {e : Evaluator (Except Fault) String}
    {ts : List TypeExpr} (h : ∀ t ∈ ts, (f t).evaluate e = t.evaluate e) :
    evaluateAll e (ts.map f) = evaluateAll e ts := by
  induction ts with
  | nil => rfl
  | cons t ts ih =>
    rw [List.forall_mem_cons] at h
    rw [List.map_cons, evaluateAll, evaluateAll, h.1, ih h.2]

theorem evaluate_contained (t : TypeExpr) : t.contained.evaluate (Layout.rules indent style) =
    t.evaluate (Layout.rules indent style) := by
  induction t with
  | named name => rfl
  | ref reference => rfl
  | container base element hb he =>
    rw [contained_container, evaluate, hb, he]
    rfl
  | generic base args hb ha =>
    rw [contained_generic, evaluate_applied, evaluate, hb, evaluateAll_map ha]
    rfl
  | union members hm =>
    rw [contained_union, evaluate, evaluateAll_map hm]
    rfl
  | inter members hm =>
    rw [contained_inter, evaluate, evaluateAll_map hm]
    rfl

theorem evaluate_detached (t : TypeExpr) : t.detached.evaluate (Layout.rules indent style) =
    t.evaluate (Layout.rules indent style) := by
  rw [detached]
  induction t with
  | named name => rfl
  | ref reference => rfl
  | container base element hb he =>
    rw [mapLeaves_container, evaluate, hb, he]
    rfl
  | generic base args hb ha =>
    rw [mapLeaves_generic, evaluate, hb, evaluateAll_map ha]
    rfl
  | union members hm =>
    rw [mapLeaves_union, evaluate, evaluateAll_map hm]
    rfl
  | inter members hm =>
    rw [mapLeaves_inter, evaluate, evaluateAll_map hm]
    rfl

theorem evaluate_outline (t : TypeExpr) : t.outline.evaluate (Layout.rules indent style) =
    t.evaluate (Layout.rules indent style) := by
  rw [outline, evaluate_detached, evaluate_contained]

end TypeExpr

/-- The text of a declaration is that of its outline. -/
theorem ignores_outline : (Layout.rules indent style).Ignores TypeExpr.outline := by
  have universal (t : TypeExpr) : t.outline.isUniversal = t.isUniversal := by
    rw [TypeExpr.isUniversal, TypeExpr.name?_outline, TypeExpr.isUniversal]
  refine ⟨TypeExpr.evaluate_outline indent style, fun _ => rfl, fun p => ?_, fun i => ?_,
    fun s => ?_, fun _ => rfl, fun _ => rfl, fun _ => rfl⟩
  · funext text
    simp only [Layout.rules, Layout.annotated, Parameter.mapTypes, universal]
  · funext text
    simp only [Layout.rules, TemplateItem.mapTypes, universal]
  · funext params returns raises
    simp only [Layout.rules, Layout.signatureText, Signature.mapTypes, universal]

end Text

section Modules

def Class.outline (c : Class) : Class := c.mapTypes TypeExpr.outline

def Module.outline (x : Module Class) : Module Class := x.mapTypes TypeExpr.outline

def Module.contained (x : Module Class) : Module Class := x.mapTypes TypeExpr.contained

def Module.detached (x : Module Class) : Module Class := x.mapTypes TypeExpr.detached

theorem Module.outline_contained (x : Module Class) : x.contained.outline = x.outline := by
  have same (t : TypeExpr) : t.contained.outline = t.outline := by
    rw [TypeExpr.outline, TypeExpr.contained_contained, TypeExpr.outline]
  rw [contained, outline, mapTypes_mapTypes, funext same]
  rfl

theorem Module.outline_detached (x : Module Class) : x.detached.outline = x.outline := by
  rw [detached, outline, mapTypes_mapTypes, funext TypeExpr.outline_detached]
  rfl

theorem Module.print_outline (indent : Nat) (x : Module Class) :
    x.outline.print indent = x.print indent :=
  evaluate_mapTypes (ignores_outline indent .quoted) x

end Modules
end InterfaceTree
