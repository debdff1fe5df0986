import InterfaceTree.Proofs.Types

/-!
# Rebuilding is a walk over a list

What a rebuilder of type expressions does to a declaration is what it does to the list of the types
in it; the results are then put back in their places.
-/
namespace InterfaceTree

section RefillAll

variable {α β : Type} (parts : α → List β) (refill : α → List β → α)

/-- Gives every item as many of the new parts as it has places. -/
def refillAll : List α → List β → List α
  | [], _ => []
  | a :: as, bs =>
    refill a (bs.take (parts a).length) :: refillAll as (bs.drop (parts a).length)

end RefillAll

def Constant.refill (c : Constant) (ts : List TypeExpr) : Constant :=
  { c with type := ts.headD c.type }

def Parameter.refill (p : Parameter) (ts : List TypeExpr) : Parameter :=
  { p with type := ts.headD p.type }

def TemplateItem.refill (i : TemplateItem) (ts : List TypeExpr) : TemplateItem :=
  { i with bound := ts.headD i.bound }

def Signature.refill (s : Signature) (ts : List TypeExpr) : Signature :=
  let places := s.params.flatMap Parameter.types
  let rest := ts.drop places.length
  { s with
    params := refillAll Parameter.types Parameter.refill s.params (ts.take places.length)
    returns := rest.headD s.returns
    raises := rest.tail }

def Function.refill (f : Function) (ts : List TypeExpr) : Function :=
  { f with signatures := refillAll Signature.types Signature.refill f.signatures ts }

def Class.refill (c : Class) (ts : List TypeExpr) : Class :=
  let bounds := c.template.flatMap TemplateItem.types
  let constants := c.constants.flatMap Constant.types
  let parents := ts.drop bounds.length
  let members := parents.drop c.parents.length
  { c with
    template := refillAll TemplateItem.types TemplateItem.refill c.template (ts.take bounds.length)
    parents := parents.take c.parents.length
    constants := refillAll Constant.types Constant.refill c.constants
      (members.take constants.length)
    methods := refillAll Function.types Function.refill c.methods
      (members.drop constants.length) }

section Monadic

variable {m : Type → Type} [Monad m] [LawfulMonad m]

/-- What follows a walk over a list may use that there are as many results as items. -/
theorem bind_mapM_congr {α β γ : Type} (g : α → m β) (as : List α)
    {F G : List β → m γ} (h : ∀ bs, bs.length = as.length → F bs = G bs) :
    as.mapM g >>= F = as.mapM g >>= G := by
  induction as generalizing F G with
  | nil => simp [h [] rfl]
  | cons a as ih =>
    simp only [List.mapM_cons, bind_assoc, pure_bind]
    congr 1
    funext b
    exact ih fun bs hbs => h (b :: bs) (by simp [hbs])

theorem mapM_eq_refillAll {α β : Type} {parts : α → List β} {refill : α → List β → α}
    {visit : α → m α} {g : β → m β} (as : List α)
    (h : ∀ a ∈ as, visit a = refill a <$> (parts a).mapM g) :
    as.mapM visit = refillAll parts refill as <$> (as.flatMap parts).mapM g := by
  induction as with
  | nil => simp [refillAll]
  | cons a as ih =>
    have head := h a List.mem_cons_self
    have tail := ih fun b hb => h b (List.mem_cons_of_mem a hb)
    simp only [List.mapM_cons, List.flatMap_cons, List.mapM_append, head, tail, map_eq_pure_bind,
      bind_assoc, pure_bind]
    apply bind_mapM_congr
    intro bs hbs
    apply bind_mapM_congr
    intro cs _
    simp [refillAll, ← hbs]

variable (f : TypeExpr → m TypeExpr)

theorem Constant.rebuildM_eq_refill (c : Constant) :
    c.rebuildM (.ofType f) = c.refill <$> c.types.mapM (TypeExpr.rebuildM f) := by
  simp [rebuildM_ofType, types, refill]

theorem Parameter.rebuildM_eq_refill (p : Parameter) :
    p.rebuildM (.ofType f) = p.refill <$> p.types.mapM (TypeExpr.rebuildM f) := by
  simp [rebuildM_ofType, types, refill]

theorem TemplateItem.rebuildM_eq_refill (i : TemplateItem) :
    i.rebuildM (.ofType f) = i.refill <$> i.types.mapM (TypeExpr.rebuildM f) := by
  simp [rebuildM_ofType, types, refill]

theorem Signature.rebuildM_eq_refill (s : Signature) :
    s.rebuildM (.ofType f) = s.refill <$> s.types.mapM (TypeExpr.rebuildM f) := by
  rw [rebuildM_ofType, mapM_eq_refillAll _ fun _ _ => Parameter.rebuildM_eq_refill f _, types]
  simp only [List.mapM_append, List.mapM_cons, map_eq_pure_bind, bind_assoc, pure_bind]
  apply bind_mapM_congr
  intro ts hts
  simp [refill, ← hts]

theorem Function.rebuildM_eq_refill (g : Function) :
    g.rebuildM (.ofType f) = g.refill <$> g.types.mapM (TypeExpr.rebuildM f) := by
  rw [rebuildM_ofType, mapM_eq_refillAll _ fun _ _ => Signature.rebuildM_eq_refill f _]
  simp only [bind_pure_comp, Functor.map_map]
  rfl

theorem Class.rebuildM_eq_refill (c : Class) :
    c.rebuildM (.ofType f) = c.refill <$> c.types.mapM (TypeExpr.rebuildM f) := by
  rw [rebuildM_ofType, mapM_eq_refillAll _ fun _ _ => TemplateItem.rebuildM_eq_refill f _,
    mapM_eq_refillAll _ fun _ _ => Constant.rebuildM_eq_refill f _,
    mapM_eq_refillAll _ fun _ _ => Function.rebuildM_eq_refill f _, types]
  simp only [List.mapM_append, map_eq_pure_bind, bind_assoc, pure_bind]
  apply bind_mapM_congr
  intro bounds hbounds
  apply bind_mapM_congr
  intro parents hparents
  apply bind_mapM_congr
  intro constants hconstants
  apply bind_mapM_congr
  intro methods _
  simp [refill, ← hbounds, ← hparents, ← hconstants]

end Monadic

section Leaves

namespace TypeExpr

mutual

/-- The expression with new leaves in the places of its own. -/
def refillLeaves : TypeExpr → List TypeExpr → TypeExpr
  | .named name, us => us.headD (.named name)
  | .ref reference, us => us.headD (.ref reference)
  | .container base element, us =>
    .container (base.refillLeaves (us.take base.leaves.length))
      (element.refillLeaves (us.drop base.leaves.length))
  | .generic base args, us =>
    .generic (base.refillLeaves (us.take base.leaves.length))
      (refillLeavesAll args (us.drop base.leaves.length))
  | .union members, us => .union (refillLeavesAll members us)
  | .inter members, us => .inter (refillLeavesAll members us)

def refillLeavesAll : List TypeExpr → List TypeExpr → List TypeExpr
  | [], _ => []
  | t :: ts, us =>
    t.refillLeaves (us.take t.leaves.length) :: refillLeavesAll ts (us.drop t.leaves.length)

end

theorem refillLeavesAll_eq_refillAll (ts us : List TypeExpr) :
    refillLeavesAll ts us = refillAll leaves refillLeaves ts us := by
  induction ts generalizing us with
  | nil => rfl
  | cons t ts ih => rw [refillLeavesAll, refillAll, ih]

theorem refillLeaves_map (g : TypeExpr → TypeExpr) (t : TypeExpr) :
    t.refillLeaves (t.leaves.map g) = t.mapLeaves g := by
  have all : ∀ ts : List TypeExpr, (∀ t ∈ ts, t.refillLeaves (t.leaves.map g) = t.mapLeaves g) →
      refillLeavesAll ts ((ts.flatMap leaves).map g) = ts.map (mapLeaves g) := by
    intro ts h
    induction ts with
    | nil => rfl
    | cons t ts ih =>
      have tail := ih fun u hu => h u (List.mem_cons_of_mem t hu)
      simp [refillLeavesAll, h t List.mem_cons_self, tail]
  induction t with
  | named name => rfl
  | ref reference => rfl
  | container base element hb he => simp [refillLeaves, hb, he]
  | generic base args hb ha => simp [refillLeaves, hb, all args ha]
  | union members hm => simp [refillLeaves, all members hm]
  | inter members hm => simp [refillLeaves, all members hm]

variable {m : Type → Type} [Monad m] [LawfulMonad m] {f : TypeExpr → m TypeExpr}

theorem rebuildM_eq_refillLeaves (hf : ∀ t, t.isLeaf = false → f t = pure t) (t : TypeExpr) :
    t.rebuildM f = t.refillLeaves <$> t.leaves.mapM f := by
  have all : ∀ ts : List TypeExpr, (∀ t ∈ ts, t.rebuildM f = t.refillLeaves <$> t.leaves.mapM f) →
      rebuildAllM f ts = refillLeavesAll ts <$> (ts.flatMap leaves).mapM f := by
    intro ts h
    rw [rebuildAllM_eq_mapM, mapM_eq_refillAll ts h]
    congr 1
    funext us
    exact (refillLeavesAll_eq_refillAll ts us).symm
  induction t with
  | named name => simp [rebuildM, refillLeaves]
  | ref reference => simp [rebuildM, refillLeaves]
  | container base element hb he =>
    have keep (b e : TypeExpr) : f (.container b e) = pure (.container b e) := hf _ rfl
    simp only [rebuildM, leaves_container, List.mapM_append, hb, he, map_eq_pure_bind, bind_assoc,
      pure_bind, keep]
    apply bind_mapM_congr
    intro us hus
    simp [refillLeaves, ← hus]
  | generic base args hb ha =>
    have keep (b : TypeExpr) (as : List TypeExpr) : f (.generic b as) = pure (.generic b as) :=
      hf _ rfl
    simp only [rebuildM, leaves_generic, List.mapM_append, hb, all args ha, map_eq_pure_bind,
      bind_assoc, pure_bind, keep]
    apply bind_mapM_congr
    intro us hus
    simp [refillLeaves, ← hus]
  | union members hm =>
    have keep (ts : List TypeExpr) : f (.union ts) = pure (.union ts) := hf _ rfl
    simp only [rebuildM, leaves_union, all members hm, map_eq_pure_bind, bind_assoc, pure_bind,
      keep, refillLeaves]
  | inter members hm =>
    have keep (ts : List TypeExpr) : f (.inter ts) = pure (.inter ts) := hf _ rfl
    simp only [rebuildM, leaves_inter, all members hm, map_eq_pure_bind, bind_assoc, pure_bind,
      keep, refillLeaves]

end TypeExpr
end Leaves

section MapTypes

variable (h : TypeExpr → TypeExpr)

theorem refillAll_map {α : Type} {types : α → List TypeExpr}
    {refill : α → List TypeExpr → α} {f : α → α} (hf : ∀ a, refill a ((types a).map h) = f a)
    (as : List α) : refillAll types refill as ((as.flatMap types).map h) = as.map f := by
  induction as with
  | nil => rfl
  | cons a as ih => simp [refillAll, hf, ih]

theorem Constant.refill_map (c : Constant) : c.refill (c.types.map h) = c.mapTypes h := rfl

theorem Parameter.refill_map (p : Parameter) : p.refill (p.types.map h) = p.mapTypes h := rfl

theorem TemplateItem.refill_map (i : TemplateItem) : i.refill (i.types.map h) = i.mapTypes h := rfl

theorem Signature.refill_map (s : Signature) : s.refill (s.types.map h) = s.mapTypes h := by
  have params := refillAll_map h (Parameter.refill_map h) s.params
  simp [refill, types, mapTypes, params]

theorem Function.refill_map (f : Function) : f.refill (f.types.map h) = f.mapTypes h := by
  rw [refill, types, refillAll_map h (Signature.refill_map h), mapTypes]

theorem Class.refill_map (c : Class) : c.refill (c.types.map h) = c.mapTypes h := by
  have template := refillAll_map h (TemplateItem.refill_map h) c.template
  have constants := refillAll_map h (Constant.refill_map h) c.constants
  have methods := refillAll_map h (Function.refill_map h) c.methods
  simp [refill, types, mapTypes, template, constants, methods]

end MapTypes

section Pure

variable {m : Type → Type} [Monad m] [LawfulMonad m] {g : TypeExpr → TypeExpr}
  (keep : ∀ t, t.isLeaf = false → g t = t)
include keep

/-- Without an effect, rebuilding maps the leaves, in whatever monad it is done. -/
theorem TypeExpr.rebuildM_pure (t : TypeExpr) :
    t.rebuildM (fun u => pure (g u)) = (pure (t.mapLeaves g) : m TypeExpr) := by
  rw [rebuildM_eq_refillLeaves fun u branch => by rw [keep u branch], List.mapM_pure, map_pure,
    refillLeaves_map]

theorem Constant.rebuildM_pure (c : Constant) :
    c.rebuildM (.ofType fun u => pure (g u)) = (pure (c.mapLeaves g) : m Constant) := by
  rw [rebuildM_eq_refill, funext (TypeExpr.rebuildM_pure keep), List.mapM_pure, map_pure,
    refill_map, mapLeaves]

theorem Function.rebuildM_pure (f : Function) :
    f.rebuildM (.ofType fun u => pure (g u)) = (pure (f.mapLeaves g) : m Function) := by
  rw [rebuildM_eq_refill, funext (TypeExpr.rebuildM_pure keep), List.mapM_pure, map_pure,
    refill_map, mapLeaves]

theorem Class.rebuildM_pure (c : Class) :
    c.rebuildM (.ofType fun u => pure (g u)) = (pure (c.mapLeaves g) : m Class) := by
  rw [rebuildM_eq_refill, funext (TypeExpr.rebuildM_pure keep), List.mapM_pure, map_pure,
    refill_map, mapLeaves]

end Pure

section Congr

variable {h k : TypeExpr → TypeExpr}

theorem Constant.mapTypes_congr {c : Constant} (hk : ∀ t ∈ c.types, h t = k t) :
    c.mapTypes h = c.mapTypes k := by
  rw [← refill_map, List.map_congr_left hk, refill_map]

theorem Function.mapTypes_congr {f : Function} (hk : ∀ t ∈ f.types, h t = k t) :
    f.mapTypes h = f.mapTypes k := by
  rw [← refill_map, List.map_congr_left hk, refill_map]

theorem Class.mapTypes_congr {c : Class} (hk : ∀ t ∈ c.types, h t = k t) :
    c.mapTypes h = c.mapTypes k := by
  rw [← refill_map, List.map_congr_left hk, refill_map]

theorem Module.mapTypes_congr {x : Module Class} (hk : ∀ t ∈ x.types, h t = k t) :
    x.mapTypes h = x.mapTypes k := by
  simp only [types, List.mem_append, List.mem_flatMap] at hk
  rw [mapTypes, mapTypes]
  congr 1
  · apply List.map_congr_left
    intro c hc
    exact Constant.mapTypes_congr fun t ht => hk t (.inl (.inl ⟨c, hc, ht⟩))
  · apply List.map_congr_left
    intro f hf
    exact Function.mapTypes_congr fun t ht => hk t (.inl (.inr ⟨f, hf, ht⟩))
  · apply List.map_congr_left
    intro c hc
    exact Class.mapTypes_congr fun t ht => hk t (.inr ⟨c, hc, ht⟩)

private theorem mapLeaves_congr_of_mem {ts : List TypeExpr}
    (hk : ∀ u ∈ ts.flatMap TypeExpr.leaves, h u = k u) :
    ∀ t ∈ ts, t.mapLeaves h = t.mapLeaves k := by
  intro t ht
  exact TypeExpr.mapLeaves_congr fun u hu => hk u (List.mem_flatMap.2 ⟨t, ht, hu⟩)

theorem Constant.mapLeaves_congr {c : Constant} (hk : ∀ u ∈ c.leaves, h u = k u) :
    c.mapLeaves h = c.mapLeaves k :=
  mapTypes_congr (mapLeaves_congr_of_mem hk)

theorem Function.mapLeaves_congr {f : Function} (hk : ∀ u ∈ f.leaves, h u = k u) :
    f.mapLeaves h = f.mapLeaves k :=
  mapTypes_congr (mapLeaves_congr_of_mem hk)

theorem Class.mapLeaves_congr {c : Class} (hk : ∀ u ∈ c.leaves, h u = k u) :
    c.mapLeaves h = c.mapLeaves k :=
  mapTypes_congr (mapLeaves_congr_of_mem hk)

end Congr
end InterfaceTree
