import InterfaceTree.Proofs.Refill

/-! # What is put in is found again -/
namespace InterfaceTree

section RefillAll

variable {α β : Type} {P : β → Prop} {parts : α → List β} {refill : α → List β → α}

theorem length_refillAll (as : List α) (bs : List β) :
    (refillAll parts refill as bs).length = as.length := by
  induction as generalizing bs with
  | nil => rfl
  | cons a as ih => rw [refillAll, List.length_cons, ih, List.length_cons]

private theorem length_split {a : α} {as : List α} {bs : List β}
    (h : bs.length = ((a :: as).flatMap parts).length) :
    (bs.take (parts a).length).length = (parts a).length ∧
      (bs.drop (parts a).length).length = (as.flatMap parts).length := by
  rw [List.flatMap_cons, List.length_append] at h
  rw [List.length_take, List.length_drop]
  omega

theorem flatMap_refillAll {as : List α} (found : ∀ a ∈ as, ∀ bs, (∀ b ∈ bs, P b) →
      bs.length = (parts a).length → parts (refill a bs) = bs)
    {bs : List β} (good : ∀ b ∈ bs, P b) (length : bs.length = (as.flatMap parts).length) :
    (refillAll parts refill as bs).flatMap parts = bs := by
  induction as generalizing bs with
  | nil => exact (List.length_eq_zero_iff.1 length).symm
  | cons a as ih =>
    obtain ⟨first, rest⟩ := length_split length
    rw [List.forall_mem_cons] at found
    have head := found.1 _ (fun b hb => good b (List.mem_of_mem_take hb)) first
    have tail := ih found.2 (fun b hb => good b (List.mem_of_mem_drop hb)) rest
    rw [refillAll, List.flatMap_cons, head, tail, List.take_append_drop]

theorem map_refillAll {f : α → α} {h : β → β} {as : List α} (mapped : ∀ a ∈ as, ∀ bs,
      (∀ b ∈ bs, P b) → bs.length = (parts a).length → f (refill a bs) = refill a (bs.map h))
    {bs : List β} (good : ∀ b ∈ bs, P b) (length : bs.length = (as.flatMap parts).length) :
    (refillAll parts refill as bs).map f = refillAll parts refill as (bs.map h) := by
  induction as generalizing bs with
  | nil => rfl
  | cons a as ih =>
    obtain ⟨first, rest⟩ := length_split length
    rw [List.forall_mem_cons] at mapped
    rw [refillAll, List.map_cons, mapped.1 _ (fun b hb => good b (List.mem_of_mem_take hb)) first,
      ih mapped.2 (fun b hb => good b (List.mem_of_mem_drop hb)) rest, refillAll, List.map_take,
      List.map_drop]

end RefillAll

section Types

variable {ts : List TypeExpr}

private theorem headD_of_length {ts : List TypeExpr} (length : ts.length = 1) (t : TypeExpr) :
    [ts.headD t] = ts := by
  obtain ⟨u, rfl⟩ := List.length_eq_one_iff.1 length
  rfl

theorem Constant.types_refill {c : Constant} (length : ts.length = c.types.length) :
    (c.refill ts).types = ts := headD_of_length length c.type

theorem Parameter.types_refill {p : Parameter} (length : ts.length = p.types.length) :
    (p.refill ts).types = ts := headD_of_length length p.type

theorem TemplateItem.types_refill {i : TemplateItem} (length : ts.length = i.types.length) :
    (i.refill ts).types = ts := headD_of_length length i.bound

private theorem length_take {n m : Nat} (length : ts.length = n + m) :
    (ts.take n).length = n ∧ (ts.drop n).length = m := by
  rw [List.length_take, List.length_drop]
  omega

theorem Signature.types_refill {s : Signature} (length : ts.length = s.types.length) :
    (s.refill ts).types = ts := by
  rw [types, List.length_append, List.length_cons] at length
  obtain ⟨params, rest⟩ := length_take length
  have found := flatMap_refillAll (P := fun _ => True)
    (fun (p : Parameter) _ _ _ => p.types_refill) (fun _ _ => trivial) params
  rw [refill, types, found]
  rcases tail : ts.drop (s.params.flatMap Parameter.types).length with _ | ⟨t, raises⟩
  · rw [tail] at rest
    cases rest
  · dsimp only
    rw [List.headD_cons, List.tail_cons, ← tail, List.take_append_drop]

theorem Function.types_refill {f : Function} (length : ts.length = f.types.length) :
    (f.refill ts).types = ts :=
  flatMap_refillAll (P := fun _ => True) (fun (s : Signature) _ _ _ => s.types_refill)
    (fun _ _ => trivial) length

theorem Class.types_refill {c : Class} (length : ts.length = c.types.length) :
    (c.refill ts).types = ts := by
  rw [types, List.append_assoc, List.append_assoc, List.length_append] at length
  obtain ⟨bounds, rest⟩ := length_take length
  rw [List.length_append] at rest
  obtain ⟨-, rest⟩ := length_take rest
  rw [List.length_append] at rest
  obtain ⟨constants, methods⟩ := length_take rest
  have of_bounds := flatMap_refillAll (P := fun _ => True)
    (fun (i : TemplateItem) _ _ _ => i.types_refill) (fun _ _ => trivial) bounds
  have of_constants := flatMap_refillAll (P := fun _ => True)
    (fun (d : Constant) _ _ _ => d.types_refill) (fun _ _ => trivial) constants
  have of_methods := flatMap_refillAll (P := fun _ => True)
    (fun (f : Function) _ _ _ => f.types_refill) (fun _ _ => trivial) methods
  rw [refill, types]
  dsimp only
  rw [of_bounds, of_constants, of_methods, List.append_assoc, List.append_assoc,
    List.take_append_drop, List.take_append_drop, List.take_append_drop]

end Types

section MapTypes

variable {h : TypeExpr → TypeExpr} {ts : List TypeExpr}

private theorem headD_map {ts : List TypeExpr} (length : ts.length = 1) (t u : TypeExpr) :
    h (ts.headD t) = (ts.map h).headD u := by
  obtain ⟨v, rfl⟩ := List.length_eq_one_iff.1 length
  rfl

theorem Constant.mapTypes_refill {c : Constant} (length : ts.length = c.types.length) :
    (c.refill ts).mapTypes h = c.refill (ts.map h) :=
  congrArg (Constant.mk c.name) (headD_map length _ _)

theorem Parameter.mapTypes_refill {p : Parameter} (length : ts.length = p.types.length) :
    (p.refill ts).mapTypes h = p.refill (ts.map h) :=
  congrArg (Parameter.mk p.name) (headD_map length _ _)

theorem TemplateItem.mapTypes_refill {i : TemplateItem} (length : ts.length = i.types.length) :
    (i.refill ts).mapTypes h = i.refill (ts.map h) :=
  congrArg (TemplateItem.mk i.name) (headD_map length _ _)

theorem Signature.mapTypes_refill {s : Signature} (length : ts.length = s.types.length) :
    (s.refill ts).mapTypes h = s.refill (ts.map h) := by
  rw [types, List.length_append, List.length_cons] at length
  obtain ⟨params, rest⟩ := length_take length
  have mapped := map_refillAll (P := fun _ => True) (h := h)
    (fun (p : Parameter) _ _ _ => p.mapTypes_refill) (fun _ _ => trivial) params
  simp only [refill, mapTypes, mapped, List.map_take]
  rcases tail : ts.drop (s.params.flatMap Parameter.types).length with _ | ⟨t, raises⟩
  · rw [tail] at rest
    cases rest
  · rw [← List.map_drop, tail]
    rfl

theorem Function.mapTypes_refill {f : Function} (length : ts.length = f.types.length) :
    (f.refill ts).mapTypes h = f.refill (ts.map h) :=
  congrArg (Function.mk f.name) (map_refillAll (P := fun _ => True)
    (fun (s : Signature) _ _ _ => s.mapTypes_refill) (fun _ _ => trivial) length)

theorem Class.mapTypes_refill {c : Class} (length : ts.length = c.types.length) :
    (c.refill ts).mapTypes h = c.refill (ts.map h) := by
  rw [types, List.append_assoc, List.append_assoc, List.length_append] at length
  obtain ⟨bounds, rest⟩ := length_take length
  rw [List.length_append] at rest
  obtain ⟨-, rest⟩ := length_take rest
  rw [List.length_append] at rest
  obtain ⟨constants, methods⟩ := length_take rest
  have of_bounds := map_refillAll (P := fun _ => True) (h := h)
    (fun (i : TemplateItem) _ _ _ => i.mapTypes_refill) (fun _ _ => trivial) bounds
  have of_constants := map_refillAll (P := fun _ => True) (h := h)
    (fun (d : Constant) _ _ _ => d.mapTypes_refill) (fun _ _ => trivial) constants
  have of_methods := map_refillAll (P := fun _ => True) (h := h)
    (fun (f : Function) _ _ _ => f.mapTypes_refill) (fun _ _ => trivial) methods
  simp only [refill, mapTypes, of_bounds, of_constants, of_methods, List.map_take, List.map_drop]

end MapTypes

section Leaves

namespace TypeExpr

theorem leaves_refillLeaves {t : TypeExpr} {us : List TypeExpr} (leaf : ∀ u ∈ us, u.isLeaf = true)
    (length : us.length = t.leaves.length) : (t.refillLeaves us).leaves = us := by
  have single {us : List TypeExpr} (leaf : ∀ u ∈ us, u.isLeaf = true) (length : us.length = 1)
      (t : TypeExpr) : (us.headD t).leaves = us := by
    obtain ⟨u, rfl⟩ := List.length_eq_one_iff.1 length
    exact leaves_of_isLeaf (leaf u List.mem_cons_self)
  induction t generalizing us with
  | named name => exact single leaf length _
  | ref reference => exact single leaf length _
  | container base element hb he =>
    rw [leaves_container, List.length_append] at length
    obtain ⟨first, rest⟩ := length_take length
    rw [refillLeaves, leaves_container, hb (fun u hu => leaf u (List.mem_of_mem_take hu)) first,
      he (fun u hu => leaf u (List.mem_of_mem_drop hu)) rest, List.take_append_drop]
  | generic base args hb ha =>
    rw [leaves_generic, List.length_append] at length
    obtain ⟨first, rest⟩ := length_take length
    rw [refillLeaves, leaves_generic, refillLeavesAll_eq_refillAll,
      hb (fun u hu => leaf u (List.mem_of_mem_take hu)) first,
      flatMap_refillAll (fun t ht _ => ha t ht) (fun u hu => leaf u (List.mem_of_mem_drop hu)) rest,
      List.take_append_drop]
  | union members hm =>
    rw [leaves_union] at length
    rw [refillLeaves, leaves_union, refillLeavesAll_eq_refillAll,
      flatMap_refillAll (fun t ht _ => hm t ht) leaf length]
  | inter members hm =>
    rw [leaves_inter] at length
    rw [refillLeaves, leaves_inter, refillLeavesAll_eq_refillAll,
      flatMap_refillAll (fun t ht _ => hm t ht) leaf length]

theorem mapLeaves_refillLeaves (g : TypeExpr → TypeExpr) {t : TypeExpr} {us : List TypeExpr}
    (leaf : ∀ u ∈ us, u.isLeaf = true) (length : us.length = t.leaves.length) :
    (t.refillLeaves us).mapLeaves g = t.refillLeaves (us.map g) := by
  have single {us : List TypeExpr} (leaf : ∀ u ∈ us, u.isLeaf = true) (length : us.length = 1)
      (t : TypeExpr) : (us.headD t).mapLeaves g = (us.map g).headD t := by
    obtain ⟨u, rfl⟩ := List.length_eq_one_iff.1 length
    exact mapLeaves_of_isLeaf (leaf u List.mem_cons_self)
  induction t generalizing us with
  | named name => exact single leaf length _
  | ref reference => exact single leaf length _
  | container base element hb he =>
    rw [leaves_container, List.length_append] at length
    obtain ⟨first, rest⟩ := length_take length
    rw [refillLeaves, mapLeaves_container, hb (fun u hu => leaf u (List.mem_of_mem_take hu)) first,
      he (fun u hu => leaf u (List.mem_of_mem_drop hu)) rest, refillLeaves, List.map_take,
      List.map_drop]
  | generic base args hb ha =>
    rw [leaves_generic, List.length_append] at length
    obtain ⟨first, rest⟩ := length_take length
    rw [refillLeaves, mapLeaves_generic, refillLeavesAll_eq_refillAll,
      hb (fun u hu => leaf u (List.mem_of_mem_take hu)) first,
      map_refillAll (fun t ht _ => ha t ht) (fun u hu => leaf u (List.mem_of_mem_drop hu)) rest,
      refillLeaves, refillLeavesAll_eq_refillAll, List.map_take, List.map_drop]
  | union members hm =>
    rw [leaves_union] at length
    rw [refillLeaves, mapLeaves_union, refillLeavesAll_eq_refillAll,
      map_refillAll (fun t ht _ => hm t ht) leaf length, refillLeaves, refillLeavesAll_eq_refillAll]
  | inter members hm =>
    rw [leaves_inter] at length
    rw [refillLeaves, mapLeaves_inter, refillLeavesAll_eq_refillAll,
      map_refillAll (fun t ht _ => hm t ht) leaf length, refillLeaves, refillLeavesAll_eq_refillAll]

theorem mapLeaves_eq_self {g : TypeExpr → TypeExpr} {t : TypeExpr} (h : ∀ u ∈ t.leaves, g u = u) :
    t.mapLeaves g = t := by
  have all {ts : List TypeExpr} (own : ∀ t ∈ ts, (∀ u ∈ t.leaves, g u = u) → t.mapLeaves g = t)
      (h : ∀ u ∈ ts.flatMap leaves, g u = u) : ts.map (mapLeaves g) = ts := by
    refine (List.map_congr_left fun t ht => own t ht fun u hu => ?_).trans (List.map_id' ts)
    exact h u (List.mem_flatMap.2 ⟨t, ht, hu⟩)
  induction t with
  | named name => exact h _ List.mem_cons_self
  | ref reference => exact h _ List.mem_cons_self
  | container base element hb he =>
    rw [leaves_container, List.forall_mem_append] at h
    rw [mapLeaves_container, hb h.1, he h.2]
  | generic base args hb ha =>
    rw [leaves_generic, List.forall_mem_append] at h
    rw [mapLeaves_generic, hb h.1, all ha h.2]
  | union members hm => rw [mapLeaves_union, all hm (by rwa [leaves_union] at h)]
  | inter members hm => rw [mapLeaves_inter, all hm (by rwa [leaves_inter] at h)]

end TypeExpr

theorem Function.mapTypes_id (f : Function) : f.mapTypes (fun t => t) = f := by
  have params (s : Signature) : s.params.map (Parameter.mapTypes fun t => t) = s.params :=
    List.map_id'' (fun _ => rfl) s.params
  have signatures : f.signatures.map (Signature.mapTypes fun t => t) = f.signatures :=
    List.map_id'' (fun s => by rw [Signature.mapTypes, params, List.map_id']) f.signatures
  rw [mapTypes, signatures]

theorem Class.mapTypes_id (c : Class) : c.mapTypes (fun t => t) = c := by
  have template : c.template.map (TemplateItem.mapTypes fun t => t) = c.template :=
    List.map_id'' (fun _ => rfl) c.template
  have constants : c.constants.map (Constant.mapTypes fun t => t) = c.constants :=
    List.map_id'' (fun _ => rfl) c.constants
  rw [mapTypes, template, constants, List.map_id', List.map_id'' Function.mapTypes_id]

theorem Module.mapTypes_id (x : Module Class) : x.mapTypes (fun t => t) = x := by
  have constants : x.constants.map (Constant.mapTypes fun t => t) = x.constants :=
    List.map_id'' (fun _ => rfl) x.constants
  rw [mapTypes, constants, List.map_id'' Function.mapTypes_id, List.map_id'' Class.mapTypes_id]

theorem Module.mapLeaves_eq_self {g : TypeExpr → TypeExpr} {x : Module Class}
    (h : ∀ u ∈ x.leaves, g u = u) : x.mapLeaves g = x := by
  have types : ∀ t ∈ x.types, t.mapLeaves g = t := fun t ht =>
    TypeExpr.mapLeaves_eq_self fun u hu => h u (List.mem_flatMap.2 ⟨t, ht, hu⟩)
  exact (mapTypes_congr types).trans x.mapTypes_id

end Leaves

section Declarations

variable {α : Type} {types : α → List TypeExpr} {refill : α → List TypeExpr → α}
  {mapTypes : (TypeExpr → TypeExpr) → α → α}

/-- A kind of declaration in which the types that are put in are found again. -/
structure Refillable (types : α → List TypeExpr) (refill : α → List TypeExpr → α)
    (mapTypes : (TypeExpr → TypeExpr) → α → α) : Prop where
  types_refill : ∀ {a ts}, ts.length = (types a).length → types (refill a ts) = ts
  mapTypes_refill : ∀ {h a ts}, ts.length = (types a).length →
    mapTypes h (refill a ts) = refill a (ts.map h)
  refill_map : ∀ h a, refill a ((types a).map h) = mapTypes h a

theorem Constant.refillable : Refillable Constant.types Constant.refill Constant.mapTypes :=
  ⟨types_refill, mapTypes_refill, refill_map⟩

theorem Function.refillable : Refillable Function.types Function.refill Function.mapTypes :=
  ⟨types_refill, mapTypes_refill, refill_map⟩

theorem Class.refillable : Refillable Class.types Class.refill Class.mapTypes :=
  ⟨types_refill, mapTypes_refill, refill_map⟩

def refillLeavesIn (types : α → List TypeExpr) (refill : α → List TypeExpr → α) (a : α)
    (us : List TypeExpr) : α :=
  refill a (refillAll TypeExpr.leaves TypeExpr.refillLeaves (types a) us)

theorem rebuildM_eq_refillLeavesIn {m : Type → Type} [Monad m] [LawfulMonad m]
    {f : TypeExpr → m TypeExpr} (hf : ∀ t, t.isLeaf = false → f t = pure t) {walk : m α} {a : α}
    (h : walk = refill a <$> (types a).mapM (TypeExpr.rebuildM f)) :
    walk = refillLeavesIn types refill a <$> ((types a).flatMap TypeExpr.leaves).mapM f := by
  rw [h, mapM_eq_refillAll _ fun t _ => TypeExpr.rebuildM_eq_refillLeaves hf t, Functor.map_map]
  rfl

namespace Refillable

theorem refillLeavesIn_map (h : Refillable types refill mapTypes) (g : TypeExpr → TypeExpr)
    (a : α) : refillLeavesIn types refill a (((types a).flatMap TypeExpr.leaves).map g) =
      mapTypes (TypeExpr.mapLeaves g) a := by
  rw [refillLeavesIn, refillAll_map g (TypeExpr.refillLeaves_map g), h.refill_map]

variable {a : α} {us : List TypeExpr} (leaf : ∀ u ∈ us, u.isLeaf = true)
  (length : us.length = ((types a).flatMap TypeExpr.leaves).length)
include leaf length

theorem leaves_refillLeavesIn (h : Refillable types refill mapTypes) :
    (types (refillLeavesIn types refill a us)).flatMap TypeExpr.leaves = us := by
  rw [refillLeavesIn, h.types_refill (length_refillAll _ _),
    flatMap_refillAll (fun _ _ _ leaf => TypeExpr.leaves_refillLeaves leaf) leaf length]

theorem mapLeaves_refillLeavesIn (h : Refillable types refill mapTypes)
    (g : TypeExpr → TypeExpr) : mapTypes (TypeExpr.mapLeaves g) (refillLeavesIn types refill a us) =
      refillLeavesIn types refill a (us.map g) := by
  rw [refillLeavesIn, h.mapTypes_refill (length_refillAll _ _),
    map_refillAll (fun _ _ _ leaf => TypeExpr.mapLeaves_refillLeaves g leaf) leaf length]
  rfl

end Refillable
end Declarations
end InterfaceTree
