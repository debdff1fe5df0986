import Mathlib.Data.List.Forall2
import InterfaceTree.Substitution

namespace InterfaceTree

namespace TypeExpr

@[elab_as_elim, induction_eliminator]
theorem induct {motive : TypeExpr → Prop}
    (named : ∀ name, motive (.named name))
    (ref : ∀ reference, motive (.ref reference))
    (container : ∀ base element, motive base → motive element → motive (.container base element))
    (generic : ∀ base args, motive base → (∀ t ∈ args, motive t) → motive (.generic base args))
    (union : ∀ members, (∀ t ∈ members, motive t) → motive (.union members))
    (inter : ∀ members, (∀ t ∈ members, motive t) → motive (.inter members)) :
    ∀ t, motive t :=
  @TypeExpr.rec motive (fun ts => ∀ t ∈ ts, motive t) named ref container generic union inter
    (fun _ h => absurd h List.not_mem_nil)
    (fun _ _ head tail t h => by
      rcases List.mem_cons.1 h with rfl | h
      · exact head
      · exact tail t h)

mutual

/-- The expression and all that is inside of it, the parts before the whole. -/
def subterms : TypeExpr → List TypeExpr
  | .named name => [.named name]
  | .ref reference => [.ref reference]
  | .container base element => base.subterms ++ element.subterms ++ [.container base element]
  | .generic base args => base.subterms ++ subtermsAll args ++ [.generic base args]
  | .union members => subtermsAll members ++ [.union members]
  | .inter members => subtermsAll members ++ [.inter members]

def subtermsAll : List TypeExpr → List TypeExpr
  | [] => []
  | t :: ts => t.subterms ++ subtermsAll ts

end

section Subterms

attribute [local simp] subterms subtermsAll

variable (base element : TypeExpr) {t : TypeExpr} {ts : List TypeExpr}

theorem subtermsAll_eq_flatMap (ts : List TypeExpr) : subtermsAll ts = ts.flatMap subterms := by
  induction ts with
  | nil => rfl
  | cons t ts ih => simp [ih]

theorem mem_subterms_self (t : TypeExpr) : t ∈ t.subterms := by
  cases t <;> simp

theorem subterms_of_name? {t : TypeExpr} {name : String} (h : t.name? = some name) :
    t.subterms = [t] := by
  cases t <;> first | rfl | cases h

theorem mem_subterms_container : base ∈ (container base element).subterms ∧
    element ∈ (container base element).subterms := by
  simp [mem_subterms_self]

private theorem mem_subtermsAll (ht : t ∈ ts) : t ∈ subtermsAll ts := by
  rw [subtermsAll_eq_flatMap]
  exact List.mem_flatMap.2 ⟨t, ht, t.mem_subterms_self⟩

theorem mem_subterms_generic (ts : List TypeExpr) : base ∈ (generic base ts).subterms ∧
    ∀ t ∈ ts, t ∈ (generic base ts).subterms := by
  simp +contextual [mem_subterms_self, mem_subtermsAll]

theorem mem_subterms_union (ht : t ∈ ts) : t ∈ (union ts).subterms := by
  simp [mem_subtermsAll ht]

theorem mem_subterms_inter (ht : t ∈ ts) : t ∈ (inter ts).subterms := by
  simp [mem_subtermsAll ht]

end Subterms

theorem subterms_subset {t u : TypeExpr} (hu : u ∈ t.subterms) : u.subterms ⊆ t.subterms := by
  have all : ∀ ts : List TypeExpr, (∀ t ∈ ts, u ∈ t.subterms → u.subterms ⊆ t.subterms) →
      u ∈ subtermsAll ts → u.subterms ⊆ subtermsAll ts := by
    intro ts ih hu v hv
    rw [subtermsAll_eq_flatMap] at hu ⊢
    obtain ⟨t, ht, hu⟩ := List.mem_flatMap.1 hu
    exact List.mem_flatMap.2 ⟨t, ht, ih t ht hu hv⟩
  induction t with
  | named name => rw [List.mem_singleton.1 hu]; exact List.Subset.refl _
  | ref reference => rw [List.mem_singleton.1 hu]; exact List.Subset.refl _
  | container base element hb he =>
    rw [subterms, List.mem_append, List.mem_append, List.mem_singleton] at hu
    rcases hu with (hu | hu) | rfl
    · exact fun v hv => List.mem_append_left _ (List.mem_append_left _ (hb hu hv))
    · exact fun v hv => List.mem_append_left _ (List.mem_append_right _ (he hu hv))
    · exact List.Subset.refl _
  | generic base args hb ha =>
    rw [subterms, List.mem_append, List.mem_append, List.mem_singleton] at hu
    rcases hu with (hu | hu) | rfl
    · exact fun v hv => List.mem_append_left _ (List.mem_append_left _ (hb hu hv))
    · exact fun v hv => List.mem_append_left _ (List.mem_append_right _ (all args ha hu hv))
    · exact List.Subset.refl _
  | union members hm =>
    rw [subterms, List.mem_append, List.mem_singleton] at hu
    rcases hu with hu | rfl
    · exact fun v hv => List.mem_append_left _ (all members hm hu hv)
    · exact List.Subset.refl _
  | inter members hm =>
    rw [subterms, List.mem_append, List.mem_singleton] at hu
    rcases hu with hu | rfl
    · exact fun v hv => List.mem_append_left _ (all members hm hu hv)
    · exact List.Subset.refl _

section Throughout

def Throughout (P : TypeExpr → Prop) (t : TypeExpr) : Prop := ∀ u ∈ t.subterms, P u

variable {P : TypeExpr → Prop} {base element : TypeExpr} {ts : List TypeExpr}

theorem throughout_named {name : String} : (named name).Throughout P ↔ P (.named name) := by
  simp [Throughout, subterms]

theorem throughout_ref {reference : Reference} :
    (ref reference).Throughout P ↔ P (.ref reference) := by
  simp [Throughout, subterms]

theorem throughout_container : (container base element).Throughout P ↔
    (base.Throughout P ∧ element.Throughout P) ∧ P (.container base element) := by
  simp only [Throughout, subterms, List.mem_append, List.mem_singleton, or_imp, forall_and,
    forall_eq]

private theorem throughout_subtermsAll :
    (∀ u ∈ subtermsAll ts, P u) ↔ ∀ t ∈ ts, t.Throughout P := by
  rw [subtermsAll_eq_flatMap]
  constructor
  · intro h t ht u hu
    exact h u (List.mem_flatMap.2 ⟨t, ht, hu⟩)
  · intro h u hu
    obtain ⟨t, ht, hu⟩ := List.mem_flatMap.1 hu
    exact h t ht u hu

theorem throughout_generic : (generic base ts).Throughout P ↔
    (base.Throughout P ∧ ∀ t ∈ ts, t.Throughout P) ∧ P (.generic base ts) := by
  rw [← throughout_subtermsAll]
  simp only [Throughout, subterms, List.mem_append, List.mem_singleton, or_imp, forall_and,
    forall_eq]

theorem throughout_union :
    (union ts).Throughout P ↔ (∀ t ∈ ts, t.Throughout P) ∧ P (.union ts) := by
  rw [← throughout_subtermsAll]
  simp only [Throughout, subterms, List.mem_append, List.mem_singleton, or_imp, forall_and,
    forall_eq]

theorem throughout_inter :
    (inter ts).Throughout P ↔ (∀ t ∈ ts, t.Throughout P) ∧ P (.inter ts) := by
  rw [← throughout_subtermsAll]
  simp only [Throughout, subterms, List.mem_append, List.mem_singleton, or_imp, forall_and,
    forall_eq]

theorem Throughout.self {t : TypeExpr} (h : t.Throughout P) : P t := h t t.mem_subterms_self

theorem Throughout.inside {t u : TypeExpr} (h : t.Throughout P) (hu : u ∈ t.subterms) :
    u.Throughout P :=
  fun v hv => h v (subterms_subset hu hv)

/-- No usage is left in the expression. -/
def UsageFree (t : TypeExpr) : Prop :=
  t.Throughout fun u => u.kind ≠ .containerType ∧ u.kind ≠ .genericType

end Throughout

def isLeaf (t : TypeExpr) : Bool := t.name?.isSome

/-- The names and references in an expression, from left to right. -/
def leaves (t : TypeExpr) : List TypeExpr := t.subterms.filter isLeaf

section Leaves

theorem isLeaf_of_name? {t : TypeExpr} {name : String} (named : t.name? = some name) :
    t.isLeaf = true :=
  Option.isSome_iff_exists.2 ⟨name, named⟩

theorem name?_of_not_isLeaf {t : TypeExpr} (branch : t.isLeaf = false) : t.name? = none :=
  Option.not_isSome_iff_eq_none.1 (Bool.eq_false_iff.1 branch)

theorem isLeaf_of_mem_leaves {t u : TypeExpr} (h : u ∈ t.leaves) : u.isLeaf = true :=
  (List.mem_filter.1 h).2

theorem leaves_of_isLeaf {u : TypeExpr} (leaf : u.isLeaf = true) : u.leaves = [u] := by
  cases u <;> first | rfl | cases leaf

variable (base element : TypeExpr) (ts : List TypeExpr)

@[simp] theorem leaves_named (name : String) : leaves (.named name) = [.named name] := rfl

@[simp] theorem leaves_ref (reference : Reference) : leaves (.ref reference) = [.ref reference] :=
  rfl

@[simp] theorem leaves_container :
    leaves (.container base element) = base.leaves ++ element.leaves := by
  simp [leaves, subterms, isLeaf, name?]

private theorem filter_subtermsAll :
    (subtermsAll ts).filter isLeaf = ts.flatMap leaves := by
  rw [subtermsAll_eq_flatMap, List.filter_flatMap]
  rfl

@[simp] theorem leaves_generic :
    leaves (.generic base ts) = base.leaves ++ ts.flatMap leaves := by
  rw [← filter_subtermsAll]
  simp [leaves, subterms, isLeaf, name?]

@[simp] theorem leaves_union : leaves (.union ts) = ts.flatMap leaves := by
  rw [← filter_subtermsAll]
  simp [leaves, subterms, isLeaf, name?]

@[simp] theorem leaves_inter : leaves (.inter ts) = ts.flatMap leaves := by
  rw [← filter_subtermsAll]
  simp [leaves, subterms, isLeaf, name?]

end Leaves

mutual

def mapLeaves (g : TypeExpr → TypeExpr) : TypeExpr → TypeExpr
  | .named name => g (.named name)
  | .ref reference => g (.ref reference)
  | .container base element => .container (base.mapLeaves g) (element.mapLeaves g)
  | .generic base args => .generic (base.mapLeaves g) (mapLeavesAll g args)
  | .union members => .union (mapLeavesAll g members)
  | .inter members => .inter (mapLeavesAll g members)

def mapLeavesAll (g : TypeExpr → TypeExpr) : List TypeExpr → List TypeExpr
  | [] => []
  | t :: ts => t.mapLeaves g :: mapLeavesAll g ts

end

theorem mapLeavesAll_eq_map (g : TypeExpr → TypeExpr) (ts : List TypeExpr) :
    mapLeavesAll g ts = ts.map (mapLeaves g) := by
  induction ts with
  | nil => rfl
  | cons t ts ih => rw [mapLeavesAll, ih, List.map_cons]

section MapLeaves

variable (g h : TypeExpr → TypeExpr)

@[simp] theorem mapLeaves_named (name : String) : mapLeaves g (.named name) = g (.named name) := rfl

@[simp] theorem mapLeaves_ref (reference : Reference) :
    mapLeaves g (.ref reference) = g (.ref reference) := rfl

@[simp] theorem mapLeaves_container (base element : TypeExpr) :
    mapLeaves g (.container base element) = .container (base.mapLeaves g) (element.mapLeaves g) :=
  rfl

@[simp] theorem mapLeaves_generic (base : TypeExpr) (args : List TypeExpr) :
    mapLeaves g (.generic base args) = .generic (base.mapLeaves g) (args.map (mapLeaves g)) := by
  rw [← mapLeavesAll_eq_map]
  rfl

@[simp] theorem mapLeaves_union (members : List TypeExpr) :
    mapLeaves g (.union members) = .union (members.map (mapLeaves g)) := by
  rw [← mapLeavesAll_eq_map]
  rfl

@[simp] theorem mapLeaves_inter (members : List TypeExpr) :
    mapLeaves g (.inter members) = .inter (members.map (mapLeaves g)) := by
  rw [← mapLeavesAll_eq_map]
  rfl

variable {g} in
theorem mapLeaves_of_isLeaf {t : TypeExpr} (leaf : t.isLeaf = true) : t.mapLeaves g = g t := by
  cases t <;> first | rfl | cases leaf

variable {g h} in
theorem mapLeaves_congr {t : TypeExpr} (hgh : ∀ u ∈ t.leaves, g u = h u) :
    t.mapLeaves g = t.mapLeaves h := by
  have all : ∀ ts : List TypeExpr, (∀ t ∈ ts, (∀ u ∈ t.leaves, g u = h u) →
      t.mapLeaves g = t.mapLeaves h) → (∀ u ∈ ts.flatMap leaves, g u = h u) →
      ts.map (mapLeaves g) = ts.map (mapLeaves h) := by
    intro ts ih hts
    apply List.map_congr_left
    intro t ht
    exact ih t ht fun u hu => hts u (List.mem_flatMap.2 ⟨t, ht, hu⟩)
  induction t with
  | named name => exact hgh (.named name) List.mem_cons_self
  | ref reference => exact hgh (.ref reference) List.mem_cons_self
  | container base element hb he =>
    rw [leaves_container] at hgh
    rw [mapLeaves_container, hb fun u hu => hgh u (List.mem_append_left _ hu),
      he fun u hu => hgh u (List.mem_append_right _ hu), mapLeaves_container]
  | generic base args hb ha =>
    rw [leaves_generic] at hgh
    rw [mapLeaves_generic, hb fun u hu => hgh u (List.mem_append_left _ hu),
      all args ha fun u hu => hgh u (List.mem_append_right _ hu), mapLeaves_generic]
  | union members hm => rw [mapLeaves_union, all members hm (by simpa using hgh), mapLeaves_union]
  | inter members hm => rw [mapLeaves_inter, all members hm (by simpa using hgh), mapLeaves_inter]

theorem mapLeaves_mapLeaves (t : TypeExpr) :
    (t.mapLeaves g).mapLeaves h = t.mapLeaves fun u => (g u).mapLeaves h := by
  induction t with
  | named name => rfl
  | ref reference => rfl
  | container base element hb he => simp [hb, he]
  | generic base args hb ha => simpa [hb] using ha
  | union members hm => simpa using hm
  | inter members hm => simpa using hm

theorem subterms_mapLeaves (hg : ∀ u, u.isLeaf = true → (g u).isLeaf = true) (t : TypeExpr) :
    (t.mapLeaves g).subterms = t.subterms.map (mapLeaves g) := by
  have leaf : ∀ u : TypeExpr, u.isLeaf = true → u.subterms = [u] := by
    intro u hu
    cases u <;> simp_all [isLeaf, name?, subterms]
  have all : ∀ ts : List TypeExpr, (∀ t ∈ ts, (t.mapLeaves g).subterms =
      t.subterms.map (mapLeaves g)) →
      subtermsAll (ts.map (mapLeaves g)) = (subtermsAll ts).map (mapLeaves g) := by
    intro ts hts
    rw [subtermsAll_eq_flatMap, subtermsAll_eq_flatMap, List.flatMap_map, List.map_flatMap]
    exact List.flatMap_congr hts
  induction t with
  | named name => simp [subterms, leaf _ (hg (.named name) rfl)]
  | ref reference => simp [subterms, leaf _ (hg (.ref reference) rfl)]
  | container base element hb he => simp [subterms, hb, he]
  | generic base args hb ha => simp [subterms, hb, all args ha]
  | union members hm => simp [subterms, all members hm]
  | inter members hm => simp [subterms, all members hm]

theorem leaves_mapLeaves_eq_flatMap (t : TypeExpr) :
    (t.mapLeaves g).leaves = t.leaves.flatMap fun u => (g u).leaves := by
  have all : ∀ ts : List TypeExpr, (∀ t ∈ ts,
      (t.mapLeaves g).leaves = t.leaves.flatMap fun u => (g u).leaves) →
      (ts.map (mapLeaves g)).flatMap leaves =
        (ts.flatMap leaves).flatMap fun u => (g u).leaves := by
    intro ts hts
    rw [List.flatMap_map, List.flatMap_assoc]
    exact List.flatMap_congr hts
  induction t with
  | named name => simp
  | ref reference => simp
  | container base element hb he => simp [hb, he]
  | generic base args hb ha =>
    rw [mapLeaves_generic, leaves_generic, all args ha, hb, leaves_generic, List.flatMap_append]
  | union members hm => rw [mapLeaves_union, leaves_union, all members hm, leaves_union]
  | inter members hm => rw [mapLeaves_inter, leaves_inter, all members hm, leaves_inter]

theorem leaves_mapLeaves (hg : ∀ u, u.isLeaf = true → (g u).isLeaf = true) (t : TypeExpr) :
    (t.mapLeaves g).leaves = t.leaves.map g := by
  have single : ∀ u ∈ t.leaves, (g u).leaves = [g u] := by
    exact fun u hu => leaves_of_isLeaf (hg u (isLeaf_of_mem_leaves hu))
  rw [leaves_mapLeaves_eq_flatMap, List.flatMap_congr single, List.map_eq_flatMap]

variable {g} in
theorem mem_subterms_mapLeaves {t v : TypeExpr}
    (hv : v ∈ (t.mapLeaves g).subterms) : (∃ u ∈ t.leaves, v ∈ (g u).subterms) ∨
      ∃ w ∈ t.subterms, w.isLeaf = false ∧ v = w.mapLeaves g := by
  have all : ∀ ts : List TypeExpr, (∀ t ∈ ts, v ∈ (t.mapLeaves g).subterms →
      (∃ u ∈ t.leaves, v ∈ (g u).subterms) ∨
        ∃ w ∈ t.subterms, w.isLeaf = false ∧ v = w.mapLeaves g) →
      v ∈ subtermsAll (ts.map (mapLeaves g)) →
      (∃ u ∈ ts.flatMap leaves, v ∈ (g u).subterms) ∨
        ∃ w ∈ subtermsAll ts, w.isLeaf = false ∧ v = w.mapLeaves g := by
    intro ts ih hv
    rw [subtermsAll_eq_flatMap, List.flatMap_map] at hv
    obtain ⟨t, ht, hv⟩ := List.mem_flatMap.1 hv
    rw [subtermsAll_eq_flatMap]
    rcases ih t ht hv with ⟨u, hu, hv⟩ | ⟨w, hw, image⟩
    · exact .inl ⟨u, List.mem_flatMap.2 ⟨t, ht, hu⟩, hv⟩
    · exact .inr ⟨w, List.mem_flatMap.2 ⟨t, ht, hw⟩, image⟩
  induction t with
  | named name => exact .inl ⟨_, List.mem_cons_self, hv⟩
  | ref reference => exact .inl ⟨_, List.mem_cons_self, hv⟩
  | container base element hb he =>
    simp only [mapLeaves_container, subterms, List.mem_append, List.mem_singleton] at hv
    simp only [leaves_container, subterms, List.mem_append, List.mem_singleton]
    rcases hv with (hv | hv) | rfl
    · rcases hb hv with ⟨u, hu, hv⟩ | ⟨w, hw, image⟩
      · exact .inl ⟨u, .inl hu, hv⟩
      · exact .inr ⟨w, .inl (.inl hw), image⟩
    · rcases he hv with ⟨u, hu, hv⟩ | ⟨w, hw, image⟩
      · exact .inl ⟨u, .inr hu, hv⟩
      · exact .inr ⟨w, .inl (.inr hw), image⟩
    · exact .inr ⟨_, .inr rfl, rfl, (mapLeaves_container g base element).symm⟩
  | generic base args hb ha =>
    simp only [mapLeaves_generic, subterms, List.mem_append, List.mem_singleton] at hv
    simp only [leaves_generic, subterms, List.mem_append, List.mem_singleton]
    rcases hv with (hv | hv) | rfl
    · rcases hb hv with ⟨u, hu, hv⟩ | ⟨w, hw, image⟩
      · exact .inl ⟨u, .inl hu, hv⟩
      · exact .inr ⟨w, .inl (.inl hw), image⟩
    · rcases all args ha hv with ⟨u, hu, hv⟩ | ⟨w, hw, image⟩
      · exact .inl ⟨u, .inr hu, hv⟩
      · exact .inr ⟨w, .inl (.inr hw), image⟩
    · exact .inr ⟨_, .inr rfl, rfl, (mapLeaves_generic g base args).symm⟩
  | union members hm =>
    simp only [mapLeaves_union, subterms, List.mem_append, List.mem_singleton] at hv
    simp only [leaves_union, subterms, List.mem_append, List.mem_singleton]
    rcases hv with hv | rfl
    · exact (all members hm hv).imp_right fun ⟨w, hw, image⟩ => ⟨w, .inl hw, image⟩
    · exact .inr ⟨_, .inr rfl, rfl, (mapLeaves_union g members).symm⟩
  | inter members hm =>
    simp only [mapLeaves_inter, subterms, List.mem_append, List.mem_singleton] at hv
    simp only [leaves_inter, subterms, List.mem_append, List.mem_singleton]
    rcases hv with hv | rfl
    · exact (all members hm hv).imp_right fun ⟨w, hw, image⟩ => ⟨w, .inl hw, image⟩
    · exact .inr ⟨_, .inr rfl, rfl, (mapLeaves_inter g members).symm⟩

variable {g} in
theorem mapLeaves_mem_subterms {t u : TypeExpr} (hu : u ∈ t.subterms) :
    u.mapLeaves g ∈ (t.mapLeaves g).subterms := by
  have all : ∀ ts : List TypeExpr,
      (∀ t ∈ ts, u ∈ t.subterms → u.mapLeaves g ∈ (t.mapLeaves g).subterms) →
      u ∈ subtermsAll ts → u.mapLeaves g ∈ subtermsAll (ts.map (mapLeaves g)) := by
    intro ts ih hu
    rw [subtermsAll_eq_flatMap] at hu
    obtain ⟨t, ht, hu⟩ := List.mem_flatMap.1 hu
    rw [subtermsAll_eq_flatMap, List.flatMap_map]
    exact List.mem_flatMap.2 ⟨t, ht, ih t ht hu⟩
  induction t with
  | named name =>
    rw [List.mem_singleton.1 hu]
    exact mem_subterms_self _
  | ref reference =>
    rw [List.mem_singleton.1 hu]
    exact mem_subterms_self _
  | container base element hb he =>
    simp only [subterms, mapLeaves_container, List.mem_append, List.mem_singleton] at hu ⊢
    rcases hu with (hu | hu) | rfl
    · exact .inl (.inl (hb hu))
    · exact .inl (.inr (he hu))
    · exact .inr (mapLeaves_container g base element)
  | generic base args hb ha =>
    simp only [subterms, mapLeaves_generic, List.mem_append, List.mem_singleton] at hu ⊢
    rcases hu with (hu | hu) | rfl
    · exact .inl (.inl (hb hu))
    · exact .inl (.inr (all args ha hu))
    · exact .inr (mapLeaves_generic g base args)
  | union members hm =>
    simp only [subterms, mapLeaves_union, List.mem_append, List.mem_singleton] at hu ⊢
    rcases hu with hu | rfl
    · exact .inl (all members hm hu)
    · exact .inr (mapLeaves_union g members)
  | inter members hm =>
    simp only [subterms, mapLeaves_inter, List.mem_append, List.mem_singleton] at hu ⊢
    rcases hu with hu | rfl
    · exact .inl (all members hm hu)
    · exact .inr (mapLeaves_inter g members)

end MapLeaves

theorem replace_eq_mapLeaves (f : TypeMapping) (t : TypeExpr) :
    t.replace f = t.mapLeaves f.onLeaf := by
  induction t with
  | named name => rfl
  | ref reference => rfl
  | container base element hb he => simp [replace_container, hb, he]
  | generic base args hb ha => simpa [replace_generic, hb] using ha
  | union members hm => simpa [replace_union] using hm
  | inter members hm => simpa [replace_inter] using hm

end TypeExpr
end InterfaceTree
