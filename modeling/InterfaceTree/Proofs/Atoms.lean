import InterfaceTree.Proofs.Refill

/-!
# Atoms of a type expression

What unions and intersections are put together from: names, references and the outermost usages.
-/
namespace InterfaceTree.TypeExpr

mutual

/-- The atoms of an expression, from left to right. -/
def atoms : TypeExpr → List TypeExpr
  | .named name => [.named name]
  | .ref reference => [.ref reference]
  | .container base element => [.container base element]
  | .generic base args => [.generic base args]
  | .union members => atomsAll members
  | .inter members => atomsAll members

def atomsAll : List TypeExpr → List TypeExpr
  | [] => []
  | t :: ts => t.atoms ++ atomsAll ts

end

theorem atomsAll_eq_flatMap (ts : List TypeExpr) : atomsAll ts = ts.flatMap atoms := by
  induction ts with
  | nil => rfl
  | cons t ts ih => rw [atomsAll, ih, List.flatMap_cons]

mutual

def mapAtoms (g : TypeExpr → TypeExpr) : TypeExpr → TypeExpr
  | .named name => g (.named name)
  | .ref reference => g (.ref reference)
  | .container base element => g (.container base element)
  | .generic base args => g (.generic base args)
  | .union members => .union (mapAtomsAll g members)
  | .inter members => .inter (mapAtomsAll g members)

def mapAtomsAll (g : TypeExpr → TypeExpr) : List TypeExpr → List TypeExpr
  | [] => []
  | t :: ts => t.mapAtoms g :: mapAtomsAll g ts

end

theorem mapAtomsAll_eq_map (g : TypeExpr → TypeExpr) (ts : List TypeExpr) :
    mapAtomsAll g ts = ts.map (mapAtoms g) := by
  induction ts with
  | nil => rfl
  | cons t ts ih => rw [mapAtomsAll, ih, List.map_cons]

/-- A container, or a generic type with one argument. -/
def isUsage : TypeExpr → Bool
  | .container _ _ => true
  | .generic _ [_] => true
  | _ => false

mutual

/-- The usages in an expression that are not inside of another usage. -/
def usages : TypeExpr → List TypeExpr
  | .named _ => []
  | .ref _ => []
  | .container base element => [.container base element]
  | .generic base [arg] => [.generic base [arg]]
  | .generic base args => base.usages ++ usagesAll args
  | .union members => usagesAll members
  | .inter members => usagesAll members

def usagesAll : List TypeExpr → List TypeExpr
  | [] => []
  | t :: ts => t.usages ++ usagesAll ts

end

theorem usagesAll_eq_flatMap (ts : List TypeExpr) : usagesAll ts = ts.flatMap usages := by
  induction ts with
  | nil => rfl
  | cons t ts ih => rw [usagesAll, ih, List.flatMap_cons]

section Equations

variable (g : TypeExpr → TypeExpr) (base element : TypeExpr) (ts : List TypeExpr)

@[simp] theorem atoms_named (name : String) : atoms (.named name) = [.named name] := rfl

@[simp] theorem atoms_ref (reference : Reference) : atoms (.ref reference) = [.ref reference] := rfl

@[simp] theorem atoms_container :
    atoms (.container base element) = [.container base element] := rfl

@[simp] theorem atoms_generic : atoms (.generic base ts) = [.generic base ts] := rfl

@[simp] theorem atoms_union : atoms (.union ts) = ts.flatMap atoms := atomsAll_eq_flatMap ts

@[simp] theorem atoms_inter : atoms (.inter ts) = ts.flatMap atoms := atomsAll_eq_flatMap ts

@[simp] theorem mapAtoms_named (name : String) : mapAtoms g (.named name) = g (.named name) := rfl

@[simp] theorem mapAtoms_ref (reference : Reference) :
    mapAtoms g (.ref reference) = g (.ref reference) := rfl

@[simp] theorem mapAtoms_container :
    mapAtoms g (.container base element) = g (.container base element) := rfl

@[simp] theorem mapAtoms_generic : mapAtoms g (.generic base ts) = g (.generic base ts) := rfl

@[simp] theorem mapAtoms_union : mapAtoms g (.union ts) = .union (ts.map (mapAtoms g)) := by
  rw [← mapAtomsAll_eq_map]
  rfl

@[simp] theorem mapAtoms_inter : mapAtoms g (.inter ts) = .inter (ts.map (mapAtoms g)) := by
  rw [← mapAtomsAll_eq_map]
  rfl

end Equations

section MapAtoms

variable {g h : TypeExpr → TypeExpr}

theorem mapAtoms_congr {t : TypeExpr} (hgh : ∀ u ∈ t.atoms, g u = h u) :
    t.mapAtoms g = t.mapAtoms h := by
  have all : ∀ ts : List TypeExpr, (∀ t ∈ ts, (∀ u ∈ t.atoms, g u = h u) →
      t.mapAtoms g = t.mapAtoms h) → (∀ u ∈ ts.flatMap atoms, g u = h u) →
      ts.map (mapAtoms g) = ts.map (mapAtoms h) := by
    intro ts ih hts
    apply List.map_congr_left
    intro t ht
    exact ih t ht fun u hu => hts u (List.mem_flatMap.2 ⟨t, ht, hu⟩)
  induction t with
  | named name => exact hgh (.named name) List.mem_cons_self
  | ref reference => exact hgh (.ref reference) List.mem_cons_self
  | container base element => exact hgh (.container base element) List.mem_cons_self
  | generic base args => exact hgh (.generic base args) List.mem_cons_self
  | union members hm => rw [mapAtoms_union, all members hm (by simpa using hgh), mapAtoms_union]
  | inter members hm => rw [mapAtoms_inter, all members hm (by simpa using hgh), mapAtoms_inter]

theorem mapAtoms_of_usageFree {t : TypeExpr} (free : t.UsageFree) (g : TypeExpr → TypeExpr) :
    t.mapAtoms g = t.mapLeaves g := by
  have all : ∀ ts : List TypeExpr, (∀ t ∈ ts, t.UsageFree → t.mapAtoms g = t.mapLeaves g) →
      (∀ t ∈ ts, t.UsageFree) → ts.map (mapAtoms g) = ts.map (mapLeaves g) :=
    fun ts ih inside => List.map_congr_left fun t ht => ih t ht (inside t ht)
  induction t with
  | named name => rfl
  | ref reference => rfl
  | container base element => exact absurd rfl (free _ (mem_subterms_self _)).1
  | generic base args => exact absurd rfl (free _ (mem_subterms_self _)).2
  | union members hm =>
    rw [mapAtoms_union, mapLeaves_union, all members hm (throughout_union.1 free).1]
  | inter members hm =>
    rw [mapAtoms_inter, mapLeaves_inter, all members hm (throughout_inter.1 free).1]

theorem mapLeaves_mapAtoms (g h : TypeExpr → TypeExpr) (t : TypeExpr) :
    (t.mapAtoms g).mapLeaves h = t.mapAtoms fun u => (g u).mapLeaves h := by
  induction t with
  | named name => rfl
  | ref reference => rfl
  | container base element => rfl
  | generic base args => rfl
  | union members hm => simpa using hm
  | inter members hm => simpa using hm

theorem mapAtoms_mapLeaves (hg : ∀ u, u.isLeaf = true → (g u).isLeaf = true) (t : TypeExpr) :
    (t.mapLeaves g).mapAtoms h = t.mapAtoms fun u => h (u.mapLeaves g) := by
  have leaf {u : TypeExpr} (hu : u.isLeaf = true) : (g u).mapAtoms h = h (g u) := by
    have image := hg u hu
    generalize g u = v at image
    cases v <;> first | rfl | cases image
  induction t with
  | named name => exact leaf rfl
  | ref reference => exact leaf rfl
  | container base element => rfl
  | generic base args => rfl
  | union members hm => simpa using hm
  | inter members hm => simpa using hm

theorem leaves_eq_flatMap_atoms (t : TypeExpr) : t.leaves = t.atoms.flatMap leaves := by
  have all : ∀ ts : List TypeExpr, (∀ t ∈ ts, t.leaves = t.atoms.flatMap leaves) →
      ts.flatMap leaves = (ts.flatMap atoms).flatMap leaves := by
    intro ts hts
    rw [List.flatMap_assoc]
    exact List.flatMap_congr hts
  induction t with
  | named name => simp
  | ref reference => simp
  | container base element => simp
  | generic base args => simp
  | union members hm => rw [leaves_union, atoms_union, all members hm]
  | inter members hm => rw [leaves_inter, atoms_inter, all members hm]

theorem mem_subterms_mapAtoms {t v : TypeExpr} (hv : v ∈ (t.mapAtoms g).subterms) :
    (∃ u ∈ t.atoms, v ∈ (g u).subterms) ∨ (∃ members, v = .union members) ∨
      ∃ members, v = .inter members := by
  have all : ∀ ts : List TypeExpr, (∀ t ∈ ts, v ∈ (t.mapAtoms g).subterms →
      (∃ u ∈ t.atoms, v ∈ (g u).subterms) ∨ (∃ members, v = .union members) ∨
        ∃ members, v = .inter members) → v ∈ subtermsAll (ts.map (mapAtoms g)) →
      (∃ u ∈ ts.flatMap atoms, v ∈ (g u).subterms) ∨ (∃ members, v = .union members) ∨
        ∃ members, v = .inter members := by
    intro ts ih hv
    rw [subtermsAll_eq_flatMap, List.flatMap_map] at hv
    obtain ⟨t, ht, hv⟩ := List.mem_flatMap.1 hv
    rcases ih t ht hv with ⟨u, hu, hv⟩ | other
    · exact .inl ⟨u, List.mem_flatMap.2 ⟨t, ht, hu⟩, hv⟩
    · exact .inr other
  induction t with
  | named name => exact .inl ⟨_, List.mem_cons_self, hv⟩
  | ref reference => exact .inl ⟨_, List.mem_cons_self, hv⟩
  | container base element => exact .inl ⟨_, List.mem_cons_self, hv⟩
  | generic base args => exact .inl ⟨_, List.mem_cons_self, hv⟩
  | union members hm =>
    rw [mapAtoms_union, subterms, List.mem_append, List.mem_singleton] at hv
    rcases hv with hv | rfl
    · rw [atoms_union]
      exact all members hm hv
    · exact .inr (.inl ⟨_, rfl⟩)
  | inter members hm =>
    rw [mapAtoms_inter, subterms, List.mem_append, List.mem_singleton] at hv
    rcases hv with hv | rfl
    · rw [atoms_inter]
      exact all members hm hv
    · exact .inr (.inr ⟨_, rfl⟩)

theorem atoms_subset_subterms (t : TypeExpr) : t.atoms ⊆ t.subterms := by
  have all : ∀ ts : List TypeExpr, (∀ t ∈ ts, t.atoms ⊆ t.subterms) →
      ts.flatMap atoms ⊆ subtermsAll ts := by
    intro ts hts u hu
    obtain ⟨t, ht, hu⟩ := List.mem_flatMap.1 hu
    rw [subtermsAll_eq_flatMap]
    exact List.mem_flatMap.2 ⟨t, ht, hts t ht hu⟩
  induction t with
  | union members hm =>
    rw [atoms_union, subterms]
    exact List.subset_append_of_subset_left _ (all members hm)
  | inter members hm =>
    rw [atoms_inter, subterms]
    exact List.subset_append_of_subset_left _ (all members hm)
  | _ => exact List.cons_subset.2 ⟨mem_subterms_self _, List.nil_subset _⟩

theorem subterms_subset_mapAtoms {t u : TypeExpr} (hu : u ∈ t.atoms) :
    (g u).subterms ⊆ (t.mapAtoms g).subterms := by
  have all : ∀ ts : List TypeExpr,
      (∀ t ∈ ts, u ∈ t.atoms → (g u).subterms ⊆ (t.mapAtoms g).subterms) →
      u ∈ ts.flatMap atoms → (g u).subterms ⊆ subtermsAll (ts.map (mapAtoms g)) := by
    intro ts ih hu v hv
    obtain ⟨t, ht, hu⟩ := List.mem_flatMap.1 hu
    rw [subtermsAll_eq_flatMap, List.flatMap_map]
    exact List.mem_flatMap.2 ⟨t, ht, ih t ht hu hv⟩
  induction t with
  | named name => rw [List.mem_singleton.1 hu]; exact fun _ h => h
  | ref reference => rw [List.mem_singleton.1 hu]; exact fun _ h => h
  | container base element => rw [List.mem_singleton.1 hu]; exact fun _ h => h
  | generic base args => rw [List.mem_singleton.1 hu]; exact fun _ h => h
  | union members hm =>
    rw [atoms_union] at hu
    rw [mapAtoms_union, subterms]
    exact List.subset_append_of_subset_left _ (all members hm hu)
  | inter members hm =>
    rw [atoms_inter] at hu
    rw [mapAtoms_inter, subterms]
    exact List.subset_append_of_subset_left _ (all members hm hu)

end MapAtoms

theorem atoms_of_isUsage {u : TypeExpr} (h : u.isUsage = true) : u.atoms = [u] := by
  cases u <;> first | rfl | cases h

theorem mapAtoms_of_isUsage {u : TypeExpr} (h : u.isUsage = true) (g : TypeExpr → TypeExpr) :
    u.mapAtoms g = g u := by
  cases u <;> first | rfl | cases h

theorem usages_eq_filter {t : TypeExpr} (h : ∀ u ∈ t.atoms, u.isLeaf = true ∨ u.isUsage = true) :
    t.usages = t.atoms.filter isUsage := by
  have all : ∀ ts : List TypeExpr, (∀ t ∈ ts, (∀ u ∈ t.atoms, u.isLeaf = true ∨ u.isUsage = true) →
      t.usages = t.atoms.filter isUsage) →
      (∀ u ∈ ts.flatMap atoms, u.isLeaf = true ∨ u.isUsage = true) →
      usagesAll ts = (ts.flatMap atoms).filter isUsage := by
    intro ts ih hts
    rw [usagesAll_eq_flatMap, List.filter_flatMap]
    apply List.flatMap_congr
    intro t ht
    exact ih t ht fun u hu => hts u (List.mem_flatMap.2 ⟨t, ht, hu⟩)
  induction t with
  | named name => rfl
  | ref reference => rfl
  | container base element => rfl
  | generic base args =>
    rcases args with _ | ⟨arg, _ | ⟨second, rest⟩⟩
    · simp [isLeaf, name?, isUsage] at h
    · rfl
    · simp [isLeaf, name?, isUsage] at h
  | union members hm =>
    rw [atoms_union] at h ⊢
    exact all members hm h
  | inter members hm =>
    rw [atoms_inter] at h ⊢
    exact all members hm h

end InterfaceTree.TypeExpr
