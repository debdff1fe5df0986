import Mathlib.Data.List.Nodup
import InterfaceTree.Instance.Specialize

namespace InterfaceTree

/-- A name is kept at the position where it first comes, and it comes there only. -/
structure InstanceCache.Sound (c : InstanceCache) : Prop where
  position : ∀ name, c.position[name]? = c.toList.findIdx? (·.name == name)
  nodup : (c.toList.map (·.name)).Nodup

namespace InstanceCache

theorem sound_empty : Sound {} where
  position _ := Std.TreeMap.getElem?_emptyc
  nodup := List.nodup_nil

variable {c : InstanceCache}

theorem Sound.find?_eq (h : c.Sound) (name : String) :
    c.find? name = c.toList.find? (·.name == name) := by
  rw [find?, h.position, List.find?_eq_bind_findIdx?_getElem?]
  cases c.toList.findIdx? (·.name == name) with
  | none => rfl
  | some i => simp [toList]

theorem Sound.mem_of_find? (h : c.Sound) {name : String} {i : Instance}
    (hi : c.find? name = some i) : i ∈ c.toList ∧ i.name = name := by
  rw [h.find?_eq] at hi
  exact ⟨List.mem_of_find?_eq_some hi, by simpa using List.find?_some hi⟩

theorem Sound.find?_of_mem (h : c.Sound) {i : Instance} (hi : i ∈ c.toList) :
    c.find? i.name = some i := by
  cases found : c.find? i.name with
  | none =>
    rw [h.find?_eq, List.find?_eq_none] at found
    exact absurd (beq_self_eq_true i.name) (found i hi)
  | some j =>
    obtain ⟨hj, same⟩ := h.mem_of_find? found
    rw [List.inj_on_of_nodup_map h.nodup hj hi same]

theorem Sound.position_iff (h : c.Sound) (name : String) (k : Nat) :
    c.position[name]? = some k ↔ ∃ bound : k < c.made.size, c.made[k].name = name := by
  rw [h.position, List.findIdx?_eq_some_iff_getElem]
  constructor
  · rintro ⟨bound, here, -⟩
    exact ⟨bound, eq_of_beq here⟩
  · rintro ⟨bound, here⟩
    refine ⟨bound, beq_iff_eq.2 here, fun j before there => ?_⟩
    have apart := List.pairwise_iff_getElem.1 h.nodup j k
    simp only [List.length_map, List.getElem_map] at apart
    apply apart (Nat.lt_trans before bound) bound before
    exact (eq_of_beq there).trans here.symm

theorem Sound.contains_eq (h : c.Sound) (name : String) :
    c.contains name = (c.find? name).isSome := by
  rw [contains, Std.TreeMap.contains_eq_isSome_getElem?, h.position, List.findIdx?_isSome,
    h.find?_eq, List.isSome_find?]

section Insert

variable (i : Instance)

private theorem insert_of_find? {old : Instance} (h : c.find? i.name = some old) :
    c.insert i = (old, c) := by
  rw [insert, h]

private theorem insert_of_find?_none (h : c.find? i.name = none) :
    c.insert i = (i, ⟨c.position.insert i.name c.made.size, c.made.push i⟩) := by
  rw [insert, h]

theorem find?_insert_of_find? {name : String} {j : Instance} (hj : c.find? name = some j) :
    (c.insert i).2.find? name = some j := by
  cases h : c.find? i.name with
  | some old => rwa [insert_of_find? i h]
  | none =>
    have differ : i.name ≠ name := by
      intro same
      rw [same, hj] at h
      cases h
    rw [find?] at hj
    obtain ⟨k, hk, hmade⟩ := Option.bind_eq_some_iff.1 hj
    obtain ⟨bound, -⟩ := Array.getElem?_eq_some_iff.1 hmade
    rw [insert_of_find?_none i h, find?]
    simp [Std.TreeMap.getElem?_insert, differ, hk, Array.getElem?_push, Nat.ne_of_lt bound, hmade]

/-- An instance comes into the cache when there is none of its name. -/
theorem toList_insert : (c.insert i).2.toList =
    if (c.find? i.name).isSome then c.toList else c.toList ++ [i] := by
  cases h : c.find? i.name with
  | some old => rw [insert_of_find? i h, Option.isSome_some, if_pos rfl]
  | none => simp [insert_of_find?_none i h, toList]

theorem Sound.insert (h : c.Sound) : (c.insert i).2.Sound := by
  cases found : c.find? i.name with
  | some old =>
    rw [insert_of_find? i found]
    exact h
  | none =>
    rw [insert_of_find?_none i found]
    rw [h.find?_eq] at found
    have absent : ∀ j ∈ c.toList, j.name ≠ i.name := by simpa using found
    constructor
    · intro name
      simp only [toList, Array.toList_push, List.findIdx?_append, Std.TreeMap.getElem?_insert,
        Std.LawfulEqOrd.compare_eq_iff_eq]
      rw [h.position name, toList]
      by_cases same : i.name = name
      · subst same
        have nowhere : c.made.toList.findIdx? (·.name == i.name) = none := by
          simpa [toList] using absent
        simp [nowhere]
      · simp [same]
    · simp only [toList, Array.toList_push, List.map_append, List.map_cons, List.map_nil]
      rw [List.nodup_append]
      refine ⟨h.nodup, List.nodup_singleton _, ?_⟩
      simpa [toList] using absent

theorem Sound.find?_insert (h : c.Sound) :
    (c.insert i).2.find? i.name = some (c.insert i).1 ∧ (c.insert i).1.name = i.name := by
  cases found : c.find? i.name with
  | some old =>
    rw [insert_of_find? i found]
    exact ⟨found, (h.mem_of_find? found).2⟩
  | none =>
    have sound := h.insert i
    have same : (c.insert i).1 = i := by rw [insert_of_find?_none i found]
    have mem : i ∈ (c.insert i).2.toList := by simp [insert_of_find?_none i found, toList]
    rw [same]
    exact ⟨sound.find?_of_mem mem, rfl⟩

theorem Sound.find?_insert_eq (h : c.Sound) (name : String) :
    (c.insert i).2.find? name = (c.find? name).or (if i.name = name then some i else none) := by
  rw [(h.insert i).find?_eq, toList_insert, h.find?_eq name]
  cases found : c.find? i.name with
  | some old =>
    rw [h.find?_eq] at found
    by_cases same : i.name = name
    · simp [← same, found]
    · simp [same]
  | none => simp [List.find?_append]

end Insert
end InstanceCache
end InterfaceTree
