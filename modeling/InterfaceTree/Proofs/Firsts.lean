import Mathlib.Data.Finset.Card
import InterfaceTree.Proofs.Cached

/-! # The first of a name -/
namespace InterfaceTree.InstanceCache

inductive Request
  | insert (i : Instance)
  | find (name : String)
  | contains (name : String)
  | size
  | isEmpty

inductive Reply
  | made (i : Instance)
  | found (i : Option Instance)
  | truth (value : Bool)
  | count (n : Nat)

def Request.offers? : Request → Option Instance
  | .insert i => some i
  | _ => none

def run (c : InstanceCache) : Request → Reply × InstanceCache
  | .insert i => (.made (c.insert i).1, (c.insert i).2)
  | .find name => (.found (c.find? name), c)
  | .contains name => (.truth (c.contains name), c)
  | .size => (.count c.size, c)
  | .isEmpty => (.truth c.isEmpty, c)

def after (c : InstanceCache) (requests : List Request) : InstanceCache :=
  requests.foldl (fun c request => (c.run request).2) c

/-- The cache holds the first instance of each name that was put in, the names in the order in which
they came. -/
structure KeepsFirst (c : InstanceCache) (history : List Instance) : Prop where
  sound : c.Sound
  names : c.toList.map (·.name) = (history.map (·.name)).eraseDups
  first : ∀ name, c.find? name = history.find? (·.name == name)

theorem keepsFirst_empty : KeepsFirst {} [] where
  sound := sound_empty
  names := List.eraseDups_nil.symm
  first := sound_empty.find?_eq

namespace KeepsFirst

variable {c : InstanceCache} {history : List Instance}

theorem isSome_find?_iff (h : KeepsFirst c history) (name : String) :
    (c.find? name).isSome = true ↔ name ∈ history.map (·.name) := by
  rw [h.first, List.find?_isSome]
  simp

private theorem names_insert (h : KeepsFirst c history) (i : Instance) :
    (c.insert i).2.toList.map (·.name) = ((history ++ [i]).map (·.name)).eraseDups := by
  have known := h.isSome_find?_iff i.name
  rw [toList_insert, List.map_append, List.eraseDups_append, ← h.names, List.map_singleton,
    List.cons_removeAll, List.contains_eq_mem]
  by_cases old : i.name ∈ history.map (·.name)
  · rw [if_pos (known.2 old), decide_eq_true old]
    simp
  · rw [if_neg (mt known.1 old), decide_eq_false old, List.map_append]
    rfl

private theorem first_insert (h : KeepsFirst c history) (i : Instance) (name : String) :
    (c.insert i).2.find? name = (history ++ [i]).find? (·.name == name) := by
  rw [h.sound.find?_insert_eq, h.first, List.find?_append, List.find?_singleton]
  simp

theorem insert (h : KeepsFirst c history) (i : Instance) :
    KeepsFirst (c.insert i).2 (history ++ [i]) :=
  ⟨h.sound.insert i, h.names_insert i, h.first_insert i⟩

theorem run (h : KeepsFirst c history) (request : Request) :
    KeepsFirst (c.run request).2 (history ++ request.offers?.toList) := by
  cases request with
  | insert i => exact h.insert i
  | _ => exact history.append_nil.symm ▸ h

theorem after (h : KeepsFirst c history) (requests : List Request) :
    KeepsFirst (c.after requests) (history ++ requests.filterMap Request.offers?) := by
  induction requests generalizing c history with
  | nil => exact history.append_nil.symm ▸ h
  | cons request requests ih =>
    have offered : (request :: requests).filterMap Request.offers? =
        request.offers?.toList ++ requests.filterMap Request.offers? := by
      cases request <;> rfl
    rw [offered, ← List.append_assoc]
    exact ih (h.run request)

theorem size_eq (h : KeepsFirst c history) :
    c.size = (history.map (·.name)).toFinset.card := by
  have distinct : (c.toList.map (·.name)).toFinset = (history.map (·.name)).toFinset := by
    ext name
    rw [h.names, List.mem_toFinset, List.mem_toFinset, List.mem_eraseDups]
  rw [← distinct, List.toFinset_card_of_nodup h.sound.nodup, List.length_map]
  rfl

theorem isEmpty_eq (h : KeepsFirst c history) : c.isEmpty = history.isEmpty := by
  have names := congrArg List.isEmpty h.names
  cases history with
  | nil => simpa [toList, isEmpty] using names
  | cons i history => simpa [toList, isEmpty, List.eraseDups_cons] using names

theorem contains_eq (h : KeepsFirst c history) (name : String) :
    c.contains name = history.any (·.name == name) := by
  rw [h.sound.contains_eq, h.first, List.isSome_find?]

theorem toList_eq (h : KeepsFirst c history) : c.toList.map some =
    (history.map (·.name)).eraseDups.map fun name => history.find? (·.name == name) := by
  rw [← h.names, List.map_map]
  apply List.map_congr_left
  intro i here
  exact ((h.first i.name).symm.trans (h.sound.find?_of_mem here)).symm

end KeepsFirst

/-- The laws of the cache, after any run that starts with an empty one.

The positions are those of the instances in the list, each under the name of its instance: they are
within bounds, so that a name with a position is always found, and no name comes twice. Putting an
instance in gives the first that was ever put in under its name. The other requests leave the cache
as it is: looking a name up gives the first instance that was put in under it, and a name is
contained when there is one; the size is the number of different names. The list has the first
instance of each name, in the order in which the names came. -/
theorem keeps_first (requests : List Request) :
    let c := after {} requests
    let history := requests.filterMap Request.offers?
    (∀ name k, c.position[name]? = some k ↔ ∃ bound : k < c.made.size, c.made[k].name = name) ∧
    (∀ name, (c.find? name).isSome = c.position[name]?.isSome) ∧
    (c.toList.map (·.name)).Nodup ∧
    (∀ i, ∃ first, (c.run (.insert i)).1 = .made first ∧
      (history ++ [i]).find? (·.name == i.name) = some first) ∧
    (∀ name, c.run (.find name) = (.found (history.find? (·.name == name)), c)) ∧
    (∀ name, c.run (.contains name) = (.truth (history.any (·.name == name)), c)) ∧
    c.run .size = (.count (history.map (·.name)).toFinset.card, c) ∧
    c.run .isEmpty = (.truth history.isEmpty, c) ∧
    c.toList.map some =
      (history.map (·.name)).eraseDups.map fun name => history.find? (·.name == name) := by
  intro c history
  have h : KeepsFirst c history := keepsFirst_empty.after requests
  refine ⟨h.sound.position_iff, fun name => ?_, h.sound.nodup, fun i => ?_, fun name => ?_,
    fun name => ?_, ?_, ?_, h.toList_eq⟩
  · rw [← h.sound.contains_eq, contains, Std.TreeMap.contains_eq_isSome_getElem?]
  · exact ⟨_, rfl, ((h.insert i).first i.name).symm.trans (h.sound.find?_insert i).1⟩
  · rw [InstanceCache.run, h.first]
  · rw [InstanceCache.run, h.contains_eq]
  · rw [InstanceCache.run, h.size_eq]
  · rw [InstanceCache.run, h.isEmpty_eq]

example : (after {} [.insert ⟨"set", 0⟩, .insert ⟨"list", 1⟩, .find "set",
    .insert ⟨"set", 2⟩]).toList = [⟨"set", 0⟩, ⟨"list", 1⟩] := by
  decide

end InterfaceTree.InstanceCache
