import Mathlib.Data.List.Forall2
import InterfaceTree.Instance.Instantiate
import InterfaceTree.Proofs.Cached
import InterfaceTree.Proofs.Run

namespace InterfaceTree

/-- Every object of `s` is in `t` as it was. -/
structure Store.Extends (s t : Store) : Prop where
  size_le : s.size ≤ t.size
  read_eq : ∀ id, id < s.size → t.read id = s.read id

namespace Store.Extends

variable {s t u : Store}

theorem refl (s : Store) : s.Extends s := ⟨Nat.le_refl _, fun _ _ => rfl⟩

theorem trans (h : s.Extends t) (h' : t.Extends u) : s.Extends u where
  size_le := Nat.le_trans h.size_le h'.size_le
  read_eq id hid := (h'.read_eq id (Nat.lt_of_lt_of_le hid h.size_le)).trans (h.read_eq id hid)

theorem add (s : Store) (c : Class) : s.Extends (s.add c).2 where
  size_le := by rw [size_add]; exact Nat.le_succ _
  read_eq _ hid := read_add_of_lt c hid

theorem hold (s : Store) (x : Module Class) : s.Extends (s.hold x).2 where
  size_le := by rw [size_hold]; exact Nat.le_add_right _ _
  read_eq _ hid := read_hold_of_lt x hid

end Store.Extends

namespace Instantiation

/-- Nothing is lost from `s` to `t`: objects stay as they are, and so do the instances. -/
structure Extends (s t : Instantiation) : Prop where
  store : s.store.Extends t.store
  made : ∀ name i, s.cache.find? name = some i → t.cache.find? name = some i

namespace Extends

variable {s t u : Instantiation}

theorem refl (s : Instantiation) : s.Extends s := ⟨.refl _, fun _ _ h => h⟩

theorem trans (h : s.Extends t) (h' : t.Extends u) : s.Extends u :=
  ⟨h.store.trans h'.store, fun name i hi => h'.made name i (h.made name i hi)⟩

theorem addObject (s : Instantiation) (c : Class) : s.Extends (s.addObject c).2 :=
  ⟨.add _ c, fun _ _ h => h⟩

theorem addInstance (s : Instantiation) (c : Class) : s.Extends (s.addInstance c).2 :=
  ⟨.add _ c, fun _ _ h => InstanceCache.find?_insert_of_find? _ h⟩

end Extends

theorem mem_addInstance {s : Instantiation} {c : Class} {i : Instance}
    (hi : i ∈ (s.addInstance c).2.cache.toList) :
    i ∈ s.cache.toList ∨ i = ⟨c.name, s.store.size⟩ := by
  rw [addInstance, InstanceCache.toList_insert] at hi
  split at hi
  · exact .inl hi
  · exact (List.mem_append.1 hi).imp_right List.mem_singleton.1

end Instantiation

/-- A run from `s` only adds to the state, keeps the invariant whether it fails or not, and gives a
value with the property when it succeeds. -/
structure Keeps {α : Type} (Inv : Instantiation → Prop) (run : Instantiating α)
    (s : Instantiation) (Q : α → Instantiation → Prop) : Prop where
  extends_ : s.Extends (run.run.run s).2
  inv : Inv (run.run.run s).2
  value : ∀ a, (run.run.run s).1 = .ok a → Q a (run.run.run s).2

namespace Keeps

variable {α β : Type} {Inv : Instantiation → Prop} {s : Instantiation}
  {Q : α → Instantiation → Prop} {R : β → Instantiation → Prop}

theorem pure {a : α} (hs : Inv s) (ha : Q a s) : Keeps Inv (Pure.pure a) s Q where
  extends_ := .refl s
  inv := hs
  value b hb := by
    cases hb
    exact ha

theorem throw {fault : Fault} (hs : Inv s) : Keeps Inv (throw fault : Instantiating α) s Q where
  extends_ := .refl s
  inv := hs
  value _ hb := nomatch hb

theorem get (hs : Inv s) : Keeps Inv MonadState.get s fun a t => a = s ∧ t = s where
  extends_ := .refl s
  inv := hs
  value a ha := by
    cases ha
    exact ⟨rfl, rfl⟩

theorem lift {x : Except Fault α} (hs : Inv s) :
    Keeps Inv (liftM x) s fun a t => x = .ok a ∧ t = s := by
  refine ⟨?_, ?_, fun a ha => ?_⟩ <;> rw [exceptT_run_lift] at *
  · exact .refl s
  · exact hs
  · exact ⟨ha, rfl⟩

theorem modifyGet {f : Instantiation → α × Instantiation} (grown : s.Extends (f s).2)
    (kept : Inv (f s).2) (value : Q (f s).1 (f s).2) : Keeps Inv (modifyGet f) s Q where
  extends_ := grown
  inv := kept
  value a ha := by
    cases ha
    exact value

theorem bind {x : Instantiating α} {f : α → Instantiating β} (hx : Keeps Inv x s Q)
    (hf : ∀ a t, s.Extends t → Inv t → Q a t → Keeps Inv (f a) t R) : Keeps Inv (x >>= f) s R := by
  obtain ⟨grown, kept, value⟩ := hx
  constructor <;> rw [exceptT_run_bind] <;> generalize x.run.run s = r at grown kept value ⊢ <;>
    rcases r with ⟨fault | a, t⟩
  case extends_.error => exact grown
  case inv.error => exact kept
  case value.error => exact fun _ hb => nomatch hb
  case extends_.ok => exact grown.trans (hf a t grown kept (value a rfl)).extends_
  case inv.ok => exact (hf a t grown kept (value a rfl)).inv
  case value.ok => exact (hf a t grown kept (value a rfl)).value

theorem imp {x : Instantiating α} {P : α → Instantiation → Prop} (hx : Keeps Inv x s Q)
    (h : ∀ a t, s.Extends t → Inv t → Q a t → P a t) : Keeps Inv x s P where
  extends_ := hx.extends_
  inv := hx.inv
  value a ha := h a _ hx.extends_ hx.inv (hx.value a ha)

theorem map {x : Instantiating α} (f : α → β) (hx : Keeps Inv x s fun a t => R (f a) t) :
    Keeps Inv (f <$> x) s R := by
  rw [map_eq_pure_bind]
  exact hx.bind fun a t _ ht ha => .pure ht ha

/-- A walk over a list, for a property of the items that later steps do not undo. -/
theorem mapM {walk : α → Instantiating β} {P : Instantiation → α → β → Prop}
    (stable : ∀ t u a b, t.Extends u → Inv u → P t a b → P u a b) (as : List α) (hs : Inv s)
    (step : ∀ a ∈ as, ∀ t, s.Extends t → Inv t → Keeps Inv (walk a) t fun b u => P u a b) :
    Keeps Inv (as.mapM walk) s fun bs t => List.Forall₂ (P t) as bs := by
  induction as generalizing s with
  | nil => exact .pure hs .nil
  | cons a as ih =>
    rw [List.mapM_cons]
    refine (step a List.mem_cons_self s (.refl s) hs).bind fun b t hst ht hb => ?_
    have rest := ih ht fun a' ha' u htu => step a' (List.mem_cons_of_mem a ha') u (hst.trans htu)
    refine rest.bind fun bs u htu hu hbs => .pure hu ?_
    exact .cons (stable t u a b htu hu hb) hbs

end Keeps

theorem forall₂_eq_map {α β : Type} {P : α → Prop} {f : α → β} {as : List α} {bs : List β}
    (h : List.Forall₂ (fun a b => P a ∧ b = f a) as bs) : (∀ a ∈ as, P a) ∧ bs = as.map f := by
  induction h with
  | nil => exact ⟨fun _ h => absurd h List.not_mem_nil, rfl⟩
  | cons head _ ih =>
    obtain ⟨first, rfl⟩ := head
    obtain ⟨rest, rfl⟩ := ih
    exact ⟨List.forall_mem_cons.2 ⟨first, rest⟩, rfl⟩

end InterfaceTree
