import InterfaceTree.Workspace
import InterfaceTree.Proofs.Instantiation
import InterfaceTree.Proofs.Resolution

/-!
# What a pass leaves alone

Resolution and instantiation add objects and write to these only, however they end.
-/
namespace InterfaceTree

namespace Store

/-- Every class of the module is an object of the store. -/
def Holds (s : Store) (x : Module ClassId) : Prop := ∀ id ∈ x.classes, id < s.size

theorem Extends.load_eq {s t : Store} (h : s.Extends t) {x : Module ClassId} (hx : s.Holds x) :
    t.load x = s.load x := by
  have classes : x.classes.map t.read = x.classes.map s.read := by
    apply List.map_congr_left
    intro id hid
    exact h.read_eq id (hx id hid)
  rw [load, load, Module.mapClasses, Module.mapClasses, classes]

/-- Linking a module of new objects leaves the old ones alone. -/
theorem Extends.link {s t : Store} (h : s.Extends t) (find : String → Option ClassId)
    {x : Module ClassId} (new : ∀ id ∈ x.classes, s.size ≤ id) :
    s.Extends (t.link find x).2.store := by
  obtain ⟨-, size, read⟩ := t.frame_link find x
  refine ⟨?_, ?_⟩
  · rw [size]
    exact h.size_le
  · intro id hid
    have other : id ∉ x.classes := fun member => Nat.not_lt_of_le (new id member) hid
    rw [read id other, h.read_eq id hid]

end Store

section Resolve

variable (s : Store) (x : Module ClassId)

theorem extends_resolve : s.Extends ((resolve x).run.run s).2 := by
  rw [run_resolve, run_linkAll]
  refine (Store.Extends.hold s _).link _ fun id hid => ?_
  simp only [staged, Store.hold, List.mem_range'_1] at hid
  exact hid.1

end Resolve

section Instantiate

variable {τ : Type} [ClassTable τ] (table : τ) (s : Store) (x : Module ClassId)

private theorem keeps_walk : Keeps (Instantiation.Sound table (fun _ => True) s.size)
    ((s.load x).concrete.instantiateParts table) { store := s }
      fun y u => (s.load x).concrete.Rewritten table s.size u y :=
  Module.keeps_instantiateParts (any_inScope table) _ (fun _ _ _ _ => trivial)
    (Instantiation.sound_start s)

theorem extends_instantiateUnlinked :
    s.Extends ((instantiateUnlinked table x).run.run s).2 := by
  have grown := (keeps_walk table s x).extends_.store
  rw [run_instantiateUnlinked]
  generalize ((s.load x).concrete.instantiateParts table).run.run { store := s } = r at grown ⊢
  rcases r with ⟨fault | y, u⟩ <;> exact grown

theorem extends_instantiate : s.Extends ((instantiate x).run.run s).2 := by
  have walk := keeps_walk (s.indexOf x) s x
  obtain ⟨grown, sound, value⟩ := walk
  rw [run_instantiate, Store.instantiateParts]
  generalize ((s.load x).concrete.instantiateParts (s.indexOf x)).run.run { store := s } = r at *
  rcases r with ⟨fault | y, u⟩
  · exact grown.store
  · dsimp only
    rw [run_linkAll]
    refine grown.store.link _ fun id hid => ?_
    exact (Instantiation.join_new sound (value y rfl) id hid).1

variable {s x} in
theorem new_of_instantiateUnlinked {y : Module ClassId} {s' : Store}
    (h : (instantiateUnlinked table x).run.run s = (.ok y, s')) :
    ∀ id ∈ y.classes, s.size ≤ id ∧ id < s'.size := by
  obtain ⟨-, sound, value⟩ := keeps_walk table s x
  rw [run_instantiateUnlinked] at h
  generalize ((s.load x).concrete.instantiateParts table).run.run { store := s } = r at *
  rcases r with ⟨fault | z, u⟩ <;> cases h
  exact Instantiation.join_new sound (value z rfl)

end Instantiate

namespace Workspace

section Registers

variable (w : Workspace) (register : String)

theorem held_put (x : Module ClassId) (other : String) :
    (w.put register x).held other = if other = register then x else w.held other := by
  rw [held, put, Std.TreeMap.getD_insert]
  by_cases same : other = register
  · simp [same]
  · have differ : register ≠ other := Ne.symm same
    simp [same, differ, held]

theorem attempt_frame {pass : StoreM (Module ClassId)}
    (h : w.store.Extends (pass.run.run w.store).2) :
    let after := w.attempt register pass
    w.store.Extends after.2.store ∧
      (∀ other, other ≠ register → after.2.held other = w.held other) ∧
      (after.1 = .done ∨
        (∃ fault, after.1 = .refused fault) ∧ after.2.held register = w.held register) := by
  rw [attempt]
  generalize pass.run.run w.store = r at h ⊢
  rcases r with ⟨fault | x, t⟩
  · exact ⟨h, fun _ _ => rfl, .inr ⟨⟨fault, rfl⟩, rfl⟩⟩
  · refine ⟨h, ?_, .inl rfl⟩
    intro other differs
    exact (held_put _ _ _ _).trans (if_neg differs)

end Registers

section Sound

/-- Everything that is held is an object of the store. -/
structure Sound (w : Workspace) : Prop where
  externals : ∀ id ∈ w.externals, id < w.store.size
  held : ∀ register, w.store.Holds (w.held register)

variable {w : Workspace}

theorem Sound.put (h : w.Sound) (register : String) {x : Module ClassId} (hx : w.store.Holds x) :
    (w.put register x).Sound where
  externals := h.externals
  held other := by
    rw [held_put]
    split
    · exact hx
    · exact h.held other

theorem Sound.grow (h : w.Sound) {t : Store} (size : w.store.size ≤ t.size) :
    { w with store := t }.Sound where
  externals id hid := Nat.lt_of_lt_of_le (h.externals id hid) size
  held register id hid := Nat.lt_of_lt_of_le (h.held register id hid) size

theorem Sound.rebuild (h : w.Sound) (register : String) (x : Module Class) :
    (w.rebuild register x).Sound := by
  refine (h.grow (Store.Extends.hold w.store x).size_le).put register fun id hid => ?_
  simp only [List.mem_range'_1] at hid
  rw [Store.size_hold]
  exact hid.2

theorem Sound.attempt (h : w.Sound) (register : String) {pass : StoreM (Module ClassId)}
    (grown : w.store.Extends (pass.run.run w.store).2)
    (new : ∀ y t, pass.run.run w.store = (.ok y, t) → t.Holds y) :
    (w.attempt register pass).2.Sound := by
  rw [Workspace.attempt]
  generalize pass.run.run w.store = r at grown new ⊢
  rcases r with ⟨fault | y, t⟩
  · exact h.grow grown.size_le
  · exact (h.grow grown.size_le).put register (new y t rfl)

theorem Sound.link (h : w.Sound) (register : String) (find : String → Option ClassId) :
    (w.link register find).2.Sound := by
  obtain ⟨classes, size, -⟩ := w.store.frame_link find (w.held register)
  have holds : (w.store.link find (w.held register)).2.store.Holds
      (w.store.link find (w.held register)).1 := by
    intro id hid
    rw [classes] at hid
    rw [size]
    exact h.held register id hid
  exact (h.grow (Nat.le_of_eq size.symm)).put register holds

theorem sound_start (externals : List Class) : (start externals).Sound where
  externals id hid := by
    simp only [start, Store.hold, List.mem_range'_1] at hid
    rw [start, Store.size_hold]
    exact hid.2
  held register id hid := by simp [start, held] at hid

/-- No command makes a register hold what is not there. -/
theorem sound_run (h : w.Sound) (register : String) (command : Command) :
    (w.run register command).2.Sound := by
  have here := h.held register
  cases command with
  | load x => exact h.rebuild register x
  | copy source => exact h.put register (h.held source)
  | resolve =>
    refine h.attempt register (extends_resolve _ _) fun y t done id hid => ?_
    exact (new_of_resolve done id hid).2
  | instantiate =>
    refine h.attempt register (extends_instantiate _ _) fun y t done id hid => ?_
    exact (new_of_instantiate done id hid).2
  | refer => exact h.rebuild register _
  | dropReceivers => exact h.rebuild register _
  | replace f => exact h.rebuild register _
  | linkOwn =>
    have linked := h.link register (ClassTable.id? (w.store.indexOf (w.held register)))
    rw [run]
    generalize w.link register (ClassTable.id? (w.store.indexOf (w.held register))) = r at linked ⊢
    obtain ⟨l, w'⟩ := r
    cases outcome : l.outcome <;> simp only [outcome] <;> exact linked
  | linkWith search symbols => exact h.link register _
  | instantiateUnlinked symbols =>
    refine h.attempt register (extends_instantiateUnlinked _ _ _) fun y t done id hid => ?_
    exact (new_of_instantiateUnlinked _ done id hid).2
  | addConstant c => exact h.put register here
  | addFunction f => exact h.put register here
  | addClass c =>
    refine (h.grow (Store.Extends.add w.store c).size_le).put register fun id hid => ?_
    rw [Store.size_add]
    rcases List.mem_append.1 hid with old | new
    · exact Nat.lt_succ_of_lt (here id old)
    · rw [List.mem_singleton.1 new]
      exact Nat.lt_succ_self _
  | addExternal number =>
    refine h.put register fun id hid => ?_
    rcases List.mem_append.1 hid with old | new
    · exact here id old
    · exact h.externals id (List.mem_of_getElem? (Option.mem_toList.1 new))
  | removeClass index =>
    exact h.put register fun id hid => here id (List.mem_of_mem_eraseIdx hid)
  | forget =>
    refine ⟨h.externals, fun other id hid => ?_⟩
    simp only [run, held, Std.TreeMap.getD_erase] at hid
    split at hid
    · exact absurd hid List.not_mem_nil
    · exact h.held other id hid
  | lookup search name =>
    rw [run]
    split <;> exact h
  | inspect className name =>
    rw [run]
    split <;> exact h
  | follow className path =>
    rw [run]
    split <;> exact h
  | _ => exact h

def after (w : Workspace) (steps : List (String × Command)) : Workspace :=
  steps.foldl (fun w step => (w.run step.1 step.2).2) w

theorem sound_after (h : w.Sound) (steps : List (String × Command)) : (w.after steps).Sound := by
  induction steps generalizing w with
  | nil => exact h
  | cons step steps ih => exact ih (sound_run h step.1 step.2)

end Sound

/-- However a pass ends, every object that was there before it is as it was, and so is every module
of such objects. Only the register of a pass that is done holds another module afterwards. -/
theorem pass_frame (w : Workspace) (register : String) {pass : Command}
    (hpass : pass = .resolve ∨ pass = .instantiate) :
    let after := w.run register pass
    (∀ id, id < w.store.size → after.2.store.read id = w.store.read id) ∧
      (∀ x, w.store.Holds x → after.2.store.load x = w.store.load x) ∧
      (after.1 = .done ∨ ∃ fault, after.1 = .refused fault) ∧
      ∀ other, other ≠ register ∨ after.1 ≠ .done → after.2.held other = w.held other ∧
        (w.store.Holds (w.held other) → after.2.shown other = w.shown other) := by
  have frame : let after := w.run register pass
      w.store.Extends after.2.store ∧
        (∀ other, other ≠ register → after.2.held other = w.held other) ∧
        (after.1 = .done ∨
          (∃ fault, after.1 = .refused fault) ∧ after.2.held register = w.held register) := by
    rcases hpass with rfl | rfl
    · exact w.attempt_frame register (extends_resolve _ _)
    · exact w.attempt_frame register (extends_instantiate _ _)
  generalize w.run register pass = after at frame ⊢
  obtain ⟨grown, others, reply⟩ := frame
  refine ⟨grown.read_eq, fun x => grown.load_eq, reply.imp_right And.left, ?_⟩
  intro other unchanged
  have held : after.2.held other = w.held other := by
    by_cases same : other = register
    · subst same
      rcases reply with done | ⟨-, kept⟩
      · exact absurd done (unchanged.resolve_left fun differs => differs rfl)
      · exact kept
    · exact others other same
  refine ⟨held, fun inside => ?_⟩
  rw [shown, shown, held]
  exact grown.load_eq inside

/-- Two registers with one class object between them. -/
private def lent : Workspace :=
  (start []).after [
    ("lender", .load { classes := [{ name := "Box", constants := [⟨"next", .named "Box"⟩] }] }),
    ("borrower", .copy "lender")]

theorem pass_frame_lent :
    (lent.run "lender" .resolve).2.shown "borrower" = lent.shown "borrower" := by
  have sound : lent.Sound := sound_after (sound_start []) _
  have inside := sound.held "borrower"
  exact ((pass_frame lent "lender" (.inl rfl)).2.2.2 "borrower" (.inl (by decide))).2 inside

end Workspace
end InterfaceTree
