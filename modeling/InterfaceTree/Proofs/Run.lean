import InterfaceTree.Store

namespace InterfaceTree

section

variable {ε α β : Type}

theorem bind_eq_ok_iff {x : Except ε α} {f : α → Except ε β} {b : β} :
    x >>= f = .ok b ↔ ∃ a, x = .ok a ∧ f a = .ok b := by
  cases x with
  | error e => exact ⟨fun h => (nomatch h), fun ⟨_, h, _⟩ => (nomatch h)⟩
  | ok a => exact ⟨fun h => ⟨a, rfl, h⟩, fun ⟨_, same, h⟩ => by cases same; exact h⟩

theorem pure_eq_ok_iff {a b : α} : (pure a : Except ε α) = .ok b ↔ a = b :=
  ⟨fun h => Except.ok.inj h, fun h => congrArg Except.ok h⟩

/-- What can be said of each result is so of the list of all results. -/
theorem map_of_mapM_eq_ok {γ : Type} {f : α → Except ε β} {g : β → γ} {own : α → γ}
    (h : ∀ a b, f a = .ok b → g b = own a) {as : List α} {bs : List β}
    (run : as.mapM f = .ok bs) : bs.map g = as.map own := by
  induction as generalizing bs with
  | nil =>
    cases run
    rfl
  | cons a as ih =>
    rw [List.mapM_cons] at run
    obtain ⟨b, first, run⟩ := bind_eq_ok_iff.1 run
    obtain ⟨cs, rest, run⟩ := bind_eq_ok_iff.1 run
    cases run
    rw [List.map_cons, List.map_cons, h a b first, ih rest]

end

section

variable {σ α β : Type}

theorem stateM_run_pure (a : α) (s : σ) : (pure a : StateM σ α).run s = (a, s) := rfl

theorem stateM_run_map (f : α → β) (x : StateM σ α) (s : σ) :
    (f <$> x).run s = (f (x.run s).1, (x.run s).2) := rfl

theorem stateM_run_bind (x : StateM σ α) (f : α → StateM σ β) (s : σ) :
    (x >>= f).run s = (f (x.run s).1).run (x.run s).2 := rfl

theorem stateM_run_get (s : σ) : (get : StateM σ σ).run s = (s, s) := rfl

variable {ε : Type}

theorem exceptT_run_get (s : σ) : (get : ExceptT ε (StateM σ) σ).run.run s = (.ok s, s) := rfl

theorem exceptT_run_set (s t : σ) :
    (set t : ExceptT ε (StateM σ) PUnit).run.run s = (.ok ⟨⟩, t) := rfl

theorem exceptT_run_modifyGet (f : σ → α × σ) (s : σ) :
    (modifyGet f : ExceptT ε (StateM σ) α).run.run s = (.ok (f s).1, (f s).2) := rfl

theorem exceptT_run_lift (x : Except ε α) (s : σ) :
    (liftM x : ExceptT ε (StateM σ) α).run.run s = (x, s) := by
  cases x <;> rfl

theorem exceptT_run_bind (x : ExceptT ε (StateM σ) α) (f : α → ExceptT ε (StateM σ) β) (s : σ) :
    (x >>= f).run.run s =
      match x.run.run s with
      | (.ok a, t) => (f a).run.run t
      | (.error e, t) => (.error e, t) := by
  show (ExceptT.bindCont f (x.run.run s).1).run (x.run.run s).2 = _
  rcases x.run.run s with ⟨_ | _, t⟩ <;> rfl

end
end InterfaceTree
