import InterfaceTree.Proofs.Walks

namespace InterfaceTree

/-- Whatever the run fails with has the property. -/
def Faults {α : Type} (run : Instantiating α) (P : Fault → Prop) : Prop :=
  ∀ s fault, (run.run.run s).1 = .error fault → P fault

section Rules

variable {α β : Type} {P : Fault → Prop}

theorem faults_pure (a : α) : Faults (pure a) P := fun _ _ h => nomatch h

theorem faults_throw {fault : Fault} (h : P fault) : Faults (throw fault : Instantiating α) P := by
  intro s other same
  cases same
  exact h

theorem faults_get : Faults get P := fun _ _ h => nomatch h

theorem faults_modifyGet (f : Instantiation → α × Instantiation) : Faults (modifyGet f) P :=
  fun _ _ h => nomatch h

theorem faults_lift {x : Except Fault α} (h : ∀ fault, x = .error fault → P fault) :
    Faults (liftM x) P := by
  intro s fault failed
  rw [exceptT_run_lift] at failed
  exact h fault failed

theorem Faults.bind {x : Instantiating α} {f : α → Instantiating β} (hx : Faults x P)
    (hf : ∀ s a t, Gives x s a t → Faults (f a) P) : Faults (x >>= f) P := by
  intro s fault failed
  rw [exceptT_run_bind] at failed
  rcases run : x.run.run s with ⟨other | a, t⟩ <;> rw [run] at failed
  · cases failed
    exact hx s fault (congrArg Prod.fst run)
  · exact hf s a t run t fault failed

theorem Faults.map {x : Instantiating α} (f : α → β) (hx : Faults x P) : Faults (f <$> x) P := by
  rw [map_eq_pure_bind]
  exact hx.bind fun _ _ _ _ => faults_pure _

theorem Faults.mapM {f : α → Instantiating β} {as : List α} (h : ∀ a ∈ as, Faults (f a) P) :
    Faults (as.mapM f) P := by
  induction as with
  | nil => exact faults_pure _
  | cons a as ih =>
    rw [List.forall_mem_cons] at h
    rw [List.mapM_cons]
    exact h.1.bind fun _ _ _ _ => (ih h.2).bind fun _ _ _ _ => faults_pure _

theorem faults_refill {refill : List TypeExpr → α} {run : Instantiating α} {ts : List TypeExpr}
    {f : TypeExpr → Instantiating TypeExpr} (same : run = refill <$> ts.mapM (TypeExpr.rebuildM f))
    (h : ∀ t ∈ ts, Faults (t.rebuildM f) P) : Faults run P := by
  rw [same]
  exact (Faults.mapM h).map refill

end Rules

section Texts

private theorem bind_eq_error {ε α β : Type} {x : Except ε α} {f : α → Except ε β} {e : ε}
    (h : x >>= f = .error e) : x = .error e ∨ ∃ a, f a = .error e := by
  cases x with
  | error other =>
    cases h
    exact .inl rfl
  | ok a => exact .inr ⟨a, h⟩

private theorem mapM_eq_error {ε α β : Type} {f : α → Except ε β} {as : List α} {e : ε}
    (h : as.mapM f = .error e) : ∃ a ∈ as, f a = .error e := by
  induction as with
  | nil => cases h
  | cons a as ih =>
    rw [List.mapM_cons] at h
    rcases bind_eq_error h with head | ⟨b, h⟩
    · exact ⟨a, List.mem_cons_self, head⟩
    · rcases bind_eq_error h with tail | ⟨bs, h⟩
      · obtain ⟨c, hc, failed⟩ := ih tail
        exact ⟨c, List.mem_cons_of_mem a hc, failed⟩
      · cases h

theorem Name.isMalformed_of_write {style : Style} {kind : Kind} {name : String} {fault : Fault}
    (h : write style kind name = .error fault) : fault.isMalformed = true := by
  rw [write, check] at h
  split at h
  · cases h
    rfl
  · split at h <;> cases h
    rfl

/-- A type expression has no text only because a name in it has none. -/
theorem TypeExpr.isMalformed_of_evaluate {indent : Nat} {style : Name.Style} {t : TypeExpr}
    {fault : Fault} (h : t.evaluate (Layout.rules indent style) = .error fault) :
    fault.isMalformed = true := by
  have all (ts : List TypeExpr)
      (ih : ∀ t ∈ ts, t.evaluate (Layout.rules indent style) = .error fault →
        fault.isMalformed = true)
      (h : evaluateAll (Layout.rules indent style) ts = .error fault) :
      fault.isMalformed = true := by
    rw [evaluateAll_eq_mapM] at h
    obtain ⟨t, ht, failed⟩ := mapM_eq_error h
    exact ih t ht failed
  induction t with
  | named name => exact Name.isMalformed_of_write h
  | ref reference => exact Name.isMalformed_of_write h
  | container base element hb he =>
    rw [evaluate] at h
    rcases bind_eq_error h with failed | ⟨b, h⟩
    · exact hb failed
    · rcases bind_eq_error h with failed | ⟨e, h⟩
      · exact he failed
      · cases h
  | generic base args hb ha =>
    rw [evaluate] at h
    rcases bind_eq_error h with failed | ⟨b, h⟩
    · exact hb failed
    · rcases bind_eq_error h with failed | ⟨texts, h⟩
      · exact all args ha failed
      · cases h
  | union members hm =>
    rw [evaluate] at h
    rcases bind_eq_error h with failed | ⟨texts, h⟩
    · exact all members hm failed
    · cases h
  | inter members hm =>
    rw [evaluate] at h
    rcases bind_eq_error h with failed | ⟨texts, h⟩
    · exact all members hm failed
    · cases h

end Texts
end InterfaceTree
