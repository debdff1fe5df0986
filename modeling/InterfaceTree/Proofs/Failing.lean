import InterfaceTree.Proofs.Walks

/-!
# Failing runs as derivations

A run over a list of type expressions fails exactly when there is a derivation for it, so what holds
of all failing runs is proved by induction on derivations.
-/
namespace InterfaceTree

section Breaks

variable {α β : Type}

/-- The run fails from `s` with the fault and ends in `t`. -/
def Breaks (run : Instantiating α) (s : Instantiation) (fault : Fault) (t : Instantiation) : Prop :=
  run.run.run s = (.error fault, t)

variable {s t : Instantiation} {fault : Fault}

theorem not_breaks_pure {a : α} : ¬ Breaks (pure a) s fault t := fun h => nomatch h

theorem not_breaks_modifyGet {f : Instantiation → α × Instantiation} :
    ¬ Breaks (modifyGet f) s fault t := fun h => nomatch h

theorem breaks_throw_iff {thrown : Fault} :
    Breaks (throw thrown : Instantiating α) s fault t ↔ thrown = fault ∧ s = t := by
  constructor
  · intro h
    cases h
    exact ⟨rfl, rfl⟩
  · rintro ⟨rfl, rfl⟩
    rfl

theorem breaks_lift_iff {x : Except Fault α} :
    Breaks (liftM x) s fault t ↔ x = .error fault ∧ s = t := by
  rw [Breaks, exceptT_run_lift, Prod.mk.injEq]

theorem breaks_bind_iff {x : Instantiating α} {f : α → Instantiating β} :
    Breaks (x >>= f) s fault t ↔
      Breaks x s fault t ∨ ∃ a u, Gives x s a u ∧ Breaks (f a) u fault t := by
  rw [Breaks, exceptT_run_bind]
  constructor
  · intro h
    rcases run : x.run.run s with ⟨other | a, u⟩ <;> rw [run] at h
    · cases h
      exact .inl run
    · exact .inr ⟨a, u, run, h⟩
  · rintro (h | ⟨a, u, run, h⟩)
    · rw [Breaks] at h
      rw [h]
    · rw [Gives] at run
      rw [run]
      exact h

theorem breaks_map_iff {x : Instantiating α} {f : α → β} :
    Breaks (f <$> x) s fault t ↔ Breaks x s fault t := by
  rw [map_eq_pure_bind, breaks_bind_iff, or_iff_left]
  rintro ⟨a, u, -, h⟩
  exact not_breaks_pure h

theorem breaks_mapM_cons_iff {f : α → Instantiating β} {a : α} {as : List α} :
    Breaks ((a :: as).mapM f) s fault t ↔
      Breaks (f a) s fault t ∨ ∃ b u, Gives (f a) s b u ∧ Breaks (as.mapM f) u fault t := by
  rw [List.mapM_cons, breaks_bind_iff]
  simp only [bind_pure_comp, breaks_map_iff]

end Breaks

/-- The fault of a usage that has not exactly one argument. It shows the usage if that has a
text. -/
def TypeExpr.argumentListFault (u : TypeExpr) : Fault :=
  match u.render with
  | .ok usage => .unsupported (.argumentList usage)
  | .error fault => fault

section Fails

variable {τ : Type} [ClassTable τ] (table : τ)

/-- Why no template is entered for a usage that is not provided. -/
inductive Refuses (active : List Active) (s : Instantiation) (base element : TypeExpr) :
    Fault → Prop
  | unnamed {fault : Fault} (text : (TypeExpr.container base element).canonical = .error fault) :
      Refuses active s base element fault
  | unchosen {fault : Fault} {name : String}
      (text : (TypeExpr.container base element).canonical = .ok name)
      (absent : ¬ s.Provides table name)
      (refusal : templateOf table active base name = .error fault) :
      Refuses active s base element fault
  | unbound {fault : Fault} {name : String} {template : ClassObject}
      (text : (TypeExpr.container base element).canonical = .ok name)
      (absent : ¬ s.Provides table name)
      (chosen : templateOf table active base name = .ok template)
      (arity : Template.bind template.decl.name template.decl.template [element] = .error fault) :
      Refuses active s base element fault

/-- The walk over a list of type expressions inside the given templates fails. It takes the state
from `s` to `t` when `Fails table active s ts fault t`. -/
inductive Fails : List Active → Instantiation → List TypeExpr → Fault → Instantiation → Prop
  | later {active : List Active} {s s₁ s' : Instantiation} {fault : Fault} {ts : List TypeExpr}
      {t u : TypeExpr} (first : Walks table active s [t] [u] s₁)
      (rest : Fails active s₁ ts fault s') : Fails active s (t :: ts) fault s'
  | union {active : List Active} {s s' : Instantiation} {fault : Fault}
      {ts members : List TypeExpr} (inside : Fails active s members fault s') :
      Fails active s (.union members :: ts) fault s'
  | inter {active : List Active} {s s' : Instantiation} {fault : Fault}
      {ts members : List TypeExpr} (inside : Fails active s members fault s') :
      Fails active s (.inter members :: ts) fault s'
  | parts {active : List Active} {s s' : Instantiation} {fault : Fault} {ts : List TypeExpr}
      {u base element : TypeExpr} (usage : u.usage? = some (base, element))
      (inside : Fails active s [base, element] fault s') : Fails active s (u :: ts) fault s'
  | refused {active : List Active} {s s' : Instantiation} {fault : Fault} {ts : List TypeExpr}
      {u base element base' element' : TypeExpr} (usage : u.usage? = some (base, element))
      (parts : Walks table active s [base, element] [base', element'] s')
      (refusal : Refuses table active s' base' element' fault) : Fails active s (u :: ts) fault s'
  | body {active : List Active} {s s₁ s' : Instantiation} {fault : Fault} {ts : List TypeExpr}
      {u base element base' element' : TypeExpr} {name : String} {template : ClassObject}
      {p : TemplateItem} (usage : u.usage? = some (base, element))
      (parts : Walks table active s [base, element] [base', element'] s₁)
      (text : (TypeExpr.container base' element').canonical = .ok name)
      (absent : ¬ s₁.Provides table name)
      (chosen : templateOf table active base' name = .ok template)
      (param : template.decl.template = [p])
      (inside : Fails (⟨template.decl.name, name⟩ :: active) s₁
        (Template.apply template.decl name (Template.only p element')).types fault s') :
      Fails active s (u :: ts) fault s'
  | listed {active : List Active} {s s' : Instantiation} {fault : Fault}
      {ts args : List TypeExpr} {base : TypeExpr} (many : args.length ≠ 1)
      (inside : Fails active s (base :: args) fault s') :
      Fails active s (.generic base args :: ts) fault s'
  | list {active : List Active} {s s' : Instantiation} {fault : Fault}
      {ts args args' : List TypeExpr} {base base' : TypeExpr} (many : args.length ≠ 1)
      (parts : Walks table active s (base :: args) (base' :: args') s')
      (refusal : (TypeExpr.generic base' args').argumentListFault = fault) :
      Fails active s (.generic base args :: ts) fault s'

end Fails

section Runs

variable {τ : Type} [ClassTable τ] {table : τ} {active : List Active} {s s' : Instantiation}
  {fault : Fault}

private theorem breaks_makeInstance_iff {spec : TypeExpr → TypeExpr → Instantiating TypeExpr}
    {c : Class} {name : String} {element : TypeExpr} :
    Breaks (makeInstance spec c name element) s fault s' ↔
      Template.bind c.name c.template [element] = .error fault ∧ s = s' ∨
        ∃ p, c.template = [p] ∧
          Breaks ((Template.apply c name (Template.only p element)).types.mapM
            (TypeExpr.rebuildM (onUsage spec))) s fault s' := by
  simp only [makeInstance, breaks_bind_iff, breaks_lift_iff, gives_lift_iff,
    Class.rebuildM_eq_refill, breaks_map_iff, not_breaks_modifyGet, and_false, exists_false,
    or_false]
  apply or_congr_right
  constructor
  · rintro ⟨mapping, _, ⟨bound, rfl⟩, failed⟩
    obtain ⟨p, template, rfl⟩ := bind_single bound
    exact ⟨p, template, failed⟩
  · rintro ⟨p, template, failed⟩
    refine ⟨_, s, ⟨?_, rfl⟩, failed⟩
    rw [template]
    rfl

private theorem breaks_specialize_iff {base element : TypeExpr} :
    Breaks (specialize table active base element) s fault s' ↔
      Refuses table active s base element fault ∧ s = s' ∨
        ∃ name template p, (TypeExpr.container base element).canonical = .ok name ∧
          ¬ s.Provides table name ∧ templateOf table active base name = .ok template ∧
          template.decl.template = [p] ∧
          Breaks (specializeAll table (⟨template.decl.name, name⟩ :: active)
            (Template.apply template.decl name (Template.only p element)).types) s fault s' := by
  cases text : (TypeExpr.container base element).canonical with
  | error unnamed =>
    rw [Breaks, specialize_eq, text, exceptT_run_bind, exceptT_run_lift]
    constructor
    · intro h
      cases h
      exact .inl ⟨.unnamed text, rfl⟩
    · rintro (⟨refusal | refusal | refusal, rfl⟩ | ⟨_, _, _, same, _⟩) <;> simp_all
  | ok name =>
    by_cases provided : s.Provides table name
    · rw [Breaks, run_specialize_of_provides text provided]
      constructor
      · exact fun h => nomatch h
      · rintro (⟨refusal | refusal | refusal, rfl⟩ | ⟨_, _, _, same, absent, _⟩) <;> simp_all
    · rw [Breaks, run_specialize_of_absent text provided, ← Breaks]
      simp only [breaks_bind_iff, breaks_lift_iff, gives_lift_iff, breaks_makeInstance_iff,
        not_breaks_pure, and_false, exists_false, or_false]
      constructor
      · rintro (⟨refusal, rfl⟩ | ⟨template, _, ⟨chosen, rfl⟩, ⟨arity, rfl⟩ | ⟨p, param, failed⟩⟩)
        · exact .inl ⟨.unchosen text provided refusal, rfl⟩
        · exact .inl ⟨.unbound text provided chosen arity, rfl⟩
        · exact .inr ⟨name, template, p, rfl, provided, chosen, param, failed⟩
      · rintro (⟨refusal, rfl⟩ | ⟨_, template, p, same, -, chosen, param, failed⟩)
        · cases refusal with
          | unnamed text' => simp_all
          | unchosen text' _ refusal =>
            obtain rfl := Except.ok.inj (text.symm.trans text')
            exact .inl ⟨refusal, rfl⟩
          | unbound text' _ chosen arity =>
            obtain rfl := Except.ok.inj (text.symm.trans text')
            exact .inr ⟨_, _, ⟨chosen, rfl⟩, .inl ⟨arity, rfl⟩⟩
        · cases same
          exact .inr ⟨template, s, ⟨chosen, rfl⟩, .inr ⟨p, param, failed⟩⟩

private theorem breaks_usage_iff {spec : TypeExpr → TypeExpr → Instantiating TypeExpr}
    {u base element : TypeExpr} (usage : u.usage? = some (base, element)) :
    Breaks (u.rebuildM (onUsage spec)) s fault s' ↔
      Breaks ([base, element].mapM (TypeExpr.rebuildM (onUsage spec))) s fault s' ∨
        ∃ base' element' s₁,
          Gives ([base, element].mapM (TypeExpr.rebuildM (onUsage spec))) s [base', element'] s₁ ∧
            Breaks (spec base' element') s₁ fault s' := by
  rw [TypeExpr.rebuildM_usage usage]
  simp only [breaks_mapM_cons_iff, gives_mapM_cons_iff, breaks_bind_iff, List.mapM_nil,
    gives_pure_iff, not_breaks_pure, and_false, exists_false, or_false]
  constructor
  · rintro (failed | ⟨b, s₁, hb, failed | ⟨e, s₂, he, failed⟩⟩)
    · exact .inl (.inl failed)
    · exact .inl (.inr ⟨b, s₁, hb, failed⟩)
    · exact .inr ⟨b, e, s₂, ⟨b, s₁, [e], hb, ⟨e, s₂, [], he, ⟨rfl, rfl⟩, rfl⟩, rfl⟩, failed⟩
  · rintro ((failed | ⟨b, s₁, hb, failed⟩) | ⟨b, e, s₂, ⟨_, s₁, _, hb, ⟨_, _, _, he, last, rfl⟩,
      same⟩, failed⟩)
    · exact .inl failed
    · exact .inr ⟨b, s₁, hb, .inl failed⟩
    · obtain ⟨rfl, rfl⟩ := last
      cases same
      exact .inr ⟨b, s₁, hb, .inr ⟨e, _, he, failed⟩⟩

theorem length_of_gives_mapM {α β : Type} {f : α → Instantiating β} {as : List α} {bs : List β}
    (h : Gives (as.mapM f) s bs s') : bs.length = as.length := by
  induction as generalizing s bs with
  | nil =>
    obtain ⟨rfl, rfl⟩ := gives_pure_iff.1 h
    rfl
  | cons a as ih =>
    obtain ⟨b, s₁, cs, -, tail, rfl⟩ := gives_mapM_cons_iff.1 h
    rw [List.length_cons, List.length_cons, ih tail]

private theorem breaks_list_iff {spec : TypeExpr → TypeExpr → Instantiating TypeExpr}
    {base : TypeExpr} {args : List TypeExpr} (many : args.length ≠ 1) :
    Breaks ((TypeExpr.generic base args).rebuildM (onUsage spec)) s fault s' ↔
      Breaks ((base :: args).mapM (TypeExpr.rebuildM (onUsage spec))) s fault s' ∨
        ∃ base' args', Gives ((base :: args).mapM (TypeExpr.rebuildM (onUsage spec))) s
          (base' :: args') s' ∧ (TypeExpr.generic base' args').argumentListFault = fault := by
  have refuses {base' : TypeExpr} {args' : List TypeExpr} (many : args'.length ≠ 1)
      {s s' : Instantiation} : Breaks (onUsage spec (.generic base' args')) s fault s' ↔
        (TypeExpr.generic base' args').argumentListFault = fault ∧ s = s' := by
    have run : onUsage spec (.generic base' args') = (do
        let usage ← (TypeExpr.generic base' args').render
        throw (.unsupported (.argumentList usage))) := by
      rcases args' with _ | ⟨_, _ | _⟩
      · rfl
      · exact absurd rfl many
      · rfl
    rw [run, breaks_bind_iff, breaks_lift_iff, TypeExpr.argumentListFault]
    simp only [gives_lift_iff, breaks_throw_iff]
    cases (TypeExpr.generic base' args').render with
    | error other => simp
    | ok usage => simp
  rw [TypeExpr.rebuildM, TypeExpr.rebuildAllM_eq_mapM, breaks_bind_iff, breaks_mapM_cons_iff]
  simp only [breaks_bind_iff, gives_mapM_cons_iff]
  constructor
  · rintro (failed | ⟨b, s₁, hb, failed | ⟨args', s₂, hargs, failed⟩⟩)
    · exact .inl (.inl failed)
    · exact .inl (.inr ⟨b, s₁, hb, failed⟩)
    · obtain ⟨refusal, rfl⟩ := (refuses (by rwa [length_of_gives_mapM hargs])).1 failed
      exact .inr ⟨b, args', ⟨b, s₁, args', hb, hargs, rfl⟩, refusal⟩
  · rintro ((failed | ⟨b, s₁, hb, failed⟩) | ⟨b, args', ⟨_, s₁, _, hb, hargs, same⟩, refusal⟩)
    · exact .inl failed
    · exact .inr ⟨b, s₁, hb, .inl failed⟩
    · cases same
      refine .inr ⟨b, s₁, hb, .inr ⟨args', s', hargs, ?_⟩⟩
      exact (refuses (by rwa [length_of_gives_mapM hargs])).2 ⟨refusal, rfl⟩

theorem Fails.breaks {ts : List TypeExpr} (h : Fails table active s ts fault s') :
    Breaks (specializeAll table active ts) s fault s' := by
  induction h with
  | later first rest ih =>
    obtain ⟨u, s₁, cs, head, tail, same⟩ := gives_mapM_cons_iff.1 first.gives
    obtain ⟨rfl, rfl⟩ := gives_pure_iff.1 tail
    cases same
    exact breaks_mapM_cons_iff.2 (.inr ⟨_, _, head, ih⟩)
  | union inside ih =>
    refine breaks_mapM_cons_iff.2 (.inl ?_)
    rw [TypeExpr.rebuildM, TypeExpr.rebuildAllM_eq_mapM]
    exact breaks_bind_iff.2 (.inl ih)
  | inter inside ih =>
    refine breaks_mapM_cons_iff.2 (.inl ?_)
    rw [TypeExpr.rebuildM, TypeExpr.rebuildAllM_eq_mapM]
    exact breaks_bind_iff.2 (.inl ih)
  | parts usage inside ih =>
    exact breaks_mapM_cons_iff.2 (.inl ((breaks_usage_iff usage).2 (.inl ih)))
  | refused usage parts refusal =>
    refine breaks_mapM_cons_iff.2 (.inl ?_)
    refine (breaks_usage_iff usage).2 (.inr ⟨_, _, _, parts.gives, ?_⟩)
    exact breaks_specialize_iff.2 (.inl ⟨refusal, rfl⟩)
  | body usage parts text absent chosen param inside ih =>
    refine breaks_mapM_cons_iff.2 (.inl ?_)
    refine (breaks_usage_iff usage).2 (.inr ⟨_, _, _, parts.gives, ?_⟩)
    exact breaks_specialize_iff.2 (.inr ⟨_, _, _, text, absent, chosen, param, ih⟩)
  | listed many inside ih =>
    exact breaks_mapM_cons_iff.2 (.inl ((breaks_list_iff many).2 (.inl ih)))
  | list many parts refusal =>
    exact breaks_mapM_cons_iff.2
      (.inl ((breaks_list_iff many).2 (.inr ⟨_, _, parts.gives, refusal⟩)))

section Derive

private def FailsAt (table : τ) (active : List Active) (t : TypeExpr) : Prop :=
  ∀ {s s' : Instantiation} {fault : Fault} {ts : List TypeExpr},
    Breaks (t.rebuildM (onUsage (specialize table active))) s fault s' →
      Fails table active s (t :: ts) fault s'

private theorem fails_all {ts : List TypeExpr} (h : ∀ t ∈ ts, FailsAt table active t)
    (run : Breaks (specializeAll table active ts) s fault s') :
    Fails table active s ts fault s' := by
  induction ts generalizing s with
  | nil => exact absurd run not_breaks_pure
  | cons t ts ih =>
    rcases breaks_mapM_cons_iff.1 run with failed | ⟨u, s₁, head, failed⟩
    · exact h t List.mem_cons_self failed
    · exact .later (walks_single head) (ih (fun v hv => h v (List.mem_cons_of_mem t hv)) failed)

private theorem failsAt_usage {u base element : TypeExpr} (usage : u.usage? = some (base, element))
    (hb : FailsAt table active base) (he : FailsAt table active element)
    (inner : ∀ a : Active, Active.idleCount table (a :: active) < Active.idleCount table active →
      ∀ {s s' : Instantiation} {fault : Fault} {ts : List TypeExpr},
        Breaks (specializeAll table (a :: active) ts) s fault s' →
          Fails table (a :: active) s ts fault s') :
    FailsAt table active u := by
  intro s s' fault ts run
  rcases (breaks_usage_iff usage).1 run with failed | ⟨base', element', s₁, parts, failed⟩
  · refine .parts usage (fails_all ?_ failed)
    simp only [List.mem_cons, List.not_mem_nil, or_false, forall_eq_or_imp, forall_eq]
    exact ⟨hb, he⟩
  · have parts := walks_iff_gives.2 parts
    rcases breaks_specialize_iff.1 failed with
      ⟨refusal, rfl⟩ | ⟨name, template, p, text, absent, chosen, param, failed⟩
    · exact .refused usage parts refusal
    · exact .body usage parts text absent chosen param
        (inner _ (templateOf_decreases chosen) failed)

private theorem failsAt_type (t : TypeExpr)
    (inner : ∀ a : Active, Active.idleCount table (a :: active) < Active.idleCount table active →
      ∀ {s s' : Instantiation} {fault : Fault} {ts : List TypeExpr},
        Breaks (specializeAll table (a :: active) ts) s fault s' →
          Fails table (a :: active) s ts fault s') :
    FailsAt table active t := by
  induction t with
  | named name => exact fun run => absurd run not_breaks_pure
  | ref reference => exact fun run => absurd run not_breaks_pure
  | container base element hb he => exact failsAt_usage rfl hb he inner
  | generic base args hb ha =>
    by_cases many : args.length = 1
    · obtain ⟨element, rfl⟩ := List.length_eq_one_iff.1 many
      exact failsAt_usage rfl hb (ha element List.mem_cons_self) inner
    · intro run
      rcases (breaks_list_iff many).1 run with failed | ⟨base', args', parts, refusal⟩
      · exact .listed many (fails_all (List.forall_mem_cons.2 ⟨hb, ha⟩) failed)
      · exact .list many (walks_iff_gives.2 parts) refusal
  | union members hm =>
    intro s s' fault ts run
    rw [TypeExpr.rebuildM, TypeExpr.rebuildAllM_eq_mapM] at run
    rcases breaks_bind_iff.1 run with failed | ⟨members', s₁, -, failed⟩
    · exact .union (fails_all hm failed)
    · exact absurd failed not_breaks_pure
  | inter members hm =>
    intro s s' fault ts run
    rw [TypeExpr.rebuildM, TypeExpr.rebuildAllM_eq_mapM] at run
    rcases breaks_bind_iff.1 run with failed | ⟨members', s₁, -, failed⟩
    · exact .inter (fails_all hm failed)
    · exact absurd failed not_breaks_pure

private theorem fails_of_breaks {active : List Active} {s s' : Instantiation} {fault : Fault}
    {ts : List TypeExpr} (run : Breaks (specializeAll table active ts) s fault s') :
    Fails table active s ts fault s' := by
  apply fails_all _ run
  intro t _
  apply failsAt_type t
  -- inside of a body there is one template more under way, so fewer are idle
  intro a _ s s' fault ts run
  exact fails_of_breaks run
termination_by Active.idleCount table active

theorem fails_iff_breaks {ts : List TypeExpr} :
    Fails table active s ts fault s' ↔ Breaks (specializeAll table active ts) s fault s' :=
  ⟨Fails.breaks, fails_of_breaks⟩

end Derive
end Runs
end InterfaceTree
