import InterfaceTree.Proofs.Instantiation

/-!
# Successful runs as derivations

A run over a list of type expressions succeeds exactly when there is a derivation for it, so what
holds of all successful runs is proved by induction on derivations.
-/
namespace InterfaceTree

section Gives

variable {α β : Type}

/-- The run succeeds from `s` with the value `a` and ends in `t`. -/
def Gives (run : Instantiating α) (s : Instantiation) (a : α) (t : Instantiation) : Prop :=
  run.run.run s = (.ok a, t)

variable {s t : Instantiation} {a : α}

theorem gives_pure_iff {b : α} : Gives (pure a) s b t ↔ a = b ∧ s = t := by
  constructor
  · intro h
    cases h
    exact ⟨rfl, rfl⟩
  · rintro ⟨rfl, rfl⟩
    rfl

theorem gives_bind_iff {x : Instantiating α} {f : α → Instantiating β} {b : β} :
    Gives (x >>= f) s b t ↔ ∃ a u, Gives x s a u ∧ Gives (f a) u b t := by
  rw [Gives, exceptT_run_bind]
  constructor
  · intro h
    rcases run : x.run.run s with ⟨fault | a, u⟩ <;> rw [run] at h
    · cases h
    · exact ⟨a, u, run, h⟩
  · rintro ⟨a, u, run, h⟩
    rw [Gives] at run
    rw [run]
    exact h

theorem gives_map_iff {x : Instantiating α} {f : α → β} {b : β} :
    Gives (f <$> x) s b t ↔ ∃ a, Gives x s a t ∧ f a = b := by
  rw [map_eq_pure_bind, gives_bind_iff]
  constructor
  · rintro ⟨a, u, run, h⟩
    obtain ⟨rfl, rfl⟩ := gives_pure_iff.1 h
    exact ⟨a, run, rfl⟩
  · rintro ⟨a, run, rfl⟩
    exact ⟨a, t, run, gives_pure_iff.2 ⟨rfl, rfl⟩⟩

theorem gives_lift_iff {x : Except Fault α} :
    Gives (liftM x) s a t ↔ x = .ok a ∧ s = t := by
  rw [Gives, exceptT_run_lift, Prod.mk.injEq]

theorem gives_modifyGet_iff {f : Instantiation → α × Instantiation} :
    Gives (modifyGet f) s a t ↔ f s = (a, t) := by
  rw [Gives, exceptT_run_modifyGet, Prod.mk.injEq, Except.ok.injEq, ← Prod.mk.injEq]

theorem not_gives_throw {fault : Fault} : ¬ Gives (throw fault) s a t :=
  fun h => nomatch h

theorem gives_mapM_cons_iff {f : α → Instantiating β} {as : List α} {bs : List β} :
    Gives ((a :: as).mapM f) s bs t ↔
      ∃ b u cs, Gives (f a) s b u ∧ Gives (as.mapM f) u cs t ∧ bs = b :: cs := by
  rw [List.mapM_cons, gives_bind_iff]
  constructor
  · rintro ⟨b, u, head, rest⟩
    obtain ⟨cs, v, tail, done⟩ := gives_bind_iff.1 rest
    obtain ⟨rfl, rfl⟩ := gives_pure_iff.1 done
    exact ⟨b, u, cs, head, tail, rfl⟩
  · rintro ⟨b, u, cs, head, tail, rfl⟩
    exact ⟨b, u, head, gives_bind_iff.2 ⟨cs, t, tail, gives_pure_iff.2 ⟨rfl, rfl⟩⟩⟩

end Gives

/-- The base and the argument of a usage. -/
def TypeExpr.usage? : TypeExpr → Option (TypeExpr × TypeExpr)
  | .container base element => some (base, element)
  | .generic base [element] => some (base, element)
  | _ => none

theorem TypeExpr.isLeaf_of_usage? {u base element : TypeExpr}
    (h : u.usage? = some (base, element)) : u.isLeaf = false := by
  cases u <;> first | rfl | cases h

theorem TypeExpr.isUsage_eq (u : TypeExpr) : u.isUsage = u.usage?.isSome := by
  rcases u with _ | _ | ⟨b, e⟩ | ⟨b, _ | ⟨e, _ | _⟩⟩ | _ | _ <;> rfl

theorem TypeExpr.canonical_of_usage? {u base element : TypeExpr}
    (h : u.usage? = some (base, element)) : u.canonical = (container base element).canonical := by
  rcases u with _ | _ | ⟨b, e⟩ | ⟨b, _ | ⟨e, _ | _⟩⟩ | _ | _ <;> cases h
  · rfl
  · exact canonical_generic_singleton base element

abbrev Template.only (p : TemplateItem) (element : TypeExpr) : TypeMapping :=
  Std.TreeMap.insert ∅ p.name element

section Walks

variable {τ : Type} [ClassTable τ] (table : τ)

/-- The walk over a list of type expressions inside the given templates. It makes `us` of `ts` and
takes the state from `s` to `t` when `Walks table active s ts us t`. -/
inductive Walks : List Active → Instantiation → List TypeExpr → List TypeExpr → Instantiation → Prop
  | nil {active : List Active} {s : Instantiation} : Walks active s [] [] s
  | named {active : List Active} {s s' : Instantiation} {ts us : List TypeExpr} {name : String}
      (rest : Walks active s ts us s') : Walks active s (.named name :: ts) (.named name :: us) s'
  | ref {active : List Active} {s s' : Instantiation} {ts us : List TypeExpr}
      {reference : Reference} (rest : Walks active s ts us s') :
      Walks active s (.ref reference :: ts) (.unlinked reference.name :: us) s'
  | union {active : List Active} {s s₁ s' : Instantiation} {ts us members members' : List TypeExpr}
      (inside : Walks active s members members' s₁) (rest : Walks active s₁ ts us s') :
      Walks active s (.union members :: ts) (.union members' :: us) s'
  | inter {active : List Active} {s s₁ s' : Instantiation} {ts us members members' : List TypeExpr}
      (inside : Walks active s members members' s₁) (rest : Walks active s₁ ts us s') :
      Walks active s (.inter members :: ts) (.inter members' :: us) s'
  /-- There is an instance, made now or in an earlier run. -/
  | found {active : List Active} {s s₁ s' : Instantiation} {ts us : List TypeExpr}
      {u base element base' element' : TypeExpr} {name : String}
      (usage : u.usage? = some (base, element))
      (parts : Walks active s [base, element] [base', element'] s₁)
      (text : (TypeExpr.container base' element').canonical = .ok name)
      (provided : s₁.Provides table name) (rest : Walks active s₁ ts us s') :
      Walks active s (u :: ts) (.ref ⟨name, s₁.target? name⟩ :: us) s'
  /-- An instance is made of the template, with its parameter replaced and its body walked over. -/
  | made {active : List Active} {s s₁ s₂ s₃ s' : Instantiation} {ts us types : List TypeExpr}
      {u base element base' element' : TypeExpr} {name : String} {template : ClassObject}
      {p : TemplateItem} {id : ClassId} (usage : u.usage? = some (base, element))
      (parts : Walks active s [base, element] [base', element'] s₁)
      (text : (TypeExpr.container base' element').canonical = .ok name)
      (absent : ¬ s₁.Provides table name)
      (chosen : templateOf table active base' name = .ok template)
      (param : template.decl.template = [p])
      (body : Walks (⟨template.decl.name, name⟩ :: active) s₁
        (Template.apply template.decl name (Template.only p element')).types types s₂)
      (stored : s₂.addInstance
        ((Template.apply template.decl name (Template.only p element')).refill types) = (id, s₃))
      (rest : Walks active s₃ ts us s') :
      Walks active s (u :: ts) (.linked name id :: us) s'

end Walks

section Runs

variable {τ : Type} [ClassTable τ] {table : τ}

abbrev specializeAll (table : τ) (active : List Active) (ts : List TypeExpr) :
    Instantiating (List TypeExpr) :=
  ts.mapM (TypeExpr.rebuildM (onUsage (specialize table active)))

variable {active : List Active} {s s' : Instantiation}

/-- A usage is specialized once its base and its argument are. -/
theorem TypeExpr.rebuildM_usage {spec : TypeExpr → TypeExpr → Instantiating TypeExpr}
    {u base element : TypeExpr} (usage : u.usage? = some (base, element)) :
    u.rebuildM (onUsage spec) = (do
      let base' ← base.rebuildM (onUsage spec)
      let element' ← element.rebuildM (onUsage spec)
      spec base' element') := by
  rcases u with _ | _ | ⟨b, e⟩ | ⟨b, _ | ⟨e, _ | _⟩⟩ | _ | _ <;> cases usage
  · rfl
  · simp [TypeExpr.rebuildM, TypeExpr.rebuildAllM, onUsage]

private theorem gives_usage_iff {spec : TypeExpr → TypeExpr → Instantiating TypeExpr}
    {u base element v : TypeExpr} (usage : u.usage? = some (base, element)) :
    Gives (u.rebuildM (onUsage spec)) s v s' ↔ ∃ base' element' s₁,
      Gives ([base, element].mapM (TypeExpr.rebuildM (onUsage spec))) s [base', element'] s₁ ∧
        Gives (spec base' element') s₁ v s' := by
  rw [TypeExpr.rebuildM_usage usage]
  simp only [List.mapM_cons, List.mapM_nil, gives_bind_iff, gives_pure_iff]
  constructor
  · rintro ⟨b, s₁, hb, e, s₂, he, last⟩
    exact ⟨b, e, s₂,
      ⟨b, s₁, hb, [e], s₂, ⟨e, s₂, he, [], s₂, ⟨rfl, rfl⟩, rfl, rfl⟩, rfl, rfl⟩, last⟩
  · rintro ⟨b, e, s₂, ⟨b, s₁, hb, _, _, ⟨e, _, he, _, _, ⟨rfl, rfl⟩, rfl, rfl⟩, same, rfl⟩, last⟩
    cases same
    exact ⟨b, s₁, hb, e, _, he, last⟩

private theorem gives_makeInstance_iff {spec : TypeExpr → TypeExpr → Instantiating TypeExpr}
    {c : Class} {name : String} {element : TypeExpr} {id : ClassId} :
    Gives (makeInstance spec c name element) s id s' ↔ ∃ p types s₂, c.template = [p] ∧
      Gives ((Template.apply c name (Template.only p element)).types.mapM
        (TypeExpr.rebuildM (onUsage spec))) s types s₂ ∧
      s₂.addInstance ((Template.apply c name (Template.only p element)).refill types) =
        (id, s') := by
  simp only [makeInstance, gives_bind_iff, gives_lift_iff, Class.rebuildM_eq_refill,
    gives_map_iff, gives_modifyGet_iff]
  constructor
  · rintro ⟨mapping, _, ⟨bound, rfl⟩, _, s₂, ⟨types, walk, rfl⟩, stored⟩
    obtain ⟨p, template, rfl⟩ := bind_single bound
    exact ⟨p, types, s₂, template, walk, stored⟩
  · rintro ⟨p, types, s₂, template, walk, stored⟩
    refine ⟨_, s, ⟨?_, rfl⟩, _, s₂, ⟨types, walk, rfl⟩, stored⟩
    rw [template]
    rfl

section Text

variable {base element : TypeExpr} {name : String}
  (text : (TypeExpr.container base element).canonical = .ok name)
include text

theorem run_specialize_of_provides (provided : s.Provides table name) :
    (specialize table active base element).run.run s =
      (.ok (.ref ⟨name, s.target? name⟩), s) := by
  rw [specialize_eq, text, exceptT_run_bind, exceptT_run_lift]
  dsimp only
  rw [exceptT_run_bind, exceptT_run_get, Instantiation.target?]
  dsimp only
  cases found : s.cache.find? name with
  | some made => rfl
  | none =>
    rcases provided with before | ⟨id, target⟩
    · rw [if_pos before]
      rfl
    · rw [Instantiation.target?, found] at target
      cases target

/-- For any other usage an instance is made, if there is a template. -/
theorem run_specialize_of_absent (absent : ¬ s.Provides table name) :
    (specialize table active base element).run.run s = (do
      let template ← templateOf table active base name
      let id ← makeInstance (specialize table (⟨template.decl.name, name⟩ :: active)) template.decl
        name element
      return .linked name id : Instantiating TypeExpr).run.run s := by
  have fresh : ¬ isMadeBefore table name = true := fun before => absent (.inl before)
  rw [specialize_eq, text, exceptT_run_bind, exceptT_run_lift]
  dsimp only
  rw [exceptT_run_bind, exceptT_run_get]
  dsimp only
  cases found : s.cache.find? name with
  | some made => exact absurd (.inr ⟨made.id, by rw [Instantiation.target?, found]; rfl⟩) absent
  | none =>
    dsimp only
    rw [if_neg fresh]

end Text

private theorem gives_specialize_iff {base element v : TypeExpr} :
    Gives (specialize table active base element) s v s' ↔ ∃ name,
      (TypeExpr.container base element).canonical = .ok name ∧
      (s.Provides table name ∧ v = .ref ⟨name, s.target? name⟩ ∧ s = s' ∨
        ¬ s.Provides table name ∧ ∃ template id,
          templateOf table active base name = .ok template ∧
          Gives (makeInstance (specialize table (⟨template.decl.name, name⟩ :: active))
            template.decl name element) s id s' ∧ v = .linked name id) := by
  cases text : (TypeExpr.container base element).canonical with
  | error fault =>
    rw [Gives, specialize_eq, text, exceptT_run_bind, exceptT_run_lift]
    constructor
    · exact fun h => nomatch h
    · exact fun ⟨_, same, _⟩ => nomatch same
  | ok name =>
    simp only [Except.ok.injEq, exists_eq_left']
    by_cases provided : s.Provides table name
    · rw [Gives, run_specialize_of_provides text provided, Prod.mk.injEq, Except.ok.injEq]
      simp only [provided, true_and, not_true, false_and, or_false, @eq_comm _ v]
    · rw [Gives, run_specialize_of_absent text provided, ← Gives]
      simp only [provided, false_and, not_false_eq_true, true_and, false_or, gives_bind_iff,
        gives_lift_iff, gives_pure_iff]
      constructor
      · rintro ⟨template, _, ⟨chosen, rfl⟩, id, _, made, rfl, rfl⟩
        exact ⟨template, id, chosen, made, rfl⟩
      · rintro ⟨template, id, chosen, made, rfl⟩
        exact ⟨template, s, ⟨chosen, rfl⟩, id, s', made, rfl, rfl⟩

theorem Walks.gives {ts us : List TypeExpr} (h : Walks table active s ts us s') :
    Gives (specializeAll table active ts) s us s' := by
  induction h with
  | nil => exact gives_pure_iff.2 ⟨rfl, rfl⟩
  | named rest ih =>
    exact gives_mapM_cons_iff.2 ⟨_, _, _, gives_pure_iff.2 ⟨rfl, rfl⟩, ih, rfl⟩
  | ref rest ih =>
    exact gives_mapM_cons_iff.2 ⟨_, _, _, gives_pure_iff.2 ⟨rfl, rfl⟩, ih, rfl⟩
  | union inside rest inside_ih rest_ih =>
    refine gives_mapM_cons_iff.2 ⟨_, _, _, ?_, rest_ih, rfl⟩
    rw [TypeExpr.rebuildM, TypeExpr.rebuildAllM_eq_mapM]
    exact gives_bind_iff.2 ⟨_, _, inside_ih, gives_pure_iff.2 ⟨rfl, rfl⟩⟩
  | inter inside rest inside_ih rest_ih =>
    refine gives_mapM_cons_iff.2 ⟨_, _, _, ?_, rest_ih, rfl⟩
    rw [TypeExpr.rebuildM, TypeExpr.rebuildAllM_eq_mapM]
    exact gives_bind_iff.2 ⟨_, _, inside_ih, gives_pure_iff.2 ⟨rfl, rfl⟩⟩
  | found usage parts text provided rest parts_ih rest_ih =>
    refine gives_mapM_cons_iff.2 ⟨_, _, _, ?_, rest_ih, rfl⟩
    refine (gives_usage_iff usage).2 ⟨_, _, _, parts_ih, ?_⟩
    exact gives_specialize_iff.2 ⟨_, text, .inl ⟨provided, rfl, rfl⟩⟩
  | made usage parts text absent chosen param body stored rest parts_ih body_ih rest_ih =>
    refine gives_mapM_cons_iff.2 ⟨_, _, _, ?_, rest_ih, rfl⟩
    refine (gives_usage_iff usage).2 ⟨_, _, _, parts_ih, ?_⟩
    have made := gives_makeInstance_iff.2 ⟨_, _, _, param, body_ih, stored⟩
    exact gives_specialize_iff.2 ⟨_, text, .inr ⟨absent, _, _, chosen, made, rfl⟩⟩

section Derive

variable {us : List TypeExpr}

private def Derives (table : τ) (active : List Active) (t : TypeExpr) : Prop :=
  ∀ {s s₁ s' : Instantiation} {u : TypeExpr} {ts us : List TypeExpr},
    Gives (t.rebuildM (onUsage (specialize table active))) s u s₁ →
      Walks table active s₁ ts us s' → Walks table active s (t :: ts) (u :: us) s'

private theorem walks_all {ts : List TypeExpr} (h : ∀ t ∈ ts, Derives table active t)
    (run : Gives (specializeAll table active ts) s us s') : Walks table active s ts us s' := by
  induction ts generalizing s us with
  | nil =>
    obtain ⟨rfl, rfl⟩ := gives_pure_iff.1 run
    exact .nil
  | cons t ts ih =>
    obtain ⟨u, s₁, us, head, tail, rfl⟩ := gives_mapM_cons_iff.1 run
    exact h t List.mem_cons_self head (ih (fun v hv => h v (List.mem_cons_of_mem t hv)) tail)

private theorem derives_usage {u base element : TypeExpr} (usage : u.usage? = some (base, element))
    (hb : Derives table active base) (he : Derives table active element)
    (inner : ∀ a : Active, Active.idleCount table (a :: active) < Active.idleCount table active →
      ∀ {s s' : Instantiation} {ts us : List TypeExpr},
        Gives (specializeAll table (a :: active) ts) s us s' →
          Walks table (a :: active) s ts us s') :
    Derives table active u := by
  intro s s₁ s' v ts us head rest
  obtain ⟨base', element', s₂, parts, last⟩ := (gives_usage_iff usage).1 head
  have parts : Walks table active s [base, element] [base', element'] s₂ := by
    refine walks_all ?_ parts
    simp only [List.mem_cons, List.not_mem_nil, or_false, forall_eq_or_imp, forall_eq]
    exact ⟨hb, he⟩
  obtain ⟨name, text, outcome⟩ := gives_specialize_iff.1 last
  rcases outcome with ⟨provided, rfl, rfl⟩ | ⟨absent, template, id, chosen, made, rfl⟩
  · exact .found usage parts text provided rest
  · obtain ⟨p, types, s₃, param, body, stored⟩ := gives_makeInstance_iff.1 made
    exact .made usage parts text absent chosen param
      (inner _ (templateOf_decreases chosen) body) stored rest

private theorem derives_type (t : TypeExpr)
    (inner : ∀ a : Active, Active.idleCount table (a :: active) < Active.idleCount table active →
      ∀ {s s' : Instantiation} {ts us : List TypeExpr},
        Gives (specializeAll table (a :: active) ts) s us s' →
          Walks table (a :: active) s ts us s') :
    Derives table active t := by
  induction t with
  | named name =>
    intro s s₁ s' u ts us head rest
    obtain ⟨rfl, rfl⟩ := gives_pure_iff.1 head
    exact .named rest
  | ref reference =>
    intro s s₁ s' u ts us head rest
    obtain ⟨rfl, rfl⟩ := gives_pure_iff.1 head
    exact .ref rest
  | container base element hb he => exact derives_usage rfl hb he inner
  | generic base args hb ha =>
    rcases args with _ | ⟨element, _ | ⟨second, others⟩⟩
    case cons.nil => exact derives_usage rfl hb (ha element List.mem_cons_self) inner
    -- a list of any other length is refused
    all_goals
      intro s s₁ s' u ts us head rest
      rw [TypeExpr.rebuildM, TypeExpr.rebuildAllM_eq_mapM] at head
      obtain ⟨b, s₂, -, head⟩ := gives_bind_iff.1 head
      obtain ⟨args', s₃, args, head⟩ := gives_bind_iff.1 head
    · obtain ⟨rfl, rfl⟩ := gives_pure_iff.1 args
      obtain ⟨usage, s₄, -, refused⟩ := gives_bind_iff.1 head
      exact absurd refused not_gives_throw
    · obtain ⟨_, _, _, _, tail, rfl⟩ := gives_mapM_cons_iff.1 args
      obtain ⟨_, _, _, _, _, rfl⟩ := gives_mapM_cons_iff.1 tail
      obtain ⟨usage, s₄, -, refused⟩ := gives_bind_iff.1 head
      exact absurd refused not_gives_throw
  | union members hm =>
    intro s s₁ s' u ts us head rest
    rw [TypeExpr.rebuildM, TypeExpr.rebuildAllM_eq_mapM] at head
    obtain ⟨members', s₂, inside, last⟩ := gives_bind_iff.1 head
    obtain ⟨rfl, rfl⟩ := gives_pure_iff.1 last
    exact .union (walks_all hm inside) rest
  | inter members hm =>
    intro s s₁ s' u ts us head rest
    rw [TypeExpr.rebuildM, TypeExpr.rebuildAllM_eq_mapM] at head
    obtain ⟨members', s₂, inside, last⟩ := gives_bind_iff.1 head
    obtain ⟨rfl, rfl⟩ := gives_pure_iff.1 last
    exact .inter (walks_all hm inside) rest

private theorem walks_of_gives {active : List Active} {s s' : Instantiation}
    {ts us : List TypeExpr} (run : Gives (specializeAll table active ts) s us s') :
    Walks table active s ts us s' := by
  apply walks_all _ run
  intro t _
  apply derives_type t
  intro a _ s s' ts us run
  exact walks_of_gives run
termination_by Active.idleCount table active

/-- A run succeeds if and only if there is a derivation for it. -/
theorem walks_iff_gives {ts : List TypeExpr} :
    Walks table active s ts us s' ↔ Gives (specializeAll table active ts) s us s' :=
  ⟨Walks.gives, walks_of_gives⟩

theorem walks_single {t t' : TypeExpr}
    (h : Gives (t.rebuildM (onUsage (specialize table active))) s t' s') :
    Walks table active s [t] [t'] s' :=
  walks_iff_gives.2 (gives_mapM_cons_iff.2 ⟨t', s', [], h, gives_pure_iff.2 ⟨rfl, rfl⟩, rfl⟩)

end Derive
end Runs

section Modules

variable {τ : Type} [ClassTable τ] (table : τ)

/-- The walk over a list of classes, each of which becomes a new object. -/
inductive WalksClasses : Instantiation → List Class → List ClassId → Instantiation → Prop
  | nil {s : Instantiation} : WalksClasses s [] [] s
  | cons {s s₁ s₂ s' : Instantiation} {c : Class} {cs : List Class} {us : List TypeExpr}
      {id : ClassId} {ids : List ClassId} (walk : Walks table [] s c.types us s₁)
      (added : s₁.addObject (c.refill us) = (id, s₂)) (rest : WalksClasses s₂ cs ids s') :
      WalksClasses s (c :: cs) (id :: ids) s'

/-- The walk over a module: over the types of its constants, over those of its functions, and then
over its classes. -/
def WalksModule (s : Instantiation) (x : Module Class) (y : Module ClassId)
    (s' : Instantiation) : Prop :=
  ∃ us vs s₁ s₂, Walks table [] s (x.constants.flatMap Constant.types) us s₁ ∧
    Walks table [] s₁ (x.functions.flatMap Function.types) vs s₂ ∧
    y.constants = refillAll Constant.types Constant.refill x.constants us ∧
    y.functions = refillAll Function.types Function.refill x.functions vs ∧
    WalksClasses table s₂ x.classes y.classes s'

variable {table} {s s' : Instantiation}

private theorem gives_declarations_iff {α : Type} {types : α → List TypeExpr}
    {refill : α → List TypeExpr → α} {rebuild : α → Instantiating α}
    (h : ∀ a, rebuild a = refill a <$> specializeAll table [] (types a)) {as bs : List α} :
    Gives (as.mapM rebuild) s bs s' ↔ ∃ us, Walks table [] s (as.flatMap types) us s' ∧
      bs = refillAll types refill as us := by
  rw [mapM_eq_refillAll as fun a _ => h a, gives_map_iff]
  simp only [walks_iff_gives, eq_comm]

private theorem gives_class_iff {c : Class} {id : ClassId} :
    Gives (c.instantiate table) s id s' ↔
      ∃ us s₁, Walks table [] s c.types us s₁ ∧ s₁.addObject (c.refill us) = (id, s') := by
  have rebuilt := c.rebuildM_eq_refill (onUsage (specialize table []))
  simp only [Class.instantiate, usageRebuilder, rebuilt, gives_bind_iff, gives_map_iff,
    gives_modifyGet_iff, walks_iff_gives]
  constructor
  · rintro ⟨_, s₁, ⟨us, walk, rfl⟩, added⟩
    exact ⟨us, s₁, walk, added⟩
  · rintro ⟨us, s₁, walk, added⟩
    exact ⟨_, s₁, ⟨us, walk, rfl⟩, added⟩

private theorem gives_classes_iff {cs : List Class} {ids : List ClassId} :
    Gives (cs.mapM (Class.instantiate table)) s ids s' ↔ WalksClasses table s cs ids s' := by
  induction cs generalizing s ids with
  | nil =>
    rw [List.mapM_nil, gives_pure_iff]
    constructor
    · rintro ⟨rfl, rfl⟩
      exact .nil
    · rintro ⟨⟩
      exact ⟨rfl, rfl⟩
  | cons c cs ih =>
    simp only [gives_mapM_cons_iff, gives_class_iff, ih]
    constructor
    · rintro ⟨id, s₁, ids, ⟨us, s₂, walk, added⟩, rest, rfl⟩
      exact .cons walk added rest
    · rintro (_ | ⟨walk, added, rest⟩)
      exact ⟨_, _, _, ⟨_, _, walk, added⟩, rest, rfl⟩

theorem walksModule_iff_gives {x : Module Class} {y : Module ClassId} :
    WalksModule table s x y s' ↔ Gives (x.instantiateParts table) s y s' := by
  rw [WalksModule, Module.instantiateParts, Module.traverseM]
  simp only [gives_bind_iff, gives_pure_iff, gives_classes_iff,
    gives_declarations_iff (Constant.rebuildM_eq_refill _),
    gives_declarations_iff (Function.rebuildM_eq_refill _), usageRebuilder]
  constructor
  · rintro ⟨us, vs, s₁, s₂, constants, functions, hcs, hfs, classes⟩
    exact ⟨_, s₁, ⟨us, constants, hcs⟩, _, s₂, ⟨vs, functions, hfs⟩, _, s', classes, rfl, rfl⟩
  · rintro ⟨_, s₁, ⟨us, constants, hcs⟩, _, s₂, ⟨vs, functions, hfs⟩, _, _, classes, rfl, rfl⟩
    exact ⟨us, vs, s₁, s₂, constants, functions, hcs, hfs, classes⟩

/-- What every walk keeps holds after the walk over a module, and what every walk makes true of the
types that it goes over is true of all types in the module, if it is not lost by making more. -/
theorem WalksModule.induct {x : Module Class} {y : Module ClassId} {P : Instantiation → Prop}
    {Q : Instantiation → TypeExpr → Prop}
    (stable : ∀ {s s' : Instantiation} {t : TypeExpr}, s.Extends s' → Q s t → Q s' t)
    (walk : ∀ {s s' : Instantiation} {ts us : List TypeExpr}, P s → (∀ t ∈ ts, t ∈ x.types) →
      Walks table [] s ts us s' → s.Extends s' ∧ P s' ∧ ∀ t ∈ ts, Q s' t)
    (add : ∀ {s : Instantiation} (c : Class), P s → P (s.addObject c).2)
    (h : WalksModule table s x y s') (start : P s) : P s' ∧ ∀ t ∈ x.types, Q s' t := by
  have classes_walk : ∀ {s s' : Instantiation} {cs : List Class} {ids : List ClassId}, P s →
      (∀ t ∈ cs.flatMap Class.types, t ∈ x.types) → WalksClasses table s cs ids s' →
      s.Extends s' ∧ P s' ∧ ∀ t ∈ cs.flatMap Class.types, Q s' t := by
    intro s s' cs ids start inside h
    induction h with
    | nil => exact ⟨.refl _, start, fun _ ht => absurd ht List.not_mem_nil⟩
    | @cons s s₁ s₂ s' c cs us id ids first added rest ih =>
      simp only [List.flatMap_cons, List.mem_append, or_imp, forall_and] at inside ⊢
      obtain ⟨grown₁, kept, head⟩ := walk start inside.1 first
      have grown₂ := Instantiation.Extends.addObject s₁ (c.refill us)
      have kept := add (c.refill us) kept
      rw [added] at kept grown₂
      obtain ⟨grown₃, kept, tail⟩ := ih kept inside.2
      have grown := grown₂.trans grown₃
      exact ⟨grown₁.trans grown, kept, fun t ht => stable grown (head t ht), tail⟩
  obtain ⟨us, vs, s₁, s₂, constants, functions, -, -, classes⟩ := h
  have split : ∀ t, t ∈ x.types ↔ (t ∈ x.constants.flatMap Constant.types ∨
      t ∈ x.functions.flatMap Function.types) ∨ t ∈ x.classes.flatMap Class.types := by
    intro t
    rw [Module.types, List.mem_append, List.mem_append]
  obtain ⟨-, kept, of_constants⟩ := walk start (fun t ht => (split t).2 (.inl (.inl ht))) constants
  obtain ⟨grown₂, kept, of_functions⟩ :=
    walk kept (fun t ht => (split t).2 (.inl (.inr ht))) functions
  obtain ⟨grown₃, kept, of_classes⟩ := classes_walk kept (fun t ht => (split t).2 (.inr ht)) classes
  refine ⟨kept, fun t ht => ?_⟩
  rcases (split t).1 ht with (ht | ht) | ht
  · exact stable (grown₂.trans grown₃) (of_constants t ht)
  · exact stable grown₃ (of_functions t ht)
  · exact of_classes t ht

end Modules

section Keeps

variable {τ : Type} [ClassTable τ] {table : τ} {active : List Active} {allowed : String → Prop}
  {first : ClassId} {s s' : Instantiation} {ts us : List TypeExpr}

theorem Walks.keeps (h : Walks table active s ts us s') (inScope : NamesScoped table allowed)
    (names : ∀ t ∈ ts, t.NamesIn allowed) (sound : s.Sound table allowed first) :
    s.Extends s' ∧ s'.Sound table allowed first ∧ (∀ t ∈ ts, s'.Covers table t) ∧
      us = ts.map s'.rewrite := by
  have kept := keeps_types (specializes_specialize inScope active) ts names sound
  have run : (specializeAll table active ts).run.run s = (.ok us, s') := h.gives
  obtain ⟨grown, kept, value⟩ := kept
  rw [run] at grown kept value
  exact ⟨grown, kept, value us rfl⟩

theorem Walks.keeps_any (h : Walks table active s ts us s')
    (sound : s.Sound table (fun _ => True) first) :
    s.Extends s' ∧ s'.Sound table (fun _ => True) first ∧ (∀ t ∈ ts, s'.Covers table t) ∧
      us = ts.map s'.rewrite :=
  h.keeps (any_inScope table) (fun _ _ _ _ => trivial) sound

theorem WalksModule.keeps {x : Module Class} {y : Module ClassId}
    (h : WalksModule table s x y s') (inScope : NamesScoped table allowed)
    (names : ∀ t ∈ x.types, t.NamesIn allowed) (sound : s.Sound table allowed first) :
    s'.Sound table allowed first ∧ x.Rewritten table first s' y := by
  have run : (x.instantiateParts table).run.run s = (.ok y, s') := walksModule_iff_gives.1 h
  obtain ⟨-, kept, value⟩ := Module.keeps_instantiateParts inScope x names sound
  rw [run] at kept value
  exact ⟨kept, value y rfl⟩

/-- Behind an instantiated module there is a walk over the concrete part of the module before. -/
theorem walk_of_instantiate {s s' : Store} {x y : Module ClassId}
    (h : (instantiate x).run.run s = (.ok y, s')) : ∃ z u,
      WalksModule (s.indexOf x) { store := s } (s.load x).concrete z u ∧
        u.store.LinksTo (u.join z) s' y := by
  rw [run_instantiate] at h
  rcases walk : s.instantiateParts x with ⟨fault | z, u⟩ <;> rw [walk] at h
  · cases h
  · exact ⟨z, u, walksModule_iff_gives.2 walk, linksTo_of_linkAll h⟩

end Keeps
end InterfaceTree
