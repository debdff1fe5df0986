import Mathlib.Logic.Relation
import InterfaceTree.Proofs.Covered
import InterfaceTree.Proofs.Reading

/-!
# Templates that are ready

A usage can be specialized when its template is known and has one parameter, and when the templates
that are used in its body can be used in turn.
-/
namespace InterfaceTree

namespace TypeExpr

/-- The names of the templates that are used in an expression. -/
def uses (t : TypeExpr) : List String := t.subterms.filterMap fun u => u.base? >>= name?

/-- The base of a usage is a name without brackets that is none of the parameters. -/
def PlainNode (params : List String) (u : TypeExpr) : Prop :=
  ∀ base ∈ u.base?, ∃ name ∈ base.name?, Name.Simple name ∧ name ∉ params

def Plain (params : List String) (t : TypeExpr) : Prop := t.Throughout (PlainNode params)

instance (params : List String) (t : TypeExpr) : Decidable (t.Plain params) :=
  inferInstanceAs (Decidable (∀ u ∈ t.subterms, ∀ base ∈ u.base?, ∃ name ∈ base.name?,
    Name.Simple name ∧ name ∉ params))

/-- A usage has one argument, and the names in it that are no parameters can be written. -/
def SensibleNode (params : List String) (u : TypeExpr) : Prop :=
  u.base?.isSome = true → u.usage?.isSome = true ∧
    ∀ v ∈ u.leaves, ∀ name, v.name? = some name → Name.Writable name ∨ name ∈ params

def Sensible (params : List String) (t : TypeExpr) : Prop := t.Throughout (SensibleNode params)

section Uses

variable {base element : TypeExpr} {ts : List TypeExpr} {name : String}

theorem mem_uses {t : TypeExpr} :
    name ∈ t.uses ↔ ∃ u ∈ t.subterms, ∃ base, u.base? = some base ∧ base.name? = some name := by
  simp [uses, Option.bind_eq_some_iff]

theorem uses_union : (union ts).uses = ts.flatMap uses := by
  rw [uses, subterms, subtermsAll_eq_flatMap, List.filterMap_append, List.filterMap_flatMap]
  exact List.append_nil _

theorem uses_inter : (inter ts).uses = ts.flatMap uses := by
  rw [uses, subterms, subtermsAll_eq_flatMap, List.filterMap_append, List.filterMap_flatMap]
  exact List.append_nil _

end Uses

theorem base?_of_name? {t : TypeExpr} {name : String} (h : t.name? = some name) :
    t.base? = none := by
  cases t <;> first | rfl | cases h

section Put

variable {name : String} {element t : TypeExpr}

private theorem base?_put {w : TypeExpr} (inner : w.isLeaf = false)
    (plain : w.PlainNode [name]) : (w.put name element).base? = w.base? := by
  cases hb : w.base? with
  | none => cases w <;> first | exact absurd hb (Option.some_ne_none _) | rfl | cases inner
  | some base =>
    obtain ⟨other, named, -, differ⟩ := plain base hb
    exact base?_put_of_ne hb named (by simpa using differ)

theorem Plain.put (h : t.Plain [name]) (free : element.UsageFree) :
    (t.put name element).Plain [] := by
  intro v hv
  rcases mem_subterms_put free hv with none | ⟨w, hw, inner, rfl⟩
  · rw [PlainNode, none]
    exact fun _ hb => nomatch hb
  · have plain := h w hw
    rw [PlainNode, base?_put inner plain]
    intro base hb
    obtain ⟨other, named, simple, -⟩ := plain base hb
    exact ⟨other, named, simple, List.not_mem_nil⟩

theorem mem_uses_put (h : t.Plain [name]) (free : element.UsageFree) {other : String} :
    other ∈ (t.put name element).uses ↔ other ∈ t.uses := by
  rw [mem_uses, mem_uses]
  constructor
  · rintro ⟨v, hv, base, hb, named⟩
    rcases mem_subterms_put free hv with none | ⟨w, hw, inner, rfl⟩
    · rw [none] at hb
      cases hb
    · rw [base?_put inner (h w hw)] at hb
      exact ⟨w, hw, base, hb, named⟩
  · rintro ⟨w, hw, base, hb, named⟩
    have inner : w.isLeaf = false := by
      cases w <;> first | rfl | cases hb
    refine ⟨w.put name element, mapLeaves_mem_subterms hw, base, ?_, named⟩
    rw [base?_put inner (h w hw), hb]

theorem sensible_put (h : t.Plain [name]) (free : element.UsageFree) (writable : element.Writable) :
    (t.put name element).Sensible [] ↔ t.Sensible [name] := by
  have names {w : TypeExpr} : (∀ v ∈ (w.put name element).leaves, ∀ other, v.name? = some other →
        Name.Writable other ∨ other ∈ ([] : List String)) ↔
      ∀ v ∈ w.leaves, ∀ other, v.name? = some other →
        Name.Writable other ∨ other ∈ [name] := by
    have whole := @writable_mapLeaves (fun u => if u.name? = some name then element else u) w
    simp only [List.not_mem_nil, or_false, List.mem_singleton]
    refine whole.trans (forall₂_congr fun v hv => ?_)
    have leaf := isLeaf_of_mem_leaves hv
    have single := leaves_of_isLeaf leaf
    obtain ⟨own, named⟩ := Option.isSome_iff_exists.1 leaf
    by_cases same : own = name
    · simp [named, same, writable]
    · simp [named, same, Writable, single]
  constructor
  · intro sensible w hw used
    have inner : w.isLeaf = false := by
      cases w <;> first | rfl | cases used
    have image := sensible _ (mapLeaves_mem_subterms hw)
    rw [SensibleNode, ← put, base?_put inner (h w hw), usage?_put inner, names] at image
    exact image used
  · intro sensible v hv used
    rcases mem_subterms_put free hv with none | ⟨w, hw, inner, rfl⟩
    · rw [none] at used
      cases used
    · rw [base?_put inner (h w hw)] at used
      rw [usage?_put inner, names]
      exact sensible w hw used

end Put
end TypeExpr

/-- Where no way is endless, nothing that is reached leads back to itself. -/
theorem not_transGen_of_acc {α : Type} {R : α → α → Prop} {a b : α}
    (h : Acc (fun b a => R a b) a) (path : Relation.ReflTransGen R a b) :
    ¬ Relation.TransGen R b b := by
  induction h with
  | intro a _ ih =>
    intro cycle
    rcases path.cases_head with rfl | ⟨c, first, rest⟩
    · obtain ⟨c, first, rest⟩ := Relation.TransGen.head'_iff.1 cycle
      exact ih c first rest cycle
    · exact ih c first rest cycle

section Ready

variable {τ : Type} [ClassTable τ] (table : τ)

/-- A known template with one parameter, where the usages in the body are sensible and of templates
that are ready. -/
inductive Ready : String → Prop
  | template {o : ClassObject} {p : TemplateItem}
      (known : ClassTable.find? table o.decl.name = some o) (param : o.decl.template = [p])
      (sensible : ∀ t ∈ o.decl.bodyTypes, t.Sensible [p.name])
      (ready : ∀ t ∈ o.decl.bodyTypes, ∀ name ∈ t.uses, Ready name) : Ready o.decl.name

/-- The first template has a usage of the second in its body. -/
def Needs (name other : String) : Prop :=
  ∃ o, ClassTable.find? table name = some o ∧ ∃ t ∈ o.decl.bodyTypes, other ∈ t.uses

variable {table} in
theorem Ready.acc {name : String} (h : Ready table name) :
    Acc (fun other name => Needs table name other) name := by
  induction h with
  | @template o p known param sensible ready ih =>
    refine Acc.intro _ ?_
    rintro other ⟨q, found, t, ht, used⟩
    obtain rfl : o = q := Option.some.inj (known.symm.trans found)
    exact ih t ht other used

/-- The usages in an expression are sensible and of templates that are ready. -/
def TypeExpr.Accepts (t : TypeExpr) : Prop := t.Sensible [] ∧ ∀ name ∈ t.uses, Ready table name

/-- Classes have names without brackets, and the bodies of templates have plain bases. -/
structure PlainTable : Prop where
  simple : ∀ name o, ClassTable.find? table name = some o → Name.Simple name
  plain : ∀ name o p, ClassTable.find? table name = some o → o.decl.template = [p] →
    ∀ t ∈ o.decl.bodyTypes, t.Plain [p.name]

/-- Every instance is one of a template that is ready. -/
def Instantiation.AllReady (s : Instantiation) : Prop :=
  ∀ i ∈ s.cache.toList, ∃ base element, i.name = instanceName base element ∧ Ready table base

end Ready

section Accepts

variable {τ : Type} [ClassTable τ] {table : τ} {base element : TypeExpr} {ts : List TypeExpr}
  {name : String}

namespace TypeExpr

theorem accepts_of_name? {t : TypeExpr} (h : t.name? = some name) : t.Accepts table := by
  refine ⟨fun u hu used => ?_, fun other hother => ?_⟩
  · rw [subterms_of_name? h, List.mem_singleton] at hu
    rw [hu, base?_of_name? h] at used
    cases used
  · obtain ⟨u, hu, base, hb, -⟩ := mem_uses.1 hother
    rw [subterms_of_name? h, List.mem_singleton] at hu
    rw [hu, base?_of_name? h] at hb
    cases hb

private theorem accepts_members {t : TypeExpr}
    (sensible : t.Sensible [] ↔ ∀ u ∈ ts, u.Sensible [])
    (uses : t.uses = ts.flatMap TypeExpr.uses) : t.Accepts table ↔ ∀ u ∈ ts, u.Accepts table := by
  simp only [Accepts, sensible, uses, List.mem_flatMap]
  constructor
  · rintro ⟨sensible, ready⟩ u hu
    exact ⟨sensible u hu, fun name hname => ready name ⟨u, hu, hname⟩⟩
  · intro h
    exact ⟨fun u hu => (h u hu).1, fun name ⟨u, hu, hname⟩ => (h u hu).2 name hname⟩

theorem accepts_union : (union ts).Accepts table ↔ ∀ t ∈ ts, t.Accepts table := by
  refine accepts_members (throughout_union.trans (and_iff_left ?_)) uses_union
  exact fun used => nomatch used

theorem accepts_inter : (inter ts).Accepts table ↔ ∀ t ∈ ts, t.Accepts table := by
  refine accepts_members (throughout_inter.trans (and_iff_left ?_)) uses_inter
  exact fun used => nomatch used

theorem accepts_usage {u : TypeExpr} (usage : u.usage? = some (base, element))
    (named : base.name? = some name) :
    u.Accepts table ↔ u.Writable ∧ Ready table name ∧ element.Accepts table := by
  have of_base : base.Accepts table := accepts_of_name? named
  have node : SensibleNode [] u ↔ u.Writable := by
    simp [SensibleNode, base?_of_usage? usage, usage, Writable]
  have used (other : String) : other ∈ u.uses ↔ other = name ∨ other ∈ element.uses := by
    rw [uses, subterms_of_usage? usage, List.filterMap_append, List.filterMap_append,
      subterms_of_name? named]
    simp [base?_of_name? named, base?_of_usage? usage, named, uses, or_comm, eq_comm]
  rw [Accepts, Sensible, throughout_usage usage, node]
  simp only [used, or_imp, forall_and, forall_eq]
  constructor
  · rintro ⟨⟨⟨-, sensible⟩, writable⟩, ready, inside⟩
    exact ⟨writable, ready, sensible, inside⟩
  · rintro ⟨writable, ready, sensible, inside⟩
    exact ⟨⟨⟨of_base.1, sensible⟩, writable⟩, ready, inside⟩

theorem Plain.usage {u : TypeExpr} (usage : u.usage? = some (base, element)) (h : u.Plain []) :
    (∃ name, base.name? = some name ∧ Name.Simple name) ∧
      base.Plain [] ∧ element.Plain [] := by
  obtain ⟨inside, node⟩ := (throughout_usage usage).1 h
  obtain ⟨name, named, simple, -⟩ := node base (base?_of_usage? usage)
  exact ⟨⟨name, named, simple⟩, inside⟩

end TypeExpr

theorem Instantiation.name?_rewrite (s : Instantiation) (named : base.name? = some name) :
    (s.rewrite base).name? = some name := by
  cases base <;> first | exact named | cases named

end Accepts

section Walks

variable {τ : Type} [ClassTable τ] {table : τ} {active : List Active} {first : ClassId}
  {s s' : Instantiation} {ts us : List TypeExpr}

private theorem parts_of_usage {s₁ : Instantiation} {u base element base' element' : TypeExpr}
    {name text : String} (usage : u.usage? = some (base, element))
    (named : base.name? = some name) (sound : s.Sound table (fun _ => True) first)
    (parts : Walks table active s [base, element] [base', element'] s₁)
    (canonical : (TypeExpr.container base' element').canonical = .ok text) :
    s₁.Sound table (fun _ => True) first ∧ s₁.Covers table element ∧
      base'.name? = some name ∧ element' = s₁.rewrite element ∧ element'.Writable ∧
        u.Writable ∧ text = instanceName name element'.text := by
  obtain ⟨-, sound₁, covers, rewritten⟩ := parts.keeps_any sound
  obtain ⟨rfl, rfl⟩ : base' = s₁.rewrite base ∧ element' = s₁.rewrite element := by
    simpa using rewritten
  have called := s₁.name?_rewrite named
  have same : u.canonical = .ok text := by
    rw [TypeExpr.canonical_of_usage? usage, ← canonical, TypeExpr.canonical_container,
      TypeExpr.canonical_container, Instantiation.canonical_rewrite (covers _ List.mem_cons_self),
      Instantiation.canonical_rewrite (covers _ (List.mem_cons_of_mem _ List.mem_cons_self))]
  obtain ⟨writable, text_eq⟩ := TypeExpr.canonical_eq_ok_iff.1 canonical
  rw [TypeExpr.text_container, TypeExpr.text_of_name? called] at text_eq
  exact ⟨sound₁, covers _ (List.mem_cons_of_mem _ List.mem_cons_self), called, rfl,
    (TypeExpr.writable_container.1 writable).2, (TypeExpr.canonical_eq_ok_iff.1 same).1,
    text_eq.symm⟩

private theorem ready_of_provides (plain : PlainTable table)
    (sound : s.Sound table (fun _ => True) first) (ready : s.AllReady table) {name text : String}
    (simple : Name.Simple name) (provided : s.Provides table (instanceName name text)) :
    Ready table name := by
  obtain ⟨id, target⟩ := provided.resolve_left (not_isMadeBefore plain.simple _ _)
  obtain ⟨i, hi, called, -⟩ := sound.mem_of_target? target
  obtain ⟨base, element, named, of_base⟩ := ready i hi
  have known : Name.Simple base := by
    cases of_base with
    | template known => exact plain.simple _ _ known
  obtain ⟨rfl, -⟩ := instanceName_inj simple known (called.symm.trans named)
  exact of_base

/-- What has been walked over is accepted, because every instance that was made or found is one of a
template that is ready. -/
theorem Walks.accepts (plain : PlainTable table) (h : Walks table active s ts us s')
    (sound : s.Sound table (fun _ => True) first) (bases : ∀ t ∈ ts, t.Plain [])
    (ready : s.AllReady table) : s'.AllReady table ∧ ∀ t ∈ ts, t.Accepts table := by
  induction h with
  | nil => exact ⟨ready, fun _ ht => absurd ht List.not_mem_nil⟩
  | named rest ih =>
    rw [List.forall_mem_cons] at bases ⊢
    obtain ⟨ready', accepts⟩ := ih sound bases.2 ready
    exact ⟨ready', TypeExpr.accepts_of_name? rfl, accepts⟩
  | ref rest ih =>
    rw [List.forall_mem_cons] at bases ⊢
    obtain ⟨ready', accepts⟩ := ih sound bases.2 ready
    exact ⟨ready', TypeExpr.accepts_of_name? rfl, accepts⟩
  | union inside rest inside_ih rest_ih =>
    rw [List.forall_mem_cons] at bases ⊢
    obtain ⟨-, sound₁, -, -⟩ := inside.keeps_any sound
    obtain ⟨ready₁, members⟩ := inside_ih sound (TypeExpr.throughout_union.1 bases.1).1 ready
    obtain ⟨ready', accepts⟩ := rest_ih sound₁ bases.2 ready₁
    exact ⟨ready', TypeExpr.accepts_union.2 members, accepts⟩
  | inter inside rest inside_ih rest_ih =>
    rw [List.forall_mem_cons] at bases ⊢
    obtain ⟨-, sound₁, -, -⟩ := inside.keeps_any sound
    obtain ⟨ready₁, members⟩ := inside_ih sound (TypeExpr.throughout_inter.1 bases.1).1 ready
    obtain ⟨ready', accepts⟩ := rest_ih sound₁ bases.2 ready₁
    exact ⟨ready', TypeExpr.accepts_inter.2 members, accepts⟩
  | found usage parts text provided rest parts_ih rest_ih =>
    rw [List.forall_mem_cons] at bases ⊢
    obtain ⟨⟨name, named, simple⟩, inside⟩ := bases.1.usage usage
    obtain ⟨sound₁, -, -, -, -, writable, called⟩ := parts_of_usage usage named sound parts text
    obtain ⟨ready₁, accepted⟩ := parts_ih sound (by simpa using inside) ready
    obtain ⟨ready', accepts⟩ := rest_ih sound₁ bases.2 ready₁
    rw [called] at provided
    have of_name := ready_of_provides plain sound₁ ready₁ simple provided
    have of_element := accepted _ (List.mem_cons_of_mem _ List.mem_cons_self)
    exact ⟨ready', (TypeExpr.accepts_usage usage named).2 ⟨writable, of_name, of_element⟩, accepts⟩
  | @made active s s₁ s₂ s₃ s' ts us types u base element base' element' text template p id
      usage parts canonical absent chosen param body stored rest parts_ih body_ih rest_ih =>
    rw [List.forall_mem_cons] at bases ⊢
    obtain ⟨-, sound₃, -, -⟩ :=
      (Walks.made usage parts canonical absent chosen param body stored .nil).keeps_any sound
    obtain ⟨⟨name, named, simple⟩, inside⟩ := bases.1.usage usage
    obtain ⟨sound₁, covered, called, rfl, writable', writable, text_eq⟩ :=
      parts_of_usage usage named sound parts canonical
    obtain ⟨ready₁, accepted⟩ := parts_ih sound (by simpa using inside) ready
    obtain ⟨same, known, -⟩ := templateOf_eq_ok_iff.1 chosen
    obtain rfl : name = template.decl.name := Option.some.inj (called.symm.trans same)
    have free := Instantiation.usageFree_rewrite covered
    rw [Template.apply_only] at body_ih stored
    rw [Class.types_mapTypes, List.forall_mem_map, List.forall_mem_map] at body_ih
    obtain ⟨ready₂, of_body⟩ := body_ih sound₁
      (fun t ht => (plain.plain _ _ p known param t ht).put free) ready₁
    -- the body that was walked over tells what the body of the template needs
    have of_name : Ready table template.decl.name := by
      refine .template known param (fun t ht => ?_) fun t ht other used => ?_
      · exact (TypeExpr.sensible_put (plain.plain _ _ p known param t ht) free writable').1
          (of_body t ht).1
      · exact (of_body t ht).2 other
          ((TypeExpr.mem_uses_put (plain.plain _ _ p known param t ht) free).2 used)
    have ready₃ : s₃.AllReady table := by
      obtain rfl := congrArg Prod.snd stored
      intro i hi
      rcases Instantiation.mem_addInstance hi with old | rfl
      · exact ready₂ i old
      · exact ⟨_, _, text_eq, of_name⟩
    obtain ⟨ready', accepts⟩ := rest_ih sound₃ bases.2 ready₃
    have of_element := accepted _ (List.mem_cons_of_mem _ List.mem_cons_self)
    exact ⟨ready', (TypeExpr.accepts_usage usage named).2 ⟨writable, of_name, of_element⟩, accepts⟩

end Walks

section Enters

variable {τ : Type} [ClassTable τ] (table : τ) (first : ClassId) (active : List Active)

/-- From every sound state there is a walk over the expression, with any walk after it. -/
def Walkable (t : TypeExpr) : Prop :=
  ∀ ⦃s : Instantiation⦄, s.Sound table (fun _ => True) first → ∃ u s₁,
    ∀ {ts us : List TypeExpr} {s' : Instantiation},
      Walks table active s₁ ts us s' → Walks table active s (t :: ts) (u :: us) s'

/-- From every sound state there is a walk over the body of the template. -/
def Enters (name : String) : Prop :=
  ∀ ⦃s : Instantiation⦄ ⦃element : TypeExpr⦄, s.Sound table (fun _ => True) first →
    element.UsageFree → element.Writable → ∃ o p types s',
      ClassTable.find? table o.decl.name = some o ∧ o.decl.name = name ∧
      Active.find? active name = none ∧ o.decl.template = [p] ∧
      Walks table (⟨name, instanceName name element.text⟩ :: active) s
        (Template.apply o.decl (instanceName name element.text) (Template.only p element)).types
        types s'

variable {table first active}

private theorem walks_of_walkable {ts : List TypeExpr}
    (walkable : ∀ t ∈ ts, Walkable table first active t) {s : Instantiation}
    (sound : s.Sound table (fun _ => True) first) : ∃ us s', Walks table active s ts us s' := by
  induction ts generalizing s with
  | nil => exact ⟨[], s, .nil⟩
  | cons t ts ih =>
    rw [List.forall_mem_cons] at walkable
    obtain ⟨u, s₁, head⟩ := walkable.1 sound
    obtain ⟨-, sound₁, -, -⟩ := (head .nil).keeps_any sound
    obtain ⟨us, s', tail⟩ := ih walkable.2 sound₁
    exact ⟨u :: us, s', head tail⟩

private theorem walkable_of_name? {t : TypeExpr} {name : String} (h : t.name? = some name) :
    Walkable table first active t := by
  intro s sound
  cases t with
  | named own => exact ⟨_, s, .named⟩
  | ref reference => exact ⟨_, s, .ref⟩
  | _ => cases h

private theorem walkable_usage {u base element : TypeExpr} {name : String}
    (usage : u.usage? = some (base, element)) (named : base.name? = some name)
    (writable : u.Writable) (inside : Walkable table first active element)
    (enters : Enters table first active name) : Walkable table first active u := by
  intro s sound
  have both : ∀ t ∈ [base, element], Walkable table first active t := by
    simp only [List.mem_cons, List.not_mem_nil, or_false, forall_eq_or_imp, forall_eq]
    exact ⟨walkable_of_name? named, inside⟩
  obtain ⟨us, s₁, parts⟩ := walks_of_walkable both sound
  obtain ⟨-, sound₁, covers, rfl⟩ := parts.keeps_any sound
  simp only [List.mem_cons, List.not_mem_nil, or_false, forall_eq_or_imp, forall_eq] at covers
  have canonical : (TypeExpr.container (s₁.rewrite base) (s₁.rewrite element)).canonical =
      .ok u.text := by
    rw [TypeExpr.canonical_container, Instantiation.canonical_rewrite covers.1,
      Instantiation.canonical_rewrite covers.2, ← TypeExpr.canonical_container,
      ← TypeExpr.canonical_of_usage? usage]
    exact TypeExpr.canonical_eq_ok_iff.2 ⟨writable, rfl⟩
  by_cases provided : s₁.Provides table u.text
  · exact ⟨_, s₁, .found usage parts canonical provided⟩
  · obtain ⟨-, -, called, -, element_writable, -, text⟩ :=
      parts_of_usage usage named sound parts canonical
    obtain ⟨o, p, types, s₂, known, rfl, idle, param, body⟩ :=
      enters sound₁ (Instantiation.usageFree_rewrite covers.2) element_writable
    rw [← text] at body
    exact ⟨_, _, .made usage parts canonical provided
      (templateOf_eq_ok_iff.2 ⟨called, known, idle⟩) param body rfl⟩

theorem walkable {t : TypeExpr} (plain : t.Plain []) (sensible : t.Sensible [])
    (enters : ∀ name ∈ t.uses, Enters table first active name) :
    Walkable table first active t := by
  have usage_case {u base element : TypeExpr} (usage : u.usage? = some (base, element))
      (plain : u.Plain []) (sensible : u.Sensible [])
      (enters : ∀ name ∈ u.uses, Enters table first active name)
      (inside : element.Plain [] → element.Sensible [] →
        (∀ name ∈ element.uses, Enters table first active name) →
        Walkable table first active element) : Walkable table first active u := by
    obtain ⟨⟨name, named, -⟩, -, of_element⟩ := plain.usage usage
    obtain ⟨⟨-, inner⟩, node⟩ := (TypeExpr.throughout_usage usage).1 sensible
    have here := TypeExpr.base?_of_usage? usage
    have writable : u.Writable := by
      obtain ⟨-, names⟩ := node (by rw [here]; rfl)
      exact fun v hv other hother => (names v hv other hother).resolve_right List.not_mem_nil
    refine walkable_usage usage named writable (inside of_element inner fun other hother => ?_) ?_
    · obtain ⟨v, hv, found⟩ := TypeExpr.mem_uses.1 hother
      refine enters other (TypeExpr.mem_uses.2 ⟨v, ?_, found⟩)
      rw [TypeExpr.subterms_of_usage? usage]
      exact List.mem_append_left _ (List.mem_append_right _ hv)
    · exact enters name (TypeExpr.mem_uses.2 ⟨u, u.mem_subterms_self, base, here, named⟩)
  induction t with
  | named name => exact walkable_of_name? rfl
  | ref reference => exact walkable_of_name? rfl
  | container base element hb he => exact usage_case rfl plain sensible enters he
  | generic base args hb ha =>
    rcases args with _ | ⟨element, _ | ⟨second, others⟩⟩
    case cons.nil => exact usage_case rfl plain sensible enters (ha element List.mem_cons_self)
    -- a list of any other length is not sensible
    all_goals
      obtain ⟨single, -⟩ := sensible _ (TypeExpr.mem_subterms_self _) rfl
      cases single
  | union members hm =>
    intro s sound
    rw [TypeExpr.uses_union] at enters
    have inside : ∀ t ∈ members, Walkable table first active t := fun t ht =>
      hm t ht ((TypeExpr.throughout_union.1 plain).1 t ht)
        ((TypeExpr.throughout_union.1 sensible).1 t ht)
        fun name hname => enters name (List.mem_flatMap.2 ⟨t, ht, hname⟩)
    obtain ⟨us, s₁, walk⟩ := walks_of_walkable inside sound
    exact ⟨_, s₁, .union walk⟩
  | inter members hm =>
    intro s sound
    rw [TypeExpr.uses_inter] at enters
    have inside : ∀ t ∈ members, Walkable table first active t := fun t ht =>
      hm t ht ((TypeExpr.throughout_inter.1 plain).1 t ht)
        ((TypeExpr.throughout_inter.1 sensible).1 t ht)
        fun name hname => enters name (List.mem_flatMap.2 ⟨t, ht, hname⟩)
    obtain ⟨us, s₁, walk⟩ := walks_of_walkable inside sound
    exact ⟨_, s₁, .inter walk⟩

theorem Active.find?_cons_of_ne {a : Active} {name : String} (h : a.template ≠ name) :
    Active.find? (a :: active) name = Active.find? active name :=
  List.find?_cons_of_neg (by simpa using h)

/-- A template that is ready can be entered when no template that it needs is under way. The ones
that it needs do not need it, so they can still be entered from its body. -/
theorem Ready.enters (plain : PlainTable table) {name : String} (h : Ready table name)
    (idle : ∀ other, Relation.ReflTransGen (Needs table) name other →
      Active.find? active other = none) : Enters table first active name := by
  induction h generalizing active with
  | @template o p known param sensible ready ih =>
    have self : Ready table o.decl.name := .template known param sensible ready
    intro s element sound free writable
    have inside : ∀ t ∈ (Template.apply o.decl (instanceName o.decl.name element.text)
        (Template.only p element)).types, Walkable table first
          (⟨o.decl.name, instanceName o.decl.name element.text⟩ :: active) t := by
      rw [Template.apply_only, Class.types_mapTypes, List.forall_mem_map]
      intro t ht
      have bases := plain.plain _ o p known param t ht
      refine walkable (bases.put free)
        ((TypeExpr.sensible_put bases free writable).2 (sensible t ht)) fun other used => ?_
      rw [TypeExpr.mem_uses_put bases free] at used
      have needs : Needs table o.decl.name other := ⟨o, known, t, ht, used⟩
      refine ih t ht other used fun further path => ?_
      -- a way back to this template would make it need itself
      have differ : o.decl.name ≠ further := by
        rintro rfl
        exact not_transGen_of_acc self.acc .refl (Relation.TransGen.head' needs path)
      rw [Active.find?_cons_of_ne differ]
      exact idle further (.head needs path)
    obtain ⟨types, s', walk⟩ := walks_of_walkable inside sound
    exact ⟨o, p, types, s', known, rfl, idle _ .refl, param, walk⟩

theorem walks_iff_accepts (plain : PlainTable table) {s : Instantiation} {ts : List TypeExpr}
    (sound : s.Sound table (fun _ => True) first) (ready : s.AllReady table)
    (bases : ∀ t ∈ ts, t.Plain []) :
    (∃ us s', Walks table [] s ts us s') ↔ ∀ t ∈ ts, t.Accepts table := by
  constructor
  · rintro ⟨us, s', walk⟩
    exact (walk.accepts plain sound bases ready).2
  · intro accepts
    refine walks_of_walkable (fun t ht => walkable (bases t ht) (accepts t ht).1 ?_) sound
    exact fun name used => ((accepts t ht).2 name used).enters plain fun _ _ => rfl

end Enters
end InterfaceTree
