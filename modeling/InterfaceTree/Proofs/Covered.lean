import InterfaceTree.Proofs.Origin

/-!
# Usages at any depth

The parts of a usage are walked over before the usage itself, so every usage in what was walked over
has an instance, however deep it is.
-/
namespace InterfaceTree

namespace TypeExpr

def base? : TypeExpr → Option TypeExpr
  | .container base _ => some base
  | .generic base _ => some base
  | _ => none

/-- The usages in an expression at any depth. -/
def allUsages (t : TypeExpr) : List TypeExpr := t.subterms.filter isUsage

theorem usages_subset_allUsages (t : TypeExpr) : t.usages ⊆ t.allUsages := by
  have all : ∀ ts : List TypeExpr, (∀ t ∈ ts, t.usages ⊆ t.allUsages) →
      usagesAll ts ⊆ (subtermsAll ts).filter isUsage := by
    intro ts hts u hu
    rw [usagesAll_eq_flatMap] at hu
    rw [subtermsAll_eq_flatMap, List.filter_flatMap]
    obtain ⟨t, ht, hu⟩ := List.mem_flatMap.1 hu
    exact List.mem_flatMap.2 ⟨t, ht, hts t ht hu⟩
  induction t with
  | named name => exact List.nil_subset _
  | ref reference => exact List.nil_subset _
  | container base element =>
    exact List.cons_subset.2
      ⟨List.mem_filter.2 ⟨mem_subterms_self _, rfl⟩, List.nil_subset _⟩
  | generic base args hb ha =>
    rcases args with _ | ⟨element, _ | ⟨second, others⟩⟩
    case cons.nil =>
      exact List.cons_subset.2
        ⟨List.mem_filter.2 ⟨mem_subterms_self _, rfl⟩, List.nil_subset _⟩
    all_goals
      rw [allUsages, subterms, List.filter_append, List.filter_append]
      refine List.subset_append_of_subset_left _ (List.append_subset.2 ⟨?_, ?_⟩)
      · exact List.subset_append_of_subset_left _ hb
      · exact List.subset_append_of_subset_right _ (all _ ha)
  | union members hm =>
    rw [allUsages, subterms, List.filter_append]
    exact List.subset_append_of_subset_left _ (all members hm)
  | inter members hm =>
    rw [allUsages, subterms, List.filter_append]
    exact List.subset_append_of_subset_left _ (all members hm)

def applies (t : TypeExpr) : List String := t.allUsages.filterMap fun u => u.base? >>= name?

theorem mem_applies {t : TypeExpr} {name : String} : name ∈ t.applies ↔
    ∃ u ∈ t.allUsages, ∃ base, u.base? = some base ∧ base.name? = some name := by
  simp [applies, Option.bind_eq_some_iff]

theorem applies_subset {t u : TypeExpr} (hu : u ∈ t.subterms) : u.applies ⊆ t.applies := by
  intro name hname
  obtain ⟨v, hv, of_base⟩ := mem_applies.1 hname
  obtain ⟨inside, usage⟩ := List.mem_filter.1 hv
  exact mem_applies.2 ⟨v, List.mem_filter.2 ⟨subterms_subset hu inside, usage⟩, of_base⟩

section Usage

variable {base element u : TypeExpr} (usage : u.usage? = some (base, element))
include usage

theorem base?_of_usage? : u.base? = some base := by
  rcases u with _ | _ | ⟨b, e⟩ | ⟨b, _ | ⟨e, _ | _⟩⟩ | _ | _ <;> first | rfl | cases usage <;> rfl

theorem subterms_of_usage? : u.subterms = base.subterms ++ element.subterms ++ [u] := by
  rcases u with _ | _ | ⟨b, e⟩ | ⟨b, _ | ⟨e, _ | _⟩⟩ | _ | _ <;> cases usage
  · rfl
  · simp [subterms, subtermsAll]

theorem throughout_usage {P : TypeExpr → Prop} :
    u.Throughout P ↔ (base.Throughout P ∧ element.Throughout P) ∧ P u := by
  simp only [Throughout, subterms_of_usage? usage, List.mem_append, List.mem_singleton, or_imp,
    forall_and, forall_eq]

theorem isUsage_of_usage? : u.isUsage = true := by
  rw [isUsage_eq, usage]
  rfl

end Usage

section Put

variable {name : String} {element t : TypeExpr}

theorem put_of_ne {own : String} (h : t.name? = some own) (differ : own ≠ name) :
    t.put name element = t := by
  cases t with
  | named _ => exact if_neg fun same => differ (Option.some.inj (h.symm.trans same))
  | ref _ => exact if_neg fun same => differ (Option.some.inj (h.symm.trans same))
  | _ => cases h

/-- What is put in has no usages, so every usage was there before. -/
theorem mem_subterms_put (free : element.UsageFree) {v : TypeExpr}
    (hv : v ∈ (t.put name element).subterms) :
    v.base? = none ∨ ∃ w ∈ t.subterms, w.isLeaf = false ∧ v = w.put name element := by
  rcases mem_subterms_mapLeaves hv with ⟨u, hu, hv⟩ | image
  · left
    split at hv
    · obtain ⟨container, generic⟩ := free v hv
      cases v <;> first | rfl | exact absurd rfl container | exact absurd rfl generic
    · have leaf := isLeaf_of_mem_leaves hu
      cases u <;> first | rw [List.mem_singleton.1 hv]; rfl | cases leaf
  · exact .inr image

theorem usage?_put {w : TypeExpr} (inner : w.isLeaf = false) :
    (w.put name element).usage?.isSome = w.usage?.isSome := by
  rcases w with _ | _ | ⟨b, e⟩ | ⟨b, _ | ⟨e, _ | _⟩⟩ | _ | _ <;> first | rfl | cases inner

theorem isUsage_put {w : TypeExpr} (inner : w.isLeaf = false) :
    (w.put name element).isUsage = w.isUsage := by
  rw [isUsage_eq, isUsage_eq, usage?_put inner]

theorem isSome_base?_put {w : TypeExpr} (h : w.base?.isSome = true) :
    (w.put name element).base?.isSome = true := by
  cases w <;> first | rfl | cases h

theorem base?_put_of_ne {w base : TypeExpr} {own : String} (hb : w.base? = some base)
    (h : base.name? = some own) (differ : own ≠ name) :
    (w.put name element).base? = some base := by
  cases w with
  | container b e =>
    cases hb
    exact congrArg some (put_of_ne h differ)
  | generic b args =>
    cases hb
    exact congrArg some (put_of_ne h differ)
  | _ => cases hb

theorem mem_allUsages_put (free : element.UsageFree) {v : TypeExpr} :
    v ∈ (t.put name element).allUsages ↔ ∃ w ∈ t.allUsages, v = w.put name element := by
  have inner {w : TypeExpr} (usage : w.isUsage = true) : w.isLeaf = false := by
    cases w <;> first | rfl | cases usage
  simp only [allUsages, List.mem_filter]
  constructor
  · rintro ⟨hv, usage⟩
    rcases mem_subterms_put free hv with absent | ⟨w, hw, leaf, rfl⟩
    · cases v <;> first | exact absurd absent (Option.some_ne_none _) | cases usage
    · exact ⟨w, ⟨hw, (isUsage_put leaf).symm.trans usage⟩, rfl⟩
  · rintro ⟨w, ⟨hw, usage⟩, rfl⟩
    exact ⟨mapLeaves_mem_subterms hw, (isUsage_put (inner usage)).trans usage⟩

end Put
end TypeExpr

section Covers

variable {τ : Type} [ClassTable τ] {table : τ} {active : List Active} {first : ClassId}
  {s s' : Instantiation} {ts us : List TypeExpr}

namespace Instantiation

/-- A usage has one argument, and there is an instance of its text. -/
def CoversNode (table : τ) (s : Instantiation) (u : TypeExpr) : Prop :=
  u.base?.isSome = true → u.isUsage = true ∧ ∃ text, u.canonical = .ok text ∧ s.Provides table text

/-- There is an instance for every usage in the expression, at any depth. -/
def CoversAll (table : τ) (s : Instantiation) (t : TypeExpr) : Prop :=
  t.Throughout (s.CoversNode table)

theorem CoversAll.extends_ {t : TypeExpr} (grown : s.Extends s') (h : s.CoversAll table t) :
    s'.CoversAll table t := by
  intro u hu used
  obtain ⟨usage, text, canonical, provided⟩ := h u hu used
  exact ⟨usage, text, canonical, provided.extends_ grown⟩

theorem CoversAll.of_mem {t u : TypeExpr} (h : s.CoversAll table t) (hu : u ∈ t.allUsages) :
    ∃ text, u.canonical = .ok text ∧ s.Provides table text := by
  obtain ⟨inside, usage⟩ := List.mem_filter.1 hu
  refine (h u inside ?_).2
  cases u <;> first | rfl | cases usage

theorem CoversAll.covers {t : TypeExpr} (h : s.CoversAll table t) : s.Covers table t := by
  induction t with
  | named name => exact fun u hu => .inl ⟨name, List.mem_singleton.1 hu⟩
  | ref reference => exact fun u hu => .inr (.inl ⟨reference, List.mem_singleton.1 hu⟩)
  | container base element =>
    obtain ⟨usage, text, canonical, provided⟩ := h.self rfl
    exact covers_usage usage canonical provided
  | generic base args =>
    obtain ⟨usage, text, canonical, provided⟩ := h.self rfl
    exact covers_usage usage canonical provided
  | union members hm =>
    exact covers_union fun t ht => hm t ht ((TypeExpr.throughout_union.1 h).1 t ht)
  | inter members hm =>
    exact covers_inter fun t ht => hm t ht ((TypeExpr.throughout_inter.1 h).1 t ht)

private theorem coversAll_of_name? {t : TypeExpr} {name : String} (h : t.name? = some name) :
    s.CoversAll table t := by
  intro u hu used
  rw [TypeExpr.subterms_of_name? h, List.mem_singleton] at hu
  subst hu
  cases u <;> first | exact absurd used Bool.false_ne_true | cases h

private theorem coversAll_usage {u base element : TypeExpr}
    (usage : u.usage? = some (base, element))
    (parts : ∀ t ∈ [base, element], s.CoversAll table t) (whole : s.Covers table u) :
    s.CoversAll table u := by
  refine (TypeExpr.throughout_usage usage).2 ⟨⟨parts _ List.mem_cons_self,
    parts _ (List.mem_cons_of_mem _ List.mem_cons_self)⟩, fun _ => ?_⟩
  have is_usage := TypeExpr.isUsage_of_usage? usage
  have atom : u ∈ u.atoms := by
    rw [TypeExpr.atoms_of_isUsage is_usage]
    exact List.mem_cons_self
  rcases whole u atom with ⟨name, rfl⟩ | ⟨reference, rfl⟩ | answered
  · cases is_usage
  · cases is_usage
  · exact answered

end Instantiation

theorem Walks.covers_all (h : Walks table active s ts us s')
    (sound : s.Sound table (fun _ => True) first) : ∀ t ∈ ts, s'.CoversAll table t := by
  induction h with
  | nil => exact fun t ht => absurd ht List.not_mem_nil
  | named rest ih => exact List.forall_mem_cons.2 ⟨Instantiation.coversAll_of_name? rfl, ih sound⟩
  | ref rest ih => exact List.forall_mem_cons.2 ⟨Instantiation.coversAll_of_name? rfl, ih sound⟩
  | union inside rest inside_ih rest_ih =>
    obtain ⟨-, sound₁, -, -⟩ := inside.keeps_any sound
    obtain ⟨grown, -, -, -⟩ := rest.keeps_any sound₁
    refine List.forall_mem_cons.2 ⟨TypeExpr.throughout_union.2 ⟨?_, nofun⟩, rest_ih sound₁⟩
    exact fun t ht => (inside_ih sound t ht).extends_ grown
  | inter inside rest inside_ih rest_ih =>
    obtain ⟨-, sound₁, -, -⟩ := inside.keeps_any sound
    obtain ⟨grown, -, -, -⟩ := rest.keeps_any sound₁
    refine List.forall_mem_cons.2 ⟨TypeExpr.throughout_inter.2 ⟨?_, nofun⟩, rest_ih sound₁⟩
    exact fun t ht => (inside_ih sound t ht).extends_ grown
  | found usage parts text provided rest parts_ih rest_ih =>
    obtain ⟨-, sound₁, whole, -⟩ := (Walks.found usage parts text provided .nil).keeps_any sound
    obtain ⟨grown, -, -, -⟩ := rest.keeps_any sound₁
    have here := Instantiation.coversAll_usage usage (parts_ih sound) (whole _ List.mem_cons_self)
    exact List.forall_mem_cons.2 ⟨here.extends_ grown, rest_ih sound₁⟩
  | @made active s s₁ s₂ s₃ s' ts us types u base element base' element' name template p id
      usage parts text absent chosen param body stored rest parts_ih body_ih rest_ih =>
    obtain ⟨-, sound₁, -, -⟩ := parts.keeps_any sound
    obtain ⟨grown₂, -, -, -⟩ := body.keeps_any sound₁
    obtain ⟨-, sound₃, whole, -⟩ :=
      (Walks.made usage parts text absent chosen param body stored .nil).keeps_any sound
    obtain ⟨grown₄, -, -, -⟩ := rest.keeps_any sound₃
    have grown₃ := Instantiation.Extends.addInstance s₂
      ((Template.apply template.decl name (Template.only p element')).refill types)
    rw [stored] at grown₃
    -- the parts are covered before the body, and the instances for them are never lost
    have here := Instantiation.coversAll_usage usage
      (fun t ht => (parts_ih sound t ht).extends_ (grown₂.trans grown₃))
      (whole _ List.mem_cons_self)
    exact List.forall_mem_cons.2 ⟨here.extends_ grown₄, rest_ih sound₃⟩

/-- The expression is walked over without effect, whatever comes after it. -/
private def Refound (table : τ) (active : List Active) (s : Instantiation) (t : TypeExpr) : Prop :=
  ∀ ts us, Walks table active s ts us s → Walks table active s (t :: ts) (s.rewrite t :: us) s

private theorem walks_of_refound (h : ∀ t ∈ ts, Refound table active s t) :
    Walks table active s ts (ts.map s.rewrite) s := by
  induction ts with
  | nil => exact .nil
  | cons t ts ih =>
    rw [List.forall_mem_cons] at h
    exact h.1 _ _ (ih h.2)

private theorem refound_usage {u base element : TypeExpr} (usage : u.usage? = some (base, element))
    (covers : s.CoversAll table u) (hb : Refound table active s base)
    (he : Refound table active s element) : Refound table active s u := by
  intro ts us rest
  have is_usage := TypeExpr.isUsage_of_usage? usage
  obtain ⟨⟨base_covers, element_covers⟩, self⟩ := (TypeExpr.throughout_usage usage).1 covers
  obtain ⟨-, text, canonical, provided⟩ := self (by rw [TypeExpr.base?_of_usage? usage]; rfl)
  have image : s.rewrite u = .ref ⟨text, s.target? text⟩ :=
    TypeExpr.instantiated_usage is_usage canonical
  have same : (TypeExpr.container (s.rewrite base) (s.rewrite element)).canonical = .ok text := by
    rw [← canonical, TypeExpr.canonical_of_usage? usage, TypeExpr.canonical_container,
      TypeExpr.canonical_container,
      Instantiation.canonical_rewrite (Instantiation.CoversAll.covers base_covers),
      Instantiation.canonical_rewrite (Instantiation.CoversAll.covers element_covers)]
  rw [image]
  exact .found usage (hb _ _ (he _ _ .nil)) same provided rest

/-- Where there is an instance for every usage, a walk finds them all and makes none. -/
theorem walks_of_coversAll (h : ∀ t ∈ ts, s.CoversAll table t) :
    Walks table active s ts (ts.map s.rewrite) s := by
  refine walks_of_refound fun t ht => ?_
  have covers := h t ht
  clear ht h
  induction t with
  | named name => exact fun _ _ rest => .named rest
  | ref reference => exact fun _ _ rest => .ref rest
  | container base element hb he =>
    obtain ⟨⟨base_covers, element_covers⟩, -⟩ := (TypeExpr.throughout_usage rfl).1 covers
    exact refound_usage rfl covers (hb base_covers) (he element_covers)
  | generic base args hb ha =>
    obtain ⟨usage, -⟩ := covers.self rfl
    rcases args with _ | ⟨element, _ | ⟨second, others⟩⟩
    · cases usage
    · obtain ⟨⟨base_covers, element_covers⟩, -⟩ := (TypeExpr.throughout_usage rfl).1 covers
      exact refound_usage rfl covers (hb base_covers) (ha element List.mem_cons_self element_covers)
    · cases usage
  | union members hm =>
    intro ts us rest
    have inside := (TypeExpr.throughout_union.1 covers).1
    have image : s.rewrite (.union members) = .union (members.map s.rewrite) :=
      TypeExpr.mapAtoms_union _ _
    rw [image]
    exact .union (walks_of_refound fun t ht => hm t ht (inside t ht)) rest
  | inter members hm =>
    intro ts us rest
    have inside := (TypeExpr.throughout_inter.1 covers).1
    have image : s.rewrite (.inter members) = .inter (members.map s.rewrite) :=
      TypeExpr.mapAtoms_inter _ _
    rw [image]
    exact .inter (walks_of_refound fun t ht => hm t ht (inside t ht)) rest

private theorem walksClasses_of_coversAll {cs : List Class}
    (h : ∀ t ∈ cs.flatMap Class.types, s.CoversAll table t) :
    ∃ ids s', WalksClasses table s cs ids s' ∧ s'.cache = s.cache := by
  induction cs generalizing s with
  | nil => exact ⟨[], s, .nil, rfl⟩
  | cons c cs ih =>
    rw [List.flatMap_cons, List.forall_mem_append] at h
    have grown := Instantiation.Extends.addObject s (c.refill (c.types.map s.rewrite))
    obtain ⟨ids, s', rest, cache⟩ := ih fun t ht => (h.2 t ht).extends_ grown
    exact ⟨_, s', .cons (walks_of_coversAll h.1) rfl rest, cache⟩

theorem walksModule_of_coversAll {x : Module Class} (h : ∀ t ∈ x.types, s.CoversAll table t) :
    ∃ y s', WalksModule table s x y s' ∧ s'.cache = s.cache := by
  rw [Module.types, List.forall_mem_append, List.forall_mem_append] at h
  obtain ⟨ids, s', classes, cache⟩ := walksClasses_of_coversAll h.2
  exact ⟨⟨_, _, ids⟩, s', ⟨_, _, s, s, walks_of_coversAll h.1.1, walks_of_coversAll h.1.2, rfl, rfl,
    classes⟩, cache⟩

theorem WalksModule.covers_all {x : Module Class} {y : Module ClassId}
    (h : WalksModule table s x y s') (sound : s.Sound table (fun _ => True) first) :
    ∀ t ∈ x.types, s'.CoversAll table t := by
  let P (u : Instantiation) : Prop := u.Sound table (fun _ => True) first
  have kept : P s' ∧ ∀ t ∈ x.types, s'.CoversAll table t := by
    refine WalksModule.induct (fun grown ht => ht.extends_ grown) ?_ ?_ h sound
    · intro s s' ts us sound _ walk
      obtain ⟨grown, sound', -, -⟩ := walk.keeps_any sound
      exact ⟨grown, sound', walk.covers_all sound⟩
    · exact fun c sound => sound.addObject c
  exact kept.2

/-- The usages in the argument of a usage have instances too. -/
def Instantiation.CoversArguments (table : τ) (s : Instantiation) (t : TypeExpr) : Prop :=
  ∀ u ∈ t.usages, ∀ base element, u.usage? = some (base, element) → s.Covers table element

theorem WalksModule.covers_arguments {x : Module Class} {y : Module ClassId}
    (h : WalksModule table s x y s') (sound : s.Sound table (fun _ => True) first) :
    ∀ t ∈ x.types, s'.CoversArguments table t := by
  intro t ht u hu base element usage
  have all := h.covers_all sound t ht
  rw [TypeExpr.usages_eq_filter all.covers.isLeaf_or_isUsage] at hu
  have inside := TypeExpr.atoms_subset_subterms t (List.mem_filter.1 hu).1
  obtain ⟨⟨-, argument⟩, -⟩ := (TypeExpr.throughout_usage usage).1 (all.inside inside)
  exact Instantiation.CoversAll.covers argument

end Covers
end InterfaceTree
