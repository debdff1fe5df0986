import InterfaceTree.Proofs.Instantiated

/-!
# Making instances

The proof follows the recursion: over the type expression, and for the body of a template over the
number of templates that are not under way.
-/
namespace InterfaceTree

theorem TypeExpr.replace_namesIn {allowed : String → Prop} {f : TypeMapping} {t : TypeExpr}
    {params : List String} (ht : t.NamesIn fun name => allowed name ∨ name ∈ params)
    (bound : ∀ name ∈ params, name ∈ f)
    (hf : ∀ (name : String) (u : TypeExpr), f[name]? = some u → u.NamesIn allowed) :
    (t.replace f).NamesIn allowed := by
  intro name hname
  rw [replace_eq_mapLeaves, leaves_mapLeaves_eq_flatMap] at hname
  obtain ⟨u, hu, hname⟩ := List.mem_flatMap.1 hname
  rw [TypeMapping.onLeaf] at hname
  split at hname
  · next found hfound =>
    rw [Std.TreeMap.getD_eq_getD_getElem?] at hname
    cases put : f[found]? with
    | some v =>
      rw [put] at hname
      exact hf found v put name hname
    | none =>
      rw [put] at hname
      cases u with
      | named other =>
        cases hfound
        cases List.mem_singleton.1 hname
        rcases ht name hu with free | param
        · exact free
        · have := bound name param
          rw [Std.TreeMap.mem_iff_isSome_getElem?, put] at this
          cases this
      | ref reference => cases List.mem_singleton.1 hname
      | _ => cases hfound
  · next none =>
    have leaf := TypeExpr.isLeaf_of_mem_leaves hu
    rw [isLeaf, none] at leaf
    cases leaf

section Sound

variable {τ : Type} [ClassTable τ] (table : τ) (allowed : String → Prop) (first : ClassId)

structure Instantiation.Finished (s : Instantiation) (name : String) (c : Class) : Prop where
  name : c.name = name
  template : c.template = []
  settled : ∀ t ∈ c.types, ∀ u ∈ t.subterms, s.Settled allowed u

/-- The invariant of a run that starts with `first` objects in the store. -/
structure Instantiation.Sound (s : Instantiation) : Prop where
  cache : s.cache.Sound
  size : first ≤ s.store.size
  fresh : ∀ i ∈ s.cache.toList, isMadeBefore table i.name = false
  new : ∀ i ∈ s.cache.toList, first ≤ i.id ∧ i.id < s.store.size
  finished : ∀ i ∈ s.cache.toList, s.Finished allowed i.name (s.store.read i.id)

namespace Instantiation

variable {table allowed first} {s s' : Instantiation}

theorem Finished.extends_ (h : s.Extends s') {name : String} {c : Class}
    (hc : s.Finished allowed name c) : s'.Finished allowed name c where
  name := hc.name
  template := hc.template
  settled t ht u hu := (hc.settled t ht u hu).extends_ h

theorem finished_rewrite {c : Class} (template : c.template = [])
    (covers : ∀ t ∈ c.types, s.Covers table t) (names : ∀ t ∈ c.types, t.NamesIn allowed) :
    s.Finished allowed c.name (c.mapTypes s.rewrite) where
  name := rfl
  template := by rw [Class.mapTypes, template, List.map_nil]
  settled t' ht' v hv := by
    rw [Class.types_mapTypes] at ht'
    obtain ⟨t, ht, rfl⟩ := List.mem_map.1 ht'
    exact settled_rewrite (covers t ht) (names t ht) hv

theorem sound_start (store : Store) : Sound table allowed store.size { store } where
  cache := InstanceCache.sound_empty
  size := Nat.le_refl _
  fresh _ hi := absurd hi List.not_mem_nil
  new _ hi := absurd hi List.not_mem_nil
  finished _ hi := absurd hi List.not_mem_nil

namespace Sound

theorem target?_eq_none (h : s.Sound table allowed first) (name : String)
    (before : isMadeBefore table name = true) : s.target? name = none := by
  rw [target?, Option.map_eq_none_iff]
  cases found : s.cache.find? name with
  | none => rfl
  | some i =>
    obtain ⟨mem, rfl⟩ := h.cache.mem_of_find? found
    rw [h.fresh i mem] at before
    cases before

theorem mem_of_target? (h : s.Sound table allowed first) {name : String} {id : ClassId}
    (hid : s.target? name = some id) : ∃ i ∈ s.cache.toList, i.name = name ∧ i.id = id := by
  obtain ⟨i, hi, rfl⟩ := Option.map_eq_some_iff.1 hid
  obtain ⟨mem, same⟩ := h.cache.mem_of_find? hi
  exact ⟨i, mem, same, rfl⟩

theorem rewrite_extends (h : s'.Sound table allowed first) (grown : s.Extends s') {t : TypeExpr}
    (ht : s.Covers table t) : s'.rewrite t = s.rewrite t :=
  Instantiation.rewrite_extends grown h.target?_eq_none ht

private theorem finished_of_extends (h : s.Sound table allowed first) (grown : s.Extends s')
    {i : Instance} (hi : i ∈ s.cache.toList) : s'.Finished allowed i.name (s'.store.read i.id) := by
  rw [grown.store.read_eq i.id (h.new i hi).2]
  exact (h.finished i hi).extends_ grown

theorem addObject (h : s.Sound table allowed first) (c : Class) :
    (s.addObject c).2.Sound table allowed first where
  cache := h.cache
  size := Nat.le_trans h.size (Extends.addObject s c).store.size_le
  fresh := h.fresh
  new i hi :=
    ⟨(h.new i hi).1, Nat.lt_of_lt_of_le (h.new i hi).2 (Extends.addObject s c).store.size_le⟩
  finished _ hi := h.finished_of_extends (Extends.addObject s c) hi

theorem addInstance (h : s.Sound table allowed first) {name : String} {c : Class}
    (hc : s.Finished allowed name c) (fresh : isMadeBefore table name = false) :
    (s.addInstance c).2.Sound table allowed first ∧
      (s.addInstance c).2.target? name = some (s.addInstance c).1 := by
  obtain rfl := hc.name
  have grown := Extends.addInstance s c
  have size : (s.addInstance c).2.store.size = s.store.size + 1 := Store.size_add s.store c
  have found := h.cache.find?_insert ⟨c.name, s.store.size⟩
  refine ⟨⟨h.cache.insert _, Nat.le_trans h.size grown.store.size_le, ?_, ?_, ?_⟩, ?_⟩
  · intro i hi
    rcases mem_addInstance hi with old | rfl
    · exact h.fresh i old
    · exact fresh
  · intro i hi
    rcases mem_addInstance hi with old | rfl
    · exact ⟨(h.new i old).1, Nat.lt_of_lt_of_le (h.new i old).2 grown.store.size_le⟩
    · rw [size]
      exact ⟨h.size, Nat.lt_succ_self _⟩
  · intro i hi
    rcases mem_addInstance hi with old | rfl
    · exact h.finished_of_extends grown old
    · have content : (s.addInstance c).2.store.read s.store.size = c :=
        Store.read_add_self s.store c
      rw [content]
      exact hc.extends_ grown
  · exact congrArg (Option.map Instance.id) found.1

end Sound
end Instantiation

def NamesScoped : Prop :=
  ∀ name o, ClassTable.find? table name = some o → ∀ t ∈ o.decl.types,
    t.NamesIn fun n => allowed n ∨ n ∈ o.decl.parameterNames

theorem any_inScope : NamesScoped table fun _ => True := fun _ _ _ _ _ _ _ => .inl trivial

/-- A function that answers a usage, once its parts are rewritten, with the instance of its text. -/
def Specializes (specialize : TypeExpr → TypeExpr → Instantiating TypeExpr) : Prop :=
  ∀ (base element : TypeExpr) (s : Instantiation), s.Sound table allowed first →
    s.Covers table base → s.Covers table element → element.NamesIn allowed →
    Keeps (Instantiation.Sound table allowed first)
      (specialize (s.rewrite base) (s.rewrite element)) s fun t u => ∃ text,
        (TypeExpr.container base element).canonical = .ok text ∧ u.Provides table text ∧
          t = .ref ⟨text, u.target? text⟩

section Rebuild

variable {table allowed first} {spec : TypeExpr → TypeExpr → Instantiating TypeExpr}

/-- What a run makes of a type expression when it succeeds. -/
def Rewritten (table : τ) (s : Instantiation) (t t' : TypeExpr) : Prop :=
  s.Covers table t ∧ t' = s.rewrite t

theorem Rewritten.extends_ {s s' : Instantiation} {t t' : TypeExpr} (h : s.Extends s')
    (sound : s'.Sound table allowed first) (ht : Rewritten table s t t') :
    Rewritten table s' t t' :=
  ⟨ht.1.extends_ h, ht.2.trans (sound.rewrite_extends h ht.1).symm⟩

private theorem rewritten_usage {s : Instantiation} {u : TypeExpr} {text : String}
    (hu : u.isUsage = true) (htext : u.canonical = .ok text) (provided : s.Provides table text) :
    Rewritten table s u (.ref ⟨text, s.target? text⟩) :=
  ⟨Instantiation.covers_usage hu htext provided, (TypeExpr.instantiated_usage hu htext).symm⟩

private theorem keeps_all {ts : List TypeExpr}
    (step : ∀ t ∈ ts, ∀ {u : Instantiation}, u.Sound table allowed first →
      Keeps (Instantiation.Sound table allowed first) (t.rebuildM (onUsage spec)) u
        fun t' v => Rewritten table v t t')
    {s : Instantiation} (hs : s.Sound table allowed first) :
    Keeps (Instantiation.Sound table allowed first)
      (ts.mapM (TypeExpr.rebuildM (onUsage spec))) s
      fun ts' u => (∀ t ∈ ts, u.Covers table t) ∧ ts' = ts.map u.rewrite := by
  refine (Keeps.mapM (P := Rewritten table) ?_ ts hs ?_).imp fun ts' u _ _ h => forall₂_eq_map h
  · intro t u a b htu hu hab
    exact hab.extends_ htu hu
  · intro t ht u _ hu
    exact step t ht hu

/-- The walk over a type expression. What it has made of one part is carried to the state in which
the next part has been rewritten, so that a usage finds both of its parts rewritten. -/
theorem keeps_rebuildM (hspec : Specializes table allowed first spec) (t : TypeExpr)
    (names : t.NamesIn allowed) {s : Instantiation} (hs : s.Sound table allowed first) :
    Keeps (Instantiation.Sound table allowed first) (t.rebuildM (onUsage spec)) s
      fun t' u => Rewritten table u t t' := by
  induction t generalizing s with
  | named name =>
    refine .pure hs ⟨?_, rfl⟩
    intro u hu
    exact .inl ⟨name, List.mem_singleton.1 hu⟩
  | ref reference =>
    refine .pure hs ⟨?_, rfl⟩
    intro u hu
    exact .inr (.inl ⟨reference, List.mem_singleton.1 hu⟩)
  | container base element hb he =>
    obtain ⟨base_names, element_names⟩ := TypeExpr.namesIn_container.1 names
    rw [TypeExpr.rebuildM]
    refine (hb base_names hs).bind fun b s₁ _ hs₁ hbase => ?_
    refine (he element_names hs₁).bind fun e s₂ grown hs₂ helement => ?_
    obtain ⟨base_covers, rfl⟩ := hbase.extends_ grown hs₂
    obtain ⟨element_covers, rfl⟩ := helement
    refine (hspec base element s₂ hs₂ base_covers element_covers element_names).imp ?_
    rintro t s₃ - - ⟨text, htext, provided, rfl⟩
    exact rewritten_usage rfl htext provided
  | generic base args hb ha =>
    obtain ⟨base_names, args_names⟩ := TypeExpr.namesIn_generic.1 names
    rw [TypeExpr.rebuildM, TypeExpr.rebuildAllM_eq_mapM]
    refine (hb base_names hs).bind fun b s₁ _ hs₁ hbase => ?_
    have all := keeps_all (fun t ht _ hu => ha t ht (args_names t ht) hu) hs₁
    refine all.bind fun args' s₂ grown hs₂ hargs => ?_
    obtain ⟨base_covers, rfl⟩ := hbase.extends_ grown hs₂
    obtain ⟨args_covers, rfl⟩ := hargs
    rcases args with _ | ⟨element, _ | ⟨second, rest⟩⟩
    · exact (Keeps.lift hs₂).bind fun _ _ _ hu _ => .throw hu
    · have element_names := args_names element List.mem_cons_self
      have element_covers := args_covers element List.mem_cons_self
      refine (hspec base element s₂ hs₂ base_covers element_covers element_names).imp ?_
      rintro t s₃ - - ⟨text, htext, provided, rfl⟩
      rw [← TypeExpr.canonical_generic_singleton] at htext
      exact rewritten_usage rfl htext provided
    · exact (Keeps.lift hs₂).bind fun _ _ _ hu _ => .throw hu
  | union members hm =>
    have members_names := TypeExpr.namesIn_union.1 names
    rw [TypeExpr.rebuildM, TypeExpr.rebuildAllM_eq_mapM]
    have all := keeps_all (fun t ht _ hu => hm t ht (members_names t ht) hu) hs
    refine all.bind fun members' u _ hu hmembers => ?_
    obtain ⟨covers, rfl⟩ := hmembers
    exact .pure hu ⟨Instantiation.covers_union covers, (TypeExpr.mapAtoms_union _ _).symm⟩
  | inter members hm =>
    have members_names := TypeExpr.namesIn_inter.1 names
    rw [TypeExpr.rebuildM, TypeExpr.rebuildAllM_eq_mapM]
    have all := keeps_all (fun t ht _ hu => hm t ht (members_names t ht) hu) hs
    refine all.bind fun members' u _ hu hmembers => ?_
    obtain ⟨covers, rfl⟩ := hmembers
    exact .pure hu ⟨Instantiation.covers_inter covers, (TypeExpr.mapAtoms_inter _ _).symm⟩

theorem keeps_types (hspec : Specializes table allowed first spec) (ts : List TypeExpr)
    (names : ∀ t ∈ ts, t.NamesIn allowed) {s : Instantiation} (hs : s.Sound table allowed first) :
    Keeps (Instantiation.Sound table allowed first)
      (ts.mapM (TypeExpr.rebuildM (onUsage spec))) s
      fun ts' u => (∀ t ∈ ts, u.Covers table t) ∧ ts' = ts.map u.rewrite :=
  keeps_all (fun t ht _ hu => keeps_rebuildM hspec t (names t ht) hu) hs

end Rebuild

section Make

theorem bind_single {className : String} {template : List TemplateItem}
    {element : TypeExpr} {mapping : TypeMapping}
    (h : Template.bind className template [element] = .ok mapping) :
    ∃ p, template = [p] ∧ mapping = Std.TreeMap.insert ∅ p.name element := by
  rw [Template.bind] at h
  split at h
  · next length =>
    obtain ⟨p, rfl⟩ := List.length_eq_one_iff.1 length
    cases h
    exact ⟨p, rfl, rfl⟩
  · cases h

private theorem types_apply (c : Class) (name : String) (mapping : TypeMapping) :
    (Template.apply c name mapping).types =
      ({ c with name, template := [] } : Class).types.map (TypeExpr.replace mapping) := by
  rw [Template.apply, Class.replace_eq_mapTypes, Class.types_mapTypes]

private theorem namesIn_apply {c : Class} {name : String} {element : TypeExpr}
    {mapping : TypeMapping} {allowed : String → Prop}
    (inScope : ∀ t ∈ c.types, t.NamesIn fun n => allowed n ∨ n ∈ c.parameterNames)
    (names : element.NamesIn allowed)
    (bound : Template.bind c.name c.template [element] = .ok mapping)
    {u : TypeExpr} (hu : u ∈ (Template.apply c name mapping).types) : u.NamesIn allowed := by
  obtain ⟨p, template, rfl⟩ := bind_single bound
  rw [types_apply] at hu
  obtain ⟨t, ht, rfl⟩ := List.mem_map.1 hu
  have inside : t ∈ c.types := by
    simp only [Class.types, List.flatMap_nil, List.nil_append, List.mem_append] at ht ⊢
    tauto
  refine TypeExpr.replace_namesIn (inScope t inside) ?_ ?_
  · intro n hn
    rw [Class.parameterNames, template] at hn
    rw [List.map_singleton, List.mem_singleton] at hn
    simp [hn]
  · intro n u hu
    rw [Std.TreeMap.getElem?_insert] at hu
    split at hu
    · cases hu
      exact names
    · simp at hu

variable {table allowed first} {spec : TypeExpr → TypeExpr → Instantiating TypeExpr}

theorem keeps_makeInstance (hspec : Specializes table allowed first spec)
    {c : Class} (inScope : ∀ t ∈ c.types, t.NamesIn fun n => allowed n ∨ n ∈ c.parameterNames)
    {name : String} (fresh : isMadeBefore table name = false) {element : TypeExpr}
    (names : element.NamesIn allowed) {s : Instantiation} (hs : s.Sound table allowed first) :
    Keeps (Instantiation.Sound table allowed first) (makeInstance spec c name element) s
      fun id u => u.target? name = some id := by
  rw [makeInstance]
  refine (Keeps.lift hs).bind ?_
  rintro mapping t - ht ⟨bound, -⟩
  have body_names : ∀ t ∈ (Template.apply c name mapping).types, t.NamesIn allowed :=
    fun _ => namesIn_apply inScope names bound
  rw [Class.rebuildM_eq_refill, map_eq_pure_bind, bind_assoc]
  refine (keeps_types hspec _ body_names ht).bind fun types u _ hu htypes => ?_
  obtain ⟨covers, rfl⟩ := htypes
  rw [pure_bind, Class.refill_map]
  have finished : u.Finished allowed name
      ((Template.apply c name mapping).mapTypes u.rewrite) :=
    Instantiation.finished_rewrite rfl covers body_names
  obtain ⟨sound, target⟩ := hu.addInstance finished fresh
  exact .modifyGet (.addInstance u _) sound target

end Make

section Specialize

variable {table allowed first}

theorem specializes_specialize (inScope : NamesScoped table allowed) (active : List Active) :
    Specializes table allowed first (specialize table active) := by
  intro base element s hs base_covers element_covers names
  have element_names : (s.rewrite element).NamesIn allowed :=
    Instantiation.namesIn_of_settled fun _ hv =>
      Instantiation.settled_rewrite element_covers names hv
  -- the text is that of the usage as it was before its parts were rewritten
  have text : (TypeExpr.container (s.rewrite base) (s.rewrite element)).canonical =
      (TypeExpr.container base element).canonical := by
    rw [TypeExpr.canonical_container, TypeExpr.canonical_container,
      Instantiation.canonical_rewrite base_covers, Instantiation.canonical_rewrite element_covers]
  rw [specialize_eq, text]
  refine (Keeps.lift hs).bind ?_
  rintro name t - ht ⟨htext, -⟩
  refine (Keeps.get ht).bind fun seen now _ _ here => ?_
  obtain ⟨rfl, rfl⟩ : t = seen ∧ t = now := ⟨here.1.symm, here.2.symm⟩
  cases found : t.cache.find? name with
  | some made =>
    have target : t.target? name = some made.id := by rw [Instantiation.target?, found]; rfl
    exact .pure ht ⟨name, htext, .inr ⟨_, target⟩, by rw [target]⟩
  | none =>
    have absent : t.target? name = none := by rw [Instantiation.target?, found]; rfl
    by_cases before : isMadeBefore table name = true
    · simp only [before, if_true]
      exact .pure ht ⟨name, htext, .inl before, by rw [absent]⟩
    · simp only [before]
      refine (Keeps.lift ht).bind ?_
      rintro template u - hu ⟨chosen, -⟩
      have inner := specializes_specialize inScope (⟨template.decl.name, name⟩ :: active)
      obtain ⟨-, known, -⟩ := templateOf_eq_ok_iff.1 chosen
      have fresh : isMadeBefore table name = false := by simpa using before
      refine (keeps_makeInstance inner (inScope _ _ known) fresh element_names hu).bind ?_
      intro id v _ hv target
      exact .pure hv ⟨name, htext, .inr ⟨id, target⟩, by rw [target]⟩
termination_by Active.idleCount table active
decreasing_by exact templateOf_decreases chosen

end Specialize
end Sound
end InterfaceTree
