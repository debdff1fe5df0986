import InterfaceTree.Proofs.Readiness

/-!
# Which modules are instantiated

When the base of a usage may be a parameter, a template may need itself for some arguments only, and
such a usage is refused or not depending on what has been made before.
-/
namespace InterfaceTree

open Linking

section Modules

variable {τ : Type} [ClassTable τ] {table : τ} {first : ClassId} {s : Instantiation}

private theorem Instantiation.AllReady.addObject (h : s.AllReady table) (c : Class) :
    (s.addObject c).2.AllReady table := h

private theorem walksClasses_of_accepts (plain : PlainTable table) {cs : List Class}
    (sound : s.Sound table (fun _ => True) first) (ready : s.AllReady table)
    (bases : ∀ t ∈ cs.flatMap Class.types, t.Plain [])
    (accepts : ∀ t ∈ cs.flatMap Class.types, t.Accepts table) :
    ∃ ids s', WalksClasses table s cs ids s' := by
  induction cs generalizing s with
  | nil => exact ⟨[], s, .nil⟩
  | cons c cs ih =>
    rw [List.flatMap_cons, List.forall_mem_append] at bases accepts
    obtain ⟨us, s₁, walk⟩ := (walks_iff_accepts plain sound ready bases.1).2 accepts.1
    obtain ⟨-, sound₁, -, -⟩ := walk.keeps_any sound
    obtain ⟨ready₁, -⟩ := walk.accepts plain sound bases.1 ready
    obtain ⟨ids, s', rest⟩ :=
      ih (sound₁.addObject (c.refill us)) (ready₁.addObject (c.refill us)) bases.2 accepts.2
    exact ⟨_, s', .cons walk rfl rest⟩

theorem walksModule_iff_accepts (plain : PlainTable table) {x : Module Class}
    (sound : s.Sound table (fun _ => True) first) (ready : s.AllReady table)
    (bases : ∀ t ∈ x.types, t.Plain []) :
    (∃ y s', WalksModule table s x y s') ↔ ∀ t ∈ x.types, t.Accepts table := by
  constructor
  · rintro ⟨y, s', walk⟩
    let P (u : Instantiation) : Prop := u.Sound table (fun _ => True) first ∧ u.AllReady table
    let Q (_ : Instantiation) (t : TypeExpr) : Prop := t.Accepts table
    have kept : P s' ∧ ∀ t ∈ x.types, Q s' t := by
      refine WalksModule.induct (fun _ h => h) ?_ ?_ walk ⟨sound, ready⟩
      · rintro s s' ts us ⟨sound, ready⟩ inside walk
        obtain ⟨grown, sound', -, -⟩ := walk.keeps_any sound
        obtain ⟨ready', accepts⟩ :=
          walk.accepts plain sound (fun t ht => bases t (inside t ht)) ready
        exact ⟨grown, ⟨sound', ready'⟩, accepts⟩
      · exact fun c ⟨sound, ready⟩ => ⟨sound.addObject c, ready.addObject c⟩
    exact kept.2
  · intro accepts
    rw [Module.types, List.forall_mem_append, List.forall_mem_append] at bases accepts
    obtain ⟨us, s₁, constants⟩ := (walks_iff_accepts plain sound ready bases.1.1).2 accepts.1.1
    obtain ⟨-, sound₁, -, -⟩ := constants.keeps_any sound
    obtain ⟨ready₁, -⟩ := constants.accepts plain sound bases.1.1 ready
    obtain ⟨vs, s₂, functions⟩ := (walks_iff_accepts plain sound₁ ready₁ bases.1.2).2 accepts.1.2
    obtain ⟨-, sound₂, -, -⟩ := functions.keeps_any sound₁
    obtain ⟨ready₂, -⟩ := functions.accepts plain sound₁ bases.1.2 ready₁
    obtain ⟨ids, s', classes⟩ :=
      walksClasses_of_accepts plain sound₂ ready₂ bases.2 accepts.2
    exact ⟨⟨_, _, ids⟩, s', us, vs, s₁, s₂, constants, functions, rfl, rfl, classes⟩

end Modules

section References

namespace TypeExpr

mutual

/-- The names of the references in an expression, but for those that are the base of a usage. -/
def references : TypeExpr → List String
  | .named _ => []
  | .ref reference => [reference.name]
  | .container _ element => element.references
  | .generic _ args => referencesAll args
  | .union members => referencesAll members
  | .inter members => referencesAll members

def referencesAll : List TypeExpr → List String
  | [] => []
  | t :: ts => t.references ++ referencesAll ts

end

variable {ts : List TypeExpr} {name : String}

theorem mem_referencesAll : name ∈ referencesAll ts ↔ ∃ t ∈ ts, name ∈ t.references := by
  induction ts with
  | nil => simp [referencesAll]
  | cons t ts ih => simp [referencesAll, ih]

theorem references_of_usage? {u base element : TypeExpr} (h : u.usage? = some (base, element)) :
    u.references = element.references := by
  rcases u with _ | _ | ⟨b, e⟩ | ⟨b, _ | ⟨e, _ | _⟩⟩ | _ | _ <;> cases h
  · rfl
  · exact List.append_nil _

theorem mem_references_put {t element : TypeExpr} {param : String}
    (h : name ∈ (t.put param element).references) :
    name ∈ element.references ∨ name ∈ t.references ∧ name ≠ param := by
  have all (ts : List TypeExpr) (ih : ∀ t ∈ ts, name ∈ (t.put param element).references →
      name ∈ element.references ∨ name ∈ t.references ∧ name ≠ param)
      (h : name ∈ referencesAll (ts.map fun t => t.put param element)) :
      name ∈ element.references ∨ name ∈ referencesAll ts ∧ name ≠ param := by
    simp only [mem_referencesAll, List.mem_map, exists_exists_and_eq_and] at h ⊢
    obtain ⟨t, ht, h⟩ := h
    exact (ih t ht h).imp_right (And.imp_left fun inside => ⟨t, ht, inside⟩)
  induction t with
  | named own =>
    rw [put, mapLeaves_named] at h
    split at h
    · exact .inl h
    · cases h
  | ref reference =>
    rw [put, mapLeaves_ref] at h
    split at h
    · exact .inl h
    · next differ =>
      cases List.mem_singleton.1 h
      exact .inr ⟨h, fun same => differ (congrArg some same)⟩
  | container base inner hb he => exact he h
  | generic base args hb ha =>
    rw [put, mapLeaves_generic] at h
    exact all args ha h
  | union members hm =>
    rw [put, mapLeaves_union] at h
    exact all members hm h
  | inter members hm =>
    rw [put, mapLeaves_inter] at h
    exact all members hm h

theorem references_subset_of_mem_atoms {t u : TypeExpr} (hu : u ∈ t.atoms) :
    u.references ⊆ t.references := by
  have all (ts : List TypeExpr) (ih : ∀ t ∈ ts, u ∈ t.atoms → u.references ⊆ t.references)
      (hu : u ∈ ts.flatMap atoms) : u.references ⊆ referencesAll ts := by
    obtain ⟨t, ht, hu⟩ := List.mem_flatMap.1 hu
    exact fun name hname => mem_referencesAll.2 ⟨t, ht, ih t ht hu hname⟩
  induction t with
  | union members hm =>
    rw [atoms_union] at hu
    exact all members hm hu
  | inter members hm =>
    rw [atoms_inter] at hu
    exact all members hm hu
  | _ => rw [List.mem_singleton.1 hu]; exact List.Subset.refl _

theorem exists_leaf_of_mem_references {t : TypeExpr} (h : name ∈ t.references) :
    ∃ reference : Reference, .ref reference ∈ t.leaves ∧ reference.name = name := by
  have all (ts : List TypeExpr) (ih : ∀ t ∈ ts, name ∈ t.references →
      ∃ reference : Reference, .ref reference ∈ t.leaves ∧ reference.name = name)
      (h : name ∈ referencesAll ts) :
      ∃ reference : Reference, .ref reference ∈ ts.flatMap leaves ∧ reference.name = name := by
    obtain ⟨t, ht, h⟩ := mem_referencesAll.1 h
    obtain ⟨reference, leaf, named⟩ := ih t ht h
    exact ⟨reference, List.mem_flatMap.2 ⟨t, ht, leaf⟩, named⟩
  induction t with
  | named own => cases h
  | ref reference => exact ⟨reference, List.mem_cons_self, (List.mem_singleton.1 h).symm⟩
  | container base element hb he =>
    obtain ⟨reference, leaf, named⟩ := he h
    rw [leaves_container]
    exact ⟨reference, List.mem_append_right _ leaf, named⟩
  | generic base args hb ha =>
    obtain ⟨reference, leaf, named⟩ := all args ha h
    rw [leaves_generic]
    exact ⟨reference, List.mem_append_right _ leaf, named⟩
  | union members hm =>
    rw [leaves_union]
    exact all members hm h
  | inter members hm =>
    rw [leaves_inter]
    exact all members hm h

end TypeExpr

variable {τ : Type} [ClassTable τ] {table : τ} {s : Instantiation}

theorem Instantiation.reference_rewrite {t : TypeExpr} (ht : s.Covers table t)
    {reference : Reference} (h : .ref reference ∈ (s.rewrite t).leaves) :
    reference.name ∈ t.references ∨ s.Provides table reference.name := by
  rcases TypeExpr.mem_subterms_mapAtoms (List.mem_filter.1 h).1 with
    ⟨u, hu, hv⟩ | ⟨members, image⟩ | ⟨members, image⟩
  · rcases ht u hu with ⟨name, rfl⟩ | ⟨other, rfl⟩ | ⟨usage, text, htext, provided⟩
    · cases List.mem_singleton.1 hv
    · cases List.mem_singleton.1 hv
      exact .inl (TypeExpr.references_subset_of_mem_atoms hu List.mem_cons_self)
    · rw [TypeExpr.instantiatedAtom_usage usage htext] at hv
      cases List.mem_singleton.1 hv
      exact .inr provided
  · cases image
  · cases image

end References

section Regular

/-- The usages in an expression have plain bases, and its references are to concrete classes or to a
parameter. -/
def TypeExpr.Regular (concrete params : List String) (t : TypeExpr) : Prop :=
  t.Plain params ∧ ∀ name ∈ t.references, name ∈ concrete ∨ name ∈ params

instance (concrete params : List String) (t : TypeExpr) : Decidable (t.Regular concrete params) :=
  inferInstanceAs (Decidable (t.Plain params ∧ ∀ name ∈ t.references, _))

structure Module.Regular (x : Module Class) : Prop where
  names : ∀ name ∈ x.classNames, Name.Simple name
  constants : ∀ t ∈ x.constants.flatMap Constant.types, t.Regular x.concrete.classNames []
  functions : ∀ t ∈ x.functions.flatMap Function.types, t.Regular x.concrete.classNames []
  classes : ∀ c ∈ x.classes, ∀ t ∈ c.types, t.Regular x.concrete.classNames c.parameterNames

private def Grounded {τ : Type} [ClassTable τ] (table : τ) (s : Instantiation) (t : TypeExpr) :
    Prop :=
  t.Plain [] ∧ ∀ name ∈ t.references, s.Provides table name

variable {s : Store} {x : Module ClassId}

private theorem plainTable (regular : (s.load x).Regular) : PlainTable (s.indexOf x) where
  simple name o found := by
    rw [← ClassTable.name_of_find? found]
    exact regular.names _ (List.mem_map.2 ⟨_, Store.decl_mem_of_find? found, rfl⟩)
  plain name o p found param t ht := by
    have types := (regular.classes _ (Store.decl_mem_of_find? found) t (Class.types_body ht)).1
    rwa [Class.parameterNames, param] at types

private theorem regular_concrete (regular : (s.load x).Regular) :
    ∀ t ∈ (s.load x).concrete.types, t.Regular (s.load x).concrete.classNames [] := by
  intro t ht
  rw [Module.types, List.mem_append, List.mem_append] at ht
  rcases ht with (ht | ht) | ht
  · exact regular.constants t ht
  · exact regular.functions t ht
  · obtain ⟨c, hc, ht⟩ := List.mem_flatMap.1 ht
    have types := regular.classes c (List.mem_filter.1 hc).1 t ht
    rwa [Class.parameterNames, Module.template_of_mem_concrete hc] at types

private theorem provides_of_concrete (distinct : (s.load x).classNames.Nodup) {name : String}
    (h : name ∈ (s.load x).concrete.classNames) (u : Instantiation) :
    u.Provides (s.indexOf x) name := by
  obtain ⟨c, hc, rfl⟩ := List.mem_map.1 h
  exact .inl (isMadeBefore_of_concrete distinct hc)

private theorem hereditary_grounded (distinct : (s.load x).classNames.Nodup)
    (regular : (s.load x).Regular) : Hereditary (s.indexOf x) (Grounded (s.indexOf x)) where
  extends_ grown h := ⟨h.1, fun name hname => (h.2 name hname).extends_ grown⟩
  usage usage h := by
    obtain ⟨⟨name, named, -⟩, -, plain⟩ := h.1.usage usage
    have known := h.2
    rw [TypeExpr.references_of_usage? usage] at known
    exact ⟨.inl (by rw [TypeExpr.isLeaf, named]; rfl), plain, known⟩
  union h t ht := ⟨(TypeExpr.throughout_union.1 h.1).1 t ht,
    fun name hname => h.2 name (TypeExpr.mem_referencesAll.2 ⟨t, ht, hname⟩)⟩
  inter h t ht := ⟨(TypeExpr.throughout_inter.1 h.1).1 t ht,
    fun name hname => h.2 name (TypeExpr.mem_referencesAll.2 ⟨t, ht, hname⟩)⟩
  body := by
    intro u first o p name element t sound made known param good covered ht
    have types := regular.classes _ (Store.decl_mem_of_find? known) t (Class.types_body ht)
    rw [Class.parameterNames, param] at types
    refine ⟨types.1.put (Instantiation.usageFree_rewrite covered), fun other hother => ?_⟩
    rcases TypeExpr.mem_references_put hother with inside | ⟨outside, differ⟩
    · obtain ⟨reference, leaf, rfl⟩ := TypeExpr.exists_leaf_of_mem_references inside
      rcases Instantiation.reference_rewrite covered leaf with before | provided
      · exact good.2 _ before
      · exact provided
    · rcases types.2 other outside with concrete | same
      · exact provides_of_concrete distinct concrete u
      · exact absurd (List.mem_singleton.1 same) differ

theorem firstNamed_of_provides {u : Instantiation} {z : Module ClassId}
    (sound : u.Sound (s.indexOf x) (fun _ => True) s.size)
    (parts : (s.load x).concrete.Rewritten (s.indexOf x) s.size u z) {name : String}
    (h : u.Provides (s.indexOf x) name) : u.store.firstNamed (u.join z) name ≠ none := by
  rw [Ne, Store.firstNamed_eq_none_iff, not_forall₂]
  rcases h with before | ⟨id, target⟩
  · obtain ⟨o, found, concrete⟩ : ∃ o, ClassTable.find? (s.indexOf x) name = some o ∧
        (!o.decl.isGeneric) = true := by
      rw [isMadeBefore, Option.any_eq_true] at before
      exact before
    have member : o.decl ∈ (s.load x).concrete.classes :=
      List.mem_filter.2 ⟨Store.decl_mem_of_find? found, concrete⟩
    refine ⟨o.decl.mapTypes u.rewrite, ?_, not_not.2 (ClassTable.name_of_find? found)⟩
    rw [parts.load_join]
    exact List.mem_append_left _ (List.mem_map.2 ⟨_, member, rfl⟩)
  · obtain ⟨member, named⟩ := Instantiation.join_target sound z target
    exact ⟨_, List.mem_map.2 ⟨id, member, rfl⟩, not_not.2 named⟩

theorem lacking?_rewrite {u : Instantiation} {z : Module ClassId}
    (sound : u.Sound (s.indexOf x) (fun _ => True) s.size)
    (parts : (s.load x).concrete.Rewritten (s.indexOf x) s.size u z) {t : TypeExpr}
    (covered : u.Covers (s.indexOf x) t)
    (known : ∀ name ∈ t.references, u.Provides (s.indexOf x) name) :
    ∀ v ∈ (u.rewrite t).leaves, lacking? (u.store.firstNamed (u.join z)) v = none := by
  intro v hv
  rcases v with name | ⟨name, _ | id⟩ | _ | _ | _ | _
  case ref.none =>
    have provided : u.Provides (s.indexOf x) name :=
      (Instantiation.reference_rewrite covered hv).elim (known name) id
    simp [lacking?, firstNamed_of_provides sound parts provided]
  all_goals rfl

private theorem ok_of_walk (distinct : (s.load x).classNames.Nodup) (regular : (s.load x).Regular)
    {z : Module ClassId} {u : Instantiation}
    (walk : WalksModule (s.indexOf x) { store := s } (s.load x).concrete z u) :
    ∃ y s', (linkAll (u.join z)).run.run u.store = (.ok y, s') := by
  have start : Instantiation.Sound (s.indexOf x) (fun _ => True) s.size { store := s } :=
    Instantiation.sound_start s
  obtain ⟨sound, parts⟩ := walk.keeps (any_inScope _) (fun _ _ _ _ => trivial) start
  have grounded : ∀ (v : Instantiation), ∀ t ∈ (s.load x).concrete.types,
      Grounded (s.indexOf x) v t := by
    intro v t ht
    obtain ⟨plain, known⟩ := regular_concrete regular t ht
    exact ⟨plain, fun name hname => provides_of_concrete distinct
      ((known name hname).resolve_right List.not_mem_nil) v⟩
  have made := walk.originated (hereditary_grounded distinct regular) start (grounded _)
    (Instantiation.originated_start s)
  apply ok_of_linkAll
  intro v hv
  rw [parts.load_join, Module.leaves, Module.types_addClasses, List.flatMap_append,
    Module.types_mapTypes, List.mem_append, List.flatMap_map] at hv
  rcases hv with hv | hv
  · obtain ⟨t, ht, hv⟩ := List.mem_flatMap.1 hv
    exact lacking?_rewrite sound parts (parts.covers t ht) (grounded u t ht).2 v hv
  · obtain ⟨t, ht, hv⟩ := List.mem_flatMap.1 hv
    obtain ⟨c, hc, ht⟩ := List.mem_flatMap.1 ht
    obtain ⟨i, hi, rfl⟩ := List.mem_map.1 hc
    obtain ⟨o, p, element, origin⟩ := made i hi
    rw [origin.content, Class.types_mapTypes] at ht
    obtain ⟨b, hb, rfl⟩ := List.mem_map.1 ht
    have body := (hereditary_grounded distinct regular).body sound made origin.known origin.param
      origin.good origin.covered hb
    exact lacking?_rewrite sound parts (origin.inside b hb) body.2 v hv

/-- A regular module is instantiated if and only if the usages in its concrete part are sensible and
of templates that are ready. -/
theorem instantiate_iff_accepts (distinct : (s.load x).classNames.Nodup)
    (regular : (s.load x).Regular) : (∃ y s', (instantiate x).run.run s = (.ok y, s')) ↔
      ∀ t ∈ (s.load x).concrete.types, t.Accepts (s.indexOf x) := by
  have start : Instantiation.Sound (s.indexOf x) (fun _ => True) s.size { store := s } :=
    Instantiation.sound_start s
  rw [← walksModule_iff_accepts (plainTable regular) start
    (fun _ hi => absurd hi List.not_mem_nil) fun t ht => (regular_concrete regular t ht).1]
  constructor
  · rintro ⟨y, s', run⟩
    obtain ⟨z, u, walk, -⟩ := walk_of_instantiate run
    exact ⟨z, u, walk⟩
  · rintro ⟨z, u, walk⟩
    have run : s.instantiateParts x = (.ok z, u) := walksModule_iff_gives.1 walk
    rw [run_instantiate, run]
    exact ok_of_walk distinct regular walk

/-- In a regular module the order of the functions does not decide whether it is instantiated. -/
theorem instantiate_any_order (distinct : (s.load x).classNames.Nodup)
    (regular : (s.load x).Regular) {fs : List Function} (order : fs.Perm x.functions) :
    (∃ y s', (instantiate x).run.run s = (.ok y, s')) ↔
      ∃ y s', (instantiate { x with functions := fs }).run.run s = (.ok y, s') := by
  have functions {t : TypeExpr} :
      t ∈ fs.flatMap Function.types ↔ t ∈ x.functions.flatMap Function.types :=
    (order.flatMap_right Function.types).mem_iff
  have regular' : (s.load { x with functions := fs }).Regular :=
    { regular with functions := fun t ht => regular.functions t (functions.1 ht) }
  have types {t : TypeExpr} : t ∈ (s.load x).concrete.types ↔
      t ∈ (s.load { x with functions := fs }).concrete.types := by
    simp only [Module.types, List.mem_append]
    exact or_congr (or_congr Iff.rfl functions.symm) Iff.rfl
  have distinct' : (s.load { x with functions := fs }).classNames.Nodup := distinct
  refine (instantiate_iff_accepts distinct regular).trans (.trans ?_
    (instantiate_iff_accepts distinct' regular').symm)
  exact forall_congr' fun t => imp_congr types Iff.rfl

private def stocked : Module Class where
  functions := [
    { name := "open",
      signatures := [{ params := [⟨"box", .container (.named "Box") (.named "P")⟩] }] },
    { name := "browse",
      signatures := [{ params := [⟨"shelf", .container (.named "Shelf") (.unlinked "P")⟩] }] }]
  classes := [
    { name := "Box", template := [⟨"T", .universal⟩], constants := [⟨"item", .named "T"⟩] },
    { name := "Shelf", template := [⟨"U", .universal⟩],
      constants := [⟨"box", .container (.named "Box") (.named "U")⟩] },
    { name := "P" }]

theorem instantiate_any_order_stocked :
    let held := Store.hold {} stocked
    ∃ y s', (instantiate { held.1 with functions := held.1.functions.reverse }).run.run held.2 =
      (.ok y, s') := by
  intro held
  have load : held.2.load held.1 = stocked := Store.load_hold _ _
  have distinct : (held.2.load held.1).classNames.Nodup := by
    rw [load]
    decide
  have regular : (held.2.load held.1).Regular := by
    rw [load]
    exact ⟨by decide, by decide, by decide, by decide⟩
  have succeeds : ((instantiate held.1).run.run held.2).1.isOk = true := by decide +kernel
  apply (instantiate_any_order distinct regular (List.reverse_perm held.1.functions)).1
  rcases run : (instantiate held.1).run.run held.2 with ⟨fault | y, s'⟩ <;> rw [run] at succeeds
  · cases succeeds
  · exact ⟨y, s', rfl⟩

/-- A template that has its parameter as a base, and so needs itself for the argument `B` only. -/
private def crossed : Module Class where
  functions := [
    { name := "f", signatures := [{ params := [⟨"x", .container (.named "A") (.named "C")⟩] }] },
    { name := "g", signatures := [{ params := [⟨"x", .container (.named "A") (.named "B")⟩] }] }]
  classes := [
    { name := "A", template := [⟨"T", .universal⟩],
      constants := [⟨"field", .container (.named "T") (.named "int")⟩] },
    { name := "B", template := [⟨"T", .universal⟩],
      constants := [⟨"field", .container (.named "A") (.named "C")⟩] },
    { name := "C", template := [⟨"T", .universal⟩] }]

/-- The body of `A<B>` needs `A<C>`, which is found when it has been made and refused otherwise. -/
theorem instantiate_any_order_crossed :
    let held := Store.hold {} crossed
    crossed.classNames.Nodup ∧ (∃ y s', (instantiate held.1).run.run held.2 = (.ok y, s')) ∧
      ∃ fs, fs.Perm held.1.functions ∧
        ¬ ∃ y s', (instantiate { held.1 with functions := fs }).run.run held.2 = (.ok y, s') := by
  intro held
  refine ⟨by decide, ?_, held.1.functions.reverse, List.reverse_perm _, ?_⟩
  · have succeeds : ((instantiate held.1).run.run held.2).1.isOk = true := by decide +kernel
    rcases run : (instantiate held.1).run.run held.2 with ⟨fault | y, s'⟩ <;> rw [run] at succeeds
    · cases succeeds
    · exact ⟨y, s', rfl⟩
  · rintro ⟨y, s', run⟩
    have fails : ((instantiate { held.1 with functions := held.1.functions.reverse }).run.run
        held.2).1.isOk = false := by decide +kernel
    rw [run] at fails
    cases fails

end Regular
end InterfaceTree
