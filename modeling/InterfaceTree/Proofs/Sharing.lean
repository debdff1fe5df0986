import InterfaceTree.Cell
import InterfaceTree.Proofs.Instantiation

/-! # Usages of one text share one instance -/
namespace InterfaceTree

open Linking

def Module.classNames (x : Module Class) : List String := x.classes.map (·.name)

theorem Module.classNames_mapTypes (h : TypeExpr → TypeExpr) (x : Module Class) :
    (x.mapTypes h).classNames = x.classNames := by
  rw [classNames, mapTypes, List.map_map]
  rfl

def Module.usages (x : Module Class) : List TypeExpr := x.types.flatMap TypeExpr.usages

theorem Store.firstNamed_of_nodup {s : Store} {x : Module ClassId}
    (distinct : (s.load x).classNames.Nodup) {id : ClassId} (hid : id ∈ x.classes) :
    s.firstNamed x (s.read id).name = some id := by
  have names : (x.classes.map fun i => (s.read i).name).Nodup := by
    rw [Module.classNames, load, Module.mapClasses, List.map_map] at distinct
    exact distinct
  cases found : s.firstNamed x (s.read id).name with
  | none =>
    rw [firstNamed, List.find?_eq_none] at found
    exact absurd (beq_self_eq_true _) (found id hid)
  | some first =>
    obtain ⟨member, same⟩ := firstNamed_eq_some found
    rw [List.inj_on_of_nodup_map names member hid same]

section Names

variable {s : Store} {x : Module ClassId} {allowed : String → Prop} {z : Module ClassId}
  {u : Instantiation}

theorem find?_of_mem (distinct : (s.load x).classNames.Nodup) {c : Class}
    (hc : c ∈ (s.load x).classes) :
    ∃ o, ClassTable.find? (s.indexOf x) c.name = some o ∧ o.decl = c := by
  cases found : ClassTable.find? (s.indexOf x) c.name with
  | none =>
    obtain ⟨id, hid, rfl⟩ := List.mem_map.1 hc
    rw [Store.find?_indexOf, findObject?, List.find?_eq_none] at found
    exact absurd (beq_self_eq_true _) (found ⟨id, s.read id⟩ (List.mem_map.2 ⟨id, hid, rfl⟩))
  | some o =>
    exact ⟨o, rfl, List.inj_on_of_nodup_map distinct (Store.decl_mem_of_find? found) hc
      (ClassTable.name_of_find? found)⟩

/-- An instance has not the name of a class that is kept. -/
theorem isMadeBefore_of_concrete (distinct : (s.load x).classNames.Nodup) {c : Class}
    (hc : c ∈ (s.load x).concrete.classes) : isMadeBefore (s.indexOf x) c.name = true := by
  obtain ⟨member, concrete⟩ := List.mem_filter.1 hc
  obtain ⟨o, found, rfl⟩ := find?_of_mem distinct member
  rw [isMadeBefore, found, Option.any_some]
  exact concrete

theorem nodup_join (distinct : (s.load x).classNames.Nodup)
    (sound : u.Sound (s.indexOf x) allowed s.size)
    (parts : (s.load x).concrete.Rewritten (s.indexOf x) s.size u z) :
    (u.store.load (u.join z)).classNames.Nodup := by
  have kept := (s.load x).concrete.classNames_mapTypes u.rewrite
  rw [parts.load_join, Module.classNames, Module.addClasses, List.map_append,
    sound.names_instances]
  rw [Module.classNames] at kept
  rw [kept, List.nodup_append]
  refine ⟨distinct.sublist (List.filter_sublist.map _), sound.cache.nodup, ?_⟩
  intro name hname other hother same
  obtain ⟨c, hc, rfl⟩ := List.mem_map.1 hname
  obtain ⟨i, hi, rfl⟩ := List.mem_map.1 hother
  have before := isMadeBefore_of_concrete distinct hc
  rw [same, sound.fresh i hi] at before
  cases before

theorem nodup_of_instantiate (distinct : (s.load x).classNames.Nodup) {y : Module ClassId}
    {s' : Store} (h : (instantiate x).run.run s = (.ok y, s')) :
    (s'.load y).classNames.Nodup := by
  obtain ⟨z, u, sound, parts, linked⟩ :=
    parts_of_instantiate (any_inScope _) (fun _ _ _ _ => trivial) h
  rw [linked.load, Module.mapLeaves, Module.classNames_mapTypes]
  exact nodup_join distinct sound parts

theorem mapLeaves_rewrite (distinct : (u.store.load (u.join z)).classNames.Nodup)
    (sound : u.Sound (s.indexOf x) allowed s.size) {t : TypeExpr}
    (ht : u.Covers (s.indexOf x) t) :
    let find := u.store.firstNamed (u.join z)
    (u.rewrite t).mapLeaves (filled find) = t.instantiated find find := by
  intro find
  rw [Instantiation.rewrite, TypeExpr.instantiated, TypeExpr.mapLeaves_mapAtoms]
  apply TypeExpr.mapAtoms_congr
  intro a ha
  rcases ht a ha with ⟨name, rfl⟩ | ⟨reference, rfl⟩ | ⟨usage, text, htext, -⟩
  · rfl
  · rfl
  · rw [TypeExpr.instantiatedAtom_usage usage htext, TypeExpr.instantiatedAtom_usage usage htext]
    cases target : u.target? text with
    | none => rfl
    | some id =>
      obtain ⟨member, rfl⟩ := Instantiation.join_target sound z target
      have first : find (u.store.read id).name = some id :=
        Store.firstNamed_of_nodup distinct member
      rw [first]
      rfl

end Names

section Shares

variable {s s' : Store} {x y : Module ClassId}

/-- The class that a usage is linked with is there, and it has the text of the usage as name. -/
theorem linked_usage {z : Module ClassId} {u : Instantiation}
    (distinct : (u.store.load (u.join z)).classNames.Nodup)
    (sound : u.Sound (s.indexOf x) (fun _ => True) s.size)
    (parts : (s.load x).concrete.Rewritten (s.indexOf x) s.size u z)
    (linked : u.store.LinksTo (u.join z) s' y) {a : TypeExpr}
    (ha : a ∈ (s.load x).concrete.usages) : ∃ text id, a.canonical = .ok text ∧
      s'.firstNamed y text = some id ∧
        a.instantiated (s'.firstNamed y) (s'.firstNamed y) = .ref ⟨text, some id⟩ := by
  obtain ⟨t, ht, ha⟩ := List.mem_flatMap.1 ha
  have covers := parts.covers t ht
  rw [TypeExpr.usages_eq_filter covers.isLeaf_or_isUsage] at ha
  obtain ⟨atom, usage⟩ := List.mem_filter.1 ha
  obtain ⟨text, htext⟩ : ∃ text, a.canonical = .ok text := by
    rcases covers a atom with ⟨name, rfl⟩ | ⟨reference, rfl⟩ | ⟨-, text, htext, -⟩
    · cases usage
    · cases usage
    · exact ⟨text, htext⟩
  have found : ∃ id, s'.firstNamed y text = some id := by
    rw [linked.firstNamed]
    cases target : u.target? text with
    | some id =>
      obtain ⟨member, rfl⟩ := Instantiation.join_target sound z target
      exact ⟨id, Store.firstNamed_of_nodup distinct member⟩
    | none =>
      -- the reference was empty before linking, and linking did not stop at it
      have empty : .ref ⟨text, none⟩ ∈ (u.rewrite t).subterms := by
        apply TypeExpr.subterms_subset_mapAtoms atom
        rw [TypeExpr.instantiatedAtom_usage usage htext, target]
        exact List.mem_cons_self
      have leaf : .ref ⟨text, none⟩ ∈ (u.store.load (u.join z)).leaves := by
        rw [parts.load_join, Module.leaves, Module.types_addClasses, Module.types_mapTypes]
        exact List.mem_flatMap.2 ⟨u.rewrite t, List.mem_append_left _ (List.mem_map.2 ⟨t, ht, rfl⟩),
          List.mem_filter.2 ⟨empty, rfl⟩⟩
      have complete := linked.complete _ leaf
      cases first : u.store.firstNamed (u.join z) text with
      | some id => exact ⟨id, rfl⟩
      | none => simp [lacking?, first] at complete
  obtain ⟨id, found⟩ := found
  refine ⟨text, id, htext, found, ?_⟩
  rw [TypeExpr.instantiated_usage usage htext, found]

/-- When the classes of a module have different names, instantiation keeps it so, and replaces every
usage by a reference that is linked with the class of its text; so two outermost usages are linked
with one class if and only if they have one text. -/
theorem instantiate_shares (distinct : (s.load x).classNames.Nodup)
    (h : (instantiate x).run.run s = (.ok y, s')) :
    let replaced := TypeExpr.instantiated (s'.firstNamed y) (s'.firstNamed y)
    (s'.load y).classNames.Nodup ∧
    (∃ made, s'.load y = ((s.load x).concrete.mapTypes replaced).addClasses made) ∧
    ∀ u ∈ (s.load x).concrete.usages, ∀ v ∈ (s.load x).concrete.usages,
      ∃ q r : Reference, replaced u = .ref q ∧ replaced v = .ref r ∧ q.isLinked ∧ r.isLinked ∧
        (q.target = r.target ↔ ∃ text, u.canonical = .ok text ∧ v.canonical = .ok text) := by
  intro replaced
  obtain ⟨z, u, sound, parts, linked⟩ :=
    parts_of_instantiate (any_inScope _) (fun _ _ _ _ => trivial) h
  have joined := nodup_join distinct sound parts
  have rewritten : ∀ t ∈ (s.load x).concrete.types,
      (u.rewrite t).mapLeaves (filled (u.store.firstNamed (u.join z))) = replaced t := by
    intro t ht
    rw [mapLeaves_rewrite joined sound (parts.covers t ht), ← linked.firstNamed]
  refine ⟨?_, ?_, ?_⟩
  · have names : (s'.load y).classNames = (u.store.load (u.join z)).classNames := by
      rw [linked.load, Module.classNames, Module.mapLeaves, Module.mapTypes, List.map_map]
      rfl
    rw [names]
    exact joined
  · refine ⟨u.instances.map (Class.mapLeaves (filled (u.store.firstNamed (u.join z)))), ?_⟩
    rw [linked.load, parts.load_join, Module.mapLeaves, Module.mapTypes_addClasses,
      Module.mapTypes_mapTypes, Module.mapTypes_congr rewritten]
    rfl
  · intro a ha b hb
    obtain ⟨text, i, htext, hi, image⟩ := linked_usage joined sound parts linked ha
    obtain ⟨text', j, htext', hj, image'⟩ := linked_usage joined sound parts linked hb
    refine ⟨_, _, image, image', rfl, rfl, ?_⟩
    constructor
    · intro same
      cases same
      obtain ⟨-, name⟩ := Store.firstNamed_eq_some hi
      obtain ⟨-, name'⟩ := Store.firstNamed_eq_some hj
      exact ⟨text, htext, by rw [htext', ← name', name]⟩
    · rintro ⟨shared, hshared, hshared'⟩
      rw [htext] at hshared
      rw [htext'] at hshared'
      cases hshared
      cases hshared'
      rw [hi] at hj
      exact hj

private def twins : Module Class where
  constants := [⟨"left", .container (.unlinked "Box") .universal⟩,
    ⟨"right", .union [.generic (.unlinked "Box") [.universal]]⟩]
  classes := [
    { name := "Box", template := [⟨"T", .universal⟩], constants := [⟨"item", .named "T"⟩] }]

theorem instantiate_shares_twins :
    let held := Store.hold {} twins
    ∃ y s', (instantiate held.1).run.run held.2 = (.ok y, s') ∧
      let replaced := TypeExpr.instantiated (s'.firstNamed y) (s'.firstNamed y)
      (s'.load y).classNames.Nodup ∧ ∃ q r : Reference,
        replaced (.container (.unlinked "Box") .universal) = .ref q ∧
          replaced (.generic (.unlinked "Box") [.universal]) = .ref r ∧ q.target = r.target := by
  intro held
  have succeeds : ((instantiate held.1).run.run held.2).1.isOk = true := by decide +kernel
  have distinct : (held.2.load held.1).classNames.Nodup := by
    rw [Store.load_hold]
    decide
  have usages : (held.2.load held.1).concrete.usages =
      [.container (.unlinked "Box") .universal, .generic (.unlinked "Box") [.universal]] := by
    rw [Store.load_hold]
    rfl
  rcases run : (instantiate held.1).run.run held.2 with ⟨fault | y, s'⟩ <;> rw [run] at succeeds
  · cases succeeds
  · obtain ⟨nodup, -, shares⟩ := instantiate_shares distinct run
    rw [usages] at shares
    obtain ⟨q, r, left, right, -, -, same⟩ := shares (.container (.unlinked "Box") .universal)
      (by simp) (.generic (.unlinked "Box") [.universal]) (by simp)
    exact ⟨y, s', rfl, nodup, q, r, left, right, same.2 ⟨"Box<object>", rfl, rfl⟩⟩

end Shares
end InterfaceTree
