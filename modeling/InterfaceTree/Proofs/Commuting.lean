import InterfaceTree.Proofs.Closed
import InterfaceTree.Proofs.Lockstep
import InterfaceTree.Proofs.Sharing

/-!
# Resolution and instantiation commute

The two runs of instantiation go in step, so the modules that they make differ in nothing that
resolution changes.
-/
namespace InterfaceTree

open Linking

section Referred

variable {x x' : Module Class}

theorem Module.referred_eq_mapScoped (x : Module Class) :
    x.referred = x.mapScoped fun _ => referredLeaf [] := rfl

theorem Module.leaves_referred (x : Module Class) :
    x.referred.leaves = x.leaves.map (referredLeaf []) := by
  rw [leaves, referred, types_mapTypes, List.flatMap_map, leaves, List.map_flatMap]
  exact List.flatMap_congr fun t _ => TypeExpr.leaves_mapLeaves _ (referredLeaf_isLeaf []) t

theorem Module.classNames_referred (x : Module Class) : x.referred.classNames = x.classNames :=
  classNames_mapTypes _ x

theorem Module.referred_concrete (x : Module Class) :
    x.concrete.referred = x.referred.concrete := by
  simp only [referred, concrete, mapTypes, List.filter_map, Function.comp_def,
    Class.isGeneric_mapTypes]

theorem Module.referred_addClasses (x : Module Class) (cs : List Class) :
    (x.addClasses cs).referred = x.referred.addClasses (cs.map Class.referred) :=
  mapTypes_addClasses _ x cs

theorem Module.referred_filled (find : String → Option ClassId) (x : Module Class) :
    (x.mapLeaves (filled find)).referred = x.referred := by
  rw [mapLeaves, referred, mapTypes_mapTypes, referred]
  congr 1
  funext t
  rw [TypeExpr.referred, TypeExpr.mapLeaves_mapLeaves]
  apply TypeExpr.mapLeaves_congr
  intro u hu
  have leaf := TypeExpr.isLeaf_of_mem_leaves hu
  rw [TypeExpr.mapLeaves_of_isLeaf (filled_isLeaf find u leaf)]
  rcases u with name | ⟨name, _ | id⟩ | _ | _ | _ | _ <;> rfl

theorem Module.referred_resolved (target : String → ClassId) (x : Module Class) :
    (x.mapScoped fun params t => t.resolvedLeaf target params).referred = x.referred := by
  simp only [referred, mapScoped, mapTypes, List.map_map, Function.comp_def, Constant.mapLeaves,
    Function.mapLeaves, Class.mapLeaves, Constant.mapTypes_mapTypes, Function.mapTypes_mapTypes,
    Class.mapTypes_mapTypes, TypeExpr.referred_resolved]

end Referred

section Resolve

variable {s s' : Store} {x y : Module ClassId}

theorem referred_of_resolve (h : (resolve x).run.run s = (.ok y, s')) :
    (s'.load y).referred = (s.load x).referred := by
  obtain ⟨target, -, load⟩ := load_of_resolve h
  rw [load, Module.referred_resolved]

theorem ok_of_wanted
    (h : ∀ name ∈ (s.load x).wanted, ∃ c ∈ (s.load x).classes, c.name = name) :
    ∃ y s', (resolve x).run.run s = (.ok y, s') := by
  have missing := no_missing_iff s x
  rw [← missing_staged] at missing
  rw [run_resolve, run_linkAll, missing.2 h]
  exact ⟨_, _, rfl⟩

/-- What resolution makes of a module without generic classes: no name is in the scope of a
parameter. -/
private theorem load_of_resolve_concrete (concrete : ∀ c ∈ (s.load x).classes, c.template = [])
    (h : (resolve x).run.run s = (.ok y, s')) :
    s'.load y = (s.load x).referred.mapLeaves (filled (s'.firstNamed y)) := by
  obtain ⟨target, found, load⟩ := load_of_resolve h
  rw [load, Module.referred_eq_mapScoped, Module.mapLeaves_mapScoped]
  apply Module.mapScoped_congr
  rintro ⟨params, u⟩ hp
  have scope : params = [] := by
    simp only [Module.scopedLeaves, List.mem_append, List.mem_flatMap, List.mem_map] at hp
    rcases hp with (⟨c, -, v, -, same⟩ | ⟨f, -, v, -, same⟩) | ⟨c, hc, v, -, same⟩
    · exact (Prod.mk.inj same).1.symm
    · exact (Prod.mk.inj same).1.symm
    · rw [← (Prod.mk.inj same).1, Class.parameterNames, concrete c hc, List.map_nil]
  have leaf := Module.isLeaf_of_mem_scopedLeaves hp
  dsimp only at leaf ⊢
  rw [TypeExpr.mapLeaves_of_isLeaf (referredLeaf_isLeaf [] u leaf), TypeExpr.resolvedLeaf,
    referredLeaf, scope]
  cases wants : u.wanted? [] with
  | some name =>
    rw [← scope] at wants
    have member : name ∈ (s.load x).wanted := List.mem_filterMap.2 ⟨_, hp, wants⟩
    simp [filled, found name member]
  | none =>
    cases u with
    | named name => rfl
    | ref reference => cases wants
    | _ => cases leaf

end Resolve

section Linked

variable {s s' : Store} {x y : Module ClassId}

/-- A leaf is the universal type, or it is linked with the first class of its name. -/
def Store.Linked (s : Store) (x : Module ClassId) (u : TypeExpr) : Prop :=
  u = .universal ∨ ∃ name id, u = .linked name id ∧ s.firstNamed x name = some id

theorem linked_of_instantiate (distinct : (s.load x).classNames.Nodup) {s₀ : Store}
    {x₀ : Module ClassId} (resolved : (resolve x₀).run.run s₀ = (.ok x, s))
    (h : (instantiate x).run.run s = (.ok y, s')) :
    (s'.load y).classNames.Nodup ∧ ∀ u ∈ (s'.load y).leaves, s'.Linked y u := by
  obtain ⟨inScope, names⟩ := names_of_resolve resolved rfl
  have distinct' := nodup_of_instantiate distinct h
  refine ⟨distinct', fun u hu => ?_⟩
  obtain ⟨t, ht, hu⟩ := List.mem_flatMap.1 hu
  obtain ⟨inside, leaf⟩ := List.mem_filter.1 hu
  have closed := closed_of_instantiate inScope names h ht inside
  cases u with
  | named name => exact .inl (congrArg TypeExpr.named closed)
  | ref reference =>
    obtain ⟨name, target⟩ := reference
    obtain ⟨id, hid, rfl, rfl⟩ := closed
    exact .inr ⟨_, id, rfl, Store.firstNamed_of_nodup distinct' hid⟩
  | _ => cases leaf

private theorem firstNamed_of_linked (linked : ∀ u ∈ (s.load x).leaves, s.Linked x u)
    {name : String} (h : .unlinked name ∈ (s.load x).referred.leaves) :
    ∃ id, s.firstNamed x name = some id := by
  rw [Module.leaves_referred] at h
  obtain ⟨u, hu, image⟩ := List.mem_map.1 h
  rcases linked u hu with rfl | ⟨own, id, rfl, found⟩
  · cases image
  · cases image
    exact ⟨id, found⟩

theorem Store.firstNamed_ne_none_iff {name : String} :
    s.firstNamed x name ≠ none ↔ name ∈ (s.load x).classNames := by
  simp [firstNamed_eq_none_iff, Module.classNames]

theorem Store.classNames_load (s : Store) (x : Module ClassId) :
    (s.load x).classNames = x.classes.map fun id => (s.read id).name := by
  rw [Module.classNames, load, Module.mapClasses, List.map_map]
  rfl

end Linked

section Tables

variable {s s' : Store} {x x' : Module ClassId}

private theorem find?_indexOf_referred (s : Store) (x : Module ClassId) (name : String) :
    (ClassTable.find? (s.indexOf x) name).map (·.decl.referred) =
      (s.load x).referred.classes.find? (·.name == name) := by
  rw [Store.find?_indexOf, findObject?, Store.objectsOf, List.find?_map, Module.referred,
    Module.mapTypes, Store.load, Module.mapClasses, List.find?_map, List.find?_map, Option.map_map,
    Option.map_map]
  rfl

theorem tablesAlike_indexOf (same : (s'.load x').referred = (s.load x).referred) :
    TablesAlike (s.indexOf x) (s'.indexOf x') := by
  intro name
  rw [find?_indexOf_referred, find?_indexOf_referred, same]

/-- When instantiation succeeds for a module, the walk over a module that differs in nothing that
resolution changes succeeds too, and so does what comes of it. -/
private theorem copied_of_instantiate {y : Module ClassId} {t : Store}
    (same : (s'.load x').referred = (s.load x).referred)
    (h : (instantiate x).run.run s = (.ok y, t)) : ∃ z u,
      s'.instantiateParts x' = (.ok z, u) ∧
        (u.store.load (u.join z)).referred = (t.load y).referred := by
  obtain ⟨z, u, walk, linked⟩ := walk_of_instantiate h
  have start : Instantiation.Sound (s.indexOf x) (fun _ => True) s.size { store := s } :=
    Instantiation.sound_start s
  have start' : Instantiation.Sound (s'.indexOf x') (fun _ => True) s'.size { store := s' } :=
    Instantiation.sound_start s'
  have concrete : (s'.load x').concrete.referred = (s.load x).concrete.referred := by
    rw [Module.referred_concrete, same, Module.referred_concrete]
  obtain ⟨z', u', walk', alike⟩ := walk.copied (tablesAlike_indexOf same) start start' rfl concrete
  obtain ⟨-, parts⟩ := walk.keeps (any_inScope _) (fun _ _ _ _ => trivial) start
  obtain ⟨-, parts'⟩ := walk'.keeps (any_inScope _) (fun _ _ _ _ => trivial) start'
  refine ⟨z', u', walksModule_iff_gives.1 walk', ?_⟩
  rw [linked.load, Module.referred_filled, parts.load_join, parts'.load_join,
    Module.referred_addClasses, Module.referred_addClasses, Module.referred_rewrite parts.covers,
    Module.referred_rewrite parts'.covers, concrete, alike]

end Tables

section Commute

def TypeExpr.retarget (rename : ClassId → ClassId) (u : TypeExpr) : TypeExpr :=
  match u with
  | .ref reference => .ref { reference with target := reference.target.map rename }
  | u => u

variable {s s₁ s' : Store} {x x₁ y : Module ClassId}

/-- The class of the same name in the other module. -/
def counterpart (s : Store) (t : Store) (z : Module ClassId) (id : ClassId) : ClassId :=
  (t.firstNamed z (s.read id).name).getD 0

theorem firstNamed_counterpart {t : Store} {z : Module ClassId}
    (names : (s'.load y).classNames ⊆ (t.load z).classNames) {id : ClassId} (hid : id ∈ y.classes) :
    t.firstNamed z (s'.read id).name = some (counterpart s' t z id) := by
  have member : (s'.read id).name ∈ (t.load z).classNames := by
    apply names
    rw [Store.classNames_load]
    exact List.mem_map.2 ⟨id, hid, rfl⟩
  obtain ⟨other, found⟩ := Option.ne_none_iff_exists'.1 (Store.firstNamed_ne_none_iff.2 member)
  rw [counterpart, found, Option.getD_some]

theorem classes_eq_map_counterpart {t : Store} {z : Module ClassId}
    (distinct : (t.load z).classNames.Nodup)
    (names : (t.load z).classNames = (s'.load y).classNames) :
    z.classes = y.classes.map (counterpart s' t z) := by
  have own : z.classes.map (fun id => (t.firstNamed z (t.read id).name).getD 0) = z.classes := by
    conv_rhs => rw [← List.map_id z.classes]
    apply List.map_congr_left
    intro id hid
    rw [Store.firstNamed_of_nodup distinct hid]
    rfl
  rw [Store.classNames_load, Store.classNames_load] at names
  have images := congrArg (List.map fun name => (t.firstNamed z name).getD 0) names
  rw [List.map_map, List.map_map] at images
  exact own.symm.trans images

private theorem mem_classNames_of_linked (linked : ∀ u ∈ (s'.load y).leaves, s'.Linked y u)
    {m : Module Class} (same : m.referred = (s'.load y).referred) {name : String}
    (h : .unlinked name ∈ m.referred.leaves) : name ∈ m.classNames := by
  rw [same] at h
  obtain ⟨id, found⟩ := firstNamed_of_linked linked h
  rw [← Module.classNames_referred, same, Module.classNames_referred,
    ← Store.firstNamed_ne_none_iff, found]
  exact Option.some_ne_none id

private theorem instantiate_of_resolved (same : (s.load x).referred = (s₁.load x₁).referred)
    (instantiated : (instantiate x₁).run.run s₁ = (.ok y, s'))
    (linked : ∀ u ∈ (s'.load y).leaves, s'.Linked y u) :
    ∃ x₂ s₂, (instantiate x).run.run s = (.ok x₂, s₂) ∧
      (s₂.load x₂).referred = (s'.load y).referred := by
  obtain ⟨m, u, walked, joined⟩ := copied_of_instantiate same instantiated
  obtain ⟨x₂, s₂, link⟩ : ∃ x₂ s₂, (linkAll (u.join m)).run.run u.store = (.ok x₂, s₂) := by
    apply ok_of_linkAll
    intro v hv
    rcases v with name | ⟨name, _ | id⟩ | _ | _ | _ | _
    case ref.none =>
      have wanted : .unlinked name ∈ (u.store.load (u.join m)).referred.leaves := by
        rw [Module.leaves_referred]
        exact List.mem_map.2 ⟨_, hv, rfl⟩
      simp [lacking?,
        Store.firstNamed_ne_none_iff.2 (mem_classNames_of_linked linked joined wanted)]
    all_goals rfl
  refine ⟨x₂, s₂, ?_, ?_⟩
  · rw [run_instantiate, walked]
    exact link
  · rw [(linksTo_of_linkAll link).load, Module.referred_filled, joined]

/-- Linking the names of a module whose leaves are linked with the classes of another, which has the
same class names, renames the targets. -/
private theorem filled_referred_of_linked {t : Store} {z : Module ClassId}
    (linked : ∀ u ∈ (s'.load y).leaves, s'.Linked y u)
    (names : (t.load z).classNames = (s'.load y).classNames) :
    (s'.load y).referred.mapLeaves (filled (t.firstNamed z)) =
      (s'.load y).mapLeaves (TypeExpr.retarget (counterpart s' t z)) := by
  rw [Module.referred, Module.mapLeaves, Module.mapTypes_mapTypes, Module.mapLeaves]
  apply Module.mapTypes_congr
  intro type htype
  rw [TypeExpr.referred, TypeExpr.mapLeaves_mapLeaves]
  apply TypeExpr.mapLeaves_congr
  intro v hv
  rcases linked v (List.mem_flatMap.2 ⟨type, htype, hv⟩) with rfl | ⟨name, id, rfl, found⟩
  · rfl
  · obtain ⟨hid, rfl⟩ := Store.firstNamed_eq_some found
    exact congrArg (fun target => TypeExpr.ref ⟨_, target⟩)
      (firstNamed_counterpart (fun _ h => names ▸ h) hid)

/-- When a module with distinct class names can be resolved and then instantiated, it can be
instantiated and then resolved, and the result is the same but for the identities of the classes:
the classes of one, in order, are those of the other renamed, and so are the targets of
references. -/
theorem instantiate_resolve_comm (distinct : (s.load x).classNames.Nodup)
    (resolved : (resolve x).run.run s = (.ok x₁, s₁))
    (instantiated : (instantiate x₁).run.run s₁ = (.ok y, s')) :
    ∃ x₂ s₂ z t, (instantiate x).run.run s = (.ok x₂, s₂) ∧
      (resolve x₂).run.run s₂ = (.ok z, t) ∧ ∃ rename : ClassId → ClassId,
        z.classes = y.classes.map rename ∧
        (∀ i ∈ y.classes, ∀ j ∈ y.classes, rename i = rename j → i = j) ∧
        (∀ reference, .ref reference ∈ (s'.load y).leaves →
          ∃ id ∈ y.classes, reference.target = some id) ∧
        t.load z = (s'.load y).mapLeaves (TypeExpr.retarget rename) := by
  have same₁ := referred_of_resolve resolved
  have distinct₁ : (s₁.load x₁).classNames.Nodup := by
    rwa [← Module.classNames_referred, same₁, Module.classNames_referred]
  obtain ⟨unique, linked⟩ := linked_of_instantiate distinct₁ resolved instantiated
  -- instantiation goes the same way without resolution, and what it makes can be resolved
  obtain ⟨x₂, s₂, instantiated₂, same₂⟩ :=
    instantiate_of_resolved same₁.symm instantiated linked
  obtain ⟨z, t, resolved₂⟩ : ∃ z t, (resolve x₂).run.run s₂ = (.ok z, t) := by
    apply ok_of_wanted
    intro name hname
    obtain ⟨p, hp, wants⟩ := List.mem_filterMap.1 hname
    refine List.mem_map.1 (mem_classNames_of_linked linked same₂ ?_)
    rw [Module.referred_eq_mapScoped, Module.leaves_mapScoped fun _ => referredLeaf_isLeaf []]
    exact List.mem_map.2 ⟨p, hp, referredLeaf_of_wanted wants⟩
  have load := load_of_resolve_concrete
    (fun c hc => template_of_instantiate instantiated₂ hc) resolved₂
  have names : (t.load z).classNames = (s'.load y).classNames := by
    rw [← Module.classNames_referred, referred_of_resolve resolved₂, same₂,
      Module.classNames_referred]
  have unique' : (t.load z).classNames.Nodup := by rwa [names]
  have classes := classes_eq_map_counterpart unique' names
  refine ⟨x₂, s₂, z, t, instantiated₂, resolved₂, counterpart s' t z, classes, ?_, ?_, ?_⟩
  · intro i hi j hj same
    rw [Store.classNames_load, classes, List.map_map] at unique'
    exact List.inj_on_of_nodup_map unique' hi hj (congrArg (fun id => (t.read id).name) same)
  · intro reference hr
    rcases linked _ hr with universal | ⟨name, id, target, found⟩
    · cases universal
    · cases target
      exact ⟨id, (Store.firstNamed_eq_some found).1, rfl⟩
  · rw [load, same₂]
    exact filled_referred_of_linked linked names

private def packed : Module Class where
  constants := [⟨"box", .container (.named "Box") (.named "P")⟩]
  classes := [
    { name := "Box", template := [⟨"T", .universal⟩],
      constants := [⟨"item", .named "T"⟩, ⟨"owner", .named "P"⟩] },
    { name := "P", constants := [⟨"box", .container (.named "Box") (.unlinked "P")⟩] }]

theorem instantiate_resolve_comm_packed :
    let held := Store.hold {} packed
    ∃ x₁ s₁ y s', (resolve held.1).run.run held.2 = (.ok x₁, s₁) ∧
      (instantiate x₁).run.run s₁ = (.ok y, s') ∧
      ∃ x₂ s₂ z t, (instantiate held.1).run.run held.2 = (.ok x₂, s₂) ∧
        (resolve x₂).run.run s₂ = (.ok z, t) ∧ ∃ rename : ClassId → ClassId,
          z.classes = y.classes.map rename ∧
            t.load z = (s'.load y).mapLeaves (TypeExpr.retarget rename) := by
  intro held
  have distinct : (held.2.load held.1).classNames.Nodup := by
    rw [Store.load_hold]
    decide
  have succeeds : (match (resolve held.1).run.run held.2 with
      | (.ok x, s) => ((instantiate x).run.run s).1.isOk
      | (.error _, _) => false) = true := by
    decide +kernel
  rcases resolved : (resolve held.1).run.run held.2 with ⟨fault | x₁, s₁⟩ <;>
    rw [resolved] at succeeds
  · cases succeeds
  · rcases instantiated : (instantiate x₁).run.run s₁ with ⟨fault | y, s'⟩ <;>
      simp only [instantiated] at succeeds
    · cases succeeds
    · obtain ⟨x₂, s₂, z, t, first, second, rename, classes, -, -, load⟩ :=
        instantiate_resolve_comm distinct resolved instantiated
      exact ⟨x₁, s₁, y, s', rfl, instantiated, x₂, s₂, z, t, first, second, rename, classes, load⟩

end Commute
end InterfaceTree
