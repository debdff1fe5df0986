import Mathlib.Data.List.Find
import InterfaceTree.Proofs.Matching

/-! # Modules that correspond -/
namespace InterfaceTree

open Linking

section Images

structure LeavesAlone (k : TypeExpr → TypeExpr) : Prop where
  leaves : ∀ t, (k t).leaves = t.leaves
  mapLeaves : ∀ g t, (∀ u : TypeExpr, u.isLeaf = true → (g u).isLeaf = true) →
    k (t.mapLeaves g) = (k t).mapLeaves g

theorem leavesAlone_id : LeavesAlone fun t => t := ⟨fun _ => rfl, fun _ _ _ => rfl⟩

theorem leavesAlone_contained : LeavesAlone TypeExpr.contained where
  leaves := TypeExpr.leaves_contained
  mapLeaves g t hg := by
    rw [TypeExpr.contained_mapLeaves]
    apply TypeExpr.mapLeaves_congr
    intro u hu
    exact TypeExpr.contained_of_isLeaf (hg u (TypeExpr.isLeaf_of_mem_leaves hu))

/-- The second module is made of the first by changing its types and renaming its classes. -/
structure Store.Images (k : TypeExpr → TypeExpr) (rename : ClassId → ClassId) (s : Store)
    (x : Module ClassId) (t : Store) (y : Module ClassId) : Prop where
  classes : y.classes = x.classes.map rename
  load : t.load y = ((s.load x).mapTypes k).mapLeaves (TypeExpr.retarget rename)

namespace Store.Images

variable {k : TypeExpr → TypeExpr} {rename : ClassId → ClassId} {s t : Store}
  {x y : Module ClassId} (h : s.Images k rename x t y)
include h

theorem read : ∀ id ∈ x.classes,
    t.read (rename id) = ((s.read id).mapTypes k).mapLeaves (TypeExpr.retarget rename) := by
  have classes := congrArg Module.classes h.load
  simp only [Store.load, Module.mapClasses, Module.mapLeaves_eq, Module.mapTypes, h.classes,
    List.map_map] at classes
  exact List.map_inj_left.1 classes

theorem name : ∀ id ∈ x.classes, (t.read (rename id)).name = (s.read id).name := by
  intro id hid
  rw [h.read id hid]
  rfl

theorem firstNamed (name : String) :
    t.firstNamed y name = (s.firstNamed x name).map rename := by
  rw [Store.firstNamed, h.classes, List.find?_map, Store.firstNamed]
  congr 1
  apply List.find?_congr
  intro id hid
  rw [Function.comp_apply, h.name id hid]

theorem lacking?_retarget (u : TypeExpr) :
    lacking? (t.firstNamed y) (u.retarget rename) = lacking? (s.firstNamed x) u := by
  rcases u with _ | ⟨name, _ | id⟩ | _ | _ | _ | _ <;> try rfl
  simp [TypeExpr.retarget, lacking?, h.firstNamed]

theorem filled_retarget (u : TypeExpr) :
    filled (t.firstNamed y) (u.retarget rename) = (filled (s.firstNamed x) u).retarget rename := by
  rcases u with _ | ⟨name, _ | id⟩ | _ | _ | _ | _ <;> try rfl
  simp [TypeExpr.retarget, filled, h.firstNamed]

theorem missing_linkOwn (alone : LeavesAlone k) :
    (t.linkOwn y).2.missing = (s.linkOwn x).2.missing := by
  have leaf : ∀ u : TypeExpr, u.isLeaf = true → (u.retarget rename).isLeaf = true :=
    fun u hu => by rw [TypeExpr.isLeaf_retarget, hu]
  have leaves : (t.load y).leaves = (s.load x).leaves.map (TypeExpr.retarget rename) := by
    simp only [h.load, Module.mapLeaves, Module.leaves, Module.types_mapTypes, List.flatMap_map,
      List.map_flatMap, TypeExpr.leaves_mapLeaves _ leaf, alone.leaves]
  rw [Store.linkOwn, Store.id?_indexOf, Store.missing_link, Store.linkOwn, Store.id?_indexOf,
    Store.missing_link, leaves, List.findSome?_map]
  congr 1
  funext u
  exact h.lacking?_retarget u

/-- Linking fails in both or makes modules of which one is the image of the other again. -/
theorem linkAll (alone : LeavesAlone k) :
    EndAlike (fun x' s' y' t' => s'.Images k rename x' t' y')
      ((InterfaceTree.linkAll x).run.run s) ((InterfaceTree.linkAll y).run.run t) := by
  have missing := h.missing_linkOwn alone
  cases lacks : (s.linkOwn x).2.missing with
  | some name =>
    rw [run_linkAll, run_linkAll, missing, lacks]
    rfl
  | none =>
    have run : (InterfaceTree.linkAll x).run.run s =
        (.ok (s.linkOwn x).1, (s.linkOwn x).2.store) := by
      rw [run_linkAll, lacks]
    have run' : (InterfaceTree.linkAll y).run.run t =
        (.ok (t.linkOwn y).1, (t.linkOwn y).2.store) := by
      rw [run_linkAll, missing, lacks]
    have linked := linksTo_of_linkAll run
    have linked' := linksTo_of_linkAll run'
    rw [run, run']
    refine ⟨by rw [linked'.classes, h.classes, linked.classes], ?_⟩
    rw [linked'.load, h.load, linked.load]
    simp only [Module.mapLeaves, Module.mapTypes_mapTypes]
    apply Module.mapTypes_congr
    intro u _
    rw [alone.mapLeaves _ _ (filled_isLeaf _), TypeExpr.mapLeaves_mapLeaves,
      TypeExpr.mapLeaves_mapLeaves]
    apply TypeExpr.mapLeaves_congr
    intro v hv
    have leaf := TypeExpr.isLeaf_of_mem_leaves hv
    rw [TypeExpr.mapLeaves_of_isLeaf (by rw [TypeExpr.isLeaf_retarget, leaf]), h.filled_retarget,
      TypeExpr.mapLeaves_of_isLeaf (filled_isLeaf _ v leaf)]

end Store.Images
end Images

section Corresponds

/-- The second module is what a change makes of the first, but for the identities of the classes: in
order, its classes are those of the first renamed, and so are the targets of the references, all of
which are linked inside. -/
def Store.Corresponds (change : Module Class → Module Class) (s : Store) (x : Module ClassId)
    (t : Store) (y : Module ClassId) : Prop :=
  ∃ rename, s.Renames x t y rename ∧
    (∀ reference, .ref reference ∈ (s.load x).leaves →
      ∃ id ∈ x.classes, reference.target = some id) ∧
    t.load y = (change (s.load x)).mapLeaves (TypeExpr.retarget rename)

theorem Store.Images.corresponds {k : TypeExpr → TypeExpr} {s t : Store} {x y : Module ClassId}
    {first first' : ClassId} (h : s.Images k (shift first first') x t y)
    (new : ∀ id ∈ x.classes, first ≤ id)
    (inside : ∀ reference, .ref reference ∈ (s.load x).leaves →
      ∃ id ∈ x.classes, reference.target = some id) :
    s.Corresponds (Module.mapTypes k) x t y := by
  refine ⟨shift first first', ⟨h.classes, ?_, h.name⟩, inside, h.load⟩
  intro i hi j hj same
  have gaps : i - first = j - first := Nat.add_left_cancel same
  rw [← Nat.sub_add_cancel (new i hi), gaps, Nat.sub_add_cancel (new j hj)]

end Corresponds

section References

/-- A change of types goes past `mapScoped` when it goes past what is done to leaves in each
scope. -/
theorem Module.mapScoped_mapTypes {g : List String → TypeExpr → TypeExpr}
    {k : TypeExpr → TypeExpr} (k' : TypeExpr → TypeExpr)
    (h : ∀ params t, (k t).mapLeaves (g params) = k' (t.mapLeaves (g params))) (x : Module Class) :
    (x.mapTypes k).mapScoped g = (x.mapScoped g).mapTypes k' := by
  simp only [mapScoped, mapTypes, List.map_map, Function.comp_def, Class.parameterNames_mapTypes,
    Constant.mapLeaves, Function.mapLeaves, Class.mapLeaves, Constant.mapTypes_mapTypes,
    Function.mapTypes_mapTypes, Class.mapTypes_mapTypes, h]

theorem Module.withReferences_detached (x : Module Class) :
    x.detached.withReferences = x.withReferences := by
  have same (params : List String) (t : TypeExpr) :
      t.detached.mapLeaves (referredLeaf params) = t.mapLeaves (referredLeaf params) := by
    rw [TypeExpr.detached, TypeExpr.mapLeaves_mapLeaves]
    apply TypeExpr.mapLeaves_congr
    intro u hu
    have leaf := TypeExpr.isLeaf_of_mem_leaves hu
    rw [TypeExpr.mapLeaves_of_isLeaf (by rw [TypeExpr.isLeaf_detachedLeaf, leaf])]
    cases u <;> rfl
  rw [withReferences_eq, withReferences_eq, detached,
    mapScoped_mapTypes (fun t => t) same, mapTypes_id]

end References

section Resolve

theorem linked_of_resolve {s s' : Store} {x y : Module ClassId}
    (h : (resolve x).run.run s = (.ok y, s')) {reference : Reference}
    (leaf : .ref reference ∈ (s'.load y).leaves) :
    ∃ id ∈ y.classes, reference.target = some id := by
  obtain ⟨target, found, load⟩ := load_of_resolve h
  rw [load, Module.leaves_mapScoped (TypeExpr.resolvedLeaf_isLeaf target)] at leaf
  obtain ⟨⟨params, u⟩, inside, image⟩ := List.mem_map.1 leaf
  dsimp only at image
  rw [TypeExpr.resolvedLeaf] at image
  cases wants : u.wanted? params with
  | some name =>
    rw [wants] at image
    cases image
    have wanted : name ∈ (s.load x).wanted := List.mem_filterMap.2 ⟨_, inside, wants⟩
    exact ⟨_, (Store.firstNamed_eq_some (found name wanted)).1, rfl⟩
  | none =>
    rw [wants] at image
    cases image
    cases wants

theorem retarget_referredLeaf (rename : ClassId → ClassId) (params : List String) (u : TypeExpr) :
    (referredLeaf params u).retarget rename = referredLeaf params u := by
  rw [referredLeaf]
  cases wants : u.wanted? params with
  | some name => rfl
  | none => cases u <;> first | rfl | cases wants

variable {k : TypeExpr → TypeExpr} (alone : LeavesAlone k)
include alone

theorem Module.retarget_withReferences (rename : ClassId → ClassId) (x : Module Class) :
    (x.withReferences.mapTypes k).mapLeaves (TypeExpr.retarget rename) =
      x.withReferences.mapTypes k := by
  apply mapLeaves_eq_self
  intro u hu
  rw [leaves, types_mapTypes, List.flatMap_map] at hu
  simp only [alone.leaves] at hu
  replace hu : u ∈ x.withReferences.leaves := hu
  rw [withReferences_eq, leaves_mapScoped referredLeaf_isLeaf] at hu
  obtain ⟨p, -, rfl⟩ := List.mem_map.1 hu
  exact retarget_referredLeaf rename p.1 p.2

variable {s t : Store} {x x' : Module ClassId}
  (references : (t.load x').withReferences = (s.load x).withReferences.mapTypes k)
include references

theorem images_staged :
    (staged s x).2.Images k (shift s.size t.size) (staged s x).1
      (staged t x').2 (staged t x').1 := by
  have lengths : (t.load x').withReferences.classes.length =
      (s.load x).withReferences.classes.length := by
    rw [references, Module.mapTypes, List.length_map]
  refine ⟨?_, ?_⟩
  · rw [staged, staged, Store.hold, Store.hold, lengths]
    simp only [List.range'_eq_map_range, List.map_map, Function.comp_def, shift_add]
  · rw [staged, staged, Store.load_hold, Store.load_hold, references]
    exact (Module.retarget_withReferences alone _ _).symm

/-- When one module with references for names is a change of the other, they are resolved with the
same fault, or to modules that correspond. -/
theorem resolve_corresponds :
    EndAlike (fun y s' y' t' => s'.Corresponds (Module.mapTypes k) y t' y')
      ((resolve x).run.run s) ((resolve x').run.run t) := by
  have images : EndAlike (fun y s' y' t' => s'.Images k (shift s.size t.size) y t' y')
      ((resolve x).run.run s) ((resolve x').run.run t) := by
    rw [run_resolve, run_resolve]
    exact (images_staged alone references).linkAll alone
  refine images.imp fun y s' y' t' run _ h => ?_
  exact h.corresponds (fun id hid => (new_of_resolve run id hid).1)
    fun reference leaf => linked_of_resolve run leaf

end Resolve

section Instantiate

theorem Module.outline_concrete (m : Module Class) : m.concrete.outline = m.outline.concrete := by
  simp only [outline, concrete, mapTypes, List.filter_map, Function.comp_def,
    Class.isGeneric_mapTypes]

theorem find?_indexOf_outline (s : Store) (x : Module ClassId) (name : String) :
    (ClassTable.find? (s.indexOf x) name).map (·.decl.outline) =
      (s.load x).outline.classes.find? (·.name == name) := by
  rw [Store.find?_indexOf, findObject?, Store.objectsOf, List.find?_map, Module.outline,
    Module.mapTypes, Store.load, Module.mapClasses, List.find?_map, List.find?_map, Option.map_map,
    Option.map_map]
  rfl

variable {P : String → Prop} {s t : Store} {x x' : Module ClassId}

theorem moved_start (s t : Store) :
    Instantiation.Moved s.size t.size { store := s } { store := t } where
  store := by
    refine ⟨⟨0, rfl, rfl⟩, fun i => ?_⟩
    rw [Store.read_of_size_le (Nat.le_add_right _ _), Store.read_of_size_le (Nat.le_add_right _ _)]
    rfl
  cache := ⟨rfl, Array.map_empty.symm⟩

/-- What has been made in one run is the image of what has been made in the other. -/
theorem Instantiation.Moved.images {first first' : ClassId} {u u' : Instantiation}
    (h : u.Moved first first' u') {z : Module ClassId}
    (new : ∀ id ∈ (u.join z).classes, first ≤ id) :
    u.store.Images (fun t => t) (shift first first') (u.join z) u'.store
      (u'.join (z.moved (shift first first'))) := by
  have joined : u'.join (z.moved (shift first first')) =
      (u.join z).moved (shift first first') := by
    simp only [join, Module.addClasses, Module.moved, h.cache.ids, List.map_append]
  have reads : ∀ id ∈ (u.join z).classes,
      u'.store.read (shift first first' id) = (u.store.read id).moved (shift first first') := by
    intro id hid
    have read := h.store.read (id - first)
    rwa [Nat.add_sub_cancel' (new id hid)] at read
  rw [joined]
  refine ⟨rfl, ?_⟩
  rw [Module.mapTypes_id, Module.mapLeaves_eq]
  simp only [Store.load, Module.mapClasses, Module.moved, List.map_map]
  congr 1
  exact List.map_congr_left reads

section Match

variable (m : TablesMatch P (s.indexOf x) (t.indexOf x'))
  (same : (t.load x').concrete.outline = (s.load x).concrete.outline)
  (names : ∀ u ∈ (s.load x).concrete.types, u.LeavesIn P)
include m same names

private theorem parts_moved :
    ParallelAt (Instantiation.Moved s.size t.size) (fun y y' => y' = y.moved (shift s.size t.size))
      { store := s } { store := t } ((s.load x).concrete.instantiateParts (s.indexOf x))
      ((t.load x').concrete.instantiateParts (t.indexOf x')) := by
  rw [← Module.instantiateParts_outline (t.load x').concrete, same, Module.instantiateParts_outline]
  exact m.instantiateParts names _ _ (moved_start s t)

private theorem instantiate_images :
    EndAlike (fun y s' y' t' => s'.Images (fun t => t) (shift s.size t.size) y t' y')
      ((instantiate x).run.run s) ((instantiate x').run.run t) := by
  have walks := parts_moved m same names
  rw [run_instantiate, run_instantiate, Store.instantiateParts, Store.instantiateParts]
  obtain ⟨-, sound, value⟩ := Module.keeps_instantiateParts (any_inScope (s.indexOf x)) _
    (fun _ _ _ _ => trivial) (Instantiation.sound_start s)
  rw [ParallelAt] at walks
  generalize ((s.load x).concrete.instantiateParts (s.indexOf x)).run.run { store := s } = r at *
  generalize ((t.load x').concrete.instantiateParts (t.indexOf x')).run.run { store := t } = r' at *
  obtain ⟨fault | z, u⟩ := r <;> obtain ⟨fault' | z', u'⟩ := r'
  · exact walks
  · exact False.elim walks
  · exact False.elim walks
  · obtain ⟨rfl, moved⟩ := walks
    have new := Instantiation.join_new sound (value z rfl)
    exact (moved.images fun id hid => (new id hid).1).linkAll leavesAlone_id

/-- With tables that match, modules whose concrete parts have one outline are instantiated with the
same fault, or to modules that correspond. -/
theorem instantiate_corresponds :
    EndAlike (fun y s' y' t' => s'.Corresponds (fun m => m) y t' y')
      ((instantiate x).run.run s) ((instantiate x').run.run t) := by
  refine (instantiate_images m same names).imp fun y s' y' t' run _ h => ?_
  have corresponds := h.corresponds (fun id hid => (new_of_instantiate run id hid).1) ?_
  · rwa [funext Module.mapTypes_id] at corresponds
  · intro reference leaf
    obtain ⟨u, hu, inside⟩ := List.mem_flatMap.1 leaf
    obtain ⟨id, hid, target, -⟩ := closed_of_instantiate (any_inScope _) (fun _ _ _ _ => trivial)
      run hu (List.mem_filter.1 inside).1
    exact ⟨id, hid, target⟩

end Match
end Instantiate
end InterfaceTree
