import Mathlib.Data.List.Flatten
import InterfaceTree.Proofs.Corresponding

/-!
# Resolution after dropping receivers

Dropping receivers keeps the references that it meets, so in a resolved module they go on pointing
at classes of the module before. Resolving again repairs them.
-/
namespace InterfaceTree

section Types

variable (h : TypeExpr → TypeExpr)

theorem Class.mapTypes_dropReceivers (c : Class) :
    c.dropReceivers.mapTypes h = (c.mapTypes h).dropReceivers := by
  simp only [dropReceivers, mapTypes, Function.dropReceiver, Function.mapTypes,
    Signature.dropReceiver, Signature.mapTypes, List.map_map, Function.comp_def, List.map_tail]

theorem Module.mapTypes_dropReceivers (x : Module Class) :
    x.dropReceivers.mapTypes h = (x.mapTypes h).dropReceivers := by
  simp only [dropReceivers, mapClasses, mapTypes, List.map_map, Function.comp_def,
    Class.mapTypes_dropReceivers]

theorem Module.mapScoped_dropReceivers (g : List String → TypeExpr → TypeExpr) (x : Module Class) :
    x.dropReceivers.mapScoped g = (x.mapScoped g).dropReceivers := by
  simp only [dropReceivers, mapClasses, mapScoped, List.map_map, Function.comp_def,
    Class.mapLeaves, Class.mapTypes_dropReceivers]
  rfl

theorem Module.withReferences_dropReceivers (x : Module Class) :
    x.dropReceivers.withReferences = x.withReferences.dropReceivers := by
  rw [withReferences_eq, mapScoped_dropReceivers, withReferences_eq]

theorem Module.detached_dropReceivers (x : Module Class) :
    x.dropReceivers.detached = x.detached.dropReceivers :=
  x.mapTypes_dropReceivers TypeExpr.detached

end Types

section Wanted

theorem Signature.types_dropReceiver (s : Signature) : s.dropReceiver.types.Sublist s.types :=
  (s.params.tail_sublist.flatMap Parameter.types).append_right _

theorem Class.leaves_dropReceivers (c : Class) : c.dropReceivers.leaves.Sublist c.leaves := by
  refine List.Sublist.flatMap (List.Sublist.append_left ?_ _) _
  rw [dropReceivers, List.flatMap_map]
  refine List.Sublist.flatMap_right _ fun f _ => ?_
  rw [Function.dropReceiver, Function.types, List.flatMap_map]
  exact List.Sublist.flatMap_right _ fun s _ => s.types_dropReceiver

theorem Module.wanted_dropReceivers (x : Module Class) :
    x.dropReceivers.wanted.Sublist x.wanted := by
  refine List.Sublist.filterMap _ (List.Sublist.append_left ?_ _)
  rw [dropReceivers, mapClasses, List.flatMap_map]
  exact List.Sublist.flatMap_right _ fun c _ => c.leaves_dropReceivers.map _

theorem Module.hasClass_dropReceivers (x : Module Class) (name : String) :
    x.dropReceivers.hasClass name = x.hasClass name := by
  rw [hasClass, dropReceivers, mapClasses, List.any_map]
  rfl

end Wanted

section Resolved

/-- The first stage leaves nothing for a second time. -/
theorem Module.withReferences_withReferences (x : Module Class) :
    x.withReferences.withReferences = x.withReferences := by
  rw [withReferences_eq, withReferences_eq, mapScoped_mapScoped]
  apply mapScoped_congr_of_isLeaf
  intro params u leaf
  rw [TypeExpr.mapLeaves_of_isLeaf (referredLeaf_isLeaf params u leaf)]
  rcases referredLeaf_cases params u with same | ⟨name, -, image⟩
  · rw [same, same]
  · rw [image]
    rfl

variable {s s' : Store} {x y : Module ClassId} (h : (resolve x).run.run s = (.ok y, s'))
include h

theorem detached_of_resolve : (s'.load y).detached = (s.load x).withReferences := by
  obtain ⟨target, -, load⟩ := load_of_resolve h
  have detached : (s'.load y).detached = (s'.load y).mapLeaves TypeExpr.detachedLeaf := rfl
  rw [detached, load, Module.mapLeaves_mapScoped, Module.withReferences_eq]
  apply Module.mapScoped_congr_of_isLeaf
  intro params u leaf
  rw [TypeExpr.mapLeaves_of_isLeaf (TypeExpr.resolvedLeaf_isLeaf target params u leaf),
    TypeExpr.resolvedLeaf, referredLeaf]
  cases wants : u.wanted? params with
  | some name => rfl
  | none => cases u <;> first | rfl | cases wants

/-- The first stage does not tell a resolved module from what it was made of. -/
theorem withReferences_of_resolve : (s'.load y).withReferences = (s.load x).withReferences := by
  rw [← Module.withReferences_detached, detached_of_resolve h,
    Module.withReferences_withReferences]

theorem hasClass_of_resolve {name : String} (wanted : name ∈ (s.load x).wanted) :
    (s.load x).hasClass name = true := by
  obtain ⟨target, found, load⟩ := load_of_resolve h
  obtain ⟨inside, named⟩ := Store.firstNamed_eq_some (found name wanted)
  have has : (s'.load y).hasClass name = true :=
    List.any_eq_true.2 ⟨_, List.mem_map_of_mem inside, beq_iff_eq.2 named⟩
  rwa [load, Module.hasClass_mapScoped] at has

theorem ok_of_dropReceivers {t : Store} {a : Module ClassId}
    (dropped : t.load a = (s.load x).dropReceivers) :
    ∃ z t', (resolve a).run.run t = (.ok z, t') := by
  apply ok_of_wanted
  intro name hname
  rw [dropped] at hname
  have has := hasClass_of_resolve h ((Module.wanted_dropReceivers _).subset hname)
  rw [← Module.hasClass_dropReceivers, ← dropped, Module.hasClass, List.any_eq_true] at has
  obtain ⟨c, inside, named⟩ := has
  exact ⟨c, inside, beq_iff_eq.1 named⟩

end Resolved

section Repair

variable {s s' t u : Store} {x y a b : Module ClassId}

/-- When a module can be resolved, it can be resolved after its receivers have been dropped, before
as well as after a first resolution. The two results are equal but for the identities of the
classes, all references in both are linked inside, and but for the targets both are the resolved
module without receivers. -/
theorem resolve_dropReceivers (resolved : (resolve x).run.run s = (.ok y, s'))
    (before : t.load a = (s.load x).dropReceivers)
    (after : u.load b = (s'.load y).dropReceivers) :
    ∃ z t' w u', (resolve a).run.run t = (.ok z, t') ∧ (resolve b).run.run u = (.ok w, u') ∧
      t'.Corresponds (fun m => m) z u' w ∧
      (∀ reference, .ref reference ∈ (t'.load z).leaves →
        ∃ id ∈ z.classes, reference.target = some id) ∧
      (∀ reference, .ref reference ∈ (u'.load w).leaves →
        ∃ id ∈ w.classes, reference.target = some id) ∧
      (t'.load z).detached = (s'.load y).dropReceivers.detached ∧
      (u'.load w).detached = (s'.load y).dropReceivers.detached := by
  -- The stale targets after the first resolution are gone here, so one run answers the other.
  have references : (u.load b).withReferences = (t.load a).withReferences := by
    rw [after, before, Module.withReferences_dropReceivers, Module.withReferences_dropReceivers,
      withReferences_of_resolve resolved]
  have images := resolve_corresponds leavesAlone_id
    (references.trans (Module.mapTypes_id _).symm)
  rw [funext Module.mapTypes_id] at images
  obtain ⟨z, t', first⟩ := ok_of_dropReceivers resolved before
  rw [first] at images
  rcases second : (resolve b).run.run u with ⟨fault | w, u'⟩ <;> rw [second] at images
  · exact False.elim images
  · have detached : (t.load a).withReferences = (s'.load y).dropReceivers.detached := by
      rw [before, Module.withReferences_dropReceivers, Module.detached_dropReceivers,
        detached_of_resolve resolved]
    refine ⟨z, t', w, u', first, rfl, images, fun reference leaf => linked_of_resolve first leaf,
      fun reference leaf => linked_of_resolve second leaf, ?_, ?_⟩
    · rw [detached_of_resolve first, detached]
    · rw [detached_of_resolve second, references, detached]

private def manned : Module Class where
  functions := [⟨"open", [{ params := [⟨"box", .container (.named "Box") (.named "P")⟩] }]⟩]
  classes := [
    { name := "Box", template := [⟨"T", .universal⟩]
      methods := [⟨"get", [{
        params := [⟨"self", .named "Box"⟩, ⟨"key", .named "P"⟩], returns := .named "T" }]⟩] },
    { name := "P"
      methods := [⟨"owner", [{
        params := [⟨"self", .named "P"⟩], returns := .container (.named "Box") (.named "P") }]⟩] }]

theorem resolve_dropReceivers_manned :
    let held := Store.hold {} manned
    ∃ y s', (resolve held.1).run.run held.2 = (.ok y, s') ∧
      let bare := held.2.hold (held.2.load held.1).dropReceivers
      let again := s'.hold (s'.load y).dropReceivers
      ∃ z t' w u', (resolve bare.1).run.run bare.2 = (.ok z, t') ∧
        (resolve again.1).run.run again.2 = (.ok w, u') ∧
        t'.Corresponds (fun m => m) z u' w ∧
        (u'.load w).detached = (s'.load y).dropReceivers.detached ∧
        manned.dropReceivers ≠ manned := by
  intro held
  have succeeds : ((resolve held.1).run.run held.2).1.isOk = true := by decide +kernel
  rcases resolved : (resolve held.1).run.run held.2 with ⟨fault | y, s'⟩ <;>
    rw [resolved] at succeeds
  · cases succeeds
  · obtain ⟨z, t', w, u', first, second, same, -, -, -, detached⟩ :=
      resolve_dropReceivers resolved (held.2.load_hold _) (s'.load_hold _)
    exact ⟨y, s', rfl, z, t', w, u', first, second, same, detached, by decide⟩

end Repair
end InterfaceTree
