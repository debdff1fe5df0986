import InterfaceTree.Proofs.Corresponding

/-!
# Two ways to write a usage

A usage with one argument is written as a container or as a list of one argument.
-/
namespace InterfaceTree

theorem Module.withReferences_contained (x : Module Class) :
    x.contained.withReferences = x.withReferences.contained := by
  rw [withReferences_eq, withReferences_eq]
  exact mapScoped_mapTypes _
    (fun params t => (leavesAlone_contained.mapLeaves _ t (referredLeaf_isLeaf params)).symm) x

section Spelling

variable {s t : Store} {x x' : Module ClassId}
  (same : (t.load x').detached = (s.load x).contained.detached)
include same

theorem outline_of_respelled : (t.load x').outline = (s.load x).outline := by
  rw [← Module.outline_detached, same, Module.outline_detached, Module.outline_contained]

theorem instantiate_respelled :
    EndAlike (fun y s' y' t' => s'.Corresponds (fun m => m) y t' y')
      ((instantiate x).run.run s) ((instantiate x').run.run t) := by
  have outlines := outline_of_respelled same
  have tables : TablesMatch (fun _ => True) (s.indexOf x) (t.indexOf x') := by
    refine ⟨fun name _ => ?_, fun _ _ _ _ _ _ _ _ _ _ => trivial, fun _ _ => trivial⟩
    rw [find?_indexOf_outline, find?_indexOf_outline, outlines]
  refine instantiate_corresponds tables ?_ fun _ _ _ _ _ _ => trivial
  rw [Module.outline_concrete, outlines, Module.outline_concrete]

theorem resolve_respelled :
    EndAlike (fun y s' y' t' => s'.Corresponds Module.contained y t' y')
      ((resolve x).run.run s) ((resolve x').run.run t) := by
  apply resolve_corresponds leavesAlone_contained
  rw [← Module.withReferences_detached, same, Module.withReferences_detached,
    Module.withReferences_contained]
  rfl

/-- A module and the same with a container for every usage of one argument, whatever their cells
hold, have one text. They are instantiated with the same fault, or to modules that are equal but for
the identities of the classes. They are resolved with the same fault, or to modules of which the
second is again the first with containers, links included. -/
theorem contained_indistinguishable :
    (∀ indent, (t.load x').print indent = (s.load x).print indent) ∧
    EndAlike (fun y s' y' t' => s'.Corresponds (fun m => m) y t' y')
      ((instantiate x).run.run s) ((instantiate x').run.run t) ∧
    EndAlike (fun y s' y' t' => s'.Corresponds Module.contained y t' y')
      ((resolve x).run.run s) ((resolve x').run.run t) := by
  refine ⟨fun indent => ?_, instantiate_respelled same, resolve_respelled same⟩
  rw [← Module.print_outline, outline_of_respelled same, Module.print_outline]

omit same

private def spelled : Module Class where
  constants := [⟨"post", .generic (.named "Box") [.generic (.unlinked "Box") [.named "P"]]⟩]
  classes := [
    { name := "Box", template := [⟨"T", .universal⟩]
      parents := [.generic (.named "Bag") [.named "T"]] },
    { name := "Bag", template := [⟨"T", .generic (.named "Bag") [.named "P"]⟩] },
    { name := "Pair", template := [⟨"T", .universal⟩, ⟨"U", .universal⟩]
      constants := [⟨"both",
        .generic (.named "Box") [.generic (.named "Pair") [.named "T", .named "U"]]⟩] },
    { name := "P" }]

theorem contained_indistinguishable_spelled :
    let held := Store.hold {} spelled
    let other := Store.hold {} spelled.contained
    ((other.2.load other.1).print 2 = (held.2.load held.1).print 2 ∧
      EndAlike (fun y s' y' t' => s'.Corresponds (fun m => m) y t' y')
        ((instantiate held.1).run.run held.2) ((instantiate other.1).run.run other.2) ∧
      EndAlike (fun y s' y' t' => s'.Corresponds Module.contained y t' y')
        ((resolve held.1).run.run held.2) ((resolve other.1).run.run other.2)) ∧
    spelled.contained ≠ spelled ∧
    ((instantiate held.1).run.run held.2).1.isOk = true ∧
    ((resolve held.1).run.run held.2).1.isOk = true := by
  intro held other
  have same : (other.2.load other.1).detached = (held.2.load held.1).contained.detached := by
    rw [Store.load_hold, Store.load_hold]
  obtain ⟨print, runs⟩ := contained_indistinguishable same
  refine ⟨⟨print 2, runs⟩, ?_, ?_, ?_⟩ <;> decide +kernel

end Spelling
end InterfaceTree
