import Mathlib.Data.List.InsertIdx
import InterfaceTree.Proofs.Corresponding

/-! # Templates that nothing uses -/
namespace InterfaceTree

section Insert

variable {α : Type} {p : α → Bool} {a : α}

private theorem find?_insertIdx (skip : p a = false) (as : List α) (k : Nat) :
    (as.insertIdx k a).find? p = as.find? p := by
  induction as generalizing k with
  | nil => cases k <;> simp [skip]
  | cons b as ih => cases k <;> simp [List.find?_cons, skip, ih]

private theorem filter_insertIdx (skip : p a = false) (as : List α) (k : Nat) :
    (as.insertIdx k a).filter p = as.filter p := by
  induction as generalizing k with
  | nil => cases k <;> simp [skip]
  | cons b as ih => cases k <;> simp [List.filter_cons, skip, ih]

def Module.insertClass (m : Module Class) (k : Nat) (g : Class) : Module Class :=
  { m with classes := m.classes.insertIdx k g }

variable (m : Module Class) (k : Nat) (g : Class)

theorem Module.outline_insertClass :
    (m.insertClass k g).outline = m.outline.insertClass k g.outline := by
  simp only [outline, mapTypes, insertClass, List.map_insertIdx, Class.outline]

theorem Module.concrete_insertClass {g : Class} (generic : g.isGeneric = true) :
    (m.insertClass k g).concrete = m.concrete := by
  simp only [concrete, insertClass, filter_insertIdx (p := fun c => !c.isGeneric) (a := g)
    (by rw [generic]; rfl)]

end Insert

section Unused

variable {s t : Store} {x x' : Module ClassId} {g : Class} {k : Nat}

/-- A generic class whose name is not written in a module can be put anywhere among its classes, and
instantiation does the same. -/
theorem instantiate_insertClass (generic : g.isGeneric = true) (plain : '<' ∉ g.name.toList)
    (unused : ∀ u ∈ (s.load x).leaves, u.name? ≠ some g.name)
    (same : (t.load x').detached = ((s.load x).insertClass k g).detached) :
    EndAlike (fun y s' y' t' => s'.Corresponds (fun m => m) y t' y')
      ((instantiate x).run.run s) ((instantiate x').run.run t) := by
  have outlines : (t.load x').outline = (s.load x).outline.insertClass k g.outline := by
    rw [← Module.outline_detached, same, Module.outline_detached, Module.outline_insertClass]
  have generic' : g.outline.isGeneric = true := by
    rwa [Class.outline, Class.isGeneric_mapTypes]
  have leaves {u : TypeExpr} (hu : u ∈ (s.load x).types) : u.LeavesIn (· ≠ g.name) := by
    intro v hv name named same
    exact unused v (List.mem_flatMap.2 ⟨u, hu, hv⟩) (named.trans (congrArg some same))
  have tables : TablesMatch (· ≠ g.name) (s.indexOf x) (t.indexOf x') := by
    -- a text of a usage cannot be the name of the new class, which has no bracket
    refine ⟨fun name other => ?_, fun name o _ found u hu => ?_, fun base element same => ?_⟩
    · rw [find?_indexOf_outline, find?_indexOf_outline, outlines, Module.insertClass]
      have skip : (g.outline.name == name) = false := beq_false_of_ne (Ne.symm other)
      exact find?_insertIdx (p := fun c : Class => c.name == name) skip _ k
    · apply leaves
      exact List.mem_append_right _ (List.mem_flatMap.2 ⟨_, Store.decl_mem_of_find? found, hu⟩)
    · apply plain
      rw [← same]
      simp [instanceName, Layout.usageText]
  refine instantiate_corresponds tables ?_ fun u hu => leaves (Module.types_concrete hu)
  rw [Module.outline_concrete, outlines, Module.concrete_insertClass _ _ generic',
    Module.outline_concrete]

private def parcels : Module Class where
  constants := [⟨"post", .container (.named "Box") (.generic (.unlinked "Box") [.named "P"])⟩]
  classes := [
    { name := "Box", template := [⟨"T", .universal⟩], constants := [⟨"item", .named "T"⟩] },
    { name := "Bag", template := [⟨"T", .named "P"⟩] },
    { name := "P" }]

/-- A template that no usage could be made an instance of. -/
private def knot : Class where
  name := "Knot"
  template := [⟨"T", .universal⟩, ⟨"U", .named "Nowhere"⟩]
  parents := [.container (.named "Knot") (.container (.named "Knot") (.named "T"))]
  constants := [⟨"ends", .generic (.named "Pair") [.named "T", .named "U"]⟩]
  methods := [{ name := "tie" }]

theorem instantiate_insertClass_knot :
    let held := Store.hold {} parcels
    let more := Store.hold {} (parcels.insertClass 1 knot)
    EndAlike (fun y s' y' t' => s'.Corresponds (fun m => m) y t' y')
        ((instantiate held.1).run.run held.2) ((instantiate more.1).run.run more.2) ∧
      (match (instantiate more.1).run.run more.2 with
        | (.ok y, s) => (s.load y).classNames == ["P", "Box<P>", "Box<Box<P>>"]
        | (.error _, _) => false) = true := by
  intro held more
  refine ⟨instantiate_insertClass (g := knot) (k := 1) (by decide) (by decide) ?_ ?_, ?_⟩
  · rw [Store.load_hold]
    decide
  · rw [Store.load_hold, Store.load_hold]
  · decide +kernel

end Unused
end InterfaceTree
