import InterfaceTree.Proofs.Linking
import InterfaceTree.Proofs.Orderly

/-! # Tables that answer alike -/
namespace InterfaceTree

section Lookup

variable (s : Store) (x : Module ClassId)

theorem Store.lookup_objectsOf (name : String) :
    ClassTable.lookup (s.objectsOf x) name =
      match x.classes.find? fun id => (s.read id).name == name with
      | some id => .ok ⟨id, s.read id⟩
      | none => .error ⟨name⟩ := by
  have found : ClassTable.find? (s.objectsOf x) name =
      (x.classes.find? fun id => (s.read id).name == name).map fun id => ⟨id, s.read id⟩ :=
    List.find?_map ..
  rw [ClassTable.lookup, found]
  cases x.classes.find? fun id => (s.read id).name == name <;> rfl

theorem Store.lookup_indexOf (name : String) :
    ClassTable.lookup (s.indexOf x) name = ClassTable.lookup (s.objectsOf x) name := by
  rw [ClassTable.lookup, indexOf, ClassIndex.find?_ofList, ClassTable.lookup]

theorem Store.id?_objectsOf :
    ClassTable.id? (s.objectsOf x) = ClassTable.id? (s.indexOf x) := by
  funext name
  rw [ClassTable.id?, ClassTable.id?, indexOf, ClassIndex.find?_ofList]

end Lookup

section Instantiate

variable {τ υ : Type} [ClassTable τ] [ClassTable υ] {table : τ} {other : υ}
  (alike : ∀ name, ClassTable.find? table name = ClassTable.find? other name)
include alike

theorem isMadeBefore_congr (name : String) : isMadeBefore table name = isMadeBefore other name := by
  rw [isMadeBefore, alike, isMadeBefore]

theorem templateOf_congr (active : List Active) (base : TypeExpr) (usage : String) :
    templateOf table active base usage = templateOf other active base usage := by
  simp only [templateOf, alike]

omit alike in
private theorem lift_ok_bind {α β : Type} (a : α) (k : α → Instantiating β) :
    (liftM (Except.ok a : Except Fault α) : Instantiating α) >>= k = k a := rfl

omit alike in
private theorem lift_error_bind {α β : Type} (fault : Fault) (k : α → Instantiating β) :
    (liftM (Except.error fault : Except Fault α) : Instantiating α) >>= k = throw fault := rfl

/-- A specialization sees no more of a table than what it answers. -/
theorem specialize_congr (active : List Active) :
    specialize table active = specialize other active := by
  funext base element
  rw [specialize_eq, specialize_eq]
  refine bind_congr fun name => bind_congr fun s => ?_
  cases s.cache.find? name with
  | some made => rfl
  | none =>
    simp only [isMadeBefore_congr alike, templateOf_congr alike]
    cases chosen : templateOf other active base name with
    | error fault => rw [lift_error_bind, lift_error_bind]
    | ok template =>
      have inner := specialize_congr (⟨template.decl.name, name⟩ :: active)
      rw [lift_ok_bind, lift_ok_bind, inner]
termination_by Active.idleCount other active
decreasing_by exact templateOf_decreases chosen

theorem Node.instantiate_congr (n : Node Class) : n.instantiate table = n.instantiate other := by
  have rebuilder : usageRebuilder table = usageRebuilder other := by
    rw [usageRebuilder, specialize_congr alike, usageRebuilder]
  have object : Class.instantiate table = Class.instantiate other := by
    funext c
    rw [Class.instantiate, rebuilder, Class.instantiate]
  cases n with
  | module x => rw [instantiate, Module.instantiate, rebuilder, object]; rfl
  | _ => rw [instantiate, rebuilder, instantiate]

end Instantiate

section Calls

variable {τ υ : Type} [ClassTable τ] [ClassTable υ] (stop : Fault)

/-- What the trees give one after the other, each with the state after it. -/
def Instantiator.run (table : τ) (m : Instantiator) :
    List (Node Class) → List (Except Fault (Node ClassId) × Instantiator)
  | [] => []
  | n :: calls => m.call stop table n :: run table (m.call stop table n).2 calls

theorem Instantiator.run_congr {table : τ} {other : υ}
    (alike : ∀ name, ClassTable.find? table name = ClassTable.find? other name)
    (s : Instantiation) (calls : List (Node Class)) :
    Instantiator.run stop table ⟨s, []⟩ calls = Instantiator.run stop other ⟨s, []⟩ calls := by
  induction calls generalizing s with
  | nil => rfl
  | cons n calls ih =>
    rw [run, run, call_eq, call_eq, Node.instantiate_congr alike]
    rw [ih]

end Calls

/-- A module and an index of it, whatever names are there more than once, give for a name the same
class object or the same error: the first class of the name. So linking a module or a loose tree,
in any store, gives the same tree and counts, has written the same cells and stops at the same name
with either, and an instantiator gives the same results for trees one after the other and is in the
same state after each. -/
theorem tables_interchangeable (s : Store) (x : Module ClassId) :
    (∀ name, ClassTable.lookup (s.objectsOf x) name =
      match x.classes.find? fun id => (s.read id).name == name with
      | some id => .ok ⟨id, s.read id⟩
      | none => .error ⟨name⟩) ∧
    (∀ name, ClassTable.lookup (s.indexOf x) name = ClassTable.lookup (s.objectsOf x) name) ∧
    (∀ (t : Store) (y : Module ClassId),
      t.link (ClassTable.id? (s.indexOf x)) y = t.link (ClassTable.id? (s.objectsOf x)) y) ∧
    (∀ (n : Node Class) (l : Linking),
      (n.rebuildM (Linking.rebuilder (ClassTable.id? (s.indexOf x)))).run l =
        (n.rebuildM (Linking.rebuilder (ClassTable.id? (s.objectsOf x)))).run l) ∧
    ∀ (stop : Fault) (work : Instantiation) (calls : List (Node Class)),
      Instantiator.run stop (s.indexOf x) ⟨work, []⟩ calls =
        Instantiator.run stop (s.objectsOf x) ⟨work, []⟩ calls := by
  refine ⟨s.lookup_objectsOf x, s.lookup_indexOf x, fun t y => ?_, fun n l => ?_, ?_⟩
  · rw [s.id?_objectsOf x]
  · rw [s.id?_objectsOf x]
  · exact fun stop => Instantiator.run_congr stop (ClassIndex.find?_ofList (s.objectsOf x))

end InterfaceTree
