import InterfaceTree.Workshop
import InterfaceTree.Proofs.Frame
import InterfaceTree.Proofs.Tables

/-!
# Workshops are instantiators

The classes of the templates are objects of the store from the start, so every step of a workshop
has the same table.
-/
namespace InterfaceTree

theorem Store.Extends.objectsOf_eq {s t : Store} (h : s.Extends t) {x : Module ClassId}
    (hx : s.Holds x) : t.objectsOf x = s.objectsOf x := by
  apply List.map_congr_left
  intro id hid
  rw [h.read_eq id (hx id hid)]

theorem Instantiation.Sound.extends_step {τ : Type} [ClassTable τ] {table : τ} {first : ClassId}
    {s : Instantiation} (h : s.Sound table (fun _ => True) first) (n : Node Class) :
    s.store.Extends ((n.instantiate table).run.run s).2.store := by
  rcases n.steps_instantiate h with ⟨-, steps⟩ | ⟨x, z, u, -, -, steps, run⟩
  · exact steps.extends_.store
  · rw [run]
    exact steps.extends_.store

namespace Workshop

def after (w : Workshop) (steps : List (Bool × Option (Node Class))) : Workshop :=
  steps.foldl (fun w step => (w.run step.1 step.2).2) w

/-- What a workshop with these templates does not change. -/
structure Serves (templates : Module Class) (table : List ClassObject) (first : ClassId)
    (w : Workshop) : Prop where
  sound : w.work.Sound table (fun _ => True) first
  inside : w.work.store.Holds w.templates
  objects : w.work.store.objectsOf w.templates = table
  loaded : w.work.store.load w.templates = templates

theorem serves_start (externals : List Class) (templates : Module Class) :
    let w := start externals templates
    w.Serves templates (w.work.store.objectsOf w.templates) w.work.store.size where
  sound := Instantiation.sound_start _
  inside id hid := by
    simp only [start, Store.hold, List.mem_range'_1] at hid
    rw [start, Store.size_hold]
    exact hid.2
  objects := rfl
  loaded := Store.load_hold _ _

variable {templates : Module Class} {table : List ClassObject} {first : ClassId} {w : Workshop}

/-- With either table a step does what instantiation does. -/
theorem Serves.run_eq (h : w.Serves templates table first) (indexed : Bool)
    (own : Option (Node Class)) :
    ((w.run indexed own).1, (w.run indexed own).2.work) =
      ((own.getD (.module templates)).instantiate table).run.run w.work ∧
    (w.run indexed own).2.templates = w.templates := by
  have indexed_eq := Node.instantiate_congr (ClassIndex.find?_ofList table)
    (own.getD (.module templates))
  unfold run
  simp only [h.objects, h.loaded, indexed_eq, ite_self]
  generalize ((own.getD (.module templates)).instantiate table).run.run w.work = r
  rcases r with ⟨fault | n, s⟩
  · exact ⟨rfl, rfl⟩
  · cases n <;> exact ⟨rfl, rfl⟩

theorem Serves.step (h : w.Serves templates table first) (indexed : Bool)
    (own : Option (Node Class)) : (w.run indexed own).2.Serves templates table first := by
  obtain ⟨run, kept⟩ := h.run_eq indexed own
  have work := congrArg Prod.snd run
  have grown := h.sound.extends_step (own.getD (.module templates))
  have sound := h.sound.step (own.getD (.module templates))
  rw [← work] at grown sound
  refine ⟨sound, ?_, ?_, ?_⟩
  · rw [kept]
    exact fun id hid => Nat.lt_of_lt_of_le (h.inside id hid) grown.size_le
  · rw [kept, ← h.objects]
    exact grown.objectsOf_eq h.inside
  · rw [kept, ← h.loaded]
    exact grown.load_eq h.inside

theorem Serves.after (h : w.Serves templates table first)
    (steps : List (Bool × Option (Node Class))) :
    (w.after steps).Serves templates table first ∧ (w.after steps).work =
      w.work.after table (steps.map fun step => step.2.getD (.module templates)) := by
  induction steps generalizing w with
  | nil => exact ⟨h, rfl⟩
  | cons step steps ih =>
    obtain ⟨serves, work⟩ := ih (h.step step.1 step.2)
    refine ⟨serves, work.trans ?_⟩
    rw [List.map_cons, Instantiation.after, Instantiation.after, List.foldl_cons,
      ← (h.run_eq step.1 step.2).1]

/-- A workshop does in every step what an instantiator does that has the classes of the templates
as its table: it gives the same result and is left with the same objects and instances. -/
theorem run_after (stop : Fault) (externals : List Class) (templates : Module Class)
    (steps : List (Bool × Option (Node Class))) (indexed : Bool) (own : Option (Node Class)) :
    let tree (own : Option (Node Class)) := own.getD (.module templates)
    let w := start externals templates
    let table := w.work.store.objectsOf w.templates
    let later := (w.after steps).run indexed own
    let m := Instantiator.after stop table ⟨w.work, []⟩ (steps.map fun step => tree step.2)
    m.call stop table (tree own) = (later.1, ⟨later.2.work, []⟩) := by
  intro tree w table later m
  obtain ⟨serves, work⟩ := (serves_start externals templates).after steps
  have before : m = ⟨(w.after steps).work, []⟩ := by
    rw [work]
    exact Instantiator.after_eq stop w.work _
  have run := (serves.run_eq indexed own).1
  rw [before, Instantiator.call_eq, ← run]

end Workshop
end InterfaceTree
