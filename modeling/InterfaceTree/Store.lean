import InterfaceTree.Declaration

/-!
# Class objects

Identities are handed out in order and never again. The constants and functions of a module are part
of the module value.
-/
namespace InterfaceTree

structure Store where
  objects : Array Class := #[]
  deriving Inhabited

namespace Store

def size (s : Store) : Nat := s.objects.size

def read (s : Store) (id : ClassId) : Class := s.objects.getD id default

/-- Adds an object; its identity is the number of objects before. -/
def add (s : Store) (c : Class) : ClassId × Store := (s.size, ⟨s.objects.push c⟩)

def write (s : Store) (id : ClassId) (c : Class) : Store := ⟨s.objects.setIfInBounds id c⟩

/-- The module with its classes by content. -/
def load (s : Store) (x : Module ClassId) : Module Class := x.mapClasses s.read

/-- Gives every class of a module an object of its own. -/
def hold (s : Store) (x : Module Class) : Module ClassId × Store :=
  ({ x with classes := List.range' s.size x.classes.length },
    ⟨s.objects ++ x.classes.toArray⟩)

theorem read_of_size_le {s : Store} {id : ClassId} (h : s.size ≤ id) : s.read id = default := by
  have h : s.objects.size ≤ id := h
  simp [read, h]

theorem read_add_self (s : Store) (c : Class) : (s.add c).2.read (s.add c).1 = c := by
  simp [add, read, size]

theorem read_add_of_lt {s : Store} {id : ClassId} (c : Class) (h : id < s.size) :
    (s.add c).2.read id = s.read id := by
  have h : id < s.objects.size := h
  simp [add, read, Array.getElem?_push, Nat.ne_of_lt h]

theorem size_add (s : Store) (c : Class) : (s.add c).2.size = s.size + 1 := by
  simp [add, size]

theorem read_write_self {s : Store} {id : ClassId} (c : Class) (h : id < s.size) :
    (s.write id c).read id = c := by
  have h : id < s.objects.size := h
  simp [write, read, h]

theorem read_write_of_ne {s : Store} {id other : ClassId} (c : Class) (h : id ≠ other) :
    (s.write id c).read other = s.read other := by
  simp [write, read, h]

@[simp] theorem size_write (s : Store) (id : ClassId) (c : Class) :
    (s.write id c).size = s.size := by
  simp [write, size]

theorem size_hold (s : Store) (x : Module Class) :
    (s.hold x).2.size = s.size + x.classes.length := by
  simp [hold, size]

theorem read_hold_of_lt {s : Store} {id : ClassId} (x : Module Class) (h : id < s.size) :
    (s.hold x).2.read id = s.read id := by
  have h : id < s.objects.size := h
  simp [hold, read, Array.getElem?_append_left h]

theorem load_hold (s : Store) (x : Module Class) : (s.hold x).2.load (s.hold x).1 = x := by
  obtain ⟨constants, functions, classes⟩ := x
  simp only [hold, load, Module.mapClasses, Module.mk.injEq, true_and]
  apply List.ext_getElem
  · simp
  · intro i h _
    have hi : i < classes.length := by simpa using h
    simp [read, size, hi]

end Store

/-- Where the target of a reference is, seen from the module that is being shown. -/
inductive Place
  /-- The first position in the class list of the module. -/
  | member (index : Nat)
  | gone
  | external (number : Nat)
  | elsewhere (id : ClassId)
  deriving DecidableEq, Repr

structure Holders where
  externals : List ClassId
  lists : List (List ClassId)

namespace Holders

def isAlive (h : Holders) (id : ClassId) : Bool :=
  h.externals.contains id || h.lists.any (·.contains id)

/-- A member of the module counts as such before all else. -/
def place (h : Holders) (members : List ClassId) (id : ClassId) : Place :=
  match members.idxOf? id with
  | some index => .member index
  | none =>
    if h.isAlive id then
      match h.externals.idxOf? id with
      | some number => .external number
      | none => .elsewhere id
    else .gone

end Holders
end InterfaceTree
