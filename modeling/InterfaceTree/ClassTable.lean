import Std.Data.TreeMap
import InterfaceTree.Fault
import InterfaceTree.Store

/-!
# Looking classes up by name

A class list searched in order, or an index built once. They answer alike: see
`ClassIndex.find?_ofList`.
-/
namespace InterfaceTree

structure ClassObject where
  id : ClassId
  decl : Class
  deriving Inhabited

def Store.objectsOf (s : Store) (x : Module ClassId) : List ClassObject :=
  x.classes.map fun id => ⟨id, s.read id⟩

/-- Something that finds classes by their names, of which there are finitely many. -/
class ClassTable (τ : Type) where
  find? : τ → String → Option ClassObject
  names : τ → List String
  name_of_find? : ∀ {t : τ} {name : String} {o : ClassObject},
    find? t name = some o → o.decl.name = name
  mem_names_of_find? : ∀ {t : τ} {name : String} {o : ClassObject},
    find? t name = some o → name ∈ names t

namespace ClassTable

variable {τ : Type} [ClassTable τ]

def lookup (t : τ) (name : String) : Except UnknownClass ClassObject :=
  match find? t name with
  | some o => .ok o
  | none => .error ⟨name⟩

def id? (t : τ) (name : String) : Option ClassId := (find? t name).map (·.id)

end ClassTable

def findObject? (os : List ClassObject) (name : String) : Option ClassObject :=
  os.find? (·.decl.name == name)

theorem name_of_findObject? {os : List ClassObject} {name : String} {o : ClassObject}
    (h : findObject? os name = some o) : o.decl.name = name := by
  simpa using List.find?_some h

instance : ClassTable (List ClassObject) where
  find? := findObject?
  names os := os.map (·.decl.name)
  name_of_find? := name_of_findObject?
  mem_names_of_find? {_ _ o} h :=
    List.mem_map.2 ⟨o, List.mem_of_find?_eq_some h, name_of_findObject? h⟩

structure ClassIndex where
  byName : Std.TreeMap String ClassObject := ∅
  name_of_getElem? : ∀ {name : String} {o : ClassObject},
    byName[name]? = some o → o.decl.name = name := by simp

namespace ClassIndex

private theorem getElem?_insertIfNew (t : Std.TreeMap String ClassObject) (o : ClassObject)
    (name : String) : (t.insertIfNew o.decl.name o)[name]? =
      t[name]?.or (if o.decl.name = name then some o else none) := by
  simp only [Std.TreeMap.getElem?_insertIfNew, Std.LawfulEqOrd.compare_eq_iff_eq,
    Std.TreeMap.mem_iff_isSome_getElem?]
  by_cases h : o.decl.name = name
  · subst h
    cases t[o.decl.name]? <;> simp
  · simp [h]

/-- A class does not take the place of an earlier one of its name. -/
def insert (t : ClassIndex) (o : ClassObject) : ClassIndex where
  byName := t.byName.insertIfNew o.decl.name o
  name_of_getElem? {name q} h := by
    rw [getElem?_insertIfNew] at h
    rcases Option.or_eq_some_iff.1 h with h | ⟨-, h⟩
    · exact t.name_of_getElem? h
    · split at h
      · cases h
        assumption
      · cases h

def ofList (os : List ClassObject) : ClassIndex := os.foldl insert {}

/-- The number of different names. -/
def size (t : ClassIndex) : Nat := t.byName.size

def isEmpty (t : ClassIndex) : Bool := t.size == 0

instance : ClassTable ClassIndex where
  find? t name := t.byName[name]?
  names t := t.byName.keys
  name_of_find? {t _ _} h := t.name_of_getElem? h
  mem_names_of_find? h := by
    rw [Std.TreeMap.mem_keys, Std.TreeMap.mem_iff_isSome_getElem?, h]
    rfl

private theorem byName_foldl (os : List ClassObject) (t : ClassIndex) (name : String) :
    (os.foldl insert t).byName[name]? = t.byName[name]?.or (findObject? os name) := by
  induction os generalizing t with
  | nil => simp [findObject?]
  | cons o os ih =>
    rw [List.foldl_cons, ih]
    simp only [insert, getElem?_insertIfNew, Option.or_assoc, findObject?, List.find?_cons]
    by_cases hn : o.decl.name = name
    · simp [hn]
    · have hb : (o.decl.name == name) = false := by simpa using hn
      simp [hn, hb]

theorem find?_ofList (os : List ClassObject) (name : String) :
    ClassTable.find? (ofList os) name = ClassTable.find? os name := by
  change (os.foldl insert {}).byName[name]? = findObject? os name
  rw [byName_foldl]
  simp

end ClassIndex
end InterfaceTree
