import Std.Data.TreeMap
import InterfaceTree.Layout
import InterfaceTree.Substitution
import InterfaceTree.Instance.Active

/-!
# Making instances of templates

A usage `base<argument>` stands for the instance of the template `base` that is named by the text of
the usage. Specialization ends because `Active.idleCount` falls with every template that is entered.
-/
namespace InterfaceTree

structure Instance where
  name : String
  id : ClassId
  deriving DecidableEq, Repr

structure InstanceCache where
  /-- Where in the list the instance of a name is. -/
  position : Std.TreeMap String Nat := ∅
  made : Array Instance := #[]

namespace InstanceCache

def find? (c : InstanceCache) (name : String) : Option Instance :=
  c.position[name]? >>= fun i => c.made[i]?

def contains (c : InstanceCache) (name : String) : Bool := c.position.contains name

/-- The instance that the cache has for the name afterwards. -/
def insert (c : InstanceCache) (i : Instance) : Instance × InstanceCache :=
  match c.find? i.name with
  | some existing => (existing, c)
  | none => (i, ⟨c.position.insert i.name c.made.size, c.made.push i⟩)

def size (c : InstanceCache) : Nat := c.made.size

def isEmpty (c : InstanceCache) : Bool := c.made.isEmpty

def toList (c : InstanceCache) : List Instance := c.made.toList

end InstanceCache

def instanceName (base element : String) : String := Layout.usageText base [element]

structure Instantiation where
  store : Store
  cache : InstanceCache := {}

/-- What was finished before a failure stays in the store and the cache. -/
abbrev Instantiating := ExceptT Fault (StateM Instantiation)

namespace Instantiation

def addObject (c : Class) (s : Instantiation) : ClassId × Instantiation :=
  let (id, store) := s.store.add c
  (id, { s with store })

def addInstance (c : Class) (s : Instantiation) : ClassId × Instantiation :=
  let (id, store) := s.store.add c
  let (made, cache) := s.cache.insert ⟨c.name, id⟩
  (made.id, { store, cache })

def takeInstances (s : Instantiation) : List ClassId × Instantiation :=
  (s.cache.toList.map (·.id), { s with cache := {} })

end Instantiation

/-- What specialization does to a type expression whose parts are specialized. References are
unlinked, because the classes they were linked with are being rebuilt. -/
def onUsage (specialize : TypeExpr → TypeExpr → Instantiating TypeExpr) (t : TypeExpr) :
    Instantiating TypeExpr :=
  match t with
  | .named _ => pure t
  | .ref reference => pure (.unlinked reference.name)
  | .container base element => specialize base element
  | .generic base [element] => specialize base element
  | .generic _ _ => do
    let usage ← t.render
    throw (.unsupported (.argumentList usage))
  | .union _ => pure t
  | .inter _ => pure t

def makeInstance (specialize : TypeExpr → TypeExpr → Instantiating TypeExpr) (template : Class)
    (name : String) (element : TypeExpr) : Instantiating ClassId := do
  let mapping ← Template.bind template.name template.template [element]
  let body ← (Template.apply template name mapping).rebuildM (.ofType (onUsage specialize))
  modifyGet (Instantiation.addInstance body)

section

variable {τ : Type} [ClassTable τ]

/-- A concrete class of this name is an instance from an earlier run; it is found by linking. -/
def isMadeBefore (table : τ) (name : String) : Bool :=
  (ClassTable.find? table name).any fun o => !o.decl.isGeneric

/-- The template of a usage. It must be known and not be specialized already. -/
def templateOf (table : τ) (active : List Active) (base : TypeExpr) (usage : String) :
    Except Fault ClassObject :=
  match base.name? with
  | none => .error (.misplaced base.kind (.usageBase usage))
  | some name =>
    match ClassTable.find? table name with
    | none => .error (UnknownClass.toFault ⟨name⟩)
    | some template =>
      match Active.find? active template.decl.name with
      | some outer => .error (.unsupported (.reentered usage outer.canonical))
      | none => .ok template

theorem templateOf_eq_ok_iff {table : τ} {active : List Active} {base : TypeExpr} {usage : String}
    {template : ClassObject} : templateOf table active base usage = .ok template ↔
      base.name? = some template.decl.name ∧
      ClassTable.find? table template.decl.name = some template ∧
      Active.find? active template.decl.name = none := by
  constructor
  · intro h
    unfold templateOf at h
    split at h
    · cases h
    · next name hb =>
      split at h
      · cases h
      · next o hf =>
        split at h
        · cases h
        · next ha =>
          cases h
          have hn := ClassTable.name_of_find? hf
          subst hn
          exact ⟨hb, hf, ha⟩
  · rintro ⟨hb, hf, ha⟩
    simp [templateOf, hb, hf, ha]

theorem templateOf_decreases {table : τ} {active : List Active} {base : TypeExpr} {usage : String}
    {template : ClassObject} (h : templateOf table active base usage = .ok template) :
    Active.idleCount table (⟨template.decl.name, usage⟩ :: active) <
      Active.idleCount table active :=
  have ⟨_, found, idle⟩ := templateOf_eq_ok_iff.1 h
  Active.idleCount_lt (ClassTable.mem_names_of_find? found) idle

/-- The reference that replaces a usage whose base and element are specialized already. -/
def specialize (table : τ) (active : List Active) (base element : TypeExpr) :
    Instantiating TypeExpr := do
  let name ← (TypeExpr.container base element).canonical
  match (← get).cache.find? name with
  | some made => return .linked name made.id
  | none =>
    if isMadeBefore table name then return .unlinked name
    else
      match _chosen : templateOf table active base name with
      | .error fault => throw fault
      | .ok template =>
        let inner := specialize table (⟨template.decl.name, name⟩ :: active)
        let id ← makeInstance inner template.decl name element
        return .linked name id
termination_by Active.idleCount table active
decreasing_by exact templateOf_decreases _chosen

theorem specialize_eq (table : τ) (active : List Active) (base element : TypeExpr) :
    specialize table active base element = (do
      let name ← (TypeExpr.container base element).canonical
      match (← get).cache.find? name with
      | some made => return .linked name made.id
      | none =>
        if isMadeBefore table name then return .unlinked name
        else
          let template ← templateOf table active base name
          let inner := specialize table (⟨template.decl.name, name⟩ :: active)
          let id ← makeInstance inner template.decl name element
          return .linked name id) := by
  rw [specialize]
  congr 1
  funext name
  congr 1
  funext s
  split
  · rfl
  · split
    · rfl
    · split
      · next h => rw [h]; rfl
      · next template h => rw [h]; rfl

end
end InterfaceTree
