import Mathlib.Data.List.Dedup
import Mathlib.Data.List.Perm.Subperm
import InterfaceTree.Instance.Instantiate

/-!
# How deep specializations nest

The bound is said with a specialization that counts down and would give up: it does what
specialization does, whatever it would give up with.
-/
namespace InterfaceTree

section Stacks

variable {τ : Type} [ClassTable τ] {table : τ} {active : List Active}

/-- The templates under way are different from each other, and the table knows them. -/
def Active.Proper (table : τ) (active : List Active) : Prop :=
  (active.map (·.template)).Nodup ∧
    ∀ a ∈ active, (ClassTable.find? table a.template).isSome = true

instance : Decidable (Active.Proper table active) := inferInstanceAs (Decidable (_ ∧ _))

theorem Active.find?_eq_none_iff {name : String} :
    Active.find? active name = none ↔ name ∉ active.map (·.template) := by
  rw [Active.find?, List.find?_eq_none, List.mem_map]
  constructor
  · rintro idle ⟨a, ha, same⟩
    exact idle a ha (beq_iff_eq.2 same)
  · intro absent a ha same
    exact absent ⟨a, ha, beq_iff_eq.1 same⟩

theorem Active.proper_nil : Active.Proper table [] :=
  ⟨List.nodup_nil, fun _ ha => absurd ha List.not_mem_nil⟩

theorem Active.Proper.cons (proper : Active.Proper table active) {base : TypeExpr} {usage : String}
    {template : ClassObject} (chosen : templateOf table active base usage = .ok template) :
    Active.Proper table (⟨template.decl.name, usage⟩ :: active) := by
  obtain ⟨-, known, idle⟩ := templateOf_eq_ok_iff.1 chosen
  refine ⟨List.nodup_cons.2 ⟨Active.find?_eq_none_iff.1 idle, proper.1⟩, ?_⟩
  exact List.forall_mem_cons.2 ⟨by rw [known]; rfl, proper.2⟩

theorem Active.Proper.length_le (proper : Active.Proper table active) {names : List String}
    (known : ∀ name, (ClassTable.find? table name).isSome = true → name ∈ names) :
    active.length ≤ names.dedup.length := by
  have inside : active.map (·.template) ⊆ names.dedup := by
    intro name hname
    obtain ⟨a, ha, rfl⟩ := List.mem_map.1 hname
    exact List.mem_dedup.2 (known a.template (proper.2 a ha))
  rw [← List.length_map (·.template)]
  exact (proper.1.subperm inside).length_le

end Stacks

section Within

variable {τ : Type} [ClassTable τ] (stop : Fault) (table : τ)

/-- Specialization that enters at most `depth` templates inside of those under way, and none that
leaves them improper; it gives up with `stop` instead. -/
def specializeWithin (depth : Nat) (active : List Active) (base element : TypeExpr) :
    Instantiating TypeExpr := do
  let name ← (TypeExpr.container base element).canonical
  match (← get).cache.find? name with
  | some made => return .linked name made.id
  | none =>
    if isMadeBefore table name then return .unlinked name
    else
      let template ← templateOf table active base name
      let entered := ⟨template.decl.name, name⟩ :: active
      match depth with
      | 0 => throw stop
      | depth + 1 =>
        if Active.Proper table entered then
          let id ← makeInstance (specializeWithin depth entered) template.decl name element
          return .linked name id
        else throw stop

variable {table}

private theorem eq_specialize {active : List Active} {base element : TypeExpr}
    {enter : ClassObject → String → Instantiating TypeExpr}
    (same : ∀ template name, templateOf table active base name = .ok template →
      enter template name = (do
        let inner := specialize table (⟨template.decl.name, name⟩ :: active)
        let id ← makeInstance inner template.decl name element
        return .linked name id)) : (do
      let name ← (TypeExpr.container base element).canonical
      match (← get).cache.find? name with
      | some made => return .linked name made.id
      | none =>
        if isMadeBefore table name then return .unlinked name
        else
          let template ← templateOf table active base name
          enter template name) = specialize table active base element := by
  rw [specialize_eq]
  congr 1
  funext name
  congr 1
  funext s
  cases s.cache.find? name with
  | some made => rfl
  | none =>
    by_cases before : isMadeBefore table name = true
    · simp only [if_pos before]
    · simp only [if_neg before]
      cases chosen : templateOf table active base name with
      | error fault => rfl
      | ok template => exact same template name chosen

/-- With as many steps as there are known names that are not under way, nothing is given up. -/
theorem specializeWithin_eq {names : List String}
    (known : ∀ name, (ClassTable.find? table name).isSome = true → name ∈ names) {depth : Nat}
    {active : List Active} (proper : Active.Proper table active)
    (enough : names.dedup.length ≤ depth + active.length) :
    specializeWithin stop table depth active = specialize table active := by
  induction depth generalizing active with
  | zero =>
    funext base element
    rw [specializeWithin]
    refine eq_specialize fun template name chosen => ?_
    have deeper := (proper.cons chosen).length_le known
    rw [List.length_cons] at deeper
    omega
  | succ depth ih =>
    funext base element
    rw [specializeWithin]
    refine eq_specialize fun template name chosen => ?_
    have entered := proper.cons chosen
    have inner := ih entered (by rw [List.length_cons]; omega)
    simp only [if_pos entered, inner]

end Within

section Nodes

variable (answer : TypeExpr → TypeExpr → Instantiating TypeExpr)

def Class.instantiateWith (c : Class) : Instantiating ClassId := do
  let c ← c.rebuildM (.ofType (onUsage answer))
  modifyGet (Instantiation.addObject c)

def Module.instantiateWith (x : Module Class) : Instantiating (Module ClassId) := do
  let concrete := { x with classes := x.classes.filter fun c => !Class.isGeneric c }
  let y ← concrete.traverseM (Constant.rebuildM (.ofType (onUsage answer)))
    (Function.rebuildM (.ofType (onUsage answer))) (Class.instantiateWith answer)
  let made ← modifyGet Instantiation.takeInstances
  return { y with classes := y.classes ++ made }

def Node.instantiateWith : Node Class → Instantiating (Node ClassId)
  | .module x => .module <$> x.instantiateWith answer
  | .constant c => .constant <$> c.rebuildM (.ofType (onUsage answer))
  | .function f => .function <$> f.rebuildM (.ofType (onUsage answer))
  | .signature s => .signature <$> s.rebuildM (.ofType (onUsage answer))
  | .parameter p => .parameter <$> p.rebuildM (.ofType (onUsage answer))
  | .classDecl c => .classDecl <$> c.rebuildM (.ofType (onUsage answer))
  | .templateItem i => .templateItem <$> i.rebuildM (.ofType (onUsage answer))
  | .type t => .type <$> t.rebuildM (onUsage answer)

theorem Node.instantiateWith_specialize {τ : Type} [ClassTable τ] (table : τ) (n : Node Class) :
    n.instantiateWith (specialize table []) = n.instantiate table := by
  cases n <;> rfl

/-- Instantiation of any tree, from any state, ends within as many nested templates as there are
different names in the table, and at each of them the templates under way are different from each
other and known: the specialization that counts them and looks at them never gives up. -/
theorem instantiate_nests_within_names (os : List ClassObject) (stop : Fault) (n : Node Class) :
    let depth := (os.map (·.decl.name)).dedup.length
    let index := ClassIndex.ofList os
    n.instantiateWith (specializeWithin stop os depth []) = n.instantiate os ∧
      n.instantiateWith (specializeWithin stop index depth []) = n.instantiate index := by
  intro depth index
  have listed (name : String) (known : (ClassTable.find? os name).isSome = true) :
      name ∈ os.map (·.decl.name) := by
    obtain ⟨o, found⟩ := Option.isSome_iff_exists.1 known
    exact ClassTable.mem_names_of_find? found
  constructor
  · rw [specializeWithin_eq stop listed Active.proper_nil (Nat.le_refl _),
      Node.instantiateWith_specialize]
  · rw [specializeWithin_eq stop (fun name known => listed name ?_) Active.proper_nil
      (Nat.le_refl _), Node.instantiateWith_specialize]
    rwa [← ClassIndex.find?_ofList]

end Nodes
end InterfaceTree
