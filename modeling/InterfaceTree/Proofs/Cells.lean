import InterfaceTree.Cell

/-!
# Cells over time

A register holds one cell until a new one is put in its place. For that time the cell is told by
what it held at first and by the classes that it is offered.
-/
namespace InterfaceTree.Bench

/-- The register in which a step puts a new cell. -/
def Step.renews? : Step → Option String
  | .create register _ _ => some register
  | .copy _ into => some into
  | _ => none

/-- The class that a step offers to the cell in a register. -/
def Step.offers? (register : String) : Step → Option ClassId
  | .link own target => if own = register then some target else none
  | _ => none

def after (b : Bench) (steps : List Step) : Bench := steps.foldl (fun b step => (b.run step).2) b

/-- The reference with the first of the classes offered to it, unless it has a target already. -/
def offered (r : Reference) (offer : Option ClassId) : Reference :=
  { r with target := r.target.or offer }

section Put

variable (b : Bench) (register : String) (r : Reference)

theorem read_put_self : (b.put register r).read register = r := by
  simp [put, read]

theorem read_put_of_ne {other : String} (h : register ≠ other) :
    (b.put register r).read other = b.read other := by
  simp [put, read, Std.TreeMap.getD_insert, h]

end Put

section Link

theorem link_of_fits {r : Reference} {id : ClassId} (fits : r.target = none ∨ r.target = some id) :
    r.link id = .ok { r with target := some id } := by
  obtain ⟨name, target⟩ := r
  rcases fits with rfl | rfl
  · rfl
  · simp [Reference.link]

theorem link_of_not_fits {r : Reference} {id : ClassId}
    (fits : ¬ (r.target = none ∨ r.target = some id)) :
    r.link id = .error (.malformed .classReference (.alreadyLinked r.name)) := by
  obtain ⟨name, _ | old⟩ := r
  · exact absurd (.inl rfl) fits
  · have other : old ≠ id := fun same => fits (.inr (congrArg some same))
    simp [Reference.link, other]

variable (b : Bench) {register : String} {id : ClassId}

theorem run_link_of_fits
    (fits : (b.read register).target = none ∨ (b.read register).target = some id) :
    b.run (.link register id) =
      (.done, b.put register { b.read register with target := some id }) := by
  rw [run, link_of_fits fits]

theorem run_link_of_not_fits
    (fits : ¬ ((b.read register).target = none ∨ (b.read register).target = some id)) :
    b.run (.link register id) =
      (.refused (.malformed .classReference (.alreadyLinked (b.read register).name)), b) := by
  rw [run, link_of_not_fits fits]

end Link

section Step

variable (b : Bench)

theorem read_run (step : Step) {register : String} (stays : step.renews? ≠ some register) :
    (b.run step).2.read register = offered (b.read register) (step.offers? register) := by
  have kept : offered (b.read register) none = b.read register := by
    rw [offered, Option.or_none]
  cases step with
  | create own name target =>
    have other : own ≠ register := fun same => stays (congrArg some same)
    exact (read_put_of_ne b own _ other).trans kept.symm
  | copy source into =>
    have other : into ≠ register := fun same => stays (congrArg some same)
    exact (read_put_of_ne b into _ other).trans kept.symm
  | link own id =>
    by_cases same : own = register
    · subst same
      rw [Step.offers?, if_pos rfl]
      by_cases fits : (b.read own).target = none ∨ (b.read own).target = some id
      · rw [run_link_of_fits b fits, read_put_self, offered]
        rcases fits with empty | linked
        · rw [empty, Option.none_or]
        · rw [linked, Option.some_or]
      · rw [run_link_of_not_fits b fits, offered]
        cases target : (b.read own).target with
        | none => exact absurd (.inl target) fits
        | some old => rw [Option.some_or, ← target]
    · rw [Step.offers?, if_neg same, kept]
      by_cases fits : (b.read own).target = none ∨ (b.read own).target = some id
      · rw [run_link_of_fits b fits]
        exact read_put_of_ne b own _ same
      · rw [run_link_of_not_fits b fits]
  | drop target => exact kept.symm
  | pointsTo own target => exact kept.symm
  | same own other => exact kept.symm
  | inspect own => exact kept.symm

theorem classes_run (step : Step) : (b.run step).2.classes = b.classes ∧
    ∀ id, id ∈ (b.run step).2.dead ↔ id ∈ b.dead ∨ step = .drop id := by
  cases step with
  | link own id =>
    by_cases fits : (b.read own).target = none ∨ (b.read own).target = some id
    · rw [run_link_of_fits b fits]
      simp [put]
    · rw [run_link_of_not_fits b fits]
      simp
  | drop target => simp [run, or_comm, eq_comm]
  | _ => simp [run, put]

end Step

section Run

variable (b : Bench) (steps : List Step)

theorem read_after {register : String} (stays : ∀ step ∈ steps, step.renews? ≠ some register) :
    (b.after steps).read register =
      offered (b.read register) (steps.findSome? (Step.offers? register)) := by
  induction steps generalizing b with
  | nil => exact (congrArg (Reference.mk _) (Option.or_none)).symm
  | cons step steps ih =>
    rw [List.forall_mem_cons] at stays
    have first := b.read_run step stays.1
    have rest := ih (b.run step).2 stays.2
    rw [first] at rest
    -- the offer of the first step comes before those of the others
    refine rest.trans ?_
    rw [offered, offered, offered, Option.or_assoc, List.findSome?_cons]
    cases step.offers? register <;> rfl

theorem classes_after : (b.after steps).classes = b.classes ∧
    ∀ id, id ∈ (b.after steps).dead ↔ id ∈ b.dead ∨ .drop id ∈ steps := by
  induction steps generalizing b with
  | nil => simp [after]
  | cons step steps ih =>
    obtain ⟨classes, dead⟩ := b.classes_run step
    obtain ⟨rest_classes, rest_dead⟩ := ih (b.run step).2
    refine ⟨rest_classes.trans classes, fun id => (rest_dead id).trans ?_⟩
    rw [dead, List.mem_cons, or_assoc, eq_comm]

theorem isAlive_after (classes : List String) (id : ClassId) :
    (after { classes } steps).isAlive id = true ↔ id < classes.length ∧ .drop id ∉ steps := by
  obtain ⟨same, dead⟩ := classes_after { classes } steps
  simp [isAlive, same, dead]

end Run

section Replies

variable (b : Bench) (register : String)

theorem classOf_eq_some_iff (r : Reference) (id : ClassId) :
    b.classOf r = some id ↔ r.target = some id ∧ b.isAlive id = true := by
  simp [classOf, Option.filter_eq_some_iff]

theorem run_pointsTo (id : ClassId) : ∃ answer,
    b.run (.pointsTo register id) = (.truth answer, b) ∧
      (answer = true ↔ (b.read register).target = some id) :=
  ⟨_, rfl, by simp [Reference.pointsTo]⟩

/-- References are compared by name and by the identity of their classes. -/
theorem run_same (other : String) : ∃ answer,
    b.run (.same register other) = (.truth answer, b) ∧
      (answer = true ↔ (b.read register).name = (b.read other).name ∧
        ((b.read register).target = none ∧ (b.read other).target = none ∨
          ∃ id, (b.read register).target = some id ∧ (b.read other).target = some id)) := by
  refine ⟨_, rfl, ?_⟩
  rw [beq_iff_eq]
  rcases b.read register with ⟨name, _ | id⟩ <;> rcases b.read other with ⟨name', _ | id'⟩ <;>
    simp [eq_comm]

end Replies

/-- The laws of the cells, after any run that starts with living classes and no cells.

A cell that stays in its register holds its first target from the step that gives it to the end of
the run, and what it holds depends on the steps that link it alone. So a copy, which starts with
what the original holds, and the original go their own ways. A cell takes a class when it is empty
or holds that very class, and refuses any other, with nothing changed. What can be had through it is
that very class, until it is dropped. References are the same when their names are and both are
empty or hold one class. -/
theorem cells_write_once (classes : List String) (steps : List Step) :
    let b := after { classes } steps
    (∀ register name target,
      (b.run (.create register name target)).2.read register = ⟨name, target⟩) ∧
    (∀ register later, (∀ step ∈ later, step.renews? ≠ some register) →
      (b.after later).read register =
        offered (b.read register) (later.findSome? (Step.offers? register)) ∧
      ∀ id, (b.read register).target = some id →
        ((b.after later).read register).target = some id) ∧
    (∀ register id, let r := b.read register
      (r.target = none ∨ r.target = some id →
        b.run (.link register id) = (.done, b.put register { r with target := some id })) ∧
      (¬ (r.target = none ∨ r.target = some id) → b.run (.link register id) =
        (.refused (.malformed .classReference (.alreadyLinked r.name)), b))) ∧
    (∀ register into later, let copied := (b.run (.copy register into)).2
      copied.read into = b.read register ∧
      ((∀ step ∈ later, step.renews? ≠ some into) → (copied.after later).read into =
        offered (b.read register) (later.findSome? (Step.offers? into))) ∧
      (register ≠ into → (∀ step ∈ later, step.renews? ≠ some register) →
        (copied.after later).read register =
          offered (b.read register) (later.findSome? (Step.offers? register)))) ∧
    (∀ register, ∃ seen,
      b.run (.inspect register) =
        (.view ⟨b.read register, seen, seen.bind fun id => classes[id]?⟩, b) ∧
      ∀ id, seen = some id ↔
        (b.read register).target = some id ∧ id < classes.length ∧ .drop id ∉ steps) ∧
    (∀ register id, ∃ answer, b.run (.pointsTo register id) = (.truth answer, b) ∧
      (answer = true ↔ (b.read register).target = some id)) ∧
    ∀ register other, ∃ answer, b.run (.same register other) = (.truth answer, b) ∧
      (answer = true ↔ (b.read register).name = (b.read other).name ∧
        ((b.read register).target = none ∧ (b.read other).target = none ∨
          ∃ id, (b.read register).target = some id ∧ (b.read other).target = some id)) := by
  intro b
  refine ⟨fun register name target => read_put_self b register _, ?_, ?_, ?_, ?_, b.run_pointsTo,
    b.run_same⟩
  · intro register later stays
    have told := b.read_after later stays
    refine ⟨told, fun id held => ?_⟩
    rw [told, offered, held, Option.some_or]
  · exact fun register id => ⟨b.run_link_of_fits, b.run_link_of_not_fits⟩
  · intro register into later copied
    have copy : copied.read into = b.read register := read_put_self b into _
    refine ⟨copy, fun stays => ?_, fun other stays => ?_⟩
    · rw [copied.read_after later stays, copy]
    · have original : copied.read register = b.read register :=
        read_put_of_ne b into _ other.symm
      rw [copied.read_after later stays, original]
  · intro register
    have same : b.classes = classes := (classes_after { classes } steps).1
    refine ⟨b.classOf (b.read register), by rw [run, same], fun id => ?_⟩
    rw [classOf_eq_some_iff, isAlive_after]

end InterfaceTree.Bench
