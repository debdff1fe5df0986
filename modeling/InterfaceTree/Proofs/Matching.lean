import InterfaceTree.Proofs.Parallel
import InterfaceTree.Proofs.Reuse

/-! # Tables that match -/
namespace InterfaceTree

theorem Class.rebuildM_outline {spec : TypeExpr → TypeExpr → Instantiating TypeExpr} (c : Class) :
    c.outline.rebuildM (.ofType (onUsage spec)) = c.rebuildM (.ofType (onUsage spec)) :=
  c.rebuildM_mapTypes TypeExpr.rebuildM_outline

theorem Template.outline_apply (c : Class) (name : String) (p : TemplateItem)
    (element : TypeExpr) : (Template.apply c name (Template.only p element)).outline =
      (c.outline.body name).mapTypes fun t => t.put p.name element.outline := by
  rw [apply_only, Class.outline, Class.mapTypes_mapTypes]
  simp only [TypeExpr.outline_put]
  exact (Class.mapTypes_mapTypes TypeExpr.outline (fun t => t.put p.name element.outline)
    (c.body name)).symm

theorem TypeExpr.leavesIn_put {P : String → Prop} {t element : TypeExpr} (ht : t.LeavesIn P)
    (he : element.LeavesIn P) (name : String) : (t.put name element).LeavesIn P := by
  intro u hu
  rw [put, leaves_mapLeaves_eq_flatMap] at hu
  obtain ⟨v, hv, hu⟩ := List.mem_flatMap.1 hu
  split at hu
  · exact he u hu
  · rw [leaves_of_isLeaf (isLeaf_of_mem_leaves hv)] at hu
    rw [List.mem_singleton.1 hu]
    exact ht v hv

section Make

variable {P : String → Prop} {first first' : ClassId}
  {spec spec' : TypeExpr → TypeExpr → Instantiating TypeExpr}

theorem ParallelSpecs.makeInstance (h : ParallelSpecs P first first' spec spec') {c d : Class}
    (same : d.outline = c.outline) (inside : ∀ t ∈ c.types, t.LeavesIn P) (name : String)
    {e e' : TypeExpr} (element : Moves P (shift first first') e e') :
    Parallel (Instantiation.Moved first first') (fun i j => j = shift first first' i)
      (InterfaceTree.makeInstance spec c name e) (InterfaceTree.makeInstance spec' d name e') := by
  refine .lift_bind ?_
  have names := Class.name_of_mapTypes_eq same
  have lengths := Class.length_template_of_mapTypes_eq same
  by_cases single : c.template.length = 1
  · obtain ⟨p, param⟩ := List.length_eq_one_iff.1 single
    obtain ⟨q, param', item⟩ := Class.template_of_mapTypes_eq same param
    refine .inr ⟨Template.only p e, Template.only q e', by rw [param]; rfl, by rw [param']; rfl, ?_⟩
    have outlines : (Template.apply d name (Template.only q e')).outline =
        (Template.apply c name (Template.only p e)).outline := by
      rw [Template.outline_apply, Template.outline_apply, same, item, element.image,
        TypeExpr.outline_retarget]
    rw [← Class.rebuildM_outline (Template.apply d name _), outlines, Class.rebuildM_outline]
    have bodies : ∀ t ∈ (Template.apply c name (Template.only p e)).types, t.LeavesIn P := by
      rw [Template.apply_only, Class.types_mapTypes]
      intro t ht
      obtain ⟨u, hu, rfl⟩ := List.mem_map.1 ht
      exact TypeExpr.leavesIn_put (inside u (Class.types_body hu)) element.names p.name
    refine (h.declaration Class.refillable bodies (Class.rebuildM_eq_refill _ _)
      (Class.rebuildM_eq_refill _ _)).bind fun body body' moved => .modifyGet fun s t states => ?_
    rw [moved]
    exact states.addInstance body
  · refine .inl ⟨.malformed .classDecl (.arity c.name c.template.length 1), ?_, ?_⟩
    · exact if_neg single
    · rw [← names, ← lengths]
      exact if_neg (by rwa [lengths])

end Make

section Tables

variable {τ τ' : Type} [ClassTable τ] [ClassTable τ'] {table : τ} {table' : τ'}
  {P : String → Prop} {first first' : ClassId}

/-- Under every name that can be looked up the tables have classes of one outline. -/
structure TablesMatch (P : String → Prop) (table : τ) (table' : τ') : Prop where
  outline : ∀ name, P name → (ClassTable.find? table' name).map (·.decl.outline) =
    (ClassTable.find? table name).map (·.decl.outline)
  /-- What is found leads to no other names. -/
  inside : ∀ name o, P name → ClassTable.find? table name = some o →
    ∀ t ∈ o.decl.types, t.LeavesIn P
  usage : ∀ base element, P (instanceName base element)

namespace TablesMatch

variable (m : TablesMatch P table table')
include m

theorem isMadeBefore_eq {name : String} (allowed : P name) :
    isMadeBefore table' name = isMadeBefore table name := by
  have outlines := m.outline name allowed
  rw [isMadeBefore, isMadeBefore]
  cases found : ClassTable.find? table name with
  | none =>
    rw [found] at outlines
    rw [Option.map_eq_none_iff.1 outlines]
  | some o =>
    rw [found] at outlines
    obtain ⟨o', found', same⟩ := Option.map_eq_some_iff.1 outlines
    rw [found', Option.any_some, Option.any_some, Class.isGeneric_of_mapTypes_eq same]

theorem templateOf {active : List Active} {b b' : TypeExpr} {move : ClassId → ClassId}
    (base : Moves P move b b') (usage : String) :
    (∃ fault, templateOf table active b usage = .error fault ∧
      InterfaceTree.templateOf table' active b' usage = .error fault) ∨
    ∃ o o', InterfaceTree.templateOf table active b usage = .ok o ∧
      InterfaceTree.templateOf table' active b' usage = .ok o' ∧
      o'.decl.outline = o.decl.outline ∧ ∀ t ∈ o.decl.types, t.LeavesIn P := by
  have called : b'.name? = b.name? := by rw [base.image, TypeExpr.name?_retarget]
  rw [InterfaceTree.templateOf, InterfaceTree.templateOf, called]
  cases named : b.name? with
  | none =>
    have kind : b'.kind = b.kind := by
      rw [base.image]
      cases b <;> rfl
    exact .inl ⟨_, rfl, by rw [kind]⟩
  | some name =>
    have allowed : P name := base.names_of_name? named
    have outlines := m.outline name allowed
    dsimp only
    cases found : ClassTable.find? table name with
    | none =>
      rw [found] at outlines
      rw [Option.map_eq_none_iff.1 outlines]
      exact .inl ⟨_, rfl, rfl⟩
    | some o =>
      rw [found] at outlines
      obtain ⟨o', found', same⟩ := Option.map_eq_some_iff.1 outlines
      have names : o'.decl.name = o.decl.name := Class.name_of_mapTypes_eq same
      rw [found']
      dsimp only
      rw [names]
      cases Active.find? active o.decl.name with
      | some outer => exact .inl ⟨_, rfl, rfl⟩
      | none => exact .inr ⟨o, o', rfl, rfl, same, m.inside name o allowed found⟩

/-- With tables that match, usages are answered side by side. -/
theorem specialize (active : List Active) : ParallelSpecs P first first'
    (InterfaceTree.specialize table active) (InterfaceTree.specialize table' active) := by
  constructor
  intro b b' e e' base element
  have text : (TypeExpr.container b' e').canonical = (TypeExpr.container b e).canonical := by
    rw [(base.container element).image]
    exact TypeExpr.evaluate_retarget _ 0 .plain
  rw [specialize_eq, specialize_eq, text]
  refine .same_bind fun name named => .get_bind fun s t states => ?_
  have allowed : P name := by
    obtain ⟨writable, rfl⟩ := TypeExpr.canonical_eq_ok_iff.1 named
    rw [TypeExpr.text_container]
    exact m.usage _ _
  have found := states.cache.find? name
  dsimp only
  rw [found, m.isMadeBefore_eq allowed]
  cases s.cache.find? name with
  | some made => exact ⟨.leaf rfl allowed, states⟩
  | none =>
    dsimp only [Option.map_none]
    by_cases before : isMadeBefore table name = true
    · simp only [if_pos before]
      exact ⟨.leaf rfl allowed, states⟩
    · simp only [if_neg before]
      refine Parallel.lift_bind ?_ s t states
      rcases m.templateOf base name with refused | ⟨o, o', chosen, chosen', same, inside⟩
      · exact .inl refused
      · have names : o'.decl.name = o.decl.name := Class.name_of_mapTypes_eq same
        -- both templates go under way by one name, so the stacks stay the same
        refine .inr ⟨o, o', chosen, chosen', ?_⟩
        rw [names]
        refine ((specialize (⟨o.decl.name, name⟩ :: active)).makeInstance same inside name
          element).bind fun id id' moved => .pure ?_
        rw [moved]
        exact .leaf rfl allowed
termination_by Active.idleCount table active
decreasing_by exact templateOf_decreases chosen

end TablesMatch

section Modules

variable {s t : Instantiation}

def Module.moved (move : ClassId → ClassId) (y : Module ClassId) : Module ClassId where
  constants := y.constants.map (Constant.mapLeaves (TypeExpr.retarget move))
  functions := y.functions.map (Function.mapLeaves (TypeExpr.retarget move))
  classes := y.classes.map move

private theorem forall₂_parallel {α β : Type} {S : Instantiation → Instantiation → Prop}
    {R : β → β → Prop} {v w : α → Instantiating β} {as : List α}
    (h : ∀ a ∈ as, Parallel S R (v a) (w a)) :
    Parallel S (List.Forall₂ R) (as.mapM v) (as.mapM w) :=
  (Parallel.mapM (List.forall₂_same.2 h)).imp fun _ _ rel => rel.2

private theorem eq_map_of_forall₂ {α β : Type} {f : α → β} {as : List α} {bs : List β}
    (h : List.Forall₂ (fun a b => b = f a) as bs) : bs = as.map f := by
  induction h with
  | nil => rfl
  | cons head _ ih => rw [head, ih, List.map_cons]

theorem TablesMatch.instantiateParts (m : TablesMatch P table table') {x : Module Class}
    (names : ∀ t ∈ x.types, t.LeavesIn P) : Parallel (Instantiation.Moved first first')
      (fun y y' => y' = y.moved (shift first first')) (x.instantiateParts table)
      (x.instantiateParts table') := by
  have specs : ParallelSpecs P first first' _ _ := m.specialize []
  simp only [Module.types, List.mem_append, List.mem_flatMap] at names
  have constants := forall₂_parallel fun c (hc : c ∈ x.constants) =>
    specs.declaration Constant.refillable (fun t ht => names t (.inl (.inl ⟨c, hc, ht⟩)))
      (c.rebuildM_eq_refill _) (c.rebuildM_eq_refill _)
  have functions := forall₂_parallel fun f (hf : f ∈ x.functions) =>
    specs.declaration Function.refillable (fun t ht => names t (.inl (.inr ⟨f, hf, ht⟩)))
      (f.rebuildM_eq_refill _) (f.rebuildM_eq_refill _)
  have classes := forall₂_parallel fun c (hc : c ∈ x.classes) =>
    (specs.declaration Class.refillable (fun t ht => names t (.inr ⟨c, hc, ht⟩))
      (c.rebuildM_eq_refill _) (c.rebuildM_eq_refill _)).bind fun d d' moved =>
        Parallel.modifyGet (R := fun i j => j = shift first first' i) fun s t states => by
          rw [moved]
          exact states.addObject d
  refine constants.bind fun cs cs' hcs => functions.bind fun fs fs' hfs =>
    classes.bind fun is is' his => .pure ?_
  rw [eq_map_of_forall₂ hcs, eq_map_of_forall₂ hfs, eq_map_of_forall₂ his]
  rfl

/-- The walk over a module sees no more of it than its outline. -/
theorem Module.instantiateParts_outline (x : Module Class) :
    x.outline.instantiateParts table = x.instantiateParts table := by
  have same (t : TypeExpr) : t.outline.rebuildM (onUsage (specialize table [])) =
      t.rebuildM (onUsage (specialize table [])) := t.rebuildM_outline
  have constants := mapM_map_congr (Constant.rebuildM_mapTypes same) x.constants
  have functions := mapM_map_congr (Function.rebuildM_mapTypes same) x.functions
  have classes := mapM_map_congr (v := Class.instantiate table)
    (f := Class.mapTypes TypeExpr.outline) (fun c => by
      rw [Class.instantiate, usageRebuilder, c.rebuildM_mapTypes same]
      rfl) x.classes
  rw [instantiateParts, instantiateParts, traverseM, traverseM, usageRebuilder]
  simp only [outline, mapTypes, constants, functions, classes]

end Modules
end Tables
end InterfaceTree
