import InterfaceTree.Proofs.Origin

/-! # Texts are kept -/
namespace InterfaceTree

section Walks

variable {τ : Type} [ClassTable τ] {table : τ} {active : List Active} {s s' : Instantiation}
  {ts us : List TypeExpr}

namespace TypeExpr

private theorem mapM_canonical_congr
    (h : List.Forall₂ (fun t u => u.canonical = t.canonical) ts us) :
    us.mapM canonical = ts.mapM canonical := by
  induction h with
  | nil => rfl
  | cons head _ ih => rw [List.mapM_cons, List.mapM_cons, head, ih]

private theorem canonical_of_parts {u base element base' element' : TypeExpr} {name : String}
    (usage : u.usage? = some (base, element))
    (parts : List.Forall₂ (fun t u => u.canonical = t.canonical) [base, element] [base', element'])
    (text : (container base' element').canonical = .ok name) (target : Option ClassId) :
    canonical (.ref ⟨name, target⟩) = u.canonical := by
  have same : (container base' element').canonical = (container base element).canonical := by
    simp only [List.forall₂_cons, List.forall₂_nil_left_iff, and_true] at parts
    rw [canonical_container, canonical_container, parts.1, parts.2]
  rw [canonical_of_usage? usage, ← same, text]
  exact canonical_ref_of_isUsage rfl text target

end TypeExpr

/-- A walk keeps what each expression is called, from any state whatever. -/
theorem Walks.canonical (h : Walks table active s ts us s') :
    List.Forall₂ (fun t u => u.canonical = t.canonical) ts us := by
  induction h with
  | nil => exact .nil
  | named rest ih => exact .cons rfl ih
  | ref rest ih => exact .cons rfl ih
  | union inside rest inside_ih rest_ih =>
    refine .cons ?_ rest_ih
    rw [TypeExpr.canonical_union, TypeExpr.canonical_union,
      TypeExpr.mapM_canonical_congr inside_ih]
  | inter inside rest inside_ih rest_ih =>
    refine .cons ?_ rest_ih
    rw [TypeExpr.canonical_inter, TypeExpr.canonical_inter,
      TypeExpr.mapM_canonical_congr inside_ih]
  | found usage parts text provided rest parts_ih rest_ih =>
    exact .cons (TypeExpr.canonical_of_parts usage parts_ih text _) rest_ih
  | made usage parts text absent chosen param body stored rest parts_ih body_ih rest_ih =>
    exact .cons (TypeExpr.canonical_of_parts usage parts_ih text _) rest_ih

theorem canonical_of_gives {t t' : TypeExpr}
    (h : Gives (t.rebuildM (onUsage (specialize table active))) s t' s') :
    t'.canonical = t.canonical :=
  (List.forall₂_cons.1 (walks_single h).canonical).1

end Walks

section Modules

variable {s s' : Store} {x y : Module ClassId}

/-- An instantiated module has the concrete declarations of the module before, each type under the
text that it had, and then the instances. -/
theorem retained_of_instantiate (h : (instantiate x).run.run s = (.ok y, s')) : ∃ image made,
    s'.load y = ((s.load x).concrete.mapTypes image).addClasses made ∧
      ∀ t ∈ (s.load x).concrete.types, (image t).canonical = t.canonical := by
  obtain ⟨z, u, -, parts, linked⟩ :=
    parts_of_instantiate (any_inScope _) (fun _ _ _ _ => trivial) h
  refine ⟨_, _, parts.load_linked linked, fun t ht => ?_⟩
  rw [canonical_filled, Instantiation.canonical_rewrite (parts.covers t ht)]

/-- Specialization keeps what an expression is called, and failure to be called anything, in every
state and inside of all templates. So an instantiated module has the constants, the functions and
the concrete classes that it had, in order and in shape, with every type under the text that it had;
the instances come after them. -/
theorem instantiate_keeps_texts :
    (∀ {τ : Type} [ClassTable τ] (table : τ) (active : List Active) (s s' : Instantiation)
      (t t' : TypeExpr),
        (t.rebuildM (onUsage (specialize table active))).run.run s = (.ok t', s') →
          t'.canonical = t.canonical) ∧
    ∀ (s s' : Store) (x y : Module ClassId), (instantiate x).run.run s = (.ok y, s') →
      ∃ image made, s'.load y = ((s.load x).concrete.mapTypes image).addClasses made ∧
        ∀ t ∈ (s.load x).concrete.types, (image t).canonical = t.canonical :=
  ⟨fun _ _ _ _ _ _ h => canonical_of_gives h, fun _ _ _ _ h => retained_of_instantiate h⟩

private def nested : Module Class where
  constants := [⟨"rack", .container (.named "Box") (.container (.unlinked "Box") .universal)⟩,
    ⟨"blank", .union [.named "", .generic (.named "Box") [.named "Peg"]]⟩]
  classes := [
    { name := "Peg" },
    { name := "Box", template := [⟨"T", .universal⟩], constants := [⟨"item", .named "T"⟩] }]

theorem instantiate_keeps_texts_nested :
    let held := Store.hold {} nested
    let blank : TypeExpr := .union [.named "", .generic (.named "Box") [.named "Peg"]]
    let rack : TypeExpr := .container (.named "Box") (.container (.unlinked "Box") .universal)
    (∃ t' s', (blank.rebuildM (onUsage (specialize (held.2.indexOf held.1) []))).run.run
        { store := held.2 } = (.ok t', s') ∧
      t'.canonical = .error (.malformed .namedType .emptyName)) ∧
    ∃ y s' image made, (instantiate held.1).run.run held.2 = (.ok y, s') ∧
      s'.load y = (nested.concrete.mapTypes image).addClasses made ∧
      (image rack).canonical = .ok "Box<Box<object>>" := by
  intro held blank rack
  have folds : ((blank.rebuildM (onUsage (specialize (held.2.indexOf held.1) []))).run.run
      { store := held.2 }).1.isOk = true := by decide +kernel
  have succeeds : ((instantiate held.1).run.run held.2).1.isOk = true := by decide +kernel
  constructor
  · rcases run : (blank.rebuildM (onUsage (specialize (held.2.indexOf held.1) []))).run.run
      { store := held.2 } with ⟨fault | t', s'⟩ <;> rw [run] at folds
    · cases folds
    · exact ⟨t', s', rfl, instantiate_keeps_texts.1 _ _ _ _ _ _ run⟩
  · rcases run : (instantiate held.1).run.run held.2 with ⟨fault | y, s'⟩ <;> rw [run] at succeeds
    · cases succeeds
    · obtain ⟨image, made, loaded, texts⟩ := instantiate_keeps_texts.2 _ _ _ _ run
      rw [Store.load_hold] at loaded texts
      exact ⟨y, s', image, made, rfl, loaded, texts rack List.mem_cons_self⟩

end Modules
end InterfaceTree
