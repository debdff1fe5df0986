import InterfaceTree.Proofs.Instantiation
import InterfaceTree.Proofs.Resolution

namespace InterfaceTree

open Linking

/-- What may be inside of a closed module: no usage, no name but the given ones, and no reference
that is not linked with a class of the module that has its name. -/
def Store.Closed (s : Store) (x : Module ClassId) (allowed : String → Prop) : TypeExpr → Prop
  | .named name => allowed name
  | .ref reference =>
    ∃ id ∈ x.classes, reference.target = some id ∧ (s.read id).name = reference.name
  | .container _ _ => False
  | .generic _ _ => False
  | .union _ => True
  | .inter _ => True

section Module

variable {s s' : Store} {x y : Module ClassId}

private theorem closed_of_settled {allowed : String → Prop} {u : Instantiation} {z : Module ClassId}
    {t : Store} (sound : u.Sound (t.indexOf x) allowed t.size)
    (linked : u.store.LinksTo (u.join z) s' y) {v : TypeExpr} (settled : u.Settled allowed v)
    (complete : lacking? (u.store.firstNamed (u.join z)) v = none) :
    s'.Closed y allowed (v.mapLeaves (filled (u.store.firstNamed (u.join z)))) := by
  have member {id : ClassId} {name : String}
      (h : id ∈ (u.join z).classes ∧ (u.store.read id).name = name) :
      id ∈ y.classes ∧ (s'.read id).name = name := by
    rw [linked.classes, linked.name]
    exact h
  cases v with
  | named name => exact settled
  | ref reference =>
    obtain ⟨name, _ | id⟩ := reference
    · cases found : u.store.firstNamed (u.join z) name with
      | none => simp [lacking?, found] at complete
      | some id =>
        obtain ⟨inside, same⟩ := member (Store.firstNamed_eq_some found)
        exact ⟨id, inside, found, same⟩
    · obtain ⟨inside, same⟩ := member (Instantiation.join_target sound z (settled id rfl))
      exact ⟨id, inside, rfl, same⟩
  | container base element => exact settled
  | generic base args => exact settled
  | union members =>
    rw [TypeExpr.mapLeaves_union]
    trivial
  | inter members =>
    rw [TypeExpr.mapLeaves_inter]
    trivial

theorem closed_of_instantiate {allowed : String → Prop}
    (inScope : NamesScoped (s.indexOf x) allowed)
    (names : ∀ t ∈ (s.load x).concrete.types, t.NamesIn allowed)
    (h : (instantiate x).run.run s = (.ok y, s')) {t w : TypeExpr} (ht : t ∈ (s'.load y).types)
    (hw : w ∈ t.subterms) : s'.Closed y allowed w := by
  obtain ⟨z, u, sound, parts, linked⟩ := parts_of_instantiate inScope names h
  rw [linked.load, Module.mapLeaves, Module.types_mapTypes] at ht
  obtain ⟨before, hbefore, rfl⟩ := List.mem_map.1 ht
  rw [TypeExpr.subterms_mapLeaves _ (filled_isLeaf _)] at hw
  obtain ⟨v, hv, rfl⟩ := List.mem_map.1 hw
  have complete : lacking? (u.store.firstNamed (u.join z)) v = none := by
    by_cases leaf : v.isLeaf = true
    · apply linked.complete
      exact List.mem_flatMap.2 ⟨before, hbefore, List.mem_filter.2 ⟨hv, leaf⟩⟩
    · cases v with
      | ref reference => exact absurd rfl leaf
      | _ => rfl
  exact closed_of_settled sound linked (parts.settled sound names hbefore hv) complete

theorem template_of_instantiate (h : (instantiate x).run.run s = (.ok y, s')) {c : Class}
    (hc : c ∈ (s'.load y).classes) : c.template = [] := by
  obtain ⟨z, u, sound, parts, linked⟩ :=
    parts_of_instantiate (any_inScope _) (fun _ _ _ _ => trivial) h
  rw [linked.load, parts.load_join] at hc
  obtain ⟨before, hbefore, rfl⟩ := List.mem_map.1 hc
  have none : before.template = [] := by
    rcases List.mem_append.1 hbefore with own | made
    · obtain ⟨d, hd, rfl⟩ := List.mem_map.1 own
      rw [Class.mapTypes, Module.template_of_mem_concrete hd, List.map_nil]
    · obtain ⟨i, hi, rfl⟩ := List.mem_map.1 made
      exact (sound.finished i hi).template
  rw [Class.mapTypes, none, List.map_nil]

/-- In a module that comes from resolution, templates keep to the universal type and their own
parameters, and what is concrete keeps to the universal type. -/
theorem names_of_resolve {s₀ s₁ : Store} {x₀ : Module ClassId}
    (h : (resolve x₀).run.run s₀ = (.ok x, s₁)) (same : s.load x = s₁.load x) :
    NamesScoped (s.indexOf x) (· = universalName) ∧
      ∀ t ∈ (s.load x).concrete.types, t.NamesIn (· = universalName) := by
  have scopes {params : List String} {t : TypeExpr}
      (leaves : ∀ u ∈ t.leaves, (params, u) ∈ (s.load x).scopedLeaves) :
      t.NamesIn fun n => n = universalName ∨ n ∈ params := by
    intro name hname
    have leaf := leaves _ hname
    rw [same] at leaf
    exact named_of_resolve h leaf rfl
  have classes : ∀ c ∈ (s.load x).classes, ∀ t ∈ c.types,
      t.NamesIn fun n => n = universalName ∨ n ∈ c.parameterNames := by
    intro c hc t ht
    apply scopes
    intro u hu
    exact List.mem_append_right _ (List.mem_flatMap.2
      ⟨c, hc, List.mem_map.2 ⟨u, List.mem_flatMap.2 ⟨t, ht, hu⟩, rfl⟩⟩)
  refine ⟨fun name o found => classes o.decl (Store.decl_mem_of_find? found), ?_⟩
  intro t ht
  simp only [Module.types, List.mem_append, List.mem_flatMap] at ht
  have outside (leaves : ∀ u ∈ t.leaves, ([], u) ∈ (s.load x).scopedLeaves) :
      t.NamesIn (· = universalName) :=
    fun name hname => (scopes leaves name hname).resolve_right List.not_mem_nil
  rcases ht with (⟨c, hc, ht⟩ | ⟨f, hf, ht⟩) | ⟨c, hc, ht⟩
  · apply outside
    intro u hu
    exact List.mem_append_left _ (List.mem_append_left _ (List.mem_flatMap.2
      ⟨c, hc, List.mem_map.2 ⟨u, List.mem_flatMap.2 ⟨t, ht, hu⟩, rfl⟩⟩))
  · apply outside
    intro u hu
    exact List.mem_append_left _ (List.mem_append_right _ (List.mem_flatMap.2
      ⟨f, hf, List.mem_map.2 ⟨u, List.mem_flatMap.2 ⟨t, ht, hu⟩, rfl⟩⟩))
  · intro name hname
    rcases classes c (List.mem_filter.1 hc).1 t ht name hname with universal | param
    · exact universal
    · rw [Class.parameterNames, Module.template_of_mem_concrete hc] at param
      exact absurd param List.not_mem_nil

/-- After instantiation no class is generic and no usage is left, and every reference is linked with
a class of the module that has its name. If the module was resolved before, the only names that are
left are those of the universal type. -/
theorem instantiate_closed (h : (instantiate x).run.run s = (.ok y, s')) :
    (∀ id ∈ y.classes, s.size ≤ id ∧ id < s'.size) ∧
    (∀ c ∈ (s'.load y).classes, c.template = []) ∧
    (∀ t ∈ (s'.load y).types, ∀ u ∈ t.subterms,
      (u.kind ≠ .containerType ∧ u.kind ≠ .genericType) ∧
      ∀ reference, u = .ref reference → ∃ id ∈ y.classes,
        reference.target = some id ∧ (s'.read id).name = reference.name) ∧
    ((∃ s₀ x₀ s₁, (resolve x₀).run.run s₀ = (.ok x, s₁) ∧ s.load x = s₁.load x) →
      ∀ t ∈ (s'.load y).types, ∀ u ∈ t.subterms, ∀ name, u = .named name →
        name = universalName) := by
  refine ⟨new_of_instantiate h, fun c hc => template_of_instantiate h hc, ?_, ?_⟩
  · intro t ht u hu
    have closed := closed_of_instantiate (any_inScope _) (fun _ _ _ _ => trivial) h ht hu
    constructor
    · constructor <;> intro kind <;> cases u <;> first | exact closed | cases kind
    · rintro reference rfl
      exact closed
  · rintro ⟨s₀, x₀, s₁, resolved, same⟩ t ht u hu name rfl
    obtain ⟨inScope, names⟩ := names_of_resolve resolved same
    exact closed_of_instantiate inScope names h ht hu

private def boxed : Module Class where
  constants := [⟨"box", .container (.named "Box") .universal⟩]
  classes := [
    { name := "Box", template := [⟨"T", .universal⟩], constants := [⟨"item", .named "T"⟩] }]

theorem instantiate_closed_boxed :
    let held := Store.hold {} boxed
    ∃ x s y s', (resolve held.1).run.run held.2 = (.ok x, s) ∧
      (instantiate x).run.run s = (.ok y, s') ∧
      ∀ t ∈ (s'.load y).types, ∀ u ∈ t.subterms, ∀ name, u = .named name →
        name = universalName := by
  intro held
  have succeeds : (match (resolve held.1).run.run held.2 with
      | (.ok x, s) => ((instantiate x).run.run s).1.isOk
      | (.error _, _) => false) = true := by
    decide +kernel
  rcases resolved : (resolve held.1).run.run held.2 with ⟨fault | x, s⟩ <;>
    rw [resolved] at succeeds
  · cases succeeds
  · rcases instantiated : (instantiate x).run.run s with ⟨fault | y, s'⟩ <;>
      simp only [instantiated] at succeeds
    · cases succeeds
    · exact ⟨x, s, y, s', rfl, instantiated,
        (instantiate_closed instantiated).2.2.2 ⟨held.2, held.1, s, resolved, rfl⟩⟩

end Module
end InterfaceTree
