import InterfaceTree.Proofs.Covered
import InterfaceTree.Proofs.Reading

/-!
# What is so of every instance

An instance is made of a template and an argument without usages, after the usages in the body of
the template have been covered.
-/
namespace InterfaceTree

def Instantiation.All (made : Instantiation → String → Prop) (s : Instantiation) : Prop :=
  ∀ i ∈ s.cache.toList, made s i.name

section Law

variable {τ : Type} [ClassTable τ] (table : τ)

/-- The name is that of the instance of a template for an argument in which no usage is left. -/
structure Choice (name : String) (o : ClassObject) (p : TemplateItem) (element : TypeExpr) :
    Prop where
  known : ClassTable.find? table o.decl.name = some o
  param : o.decl.template = [p]
  free : element.UsageFree
  canonical : element.canonical = .ok element.text
  named : name = instanceName o.decl.name element.text

/-- What is so of the expressions that a run goes over is so of the bodies that it goes over because
of them, and with it what is so of the instances before is so of the next one. -/
structure InstanceLaw (node : TypeExpr → Prop) (made : Instantiation → String → Prop) : Prop where
  extends_ : ∀ {s s' : Instantiation} {name : String}, s.Extends s' → made s name → made s' name
  enters : ∀ {u element : TypeExpr} {name : String} {o : ClassObject} {p : TemplateItem},
    u.isUsage = true → node u → u.canonical = .ok name → Choice table name o p element →
      ∀ t ∈ o.decl.bodyTypes, (t.put p.name element).Throughout node
  makes : ∀ {s : Instantiation} {first : ClassId} {u element : TypeExpr} {name : String}
    {o : ClassObject} {p : TemplateItem}, s.Sound table (fun _ => True) first → s.All made →
      u.isUsage = true → node u → u.canonical = .ok name → Choice table name o p element →
        (∀ t ∈ o.decl.bodyTypes, s.CoversAll table (t.put p.name element)) → made s name

variable {table} {node : TypeExpr → Prop} {made : Instantiation → String → Prop} {first : ClassId}
  {active : List Active} {s s' : Instantiation}

theorem choice_of_chosen {u base element base' element' : TypeExpr} {name : String}
    {o : ClassObject} {p : TemplateItem} (usage : u.usage? = some (base, element))
    (sound : s.Sound table (fun _ => True) first)
    (parts : Walks table active s [base, element] [base', element'] s')
    (text : (TypeExpr.container base' element').canonical = .ok name)
    (chosen : templateOf table active base' name = .ok o) (param : o.decl.template = [p]) :
    u.canonical = .ok name ∧ Choice table name o p element' := by
  obtain ⟨-, -, covers, rewritten⟩ := parts.keeps_any sound
  obtain ⟨rfl, rfl⟩ : base' = s'.rewrite base ∧ element' = s'.rewrite element := by
    simpa using rewritten
  have base_covers := covers base List.mem_cons_self
  have element_covers := covers element (List.mem_cons_of_mem _ List.mem_cons_self)
  obtain ⟨-, known, -⟩ := templateOf_eq_ok_iff.1 chosen
  obtain ⟨canonical, named⟩ := name_of_chosen text chosen
  have free := Instantiation.usageFree_rewrite element_covers
  refine ⟨?_, known, param, free, canonical, named⟩
  rw [TypeExpr.canonical_of_usage? usage, ← text, TypeExpr.canonical_container,
    TypeExpr.canonical_container, Instantiation.canonical_rewrite base_covers,
    Instantiation.canonical_rewrite element_covers]

theorem Walks.instances (law : InstanceLaw table node made) {ts us : List TypeExpr}
    (h : Walks table active s ts us s') (sound : s.Sound table (fun _ => True) first)
    (good : ∀ t ∈ ts, t.Throughout node) (start : s.All made) : s'.All made := by
  have pair {u base element : TypeExpr} (usage : u.usage? = some (base, element))
      (good : u.Throughout node) : ∀ t ∈ [base, element], t.Throughout node := by
    simp only [List.mem_cons, List.not_mem_nil, or_false, forall_eq_or_imp, forall_eq]
    exact ((TypeExpr.throughout_usage usage).1 good).1
  induction h with
  | nil => exact start
  | named rest ih => exact ih sound (List.forall_mem_cons.1 good).2 start
  | ref rest ih => exact ih sound (List.forall_mem_cons.1 good).2 start
  | union inside rest inside_ih rest_ih =>
    rw [List.forall_mem_cons, TypeExpr.throughout_union] at good
    obtain ⟨-, sound₁, -, -⟩ := inside.keeps_any sound
    exact rest_ih sound₁ good.2 (inside_ih sound good.1.1 start)
  | inter inside rest inside_ih rest_ih =>
    rw [List.forall_mem_cons, TypeExpr.throughout_inter] at good
    obtain ⟨-, sound₁, -, -⟩ := inside.keeps_any sound
    exact rest_ih sound₁ good.2 (inside_ih sound good.1.1 start)
  | found usage parts text provided rest parts_ih rest_ih =>
    rw [List.forall_mem_cons] at good
    obtain ⟨-, sound₁, -, -⟩ := parts.keeps_any sound
    exact rest_ih sound₁ good.2 (parts_ih sound (pair usage good.1) start)
  | @made active s s₁ s₂ s₃ s' ts us types u base element base' element' name template p id
      usage parts text absent chosen param body stored rest parts_ih body_ih rest_ih =>
    rw [List.forall_mem_cons] at good
    obtain ⟨-, sound₁, -, -⟩ := parts.keeps_any sound
    obtain ⟨-, sound₂, -, -⟩ := body.keeps_any sound₁
    obtain ⟨-, sound₃, -, -⟩ :=
      (Walks.made usage parts text absent chosen param body stored .nil).keeps_any sound
    obtain ⟨canonical, choice⟩ := choice_of_chosen usage sound parts text chosen param
    have is_usage := TypeExpr.isUsage_of_usage? usage
    have inside := body.covers_all sound₁
    rw [Template.apply_only, Class.types_mapTypes, List.forall_mem_map] at inside body_ih
    have enters := law.enters is_usage good.1.self canonical choice
    have start₂ := body_ih sound₁ enters (parts_ih sound (pair usage good.1) start)
    have new := law.makes sound₂ start₂ is_usage good.1.self canonical choice inside
    obtain rfl := congrArg Prod.snd stored
    have grown := Instantiation.Extends.addInstance s₂
      ((Template.apply template.decl name (Template.only p element')).refill types)
    refine rest_ih sound₃ good.2 fun i hi => ?_
    rcases Instantiation.mem_addInstance hi with old | rfl
    · exact law.extends_ grown (start₂ i old)
    · exact law.extends_ grown new

theorem WalksModule.instances (law : InstanceLaw table node made) {x : Module Class}
    {y : Module ClassId} (h : WalksModule table s x y s')
    (sound : s.Sound table (fun _ => True) first) (good : ∀ t ∈ x.types, t.Throughout node)
    (start : s.All made) : s'.All made := by
  let P (u : Instantiation) : Prop := u.Sound table (fun _ => True) first ∧ u.All made
  have kept : P s' ∧ ∀ t ∈ x.types, True := by
    refine WalksModule.induct (fun _ _ => trivial) ?_ ?_ h ⟨sound, start⟩
    · rintro s s' ts us ⟨sound, start⟩ inside walk
      obtain ⟨grown, sound', -, -⟩ := walk.keeps_any sound
      have all := walk.instances law sound (fun t ht => good t (inside t ht)) start
      exact ⟨grown, ⟨sound', all⟩, fun _ _ => trivial⟩
    · rintro s c ⟨sound, start⟩
      have grown := Instantiation.Extends.addObject s c
      exact ⟨sound.addObject c, fun i hi => law.extends_ grown (start i hi)⟩
  exact kept.1.2

end Law

section Usages

theorem TypeExpr.eq_instanceName {u base element : TypeExpr} {text : String}
    (usage : u.usage? = some (base, element)) (canonical : u.canonical = .ok text) :
    text = instanceName base.text element.text := by
  rw [canonical_of_usage? usage] at canonical
  rw [← (canonical_eq_ok_iff.1 canonical).2, text_container, instanceName]

variable {s : Store} {x : Module ClassId} {u : Instantiation}

theorem simple_of_find? (simple : ∀ name ∈ (s.load x).classNames, Name.Simple name) (name : String)
    (o : ClassObject) (found : ClassTable.find? (s.indexOf x) name = some o) :
    Name.Simple name := by
  rw [← ClassTable.name_of_find? found]
  exact simple _ (List.mem_map.2 ⟨o.decl, Store.decl_mem_of_find? found, rfl⟩)

/-- Where the names of classes have no brackets, what is provided for a usage has been made. -/
theorem target_of_provides (simple : ∀ name ∈ (s.load x).classNames, Name.Simple name)
    {v : TypeExpr} {text : String} (usage : v.isUsage = true) (canonical : v.canonical = .ok text)
    (provided : u.Provides (s.indexOf x) text) : ∃ id, u.target? text = some id := by
  rw [TypeExpr.isUsage_eq] at usage
  obtain ⟨⟨base, element⟩, usage⟩ := Option.isSome_iff_exists.1 usage
  rw [TypeExpr.eq_instanceName usage canonical] at provided ⊢
  exact provided.resolve_left (not_isMadeBefore (simple_of_find? simple) _ _)

end Usages
end InterfaceTree
