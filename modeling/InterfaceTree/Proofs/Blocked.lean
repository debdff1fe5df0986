import InterfaceTree.Proofs.Faults
import InterfaceTree.Proofs.Readiness
import InterfaceTree.Proofs.Making

/-!
# Templates that are not blocked

A usage is not refused when its template leads to no template under way and to none that leads back
to itself: what is entered from its body leads to no more.
-/
namespace InterfaceTree

section Walks

variable {τ : Type} [ClassTable τ] {table : τ} {active : List Active} {s s' : Instantiation}
  {ts us : List TypeExpr}

theorem Walks.usageFree (h : Walks table active s ts us s') : ∀ u ∈ us, u.UsageFree := by
  induction h with
  | nil => exact fun _ hu => absurd hu List.not_mem_nil
  | named rest ih =>
    exact List.forall_mem_cons.2 ⟨TypeExpr.throughout_named.2 ⟨nofun, nofun⟩, ih⟩
  | ref rest ih => exact List.forall_mem_cons.2 ⟨TypeExpr.throughout_ref.2 ⟨nofun, nofun⟩, ih⟩
  | union inside rest inside_ih rest_ih =>
    exact List.forall_mem_cons.2
      ⟨TypeExpr.throughout_union.2 ⟨inside_ih, nofun, nofun⟩, rest_ih⟩
  | inter inside rest inside_ih rest_ih =>
    exact List.forall_mem_cons.2
      ⟨TypeExpr.throughout_inter.2 ⟨inside_ih, nofun, nofun⟩, rest_ih⟩
  | found usage parts text provided rest parts_ih rest_ih =>
    exact List.forall_mem_cons.2 ⟨TypeExpr.throughout_ref.2 ⟨nofun, nofun⟩, rest_ih⟩
  | made usage parts text absent chosen param body stored rest parts_ih body_ih rest_ih =>
    exact List.forall_mem_cons.2 ⟨TypeExpr.throughout_ref.2 ⟨nofun, nofun⟩, rest_ih⟩

/-- What is called by a name after a walk was called so before, or is an instance. -/
theorem Walks.names (h : Walks table active s ts us s') :
    List.Forall₂ (fun t u => ∀ name, u.name? = some name →
      t.name? = some name ∨ ¬ Name.Simple name) ts us := by
  have of_text {base element : TypeExpr} {name : String}
      (text : (TypeExpr.container base element).canonical = .ok name) (target : Option ClassId)
      (t : TypeExpr) : ∀ other, (TypeExpr.ref ⟨name, target⟩).name? = some other →
        t.name? = some other ∨ ¬ Name.Simple other := by
    rintro other ⟨⟩
    rw [TypeExpr.eq_instanceName rfl text]
    exact .inr (not_simple_instanceName _ _)
  induction h with
  | nil => exact .nil
  | named rest ih => exact .cons (fun _ h => .inl h) ih
  | ref rest ih => exact .cons (fun _ h => .inl h) ih
  | union inside rest inside_ih rest_ih => exact .cons nofun rest_ih
  | inter inside rest inside_ih rest_ih => exact .cons nofun rest_ih
  | found usage parts text provided rest parts_ih rest_ih => exact .cons (of_text text _ _) rest_ih
  | made usage parts text absent chosen param body stored rest parts_ih body_ih rest_ih =>
    exact .cons (of_text text _ _) rest_ih

theorem usageFree_of_gives {t t' : TypeExpr}
    (h : Gives (t.rebuildM (onUsage (specialize table active))) s t' s') : t'.UsageFree :=
  (walks_single h).usageFree t' List.mem_cons_self

theorem name?_of_gives {t t' : TypeExpr} {name : String}
    (h : Gives (t.rebuildM (onUsage (specialize table active))) s t' s')
    (simple : Name.Simple name) (named : t'.name? = some name) : t.name? = some name :=
  ((List.forall₂_cons.1 (walks_single h).names).1 name named).resolve_right (not_not.2 simple)

end Walks

section Clear

variable {leads : String → String → Prop} {active : List Active} {name : String}

/-- No template that is reached from this one is under way, and none is reached from itself. -/
def Clear (leads : String → String → Prop) (active : List Active) (name : String) : Prop :=
  ∀ other, Relation.ReflTransGen leads name other →
    Active.find? active other = none ∧ ¬ Relation.TransGen leads other other

theorem Clear.enter {a : Active} (clear : Clear leads active a.template)
    (step : leads a.template name) : Clear leads (a :: active) name := by
  intro other path
  have differ : a.template ≠ other := by
    rintro rfl
    exact (clear a.template .refl).2 (Relation.TransGen.head' step path)
  rw [Active.find?_cons_of_ne differ]
  exact clear other (.head step path)

end Clear

def Fault.isReentered : Fault → Bool
  | .unsupported (.reentered _ _) => true
  | _ => false

theorem Fault.isReentered_of_isMalformed {fault : Fault} (h : fault.isMalformed = true) :
    fault.isReentered = false := by
  cases fault <;> first | rfl | cases h

section Blocked

variable {τ : Type} [ClassTable τ] (table : τ) (leads : String → String → Prop)

/-- Classes have names without brackets, and the usages in the body of a template are of templates
that it leads to, not of its parameter. -/
structure Follows : Prop where
  simple : ∀ name o, ClassTable.find? table name = some o → Name.Simple name
  body : ∀ o p, ClassTable.find? table o.decl.name = some o → o.decl.template = [p] →
    ∀ t ∈ o.decl.bodyTypes, ∀ u ∈ t.allUsages, ∃ base name,
      u.base? = some base ∧ base.name? = some name ∧ name ≠ p.name ∧ leads o.decl.name name

/-- No walk over the expression refuses a template because it is under way. -/
def Unblocked (active : List Active) (t : TypeExpr) : Prop :=
  Faults (t.rebuildM (onUsage (specialize table active))) fun fault => fault.isReentered = false

/-- No walk inside of the templates under way refuses one of them, over an expression with usages of
clear templates only. -/
def Spared (active : List Active) : Prop :=
  ∀ t : TypeExpr, (∀ name ∈ t.applies, Clear leads active name) → Unblocked table active t

variable {table leads} {active : List Active}

private theorem faults_templateOf {base : TypeExpr} {usage : String}
    (clear : ∀ name o, base.name? = some name → ClassTable.find? table name = some o →
      Clear leads active name) {fault : Fault}
    (failed : templateOf table active base usage = .error fault) : fault.isReentered = false := by
  rw [templateOf] at failed
  split at failed
  · cases failed
    rfl
  · next name named =>
    split at failed
    · cases failed
      rfl
    · next o found =>
      obtain ⟨idle, -⟩ := clear name o named found name .refl
      rw [ClassTable.name_of_find? found, idle] at failed
      cases failed

private theorem faults_makeInstance (follows : Follows table leads) {o : ClassObject}
    {name : String} {element : TypeExpr} (known : ClassTable.find? table o.decl.name = some o)
    (free : element.UsageFree) (clear : Clear leads active o.decl.name)
    (inner : Spared table leads (⟨o.decl.name, name⟩ :: active)) :
    Faults (makeInstance (specialize table (⟨o.decl.name, name⟩ :: active)) o.decl name element)
      fun fault => fault.isReentered = false := by
  have arity {fault : Fault}
      (failed : Template.bind o.decl.name o.decl.template [element] = .error fault) :
      fault.isReentered = false := by
    rw [Template.bind] at failed
    split at failed <;> cases failed
    rfl
  refine (faults_lift fun _ => arity).bind fun s mapping t bound => ?_
  obtain ⟨p, param, rfl⟩ := bind_single (gives_lift_iff.1 bound).1
  refine (faults_refill (Class.rebuildM_eq_refill _ _) ?_).bind fun _ _ _ _ => faults_modifyGet _
  rw [Template.apply_only, Class.types_mapTypes, List.forall_mem_map]
  intro t ht
  refine inner _ fun other hother => ?_
  obtain ⟨v, hv, base', here, named⟩ := TypeExpr.mem_applies.1 hother
  obtain ⟨w, hw, rfl⟩ := (TypeExpr.mem_allUsages_put free).1 hv
  obtain ⟨base, own, hb, called, differ, step⟩ := follows.body o p known param t ht w hw
  rw [TypeExpr.base?_put_of_ne hb called differ] at here
  cases here
  rw [called] at named
  cases named
  exact clear.enter step

private theorem faults_specialize (follows : Follows table leads) {base element : TypeExpr}
    (free : element.UsageFree)
    (clear : ∀ name o, base.name? = some name → ClassTable.find? table name = some o →
      Clear leads active name)
    (inner : ∀ a : Active, Active.idleCount table (a :: active) < Active.idleCount table active →
      Spared table leads (a :: active)) :
    Faults (specialize table active base element) fun fault => fault.isReentered = false := by
  rw [specialize_eq]
  refine (faults_lift fun _ failed => Fault.isReentered_of_isMalformed
    (TypeExpr.isMalformed_of_evaluate failed)).bind fun _ name _ _ => ?_
  refine faults_get.bind fun _ seen _ _ => ?_
  cases seen.cache.find? name with
  | some made => exact faults_pure _
  | none =>
    by_cases before : isMadeBefore table name = true
    · simp only [if_pos before]
      exact faults_pure _
    · simp only [if_neg before]
      refine (faults_lift fun _ => faults_templateOf clear).bind fun _ template _ ok => ?_
      obtain ⟨chosen, -⟩ := gives_lift_iff.1 ok
      obtain ⟨named, known, -⟩ := templateOf_eq_ok_iff.1 chosen
      exact (faults_makeInstance follows known free (clear _ _ named known)
        (inner _ (templateOf_decreases chosen))).bind fun _ _ _ _ => faults_pure _

private theorem spared_step (follows : Follows table leads)
    (inner : ∀ a : Active, Active.idleCount table (a :: active) < Active.idleCount table active →
      Spared table leads (a :: active)) : Spared table leads active := by
  have answer {u base element base' element' : TypeExpr} {s s₁ s₂ s₃ : Instantiation}
      (usage : u.usage? = some (base, element))
      (clear : ∀ name ∈ u.applies, Clear leads active name)
      (hb : Gives (base.rebuildM (onUsage (specialize table active))) s base' s₁)
      (he : Gives (element.rebuildM (onUsage (specialize table active))) s₂ element' s₃) :
      Faults (specialize table active base' element') fun fault => fault.isReentered = false := by
    refine faults_specialize follows (usageFree_of_gives he) (fun name o named found => ?_) inner
    have here := name?_of_gives hb (follows.simple name o found) named
    exact clear name (TypeExpr.mem_applies.2 ⟨u, List.mem_filter.2 ⟨u.mem_subterms_self,
      TypeExpr.isUsage_of_usage? usage⟩, base, TypeExpr.base?_of_usage? usage, here⟩)
  have part {u v : TypeExpr} (hv : v ∈ u.subterms)
      (clear : ∀ name ∈ u.applies, Clear leads active name) :
      ∀ name ∈ v.applies, Clear leads active name :=
    fun name hname => clear name (TypeExpr.applies_subset hv hname)
  have refused {u : TypeExpr} : Faults (do
      let usage ← u.render
      throw (.unsupported (.argumentList usage)) : Instantiating TypeExpr)
      fun fault => fault.isReentered = false :=
    (faults_lift fun _ failed => Fault.isReentered_of_isMalformed
      (TypeExpr.isMalformed_of_evaluate failed)).bind fun _ _ _ _ => faults_throw rfl
  have all {u : TypeExpr} {ts : List TypeExpr} (inside : ∀ t ∈ ts, t ∈ u.subterms)
      (clear : ∀ name ∈ u.applies, Clear leads active name)
      (h : ∀ t ∈ ts, (∀ name ∈ t.applies, Clear leads active name) → Unblocked table active t) :
      Faults (ts.mapM (TypeExpr.rebuildM (onUsage (specialize table active))))
        fun fault => fault.isReentered = false :=
    Faults.mapM fun t ht => h t ht (part (inside t ht) clear)
  intro t clear
  induction t with
  | named name => exact faults_pure _
  | ref reference => exact faults_pure _
  | container base element hb he =>
    obtain ⟨base_inside, element_inside⟩ := TypeExpr.mem_subterms_container base element
    rw [Unblocked, TypeExpr.rebuildM]
    refine (hb (part base_inside clear)).bind fun _ base' _ gives_base => ?_
    refine (he (part element_inside clear)).bind fun _ element' _ gives_element => ?_
    exact answer rfl clear gives_base gives_element
  | generic base args hb ha =>
    obtain ⟨base_inside, args_inside⟩ := TypeExpr.mem_subterms_generic base args
    rw [Unblocked, TypeExpr.rebuildM, TypeExpr.rebuildAllM_eq_mapM]
    refine (hb (part base_inside clear)).bind fun _ base' _ gives_base => ?_
    refine (all args_inside clear ha).bind fun _ args' _ gives_args => ?_
    rcases args with _ | ⟨element, _ | ⟨second, others⟩⟩
    · obtain ⟨rfl, -⟩ := gives_pure_iff.1 gives_args
      exact refused
    · obtain ⟨element', _, _, gives_element, tail, rfl⟩ := gives_mapM_cons_iff.1 gives_args
      obtain ⟨rfl, -⟩ := gives_pure_iff.1 tail
      exact answer rfl clear gives_base gives_element
    · obtain ⟨_, _, _, _, tail, rfl⟩ := gives_mapM_cons_iff.1 gives_args
      obtain ⟨_, _, _, _, _, rfl⟩ := gives_mapM_cons_iff.1 tail
      exact refused
  | union members hm =>
    rw [Unblocked, TypeExpr.rebuildM, TypeExpr.rebuildAllM_eq_mapM]
    exact (all (fun _ => TypeExpr.mem_subterms_union) clear hm).bind fun _ _ _ _ => faults_pure _
  | inter members hm =>
    rw [Unblocked, TypeExpr.rebuildM, TypeExpr.rebuildAllM_eq_mapM]
    exact (all (fun _ => TypeExpr.mem_subterms_inter) clear hm).bind fun _ _ _ _ => faults_pure _

theorem spared (follows : Follows table leads) (active : List Active) :
    Spared table leads active :=
  spared_step follows fun a _ => spared follows (a :: active)
termination_by Active.idleCount table active

theorem Module.unblocked (follows : Follows table leads) {x : Module Class}
    (clear : ∀ t ∈ x.types, ∀ name ∈ t.applies, Clear leads [] name) :
    Faults (x.instantiateParts table) fun fault => fault.isReentered = false := by
  have walk : ∀ t ∈ x.types, Unblocked table [] t := fun t ht => spared follows [] t (clear t ht)
  simp only [types, List.mem_append, List.mem_flatMap] at walk
  rw [instantiateParts, traverseM]
  refine (Faults.mapM fun c hc => faults_refill (Constant.rebuildM_eq_refill _ c) fun t ht =>
    walk t (.inl (.inl ⟨c, hc, ht⟩))).bind fun _ _ _ _ => ?_
  refine (Faults.mapM fun f hf => faults_refill (Function.rebuildM_eq_refill _ f) fun t ht =>
    walk t (.inl (.inr ⟨f, hf, ht⟩))).bind fun _ _ _ _ => ?_
  refine (Faults.mapM fun c hc => ?_).bind fun _ _ _ _ => faults_pure _
  exact (faults_refill (Class.rebuildM_eq_refill _ c) fun t ht =>
    walk t (.inr ⟨c, hc, ht⟩)).bind fun _ _ _ _ => faults_modifyGet _

end Blocked
end InterfaceTree
