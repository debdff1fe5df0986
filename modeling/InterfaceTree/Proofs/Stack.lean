import InterfaceTree.Proofs.Refill
import InterfaceTree.Proofs.Run
import InterfaceTree.Instance.Instantiate

/-!
# Templates under way on a stack

Specialization hands the templates under way down to where a usage is met. Here they are on a stack
that belongs to the state and is popped however a run ends.
-/
namespace InterfaceTree

/-- What the instantiations of several trees share: the instances made so far and the templates
under way, the innermost first. -/
structure Instantiator where
  work : Instantiation
  active : List Active := []

abbrev Stacked := ExceptT Fault (StateM Instantiator)

section Machine

variable {α : Type}

def Stacked.onWork (f : Instantiation → α × Instantiation) : Stacked α :=
  modifyGet fun m => ((f m.work).1, { m with work := (f m.work).2 })

/-- Runs with one more template under way, which is taken off the stack however the run ends. -/
def Stacked.within (a : Active) (run : Stacked α) : Stacked α :=
  ExceptT.mk do
    modify fun m => { m with active := a :: m.active }
    let result ← run.run
    modify fun m => { m with active := m.active.tail }
    return result

variable (answer : TypeExpr → TypeExpr → Stacked TypeExpr)

def Stacked.onUsage (t : TypeExpr) : Stacked TypeExpr :=
  match t with
  | .named _ => pure t
  | .ref reference => pure (.unlinked reference.name)
  | .container base element => answer base element
  | .generic base [element] => answer base element
  | .generic _ _ => do
    let usage ← t.render
    throw (.unsupported (.argumentList usage))
  | .union _ => pure t
  | .inter _ => pure t

def Stacked.makeInstance (template : Class) (name : String) (element : TypeExpr) :
    Stacked ClassId := do
  let mapping ← Template.bind template.name template.template [element]
  let body ← (Template.apply template name mapping).rebuildM (.ofType (onUsage answer))
  onWork (Instantiation.addInstance body)

section Specialize

variable {τ : Type} [ClassTable τ] (stop : Fault) (table : τ)

/-- Specialization that looks for the templates under way on the stack. It enters at most `depth`
of them inside of those under way, and gives up with `stop` instead. -/
def Stacked.specialize (depth : Nat) (base element : TypeExpr) : Stacked TypeExpr := do
  let name ← (TypeExpr.container base element).canonical
  let m ← get
  match m.work.cache.find? name with
  | some made => return .linked name made.id
  | none =>
    if isMadeBefore table name then return .unlinked name
    else
      let template ← templateOf table m.active base name
      match depth with
      | 0 => throw stop
      | depth + 1 =>
        let id ← within ⟨template.decl.name, name⟩
          (makeInstance (specialize depth) template.decl name element)
        return .linked name id

end Specialize

def Class.instantiateStacked (c : Class) : Stacked ClassId := do
  let c ← c.rebuildM (.ofType (Stacked.onUsage answer))
  Stacked.onWork (Instantiation.addObject c)

def Module.instantiateStacked (x : Module Class) : Stacked (Module ClassId) := do
  let concrete := { x with classes := x.classes.filter fun c => !Class.isGeneric c }
  let y ← concrete.traverseM (Constant.rebuildM (.ofType (Stacked.onUsage answer)))
    (Function.rebuildM (.ofType (Stacked.onUsage answer))) (Class.instantiateStacked answer)
  let made ← Stacked.onWork Instantiation.takeInstances
  return { y with classes := y.classes ++ made }

/-- Instantiation of a tree where usages are answered with the stack at hand. -/
def Node.instantiateStacked : Node Class → Stacked (Node ClassId)
  | .module x => .module <$> x.instantiateStacked answer
  | .constant c => .constant <$> c.rebuildM (.ofType (Stacked.onUsage answer))
  | .function f => .function <$> f.rebuildM (.ofType (Stacked.onUsage answer))
  | .signature s => .signature <$> s.rebuildM (.ofType (Stacked.onUsage answer))
  | .parameter p => .parameter <$> p.rebuildM (.ofType (Stacked.onUsage answer))
  | .classDecl c => .classDecl <$> c.rebuildM (.ofType (Stacked.onUsage answer))
  | .templateItem i => .templateItem <$> i.rebuildM (.ofType (Stacked.onUsage answer))
  | .type t => .type <$> t.rebuildM (Stacked.onUsage answer)

end Machine

section Mirrors

variable {α β : Type}

/-- The run goes from this work as the other does, with these templates on the stack before and
after. -/
def MirrorsAt (active : List Active) (s : Instantiation) (x : Stacked α) (y : Instantiating α) :
    Prop :=
  x.run.run ⟨s, active⟩ = ((y.run.run s).1, ⟨(y.run.run s).2, active⟩)

def Mirrors (active : List Active) (x : Stacked α) (y : Instantiating α) : Prop :=
  ∀ s, MirrorsAt active s x y

namespace Mirrors

variable {active : List Active}

theorem pure (a : α) : Mirrors active (Pure.pure a) (Pure.pure a) := fun _ => rfl

theorem throw (fault : Fault) :
    Mirrors active (throw fault : Stacked α) (MonadExcept.throw fault) :=
  fun _ => rfl

theorem lift (x : Except Fault α) : Mirrors active (liftM x) (liftM x) := by
  intro s
  rw [MirrorsAt, exceptT_run_lift, exceptT_run_lift]

theorem onWork (f : Instantiation → α × Instantiation) :
    Mirrors active (Stacked.onWork f) (modifyGet f) := fun _ => rfl

theorem bind {x : Stacked α} {y : Instantiating α} {f : α → Stacked β} {g : α → Instantiating β}
    (hx : Mirrors active x y) (hf : ∀ a, Mirrors active (f a) (g a)) :
    Mirrors active (x >>= f) (y >>= g) := by
  intro s
  have head := hx s
  rw [MirrorsAt] at head
  rw [MirrorsAt, exceptT_run_bind, exceptT_run_bind, head]
  rcases y.run.run s with ⟨fault | a, t⟩
  · rfl
  · exact hf a t

theorem get_bind {f : Instantiator → Stacked β} {g : Instantiation → Instantiating β}
    (h : ∀ s, MirrorsAt active s (f ⟨s, active⟩) (g s)) :
    Mirrors active (get >>= f) (get >>= g) := by
  intro s
  rw [MirrorsAt, exceptT_run_bind, exceptT_run_bind, exceptT_run_get, exceptT_run_get]
  exact h s

theorem within {a : Active} {x : Stacked α} {y : Instantiating α} (h : Mirrors (a :: active) x y) :
    Mirrors active (Stacked.within a x) y := by
  intro s
  have inside := h s
  rw [MirrorsAt] at inside
  have unfolded : (Stacked.within a x).run.run ⟨s, active⟩ =
      ((x.run.run ⟨s, a :: active⟩).1, { (x.run.run ⟨s, a :: active⟩).2 with
        active := (x.run.run ⟨s, a :: active⟩).2.active.tail }) := rfl
  rw [MirrorsAt, unfolded, inside, List.tail_cons]

theorem map {x : Stacked α} {y : Instantiating α} (f : α → β) (h : Mirrors active x y) :
    Mirrors active (f <$> x) (f <$> y) := by
  rw [map_eq_pure_bind, map_eq_pure_bind]
  exact h.bind fun a => .pure (f a)

theorem mapM {f : α → Stacked β} {g : α → Instantiating β} {as : List α}
    (h : ∀ a ∈ as, Mirrors active (f a) (g a)) : Mirrors active (as.mapM f) (as.mapM g) := by
  induction as with
  | nil => exact .pure []
  | cons a as ih =>
    rw [List.forall_mem_cons] at h
    rw [List.mapM_cons, List.mapM_cons]
    exact h.1.bind fun b => (ih h.2).bind fun bs => .pure (b :: bs)

section Rebuild

variable {answer : TypeExpr → TypeExpr → Stacked TypeExpr}
  {spec : TypeExpr → TypeExpr → Instantiating TypeExpr}
  (h : ∀ base element, Mirrors active (answer base element) (spec base element))
include h

theorem onUsage (t : TypeExpr) :
    Mirrors active (Stacked.onUsage answer t) (InterfaceTree.onUsage spec t) := by
  rcases t with _ | _ | ⟨base, element⟩ | ⟨base, _ | ⟨element, _ | _⟩⟩ | _ | _
  case container => exact h base element
  case generic.cons.nil => exact h base element
  case generic.nil => exact (lift _).bind fun _ => .throw _
  case generic.cons.cons => exact (lift _).bind fun _ => .throw _
  all_goals exact .pure _

theorem rebuildM (t : TypeExpr) : Mirrors active (t.rebuildM (Stacked.onUsage answer))
    (t.rebuildM (InterfaceTree.onUsage spec)) := by
  have all {ts : List TypeExpr} (hts : ∀ t ∈ ts, Mirrors active
      (t.rebuildM (Stacked.onUsage answer)) (t.rebuildM (InterfaceTree.onUsage spec))) :
      Mirrors active (TypeExpr.rebuildAllM (Stacked.onUsage answer) ts)
        (TypeExpr.rebuildAllM (InterfaceTree.onUsage spec) ts) := by
    rw [TypeExpr.rebuildAllM_eq_mapM, TypeExpr.rebuildAllM_eq_mapM]
    exact mapM hts
  induction t with
  | named name => exact onUsage h _
  | ref reference => exact onUsage h _
  | container base element hb he => exact hb.bind fun _ => he.bind fun _ => onUsage h _
  | generic base args hb ha => exact hb.bind fun _ => (all ha).bind fun _ => onUsage h _
  | union members hm => exact (all hm).bind fun _ => onUsage h _
  | inter members hm => exact (all hm).bind fun _ => onUsage h _

theorem refill {refill : List TypeExpr → α} {x : Stacked α} {y : Instantiating α}
    (ts : List TypeExpr)
    (hx : x = refill <$> ts.mapM (TypeExpr.rebuildM (Stacked.onUsage answer)))
    (hy : y = refill <$> ts.mapM (TypeExpr.rebuildM (InterfaceTree.onUsage spec))) :
    Mirrors active x y := by
  rw [hx, hy]
  exact (mapM fun t _ => rebuildM h t).map refill

theorem makeInstance (c : Class) (name : String) (element : TypeExpr) :
    Mirrors active (Stacked.makeInstance answer c name element)
      (InterfaceTree.makeInstance spec c name element) :=
  (lift _).bind fun mapping =>
    (refill h _ (Class.rebuildM_eq_refill _ (Template.apply c name mapping))
      (Class.rebuildM_eq_refill _ _)).bind fun _ => .onWork _

end Rebuild
end Mirrors
end Mirrors

section Specialize

variable {τ : Type} [ClassTable τ] {table : τ} (stop : Fault)

private theorem mirrors_choice {active : List Active} {base element : TypeExpr}
    {enter : ClassObject → String → Stacked TypeExpr}
    (h : ∀ template name, templateOf table active base name = .ok template →
      Mirrors active (enter template name) (do
        let inner := specialize table (⟨template.decl.name, name⟩ :: active)
        let id ← makeInstance inner template.decl name element
        return .linked name id)) :
    Mirrors active (do
      let name ← (TypeExpr.container base element).canonical
      let m ← get
      match m.work.cache.find? name with
      | some made => return .linked name made.id
      | none =>
        if isMadeBefore table name then return .unlinked name
        else
          let template ← templateOf table m.active base name
          enter template name) (specialize table active base element) := by
  rw [specialize_eq]
  refine (Mirrors.lift _).bind fun name => Mirrors.get_bind fun s => ?_
  dsimp only
  cases s.cache.find? name with
  | some made => exact Mirrors.pure _ s
  | none =>
    by_cases before : isMadeBefore table name = true
    · simp only [if_pos before]
      exact Mirrors.pure _ s
    · simp only [if_neg before]
      cases chosen : templateOf table active base name with
      | error fault => rfl
      | ok template => exact h template name chosen s

/-- With as many steps as there are names that are not under way, nothing is given up. -/
theorem mirrors_specialize {depth : Nat} {active : List Active}
    (enough : Active.idleCount table active ≤ depth) (base element : TypeExpr) :
    Mirrors active (Stacked.specialize stop table depth base element)
      (specialize table active base element) := by
  induction depth generalizing active base element with
  | zero =>
    rw [Stacked.specialize]
    refine mirrors_choice fun template name chosen => ?_
    have deeper := templateOf_decreases chosen
    omega
  | succ depth ih =>
    rw [Stacked.specialize]
    refine mirrors_choice fun template name chosen => ?_
    have inner := ih (Nat.lt_succ_iff.1 (Nat.lt_of_lt_of_le (templateOf_decreases chosen) enough))
    exact (Mirrors.makeInstance inner template.decl name element).within.bind fun id => .pure _

variable {answer : TypeExpr → TypeExpr → Stacked TypeExpr}

theorem mirrors_instantiate
    (h : ∀ base element, Mirrors [] (answer base element) (specialize table [] base element))
    (n : Node Class) : Mirrors [] (n.instantiateStacked answer) (n.instantiate table) := by
  have constant (c : Constant) : Mirrors [] (c.rebuildM (.ofType (Stacked.onUsage answer)))
      (c.rebuildM (usageRebuilder table)) :=
    .refill h _ (c.rebuildM_eq_refill _) (c.rebuildM_eq_refill _)
  have function (f : Function) : Mirrors [] (f.rebuildM (.ofType (Stacked.onUsage answer)))
      (f.rebuildM (usageRebuilder table)) :=
    .refill h _ (f.rebuildM_eq_refill _) (f.rebuildM_eq_refill _)
  have cls (c : Class) : Mirrors [] (c.rebuildM (.ofType (Stacked.onUsage answer)))
      (c.rebuildM (usageRebuilder table)) :=
    .refill h _ (c.rebuildM_eq_refill _) (c.rebuildM_eq_refill _)
  cases n with
  | module x =>
    have object (c : Class) : Mirrors [] (c.instantiateStacked answer) (c.instantiate table) :=
      (cls c).bind fun _ => .onWork _
    have parts (x : Module Class) : Mirrors [] (x.traverseM
        (Constant.rebuildM (.ofType (Stacked.onUsage answer)))
        (Function.rebuildM (.ofType (Stacked.onUsage answer))) (Class.instantiateStacked answer))
        (x.traverseM (Constant.rebuildM (usageRebuilder table))
          (Function.rebuildM (usageRebuilder table)) (Class.instantiate table)) :=
      (Mirrors.mapM fun c _ => constant c).bind fun _ =>
        (Mirrors.mapM fun f _ => function f).bind fun _ =>
          (Mirrors.mapM fun c _ => object c).bind fun _ => .pure _
    exact ((parts _).bind fun _ => (Mirrors.onWork _).bind fun _ => .pure _).map _
  | constant c => exact (constant c).map _
  | function f => exact (function f).map _
  | signature s =>
    exact (Mirrors.refill h _ (s.rebuildM_eq_refill _) (s.rebuildM_eq_refill _)).map _
  | parameter p =>
    exact (Mirrors.refill h _ (p.rebuildM_eq_refill _) (p.rebuildM_eq_refill _)).map _
  | classDecl c => exact (cls c).map _
  | templateItem i =>
    exact (Mirrors.refill h _ (i.rebuildM_eq_refill _) (i.rebuildM_eq_refill _)).map _
  | type t => exact (Mirrors.rebuildM h t).map _

end Specialize
end InterfaceTree
