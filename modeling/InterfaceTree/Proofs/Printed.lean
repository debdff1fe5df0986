import InterfaceTree.Proofs.Spelling

/-!
# The text of a resolved module

A fault tells the kind of a node, so a name and a reference that cannot be written fail differently.
With the faults forgotten, a text makes no difference between the two.
-/
namespace InterfaceTree

section Successes

variable {ε α β : Type}

private theorem toOption_bind (x : Except ε α) (f : α → Except ε β) :
    (x >>= f).toOption = x.toOption >>= fun a => (f a).toOption := by
  cases x <;> rfl

private theorem toOption_eq_some {x : Except ε α} {a : α} : x.toOption = some a ↔ x = .ok a := by
  cases x <;> simp [Except.toOption]

private theorem toOption_mapM {visit : α → Except ε β} {found : α → Option β} (as : List α)
    (h : ∀ a ∈ as, (visit a).toOption = found a) : (as.mapM visit).toOption = as.mapM found := by
  induction as with
  | nil => rfl
  | cons a as ih =>
    rw [List.forall_mem_cons] at h
    simp only [List.mapM_cons, toOption_bind, h.1, ih h.2]
    rfl

/-- The evaluator with its faults forgotten. -/
def Evaluator.successes (e : Evaluator (Except Fault) α) : Evaluator Option α where
  module x cs fs ks := (e.module x cs fs ks).toOption
  constant c a := (e.constant c a).toOption
  function f as := (e.function f as).toOption
  signature s ps a rs := (e.signature s ps a rs).toOption
  parameter p a := (e.parameter p a).toOption
  classDecl c is ps ks fs := (e.classDecl c is ps ks fs).toOption
  templateItem i a := (e.templateItem i a).toOption
  named name := (e.named name).toOption
  ref reference := (e.ref reference).toOption
  container t a b := (e.container t a b).toOption
  generic t a as := (e.generic t a as).toOption
  union t as := (e.union t as).toOption
  inter t as := (e.inter t as).toOption

variable (e : Evaluator (Except Fault) α)

theorem TypeExpr.toOption_evaluate (t : TypeExpr) :
    (t.evaluate e).toOption = t.evaluate e.successes := by
  have all {ts : List TypeExpr} (h : ∀ t ∈ ts, (t.evaluate e).toOption = t.evaluate e.successes) :
      (evaluateAll e ts).toOption = evaluateAll e.successes ts := by
    rw [evaluateAll_eq_mapM, evaluateAll_eq_mapM]
    exact toOption_mapM ts h
  induction t with
  | named name => rfl
  | ref reference => rfl
  | container base element hb he =>
    simp only [evaluate, toOption_bind, hb, he]
    rfl
  | generic base args hb ha =>
    simp only [evaluate, toOption_bind, hb, all ha]
    rfl
  | union members hm =>
    simp only [evaluate, toOption_bind, all hm]
    rfl
  | inter members hm =>
    simp only [evaluate, toOption_bind, all hm]
    rfl

private theorem Constant.toOption_evaluate (c : Constant) :
    (c.evaluate e).toOption = c.evaluate e.successes := by
  simp only [evaluate, toOption_bind, TypeExpr.toOption_evaluate]
  rfl

private theorem Parameter.toOption_evaluate (p : Parameter) :
    (p.evaluate e).toOption = p.evaluate e.successes := by
  simp only [evaluate, toOption_bind, TypeExpr.toOption_evaluate]
  rfl

private theorem TemplateItem.toOption_evaluate (i : TemplateItem) :
    (i.evaluate e).toOption = i.evaluate e.successes := by
  simp only [evaluate, toOption_bind, TypeExpr.toOption_evaluate]
  rfl

private theorem Signature.toOption_evaluate (s : Signature) :
    (s.evaluate e).toOption = s.evaluate e.successes := by
  have params := toOption_mapM s.params fun p _ => p.toOption_evaluate e
  have raises := toOption_mapM s.raises fun t _ => t.toOption_evaluate e
  simp only [evaluate, toOption_bind, params, TypeExpr.toOption_evaluate, raises]
  rfl

private theorem Function.toOption_evaluate (f : Function) :
    (f.evaluate e).toOption = f.evaluate e.successes := by
  have signatures := toOption_mapM f.signatures fun s _ => s.toOption_evaluate e
  simp only [evaluate, toOption_bind, signatures]
  rfl

private theorem Class.toOption_evaluate (c : Class) :
    (c.evaluate e).toOption = c.evaluate e.successes := by
  have template := toOption_mapM c.template fun i _ => i.toOption_evaluate e
  have parents := toOption_mapM c.parents fun t _ => t.toOption_evaluate e
  have constants := toOption_mapM c.constants fun k _ => k.toOption_evaluate e
  have methods := toOption_mapM c.methods fun f _ => f.toOption_evaluate e
  simp only [evaluate, toOption_bind, template, parents, constants, methods]
  rfl

theorem Module.toOption_evaluate (x : Module Class) :
    (x.evaluate e).toOption = x.evaluate e.successes := by
  have constants := toOption_mapM x.constants fun c _ => c.toOption_evaluate e
  have functions := toOption_mapM x.functions fun f _ => f.toOption_evaluate e
  have classes := toOption_mapM x.classes fun c _ => c.toOption_evaluate e
  simp only [evaluate, toOption_bind, constants, functions, classes]
  rfl

end Successes

section Names

/-- The leaf as a name, whatever class it is known to denote. -/
def TypeExpr.asName (t : TypeExpr) : TypeExpr :=
  match t.name? with
  | some name => .named name
  | none => t

def Module.named (x : Module Class) : Module Class := x.mapLeaves TypeExpr.asName

private theorem toOption_write (style : Name.Style) (kind other : Kind) (name : String) :
    (Name.write style kind name).toOption = (Name.write style other name).toOption := by
  simp only [Name.write, Name.check]
  split
  · rfl
  · split <;> rfl

theorem TypeExpr.asName_resolvedLeaf (target : String → ClassId) (params : List String)
    (t : TypeExpr) : (t.resolvedLeaf target params).asName = t.asName := by
  rw [resolvedLeaf]
  cases t with
  | named name =>
    by_cases stays : name = universalName ∨ name ∈ params <;> simp [wanted?, stays, asName, name?]
  | _ => rfl

variable (indent : Nat) (style : Name.Style)

namespace TypeExpr

private theorem evaluateAll_mapLeaves {e : Evaluator Option String} {g : TypeExpr → TypeExpr}
    {ts : List TypeExpr} (h : ∀ t ∈ ts, (t.mapLeaves g).evaluate e = t.evaluate e) :
    evaluateAll e (ts.map (mapLeaves g)) = evaluateAll e ts := by
  induction ts with
  | nil => rfl
  | cons t ts ih =>
    rw [List.forall_mem_cons] at h
    rw [List.map_cons, evaluateAll, evaluateAll, h.1, ih h.2]

theorem evaluate_asName (t : TypeExpr) :
    (t.mapLeaves asName).evaluate (Layout.rules indent style).successes =
      t.evaluate (Layout.rules indent style).successes := by
  induction t with
  | named name => rfl
  | ref reference =>
    exact toOption_write style .namedType .classReference reference.name
  | container base element hb he =>
    rw [mapLeaves_container, evaluate, hb, he]
    rfl
  | generic base args hb ha =>
    rw [mapLeaves_generic, evaluate, hb, evaluateAll_mapLeaves ha]
    rfl
  | union members hm =>
    rw [mapLeaves_union, evaluate, evaluateAll_mapLeaves hm]
    rfl
  | inter members hm =>
    rw [mapLeaves_inter, evaluate, evaluateAll_mapLeaves hm]
    rfl

end TypeExpr

theorem ignores_asName :
    (Layout.rules indent style).successes.Ignores (TypeExpr.mapLeaves TypeExpr.asName) := by
  have universal (t : TypeExpr) : (t.mapLeaves TypeExpr.asName).isUniversal = t.isUniversal := by
    cases t <;> rfl
  refine ⟨TypeExpr.evaluate_asName indent style, fun _ => rfl, fun p => ?_, fun i => ?_,
    fun s => ?_, fun _ => rfl, fun _ => rfl, fun _ => rfl⟩
  · funext text
    simp only [Evaluator.successes, Layout.rules, Layout.annotated, Parameter.mapTypes, universal]
  · funext text
    simp only [Evaluator.successes, Layout.rules, TemplateItem.mapTypes, universal]
  · funext params returns raises
    simp only [Evaluator.successes, Layout.rules, Layout.signatureText, Signature.mapTypes,
      universal]

theorem Module.print_named (x : Module Class) :
    (x.named.print indent).toOption = (x.print indent).toOption := by
  rw [print, print, toOption_evaluate, toOption_evaluate]
  exact evaluate_mapTypes (ignores_asName indent .quoted) x

end Names

section Resolve

variable {s s' : Store} {x y : Module ClassId}

theorem named_resolved (h : (resolve x).run.run s = (.ok y, s')) :
    (s'.load y).named = (s.load x).named := by
  obtain ⟨target, -, load⟩ := load_of_resolve h
  have all : (s.load x).named = (s.load x).mapScoped fun _ => TypeExpr.asName := rfl
  rw [load, Module.named, Module.mapLeaves_mapScoped, all]
  apply Module.mapScoped_congr_of_isLeaf
  intro params u leaf
  rw [TypeExpr.mapLeaves_of_isLeaf (TypeExpr.resolvedLeaf_isLeaf target params u leaf),
    TypeExpr.asName_resolvedLeaf]

/-- A resolved module has the text of the module that was resolved, and none if that has none. -/
theorem resolve_print (h : (resolve x).run.run s = (.ok y, s')) (indent : Nat) (text : String) :
    (s'.load y).print indent = .ok text ↔ (s.load x).print indent = .ok text := by
  rw [← toOption_eq_some, ← Module.print_named, named_resolved h, Module.print_named,
    toOption_eq_some]

private def kiosk : Module Class where
  constants := [⟨"open", .union [.named "object", .named "paper bag"]⟩]
  functions := [⟨"sell", [{ params := [⟨"item", .universal⟩], returns := .unlinked "Shelf" }]⟩]
  classes := [
    { name := "Shelf", template := [⟨"T", .named "object"⟩]
      constants := [⟨"items", .generic (.named "Shelf") [.named "T", .named "paper bag"]⟩] },
    { name := "paper bag", parents := [.named "Shelf"] }]

theorem resolve_print_kiosk :
    let held := Store.hold {} kiosk
    ∃ y s' text, (resolve held.1).run.run held.2 = (.ok y, s') ∧
      s'.load y ≠ kiosk ∧ kiosk.print 2 = .ok text ∧ (s'.load y).print 2 = .ok text := by
  intro held
  have changed : (match (resolve held.1).run.run held.2 with
      | (.ok y, s') => decide (s'.load y ≠ kiosk)
      | (.error _, _) => false) = true := by
    decide +kernel
  have printed : (kiosk.print 2).isOk = true := by
    decide +kernel
  rcases run : (resolve held.1).run.run held.2 with ⟨fault | y, s'⟩ <;> rw [run] at changed
  · cases changed
  · rcases own : kiosk.print 2 with fault | text <;> rw [own] at printed
    · cases printed
    · have same := resolve_print run 2 text
      rw [Store.load_hold, own] at same
      exact ⟨y, s', text, rfl, of_decide_eq_true changed, rfl, same.2 rfl⟩

end Resolve
end InterfaceTree
