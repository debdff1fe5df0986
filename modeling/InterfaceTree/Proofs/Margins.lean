import Mathlib.Algebra.GroupWithZero.Nat
import InterfaceTree.Layout
import InterfaceTree.Proofs.Parts
import InterfaceTree.Proofs.Run

/-!
# The width shows in the margins

The text of a tree, as a function of the width, is a list of pieces that do not depend on it, with a
margin at every joint.
-/
namespace InterfaceTree

section Margined

/-- At every width there are so many blanks at each joint between pieces, and the pieces are the
same at all widths. -/
def Margined (joints : Nat) (text : Nat → String) : Prop :=
  ∃ pieces : List String, pieces.length = joints + 1 ∧
    ∀ indent, text indent = String.intercalate (String.ofList (List.replicate indent ' ')) pieces

private theorem intercalate_join (separator last first : String) (before after : List String) :
    String.intercalate separator (before ++ [last]) ++
        String.intercalate separator (first :: after) =
      String.intercalate separator (before ++ (last ++ first) :: after) := by
  induction before with
  | nil => simp
  | cons piece before ih =>
    have head {rest : List String} (more : rest ≠ []) :
        String.intercalate separator (piece :: rest) =
          piece ++ separator ++ String.intercalate separator rest :=
      String.intercalate_cons_of_ne_nil more
    rw [List.cons_append, List.cons_append, head (by simp), head (by simp), String.append_assoc, ih]

namespace Margined

variable {j k : Nat} {f g : Nat → String}

theorem const (text : String) : Margined 0 fun _ => text :=
  ⟨[text], rfl, fun _ => String.intercalate_singleton.symm⟩

theorem margin : Margined 1 Layout.margin :=
  ⟨["", ""], rfl, fun indent => by simp [Layout.margin_eq]⟩

theorem append (hf : Margined j f) (hg : Margined k g) :
    Margined (j + k) fun indent => f indent ++ g indent := by
  obtain ⟨left, lengthLeft, left_eq⟩ := hf
  obtain ⟨right, lengthRight, right_eq⟩ := hg
  rcases List.eq_nil_or_concat left with rfl | ⟨before, last, rfl⟩
  · cases lengthLeft
  rcases right with _ | ⟨first, after⟩
  · cases lengthRight
  rw [List.concat_eq_append] at lengthLeft left_eq
  refine ⟨before ++ (last ++ first) :: after, ?_, fun indent => ?_⟩
  · simp only [List.length_append, List.length_cons, List.length_nil] at *
    omega
  · dsimp only
    rw [left_eq, right_eq, intercalate_join]

variable {α : Type} {joints : α → Nat} {text : α → Nat → String}

theorem intercalate (separator : String) {as : List α}
    (h : ∀ a ∈ as, Margined (joints a) (text a)) :
    Margined (as.map joints).sum
      fun indent => String.intercalate separator (as.map fun a => text a indent) := by
  induction as with
  | nil => exact const _
  | cons a as ih =>
    rw [List.forall_mem_cons] at h
    rcases as with _ | ⟨b, as⟩
    · simpa using h.1
    · have rest := (h.1.append (const separator)).append (ih h.2)
      simpa using rest

theorem classText (header : String) (body : List String) :
    Margined body.length fun indent => Layout.classText indent header body := by
  rcases body with _ | ⟨first, rest⟩
  · exact const (Layout.newlines [header] ++ "\n")
  · have line (text : String) : Margined 1 fun indent => Layout.margin indent ++ text :=
      margin.append (const text)
    have lines := intercalate "\n" fun text (_ : text ∈ first :: rest) => line text
    rw [List.map_const', List.sum_replicate_nat, Nat.mul_one] at lines
    have all := (const (header ++ "\n")).append (lines.append (const "\n"))
    simpa [Layout.classText, Layout.newlines, String.append_assoc] using all

end Margined

private theorem sections_concat (before : List (List String)) : ∃ heading,
    ∀ last : List String, last ≠ [] →
      Layout.sections (before ++ [last]) = heading ++ Layout.newlines last := by
  let shown := (before.filter (!·.isEmpty)).map Layout.newlines
  have split (last : List String) (some : last ≠ []) :
      Layout.sections (before ++ [last]) =
        String.intercalate "\n\n" (shown ++ [Layout.newlines last]) := by
    simp [Layout.sections, shown, some]
  by_cases none : shown = []
  · refine ⟨"", fun last some => ?_⟩
    rw [split last some, none]
    simp
  · refine ⟨String.intercalate "\n\n" shown ++ "\n\n", fun last some => ?_⟩
    rw [split last some, String.intercalate_append_of_ne_nil none (by simp),
      String.intercalate_singleton]

theorem Margined.sections (constants functions : List String)
    (classes : List (String × List String)) :
    Margined (classes.map fun c => c.2.length).sum fun indent => Layout.sections
      [constants, functions, classes.map fun c => Layout.classText indent c.1 c.2] := by
  rcases classes with _ | ⟨first, rest⟩
  · exact const (Layout.sections [constants, functions, []])
  · obtain ⟨heading, after⟩ := sections_concat [constants, functions]
    have texts := intercalate "\n" fun (c : String × List String) (_ : c ∈ first :: rest) =>
      classText c.1 c.2
    have all := (const heading).append texts
    rw [Nat.zero_add] at all
    have same (indent : Nat) := after
      ((first :: rest).map fun c => Layout.classText indent c.1 c.2) (by simp)
    simp only [List.cons_append, List.nil_append] at same
    simpa only [same, Layout.newlines] using all

end Margined

section OtherRule

variable {m : Type → Type} [Monad m] {α : Type}

def Evaluator.withClassDecl (e : Evaluator m α)
    (rule : Class → (template parents constants methods : List α) → m α) : Evaluator m α :=
  { e with classDecl := rule }

variable (e : Evaluator m α) (rule : Class → (template parents constants methods : List α) → m α)

/-! What is not a class and holds none does not come to the rule for classes. -/

theorem TypeExpr.evaluate_withClassDecl (t : TypeExpr) :
    t.evaluate (e.withClassDecl rule) = t.evaluate e := by
  have all {ts : List TypeExpr}
      (h : ∀ t ∈ ts, t.evaluate (e.withClassDecl rule) = t.evaluate e) :
      evaluateAll (e.withClassDecl rule) ts = evaluateAll e ts := by
    induction ts with
    | nil => rfl
    | cons t ts ih =>
      rw [List.forall_mem_cons] at h
      rw [evaluateAll, evaluateAll, h.1, ih h.2]
  induction t with
  | named name => rfl
  | ref reference => rfl
  | container base element hb he =>
    rw [evaluate, evaluate, hb, he]
    rfl
  | generic base args hb ha =>
    rw [evaluate, evaluate, hb, all ha]
    rfl
  | union members hm =>
    rw [evaluate, evaluate, all hm]
    rfl
  | inter members hm =>
    rw [evaluate, evaluate, all hm]
    rfl

theorem Constant.evaluate_withClassDecl (c : Constant) :
    c.evaluate (e.withClassDecl rule) = c.evaluate e := by
  rw [evaluate, evaluate, TypeExpr.evaluate_withClassDecl]
  rfl

theorem Parameter.evaluate_withClassDecl (p : Parameter) :
    p.evaluate (e.withClassDecl rule) = p.evaluate e := by
  rw [evaluate, evaluate, TypeExpr.evaluate_withClassDecl]
  rfl

theorem TemplateItem.evaluate_withClassDecl (i : TemplateItem) :
    i.evaluate (e.withClassDecl rule) = i.evaluate e := by
  rw [evaluate, evaluate, TypeExpr.evaluate_withClassDecl]
  rfl

theorem Signature.evaluate_withClassDecl (s : Signature) :
    s.evaluate (e.withClassDecl rule) = s.evaluate e := by
  rw [evaluate, evaluate, funext (Parameter.evaluate_withClassDecl e rule),
    funext (TypeExpr.evaluate_withClassDecl e rule)]
  rfl

theorem Function.evaluate_withClassDecl (f : Function) :
    f.evaluate (e.withClassDecl rule) = f.evaluate e := by
  rw [evaluate, evaluate, funext (Signature.evaluate_withClassDecl e rule)]
  rfl

end OtherRule

section Joints

/-- Every line feed ends a line, and what follows the last one is a line unless it is empty. -/
def Text.lineCount (text : String) : Nat :=
  text.toList.count '\n' + if text = "" ∨ text.toList.getLast? = some '\n' then 0 else 1

private theorem Text.length_cutLines (current cs : List Char) : (cutLines current cs).length =
    cs.count '\n' +
      if (current = [] ∧ cs = []) ∨ cs.getLast? = some '\n' then 0 else 1 := by
  fun_induction cutLines current cs with
  | case1 current none => simp [List.isEmpty_iff.1 none]
  | case2 current some => simp [mt List.isEmpty_iff.2 some]
  | case3 current rest ih =>
    rw [List.length_cons, ih, List.count_cons_self]
    cases rest with
    | nil => simp
    | cons c rest =>
      simp [List.getLast?_cons]
      omega
  | case4 current c rest other ih =>
    have other : c ≠ '\n' := other
    rw [ih, List.count_cons_of_ne other]
    cases rest <;> simp [List.getLast?_cons, other]

theorem Text.length_lines (text : String) : (lines text).length = lineCount text := by
  simp [lines, lineCount, length_cutLines]

def Function.lineCount (f : Function) : Nat :=
  match (Node.function f).print defaultIndent with
  | .ok text => Text.lineCount text
  | .error _ => 0

def Class.lineCount (c : Class) : Nat :=
  if c.constants.isEmpty && c.methods.isEmpty then 1
  else c.constants.length + (c.methods.map Function.lineCount).sum

/-- How many margins there are in the text of a node. -/
def Node.joints : Node Class → Nat
  | .module x => (x.classes.map Class.lineCount).sum
  | .classDecl c => c.lineCount
  | _ => 0

/-- The width is seen by the rule for classes only. -/
theorem Layout.rules_eq (indent : Nat) (style : Name.Style) : Layout.rules indent style =
    (Layout.rules defaultIndent style).withClassDecl (Layout.rules indent style).classDecl := rfl

def Class.described (c : Class) : Except Fault (String × List String) := do
  let e := Layout.rules defaultIndent .quoted
  let template ← c.template.mapM (TemplateItem.evaluate e)
  let parents ← c.parents.mapM (TypeExpr.evaluate e)
  let constants ← c.constants.mapM (Constant.evaluate e)
  let methods ← c.methods.mapM (Function.evaluate e)
  let name ← Name.write .quoted .classDecl c.name
  pure (Layout.classHeader name template parents, Layout.classBody constants methods)

theorem Class.evaluate_eq_described (indent : Nat) (c : Class) :
    c.evaluate (Layout.rules indent .quoted) =
      (fun d => Layout.classText indent d.1 d.2) <$> c.described := by
  rw [Layout.rules_eq indent, evaluate, funext (TemplateItem.evaluate_withClassDecl _ _),
    funext (TypeExpr.evaluate_withClassDecl _ _), funext (Constant.evaluate_withClassDecl _ _),
    funext (Function.evaluate_withClassDecl _ _), described]
  simp only [map_bind, map_pure, Evaluator.withClassDecl, Layout.rules]

theorem Class.length_of_described {c : Class} {d : String × List String}
    (h : c.described = .ok d) : d.2.length = c.lineCount := by
  simp only [described, bind_eq_ok_iff, pure_eq_ok_iff] at h
  obtain ⟨template, -, parents, -, constants, constantsRun, methods, methodsRun, name, -, rfl⟩ := h
  have count : constants.map (fun _ => ()) = c.constants.map fun _ => () :=
    map_of_mapM_eq_ok (fun _ _ _ => rfl) constantsRun
  have lines : methods.map (fun text => (Text.lines text).length) =
      c.methods.map Function.lineCount := by
    refine map_of_mapM_eq_ok (fun f text run => ?_) methodsRun
    have printed : (Node.function f).print defaultIndent = .ok text := run
    rw [Function.lineCount, printed, Text.length_lines]
  have noConstants : constants.isEmpty = c.constants.isEmpty := by
    rw [← List.isEmpty_map (f := fun _ => ()), count, List.isEmpty_map]
  have noMethods : methods.isEmpty = c.methods.isEmpty := by
    rw [← List.isEmpty_map (f := fun text => (Text.lines text).length), lines, List.isEmpty_map]
  rw [lineCount, Layout.classBody, noConstants, noMethods]
  split
  · rfl
  · have lengths : constants.length = c.constants.length := by
      simpa using congrArg List.length count
    rw [List.length_append, List.length_flatMap, lines, lengths]

/-- Either there is a text at no width, for one reason, or there are pieces for all widths. -/
def Node.Uniform (n : Node Class) : Prop :=
  (∃ fault, ∀ indent, n.print indent = .error fault) ∨
    ∃ text, Margined n.joints text ∧ ∀ indent, n.print indent = .ok (text indent)

theorem Node.uniform_of_map {α : Type} {n : Node Class} {described : Except Fault α}
    {put : Nat → α → String} (h : ∀ indent, n.print indent = put indent <$> described)
    (joints : ∀ d, described = .ok d → Margined n.joints fun indent => put indent d) :
    n.Uniform := by
  rcases described with fault | d
  · exact .inl ⟨fault, h⟩
  · exact .inr ⟨_, joints d rfl, h⟩

theorem Class.uniform (c : Class) : (Node.classDecl c).Uniform := by
  refine Node.uniform_of_map (fun indent => c.evaluate_eq_described indent) fun d h => ?_
  have text := Margined.classText d.1 d.2
  rw [length_of_described h] at text
  exact text

private theorem mapM_map_put {m : Type → Type} [Monad m] [LawfulMonad m] {α β γ : Type}
    (visit : α → m β) (put : β → γ) (as : List α) :
    as.mapM (fun a => put <$> visit a) = List.map put <$> as.mapM visit := by
  induction as with
  | nil => simp
  | cons a as ih => simp [ih]

def Module.described (x : Module Class) :
    Except Fault (List String × List String × List (String × List String)) := do
  let e := Layout.rules defaultIndent .quoted
  let constants ← x.constants.mapM (Constant.evaluate e)
  let functions ← x.functions.mapM (Function.evaluate e)
  let classes ← x.classes.mapM Class.described
  pure (constants, functions, classes)

theorem Module.evaluate_eq_described (indent : Nat) (x : Module Class) :
    x.evaluate (Layout.rules indent .quoted) = (fun d => Layout.sections
      [d.1, d.2.1, d.2.2.map fun c => Layout.classText indent c.1 c.2]) <$> x.described := by
  rw [evaluate, funext (Class.evaluate_eq_described indent), mapM_map_put, Layout.rules_eq indent,
    funext (Constant.evaluate_withClassDecl _ _), funext (Function.evaluate_withClassDecl _ _),
    described]
  simp only [map_bind, map_pure, bind_map_left, Evaluator.withClassDecl, Layout.rules]

theorem Module.uniform (x : Module Class) : (Node.module x).Uniform := by
  refine Node.uniform_of_map (fun indent => x.evaluate_eq_described indent) fun d h => ?_
  simp only [described, bind_eq_ok_iff, pure_eq_ok_iff] at h
  obtain ⟨constants, -, functions, -, classes, classesRun, rfl⟩ := h
  have lines : classes.map (fun c => c.2.length) = x.classes.map Class.lineCount :=
    map_of_mapM_eq_ok (fun _ _ => Class.length_of_described) classesRun
  have text := Margined.sections constants functions classes
  rw [lines] at text
  exact text

theorem Node.print_cases (n : Node Class) :
    (∃ x, n = .module x) ∨ (∃ c, n = .classDecl c) ∨
      n.joints = 0 ∧ ∀ indent, n.print indent = n.print defaultIndent := by
  have rules (indent : Nat) : n.print indent = n.evaluate ((Layout.rules defaultIndent
      .quoted).withClassDecl (Layout.rules indent .quoted).classDecl) := by
    rw [print, ← Layout.rules_eq]
  simp only [rules]
  cases n with
  | module x => exact .inl ⟨x, rfl⟩
  | classDecl c => exact .inr (.inl ⟨c, rfl⟩)
  | constant c => exact .inr (.inr ⟨rfl, fun _ => c.evaluate_withClassDecl _ _⟩)
  | function f => exact .inr (.inr ⟨rfl, fun _ => f.evaluate_withClassDecl _ _⟩)
  | signature s => exact .inr (.inr ⟨rfl, fun _ => s.evaluate_withClassDecl _ _⟩)
  | parameter p => exact .inr (.inr ⟨rfl, fun _ => p.evaluate_withClassDecl _ _⟩)
  | templateItem i => exact .inr (.inr ⟨rfl, fun _ => i.evaluate_withClassDecl _ _⟩)
  | type t => exact .inr (.inr ⟨rfl, fun _ => t.evaluate_withClassDecl _ _⟩)

theorem Node.uniform (n : Node Class) : n.Uniform := by
  rcases n.print_cases with ⟨x, rfl⟩ | ⟨c, rfl⟩ | ⟨none, same⟩
  · exact x.uniform
  · exact c.uniform
  · have put (indent : Nat) : n.print indent = (fun text => text) <$> n.print defaultIndent := by
      rw [same indent, id_map']
    refine uniform_of_map put fun text _ => ?_
    rw [none]
    exact .const text

end Joints

/-- The width of the indentation matters nowhere but in the margins. At all widths there is no text
for the same reason, or at all widths there is a text; what holds no class has the same text at all
of them. The text of a class or a module is put together from pieces that do not depend on the
width, with as many blanks as it says at every joint: there are as many joints as constants and
lines of methods in its classes, and one for each class that has neither. -/
theorem Node.print_widths (n : Node Class) :
    (∀ v w fault, n.print v = .error fault ↔ n.print w = .error fault) ∧
    (n.kind ≠ .module → n.kind ≠ .classDecl → ∀ v w, n.print v = n.print w) ∧
    ((∃ fault, ∀ indent, n.print indent = .error fault) ∨
      ∃ pieces : List String, pieces.length = n.joints + 1 ∧
        ∀ indent, n.print indent =
          .ok (String.intercalate (String.ofList (List.replicate indent ' ')) pieces)) := by
  refine ⟨fun v w fault => ?_, fun notModule notClass v w => ?_, ?_⟩
  · rcases n.uniform with ⟨own, fails⟩ | ⟨text, -, prints⟩
    · rw [fails v, fails w]
    · simp only [prints, reduceCtorEq]
  · rcases n.print_cases with ⟨x, rfl⟩ | ⟨c, rfl⟩ | ⟨-, same⟩
    · exact absurd rfl notModule
    · exact absurd rfl notClass
    · rw [same v, same w]
  · rcases n.uniform with fails | ⟨text, ⟨pieces, count, joined⟩, prints⟩
    · exact .inl fails
    · exact .inr ⟨pieces, count, fun indent => by rw [prints, joined]⟩

/-- A name with a line feed in it makes two lines of a method, and one of a constant. -/
example : Node.joints (.classDecl
    { name := "A", constants := [⟨"x\ny", .universal⟩], methods := [⟨"f\ng", [{}, {}]⟩] }) = 5 := by
  decide

end InterfaceTree
