import InterfaceTree.Proofs.Traversals
import InterfaceTree.Walk.Trace

/-!
# What traced walks record

A walk has two moments at a declaration, its start and its end, and one at a type expression.
-/
namespace InterfaceTree

theorem Node.length_postorder_lt {n x : Node Class} (h : x ∈ n.parts) :
    x.postorder.length < n.postorder.length := by
  have inside : x.postorder.length ≤ (n.parts.flatMap postorder).length :=
    (List.sublist_flatten_of_mem (List.mem_map_of_mem h)).length_le
  rw [n.postorder_eq, List.length_append]
  exact Nat.lt_succ_of_le inside

inductive Moment
  | enter (n : Node Class)
  | leave (n : Node Class)

namespace Moment

def left? : Moment → Option (Node Class)
  | enter _ => none
  | leave n => some n

/-- What the observer records: scopes at both ends, and every type expression. -/
def observed : Moment → Option String
  | enter n => n.scope?.map ("+" ++ ·)
  | leave (.type t) => some t.event
  | leave n => n.scope?.map ("-" ++ ·)

/-- What the rebuilder records: small declarations as well. -/
def rebuilt : Moment → Option String
  | leave (.constant c) => some ("constant " ++ c.name)
  | leave (.parameter p) => some ("parameter " ++ p.name)
  | leave (.templateItem i) => some ("template " ++ i.name)
  | moment => moment.observed

end Moment

namespace Node

def moments (n : Node Class) : List Moment :=
  (if n.isDeclaration then [.enter n] else []) ++ (n.parts.attach.flatMap fun x => x.1.moments) ++
    [.leave n]
termination_by n.postorder.length
decreasing_by exact length_postorder_lt x.2

theorem moments_eq (n : Node Class) : n.moments =
    (if n.isDeclaration then [.enter n] else []) ++ n.parts.flatMap moments ++ [.leave n] := by
  rw [moments]
  simp

theorem left_moments (n : Node Class) : n.moments.filterMap Moment.left? = n.postorder := by
  induction n using Node.induct with
  | step n ih =>
    have entered :
        (if n.isDeclaration then [Moment.enter n] else []).filterMap Moment.left? = [] := by
      split <;> rfl
    rw [moments_eq, postorder_eq, List.filterMap_append, List.filterMap_append, entered,
      List.filterMap_flatMap, List.flatMap_congr ih]
    rfl

end Node

section Observe

variable {m : Type → Type} [Monad m] [LawfulMonad m]

def Observer.at (o : Observer m) : Moment → m Unit
  | .enter n => o.enter n
  | .leave n => o.leave n

theorem Node.observe_moments (o : Observer m) (n : Node Class) :
    n.observe o = forM n.moments o.at := by
  induction n using Node.induct with
  | step n ih =>
    rw [observe_eq, moments_eq, List.forM_append, List.forM_append, forM_acting n.parts ih]
    split <;> simp [Observer.at]

theorem Node.observe_recorded {o : Observer Traced} {event? : Moment → Option String}
    (h : ∀ moment, o.at moment = forM (event? moment).toList record) (n : Node Class) :
    n.observe o = forM (n.moments.filterMap event?) record := by
  rw [n.observe_moments, forM_acting n.moments fun moment _ => h moment,
    List.filterMap_eq_flatMap_toList]

end Observe

section Events

theorem recordScope_eq (mark : String) (n : Node Class) :
    recordScope mark n = forM (n.scope?.map (mark ++ ·)).toList record := by
  unfold recordScope
  cases n.scope? with
  | none => rfl
  | some scope => simp

theorem tracingObserver_at (moment : Moment) :
    tracingObserver.at moment = forM moment.observed.toList record := by
  cases moment with
  | enter n => exact recordScope_eq "+" n
  | leave n =>
    have scope := recordScope_eq "-" n
    cases n with
    | type t => simp [Observer.at, tracingObserver, Moment.observed]
    | _ => exact scope

/-- The observer that records what the rebuilder does. -/
def rebuildingObserver : Observer Traced where
  enter := recordScope "+"
  leave n := forM (Moment.leave n).rebuilt.toList record

theorem rebuildingObserver_at (moment : Moment) :
    rebuildingObserver.at moment = forM moment.rebuilt.toList record := by
  cases moment with
  | enter n => exact recordScope_eq "+" n
  | leave n => rfl

theorem tracingRebuilder_nil : tracingRebuilder [] = .following rebuildingObserver := by
  simp [tracingRebuilder, Rebuilder.following, rebuildingObserver, Moment.rebuilt, Moment.observed,
    recordScope_eq, Rule.applyAll_nil]

def TypeExpr.heading : TypeExpr → String
  | .named name => "named " ++ name
  | .ref reference => "ref " ++ reference.name
  | .container _ _ => "container"
  | .generic _ _ => "generic"
  | .union _ => "union"
  | .inter _ => "inter"

/-- What the evaluator records. -/
def Node.heading : Node Class → String
  | .module _ => "module"
  | .constant c => "constant " ++ c.name
  | .function f => "function " ++ f.name
  | .signature _ => "signature"
  | .parameter p => "parameter " ++ p.name
  | .classDecl c => "class " ++ c.name
  | .templateItem i => "template " ++ i.name
  | .type t => t.heading

theorem effect_node (head : String) (groups : List (List Outline)) :
    effect (Outline.node head groups) = record head := by
  have told : effect (Outline.node head groups) =
      (do let _ ← (get : Traced Trace); record head) := by
    simp [Outline.node, effect]
  rw [told]
  rfl

theorem tracingEvaluator_performs : tracingEvaluator.Performs fun n => record n.heading := by
  constructor <;> intros <;> exact effect_node ..

end Events

namespace Trace

/-- What is left of a walk with these events, where it is told to fail at one of them or not. -/
def outcome {α : Type} (failAt : Option Nat) (events : List String) (value : α) :
    Except Fault α × List String :=
  match failAt with
  | none => (.ok value, events)
  | some k =>
    match events[k]? with
    | none => (.ok value, events)
    | some event => (.error (stop event), events.take (k + 1))

variable (trace : Trace)

theorem run_record (event : String) : (record event).run.run trace =
    (if trace.failAt = some trace.events.size then .error (stop event) else .ok (),
      { trace with events := trace.events.push event }) := by
  rw [record, exceptT_run_bind, exceptT_run_get]
  dsimp only
  rw [exceptT_run_bind, exceptT_run_set]
  by_cases h : trace.failAt = some trace.events.size
  · simp only [if_pos h]
    rfl
  · simp only [if_neg h]
    rfl

theorem run_forM_record {events : List String}
    (passed : ∀ k, trace.failAt = some k →
      k < trace.events.size ∨ trace.events.size + events.length ≤ k) :
    (forM events record).run.run trace =
      (.ok (), { trace with events := trace.events ++ events }) := by
  induction events generalizing trace with
  | nil =>
    show (Except.ok (), trace) = _
    simp
  | cons event events ih =>
    -- this event is not the one to fail at, so that one is further on or has passed
    have here : trace.failAt ≠ some trace.events.size := by
      intro stops
      have := passed _ stops
      simp only [List.length_cons] at this
      omega
    rw [List.forM_cons, exceptT_run_bind, run_record, if_neg here]
    dsimp only
    rw [ih]
    · simp
    · intro k hk
      have := passed k hk
      simp only [Array.size_push, List.length_cons] at *
      have : k ≠ trace.events.size := by
        intro same
        exact here (same ▸ hk)
      omega

theorem run_forM_record_error {before : List String} (event : String) (after : List String)
    (stops : trace.failAt = some (trace.events.size + before.length)) :
    (forM (before ++ event :: after) record).run.run trace =
      (.error (stop event), { trace with events := trace.events ++ before ++ [event] }) := by
  rw [List.forM_append, exceptT_run_bind, run_forM_record]
  · have size : (trace.events ++ before).size = trace.events.size + before.length := by
      rw [← Array.length_toList, Array.toList_appendList, List.length_append, Array.length_toList]
    dsimp only
    rw [List.forM_cons, exceptT_run_bind, run_record, if_pos (by rw [stops, size])]
    simp
  · intro k hk
    rw [stops, Option.some.injEq] at hk
    omega

theorem run_events {α : Type} (failAt : Option Nat) (events : List String) (value : α) :
    Traced.runFrom (do forM events record; pure value) failAt = outcome failAt events value := by
  have passes (h : ∀ k, failAt = some k → events.length ≤ k) :
      Traced.runFrom (do forM events record; pure value) failAt = (.ok value, events) := by
    rw [Traced.runFrom, exceptT_run_bind, run_forM_record]
    · show (Except.ok value, ((#[] : Array String) ++ events).toList) = _
      simp
    · simpa using h
  cases failAt with
  | none => exact passes (by simp)
  | some k =>
    by_cases inside : k < events.length
    · have split : events.take k ++ events[k] :: events.drop (k + 1) = events := by simp
      have stops : ({ failAt := some k } : Trace).failAt = some (0 + (events.take k).length) := by
        rw [List.length_take_of_le (Nat.le_of_lt inside), Nat.zero_add]
      have run := run_forM_record_error _ events[k] (events.drop (k + 1)) stops
      rw [split] at run
      simp only [outcome, List.getElem?_eq_getElem inside]
      rw [Traced.runFrom, exceptT_run_bind, run]
      simp
    · simp only [outcome, List.getElem?_eq_none (Nat.le_of_not_lt inside)]
      exact passes (by simpa using inside)

end Trace

theorem Traced.runFrom_effect {α : Type} (walk : Traced α) (failAt : Option Nat) :
    Prod.map (Except.map fun _ => ()) id (walk.runFrom failAt) = (effect walk).runFrom failAt := by
  unfold runFrom effect
  rw [map_eq_pure_bind, exceptT_run_bind]
  rcases walk.run.run { failAt } with ⟨_ | _, _⟩ <;> rfl

/-- Each traced walk records its moments up to the one it is told to fail at, and gives its value if
there is none. The nodes that end at these moments, as far as walks report them, are the completed
nodes of the tree. -/
theorem Node.traces_agree (n : Node Class) (failAt : Option Nat) :
    n.traceObserve failAt = Trace.outcome failAt (n.moments.filterMap Moment.observed) () ∧
    n.traceRebuild [] failAt = Trace.outcome failAt (n.moments.filterMap Moment.rebuilt) n ∧
    Prod.map (Except.map fun _ => ()) id (n.traceEvaluate failAt) =
      Trace.outcome failAt ((n.moments.filterMap Moment.left?).map heading) () ∧
    (n.moments.filterMap Moment.left?).filter (·.kind.isReported) = n.completed := by
  refine ⟨?_, ?_, ?_, by rw [n.left_moments, completed]⟩
  · rw [traceObserve, n.observe_recorded tracingObserver_at, ← Trace.run_events,
      bind_pure_unit]
  · rw [traceRebuild, tracingRebuilder_nil, n.rebuildM_following,
      n.observe_recorded rebuildingObserver_at, Trace.run_events]
  · rw [traceEvaluate, Traced.runFrom_effect, n.effect_evaluate tracingEvaluator_performs,
      n.left_moments, ← Trace.run_events, bind_pure_unit, List.forM_map]

end InterfaceTree
