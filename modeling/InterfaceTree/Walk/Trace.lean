import InterfaceTree.Fault
import InterfaceTree.Walk.Observe
import InterfaceTree.Walk.Rebuild
import InterfaceTree.Walk.Evaluate

/-!
# Traced walks

A trace may be told to fail at one of its events, numbered from 0; that event is still recorded.
-/
namespace InterfaceTree

structure Trace where
  events : Array String := #[]
  failAt : Option Nat := none

abbrev Traced := ExceptT Fault (StateM Trace)

def Trace.stop (event : String) : Fault := .unsupported (.described event)

def record (event : String) : Traced Unit := do
  let trace ← get
  set { trace with events := trace.events.push event }
  if trace.failAt = some trace.events.size then throw (Trace.stop event)

def Traced.runFrom {α : Type} (walk : Traced α) (failAt : Option Nat) :
    Except Fault α × List String :=
  let (result, trace) := walk.run.run { failAt }
  (result, trace.events.toList)

inductive Rule
  | nameToReference
  | referenceToName
  | containerToBase
  | containerToElement
  /-- The union of the arguments; the base is dropped. -/
  | genericToUnion
  /-- Only a union of one member is unwrapped. -/
  | unwrapUnion
  | interToUnion
  deriving DecidableEq, Repr

/-- The form after the rules at hand; a container goes to its base before it goes to its element. -/
def Rule.applyAll (rules : List Rule) (t : TypeExpr) : TypeExpr :=
  match t with
  | .named name => if nameToReference ∈ rules then .unlinked name else t
  | .ref reference => if referenceToName ∈ rules then .named reference.name else t
  | .container base element =>
    if containerToBase ∈ rules then base
    else if containerToElement ∈ rules then element
    else t
  | .generic _ args => if genericToUnion ∈ rules then .union args else t
  | .union [member] => if unwrapUnion ∈ rules then member else t
  | .union _ => t
  | .inter members => if interToUnion ∈ rules then .union members else t

theorem Rule.applyAll_nil (t : TypeExpr) : applyAll [] t = t := by
  unfold applyAll
  split <;> simp

/-- What a type expression records, with the number of its arguments or members. -/
def TypeExpr.event : TypeExpr → String
  | .named name => "named " ++ name
  | .ref reference => "ref " ++ reference.name
  | .container _ _ => "container"
  | .generic _ args => "generic " ++ toString args.length
  | .union members => "union " ++ toString members.length
  | .inter members => "inter " ++ toString members.length

def Node.scope? : Node Class → Option String
  | .module _ => some "module"
  | .function f => some ("function " ++ f.name)
  | .signature _ => some "signature"
  | .classDecl c => some ("class " ++ c.name)
  | _ => none

def recordScope (mark : String) (n : Node Class) : Traced Unit :=
  match n.scope? with
  | some scope => record (mark ++ scope)
  | none => pure ()

def tracingObserver : Observer Traced where
  enter := recordScope "+"
  leave
    | .type t => record t.event
    | n => recordScope "-" n

/-- Records what the observer records, and the small declarations after their type; then applies
the rules to type expressions. -/
def tracingRebuilder (rules : List Rule) : Rebuilder Traced where
  enter := recordScope "+"
  module x := do recordScope "-" (.module x); return x
  constant c := do record ("constant " ++ c.name); return c
  function f := do recordScope "-" (.function f); return f
  signature s := do recordScope "-" (.signature s); return s
  parameter p := do record ("parameter " ++ p.name); return p
  classDecl c := do recordScope "-" (.classDecl c); return c
  templateItem i := do record ("template " ++ i.name); return i
  type t := do record t.event; return Rule.applyAll rules t

/-- The number of nodes of a tree and a text that shows its shape. -/
structure Outline where
  count : Nat
  text : String

namespace Outline

def groupText (group : List Outline) : String :=
  " [" ++ String.intercalate " " (group.map (·.text)) ++ "]"

/-- One more node than in all the groups; the text carries the number of the node's event. -/
def node (head : String) (groups : List (List Outline)) : Traced Outline := do
  let number := (← get).events.size
  record head
  return {
    count := groups.flatten.foldl (fun count outline => count + outline.count) 1
    text := "(" ++ head ++ "#" ++ toString number ++ String.join (groups.map groupText) ++ ")" }

end Outline

def tracingEvaluator : Evaluator Traced Outline where
  module _ constants functions classes := Outline.node "module" [constants, functions, classes]
  constant c type := Outline.node ("constant " ++ c.name) [[type]]
  function f signatures := Outline.node ("function " ++ f.name) [signatures]
  signature _ params returns raises := Outline.node "signature" [params, [returns], raises]
  parameter p type := Outline.node ("parameter " ++ p.name) [[type]]
  classDecl c template parents constants methods :=
    Outline.node ("class " ++ c.name) [template, parents, constants, methods]
  templateItem i bound := Outline.node ("template " ++ i.name) [[bound]]
  named name := Outline.node ("named " ++ name) []
  ref reference := Outline.node ("ref " ++ reference.name) []
  container _ base element := Outline.node "container" [[base], [element]]
  generic _ base args := Outline.node "generic" [[base], args]
  union _ members := Outline.node "union" [members]
  inter _ members := Outline.node "inter" [members]

def Node.traceObserve (n : Node Class) (failAt : Option Nat) : Except Fault Unit × List String :=
  (n.observe tracingObserver).runFrom failAt

def Node.traceRebuild (n : Node Class) (rules : List Rule) (failAt : Option Nat) :
    Except Fault (Node Class) × List String :=
  (n.rebuildM (tracingRebuilder rules)).runFrom failAt

def Node.traceEvaluate (n : Node Class) (failAt : Option Nat) :
    Except Fault Outline × List String :=
  (n.evaluate tracingEvaluator).runFrom failAt

end InterfaceTree
