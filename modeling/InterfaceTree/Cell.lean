import Std.Data.TreeMap
import InterfaceTree.Fault
import InterfaceTree.TypeExpr

/-!
# Reference cells

The cell of a reference is written at most once. Writing the same class again is harmless, another
class is refused even if it has the same name.
-/
namespace InterfaceTree

namespace Reference

def isLinked (r : Reference) : Bool := r.target.isSome

def pointsTo (r : Reference) (id : ClassId) : Bool := r.target == some id

def link (r : Reference) (id : ClassId) : Except Fault Reference :=
  match r.target with
  | none => .ok { r with target := some id }
  | some old =>
    if old = id then .ok r else .error (.malformed .classReference (.alreadyLinked r.name))

def summary (r : Reference) : String :=
  "ClassReference \x7b name: " ++ Text.quoted r.name ++ ", linked: "
    ++ (if r.isLinked then "true" else "false") ++ " \x7d"

end Reference

/-- Named classes with identities from 0, and registers with references. -/
structure Bench where
  classes : List String
  dead : List ClassId := []
  registers : Std.TreeMap String Reference := ∅

namespace Bench

inductive Step
  | create (register name : String) (target : Option ClassId)
  | copy (register into : String)
  | drop (target : ClassId)
  | link (register : String) (target : ClassId)
  | pointsTo (register : String) (target : ClassId)
  | same (register other : String)
  | inspect (register : String)

/-- What a register shows: its reference, and the class that can be had through it. -/
structure View where
  reference : Reference
  seen : Option ClassId
  className : Option String

inductive Reply
  | done
  | refused (fault : Fault)
  | truth (value : Bool)
  | view (view : View)

def read (b : Bench) (register : String) : Reference := b.registers.getD register default

def put (b : Bench) (register : String) (r : Reference) : Bench :=
  { b with registers := b.registers.insert register r }

def isAlive (b : Bench) (id : ClassId) : Bool :=
  decide (id < b.classes.length) && !b.dead.contains id

/-- The class object that a reference gives: its target, while that is alive. -/
def classOf (b : Bench) (r : Reference) : Option ClassId := r.target.filter b.isAlive

def run (b : Bench) : Step → Reply × Bench
  | .create register name target => (.done, b.put register ⟨name, target⟩)
  | .copy register into => (.done, b.put into (b.read register))
  | .drop target => (.done, { b with dead := target :: b.dead })
  | .link register target =>
    match (b.read register).link target with
    | .ok r => (.done, b.put register r)
    | .error fault => (.refused fault, b)
  | .pointsTo register target => (.truth ((b.read register).pointsTo target), b)
  | .same register other => (.truth (b.read register == b.read other), b)
  | .inspect register =>
    let r := b.read register
    let seen := b.classOf r
    (.view ⟨r, seen, seen.bind fun id => b.classes[id]?⟩, b)

end Bench
end InterfaceTree
