import InterfaceTree.TypeExpr
import InterfaceTree.Text.Quoted

/-!
# Faults

Every cause has a `described` form for faults that callers raise in their own words.
-/
namespace InterfaceTree

structure UnknownClass where
  name : String
  deriving DecidableEq, Repr

def UnknownClass.message (u : UnknownClass) : String := "no class named '" ++ u.name ++ "'"

inductive Unsupported
  /-- A usage that has not exactly one argument. -/
  | argumentList (usage : String)
  /-- An instance that is needed to build an instance of the same template. -/
  | reentered (required outer : String)
  | described (text : String)
  deriving DecidableEq, Repr

def Unsupported.text : Unsupported → String
  | .argumentList usage => "instantiating multi-parameter generic type '" ++ usage ++ "'"
  | .reentered required outer =>
    "'" ++ required ++ "' is required while instantiating '" ++ outer ++ "'"
  | .described text => text

inductive Malformation
  | backTick (name : String)
  | emptyName
  | noSignatures (function : String)
  | arity (className : String) (declared given : Nat)
  /-- The cell of the reference of this name is filled with another class already. -/
  | alreadyLinked (name : String)
  | described (text : String)
  deriving DecidableEq, Repr

def Malformation.text : Malformation → String
  | .backTick name =>
    "name " ++ Text.quoted name ++ " contains a back-tick and cannot be quoted"
  | .emptyName => "empty name"
  | .noSignatures function => "function '" ++ function ++ "' has no signatures"
  | .arity className declared given =>
    "'" ++ className ++ "' declares " ++ toString declared ++ " template parameter(s), got "
      ++ toString given ++ " argument(s)"
  | .alreadyLinked name => "reference to '" ++ name ++ "' is already linked"
  | .described text => text

inductive Position
  | usageBase (usage : String)
  | described (text : String)
  deriving DecidableEq, Repr

def Position.text : Position → String
  | .usageBase usage => "as the base of container type '" ++ usage ++ "'"
  | .described text => text

inductive Fault
  | unresolvedName (name : String)
  | unsupported (what : Unsupported)
  | malformed (kind : Kind) (rule : Malformation)
  | misplaced (kind : Kind) (position : Position)
  deriving DecidableEq, Repr

namespace Fault

def message : Fault → String
  | .unresolvedName name => "unresolved class name '" ++ name ++ "'"
  | .unsupported what => "unsupported construct: " ++ what.text
  | .malformed kind rule => "malformed " ++ kind.word ++ ": " ++ rule.text
  | .misplaced kind position => "unsupported " ++ kind.word ++ " node " ++ position.text

def isUnresolvedName : Fault → Bool
  | .unresolvedName _ => true
  | _ => false

def isUnsupported : Fault → Bool
  | .unsupported _ => true
  | _ => false

def isMalformed : Fault → Bool
  | .malformed _ _ => true
  | _ => false

end Fault

def UnknownClass.toFault (u : UnknownClass) : Fault := .unresolvedName u.name

end InterfaceTree
