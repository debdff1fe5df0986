import InterfaceTree.Name
import InterfaceTree.Walk.Evaluate

/-!
# Declarations as text

    x: int

    def f(a: int, b, ...) -> str raises ValueError

    class Box<T>(Base):
        size: int
        def get(self) -> T
-/
namespace InterfaceTree

namespace Text

private def dropReturn : List Char → List Char
  | '\r' :: rest => rest
  | line => line

/-- Cuts the characters still to come, with the current line collected backwards. -/
def cutLines (current : List Char) : List Char → List (List Char)
  | [] => if current.isEmpty then [] else [current.reverse]
  | '\n' :: rest => (dropReturn current).reverse :: cutLines [] rest
  | c :: rest => cutLines (c :: current) rest

def lines (s : String) : List String := (cutLines [] s.toList).map String.ofList

end Text

namespace Layout

def commas (texts : List String) : String := String.intercalate ", " texts

def newlines (texts : List String) : String := String.intercalate "\n" texts

def sections (texts : List (List String)) : String :=
  String.intercalate "\n\n" ((texts.filter (!·.isEmpty)).map newlines)

/-- A list in brackets, left out when it is empty. -/
def bracketed (opening closing : String) (texts : List String) : String :=
  if texts.isEmpty then "" else opening ++ commas texts ++ closing

def usageText (base : String) (args : List String) : String := base ++ "<" ++ commas args ++ ">"

/-- An annotation is left out when it is the universal type. -/
def annotated (name : String) (type : TypeExpr) (text : String) : String :=
  if type.isUniversal then name else name ++ ": " ++ text

def signatureText (s : Signature) (params : List String) (returns : String)
    (raises : List String) : String :=
  "(" ++ commas (if s.variadic then params ++ ["..."] else params) ++ ")"
    ++ (if s.returns.isUniversal then "" else " -> " ++ returns)
    ++ bracketed " raises " "" raises

def functionText (f : Function) (signatures : List String) : Except Fault String :=
  if signatures.isEmpty then .error (.malformed .function (.noSignatures f.name))
  else .ok (newlines (signatures.map fun s => "def " ++ f.name ++ s))

def classHeader (name : String) (template parents : List String) : String :=
  "class " ++ name ++ bracketed "<" ">" template ++ bracketed "(" ")" parents ++ ":"

def classBody (constants methods : List String) : List String :=
  if constants.isEmpty && methods.isEmpty then ["pass"]
  else constants ++ methods.flatMap Text.lines

def margin (indent : Nat) : String := "".pushn ' ' indent

theorem margin_eq (indent : Nat) : margin indent = String.ofList (List.replicate indent ' ') := by
  induction indent with
  | zero => rfl
  | succ indent ih =>
    have step : margin (indent + 1) = (margin indent).push ' ' := by
      simp [margin, String.pushn_eq_repeat_push, Nat.repeat]
    apply String.toList_injective
    rw [step, ih, String.toList_push, String.toList_ofList, String.toList_ofList,
      List.replicate_succ']

def classText (indent : Nat) (header : String) (body : List String) : String :=
  newlines (header :: body.map (margin indent ++ ·)) ++ "\n"

def rules (indent : Nat) (style : Name.Style) : Evaluator (Except Fault) String where
  module _ constants functions classes := pure (sections [constants, functions, classes])
  constant c type := pure (c.name ++ ": " ++ type)
  function f signatures := functionText f signatures
  signature s params returns raises := pure (signatureText s params returns raises)
  parameter p type := pure (annotated p.name p.type type)
  classDecl c template parents constants methods := do
    let name ← Name.write style .classDecl c.name
    pure (classText indent (classHeader name template parents) (classBody constants methods))
  templateItem i bound := do
    let name ← Name.write style .templateItem i.name
    pure (if i.bound.isUniversal then name else usageText name [bound])
  named name := Name.write style .namedType name
  ref reference := Name.write style .classReference reference.name
  container _ base element := pure (usageText base [element])
  generic _ base args := pure (usageText base args)
  union _ members := pure (String.intercalate " or " members)
  inter _ members := pure (String.intercalate " and " members)

end Layout

def defaultIndent : Nat := 4

def Node.print (indent : Nat) (n : Node Class) : Except Fault String :=
  n.evaluate (Layout.rules indent .quoted)

def Module.print (indent : Nat) (x : Module Class) : Except Fault String :=
  x.evaluate (Layout.rules indent .quoted)

namespace TypeExpr

def render (t : TypeExpr) : Except Fault String := t.evaluate (Layout.rules defaultIndent .quoted)

/-- The text that names instances: the same rules with every name left plain, so that a usage and
a reference to its instance have one text. -/
def canonical (t : TypeExpr) : Except Fault String := t.evaluate (Layout.rules 0 .plain)

end TypeExpr
end InterfaceTree
