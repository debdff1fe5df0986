import InterfaceTree.Fault

namespace InterfaceTree.Name

def backTick : Char := '\x60'

def startsIdentifier (c : Char) : Bool := c.isAlpha || c == '_'

def continuesIdentifier (c : Char) : Bool := c.isAlphanum || c == '_'

/-- ASCII letters, digits and underscores, not led by a digit. -/
def isBare (name : String) : Bool :=
  match name.toList with
  | [] => false
  | c :: cs => startsIdentifier c && cs.all continuesIdentifier

def Writable (name : String) : Prop := name ≠ "" ∧ backTick ∉ name.toList

instance (name : String) : Decidable (Writable name) := inferInstanceAs (Decidable (_ ∧ _))

inductive Style
  /-- Between back-ticks unless bare. -/
  | quoted
  /-- As they are. -/
  | plain
  deriving DecidableEq, Repr

/-- A back-tick is reported before emptiness. -/
def check (kind : Kind) (name : String) : Except Fault Unit :=
  if backTick ∈ name.toList then .error (.malformed kind (.backTick name))
  else if name = "" then .error (.malformed kind .emptyName)
  else .ok ()

theorem check_eq_ok_iff {kind : Kind} {name : String} :
    check kind name = .ok () ↔ Writable name := by
  unfold check Writable
  split
  · simp_all
  · split <;> simp_all

private def backTicked (name : String) : String :=
  String.ofList (backTick :: name.toList ++ [backTick])

def spell (style : Style) (name : String) : String :=
  if style = .quoted ∧ isBare name = false then backTicked name else name

def write (style : Style) (kind : Kind) (name : String) : Except Fault String :=
  (check kind name).map fun _ => spell style name

theorem write_eq_ok {style : Style} {kind : Kind} {name : String} (h : Writable name) :
    write style kind name = .ok (spell style name) := by
  rw [write, check_eq_ok_iff.2 h]
  rfl

@[simp] theorem spell_plain (name : String) : spell .plain name = name := by
  simp [spell]

theorem spell_quoted_of_isBare {name : String} (h : isBare name = true) :
    spell .quoted name = name := by
  simp [spell, h]

theorem toList_spell_quoted_of_not_isBare {name : String} (h : isBare name = false) :
    (spell .quoted name).toList = backTick :: name.toList ++ [backTick] := by
  simp [spell, h, backTicked]

end InterfaceTree.Name
