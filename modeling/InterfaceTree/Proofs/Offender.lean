import InterfaceTree.Proofs.Printable

/-!
# Why a tree has no text

A flaw inside of a node comes before a flaw of the node itself, and a part on the left before one on
the right.
-/
namespace InterfaceTree

section Flaws

inductive Name.Flaw (name : String) : Malformation → Prop
  | backTick (inside : Name.backTick ∈ name.toList) : Flaw name (.backTick name)
  | empty (none : name = "") : Flaw name .emptyName

theorem Name.check_eq_error_iff {kind : Kind} {name : String} {fault : Fault} :
    Name.check kind name = .error fault ↔
      ∃ rule, Name.Flaw name rule ∧ fault = .malformed kind rule := by
  rw [Name.check]
  split
  · next inside =>
    constructor
    · intro h
      cases h
      exact ⟨_, .backTick inside, rfl⟩
    · rintro ⟨rule, _ | empty, rfl⟩
      · rfl
      · rw [empty] at inside
        cases inside
  · next outside =>
    split
    · next empty =>
      constructor
      · intro h
        cases h
        exact ⟨_, .empty empty, rfl⟩
      · rintro ⟨rule, inside | _, rfl⟩
        · exact absurd inside outside
        · rfl
    · next filled =>
      constructor
      · intro h
        cases h
      · rintro ⟨rule, inside | empty, rfl⟩
        · exact absurd inside outside
        · exact absurd empty filled

/-- What is wrong with a node itself, whatever is inside of it. -/
def Node.Flaw : Node Class → Malformation → Prop
  | .function f, rule => f.signatures = [] ∧ rule = .noSignatures f.name
  | .classDecl c, rule => Name.Flaw c.name rule
  | .templateItem i, rule => Name.Flaw i.name rule
  | .type t, rule => ∃ name, t.name? = some name ∧ Name.Flaw name rule
  | _, _ => False

theorem Layout.check_eq_error_iff {n : Node Class} {fault : Fault} :
    Layout.check n = .error fault ↔ ∃ rule, n.Flaw rule ∧ fault = .malformed n.kind rule := by
  cases n with
  | function f =>
    rw [check]
    split
    · next none =>
      constructor
      · intro h
        cases h
        exact ⟨_, ⟨List.isEmpty_iff.1 none, rfl⟩, rfl⟩
      · rintro ⟨rule, ⟨-, rfl⟩, rfl⟩
        rfl
    · next some =>
      constructor
      · intro h
        cases h
      · rintro ⟨rule, ⟨none, -⟩, -⟩
        exact absurd (List.isEmpty_iff.2 none) some
  | classDecl c => exact Name.check_eq_error_iff
  | templateItem i => exact Name.check_eq_error_iff
  | type t =>
    cases t <;>
      simp [check, Node.Flaw, Node.kind, TypeExpr.kind, TypeExpr.name?, Name.check_eq_error_iff]
  | _ => simp [check, Node.Flaw]

end Flaws

section First

variable {α : Type}

theorem split_of_forM_eq_error {act : α → Except Fault Unit} {as : List α} {fault : Fault}
    (h : forM as act = .error fault) : ∃ before a after, as = before ++ a :: after ∧
      (∀ b ∈ before, act b = .ok ()) ∧ act a = .error fault := by
  induction as with
  | nil => cases h
  | cons a as ih =>
    rw [List.forM_cons] at h
    cases first : act a with
    | error own =>
      rw [first] at h
      cases h
      exact ⟨[], a, as, rfl, List.forall_mem_nil _, first⟩
    | ok u =>
      rw [first] at h
      obtain ⟨before, b, after, rfl, passed, failed⟩ := ih h
      exact ⟨a :: before, b, after, rfl, List.forall_mem_cons.2 ⟨first, passed⟩, failed⟩

/-- The way to a node of the list; what is not before it in the list is not before it in the
tree. -/
theorem Node.exists_path_of_split {n x : Node Class} {before after : List (Node Class)}
    (split : n.postorder = before ++ x :: after) : ∃ p, n.at? p = some x ∧
      ∀ q y, n.at? q = some y → y ∈ before ∨ q = p ∨ p.Before q := by
  obtain ⟨paths, complete, ordered, same⟩ := n.exists_paths
  rw [split, List.map_append, List.map_cons] at same
  obtain ⟨left, rest, rfl, lefts, rests⟩ := List.map_eq_append_iff.1 same
  obtain ⟨p, right, rfl, here, -⟩ := List.map_eq_cons_iff.1 rests
  refine ⟨p, here, fun q y there => ?_⟩
  have listed : q ∈ left ++ p :: right := (complete q).2 (by rw [there]; rfl)
  rcases List.mem_append.1 listed with inside | inside
  · have found := List.mem_map_of_mem (f := n.at?) inside
    rw [lefts, there] at found
    obtain ⟨z, hz, image⟩ := List.mem_map.1 found
    exact .inl (Option.some.inj image ▸ hz)
  · rcases List.mem_cons.1 inside with rfl | inside
    · exact .inr (.inl rfl)
    · have later := List.rel_of_pairwise_cons (List.pairwise_append.1 ordered).2.1 inside
      exact .inr (.inr later)

end First

/-- There is a text if and only if every node of the tree passes, at any width. Otherwise what is
reported is a flaw, by the kind of the node that has it, of the first node that does not pass. -/
theorem Node.print_outcome (indent : Nat) (n : Node Class) :
    ((∃ text, n.print indent = .ok text) ↔ ∀ p x, n.at? p = some x → x.Passes) ∧
    ∀ fault, n.print indent = .error fault → ∃ p x rule, n.at? p = some x ∧ x.Flaw rule ∧
      fault = .malformed x.kind rule ∧
      ∀ q y, n.at? q = some y → ¬ y.Passes → q = p ∨ p.Before q := by
  constructor
  · simp only [Node.print, n.evaluates_iff, n.mem_postorder_iff, forall_exists_index]
    exact forall_comm
  · intro fault failed
    have checks : forM n.postorder Layout.check = .error fault := by
      rw [← n.effect_evaluate (Layout.performs_rules indent .quoted)]
      exact congrArg effect failed
    obtain ⟨before, x, after, split, passed, stopped⟩ := split_of_forM_eq_error checks
    obtain ⟨p, here, first⟩ := exists_path_of_split split
    obtain ⟨rule, flaw, named⟩ := Layout.check_eq_error_iff.1 stopped
    refine ⟨p, x, rule, here, flaw, named, fun q y there fails => ?_⟩
    rcases first q y there with inside | later
    · exact absurd ((Layout.check_eq_ok_iff y).1 (passed y inside)) fails
    · exact later

/-- The types inside of a class come before its own name, which cannot be written either. -/
example : Node.print 4 (.classDecl { name := "", constants := [⟨"", .inter [.named ""]⟩] }) =
    .error (.malformed .namedType .emptyName) := by
  decide

end InterfaceTree
