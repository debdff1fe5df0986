import InterfaceTree.ClassTable

/-!
# Templates under specialization

A template that is needed again while its own body is specialized would need itself or ever longer
arguments.
-/
namespace InterfaceTree

structure Active where
  template : String
  canonical : String
  deriving DecidableEq, Repr

namespace Active

variable {τ : Type} [ClassTable τ]

def find? (active : List Active) (template : String) : Option Active :=
  active.find? (·.template == template)

def idleCount (table : τ) (active : List Active) : Nat :=
  (ClassTable.names table).countP fun name => (find? active name).isNone

private theorem find?_cons (a : Active) (active : List Active) (name : String) :
    find? (a :: active) name =
      if a.template = name then some a else find? active name := by
  by_cases h : a.template = name <;> simp [find?, h]

theorem idleCount_lt {table : τ} {active : List Active} {a : Active}
    (known : a.template ∈ ClassTable.names table)
    (idle : find? active a.template = none) :
    idleCount table (a :: active) < idleCount table active := by
  unfold idleCount
  have key : ∀ names : List String, a.template ∈ names →
      names.countP (fun name => (find? (a :: active) name).isNone) <
        names.countP (fun name => (find? active name).isNone) := by
    intro names
    induction names with
    | nil => simp
    | cons n ns ih =>
      intro hmem
      have le : ns.countP (fun name => (find? (a :: active) name).isNone) ≤
          ns.countP (fun name => (find? active name).isNone) := by
        apply List.countP_mono_left
        intro name _ h
        rw [find?_cons] at h
        split at h <;> simp_all
      by_cases hn : a.template = n
      · subst hn
        rw [List.countP_cons, List.countP_cons, if_neg (by simp [find?_cons]),
          if_pos (by simp [idle])]
        omega
      · have := ih (by simpa [hn] using hmem)
        rw [List.countP_cons, List.countP_cons, find?_cons, if_neg hn]
        omega
  exact key _ known

end Active
end InterfaceTree
