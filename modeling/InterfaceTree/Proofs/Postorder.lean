import Mathlib.Data.List.FinRange
import InterfaceTree.Proofs.Parts

/-!
# The nodes of a tree in the order of completion

A node is told by the way to it: the position among the parts of its parent, for every step from the
root.
-/
namespace InterfaceTree

namespace TypeExpr

/-- What stands directly inside, from left to right. -/
def parts : TypeExpr → List TypeExpr
  | .named _ => []
  | .ref _ => []
  | .container base element => [base, element]
  | .generic base args => base :: args
  | .union members => members
  | .inter members => members

@[elab_as_elim]
theorem induct_parts {motive : TypeExpr → Prop}
    (step : ∀ t : TypeExpr, (∀ u ∈ t.parts, motive u) → motive t) : ∀ t, motive t := by
  intro t
  induction t with
  | named name => exact step _ (by simp [parts])
  | ref reference => exact step _ (by simp [parts])
  | container base element hb he => exact step _ (by simp [parts, hb, he])
  | generic base args hb ha => exact step _ (List.forall_mem_cons.2 ⟨hb, ha⟩)
  | union members hm => exact step _ hm
  | inter members hm => exact step _ hm

def postorder (t : TypeExpr) : List (Node Class) := t.subterms.map .type

section Postorder

variable (base element : TypeExpr) (ts : List TypeExpr)

@[simp] theorem postorder_named (name : String) :
    (named name).postorder = [.type (.named name)] := rfl

@[simp] theorem postorder_ref (reference : Reference) :
    (ref reference).postorder = [.type (.ref reference)] := rfl

private theorem map_subtermsAll :
    ((subtermsAll ts).map .type : List (Node Class)) = ts.flatMap postorder := by
  rw [subtermsAll_eq_flatMap, List.map_flatMap]
  rfl

@[simp] theorem postorder_container : (container base element).postorder =
    base.postorder ++ element.postorder ++ [.type (.container base element)] := by
  simp [postorder, subterms]

@[simp] theorem postorder_generic : (generic base ts).postorder =
    base.postorder ++ ts.flatMap postorder ++ [.type (.generic base ts)] := by
  simp [postorder, subterms, map_subtermsAll]

@[simp] theorem postorder_union :
    (union ts).postorder = ts.flatMap postorder ++ [.type (.union ts)] := by
  simp [postorder, subterms, map_subtermsAll]

@[simp] theorem postorder_inter :
    (inter ts).postorder = ts.flatMap postorder ++ [.type (.inter ts)] := by
  simp [postorder, subterms, map_subtermsAll]

end Postorder
end TypeExpr

namespace Node

def parts : Node Class → List (Node Class)
  | .module x =>
    x.constants.map .constant ++ x.functions.map .function ++ x.classes.map .classDecl
  | .constant c => [.type c.type]
  | .function f => f.signatures.map .signature
  | .signature s => s.params.map .parameter ++ .type s.returns :: s.raises.map .type
  | .parameter p => [.type p.type]
  | .classDecl c =>
    c.template.map .templateItem ++ c.parents.map .type ++ c.constants.map .constant ++
      c.methods.map .function
  | .templateItem i => [.type i.bound]
  | .type t => t.parts.map .type

def isDeclaration : Node Class → Bool
  | .type _ => false
  | _ => true

end Node

def Constant.postorder (c : Constant) : List (Node Class) := c.type.postorder ++ [.constant c]

def Parameter.postorder (p : Parameter) : List (Node Class) := p.type.postorder ++ [.parameter p]

def TemplateItem.postorder (i : TemplateItem) : List (Node Class) :=
  i.bound.postorder ++ [.templateItem i]

def Signature.postorder (s : Signature) : List (Node Class) :=
  s.params.flatMap Parameter.postorder ++ s.returns.postorder ++
    s.raises.flatMap TypeExpr.postorder ++ [.signature s]

def Function.postorder (f : Function) : List (Node Class) :=
  f.signatures.flatMap Signature.postorder ++ [.function f]

def Class.postorder (c : Class) : List (Node Class) :=
  c.template.flatMap TemplateItem.postorder ++ c.parents.flatMap TypeExpr.postorder ++
    c.constants.flatMap Constant.postorder ++ c.methods.flatMap Function.postorder ++ [.classDecl c]

def Module.postorder (x : Module Class) : List (Node Class) :=
  x.constants.flatMap Constant.postorder ++ x.functions.flatMap Function.postorder ++
    x.classes.flatMap Class.postorder ++ [.module x]

namespace Node

/-- The node and all that is inside of it, the parts before the whole. -/
def postorder : Node Class → List (Node Class)
  | .module x => x.postorder
  | .constant c => c.postorder
  | .function f => f.postorder
  | .signature s => s.postorder
  | .parameter p => p.postorder
  | .classDecl c => c.postorder
  | .templateItem i => i.postorder
  | .type t => t.postorder

theorem postorder_eq (n : Node Class) : n.postorder = n.parts.flatMap postorder ++ [n] := by
  cases n with
  | module x =>
    simp only [parts, List.flatMap_append, List.flatMap_map]
    rfl
  | constant c => simp [parts, postorder, Constant.postorder]
  | function f =>
    rw [parts, List.flatMap_map]
    rfl
  | signature s =>
    simp only [parts, List.flatMap_append, List.flatMap_cons, List.flatMap_map, postorder,
      Signature.postorder, List.append_assoc]
  | parameter p => simp [parts, postorder, Parameter.postorder]
  | classDecl c =>
    simp only [parts, List.flatMap_append, List.flatMap_map]
    rfl
  | templateItem i => simp [parts, postorder, TemplateItem.postorder]
  | type t =>
    rw [parts, List.flatMap_map]
    cases t <;> simp [postorder, TypeExpr.parts]

/-- A property passes from the parts to the whole, so all nodes have it. -/
@[elab_as_elim]
theorem induct {motive : Node Class → Prop}
    (step : ∀ n : Node Class, (∀ x ∈ n.parts, motive x) → motive n) : ∀ n, motive n := by
  have type (t : TypeExpr) : motive (.type t) := by
    induction t using TypeExpr.induct_parts with
    | step t ih =>
      apply step
      rw [parts, List.forall_mem_map]
      exact ih
  have constant (c : Constant) : motive (.constant c) := step _ (by simp [parts, type])
  have parameter (p : Parameter) : motive (.parameter p) := step _ (by simp [parts, type])
  have templateItem (i : TemplateItem) : motive (.templateItem i) := step _ (by simp [parts, type])
  have signature (s : Signature) : motive (.signature s) := by
    apply step
    simp only [parts, List.forall_mem_append, List.forall_mem_cons, List.forall_mem_map]
    exact ⟨fun p _ => parameter p, type s.returns, fun t _ => type t⟩
  have function (f : Function) : motive (.function f) := by
    apply step
    rw [parts, List.forall_mem_map]
    exact fun s _ => signature s
  have classDecl (c : Class) : motive (.classDecl c) := by
    apply step
    simp only [parts, List.forall_mem_append, List.forall_mem_map]
    exact ⟨⟨⟨fun i _ => templateItem i, fun t _ => type t⟩, fun k _ => constant k⟩,
      fun f _ => function f⟩
  have module (x : Module Class) : motive (.module x) := by
    apply step
    simp only [parts, List.forall_mem_append, List.forall_mem_map]
    exact ⟨⟨fun c _ => constant c, fun f _ => function f⟩, fun c _ => classDecl c⟩
  rintro (x | c | f | s | p | c | i | t)
  exacts [module x, constant c, function f, signature s, parameter p, classDecl c, templateItem i,
    type t]

end Node

/-- The way from the root of a tree to a node: at every step the position among the parts. -/
abbrev Path := List Nat

/-- What is inside of a node comes before it; of two parts the one on the left comes first, with all
that is inside of it. -/
inductive Path.Before : Path → Path → Prop
  | inside (p : Path) (i : Nat) (q : Path) : Before (p ++ i :: q) p
  | left (p : Path) {i j : Nat} (q r : Path) (h : i < j) : Before (p ++ i :: q) (p ++ j :: r)

namespace Path.Before

theorem cons {p q : Path} (i : Nat) (h : Before p q) : Before (i :: p) (i :: q) := by
  cases h with
  | inside _ j r => exact .inside (i :: q) j r
  | left p q r h => exact .left (i :: p) q r h

theorem ne {p q : Path} (h : Before p q) : p ≠ q := by
  cases h with
  | inside p i q => simp
  | left p q r h =>
    intro same
    rw [List.append_cancel_left_eq, List.cons.injEq] at same
    exact absurd same.1 (Nat.ne_of_lt h)

end Path.Before

namespace Node

def at? (n : Node Class) : Path → Option (Node Class)
  | [] => some n
  | i :: p => n.parts[i]? >>= fun x => x.at? p

section Paths

variable {σ β : Type} (next : σ → Node Class → σ) (look : σ → Node Class → Path → Option β)
  (walk : σ → Node Class → List β)

/-- The ways on which something is seen, in the order in which a walk sees it. The walk visits the
parts first; what it hands down to them depends on the node, and `look` takes it along a way. -/
theorem exists_paths_of
    (look_cons : ∀ s n i p, look s n (i :: p) = n.parts[i]? >>= fun x => look (next s n) x p)
    (walk_eq : ∀ s n, walk s n = n.parts.flatMap (walk (next s n)) ++ (look s n []).toList)
    (s : σ) (n : Node Class) : ∃ paths : List Path,
      (∀ p, p ∈ paths ↔ (look s n p).isSome) ∧ paths.Pairwise Path.Before ∧
        paths.map (look s n) = (walk s n).map some := by
  induction n using Node.induct generalizing s with
  | step n ih =>
    have ih (i : Fin n.parts.length) := ih (n.parts.get i) (List.get_mem ..) (next s n)
    choose paths complete ordered same using ih
    have look_part (i : Fin n.parts.length) (p : Path) :
        look s n (i :: p) = look (next s n) (n.parts.get i) p := by
      rw [look_cons, List.getElem?_eq_getElem i.isLt]
      rfl
    -- the ways into each part with its position in front, and then the way that ends here
    refine ⟨(List.finRange n.parts.length).flatMap (fun i => (paths i).map (i.val :: ·)) ++
      ((look s n []).map fun _ => []).toList, ?_, ?_, ?_⟩
    · rintro (_ | ⟨i, p⟩)
      · simp [Option.isSome_iff_exists]
      · simp only [List.mem_append, List.mem_flatMap, List.mem_map, List.mem_finRange, true_and,
          List.cons.injEq, Option.mem_toList, Option.map_eq_some_iff, reduceCtorEq, and_false,
          exists_false, or_false]
        constructor
        · rintro ⟨i, p, hp, rfl, rfl⟩
          rw [look_part]
          exact (complete i p).1 hp
        · intro found
          have hi : i < n.parts.length := by
            by_contra outside
            rw [look_cons, List.getElem?_eq_none (Nat.le_of_not_lt outside)] at found
            cases found
          rw [look_part ⟨i, hi⟩] at found
          exact ⟨⟨i, hi⟩, p, (complete ⟨i, hi⟩ p).2 found, rfl, rfl⟩
    · rw [List.pairwise_append, List.pairwise_flatMap]
      refine ⟨⟨?_, ?_⟩, ?_, ?_⟩
      · intro i _
        exact (ordered i).map _ fun p q => Path.Before.cons i
      · refine List.Pairwise.imp ?_ (List.pairwise_lt_finRange _)
        intro i j h p hp q hq
        obtain ⟨p, -, rfl⟩ := List.mem_map.1 hp
        obtain ⟨q, -, rfl⟩ := List.mem_map.1 hq
        exact .left [] p q h
      · cases look s n [] <;> simp
      · intro p hp q hq
        obtain ⟨i, -, hp⟩ := List.mem_flatMap.1 hp
        obtain ⟨p, -, rfl⟩ := List.mem_map.1 hp
        obtain ⟨_, -, rfl⟩ := Option.map_eq_some_iff.1 (Option.mem_toList.1 hq)
        exact .inside [] i p
    · have each (i : Fin n.parts.length) : ((paths i).map (i.val :: ·)).map (look s n) =
          (walk (next s n) (n.parts.get i)).map some := by
        rw [List.map_map, ← same i]
        exact List.map_congr_left fun p _ => look_part i p
      have all : (List.finRange n.parts.length).flatMap (fun i => walk (next s n) (n.parts.get i)) =
          n.parts.flatMap (walk (next s n)) := by
        rw [← List.flatMap_map (f := n.parts.get), List.map_get_finRange]
      have last : (((look s n []).map fun _ => ([] : Path)).toList).map (look s n) =
          (look s n []).toList.map some := by
        cases seen : look s n [] <;> simp [seen]
      rw [walk_eq, ← all, List.map_append, List.map_append, List.map_flatMap, List.map_flatMap,
        last]
      congr 1
      exact List.flatMap_congr fun i _ => each i

end Paths

theorem exists_paths (n : Node Class) : ∃ paths : List Path,
    (∀ p, p ∈ paths ↔ (n.at? p).isSome) ∧ paths.Pairwise Path.Before ∧
      paths.map n.at? = n.postorder.map some :=
  exists_paths_of (fun s _ => s) (fun _ : Unit => at?) (fun _ => postorder)
    (fun _ _ _ _ => rfl) (fun _ => postorder_eq) () n

theorem mem_postorder_iff (n : Node Class) {x : Node Class} :
    x ∈ n.postorder ↔ ∃ p, n.at? p = some x := by
  obtain ⟨paths, complete, -, same⟩ := n.exists_paths
  have listed : x ∈ n.postorder ↔ some x ∈ paths.map n.at? := by
    rw [same]
    simp
  rw [listed, List.mem_map]
  constructor
  · rintro ⟨p, -, here⟩
    exact ⟨p, here⟩
  · rintro ⟨p, here⟩
    exact ⟨p, (complete p).2 (by rw [here]; rfl), here⟩

end Node
end InterfaceTree
