import InterfaceTree.Proofs.Run
import InterfaceTree.Proofs.Scopes

/-!
# Scopes on a stack

The first stage of resolution is handed the parameters of the class around a leaf. Here they are on
a stack that several trees share, with the count of the names that have been turned.
-/
namespace InterfaceTree

/-- What the walks over several trees share: the parameters of the classes that are being walked,
the innermost first, and how many names have been turned. -/
structure Referrer where
  scopes : List (List String) := []
  converted : Nat := 0

abbrev Referring := ExceptT Fault (StateM Referrer)

section Machine

variable {α : Type}

/-- Runs in one more scope, which is left however the run ends. -/
def Referring.within (scope : List String) (run : Referring α) : Referring α :=
  ExceptT.mk do
    modify fun m => { m with scopes := scope :: m.scopes }
    let result ← run.run
    modify fun m => { m with scopes := m.scopes.tail }
    return result

def Referring.onLeaf (t : TypeExpr) : Referring TypeExpr :=
  match t with
  | .named name => do
    let m ← get
    if name == universalName || m.scopes.any (·.contains name) then return t
    else
      set { m with converted := m.converted + 1 }
      return .unlinked name
  | .ref reference => return .unlinked reference.name
  | _ => return t

def Class.referScoped (c : Class) : Referring Class :=
  Referring.within c.parameterNames (c.rebuildM (.ofType Referring.onLeaf))

def Module.referScoped (x : Module Class) : Referring (Module Class) :=
  x.traverseM (Constant.rebuildM (.ofType Referring.onLeaf))
    (Function.rebuildM (.ofType Referring.onLeaf)) Class.referScoped

def Node.referScoped : Node Class → Referring (Node Class)
  | .module x => .module <$> x.referScoped
  | .classDecl c => .classDecl <$> c.referScoped
  | n => n.rebuildM (.ofType Referring.onLeaf)

/-- One tree with what the trees before have left. -/
def Referrer.call (m : Referrer) (n : Node Class) : Except Fault (Node Class) × Referrer :=
  n.referScoped.run.run m

def Referrer.after (m : Referrer) (calls : List (Node Class)) : Referrer :=
  calls.foldl (fun m n => (m.call n).2) m

end Machine

section Leaf

theorem referredLeaf_named (params : List String) (name : String) :
    referredLeaf params (.named name) =
      if name = universalName ∨ name ∈ params then .named name else .unlinked name := by
  by_cases h : name = universalName ∨ name ∈ params <;>
    simp only [referredLeaf, TypeExpr.wanted?, h, if_true, if_false]

theorem Referring.run_onLeaf_named (name : String) (m : Referrer) :
    (onLeaf (.named name)).run.run m =
      if staysName m.scopes.flatten name = true then (.ok (.named name), m)
      else (.ok (.unlinked name), { m with converted := m.converted + 1 }) := by
  have asked : (name == universalName || m.scopes.any (·.contains name)) =
      staysName m.scopes.flatten name := by
    rw [staysName, Bool.eq_iff_iff]
    simp
  rw [onLeaf, exceptT_run_bind, exceptT_run_get]
  simp only [asked]
  split <;> rfl

end Leaf

section Refers

variable {α β : Type}

/-- From any count the run succeeds with this value, having turned these names, and leaves the
stack as it is; and so does the walk of the first stage. -/
structure Refers (scopes : List (List String)) (x : Referring α) (y : StateM Nat α) (a : α)
    (names : List String) : Prop where
  run : ∀ k, x.run.run ⟨scopes, k⟩ = (.ok a, ⟨scopes, k + names.length⟩)
  plain : ∀ k, y.run k = (a, k + names.length)

namespace Refers

variable {scopes : List (List String)} {x : Referring α} {y : StateM Nat α} {a : α} {b : β}
  {names more : List String}

theorem pure (a : α) : Refers scopes (Pure.pure a) (Pure.pure a) a [] :=
  ⟨fun _ => rfl, fun _ => rfl⟩

theorem bind {f : α → Referring β} {g : α → StateM Nat β} (hx : Refers scopes x y a names)
    (hf : Refers scopes (f a) (g a) b more) :
    Refers scopes (x >>= f) (y >>= g) b (names ++ more) where
  run k := by
    rw [exceptT_run_bind, hx.run, List.length_append, ← Nat.add_assoc]
    exact hf.run _
  plain k := by
    rw [stateM_run_bind, hx.plain, List.length_append, ← Nat.add_assoc]
    exact hf.plain _

theorem map (f : α → β) (hx : Refers scopes x y a names) :
    Refers scopes (f <$> x) (f <$> y) (f a) names := by
  rw [map_eq_pure_bind, map_eq_pure_bind, ← names.append_nil]
  exact hx.bind (.pure (f a))

theorem mapM {f : α → Referring β} {g : α → StateM Nat β} {done : α → β}
    {turned : α → List String} (h : ∀ a, Refers scopes (f a) (g a) (done a) (turned a))
    (as : List α) : Refers scopes (as.mapM f) (as.mapM g) (as.map done) (as.flatMap turned) := by
  induction as with
  | nil => exact .pure []
  | cons a as ih =>
    rw [List.mapM_cons, List.mapM_cons, List.flatMap_cons, ← (as.flatMap turned).append_nil]
    exact (h a).bind (ih.bind (.pure _))

theorem within {scope : List String} (hx : Refers (scope :: scopes) x y a names) :
    Refers scopes (Referring.within scope x) y a names where
  run k := by
    have unfolded : (Referring.within scope x).run.run ⟨scopes, k⟩ =
        ((x.run.run ⟨scope :: scopes, k⟩).1, { (x.run.run ⟨scope :: scopes, k⟩).2 with
          scopes := (x.run.run ⟨scope :: scopes, k⟩).2.scopes.tail }) := rfl
    rw [unfolded, hx.run, List.tail_cons]
  plain := hx.plain

theorem onLeaf (scopes : List (List String)) (u : TypeExpr) :
    Refers scopes (Referring.onLeaf u) (referLeaf scopes.flatten u)
      (referredLeaf scopes.flatten u) (u.turned? scopes.flatten).toList := by
  cases u with
  | named name =>
    have stays_iff : staysName scopes.flatten name = true ↔
        name = universalName ∨ name ∈ scopes.flatten := by
      simp [staysName]
    by_cases h : name = universalName ∨ name ∈ scopes.flatten
    · have stays := stays_iff.2 h
      rw [referredLeaf_named, if_pos h, TypeExpr.turned?, if_pos h, referLeaf, if_pos stays]
      exact ⟨fun k => (Referring.run_onLeaf_named name _).trans (if_pos stays), fun k => rfl⟩
    · have turns := mt stays_iff.1 h
      rw [referredLeaf_named, if_neg h, TypeExpr.turned?, if_neg h, referLeaf, if_neg turns]
      exact ⟨fun k => (Referring.run_onLeaf_named name _).trans (if_neg turns), fun k => rfl⟩
  | ref reference => exact .pure _
  | _ => exact .pure _

section Rebuild

variable (scopes)

theorem type (t : TypeExpr) : Refers scopes (t.rebuildM Referring.onLeaf)
    (t.rebuildM (referLeaf scopes.flatten)) (t.mapLeaves (referredLeaf scopes.flatten))
    (t.turned scopes.flatten) := by
  have leaves := (mapM (onLeaf scopes) t.leaves).map t.refillLeaves
  rw [TypeExpr.refillLeaves_map] at leaves
  have turned : t.leaves.flatMap (fun u => (u.turned? scopes.flatten).toList) =
      t.turned scopes.flatten := (List.filterMap_eq_flatMap_toList ..).symm
  rw [turned] at leaves
  rwa [TypeExpr.rebuildM_eq_refillLeaves, TypeExpr.rebuildM_eq_refillLeaves]
  all_goals
    intro u branch
    cases u <;> first | rfl | cases branch

theorem refill {refill : List TypeExpr → α} {ts : List TypeExpr}
    (hx : x = refill <$> ts.mapM (TypeExpr.rebuildM Referring.onLeaf))
    (hy : y = refill <$> ts.mapM (TypeExpr.rebuildM (referLeaf scopes.flatten)))
    (ha : refill (ts.map (TypeExpr.mapLeaves (referredLeaf scopes.flatten))) = a) :
    Refers scopes x y a (ts.flatMap (TypeExpr.turned scopes.flatten)) := by
  rw [hx, hy, ← ha]
  exact (mapM (type scopes) ts).map refill

end Rebuild
end Refers

theorem Node.refers (n : Node Class) :
    Refers [] n.referScoped n.refer (n.mapScoped referredLeaf []) (n.turned []) := by
  have constant (c : Constant) : Refers [] (c.rebuildM (.ofType Referring.onLeaf)) c.refer
      (c.mapLeaves (referredLeaf [])) (c.types.flatMap (TypeExpr.turned [])) :=
    .refill [] (c.rebuildM_eq_refill _) (c.rebuildM_eq_refill _) (c.refill_map _)
  have function (f : Function) : Refers [] (f.rebuildM (.ofType Referring.onLeaf)) f.refer
      (f.mapLeaves (referredLeaf [])) (f.types.flatMap (TypeExpr.turned [])) :=
    .refill [] (f.rebuildM_eq_refill _) (f.rebuildM_eq_refill _) (f.refill_map _)
  have cls (c : Class) : Refers [] c.referScoped c.refer
      (c.mapLeaves (referredLeaf c.parameterNames))
      (c.types.flatMap (TypeExpr.turned c.parameterNames)) := by
    have flat : [c.parameterNames].flatten = c.parameterNames := by simp
    have inside := Refers.refill [c.parameterNames] (c.rebuildM_eq_refill _)
      (c.rebuildM_eq_refill _) (c.refill_map _)
    rw [flat] at inside
    exact inside.within
  cases n with
  | module x =>
    have sections : Refers [] x.referScoped x.refer _ _ :=
      (Refers.mapM constant _).bind ((Refers.mapM function _).bind
        ((Refers.mapM cls _).bind (.pure _)))
    rw [List.append_nil, ← List.append_assoc] at sections
    exact sections.map _
  | constant c => exact (constant c).map _
  | function f => exact (function f).map _
  | signature s =>
    exact (Refers.refill [] (s.rebuildM_eq_refill _) (s.rebuildM_eq_refill _)
      (s.refill_map _)).map _
  | parameter p =>
    exact (Refers.refill [] (p.rebuildM_eq_refill _) (p.rebuildM_eq_refill _)
      (p.refill_map _)).map _
  | classDecl c => exact (cls c).map _
  | templateItem i =>
    exact (Refers.refill [] (i.rebuildM_eq_refill _) (i.rebuildM_eq_refill _)
      (i.refill_map _)).map _
  | type t => exact (Refers.type [] t).map _

end Refers

section Image

variable {params : List String} {u : TypeExpr} {name : String} {reference : Reference}

theorem target_of_referredLeaf (image : referredLeaf params u = .ref reference) :
    reference.target = none := by
  cases u with
  | named name =>
    rw [referredLeaf_named] at image
    split at image <;> cases image
    rfl
  | ref reference =>
    cases image
    rfl
  | _ => cases image

theorem stays_of_referredLeaf (image : referredLeaf params u = .named name) :
    name = universalName ∨ name ∈ params := by
  cases u with
  | named name =>
    rw [referredLeaf_named] at image
    split at image
    · cases image
      assumption
    · cases image
  | _ => cases image

namespace Node

variable {n : Node Class}

theorem turned?_isSome_iff : (n.turned? params).isSome = true ↔
    (∃ name, n = .type (.named name)) ∧
      ∃ reference, n.mapScoped referredLeaf params = .type (.ref reference) := by
  constructor
  · intro given
    cases n with
    | type t =>
      cases t with
      | named name =>
        have turns : ¬ (name = universalName ∨ name ∈ params) := by
          intro stays
          simp only [turned?, TypeExpr.turned?, if_pos stays, Option.isSome_none] at given
          cases given
        refine ⟨⟨name, rfl⟩, ⟨name, none⟩, congrArg Node.type ?_⟩
        rw [TypeExpr.mapLeaves_named, referredLeaf_named, if_neg turns]
      | _ => cases given
    | _ => cases given
  · rintro ⟨⟨name, rfl⟩, reference, image⟩
    have turned := Node.type.inj image
    rw [TypeExpr.mapLeaves_named, referredLeaf_named] at turned
    split at turned
    · cases turned
    · simp [turned?, TypeExpr.turned?, *]

theorem mapScoped_referredLeaf_twice (n : Node Class) :
    (n.mapScoped referredLeaf []).mapScoped referredLeaf [] = n.mapScoped referredLeaf [] := by
  rw [mapScoped_mapScoped]
  apply mapScoped_congr
  intro scope u leaf
  rw [TypeExpr.mapLeaves_of_isLeaf (referredLeaf_isLeaf scope u leaf)]
  rcases referredLeaf_cases scope u with same | ⟨name, -, image⟩
  · rw [same, same]
  · rw [image]
    rfl

variable {p : Path}

theorem target_of_at?
    (here : (n.mapScoped referredLeaf []).at? p = some (.type (.ref reference))) :
    reference.target = none := by
  rw [← map_scopedAt? []] at here
  obtain ⟨⟨scope, _⟩, found, rfl⟩ := Option.map_eq_some_iff.1 here
  obtain ⟨u, image⟩ := leaf_of_scopedAt? referredLeaf_isLeaf rfl found
  exact target_of_referredLeaf image.symm

/-- A name that is left is that of the universal type or a parameter of a class around it. -/
theorem stays_of_at? (here : (n.mapScoped referredLeaf []).at? p = some (.type (.named name))) :
    name = universalName ∨ ∃ (q r : Path) (c : Class), p = q ++ r ∧
      (n.mapScoped referredLeaf []).at? q = some (.classDecl c) ∧ name ∈ c.parameterNames := by
  rw [← map_scopedAt? []] at here
  obtain ⟨⟨scope, _⟩, found, rfl⟩ := Option.map_eq_some_iff.1 here
  obtain ⟨u, image⟩ := leaf_of_scopedAt? referredLeaf_isLeaf rfl found
  refine (stays_of_referredLeaf image.symm).imp_right fun declared => ?_
  rcases scope_of_scopedAt? found with rfl | ⟨q, r, c, way, there, rfl⟩
  · cases declared
  · exact ⟨q, r, c, way, there, declared⟩

theorem turned_mapScoped (n : Node Class) : (n.mapScoped referredLeaf []).turned [] = [] := by
  obtain ⟨paths, -, complete, count⟩ := exists_turned [] (n.mapScoped referredLeaf [])
  cases paths with
  | nil => exact List.length_eq_zero_iff.1 count.symm
  | cons p paths =>
    exfalso
    obtain ⟨⟨scope, _⟩, found, given⟩ := (complete p).1 List.mem_cons_self
    obtain ⟨⟨name, rfl⟩, reference, turned⟩ := turned?_isSome_iff.1 given
    obtain ⟨u, image⟩ := leaf_of_scopedAt? referredLeaf_isLeaf rfl found
    have turned := Node.type.inj turned
    rw [TypeExpr.mapLeaves_named, referredLeaf_named,
      if_pos (stays_of_referredLeaf image.symm)] at turned
    cases turned

end Node
end Image

theorem Referrer.after_eq (k : Nat) (calls : List (Node Class)) :
    Referrer.after ⟨[], k⟩ calls = ⟨[], k + (calls.flatMap (Node.turned [])).length⟩ := by
  induction calls generalizing k with
  | nil => rfl
  | cons n calls ih =>
    have call : (Referrer.call ⟨[], k⟩ n).2 = ⟨[], k + (n.turned []).length⟩ :=
      congrArg Prod.snd (n.refers.run k)
    have step : Referrer.after ⟨[], k⟩ (n :: calls) =
        Referrer.after (Referrer.call ⟨[], k⟩ n).2 calls := rfl
    rw [step, call, ih, List.flatMap_cons, List.length_append, Nat.add_assoc]

/-- After any trees the walk over a further one succeeds and gives what a fresh one gives, which is
what the first stage makes of it; the count grows by as many as there are places where a name has
been turned into a reference. What it gives has unlinked references only, and no other names than
the universal type and parameters of the class around; another walk over it gives it back and turns
nothing. -/
theorem Referrer.call_after (calls : List (Node Class)) (n : Node Class) :
    let m := Referrer.after {} calls
    ∃ (y : Node Class) (k : Nat),
      m.call n = (.ok y, { m with converted := m.converted + k }) ∧
      Referrer.call {} n = (.ok y, { converted := k }) ∧
      n.refer.run m.converted = (y, m.converted + k) ∧
      (∃ paths : List Path, paths.Nodup ∧ paths.length = k ∧ ∀ p, p ∈ paths ↔
        (∃ name, n.at? p = some (.type (.named name))) ∧
          ∃ reference, y.at? p = some (.type (.ref reference))) ∧
      (∀ p reference, y.at? p = some (.type (.ref reference)) → reference.target = none) ∧
      (∀ p name, y.at? p = some (.type (.named name)) → name = universalName ∨
        ∃ (q r : Path) (c : Class), p = q ++ r ∧ y.at? q = some (.classDecl c) ∧
          name ∈ c.parameterNames) ∧
      ∀ later, (Referrer.after {} later).call y = (.ok y, Referrer.after {} later) := by
  intro m
  have start : m = ⟨[], m.converted⟩ := by
    simp only [m, after_eq]
  refine ⟨n.mapScoped referredLeaf [], (n.turned []).length, ?_, ?_, n.refers.plain _, ?_,
    fun p reference => Node.target_of_at?, fun p name => Node.stays_of_at?, fun later => ?_⟩
  · rw [start]
    exact n.refers.run _
  · have fresh := n.refers.run 0
    rwa [Nat.zero_add] at fresh
  · obtain ⟨paths, distinct, complete, count⟩ := n.exists_turned []
    refine ⟨paths, distinct, count, fun p => ?_⟩
    rw [complete, Node.at?_mapScoped referredLeaf_isLeaf, ← Node.map_scopedAt? []]
    simp only [Node.turned?_isSome_iff]
    cases n.scopedAt? [] p <;> simp
  · have again := (n.mapScoped referredLeaf []).refers
    rw [n.mapScoped_referredLeaf_twice, n.turned_mapScoped] at again
    rw [show Referrer.after {} later = ⟨[], _⟩ from after_eq 0 later]
    exact again.run _

end InterfaceTree
