import InterfaceTree.Proofs.Postorder
import InterfaceTree.Proofs.Refill
import InterfaceTree.Proofs.Run
import InterfaceTree.Walk.Observe
import InterfaceTree.Walk.Evaluate

/-!
# Three walks in one order

Observing, rebuilding and evaluating are written apart. Each is the run of its hooks over the list
of the nodes.
-/
namespace InterfaceTree

variable {m : Type → Type} [Monad m]

/-- Acts at every node when its parts are done. -/
def Observer.acting (act : Node Class → m Unit) : Observer m := { leave := act }

def Rebuilder.acting (act : Node Class → m Unit) : Rebuilder m where
  module x := do act (.module x); pure x
  constant c := do act (.constant c); pure c
  function f := do act (.function f); pure f
  signature s := do act (.signature s); pure s
  parameter p := do act (.parameter p); pure p
  classDecl c := do act (.classDecl c); pure c
  templateItem i := do act (.templateItem i); pure i
  type t := do act (.type t); pure t

/-- Does what the observer does, and gives every node back. -/
def Rebuilder.following (o : Observer m) : Rebuilder m where
  enter := o.enter
  module x := do o.leave (.module x); pure x
  constant c := do o.leave (.constant c); pure c
  function f := do o.leave (.function f); pure f
  signature s := do o.leave (.signature s); pure s
  parameter p := do o.leave (.parameter p); pure p
  classDecl c := do o.leave (.classDecl c); pure c
  templateItem i := do o.leave (.templateItem i); pure i
  type t := do o.leave (.type t); pure t

def Evaluator.acting (act : Node Class → m Unit) : Evaluator m Unit where
  module x _ _ _ := act (.module x)
  constant c _ := act (.constant c)
  function f _ := act (.function f)
  signature s _ _ _ := act (.signature s)
  parameter p _ := act (.parameter p)
  classDecl c _ _ _ _ := act (.classDecl c)
  templateItem i _ := act (.templateItem i)
  named name := act (.type (.named name))
  ref reference := act (.type (.ref reference))
  container t _ _ := act (.type t)
  generic t _ _ := act (.type t)
  union t _ := act (.type t)
  inter t _ := act (.type t)

/-- What a computation does, without its value. -/
def effect {α : Type} (x : m α) : m Unit := (fun _ => ()) <$> x

/-- At a node the evaluator does what `act` does, whatever the values of the parts, one for each. -/
structure Evaluator.Performs {α : Type} (e : Evaluator m α) (act : Node Class → m Unit) : Prop where
  module : ∀ x cs fs ks, cs.length = x.constants.length → fs.length = x.functions.length →
    ks.length = x.classes.length → effect (e.module x cs fs ks) = act (.module x)
  constant : ∀ c a, effect (e.constant c a) = act (.constant c)
  function : ∀ f as, as.length = f.signatures.length →
    effect (e.function f as) = act (.function f)
  signature : ∀ s ps a rs, ps.length = s.params.length → rs.length = s.raises.length →
    effect (e.signature s ps a rs) = act (.signature s)
  parameter : ∀ p a, effect (e.parameter p a) = act (.parameter p)
  classDecl : ∀ c is ps ks fs, is.length = c.template.length → ps.length = c.parents.length →
    ks.length = c.constants.length → fs.length = c.methods.length →
    effect (e.classDecl c is ps ks fs) = act (.classDecl c)
  templateItem : ∀ i a, effect (e.templateItem i a) = act (.templateItem i)
  named : ∀ name, effect (e.named name) = act (.type (.named name))
  ref : ∀ reference, effect (e.ref reference) = act (.type (.ref reference))
  container : ∀ base element a b,
    effect (e.container (.container base element) a b) = act (.type (.container base element))
  generic : ∀ base args a as, as.length = args.length →
    effect (e.generic (.generic base args) a as) = act (.type (.generic base args))
  union : ∀ ts as, as.length = ts.length →
    effect (e.union (.union ts) as) = act (.type (.union ts))
  inter : ∀ ts as, as.length = ts.length →
    effect (e.inter (.inter ts) as) = act (.type (.inter ts))

theorem Evaluator.performs_acting [LawfulMonad m] (act : Node Class → m Unit) :
    (Evaluator.acting act).Performs act := by
  constructor <;> intros <;> exact id_map _

section Lists

variable [LawfulMonad m] {α β γ : Type}

theorem effect_bind (x : m α) (k : α → m β) :
    effect (x >>= k) = x >>= fun a => effect (k a) := by
  simp [effect]

private theorem bind_effect (x : m α) {k : α → m β} {r : m β} (h : ∀ a, k a = r) :
    x >>= k = (do effect x; r) := by
  simp [effect, funext h]

variable {parts : α → List β} {act : β → m Unit} (as : List α)

theorem forM_acting {visit : α → m Unit} (h : ∀ a ∈ as, visit a = forM (parts a) act) :
    forM as visit = forM (as.flatMap parts) act := by
  induction as with
  | nil => rfl
  | cons a as ih =>
    rw [List.forall_mem_cons] at h
    rw [List.forM_cons, h.1, ih h.2, List.flatMap_cons, List.forM_append]

private theorem mapM_following {visit : α → m α} {walk : α → m Unit}
    (h : ∀ a ∈ as, visit a = (do walk a; pure a)) :
    as.mapM visit = (do forM as walk; pure as) := by
  induction as with
  | nil => simp
  | cons a as ih =>
    rw [List.forall_mem_cons] at h
    simp [h.1, ih h.2]

/-- What follows the walk does not look at the values, only at how many there are. -/
private theorem bind_mapM_acting {visit : α → m γ} {δ : Type} {k : List γ → m δ} {r : m δ}
    (h : ∀ a ∈ as, effect (visit a) = forM (parts a) act)
    (hk : ∀ bs, bs.length = as.length → k bs = r) :
    as.mapM visit >>= k = (do forM (as.flatMap parts) act; r) := by
  have walk : effect (as.mapM visit) = forM (as.flatMap parts) act := by
    clear hk
    induction as with
    | nil => simp [effect]
    | cons a as ih =>
      rw [List.forall_mem_cons] at h
      rw [List.flatMap_cons, List.forM_append, ← h.1, ← ih h.2]
      simp [effect]
  rw [bind_mapM_congr visit as (G := fun _ => r) hk, bind_effect _ fun _ => rfl, walk]

end Lists

section Observe

variable [LawfulMonad m]

/-- A declaration is entered before its parts, and every node is left after them. -/
theorem Node.observe_eq (o : Observer m) (n : Node Class) : n.observe o = (do
    if n.isDeclaration then o.enter n
    forM n.parts (observe o)
    o.leave n) := by
  cases n with
  | type t =>
    cases t <;> simp [observe, TypeExpr.observe, TypeExpr.observeAll_eq_forM, parts,
      TypeExpr.parts, isDeclaration]
  | module x => simp [observe, Module.observe, parts, isDeclaration]
  | constant c => simp [observe, Constant.observe, parts, isDeclaration]
  | function f => simp [observe, Function.observe, parts, isDeclaration]
  | signature s => simp [observe, Signature.observe, parts, isDeclaration]
  | parameter p => simp [observe, Parameter.observe, parts, isDeclaration]
  | classDecl c => simp [observe, Class.observe, parts, isDeclaration]
  | templateItem i => simp [observe, TemplateItem.observe, parts, isDeclaration]

theorem Node.observe_acting (act : Node Class → m Unit) (n : Node Class) :
    n.observe (.acting act) = forM n.postorder act := by
  induction n using Node.induct with
  | step n ih =>
    rw [observe_eq, postorder_eq, List.forM_append, forM_acting n.parts ih]
    simp [Observer.acting]

end Observe

section Rebuild

variable [LawfulMonad m] (o : Observer m)

theorem TypeExpr.rebuildM_following (t : TypeExpr) :
    t.rebuildM (Rebuilder.following o).type = (do t.observe o; pure t) := by
  have all {ts : List TypeExpr}
      (h : ∀ t ∈ ts, t.rebuildM (Rebuilder.following o).type = (do t.observe o; pure t)) :
      rebuildAllM (Rebuilder.following o).type ts = (do observeAll o ts; pure ts) := by
    rw [rebuildAllM_eq_mapM, observeAll_eq_forM]
    exact mapM_following ts h
  induction t with
  | named name => simp [rebuildM, observe, Rebuilder.following]
  | ref reference => simp [rebuildM, observe, Rebuilder.following]
  | container base element hb he =>
    rw [rebuildM, hb, he]
    simp [observe, Rebuilder.following]
  | generic base args hb ha =>
    rw [rebuildM, hb, all ha]
    simp [observe, Rebuilder.following]
  | union members hm =>
    rw [rebuildM, all hm]
    simp [observe, Rebuilder.following]
  | inter members hm =>
    rw [rebuildM, all hm]
    simp [observe, Rebuilder.following]

private theorem Constant.rebuildM_following (c : Constant) :
    c.rebuildM (.following o) = (do c.observe o; pure c) := by
  rw [rebuildM, TypeExpr.rebuildM_following]
  simp [Rebuilder.following, observe]

private theorem Parameter.rebuildM_following (p : Parameter) :
    p.rebuildM (.following o) = (do p.observe o; pure p) := by
  rw [rebuildM, TypeExpr.rebuildM_following]
  simp [Rebuilder.following, observe]

private theorem TemplateItem.rebuildM_following (i : TemplateItem) :
    i.rebuildM (.following o) = (do i.observe o; pure i) := by
  rw [rebuildM, TypeExpr.rebuildM_following]
  simp [Rebuilder.following, observe]

private theorem Signature.rebuildM_following (s : Signature) :
    s.rebuildM (.following o) = (do s.observe o; pure s) := by
  rw [rebuildM, mapM_following s.params fun p _ => p.rebuildM_following o,
    TypeExpr.rebuildM_following, mapM_following s.raises fun t _ => t.rebuildM_following o]
  simp [Rebuilder.following, observe]

private theorem Function.rebuildM_following (f : Function) :
    f.rebuildM (.following o) = (do f.observe o; pure f) := by
  rw [rebuildM, mapM_following f.signatures fun s _ => s.rebuildM_following o]
  simp [Rebuilder.following, observe]

private theorem Class.rebuildM_following (c : Class) :
    c.rebuildM (.following o) = (do c.observe o; pure c) := by
  rw [rebuildM, mapM_following c.template fun i _ => i.rebuildM_following o,
    mapM_following c.parents fun t _ => t.rebuildM_following o,
    mapM_following c.constants fun k _ => k.rebuildM_following o,
    mapM_following c.methods fun f _ => f.rebuildM_following o]
  simp [Rebuilder.following, observe]

private theorem Module.rebuildM_following (x : Module Class) :
    x.rebuildM (.following o) = (do x.observe o; pure x) := by
  rw [rebuildM, traverseM, mapM_following x.constants fun c _ => c.rebuildM_following o,
    mapM_following x.functions fun f _ => f.rebuildM_following o,
    mapM_following x.classes fun c _ => c.rebuildM_following o]
  simp [Rebuilder.following, observe]

theorem Node.rebuildM_following (n : Node Class) :
    n.rebuildM (.following o) = (do n.observe o; pure n) := by
  cases n with
  | module x => simp [rebuildM, x.rebuildM_following o, observe]
  | constant c => simp [rebuildM, c.rebuildM_following o, observe]
  | function f => simp [rebuildM, f.rebuildM_following o, observe]
  | signature s => simp [rebuildM, s.rebuildM_following o, observe]
  | parameter p => simp [rebuildM, p.rebuildM_following o, observe]
  | classDecl c => simp [rebuildM, c.rebuildM_following o, observe]
  | templateItem i => simp [rebuildM, i.rebuildM_following o, observe]
  | type t => simp [rebuildM, t.rebuildM_following o, observe]

theorem Node.rebuildM_acting (act : Node Class → m Unit) (n : Node Class) :
    n.rebuildM (.acting act) = (do forM n.postorder act; pure n) := by
  have same : Rebuilder.acting act = .following (.acting act) := rfl
  rw [same, rebuildM_following, observe_acting]

end Rebuild

section Evaluate

variable [LawfulMonad m] {act : Node Class → m Unit} {α : Type} {e : Evaluator m α}
  (h : e.Performs act)
include h

theorem TypeExpr.effect_evaluate (t : TypeExpr) :
    effect (t.evaluate e) = forM t.postorder act := by
  induction t with
  | named name => simp [evaluate, h.named]
  | ref reference => simp [evaluate, h.ref]
  | container base element hb he =>
    have rest (b : α) : (element.evaluate e >>= fun a =>
        effect (e.container (.container base element) b a)) =
        (do forM element.postorder act; act (.type (.container base element))) := by
      rw [bind_effect _ fun a => h.container base element b a, he]
    simp only [evaluate, effect_bind]
    rw [bind_effect _ rest, hb]
    simp
  | generic base args hb ha =>
    have rest (b : α) : (args.mapM (evaluate e) >>= fun as =>
        effect (e.generic (.generic base args) b as)) =
        (do forM (args.flatMap postorder) act; act (.type (.generic base args))) :=
      bind_mapM_acting args ha fun as => h.generic base args b as
    simp only [evaluate, evaluateAll_eq_mapM, effect_bind]
    rw [bind_effect _ rest, hb]
    simp
  | union members hm =>
    simp only [evaluate, evaluateAll_eq_mapM, effect_bind]
    rw [bind_mapM_acting members hm fun as => h.union members as]
    simp
  | inter members hm =>
    simp only [evaluate, evaluateAll_eq_mapM, effect_bind]
    rw [bind_mapM_acting members hm fun as => h.inter members as]
    simp

private theorem Constant.effect_evaluate (c : Constant) :
    effect (c.evaluate e) = forM c.postorder act := by
  rw [evaluate, effect_bind, bind_effect _ (h.constant c), TypeExpr.effect_evaluate h]
  simp [postorder]

private theorem Parameter.effect_evaluate (p : Parameter) :
    effect (p.evaluate e) = forM p.postorder act := by
  rw [evaluate, effect_bind, bind_effect _ (h.parameter p), TypeExpr.effect_evaluate h]
  simp [postorder]

private theorem TemplateItem.effect_evaluate (i : TemplateItem) :
    effect (i.evaluate e) = forM i.postorder act := by
  rw [evaluate, effect_bind, bind_effect _ (h.templateItem i), TypeExpr.effect_evaluate h]
  simp [postorder]

private theorem Signature.effect_evaluate (s : Signature) :
    effect (s.evaluate e) = forM s.postorder act := by
  have raises (ps : List α) (a : α) (hps : ps.length = s.params.length) :
      (s.raises.mapM (TypeExpr.evaluate e) >>= fun rs => effect (e.signature s ps a rs)) =
        (do forM (s.raises.flatMap TypeExpr.postorder) act; act (.signature s)) :=
    bind_mapM_acting s.raises (fun t _ => t.effect_evaluate h) fun rs => h.signature s ps a rs hps
  simp only [evaluate, effect_bind]
  rw [bind_mapM_acting s.params (fun p _ => p.effect_evaluate h) fun ps hps =>
    bind_effect _ fun a => raises ps a hps, TypeExpr.effect_evaluate h]
  simp [postorder]

private theorem Function.effect_evaluate (f : Function) :
    effect (f.evaluate e) = forM f.postorder act := by
  rw [evaluate, effect_bind,
    bind_mapM_acting f.signatures (fun s _ => s.effect_evaluate h) fun as => h.function f as]
  simp [postorder]

private theorem Class.effect_evaluate (c : Class) :
    effect (c.evaluate e) = forM c.postorder act := by
  simp only [evaluate, effect_bind]
  rw [bind_mapM_acting c.template (fun i _ => i.effect_evaluate h) fun is his =>
    bind_mapM_acting c.parents (fun t _ => t.effect_evaluate h) fun ps hps =>
    bind_mapM_acting c.constants (fun k _ => k.effect_evaluate h) fun ks hks =>
    bind_mapM_acting c.methods (fun f _ => f.effect_evaluate h) fun fs hfs =>
    h.classDecl c is ps ks fs his hps hks hfs]
  simp [postorder]

private theorem Module.effect_evaluate (x : Module Class) :
    effect (x.evaluate e) = forM x.postorder act := by
  simp only [evaluate, effect_bind]
  rw [bind_mapM_acting x.constants (fun c _ => c.effect_evaluate h) fun cs hcs =>
    bind_mapM_acting x.functions (fun f _ => f.effect_evaluate h) fun fs hfs =>
    bind_mapM_acting x.classes (fun c _ => c.effect_evaluate h) fun ks hks =>
    h.module x cs fs ks hcs hfs hks]
  simp [postorder]

theorem Node.effect_evaluate : ∀ n : Node Class, effect (n.evaluate e) = forM n.postorder act
  | .module x => x.effect_evaluate h
  | .constant c => c.effect_evaluate h
  | .function f => f.effect_evaluate h
  | .signature s => s.effect_evaluate h
  | .parameter p => p.effect_evaluate h
  | .classDecl c => c.effect_evaluate h
  | .templateItem i => i.effect_evaluate h
  | .type t => t.effect_evaluate h

end Evaluate

/-- The kinds that walks report: all but declarations that are no more than a name and a type. -/
def Kind.isReported : Kind → Bool
  | .constant => false
  | .parameter => false
  | .templateItem => false
  | _ => true

/-- The nodes that walks report, each when its parts are done. -/
def Node.completed (n : Node Class) : List (Node Class) := n.postorder.filter (·.kind.isReported)

/-- Calls the hook at the nodes that are reported and passes the others by. -/
def reporting (hook : Node Class → m Unit) (n : Node Class) : m Unit :=
  if n.kind.isReported then hook n else pure ()

theorem forM_reporting [LawfulMonad m] (hook : Node Class → m Unit) (ns : List (Node Class)) :
    forM ns (reporting hook) = forM (ns.filter (·.kind.isReported)) hook := by
  induction ns with
  | nil => rfl
  | cons n ns ih =>
    rw [List.forM_cons, ih, reporting, List.filter_cons]
    split
    · rw [List.forM_cons]
    · rw [pure_bind]

theorem Node.exists_paths_completed (n : Node Class) : ∃ paths : List Path, paths.Nodup ∧
    (∀ p, p ∈ paths ↔ ∃ x, n.at? p = some x ∧ x.kind.isReported = true) ∧
      paths.Pairwise Path.Before ∧ paths.map n.at? = n.completed.map some := by
  obtain ⟨paths, complete, ordered, same⟩ := n.exists_paths
  let reported (found : Option (Node Class)) : Bool := found.any (·.kind.isReported)
  have ordered := ordered.filter (reported ∘ n.at?)
  refine ⟨_, ordered.imp Path.Before.ne, fun p => ?_, ordered, ?_⟩
  · rw [List.mem_filter, complete]
    cases found : n.at? p <;> simp [reported, found]
  · rw [← List.filter_map, same, List.filter_map]
    rfl

section Failing

variable {σ : Type}

def logged (hook : Node Class → ExceptT Fault (StateM σ) Unit) (n : Node Class) :
    ExceptT Fault (StateM (List (Node Class) × σ)) Unit := do
  let (calls, s) ← get
  let outcome := (hook n).run.run s
  set (calls ++ [n], outcome.2)
  liftM outcome.1

variable {hook : Node Class → ExceptT Fault (StateM σ) Unit}

theorem run_logged (n : Node Class) (calls : List (Node Class)) (s : σ) :
    (logged hook n).run.run (calls, s) =
      (((hook n).run.run s).1, calls ++ [n], ((hook n).run.run s).2) := by
  rw [logged, exceptT_run_bind, exceptT_run_get]
  dsimp only
  rw [exceptT_run_bind, exceptT_run_set]
  exact exceptT_run_lift ..

theorem run_forM_logged {ns : List (Node Class)} {s s' : σ} (calls : List (Node Class))
    (h : (forM ns hook).run.run s = (.ok (), s')) :
    (forM ns (logged hook)).run.run (calls, s) = (.ok (), calls ++ ns, s') := by
  induction ns generalizing s calls with
  | nil =>
    cases h
    simp only [List.append_nil]
    rfl
  | cons n ns ih =>
    rw [List.forM_cons, exceptT_run_bind] at h
    rw [List.forM_cons, exceptT_run_bind, run_logged]
    rcases step : (hook n).run.run s with ⟨fault | value, t⟩
    · rw [step] at h
      cases h
    · rw [step] at h
      simpa using ih (calls ++ [n]) h

theorem run_forM_logged_error {before after : List (Node Class)} {x : Node Class} {s s' s'' : σ}
    {fault : Fault} (passed : (forM before hook).run.run s = (.ok (), s'))
    (failed : (hook x).run.run s' = (.error fault, s'')) :
    (forM (before ++ x :: after) (logged hook)).run.run ([], s) =
      (.error fault, before ++ [x], s'') := by
  rw [List.forM_append, exceptT_run_bind, run_forM_logged [] passed]
  dsimp only
  rw [List.forM_cons, exceptT_run_bind, run_logged, failed]
  rfl

theorem run_of_effect_error {τ α : Type} {walk : ExceptT Fault (StateM τ) α} {t t' : τ}
    {fault : Fault} (h : (effect walk).run.run t = (.error fault, t')) :
    walk.run.run t = (.error fault, t') := by
  rw [effect, map_eq_pure_bind, exceptT_run_bind] at h
  rcases run : walk.run.run t with ⟨other | value, u⟩
  · rw [run] at h
    cases h
    rfl
  · rw [run] at h
    cases h

end Failing

/-- Whatever the hooks do, a tree is observed, rebuilt and evaluated in one order: every node that
is reported has its turn once, after all that is inside of it, and its parts in field order. A walk
that rebuilds gives the tree back. A hook that fails ends all three walks after the same calls. -/
theorem Node.traversals_agree (n : Node Class) :
    (∃ paths : List Path, paths.Nodup ∧
      (∀ p, p ∈ paths ↔ ∃ x, n.at? p = some x ∧ x.kind.isReported = true) ∧
      paths.Pairwise Path.Before ∧ paths.map n.at? = n.completed.map some) ∧
    (∀ (m : Type → Type) [Monad m] [LawfulMonad m] (hook : Node Class → m Unit),
      n.observe (.acting (reporting hook)) = forM n.completed hook ∧
      n.rebuildM (.acting (reporting hook)) = (do forM n.completed hook; pure n) ∧
      ∀ (α : Type) (e : Evaluator m α), e.Performs (reporting hook) →
        effect (n.evaluate e) = forM n.completed hook) ∧
    (∀ (σ : Type) (hook : Node Class → ExceptT Fault (StateM σ) Unit)
      (before after : List (Node Class)) (x : Node Class) (s s' s'' : σ) (fault : Fault),
      n.completed = before ++ x :: after →
      (forM before hook).run.run s = (.ok (), s') →
      (hook x).run.run s' = (.error fault, s'') →
      (n.observe (.acting (reporting (logged hook)))).run.run ([], s) =
        (.error fault, before ++ [x], s'') ∧
      (n.rebuildM (.acting (reporting (logged hook)))).run.run ([], s) =
        (.error fault, before ++ [x], s'') ∧
      ∀ (α : Type) (e : Evaluator _ α), e.Performs (reporting (logged hook)) →
        (n.evaluate e).run.run ([], s) = (.error fault, before ++ [x], s'')) := by
  have agree {m : Type → Type} [Monad m] [LawfulMonad m] (hook : Node Class → m Unit) :
      n.observe (.acting (reporting hook)) = forM n.completed hook ∧
      n.rebuildM (.acting (reporting hook)) = (do forM n.completed hook; pure n) ∧
      ∀ (α : Type) (e : Evaluator m α), e.Performs (reporting hook) →
        effect (n.evaluate e) = forM n.completed hook := by
    have completed := forM_reporting hook n.postorder
    refine ⟨?_, ?_, fun α e h => ?_⟩
    · rw [n.observe_acting, completed, Node.completed]
    · rw [n.rebuildM_acting, completed, Node.completed]
    · rw [n.effect_evaluate h, completed, Node.completed]
  refine ⟨n.exists_paths_completed, fun m _ _ hook => agree hook, ?_⟩
  intro σ hook before after x s s' s'' fault split passed failed
  have stops : (forM (before ++ x :: after) (logged hook)).run.run ([], s) =
      (.error fault, before ++ [x], s'') := run_forM_logged_error passed failed
  rw [← split] at stops
  obtain ⟨observed, rebuilt, evaluated⟩ := agree (logged hook)
  refine ⟨by rw [observed, stops], ?_, fun α e h => run_of_effect_error ?_⟩
  · rw [rebuilt, exceptT_run_bind, stops]
  · rw [evaluated α e h, stops]

private def boxClass : Class where
  name := "Box"
  template := [{ name := "T" }]
  methods := [⟨"get", [{ returns := .container (.named "list") (.named "T") }]⟩]

/-- Three calls pass, at the bound of `T` and inside of the result type, and the fourth fails. -/
theorem Node.traversals_agree_boxed :
    let hook (_ : Node Class) : ExceptT Fault (StateM Nat) Unit := do
      let calls ← modifyGet fun calls => (calls, calls + 1)
      if calls = 3 then throw (UnknownClass.toFault ⟨"list<T>"⟩)
    let calls : List (Node Class) := [.type .universal, .type (.named "list"), .type (.named "T"),
      .type (.container (.named "list") (.named "T"))]
    let stopped : List (Node Class) × Nat := (calls, 4)
    let n : Node Class := .classDecl boxClass
    (n.observe (.acting (reporting (logged hook)))).run.run ([], 0) =
      (.error (UnknownClass.toFault ⟨"list<T>"⟩), stopped) ∧
    (n.rebuildM (.acting (reporting (logged hook)))).run.run ([], 0) =
      (.error (UnknownClass.toFault ⟨"list<T>"⟩), stopped) ∧
    (n.evaluate (.acting (reporting (logged hook)))).run.run ([], 0) =
      (.error (UnknownClass.toFault ⟨"list<T>"⟩), stopped) := by
  intro hook calls stopped n
  obtain ⟨observed, rebuilt, evaluated⟩ := n.traversals_agree.2.2 Nat hook
    [.type .universal, .type (.named "list"), .type (.named "T")] _ _ 0 3 4
    (UnknownClass.toFault ⟨"list<T>"⟩) rfl rfl rfl
  exact ⟨observed, rebuilt, evaluated Unit _ (Evaluator.performs_acting _)⟩

end InterfaceTree
