import InterfaceTree.Resolution
import InterfaceTree.Proofs.Refill
import InterfaceTree.Proofs.Run

/-! # What linking does -/
namespace InterfaceTree

namespace Linking

variable (find : String → Option ClassId)

def filled (t : TypeExpr) : TypeExpr :=
  match t with
  | .ref ⟨name, none⟩ => .ref ⟨name, find name⟩
  | t => t

/-- The name of an empty cell that cannot be filled. -/
def lacking? (t : TypeExpr) : Option String :=
  match t with
  | .ref ⟨name, none⟩ => if (find name).isNone then some name else none
  | _ => none

/-- A walk that links the given leaves and makes `done` when it is not stopped. -/
structure Links {α : Type} (walk : StateM Linking α) (leaves : List TypeExpr) (done : α) :
    Prop where
  missing : ∀ l, (walk.run l).2.missing = l.missing.or (leaves.findSome? (lacking? find))
  store : ∀ l, (walk.run l).2.store = l.store
  value : ∀ l, (walk.run l).2.missing = none → (walk.run l).1 = done

namespace Links

variable {find} {α β γ : Type} {leaves more : List TypeExpr}

theorem pure (a : α) : Links find (Pure.pure a) [] a where
  missing l := by rw [stateM_run_pure, List.findSome?_nil, Option.or_none]
  store l := rfl
  value l _ := rfl

theorem map {walk : StateM Linking α} {done : α} (h : Links find walk leaves done) (f : α → β) :
    Links find (f <$> walk) leaves (f done) where
  missing := h.missing
  store := h.store
  value l hl := congrArg f (h.value l hl)

theorem map₂ {walk : StateM Linking α} {next : StateM Linking β} {a : α} {b : β}
    (hw : Links find walk leaves a) (hn : Links find next more b) (f : α → β → γ) :
    Links find (do let a ← walk; let b ← next; Pure.pure (f a b)) (leaves ++ more) (f a b) where
  missing l := by
    simp only [stateM_run_bind, stateM_run_pure, hn.missing, hw.missing, Option.or_assoc,
      List.findSome?_append]
  store l := by simp only [stateM_run_bind, stateM_run_pure, hn.store, hw.store]
  value l hl := by
    simp only [stateM_run_bind, stateM_run_pure] at hl ⊢
    have first : (walk.run l).2.missing = none := by
      rw [hn.missing, Option.or_eq_none_iff] at hl
      exact hl.1
    rw [hw.value l first, hn.value _ hl]

theorem mapM {walk : α → StateM Linking β} {parts : α → List TypeExpr} {done : α → β}
    (h : ∀ a, Links find (walk a) (parts a) (done a)) (as : List α) :
    Links find (as.mapM walk) (as.flatMap parts) (as.map done) := by
  induction as with
  | nil => simpa using pure []
  | cons a as ih => simpa using map₂ (h a) ih List.cons

end Links

theorem run_fill (reference : Reference) (l : Linking) :
    (fill find reference).run l =
      if reference.target.isSome || l.missing.isSome then (reference, l)
      else match find reference.name with
        | some id => ({ reference with target := some id }, { l with written := l.written + 1 })
        | none => (reference, { l with missing := some reference.name }) := by
  rw [fill, stateM_run_bind, stateM_run_get]
  split
  · rfl
  · cases find reference.name <;> rfl

theorem links_onLeaf (t : TypeExpr) : Links find (onLeaf find t) [t] (filled find t) := by
  have keep (h : ∀ l, (onLeaf find t).run l = (t, l)) (hl : lacking? find t = none)
      (hf : filled find t = t) : Links find (onLeaf find t) [t] (filled find t) :=
    ⟨fun l => by simp only [h, List.findSome?_singleton, hl, Option.or_none],
      fun l => by rw [h], fun l _ => by rw [h, hf]⟩
  rcases t with name | ⟨name, _ | id⟩ | _ | _ | _ | _
  case ref.none =>
    constructor <;> rintro ⟨store, written, _ | stopped⟩ <;>
      rw [onLeaf, stateM_run_map, run_fill] <;> cases hf : find name <;> simp [lacking?, filled, hf]
  case ref.some =>
    apply keep _ rfl rfl
    intro l
    rw [onLeaf, stateM_run_map, run_fill]
    rfl
  all_goals exact keep (fun _ => rfl) rfl rfl

theorem onLeaf_of_not_isLeaf (t : TypeExpr) (h : t.isLeaf = false) :
    onLeaf find t = pure t := by
  cases t <;> first | rfl | simp [TypeExpr.isLeaf, TypeExpr.name?] at h

theorem links_types (ts : List TypeExpr) :
    Links find (ts.mapM (TypeExpr.rebuildM (onLeaf find))) (ts.flatMap TypeExpr.leaves)
      (ts.map (TypeExpr.mapLeaves (filled find))) := by
  apply Links.mapM
  intro t
  rw [TypeExpr.rebuildM_eq_refillLeaves (onLeaf_of_not_isLeaf find), ← TypeExpr.refillLeaves_map]
  have h := Links.mapM (links_onLeaf find) t.leaves
  rw [List.flatMap_singleton'] at h
  exact h.map _

theorem links_constant (c : Constant) :
    Links find (c.rebuildM (rebuilder find)) c.leaves (c.mapLeaves (filled find)) := by
  rw [rebuilder, Constant.rebuildM_eq_refill, Constant.mapLeaves, ← Constant.refill_map]
  exact (links_types find c.types).map _

theorem links_function (f : Function) :
    Links find (f.rebuildM (rebuilder find)) f.leaves (f.mapLeaves (filled find)) := by
  rw [rebuilder, Function.rebuildM_eq_refill, Function.mapLeaves, ← Function.refill_map]
  exact (links_types find f.types).map _

theorem links_class (c : Class) :
    Links find (c.rebuildM (rebuilder find)) c.leaves (c.mapLeaves (filled find)) := by
  rw [rebuilder, Class.rebuildM_eq_refill, Class.mapLeaves, ← Class.refill_map]
  exact (links_types find c.types).map _

theorem filled_isLeaf (t : TypeExpr) (h : t.isLeaf = true) : (filled find t).isLeaf = true := by
  rcases t with name | ⟨name, _ | id⟩ | _ | _ | _ | _ <;> first | rfl | exact h

private theorem lacking?_filled (t : TypeExpr) :
    lacking? find (filled find t) = lacking? find t := by
  rcases t with name | ⟨name, _ | id⟩ | _ | _ | _ | _
  case ref.none => cases hf : find name <;> simp [filled, lacking?, hf]
  all_goals rfl

private theorem filled_filled (t : TypeExpr) (h : t.isLeaf = true) :
    (filled find t).mapLeaves (filled find) = filled find t := by
  rcases t with name | ⟨name, _ | id⟩ | _ | _ | _ | _
  case ref.none => cases hf : find name <;> simp [filled, hf]
  all_goals first | rfl | simp [TypeExpr.isLeaf, TypeExpr.name?] at h

private theorem mapLeaves_filled_twice (c : Class) :
    (c.mapLeaves (filled find)).mapLeaves (filled find) = c.mapLeaves (filled find) := by
  rw [Class.mapLeaves_mapLeaves]
  exact Class.mapLeaves_congr fun u hu => filled_filled find u (Class.isLeaf_of_mem_leaves hu)

private theorem lacking?_mapLeaves_filled (c : Class) :
    (c.mapLeaves (filled find)).leaves.findSome? (lacking? find) =
      c.leaves.findSome? (lacking? find) := by
  rw [Class.leaves_mapLeaves _ (filled_isLeaf find), List.findSome?_map]
  congr 1
  funext t
  exact lacking?_filled find t

section Object

variable (id : ClassId) (l : Linking)

theorem run_onObject : (onObject find id).run l =
    let r := ((l.store.read id).rebuildM (rebuilder find)).run l
    (id, { r.2 with store := r.2.store.write id r.1 }) := rfl

theorem missing_onObject : ((onObject find id).run l).2.missing =
    l.missing.or ((l.store.read id).leaves.findSome? (lacking? find)) :=
  (links_class find (l.store.read id)).missing l

theorem store_onObject : ((onObject find id).run l).2.store =
    l.store.write id (((l.store.read id).rebuildM (rebuilder find)).run l).1 := by
  rw [run_onObject]
  dsimp only
  rw [(links_class find (l.store.read id)).store]

theorem read_onObject (h : ((onObject find id).run l).2.missing = none) (other : ClassId) :
    ((onObject find id).run l).2.store.read other =
      if other = id then (l.store.read id).mapLeaves (filled find) else l.store.read other := by
  rw [store_onObject, (links_class find (l.store.read id)).value l h]
  split
  · next same =>
    subst same
    by_cases inside : other < l.store.size
    · exact Store.read_write_self _ inside
    · -- there is no such object, and what is read in its place has no leaves
      have outside : l.store.size ≤ other := Nat.le_of_not_lt inside
      rw [Store.read_of_size_le outside, Store.read_of_size_le (by rwa [Store.size_write])]
      rfl
  · next differ => exact Store.read_write_of_ne _ (Ne.symm differ)

end Object

section Objects

variable (ids : List ClassId) (l : Linking)

/-- Only the listed objects are written, however linking ends. -/
theorem frame_onObjects :
    let r := (ids.mapM (onObject find)).run l
    r.1 = ids ∧ r.2.store.size = l.store.size ∧
      ∀ id, id ∉ ids → r.2.store.read id = l.store.read id := by
  induction ids generalizing l with
  | nil => exact ⟨rfl, rfl, fun _ _ => rfl⟩
  | cons id ids ih =>
    obtain ⟨hids, hsize, hread⟩ := ih ((onObject find id).run l).2
    simp only [List.mapM_cons, stateM_run_bind, stateM_run_pure]
    refine ⟨by rw [hids, run_onObject], by rw [hsize, store_onObject, Store.size_write], ?_⟩
    intro other hother
    rw [List.mem_cons, not_or] at hother
    rw [hread other hother.2, store_onObject, Store.read_write_of_ne _ (Ne.symm hother.1)]

/-- An object that comes again has been linked, and lacks no more and no less than before. -/
private theorem lacking?_objects {s after : Store} {id : ClassId}
    (h : ∀ i, after.read i = if i = id then (s.read id).mapLeaves (filled find) else s.read i) :
    (ids.flatMap fun i => (after.read i).leaves).findSome? (lacking? find) =
      (ids.flatMap fun i => (s.read i).leaves).findSome? (lacking? find) := by
  induction ids with
  | nil => rfl
  | cons i ids ih =>
    rw [List.flatMap_cons, List.flatMap_cons, List.findSome?_append, List.findSome?_append, ih, h]
    split
    · next same => rw [lacking?_mapLeaves_filled, same]
    · rfl

theorem missing_onObjects : ((ids.mapM (onObject find)).run l).2.missing =
    l.missing.or ((ids.flatMap fun id => (l.store.read id).leaves).findSome? (lacking? find)) := by
  induction ids generalizing l with
  | nil =>
    simp only [List.mapM_nil, stateM_run_pure, List.flatMap_nil, List.findSome?_nil, Option.or_none]
  | cons id ids ih =>
    have step := read_onObject find id l
    simp only [List.mapM_cons, stateM_run_bind, stateM_run_pure, List.flatMap_cons,
      List.findSome?_append]
    rw [← Option.or_assoc, ← missing_onObject]
    generalize ((onObject find id).run l).2 = after at step ⊢
    rw [ih]
    cases h : after.missing with
    | some name => rfl
    | none => rw [lacking?_objects find ids (step h)]

theorem read_onObjects (h : ((ids.mapM (onObject find)).run l).2.missing = none) (id : ClassId) :
    ((ids.mapM (onObject find)).run l).2.store.read id =
      if id ∈ ids then (l.store.read id).mapLeaves (filled find) else l.store.read id := by
  induction ids generalizing l with
  | nil => rfl
  | cons i ids ih =>
    have step := read_onObject find i l
    simp only [List.mapM_cons, stateM_run_bind, stateM_run_pure] at h ⊢
    generalize ((onObject find i).run l).2 = after at h step ⊢
    have first : after.missing = none := by
      rw [missing_onObjects, Option.or_eq_none_iff] at h
      exact h.1
    rw [ih after h, step first]
    by_cases same : id = i <;> by_cases again : id ∈ ids <;>
      simp [same, again, mapLeaves_filled_twice]

end Objects

def onOwn (x : Module ClassId) : StateM Linking (List Constant × List Function) := do
  let constants ← x.constants.mapM (Constant.rebuildM (rebuilder find))
  let functions ← x.functions.mapM (Function.rebuildM (rebuilder find))
  pure (constants, functions)

private theorem links_onOwn (x : Module ClassId) :
    Links find (onOwn find x)
      (x.constants.flatMap Constant.leaves ++ x.functions.flatMap Function.leaves)
      (x.constants.map (Constant.mapLeaves (filled find)),
        x.functions.map (Function.mapLeaves (filled find))) :=
  .map₂ (.mapM (links_constant find) x.constants) (.mapM (links_function find) x.functions) Prod.mk

theorem run_onModule (x : Module ClassId) (l : Linking) :
    (onModule find x).run l =
      let own := (onOwn find x).run l
      let objects := (x.classes.mapM (onObject find)).run own.2
      (⟨own.1.1, own.1.2, objects.1⟩, objects.2) := rfl

end Linking

section Link

open Linking

variable (find : String → Option ClassId) (s : Store) (x : Module ClassId)

theorem Store.missing_link :
    (s.link find x).2.missing = (s.load x).leaves.findSome? (lacking? find) := by
  have own := links_onOwn find x
  rw [link, run_onModule]
  simp only [missing_onObjects, own.missing, own.store, Module.leaves_eq, load, Module.mapClasses,
    List.findSome?_append, List.flatMap_map, Option.none_or]

theorem Store.frame_link :
    (s.link find x).1.classes = x.classes ∧ (s.link find x).2.store.size = s.size ∧
      ∀ id, id ∉ x.classes → (s.link find x).2.store.read id = s.read id := by
  have own := (links_onOwn find x).store { store := s }
  rw [link, run_onModule]
  generalize (onOwn find x).run { store := s } = r at own ⊢
  have objects := frame_onObjects find x.classes r.2
  rw [own] at objects
  exact objects

theorem Store.read_link (h : (s.link find x).2.missing = none) (id : ClassId) :
    (s.link find x).2.store.read id =
      if id ∈ x.classes then (s.read id).mapLeaves (filled find) else s.read id := by
  have own := (links_onOwn find x).store { store := s }
  rw [link, run_onModule] at h ⊢
  generalize (onOwn find x).run { store := s } = r at h own ⊢
  have objects := read_onObjects find x.classes r.2 h id
  rw [own] at objects
  exact objects

theorem Store.load_link (h : (s.link find x).2.missing = none) :
    (s.link find x).2.store.load (s.link find x).1 = (s.load x).mapLeaves (filled find) := by
  have own := (links_onOwn find x).value { store := s }
  have same := (s.frame_link find x).1
  have classes : x.classes.map (s.link find x).2.store.read =
      (x.classes.map s.read).map (Class.mapLeaves (filled find)) := by
    rw [List.map_map]
    apply List.map_congr_left
    intro id hid
    rw [Store.read_link find s x h, if_pos hid]
    rfl
  rw [load, Module.mapClasses, same, classes]
  rw [link, run_onModule] at h ⊢
  have first : ((onOwn find x).run { store := s }).2.missing = none := by
    rw [missing_onObjects, Option.or_eq_none_iff] at h
    exact h.1
  dsimp only
  rw [own first]
  rfl

end Link

section Own

variable (s : Store) (x : Module ClassId)

/-- The first class of that name in the class list of a module. -/
def Store.firstNamed (name : String) : Option ClassId :=
  x.classes.find? fun id => (s.read id).name == name

theorem Store.find?_indexOf (name : String) :
    ClassTable.find? (s.indexOf x) name = findObject? (s.objectsOf x) name :=
  ClassIndex.find?_ofList (s.objectsOf x) name

variable {s x} in
theorem Store.decl_mem_of_find? {name : String} {o : ClassObject}
    (h : ClassTable.find? (s.indexOf x) name = some o) : o.decl ∈ (s.load x).classes := by
  rw [find?_indexOf] at h
  obtain ⟨id, hid, rfl⟩ := List.mem_map.1 (List.mem_of_find?_eq_some h)
  exact List.mem_map.2 ⟨id, hid, rfl⟩

theorem Store.id?_indexOf : ClassTable.id? (s.indexOf x) = s.firstNamed x := by
  funext name
  rw [ClassTable.id?, find?_indexOf, findObject?, objectsOf, List.find?_map, Option.map_map]
  exact Option.map_id'

variable {s x} in
theorem Store.firstNamed_eq_some {name : String} {id : ClassId}
    (h : s.firstNamed x name = some id) : id ∈ x.classes ∧ (s.read id).name = name :=
  ⟨List.mem_of_find?_eq_some h, by simpa using List.find?_some h⟩

theorem Store.firstNamed_eq_none_iff (name : String) :
    s.firstNamed x name = none ↔ ∀ c ∈ (s.load x).classes, c.name ≠ name := by
  simp [firstNamed, load, Module.mapClasses]

theorem Store.firstNamed_link (find : String → Option ClassId)
    (h : (s.link find x).2.missing = none) :
    (s.link find x).2.store.firstNamed (s.link find x).1 = s.firstNamed x := by
  funext name
  rw [firstNamed, (s.frame_link find x).1, firstNamed]
  congr 1
  funext id
  rw [Store.read_link find s x h]
  split <;> rfl

theorem run_linkAll : (linkAll x).run.run s =
    ((match (s.linkOwn x).2.missing with
      | some name => .error (.unresolvedName name)
      | none => .ok (s.linkOwn x).1), (s.linkOwn x).2.store) := by
  rw [linkAll, exceptT_run_bind, exceptT_run_get]
  dsimp only
  rw [exceptT_run_bind, exceptT_run_set]
  dsimp only
  rw [exceptT_run_bind, exceptT_run_lift, Linking.outcome]
  cases (s.linkOwn x).2.missing <;> rfl

end Own

section Complete

/-- What linking makes of a module when every empty cell is filled with a class of the module. -/
structure Store.LinksTo (s : Store) (x : Module ClassId) (s' : Store) (y : Module ClassId) :
    Prop where
  classes : y.classes = x.classes
  size : s'.size = s.size
  name : ∀ id, (s'.read id).name = (s.read id).name
  firstNamed : s'.firstNamed y = s.firstNamed x
  complete : ∀ u ∈ (s.load x).leaves, Linking.lacking? (s.firstNamed x) u = none
  load : s'.load y = (s.load x).mapLeaves (Linking.filled (s.firstNamed x))

theorem linksTo_of_linkAll {s s' : Store} {x y : Module ClassId}
    (h : (linkAll x).run.run s = (.ok y, s')) : s.LinksTo x s' y := by
  rw [run_linkAll, Store.linkOwn, Store.id?_indexOf] at h
  cases missing : (s.link (s.firstNamed x) x).2.missing with
  | some name =>
    rw [missing] at h
    cases h
  | none =>
    rw [missing] at h
    cases h
    obtain ⟨classes, size, -⟩ := s.frame_link (s.firstNamed x) x
    refine ⟨classes, size, ?_, s.firstNamed_link x _ missing, ?_, s.load_link _ x missing⟩
    · intro id
      rw [Store.read_link _ s x missing]
      split <;> rfl
    · rw [Store.missing_link, List.findSome?_eq_none_iff] at missing
      exact missing

theorem ok_of_linkAll {s : Store} {x : Module ClassId}
    (complete : ∀ u ∈ (s.load x).leaves, Linking.lacking? (s.firstNamed x) u = none) :
    ∃ y s', (linkAll x).run.run s = (.ok y, s') := by
  have missing : (s.linkOwn x).2.missing = none := by
    rw [Store.linkOwn, Store.id?_indexOf, Store.missing_link]
    exact List.findSome?_eq_none_iff.2 complete
  rw [run_linkAll, missing]
  exact ⟨_, _, rfl⟩

theorem Store.LinksTo.read {s s' : Store} {x y : Module ClassId} (h : s.LinksTo x s' y)
    {id : ClassId} (hid : id ∈ y.classes) :
    s'.read id = (s.read id).mapLeaves (Linking.filled (s.firstNamed x)) := by
  have classes := congrArg Module.classes h.load
  simp only [Store.load, Module.mapClasses, Module.mapLeaves_eq, List.map_map,
    ← h.classes] at classes
  exact List.map_inj_left.1 classes id hid

end Complete
end InterfaceTree
