import Mathlib.Data.Finset.Card
import Mathlib.Data.List.TakeWhile
import InterfaceTree.Workspace
import InterfaceTree.Proofs.Linking
import InterfaceTree.Proofs.Outline
import InterfaceTree.Proofs.Refilled

/-!
# Linking cell by cell

Linking is a tour over the places where a module has leaves. A class that is listed twice is visited
twice.
-/
namespace InterfaceTree

/-- The name that an empty cell waits for. -/
def TypeExpr.vacant? : TypeExpr → Option String
  | .ref ⟨name, none⟩ => some name
  | _ => none

theorem TypeExpr.vacant?_eq_some_iff {u : TypeExpr} {name : String} :
    u.vacant? = some name ↔ u = .unlinked name := by
  rcases u with _ | ⟨own, _ | id⟩ | _ | _ | _ | _ <;> simp [vacant?]

/-- A place for a leaf, among the declarations that a module owns itself or in a class object. -/
inductive Spot
  | own (index : Nat)
  | object (id : ClassId) (index : Nat)
  deriving DecidableEq, Repr

def Module.ownLeaves (x : Module ClassId) : List TypeExpr :=
  x.constants.flatMap Constant.leaves ++ x.functions.flatMap Function.leaves

namespace Store

def leafAt? (s : Store) (x : Module ClassId) : Spot → Option TypeExpr
  | .own index => x.ownLeaves[index]?
  | .object id index => (s.read id).leaves[index]?

def objectSpots (s : Store) (id : ClassId) : List Spot :=
  (List.range (s.read id).leaves.length).map (.object id)

/-- The places of a module in the order in which linking comes to them. -/
def spots (s : Store) (x : Module ClassId) : List Spot :=
  (List.range x.ownLeaves.length).map .own ++ x.classes.flatMap s.objectSpots

end Store

namespace Linking

section Account

variable (find : String → Option ClassId) (leaf : Spot → Option TypeExpr)

def lackingAt (p : Spot) : Option String := (leaf p).bind (lacking? find)

def vacantAt (p : Spot) : Bool := ((leaf p).bind TypeExpr.vacant?).isSome

/-- The places before the first one with a cell that cannot be filled. -/
def reached (ps : List Spot) : List Spot := ps.takeWhile fun p => (lackingAt find leaf p).isNone

/-- The empty cells among the places that are reached, each counted once. -/
def fillable (ps : List Spot) : Finset Spot :=
  ((reached find leaf ps).filter (vacantAt leaf)).toFinset

variable {find leaf}

theorem mem_fillable_iff {ps : List Spot} {p : Spot} : p ∈ fillable find leaf ps ↔
    p ∈ reached find leaf ps ∧ ∃ name, leaf p = some (.unlinked name) := by
  rw [fillable, List.mem_toFinset, List.mem_filter, vacantAt, Option.isSome_iff_exists]
  simp only [Option.bind_eq_some_iff, TypeExpr.vacant?_eq_some_iff, exists_eq_right]

theorem lackingAt_eq_some_iff {p : Spot} {name : String} : lackingAt find leaf p = some name ↔
    leaf p = some (.unlinked name) ∧ find name = none := by
  rw [lackingAt, Option.bind_eq_some_iff]
  constructor
  · rintro ⟨u, here, lacking⟩
    rcases u with _ | ⟨own, _ | id⟩ | _ | _ | _ | _
    case ref.none =>
      cases found : find own <;> rw [lacking?, found] at lacking <;> cases lacking
      exact ⟨here, found⟩
    all_goals cases lacking
  · rintro ⟨here, none⟩
    exact ⟨_, here, by simp [lacking?, none]⟩

theorem find_of_mem_fillable {ps : List Spot} {p : Spot} (h : p ∈ fillable find leaf ps) :
    ∃ name id, leaf p = some (.unlinked name) ∧ find name = some id := by
  obtain ⟨inside, name, vacant⟩ := mem_fillable_iff.1 h
  have filled := List.mem_takeWhile_imp inside
  rw [lackingAt, vacant] at filled
  cases found : find name with
  | none => simp [lacking?, found] at filled
  | some id => exact ⟨name, id, vacant, found⟩

variable {p : Spot} {ps : List Spot}

theorem fillable_cons_of_not_vacant (lacking : lackingAt find leaf p = none)
    (vacant : vacantAt leaf p = false) : fillable find leaf (p :: ps) = fillable find leaf ps := by
  rw [fillable, reached, List.takeWhile_cons_of_pos (by rw [lacking]; rfl),
    List.filter_cons_of_neg (by rw [vacant]; exact Bool.false_ne_true)]
  rfl

theorem fillable_cons_of_vacant (lacking : lackingAt find leaf p = none)
    (vacant : vacantAt leaf p = true) :
    fillable find leaf (p :: ps) = insert p (fillable find leaf ps) := by
  rw [fillable, reached, List.takeWhile_cons_of_pos (by rw [lacking]; rfl),
    List.filter_cons_of_pos vacant, List.toFinset_cons]
  rfl

end Account

end Linking

/-- How far linking has come: what is at each place, how many cells have been filled, and the name
that it stopped at. -/
@[ext] structure Tour where
  leaf : Spot → Option TypeExpr
  written : Nat := 0
  missing : Option String := none

namespace Tour

open Linking

variable (find : String → Option ClassId)

/-- Fills the cell at a place if it is empty, or ends the tour. -/
def visit (c : Tour) (p : Spot) : Tour :=
  match (c.leaf p).bind TypeExpr.vacant?, c.missing with
  | some name, none =>
    match find name with
    | some id =>
      { c with
        leaf := Function.update c.leaf p (some (.linked name id))
        written := c.written + 1 }
    | none => { c with missing := some name }
  | _, _ => c

def visitAll (c : Tour) (ps : List Spot) : Tour := ps.foldl (visit find) c

variable {find} {c : Tour} {p : Spot} {name : String}

theorem visitAll_append (ps qs : List Spot) :
    c.visitAll find (ps ++ qs) = (c.visitAll find ps).visitAll find qs :=
  List.foldl_append

theorem visit_of_stopped (stopped : c.missing ≠ none) : c.visit find p = c := by
  obtain ⟨name, missing⟩ := Option.ne_none_iff_exists'.1 stopped
  rw [visit, missing]
  cases (c.leaf p).bind TypeExpr.vacant? <;> rfl

theorem visit_of_not_vacant (vacant : (c.leaf p).bind TypeExpr.vacant? = none) :
    c.visit find p = c := by
  rw [visit, vacant]

theorem visit_of_found {id : ClassId} (start : c.missing = none)
    (vacant : c.leaf p = some (.unlinked name)) (found : find name = some id) :
    c.visit find p = { c with
      leaf := Function.update c.leaf p (some (.linked name id))
      written := c.written + 1 } := by
  simp only [visit, start, vacant, Option.bind_some, TypeExpr.vacant?, found]

theorem visit_of_lacking (start : c.missing = none) (vacant : c.leaf p = some (.unlinked name))
    (lacking : find name = none) : c.visit find p = { c with missing := some name } := by
  simp only [visit, start, vacant, Option.bind_some, TypeExpr.vacant?, lacking]

theorem visitAll_of_stopped (stopped : c.missing ≠ none) (ps : List Spot) :
    c.visitAll find ps = c := by
  induction ps with
  | nil => rfl
  | cons p ps ih => rwa [visitAll, List.foldl_cons, visit_of_stopped stopped]

private theorem lackingAt_update {leaf : Spot → Option TypeExpr} {id : ClassId}
    (vacant : leaf p = some (.unlinked name)) (found : find name = some id) :
    lackingAt find (Function.update leaf p (some (.linked name id))) = lackingAt find leaf := by
  funext q
  by_cases same : q = p
  · subst same
    simp [lackingAt, vacant, lacking?, found]
  · rw [lackingAt, Function.update_of_ne same, lackingAt]

private theorem fillable_update {leaf : Spot → Option TypeExpr} {id : ClassId}
    (vacant : leaf p = some (.unlinked name)) (found : find name = some id) (ps : List Spot) :
    fillable find (Function.update leaf p (some (.linked name id))) ps =
      (fillable find leaf ps).erase p := by
  ext q
  rw [Finset.mem_erase, mem_fillable_iff, mem_fillable_iff, reached, lackingAt_update vacant found]
  by_cases same : q = p
  · subst same
    simp
  · rw [Function.update_of_ne same]
    exact (and_iff_right same).symm

variable (find c) in
/-- After a tour over the places the empty cells before the first one that cannot be filled are
filled, and that one is reported. -/
structure Fills (ps : List Spot) (c' : Tour) : Prop where
  missing : c'.missing = ps.findSome? (lackingAt find c.leaf)
  written : c'.written = c.written + (fillable find c.leaf ps).card
  leaf : ∀ q, c'.leaf q =
    if q ∈ fillable find c.leaf ps then (c.leaf q).map (filled find) else c.leaf q

namespace Fills

variable {ps : List Spot} {c' : Tour}

theorem nil (start : c.missing = none) : c.Fills find [] c := ⟨start, rfl, fun _ => rfl⟩

theorem cons_of_not_vacant (vacant : (c.leaf p).bind TypeExpr.vacant? = none)
    (rest : c.Fills find ps c') : c.Fills find (p :: ps) c' := by
  have lacking : lackingAt find c.leaf p = none := by
    rw [Option.eq_none_iff_forall_ne_some]
    intro name lacks
    rw [(lackingAt_eq_some_iff.1 lacks).1] at vacant
    cases vacant
  have same : fillable find c.leaf (p :: ps) = fillable find c.leaf ps :=
    fillable_cons_of_not_vacant lacking (by rw [vacantAt, vacant]; rfl)
  refine ⟨?_, ?_, ?_⟩
  · rw [rest.missing, List.findSome?_cons, lacking]
  · rw [rest.written, same]
  · rw [same]
    exact rest.leaf

theorem cons_of_found {id : ClassId} (empty : c.leaf p = some (.unlinked name))
    (found : find name = some id)
    (rest : Fills find { c with
      leaf := Function.update c.leaf p (some (.linked name id))
      written := c.written + 1 } ps c') : c.Fills find (p :: ps) c' := by
  have lacking : lackingAt find c.leaf p = none := by
    simp [lackingAt, empty, lacking?, found]
  have more : fillable find c.leaf (p :: ps) = insert p (fillable find c.leaf ps) :=
    fillable_cons_of_vacant lacking (by rw [vacantAt, empty]; rfl)
  refine ⟨?_, ?_, fun q => (rest.leaf q).trans ?_⟩
  · rw [rest.missing, lackingAt_update empty found, List.findSome?_cons, lacking]
  · rw [rest.written, fillable_update empty found, ← Finset.erase_insert_eq_erase, more,
      ← Finset.card_erase_add_one (Finset.mem_insert_self p (fillable find c.leaf ps))]
    exact Nat.add_right_comm _ _ _
  · by_cases same : q = p
    · subst same
      simp [more, fillable_update empty found, empty, filled, found]
    · simp [more, fillable_update empty found, same]

theorem cons_of_lacking (empty : c.leaf p = some (.unlinked name)) (unknown : find name = none) :
    c.Fills find (p :: ps) { c with missing := some name } := by
  have lacking : lackingAt find c.leaf p = some name := lackingAt_eq_some_iff.2 ⟨empty, unknown⟩
  have nothing : fillable find c.leaf (p :: ps) = ∅ := by
    rw [fillable, reached, List.takeWhile_cons_of_neg (by simp [lacking])]
    rfl
  refine ⟨?_, ?_, ?_⟩
  · rw [List.findSome?_cons, lacking]
  · rw [nothing]
    rfl
  · rw [nothing]
    exact fun _ => rfl

end Fills

theorem fills_visitAll (start : c.missing = none) (ps : List Spot) :
    c.Fills find ps (c.visitAll find ps) := by
  induction ps generalizing c with
  | nil => exact .nil start
  | cons p ps ih =>
    rw [visitAll, List.foldl_cons, ← visitAll]
    cases vacant : (c.leaf p).bind TypeExpr.vacant? with
    | none =>
      rw [visit_of_not_vacant vacant]
      exact (ih start).cons_of_not_vacant vacant
    | some name =>
      have empty : c.leaf p = some (.unlinked name) := by
        obtain ⟨u, at_p, waits⟩ := Option.bind_eq_some_iff.1 vacant
        rw [at_p, TypeExpr.vacant?_eq_some_iff.1 waits]
      cases found : find name with
      | some id =>
        -- the tour goes on with a cell filled that may come again further on
        rw [visit_of_found start empty found]
        exact .cons_of_found empty found (ih start)
      | none =>
        rw [visit_of_lacking start empty found, visitAll_of_stopped (Option.some_ne_none name)]
        exact .cons_of_lacking empty found

end Tour

namespace Linking

open TypeExpr

variable (find : String → Option ClassId)

section Leaves

theorem run_onLeaf (u : TypeExpr) (l : Linking) : (onLeaf find u).run l =
    match u.vacant?, l.missing with
    | some name, none =>
      match find name with
      | some id => (.linked name id, { l with written := l.written + 1 })
      | none => (u, { l with missing := some name })
    | _, _ => (u, l) := by
  obtain ⟨store, written, _ | stopped⟩ := l <;>
    rcases u with _ | ⟨name, _ | id⟩ | _ | _ | _ | _ <;> first
      | rfl
      | rw [onLeaf, stateM_run_map, run_fill]
        cases found : find name <;> simp [vacant?, found]

theorem detachedLeaf_onLeaf (u : TypeExpr) (l : Linking) :
    ((onLeaf find u).run l).1.detachedLeaf = u.detachedLeaf := by
  rw [run_onLeaf]
  split
  · next name vacant _ =>
    rw [vacant?_eq_some_iff.1 vacant]
    cases find name <;> rfl
  · rfl

theorem map_detachedLeaf_onLeaf (us : List TypeExpr) (l : Linking) :
    ((us.mapM (onLeaf find)).run l).1.map detachedLeaf = us.map detachedLeaf := by
  induction us generalizing l with
  | nil => rfl
  | cons u us ih =>
    simp only [List.mapM_cons, stateM_run_bind, stateM_run_pure, List.map_cons, ih,
      detachedLeaf_onLeaf]

theorem length_onLeaf (us : List TypeExpr) (l : Linking) :
    ((us.mapM (onLeaf find)).run l).1.length = us.length := by
  have lengths := congrArg List.length (map_detachedLeaf_onLeaf find us l)
  rwa [List.length_map, List.length_map] at lengths

theorem isLeaf_onLeaf {us : List TypeExpr} (leaf : ∀ u ∈ us, u.isLeaf = true) (l : Linking) :
    ∀ v ∈ ((us.mapM (onLeaf find)).run l).1, v.isLeaf = true := by
  intro v hv
  have image := List.mem_map_of_mem (f := detachedLeaf) hv
  rw [map_detachedLeaf_onLeaf] at image
  obtain ⟨u, hu, same⟩ := List.mem_map.1 image
  rw [← isLeaf_detachedLeaf, ← same, isLeaf_detachedLeaf, leaf u hu]

theorem visit_leaf {c : Tour} {p : Spot} {u : TypeExpr} {l : Linking} (here : c.leaf p = some u)
    (written : c.written = l.written) (missing : c.missing = l.missing) :
    c.visit find p =
      { leaf := Function.update c.leaf p (some ((onLeaf find u).run l).1)
        written := ((onLeaf find u).run l).2.written
        missing := ((onLeaf find u).run l).2.missing } := by
  have kept : c = ⟨Function.update c.leaf p (some u), l.written, l.missing⟩ := by
    rw [← here, Function.update_eq_self, ← written, ← missing]
  rw [run_onLeaf, Tour.visit, here, Option.bind_some, missing]
  split
  · next name vacant stopped =>
    cases found : find name with
    | some id =>
      dsimp only
      rw [written, stopped]
    | none =>
      conv_lhs => rw [kept]
  · exact kept

theorem visitAll_leaves {e : Nat → Spot} (inj : Function.Injective e) (us : List TypeExpr)
    {c : Tour} {l : Linking} (here : ∀ i, c.leaf (e i) = us[i]?) (written : c.written = l.written)
    (missing : c.missing = l.missing) :
    let r := (us.mapM (onLeaf find)).run l
    let c' := c.visitAll find ((List.range us.length).map e)
    c'.written = r.2.written ∧ c'.missing = r.2.missing ∧ (∀ i, c'.leaf (e i) = r.1[i]?) ∧
      ∀ p, (∀ i, e i ≠ p) → c'.leaf p = c.leaf p := by
  induction us generalizing e c l with
  | nil => exact ⟨written, missing, here, fun _ _ => rfl⟩
  | cons u us ih =>
    have step := visit_leaf find (here 0) written missing
    have tail : (List.range (u :: us).length).map e =
        e 0 :: (List.range us.length).map fun i => e (i + 1) := by
      rw [List.length_cons, List.range_succ_eq_map, List.map_cons, List.map_map]
      rfl
    have later : ∀ i, (c.visit find (e 0)).leaf (e (i + 1)) = us[i]? := by
      intro i
      rw [step]
      dsimp only
      rw [Function.update_of_ne fun same => Nat.succ_ne_zero i (inj same), here,
        List.getElem?_cons_succ]
    obtain ⟨written', missing', leaf, others⟩ := ih
      (fun i j same => Nat.succ_injective (inj same)) later (congrArg Tour.written step)
      (congrArg Tour.missing step)
    dsimp only
    rw [tail, Tour.visitAll, List.foldl_cons, ← Tour.visitAll]
    simp only [List.mapM_cons, stateM_run_bind, stateM_run_pure]
    refine ⟨written', missing', ?_, ?_⟩
    · rintro (_ | i)
      · rw [others (e 0) fun i same => Nat.succ_ne_zero i (inj same), step]
        exact Function.update_self _ _ _
      · exact leaf i
    · intro p outside
      rw [others p fun i => outside (i + 1), step]
      exact Function.update_of_ne (outside 0).symm _ _

end Leaves

section Visits

/-- A walk over a tree that links the leaves in it, as it links a list of leaves, and changes
nothing else. -/
structure Visits {α β : Type} (leaves : α → List TypeExpr) (shape : α → β) (walk : StateM Linking α)
    (a : α) : Prop where
  state : ∀ l, (walk.run l).2 = (((leaves a).mapM (onLeaf find)).run l).2
  leaves : ∀ l, leaves (walk.run l).1 = (((leaves a).mapM (onLeaf find)).run l).1
  shape : ∀ l, shape (walk.run l).1 = shape a

namespace Visits

variable {find} {α β γ δ : Type} {leaves : α → List TypeExpr} {shape : α → γ}

theorem pair {more : β → List TypeExpr} {form : β → δ} {walk : StateM Linking α}
    {next : StateM Linking β} {a : α} {b : β} (first : Visits find leaves shape walk a)
    (second : Visits find more form next b) :
    Visits find (fun p : α × β => leaves p.1 ++ more p.2) (fun p => (shape p.1, form p.2))
      (do let a ← walk; let b ← next; pure (a, b)) (a, b) := by
  constructor <;> intro l
  · simp only [List.mapM_append, stateM_run_bind, stateM_run_pure, second.state, first.state]
  · simp only [List.mapM_append, stateM_run_bind, stateM_run_pure, first.leaves, second.leaves,
      first.state]
  · simp only [stateM_run_bind, stateM_run_pure, first.shape, second.shape]

theorem mapM {walk : α → StateM Linking α} (h : ∀ a, Visits find leaves shape (walk a) a)
    (as : List α) : Visits find (List.flatMap leaves) (List.map shape) (as.mapM walk) as := by
  induction as with
  | nil => exact ⟨fun _ => rfl, fun _ => rfl, fun _ => rfl⟩
  | cons a as ih =>
    constructor <;> intro l
    · simp only [List.flatMap_cons, List.mapM_append, List.mapM_cons, stateM_run_bind,
        stateM_run_pure, (h a).state, ih.state]
    · simp only [List.flatMap_cons, List.mapM_append, List.mapM_cons, stateM_run_bind,
        stateM_run_pure, (h a).state, (h a).leaves, ih.leaves]
    · simp only [List.mapM_cons, stateM_run_bind, stateM_run_pure, List.map_cons, (h a).shape,
        ih.shape]

theorem declaration {types : α → List TypeExpr} {refill : α → List TypeExpr → α}
    {mapTypes : (TypeExpr → TypeExpr) → α → α} (lens : Refillable types refill mapTypes)
    {walk : StateM Linking α} {a : α}
    (h : walk = refill a <$> (types a).mapM (TypeExpr.rebuildM (onLeaf find))) :
    Visits find (fun a => (types a).flatMap TypeExpr.leaves) (mapTypes detached) walk a := by
  have leaf : ∀ u ∈ (types a).flatMap TypeExpr.leaves, u.isLeaf = true := by
    intro u hu
    obtain ⟨t, -, ht⟩ := List.mem_flatMap.1 hu
    exact isLeaf_of_mem_leaves ht
  rw [rebuildM_eq_refillLeavesIn (onLeaf_of_not_isLeaf find) h]
  constructor <;> intro l <;> rw [stateM_run_map]
  · exact lens.leaves_refillLeavesIn (isLeaf_onLeaf find leaf l) (length_onLeaf find _ l)
  · have emptied : detached = mapLeaves detachedLeaf := rfl
    rw [emptied, lens.mapLeaves_refillLeavesIn (isLeaf_onLeaf find leaf l) (length_onLeaf find _ l),
      map_detachedLeaf_onLeaf, lens.refillLeavesIn_map]

end Visits

theorem visits_constant (c : Constant) :
    Visits find Constant.leaves (Constant.mapTypes detached) (c.rebuildM (rebuilder find)) c :=
  .declaration Constant.refillable (Constant.rebuildM_eq_refill _ c)

theorem visits_function (f : Function) :
    Visits find Function.leaves (Function.mapTypes detached) (f.rebuildM (rebuilder find)) f :=
  .declaration Function.refillable (Function.rebuildM_eq_refill _ f)

theorem visits_class (c : Class) :
    Visits find Class.leaves (Class.mapTypes detached) (c.rebuildM (rebuilder find)) c :=
  .declaration Class.refillable (Class.rebuildM_eq_refill _ c)

theorem visits_own (x : Module ClassId) : Visits find
    (fun p => p.1.flatMap Constant.leaves ++ p.2.flatMap Function.leaves)
    (fun p => (p.1.map (Constant.mapTypes detached), p.2.map (Function.mapTypes detached)))
    (onOwn find x) (x.constants, x.functions) :=
  .pair (.mapM (visits_constant find) x.constants) (.mapM (visits_function find) x.functions)

theorem store_onLeaves (us : List TypeExpr) (l : Linking) :
    ((us.mapM (onLeaf find)).run l).2.store = l.store :=
  (Links.mapM (links_onLeaf find) us).store l

end Visits

section Tours

/-- How far linking has come, when these are the leaves of what the module owns itself. -/
def tour (own : List TypeExpr) (l : Linking) : Tour where
  leaf
    | .own index => own[index]?
    | .object id index => (l.store.read id).leaves[index]?
  written := l.written
  missing := l.missing

theorem tour_onOwn (x : Module ClassId) (l : Linking) :
    let r := (onOwn find x).run l
    tour (r.1.1.flatMap Constant.leaves ++ r.1.2.flatMap Function.leaves) r.2 =
      (tour x.ownLeaves l).visitAll find ((List.range x.ownLeaves.length).map .own) := by
  intro r
  have visits := visits_own find x
  obtain ⟨written, missing, leaf, others⟩ := visitAll_leaves find
    (fun i j same => Spot.own.inj same) x.ownLeaves (c := tour x.ownLeaves l) (fun _ => rfl) rfl rfl
  have state : r.2 = ((x.ownLeaves.mapM (onLeaf find)).run l).2 := visits.state l
  have leaves : r.1.1.flatMap Constant.leaves ++ r.1.2.flatMap Function.leaves =
      ((x.ownLeaves.mapM (onLeaf find)).run l).1 := visits.leaves l
  apply Tour.ext
  · funext p
    cases p with
    | own index =>
      rw [leaf index, ← leaves]
      rfl
    | object id index =>
      rw [others (.object id index) fun _ same => nomatch same]
      show (r.2.store.read id).leaves[index]? = (l.store.read id).leaves[index]?
      rw [state, store_onLeaves]
  · rw [written, ← state]
    rfl
  · rw [missing, ← state]
    rfl

variable (id : ClassId) (l : Linking)

private theorem run_onObject_eq : ∃ c : Class,
    c.leaves = (((l.store.read id).leaves.mapM (onLeaf find)).run l).1 ∧
    c.mapTypes detached = (l.store.read id).mapTypes detached ∧
    ((onObject find id).run l).2 =
      { (((l.store.read id).leaves.mapM (onLeaf find)).run l).2 with
        store := l.store.write id c } := by
  have visits := visits_class find (l.store.read id)
  refine ⟨_, visits.leaves l, visits.shape l, ?_⟩
  rw [run_onObject, ← visits.state l]
  dsimp only
  rw [(links_class find (l.store.read id)).store]

theorem tour_onObject (own : List TypeExpr) :
    tour own ((onObject find id).run l).2 =
      (tour own l).visitAll find (l.store.objectSpots id) := by
  obtain ⟨c, leaves, -, run⟩ := run_onObject_eq find id l
  obtain ⟨written, missing, leaf, others⟩ := visitAll_leaves find
    (fun i j same => (Spot.object.inj same).2) (l.store.read id).leaves (e := .object id)
    (c := tour own l) (fun _ => rfl) rfl rfl
  rw [run, Store.objectSpots]
  apply Tour.ext
  · funext p
    cases p with
    | own index =>
      rw [others (.own index) fun _ same => nomatch same]
      rfl
    | object other index =>
      show ((l.store.write id c).read other).leaves[index]? = _
      by_cases same : id = other
      · subst same
        rw [leaf index, ← leaves]
        by_cases inside : id < l.store.size
        · rw [Store.read_write_self c inside]
        · -- there is no such object, and what is read in its place has no leaves
          have outside : l.store.size ≤ id := Nat.le_of_not_lt inside
          have none : c.leaves.length = 0 := by
            rw [leaves, length_onLeaf, Store.read_of_size_le outside]
            rfl
          rw [List.length_eq_zero_iff.1 none,
            Store.read_of_size_le (by rwa [Store.size_write])]
          rfl
      · rw [others _ fun i eq => same (Spot.object.inj eq).1, Store.read_write_of_ne c same]
        rfl
  · rw [written]
    rfl
  · rw [missing]
    rfl

theorem detached_onObject (other : ClassId) :
    (((onObject find id).run l).2.store.read other).mapTypes detached =
      (l.store.read other).mapTypes detached := by
  obtain ⟨c, -, shape, run⟩ := run_onObject_eq find id l
  rw [run]
  dsimp only
  by_cases same : id = other
  · subst same
    by_cases inside : id < l.store.size
    · rw [Store.read_write_self c inside, shape]
    · have outside : l.store.size ≤ id := Nat.le_of_not_lt inside
      rw [Store.read_of_size_le outside, Store.read_of_size_le (by rwa [Store.size_write])]
  · rw [Store.read_write_of_ne c same]

theorem objectSpots_of_detached {s t : Store}
    (same : ∀ id, (t.read id).mapTypes detached = (s.read id).mapTypes detached) :
    t.objectSpots = s.objectSpots := by
  funext id
  have lengths := congrArg (fun c : Class => c.leaves.length) (same id)
  have leaf : ∀ u : TypeExpr, u.isLeaf = true → u.detachedLeaf.isLeaf = true :=
    fun u hu => by rw [isLeaf_detachedLeaf, hu]
  have count (c : Class) : (c.mapTypes detached).leaves.length = c.leaves.length :=
    (congrArg List.length (c.leaves_mapLeaves detachedLeaf leaf)).trans (List.length_map _)
  rw [count, count] at lengths
  rw [Store.objectSpots, lengths, Store.objectSpots]

theorem tour_onObjects (own : List TypeExpr) (ids : List ClassId) :
    let r := (ids.mapM (onObject find)).run l
    tour own r.2 = (tour own l).visitAll find (ids.flatMap l.store.objectSpots) ∧
      ∀ id, (r.2.store.read id).mapTypes detached = (l.store.read id).mapTypes detached := by
  induction ids generalizing l with
  | nil => exact ⟨rfl, fun _ => rfl⟩
  | cons id ids ih =>
    have first := detached_onObject find id l
    obtain ⟨rest, shape⟩ := ih ((onObject find id).run l).2
    rw [objectSpots_of_detached first, tour_onObject] at rest
    simp only [List.mapM_cons, stateM_run_bind, stateM_run_pure, List.flatMap_cons,
      Tour.visitAll_append]
    exact ⟨rest, fun other => (shape other).trans (first other)⟩

end Tours
end Linking

section Link

open Linking

variable (find : String → Option ClassId) (s : Store) (x : Module ClassId)

/-- Linking a module is a tour over its places. -/
theorem Store.tour_link : tour (s.link find x).1.ownLeaves (s.link find x).2 =
    ({ leaf := s.leafAt? x } : Tour).visitAll find (s.spots x) := by
  have own := tour_onOwn find x { store := s }
  have objects := tour_onObjects find ((onOwn find x).run { store := s }).2
  have start : tour x.ownLeaves { store := s } = { leaf := s.leafAt? x } := by
    apply Tour.ext
    · funext p
      cases p <;> rfl
    · rfl
    · rfl
  have kept : ((onOwn find x).run { store := s }).2.store = s := by
    rw [(visits_own find x).state, store_onLeaves]
  rw [link, run_onModule, spots, Tour.visitAll_append, ← start, ← own]
  refine (objects _ x.classes).1.trans ?_
  rw [kept]
  rfl

/-- Linking fills the empty cells before the first one that it cannot fill. -/
theorem Store.fills_link : Tour.Fills find { leaf := s.leafAt? x } (s.spots x)
    (tour (s.link find x).1.ownLeaves (s.link find x).2) := by
  rw [s.tour_link find x]
  exact Tour.fills_visitAll rfl _

/-- Linking fills cells and changes nothing else in any tree. -/
theorem Store.detached_link : ((s.link find x).2.store.load (s.link find x).1).detached =
      (s.load x).detached ∧
    ∀ id, ((s.link find x).2.store.read id).mapTypes TypeExpr.detached =
      (s.read id).mapTypes TypeExpr.detached := by
  have own := visits_own find x
  have kept : ((onOwn find x).run { store := s }).2.store = s := by
    rw [own.state, store_onLeaves]
  have objects := (tour_onObjects find ((onOwn find x).run { store := s }).2 [] x.classes).2
  rw [kept] at objects
  have reads : ∀ id, ((s.link find x).2.store.read id).mapTypes TypeExpr.detached =
      (s.read id).mapTypes TypeExpr.detached := objects
  refine ⟨?_, reads⟩
  have classes : ((s.link find x).2.store.load (s.link find x).1).classes.map
      (Class.mapTypes TypeExpr.detached) =
        (s.load x).classes.map (Class.mapTypes TypeExpr.detached) := by
    simp only [load, Module.mapClasses, (s.frame_link find x).1, List.map_map]
    exact List.map_congr_left fun id _ => reads id
  obtain ⟨constants, functions⟩ := Prod.mk.inj (own.shape { store := s })
  exact Module.mk.injEq .. ▸ ⟨constants, functions, classes⟩

variable {find s x}

theorem filled_of_not_vacant {u : TypeExpr} (h : u.vacant? = none) :
    filled find u = u ∧ lacking? find u = none := by
  rcases u with _ | ⟨name, _ | id⟩ | _ | _ | _ | _ <;> first | exact ⟨rfl, rfl⟩ | cases h

theorem Store.mem_leaves_of_spot {p : Spot} (inside : p ∈ s.spots x) {u : TypeExpr}
    (h : s.leafAt? x p = some u) : u ∈ (s.load x).leaves := by
  rw [Module.leaves_eq]
  rcases List.mem_append.1 inside with own | object
  · obtain ⟨index, -, rfl⟩ := List.mem_map.1 own
    exact List.mem_append_left _ (List.mem_of_getElem? h)
  · obtain ⟨id, hid, hp⟩ := List.mem_flatMap.1 object
    obtain ⟨index, -, rfl⟩ := List.mem_map.1 hp
    exact List.mem_append_right _ (List.mem_flatMap.2
      ⟨s.read id, List.mem_map.2 ⟨id, hid, rfl⟩, List.mem_of_getElem? h⟩)

theorem Store.ext_read {t : Store} (size : s.size = t.size) (read : ∀ id, s.read id = t.read id) :
    s = t := by
  obtain ⟨objects⟩ := s
  obtain ⟨others⟩ := t
  congr 1
  apply Array.ext size
  intro id inside outside
  have same := read id
  rwa [Store.read, Store.read, Array.getD_eq_getD_getElem?, Array.getD_eq_getD_getElem?,
    Array.getElem?_eq_getElem inside, Array.getElem?_eq_getElem outside] at same

theorem Store.eq_of_load_eq {t : Store} {y : Module ClassId} (classes : y.classes = x.classes)
    (load : t.load y = s.load x) : y = x := by
  have constants := congrArg Module.constants load
  have functions := congrArg Module.functions load
  obtain ⟨_, _, _⟩ := y
  cases classes
  cases constants
  cases functions
  rfl

variable (find) in
theorem Store.link_of_filled (h : ∀ u ∈ (s.load x).leaves, u.vacant? = none) :
    s.link find x = (x, { store := s }) := by
  have missing : (s.link find x).2.missing = none := by
    rw [Store.missing_link, List.findSome?_eq_none_iff]
    exact fun u hu => (filled_of_not_vacant (h u hu)).2
  have load : (s.link find x).2.store.load (s.link find x).1 = s.load x := by
    rw [Store.load_link find s x missing]
    exact Module.mapLeaves_eq_self fun u hu => (filled_of_not_vacant (h u hu)).1
  obtain ⟨classes, size, frame⟩ := s.frame_link find x
  have own : (s.link find x).1 = x := Store.eq_of_load_eq classes load
  have store : (s.link find x).2.store = s := by
    refine Store.ext_read size fun id => ?_
    by_cases listed : id ∈ x.classes
    · rw [own] at load
      exact List.map_inj_left.1 (congrArg Module.classes load) id listed
    · exact frame id listed
  have written : (s.link find x).2.written = 0 := by
    have none : fillable find (s.leafAt? x) (s.spots x) = ∅ := by
      refine Finset.eq_empty_of_forall_notMem fun p hp => ?_
      obtain ⟨inside, name, vacant⟩ := mem_fillable_iff.1 hp
      have spot := (List.takeWhile_sublist _).subset inside
      have filled := h _ (Store.mem_leaves_of_spot spot vacant)
      cases filled
    exact (s.fills_link find x).written.trans (by rw [none, Finset.card_empty])
  generalize s.link find x = r at own store written missing ⊢
  obtain ⟨y, _, _, _⟩ := r
  cases own
  cases store
  cases written
  cases missing
  rfl

theorem Store.filled_of_link (missing : (s.link find x).2.missing = none) :
    ∀ u ∈ ((s.link find x).2.store.load (s.link find x).1).leaves, u.vacant? = none := by
  have complete := missing
  rw [Store.missing_link, List.findSome?_eq_none_iff] at complete
  rw [Store.load_link find s x missing, Module.mapLeaves, Module.leaves, Module.types_mapTypes,
    List.flatMap_map]
  intro u hu
  obtain ⟨t, ht, hu⟩ := List.mem_flatMap.1 hu
  rw [TypeExpr.leaves_mapLeaves _ (filled_isLeaf find)] at hu
  obtain ⟨v, hv, rfl⟩ := List.mem_map.1 hu
  have found := complete v (List.mem_flatMap.2 ⟨t, ht, hv⟩)
  rcases v with _ | ⟨name, _ | id⟩ | _ | _ | _ | _ <;> try rfl
  cases some_id : find name with
  | none => simp [lacking?, some_id] at found
  | some id => simp [filled, some_id, TypeExpr.vacant?]

end Link

section Tables

open Linking

def finder (os : List ClassObject) : Search → String → Option ClassId
  | .linear => ClassTable.id? os
  | .indexed => ClassTable.id? (ClassIndex.ofList os)

theorem finder_eq (os : List ClassObject) (search : Search) (name : String) :
    finder os search name = (os.find? (·.decl.name == name)).map (·.id) := by
  cases search with
  | linear => rfl
  | indexed => exact congrArg (Option.map (·.id)) (ClassIndex.find?_ofList os name)

theorem finder_eq_none_iff {os : List ClassObject} {search : Search} {name : String} :
    finder os search name = none ↔ ∀ o ∈ os, o.decl.name ≠ name := by
  simp [finder_eq]

/-- What linking a module with some classes does, whatever is in its cells before.

It fails if and only if there is an empty cell for a name that none of the classes has, and the
fault has the first such name. The cells that it writes are the empty cells before that one; each is
linked with the first class of its name. Their number is reported also on failure. Nothing else
changes, and after a success there is nothing left to be written, whatever classes are given. -/
theorem link_fills_prefix (s : Store) (x : Module ClassId) (os : List ClassObject)
    (search : Search) :
    let find := finder os search
    let leaf := s.leafAt? x
    let written := fillable find leaf (s.spots x)
    let r := s.link find x
    r.2.outcome = (match (s.spots x).findSome? (lackingAt find leaf) with
      | some name => .error (.unresolvedName name)
      | none => .ok written.card) ∧
    ((∃ fault, r.2.outcome = .error fault) ↔ ∃ p ∈ s.spots x, ∃ name,
      leaf p = some (.unlinked name) ∧ ∀ o ∈ os, o.decl.name ≠ name) ∧
    r.2.written = written.card ∧
    (∀ p ∈ written, ∃ name o, leaf p = some (.unlinked name) ∧
      os.find? (·.decl.name == name) = some o ∧
      r.2.store.leafAt? r.1 p = some (.linked name o.id)) ∧
    (∀ p, p ∉ written → r.2.store.leafAt? r.1 p = leaf p) ∧
    (r.1.classes = x.classes ∧ r.2.store.size = s.size ∧
      (r.2.store.load r.1).detached = (s.load x).detached ∧
      ∀ id, (r.2.store.read id).mapTypes TypeExpr.detached =
        (s.read id).mapTypes TypeExpr.detached) ∧
    (∀ n, r.2.outcome = .ok n → ∀ find', r.2.store.link find' r.1 =
      (r.1, { store := r.2.store, written := 0, missing := none })) ∧
    s.linkOwn x = s.link (finder (s.objectsOf x) .indexed) x := by
  intro find leaf written r
  have fills := s.fills_link find x
  have missing : r.2.missing = (s.spots x).findSome? (lackingAt find leaf) := fills.missing
  have count : r.2.written = written.card := fills.written.trans (Nat.zero_add _)
  have cell (p : Spot) : r.2.store.leafAt? r.1 p =
      if p ∈ written then (leaf p).map (filled find) else leaf p := by
    rw [← fills.leaf]
    cases p <;> rfl
  obtain ⟨classes, size, -⟩ := s.frame_link find x
  obtain ⟨load, reads⟩ := s.detached_link find x
  have stopped : (∃ fault, r.2.outcome = .error fault) ↔ r.2.missing ≠ none := by
    rw [Linking.outcome]
    cases r.2.missing <;> simp
  refine ⟨?_, ?_, count, ?_, ?_, ⟨classes, size, load, reads⟩, ?_, rfl⟩
  · rw [Linking.outcome, missing, count]
    cases (s.spots x).findSome? (lackingAt find leaf) <;> rfl
  · rw [stopped, missing, Ne, List.findSome?_eq_none_iff]
    simp only [not_forall, exists_prop, ← Ne.eq_def, Option.ne_none_iff_exists',
      lackingAt_eq_some_iff, find, finder_eq_none_iff]
  · intro p hp
    obtain ⟨name, id, vacant, found⟩ := find_of_mem_fillable hp
    have entry : finder os search name = some id := found
    rw [finder_eq] at entry
    obtain ⟨o, first, rfl⟩ := Option.map_eq_some_iff.1 entry
    refine ⟨name, o, vacant, first, ?_⟩
    rw [cell, if_pos hp, vacant, Option.map_some, filled, found]
  · intro p hp
    rw [cell, if_neg hp]
  · intro n done find'
    have complete : r.2.missing = none := by
      by_contra h
      obtain ⟨fault, failed⟩ := stopped.2 h
      rw [failed] at done
      cases done
    exact Store.link_of_filled find' (Store.filled_of_link complete)

end Tables
end InterfaceTree
