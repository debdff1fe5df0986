import InterfaceTree.Proofs.Commuting
import InterfaceTree.Proofs.Outline
import InterfaceTree.Proofs.Refilled

/-!
# Runs side by side

The objects that one of two parallel instantiations makes are those of the other, moved to other
identities.
-/
namespace InterfaceTree

/-- Two runs end alike when both fail with one fault, or both succeed and what they give and leave
corresponds. -/
def EndAlike {α β σ τ : Type} (R : α → σ → β → τ → Prop) : Except Fault α × σ →
    Except Fault β × τ → Prop
  | (.ok a, s), (.ok b, t) => R a s b t
  | (.error fault, _), (.error fault', _) => fault' = fault
  | _, _ => False

theorem EndAlike.imp {α β σ τ : Type} {R Q : α → σ → β → τ → Prop} {x : Except Fault α × σ}
    {y : Except Fault β × τ} (h : EndAlike R x y)
    (imp : ∀ a s b t, x = (.ok a, s) → y = (.ok b, t) → R a s b t → Q a s b t) :
    EndAlike Q x y := by
  rcases x with ⟨fault | a, s⟩ <;> rcases y with ⟨fault' | b, t⟩
  · exact h
  · exact h
  · exact h
  · exact imp a s b t rfl rfl h

section Parallel

variable {α β γ δ : Type} {S : Instantiation → Instantiation → Prop} {R : α → β → Prop}
  {Q : γ → δ → Prop}

/-- From these states the runs end alike, with values and states that correspond. -/
def ParallelAt (S : Instantiation → Instantiation → Prop) (R : α → β → Prop) (s t : Instantiation)
    (x : Instantiating α) (y : Instantiating β) : Prop :=
  EndAlike (fun a s b t => R a b ∧ S s t) (x.run.run s) (y.run.run t)

def Parallel (S : Instantiation → Instantiation → Prop) (R : α → β → Prop) (x : Instantiating α)
    (y : Instantiating β) : Prop :=
  ∀ s t, S s t → ParallelAt S R s t x y

namespace Parallel

theorem pure {a : α} {b : β} (h : R a b) : Parallel S R (Pure.pure a) (Pure.pure b) :=
  fun _ _ states => ⟨h, states⟩

theorem throw (fault : Fault) :
    Parallel S R (MonadExcept.throw fault) (MonadExcept.throw fault) :=
  fun _ _ _ => rfl

theorem modifyGet {f : Instantiation → α × Instantiation} {g : Instantiation → β × Instantiation}
    (h : ∀ s t, S s t → R (f s).1 (g t).1 ∧ S (f s).2 (g t).2) :
    Parallel S R (MonadState.modifyGet f) (MonadState.modifyGet g) := h

theorem bind {x : Instantiating α} {y : Instantiating β} {f : α → Instantiating γ}
    {g : β → Instantiating δ} (hx : Parallel S R x y)
    (hf : ∀ a b, R a b → Parallel S Q (f a) (g b)) : Parallel S Q (x >>= f) (y >>= g) := by
  intro s t states
  have first := hx s t states
  rw [ParallelAt] at first ⊢
  rw [exceptT_run_bind, exceptT_run_bind]
  generalize x.run.run s = r at first ⊢
  generalize y.run.run t = r' at first ⊢
  obtain ⟨fault | a, s'⟩ := r <;> obtain ⟨fault' | b, t'⟩ := r'
  · exact first
  · exact False.elim first
  · exact False.elim first
  · exact hf a b first.1 s' t' first.2

theorem get_bind {f : Instantiation → Instantiating γ} {g : Instantiation → Instantiating δ}
    (h : ∀ s t, S s t → ParallelAt S Q s t (f s) (g t)) :
    Parallel S Q (get >>= f) (get >>= g) := by
  intro s t states
  rw [ParallelAt, exceptT_run_bind, exceptT_run_bind, exceptT_run_get, exceptT_run_get]
  exact h s t states

theorem lift_bind {x : Except Fault α} {y : Except Fault β} {f : α → Instantiating γ}
    {g : β → Instantiating δ} (h : (∃ fault, x = .error fault ∧ y = .error fault) ∨
      ∃ a b, x = .ok a ∧ y = .ok b ∧ Parallel S Q (f a) (g b)) :
    Parallel S Q (liftM x >>= f) (liftM y >>= g) := by
  intro s t states
  rw [ParallelAt, exceptT_run_bind, exceptT_run_bind, exceptT_run_lift, exceptT_run_lift]
  rcases h with ⟨fault, rfl, rfl⟩ | ⟨a, b, rfl, rfl, run⟩
  · rfl
  · exact run s t states

/-- What can fail without looking at the state fails in both runs or in none. -/
theorem same_bind {x : Except Fault α} {f : α → Instantiating γ} {g : α → Instantiating δ}
    (h : ∀ a, x = .ok a → Parallel S Q (f a) (g a)) :
    Parallel S Q (liftM x >>= f) (liftM x >>= g) := by
  apply lift_bind
  cases x with
  | error fault => exact .inl ⟨fault, rfl, rfl⟩
  | ok a => exact .inr ⟨a, a, rfl, rfl, h a rfl⟩

theorem map {x : Instantiating α} {y : Instantiating β} {f : α → γ} {g : β → δ}
    (hx : Parallel S R x y) (h : ∀ a b, R a b → Q (f a) (g b)) :
    Parallel S Q (f <$> x) (g <$> y) := by
  rw [map_eq_pure_bind, map_eq_pure_bind]
  exact hx.bind fun a b hab => .pure (h a b hab)

theorem imp {x : Instantiating α} {y : Instantiating β} {R' : α → β → Prop}
    (h : Parallel S R x y) (imp : ∀ a b, R a b → R' a b) : Parallel S R' x y :=
  fun s t states => (h s t states).imp fun a _ b _ _ _ rel => ⟨imp a b rel.1, rel.2⟩

theorem mapM {ι κ : Type} {f : ι → Instantiating α} {g : κ → Instantiating β} {is : List ι}
    {ks : List κ} (h : List.Forall₂ (fun i k => Parallel S R (f i) (g k)) is ks) :
    Parallel S (fun as bs => as.length = is.length ∧ List.Forall₂ R as bs) (is.mapM f)
      (ks.mapM g) := by
  induction h with
  | nil => exact .pure ⟨rfl, .nil⟩
  | cons head _ ih =>
    rw [List.mapM_cons, List.mapM_cons]
    refine head.bind fun a b hab => ih.bind fun as bs has => .pure ⟨?_, .cons hab has.2⟩
    rw [List.length_cons, has.1, List.length_cons]

end Parallel
end Parallel

section Moves

/-- All names and references in the expression carry names with the property. -/
def TypeExpr.LeavesIn (P : String → Prop) (t : TypeExpr) : Prop :=
  ∀ u ∈ t.leaves, ∀ name, u.name? = some name → P name

/-- The names that are met are among those with the property, and the targets have been moved. -/
structure Moves (P : String → Prop) (move : ClassId → ClassId) (t u : TypeExpr) : Prop where
  image : u = t.mapLeaves (TypeExpr.retarget move)
  names : t.LeavesIn P

namespace TypeExpr

variable {move : ClassId → ClassId} (t : TypeExpr)

theorem isLeaf_retarget (u : TypeExpr) : (u.retarget move).isLeaf = u.isLeaf := by
  cases u <;> rfl

theorem outline_retarget : (t.mapLeaves (retarget move)).outline = t.outline := by
  apply outline_mapLeaves
  intro u _
  cases u <;> rfl

theorem name?_retarget : (t.mapLeaves (retarget move)).name? = t.name? := by
  rw [← name?_outline, outline_retarget, name?_outline]

theorem evaluate_retarget (indent : Nat) (style : Name.Style) :
    (t.mapLeaves (retarget move)).evaluate (Layout.rules indent style) =
      t.evaluate (Layout.rules indent style) := by
  rw [← evaluate_outline, outline_retarget, evaluate_outline]

end TypeExpr
end Moves

section States

/-- Where an object goes when those from `first` on are moved to begin at `first'`. -/
def shift (first first' id : ClassId) : ClassId := first' + (id - first)

theorem shift_add (first first' n : ClassId) : shift first first' (first + n) = first' + n := by
  rw [shift, Nat.add_sub_cancel_left]

def Class.moved (move : ClassId → ClassId) (c : Class) : Class :=
  c.mapLeaves (TypeExpr.retarget move)

theorem Store.read_add (s : Store) (c : Class) (id : ClassId) :
    (s.add c).2.read id = if id = s.size then c else s.read id := by
  split
  · next same =>
    rw [same]
    exact read_add_self s c
  · next differs =>
    rcases Nat.lt_or_gt_of_ne differs with inside | outside
    · exact read_add_of_lt c inside
    · rw [read_of_size_le (Nat.le_of_lt outside),
        read_of_size_le (by rw [size_add]; exact outside)]

variable {first first' : ClassId}

/-- The objects from `first` on in one store are those from `first'` on in the other, moved. -/
structure Store.Moved (first first' : ClassId) (s t : Store) : Prop where
  size : ∃ n, s.size = first + n ∧ t.size = first' + n
  read : ∀ i, t.read (first' + i) = (s.read (first + i)).moved (shift first first')

theorem Store.Moved.add {s t : Store} (h : s.Moved first first' t) (c : Class) :
    (t.add (c.moved (shift first first'))).1 = shift first first' (s.add c).1 ∧
      (s.add c).2.Moved first first' (t.add (c.moved (shift first first'))).2 := by
  obtain ⟨⟨n, size, size'⟩, read⟩ := h
  refine ⟨?_, ⟨n + 1, ?_, ?_⟩, ?_⟩
  · show t.size = shift first first' s.size
    rw [size, size', shift_add]
  · rw [size_add, size]
    rfl
  · rw [size_add, size']
    rfl
  · intro i
    simp only [read_add, size, size', Nat.add_left_cancel_iff]
    split
    · rfl
    · exact read i

def Instance.moved (move : ClassId → ClassId) (i : Instance) : Instance :=
  { i with id := move i.id }

/-- The caches have the same names at the same positions, with their instances moved. -/
structure InstanceCache.Moved (move : ClassId → ClassId) (c d : InstanceCache) : Prop where
  position : d.position = c.position
  made : d.made = c.made.map (Instance.moved move)

namespace InstanceCache.Moved

variable {move : ClassId → ClassId} {c d : InstanceCache}

theorem find? (h : c.Moved move d) (name : String) :
    d.find? name = (c.find? name).map (Instance.moved move) := by
  rw [InstanceCache.find?, InstanceCache.find?, h.position, h.made]
  cases c.position[name]? with
  | none => rfl
  | some i => exact Array.getElem?_map

theorem insert (h : c.Moved move d) (i : Instance) :
    (d.insert (i.moved move)).1 = (c.insert i).1.moved move ∧
      (c.insert i).2.Moved move (d.insert (i.moved move)).2 := by
  have found : d.find? (i.moved move).name = _ := h.find? i.name
  rw [InstanceCache.insert, InstanceCache.insert, found]
  cases c.find? i.name with
  | some old => exact ⟨rfl, h⟩
  | none =>
    refine ⟨rfl, ?_, ?_⟩
    · dsimp only [Option.map_none]
      rw [h.made, Array.size_map, h.position]
      rfl
    · dsimp only [Option.map_none]
      rw [h.made, Array.map_push]

theorem ids (h : c.Moved move d) :
    d.toList.map (·.id) = (c.toList.map (·.id)).map move := by
  rw [toList, toList, h.made, Array.toList_map, List.map_map, List.map_map]
  rfl

end InstanceCache.Moved

/-- Two runs have made the same, each in its own place. -/
structure Instantiation.Moved (first first' : ClassId) (s t : Instantiation) : Prop where
  store : s.store.Moved first first' t.store
  cache : s.cache.Moved (shift first first') t.cache

namespace Instantiation.Moved

variable {s t : Instantiation} (h : s.Moved first first' t) (c : Class)
include h

theorem addObject : (t.addObject (c.moved (shift first first'))).1 =
      shift first first' (s.addObject c).1 ∧
    (s.addObject c).2.Moved first first' (t.addObject (c.moved (shift first first'))).2 := by
  obtain ⟨id, store⟩ := h.store.add c
  exact ⟨id, store, h.cache⟩

theorem addInstance : (t.addInstance (c.moved (shift first first'))).1 =
      shift first first' (s.addInstance c).1 ∧
    (s.addInstance c).2.Moved first first' (t.addInstance (c.moved (shift first first'))).2 := by
  obtain ⟨id, store⟩ := h.store.add c
  obtain ⟨made, cache⟩ := h.cache.insert ⟨c.name, (s.store.add c).1⟩
  have same : (⟨c.name, (s.store.add c).1⟩ : Instance).moved (shift first first') =
      ⟨(c.moved (shift first first')).name, (t.store.add (c.moved (shift first first'))).1⟩ := by
    rw [id]
    rfl
  rw [same] at made cache
  exact ⟨congrArg Instance.id made, store, cache⟩

end Instantiation.Moved
end States

section Rebuild

variable {P : String → Prop} {move : ClassId → ClassId}

namespace Moves

theorem leaf {u : TypeExpr} {name : String} (named : u.name? = some name) (h : P name) :
    Moves P move u (u.retarget move) := by
  cases u <;> try cases named
  all_goals
    refine ⟨rfl, fun v hv own called => ?_⟩
    cases List.mem_singleton.1 hv
    cases called
    exact h

theorem names_of_name? {t u : TypeExpr} (h : Moves P move t u) {name : String}
    (named : t.name? = some name) : P name := by
  cases t <;> first | exact h.names _ List.mem_cons_self _ named | cases named

theorem container {b b' e e' : TypeExpr} (base : Moves P move b b') (element : Moves P move e e') :
    Moves P move (.container b e) (.container b' e') where
  image := by rw [base.image, element.image, TypeExpr.mapLeaves_container]
  names := by
    rw [TypeExpr.LeavesIn, TypeExpr.leaves_container]
    exact List.forall_mem_append.2 ⟨base.names, element.names⟩

theorem all {ts us : List TypeExpr} (h : List.Forall₂ (Moves P move) ts us) :
    us = ts.map (TypeExpr.mapLeaves (TypeExpr.retarget move)) ∧
      ∀ u ∈ ts.flatMap TypeExpr.leaves, ∀ name, u.name? = some name → P name := by
  induction h with
  | nil => exact ⟨rfl, fun _ hu => absurd hu List.not_mem_nil⟩
  | cons head _ ih =>
    rw [head.image, ih.1]
    exact ⟨rfl, List.forall_mem_append.2 ⟨head.names, ih.2⟩⟩

theorem generic {b b' : TypeExpr} {as as' : List TypeExpr} (base : Moves P move b b')
    (args : List.Forall₂ (Moves P move) as as') :
    Moves P move (.generic b as) (.generic b' as') where
  image := by rw [base.image, (all args).1, TypeExpr.mapLeaves_generic]
  names := by
    rw [TypeExpr.LeavesIn, TypeExpr.leaves_generic]
    exact List.forall_mem_append.2 ⟨base.names, (all args).2⟩

theorem union {ms ms' : List TypeExpr} (members : List.Forall₂ (Moves P move) ms ms') :
    Moves P move (.union ms) (.union ms') where
  image := by rw [(all members).1, TypeExpr.mapLeaves_union]
  names := by
    rw [TypeExpr.LeavesIn, TypeExpr.leaves_union]
    exact (all members).2

theorem inter {ms ms' : List TypeExpr} (members : List.Forall₂ (Moves P move) ms ms') :
    Moves P move (.inter ms) (.inter ms') where
  image := by rw [(all members).1, TypeExpr.mapLeaves_inter]
  names := by
    rw [TypeExpr.LeavesIn, TypeExpr.leaves_inter]
    exact (all members).2

end Moves

variable {first first' : ClassId} {spec spec' : TypeExpr → TypeExpr → Instantiating TypeExpr}

/-- Usages whose parts correspond are answered side by side. -/
structure ParallelSpecs (P : String → Prop) (first first' : ClassId)
    (spec spec' : TypeExpr → TypeExpr → Instantiating TypeExpr) : Prop where
  answer : ∀ {b b' e e' : TypeExpr}, Moves P (shift first first') b b' →
    Moves P (shift first first') e e' →
      Parallel (Instantiation.Moved first first') (Moves P (shift first first')) (spec b e)
        (spec' b' e')

private theorem parallel_refused {S : Instantiation → Instantiation → Prop} {α β : Type}
    {R : α → β → Prop} {t t' : TypeExpr} (text : t'.render = t.render) :
    Parallel S R (do let usage ← t.render; throw (.unsupported (.argumentList usage)))
      (do let usage ← t'.render; throw (.unsupported (.argumentList usage))) := by
  rw [text]
  exact .same_bind fun usage _ => .throw _

namespace ParallelSpecs

variable (h : ParallelSpecs P first first' spec spec')
include h

theorem onUsage {t t' : TypeExpr} (moves : Moves P (shift first first') t t') :
    Parallel (Instantiation.Moved first first') (Moves P (shift first first'))
      (InterfaceTree.onUsage spec t) (InterfaceTree.onUsage spec' t') := by
  obtain ⟨rfl, names⟩ := moves
  cases t with
  | named name => exact .pure ⟨rfl, names⟩
  | ref reference => exact .pure (.leaf rfl (names _ List.mem_cons_self _ rfl))
  | container base element =>
    rw [TypeExpr.LeavesIn, TypeExpr.leaves_container, List.forall_mem_append] at names
    exact h.answer ⟨rfl, names.1⟩ ⟨rfl, names.2⟩
  | generic base args =>
    have text : ((TypeExpr.generic base args).mapLeaves
        (TypeExpr.retarget (shift first first'))).render = (TypeExpr.generic base args).render :=
      TypeExpr.evaluate_retarget _ defaultIndent .quoted
    rw [TypeExpr.LeavesIn, TypeExpr.leaves_generic, List.forall_mem_append] at names
    rw [TypeExpr.mapLeaves_generic] at text ⊢
    rcases args with _ | ⟨element, _ | ⟨second, others⟩⟩
    case cons.nil =>
      rw [List.flatMap_singleton] at names
      exact h.answer ⟨rfl, names.1⟩ ⟨rfl, names.2⟩
    -- a list of any other length is refused, with the text of the usage
    all_goals exact parallel_refused text
  | union members => exact .pure ⟨rfl, names⟩
  | inter members => exact .pure ⟨rfl, names⟩

theorem rebuildM {t : TypeExpr} (names : t.LeavesIn P) :
    Parallel (Instantiation.Moved first first') (Moves P (shift first first'))
      (t.rebuildM (InterfaceTree.onUsage spec)) (t.rebuildM (InterfaceTree.onUsage spec')) := by
  have all {ts : List TypeExpr} (each : ∀ t ∈ ts, t.LeavesIn P → Parallel
      (Instantiation.Moved first first') (Moves P (shift first first'))
      (t.rebuildM (InterfaceTree.onUsage spec)) (t.rebuildM (InterfaceTree.onUsage spec')))
      (names : ∀ u ∈ ts.flatMap TypeExpr.leaves, ∀ name, u.name? = some name → P name) :
      Parallel (Instantiation.Moved first first') (List.Forall₂ (Moves P (shift first first')))
        (TypeExpr.rebuildAllM (InterfaceTree.onUsage spec) ts)
        (TypeExpr.rebuildAllM (InterfaceTree.onUsage spec') ts) := by
    rw [TypeExpr.rebuildAllM_eq_mapM, TypeExpr.rebuildAllM_eq_mapM]
    refine (Parallel.mapM (List.forall₂_same.2 fun t ht => each t ht fun u hu => ?_)).imp
      fun us vs rel => rel.2
    exact names u (List.mem_flatMap.2 ⟨t, ht, hu⟩)
  induction t with
  | named name => exact h.onUsage ⟨rfl, names⟩
  | ref reference =>
    -- what is rebuilt is the same reference in both runs, whatever its target
    exact .pure (.leaf rfl (names _ List.mem_cons_self _ rfl))
  | container base element hb he =>
    rw [TypeExpr.LeavesIn, TypeExpr.leaves_container, List.forall_mem_append] at names
    exact (hb names.1).bind fun _ _ base => (he names.2).bind fun _ _ element =>
      h.onUsage (base.container element)
  | generic base args hb ha =>
    rw [TypeExpr.LeavesIn, TypeExpr.leaves_generic, List.forall_mem_append] at names
    exact (hb names.1).bind fun _ _ base => (all ha names.2).bind fun _ _ args =>
      h.onUsage (base.generic args)
  | union members hm =>
    rw [TypeExpr.LeavesIn, TypeExpr.leaves_union] at names
    exact (all hm names).bind fun _ _ members => h.onUsage (.union members)
  | inter members hm =>
    rw [TypeExpr.LeavesIn, TypeExpr.leaves_inter] at names
    exact (all hm names).bind fun _ _ members => h.onUsage (.inter members)

theorem declaration {α : Type} {types : α → List TypeExpr} {refill : α → List TypeExpr → α}
    {mapTypes : (TypeExpr → TypeExpr) → α → α} (lens : Refillable types refill mapTypes) {a : α}
    {x y : Instantiating α} (names : ∀ t ∈ types a, t.LeavesIn P)
    (hx : x = refill a <$> (types a).mapM (TypeExpr.rebuildM (InterfaceTree.onUsage spec)))
    (hy : y = refill a <$> (types a).mapM (TypeExpr.rebuildM (InterfaceTree.onUsage spec'))) :
    Parallel (Instantiation.Moved first first')
      (fun b c => c = mapTypes (TypeExpr.mapLeaves (TypeExpr.retarget (shift first first'))) b)
      x y := by
  rw [hx, hy]
  refine (Parallel.mapM (List.forall₂_same.2 fun t ht => h.rebuildM (names t ht))).map
    fun us vs rel => ?_
  rw [(Moves.all rel.2).1, lens.mapTypes_refill rel.1]

end ParallelSpecs
end Rebuild
end InterfaceTree
