import InterfaceTree.Proofs.Linking

/-!
# Resolution by scope

A leaf wants a class when it is a reference, or a name that is neither the universal type nor a
parameter of the class around it.
-/
namespace InterfaceTree

/-- The name of the class that a leaf wants in the scope of these parameters. -/
def TypeExpr.wanted? (params : List String) : TypeExpr → Option String
  | .named name => if name = universalName ∨ name ∈ params then none else some name
  | .ref reference => some reference.name
  | _ => none

/-- The leaves of a module in traversal order, each with the parameters in whose scope it is. -/
def Module.scopedLeaves (x : Module Class) : List (List String × TypeExpr) :=
  x.constants.flatMap (fun c => c.leaves.map ([], ·)) ++
    x.functions.flatMap (fun f => f.leaves.map ([], ·)) ++
    x.classes.flatMap fun c => c.leaves.map (c.parameterNames, ·)

def Module.wanted (x : Module Class) : List String :=
  x.scopedLeaves.filterMap fun p => p.2.wanted? p.1

/-- The module with every leaf replaced by its image in its scope. -/
def Module.mapScoped (g : List String → TypeExpr → TypeExpr) (x : Module Class) : Module Class :=
  { constants := x.constants.map (Constant.mapLeaves (g []))
    functions := x.functions.map (Function.mapLeaves (g []))
    classes := x.classes.map fun c => c.mapLeaves (g c.parameterNames) }

def Module.hasClass (x : Module Class) (name : String) : Bool := x.classes.any (·.name == name)

/-- A leaf that wants a class becomes a reference linked with its target; all else stays. -/
def TypeExpr.resolvedLeaf (target : String → ClassId) (params : List String) (t : TypeExpr) :
    TypeExpr :=
  match t.wanted? params with
  | some name => .linked name (target name)
  | none => t

section Refer

/-- What the first stage makes of a leaf. -/
def referredLeaf (params : List String) (t : TypeExpr) : TypeExpr :=
  match t.wanted? params with
  | some name => .unlinked name
  | none => t

variable {α β : Type}

private theorem value_mapM {walk : α → StateM Nat β} {done : α → β}
    (h : ∀ a n, ((walk a).run n).1 = done a) (as : List α) (n : Nat) :
    ((as.mapM walk).run n).1 = as.map done := by
  induction as generalizing n with
  | nil => rfl
  | cons a as ih =>
    simp only [List.mapM_cons, stateM_run_bind, stateM_run_pure, List.map_cons, h, ih]

variable (params : List String)

private theorem value_referLeaf (t : TypeExpr) (n : Nat) :
    ((referLeaf params t).run n).1 = referredLeaf params t := by
  cases t with
  | named name =>
    by_cases h : name = universalName ∨ name ∈ params <;>
      simp [referLeaf, staysName, referredLeaf, TypeExpr.wanted?, h] <;> rfl
  | _ => rfl

private theorem value_types (ts : List TypeExpr) (n : Nat) :
    ((ts.mapM (TypeExpr.rebuildM (referLeaf params))).run n).1 =
      ts.map (TypeExpr.mapLeaves (referredLeaf params)) := by
  have keep : ∀ t : TypeExpr, t.isLeaf = false → referLeaf params t = pure t := by
    intro t h
    cases t <;> first | rfl | simp [TypeExpr.isLeaf, TypeExpr.name?] at h
  apply value_mapM
  intro t n
  rw [TypeExpr.rebuildM_eq_refillLeaves keep, ← TypeExpr.refillLeaves_map, stateM_run_map,
    value_mapM (value_referLeaf params)]

theorem Constant.value_refer (c : Constant) (n : Nat) :
    (c.refer.run n).1 = c.mapLeaves (referredLeaf []) := by
  rw [refer, rebuildM_eq_refill, stateM_run_map, value_types, refill_map]
  rfl

theorem Function.value_refer (f : Function) (n : Nat) :
    (f.refer.run n).1 = f.mapLeaves (referredLeaf []) := by
  rw [refer, rebuildM_eq_refill, stateM_run_map, value_types, refill_map]
  rfl

theorem Class.value_refer (c : Class) (n : Nat) :
    (c.refer.run n).1 = c.mapLeaves (referredLeaf c.parameterNames) := by
  rw [refer, rebuildM_eq_refill, stateM_run_map, value_types, refill_map]
  rfl

theorem Module.withReferences_eq (x : Module Class) :
    x.withReferences = x.mapScoped referredLeaf := by
  rw [withReferences, refer, traverseM]
  simp only [stateM_run_bind, stateM_run_pure, value_mapM Constant.value_refer,
    value_mapM Function.value_refer, value_mapM Class.value_refer]
  rfl

end Refer

section Scoped

variable {g h : List String → TypeExpr → TypeExpr} {x : Module Class}

theorem Module.leaves_mapScoped
    (hg : ∀ params u, TypeExpr.isLeaf u = true → (g params u).isLeaf = true) :
    (x.mapScoped g).leaves = x.scopedLeaves.map fun p => g p.1 p.2 := by
  rw [leaves_eq]
  simp only [mapScoped, scopedLeaves, List.flatMap_map, List.map_append, List.map_flatMap,
    List.map_map, Function.comp_def, Constant.leaves_mapLeaves _ (hg []),
    Function.leaves_mapLeaves _ (hg []), Class.leaves_mapLeaves _ (hg _)]

theorem Module.scopedLeaves_mapScoped
    (hg : ∀ params u, TypeExpr.isLeaf u = true → (g params u).isLeaf = true) :
    (x.mapScoped g).scopedLeaves = x.scopedLeaves.map fun p => (p.1, g p.1 p.2) := by
  simp only [mapScoped, scopedLeaves, List.flatMap_map, List.map_append, List.map_flatMap,
    List.map_map, Function.comp_def, Constant.leaves_mapLeaves _ (hg []),
    Function.leaves_mapLeaves _ (hg []), Class.leaves_mapLeaves _ (hg _),
    Class.parameterNames_mapLeaves]

theorem Module.mapScoped_congr (hgh : ∀ p ∈ x.scopedLeaves, g p.1 p.2 = h p.1 p.2) :
    x.mapScoped g = x.mapScoped h := by
  simp only [scopedLeaves, List.mem_append, List.mem_flatMap, List.mem_map] at hgh
  rw [mapScoped, mapScoped]
  congr 1
  · apply List.map_congr_left
    intro c hc
    exact Constant.mapLeaves_congr fun u hu => hgh ([], u) (.inl (.inl ⟨c, hc, u, hu, rfl⟩))
  · apply List.map_congr_left
    intro f hf
    exact Function.mapLeaves_congr fun u hu => hgh ([], u) (.inl (.inr ⟨f, hf, u, hu, rfl⟩))
  · apply List.map_congr_left
    intro c hc
    exact Class.mapLeaves_congr fun u hu =>
      hgh (c.parameterNames, u) (.inr ⟨c, hc, u, hu, rfl⟩)

theorem Module.mapLeaves_mapScoped (k : TypeExpr → TypeExpr) :
    (x.mapScoped g).mapLeaves k = x.mapScoped fun params t => (g params t).mapLeaves k := by
  simp only [mapLeaves_eq, mapScoped, List.map_map, Function.comp_def,
    Constant.mapLeaves_mapLeaves, Function.mapLeaves_mapLeaves, Class.mapLeaves_mapLeaves]

theorem Module.mapScoped_mapScoped :
    (x.mapScoped g).mapScoped h =
      x.mapScoped fun params t => (g params t).mapLeaves (h params) := by
  simp only [mapScoped, List.map_map, Function.comp_def, Constant.mapLeaves_mapLeaves,
    Function.mapLeaves_mapLeaves, Class.mapLeaves_mapLeaves, Class.parameterNames_mapLeaves]

theorem Module.isLeaf_of_mem_scopedLeaves {p : List String × TypeExpr}
    (hp : p ∈ x.scopedLeaves) : p.2.isLeaf = true := by
  have leaf : ∀ (ts : List TypeExpr), ∀ u ∈ ts.flatMap TypeExpr.leaves, u.isLeaf = true := by
    intro ts u hu
    obtain ⟨t, -, ht⟩ := List.mem_flatMap.1 hu
    exact TypeExpr.isLeaf_of_mem_leaves ht
  simp only [scopedLeaves, List.mem_append, List.mem_flatMap, List.mem_map] at hp
  rcases hp with (⟨c, -, u, hu, rfl⟩ | ⟨f, -, u, hu, rfl⟩) | ⟨c, -, u, hu, rfl⟩
  · exact leaf c.types u hu
  · exact leaf f.types u hu
  · exact leaf c.types u hu

theorem Module.mapScoped_congr_of_isLeaf
    (hgh : ∀ params u, TypeExpr.isLeaf u = true → g params u = h params u) :
    x.mapScoped g = x.mapScoped h :=
  mapScoped_congr fun p hp => hgh p.1 p.2 (isLeaf_of_mem_scopedLeaves hp)

theorem Module.hasClass_mapScoped (name : String) :
    (x.mapScoped g).hasClass name = x.hasClass name := by
  simp only [hasClass, mapScoped, List.any_map]
  rfl

end Scoped

section Resolve

open Linking

theorem referredLeaf_isLeaf (params : List String) (t : TypeExpr) (h : t.isLeaf = true) :
    (referredLeaf params t).isLeaf = true := by
  rw [referredLeaf]
  split
  · rfl
  · exact h

theorem TypeExpr.resolvedLeaf_isLeaf (target : String → ClassId) (params : List String)
    (t : TypeExpr) (h : t.isLeaf = true) : (t.resolvedLeaf target params).isLeaf = true := by
  rw [resolvedLeaf]
  split
  · rfl
  · exact h

private theorem lacking?_referredLeaf (find : String → Option ClassId) (params : List String)
    (t : TypeExpr) : lacking? find (referredLeaf params t) =
      (t.wanted? params).bind fun name => if (find name).isNone then some name else none := by
  cases t with
  | named name =>
    by_cases h : name = universalName ∨ name ∈ params <;>
      simp [referredLeaf, TypeExpr.wanted?, h, lacking?]
  | _ => rfl

private theorem lacking?_withReferences (find : String → Option ClassId) (x : Module Class) :
    x.withReferences.leaves.findSome? (lacking? find) =
      x.wanted.find? fun name => (find name).isNone := by
  rw [Module.withReferences_eq, Module.leaves_mapScoped referredLeaf_isLeaf, Module.wanted]
  induction x.scopedLeaves with
  | nil => rfl
  | cons p ps ih =>
    rw [List.map_cons, List.findSome?_cons, List.filterMap_cons, lacking?_referredLeaf, ih]
    cases p.2.wanted? p.1 with
    | none => rfl
    | some name => cases h : find name <;> simp [h]

theorem Store.firstNamed_isNone (s : Store) (x : Module ClassId) (name : String) :
    (s.firstNamed x name).isNone = !(s.load x).hasClass name := by
  rw [Bool.eq_iff_iff, Option.isNone_iff_eq_none, Store.firstNamed_eq_none_iff, Module.hasClass]
  simp

variable (s : Store) (x : Module ClassId)

/-- The module that resolution links: its classes are new objects. -/
def staged : Module ClassId × Store := s.hold (s.load x).withReferences

theorem run_resolve :
    (resolve x).run.run s = (linkAll (staged s x).1).run.run (staged s x).2 := by
  rw [resolve, exceptT_run_bind, exceptT_run_get]
  dsimp only
  rw [exceptT_run_bind, exceptT_run_set]
  rfl

private theorem load_staged : (staged s x).2.load (staged s x).1 = (s.load x).withReferences :=
  Store.load_hold s _

private theorem firstNamed_staged (name : String) :
    ((staged s x).2.firstNamed (staged s x).1 name).isNone = !(s.load x).hasClass name := by
  rw [Store.firstNamed_isNone, load_staged, Module.withReferences_eq, Module.hasClass_mapScoped]

theorem missing_staged : ((staged s x).2.linkOwn (staged s x).1).2.missing =
    (s.load x).wanted.find? fun name => !(s.load x).hasClass name := by
  rw [Store.linkOwn, Store.missing_link, Store.id?_indexOf, load_staged, lacking?_withReferences]
  simp only [firstNamed_staged]

private theorem filled_referredLeaf {find : String → Option ClassId} {target : String → ClassId}
    (hfind : ∀ name ∈ (s.load x).wanted, find name = some (target name))
    (p : List String × TypeExpr) (hp : p ∈ (s.load x).scopedLeaves) :
    (referredLeaf p.1 p.2).mapLeaves (filled find) = p.2.resolvedLeaf target p.1 := by
  have leaf := Module.isLeaf_of_mem_scopedLeaves hp
  rw [referredLeaf, TypeExpr.resolvedLeaf]
  cases wants : p.2.wanted? p.1 with
  | some name =>
    have member : name ∈ (s.load x).wanted := List.mem_filterMap.2 ⟨p, hp, wants⟩
    simp [filled, hfind name member]
  | none =>
    obtain ⟨params, t⟩ := p
    cases t with
    | named name => rfl
    | ref reference => cases wants
    | _ => simp [TypeExpr.isLeaf, TypeExpr.name?] at leaf

theorem no_missing_iff :
    (s.load x).wanted.find? (fun n => !(s.load x).hasClass n) = none ↔
      ∀ name ∈ (s.load x).wanted, ∃ c ∈ (s.load x).classes, c.name = name := by
  simp [List.find?_eq_none, Module.hasClass]

variable {s x} in
private theorem linksTo_of_resolve {y : Module ClassId} {s' : Store}
    (h : (resolve x).run.run s = (.ok y, s')) :
    (staged s x).2.LinksTo (staged s x).1 s' y := by
  rw [run_resolve] at h
  exact linksTo_of_linkAll h

variable {s x} in
theorem new_of_resolve {y : Module ClassId} {s' : Store}
    (h : (resolve x).run.run s = (.ok y, s')) :
    ∀ id ∈ y.classes, s.size ≤ id ∧ id < s'.size := by
  have linked := linksTo_of_resolve h
  intro id hid
  rw [linked.classes] at hid
  rw [linked.size, staged, Store.size_hold]
  simpa [staged, Store.hold] using hid

variable {s x} in
/-- In a resolved module the leaves that want a class are linked, and nothing else has changed. -/
theorem load_of_resolve {y : Module ClassId} {s' : Store}
    (h : (resolve x).run.run s = (.ok y, s')) : ∃ target : String → ClassId,
      (∀ name ∈ (s.load x).wanted, s'.firstNamed y name = some (target name)) ∧
        s'.load y = (s.load x).mapScoped fun params t => t.resolvedLeaf target params := by
  have linked := linksTo_of_resolve h
  let find := (staged s x).2.firstNamed (staged s x).1
  have found : ∀ name ∈ (s.load x).wanted, find name = some ((find name).getD 0) := by
    have complete := List.findSome?_eq_none_iff.2 linked.complete
    rw [load_staged, lacking?_withReferences, List.find?_eq_none] at complete
    intro name hname
    cases hf : find name with
    | some id => rfl
    | none => exact absurd (Option.isNone_iff_eq_none.2 hf) (complete name hname)
  refine ⟨fun name => (find name).getD 0, ?_, ?_⟩
  · intro name hname
    rw [linked.firstNamed]
    exact found name hname
  · rw [linked.load, load_staged, Module.withReferences_eq, Module.mapLeaves_mapScoped]
    exact Module.mapScoped_congr fun p hp => filled_referredLeaf s x found p hp

variable {s x} in
/-- The only names in a resolved module are the universal type and parameters in scope. -/
theorem named_of_resolve {y : Module ClassId} {s' : Store}
    (h : (resolve x).run.run s = (.ok y, s')) {p : List String × TypeExpr}
    (hp : p ∈ (s'.load y).scopedLeaves) {name : String} (hname : p.2 = .named name) :
    name = universalName ∨ name ∈ p.1 := by
  obtain ⟨target, -, load⟩ := load_of_resolve h
  rw [load, Module.scopedLeaves_mapScoped (TypeExpr.resolvedLeaf_isLeaf target)] at hp
  obtain ⟨⟨params, u⟩, -, rfl⟩ := List.mem_map.1 hp
  dsimp only at hname ⊢
  rw [TypeExpr.resolvedLeaf] at hname
  cases wants : u.wanted? params with
  | some wanted =>
    rw [wants] at hname
    cases hname
  | none =>
    rw [wants] at hname
    cases hname
    by_contra stays
    rw [TypeExpr.wanted?, if_neg stays] at wants
    cases wants

/-- Resolution succeeds if and only if there is a class for every wanted name. Otherwise it reports
the first wanted name without one. When it succeeds, the new module is the old one with every leaf
that wants a class linked with the first class of its name in the new module, whose classes are new
objects. -/
theorem resolve_outcome :
    ((∃ y s', (resolve x).run.run s = (.ok y, s')) ↔
      ∀ name ∈ (s.load x).wanted, ∃ c ∈ (s.load x).classes, c.name = name) ∧
    (∀ fault s', (resolve x).run.run s = (.error fault, s') → ∃ name,
      (s.load x).wanted.find? (fun n => !(s.load x).hasClass n) = some name ∧
        fault = .unresolvedName name) ∧
    (∀ y s', (resolve x).run.run s = (.ok y, s') →
      (∀ id ∈ y.classes, s.size ≤ id ∧ id < s'.size) ∧ ∃ target : String → ClassId,
        (∀ name ∈ (s.load x).wanted, s'.firstNamed y name = some (target name)) ∧
          s'.load y = (s.load x).mapScoped fun params t => t.resolvedLeaf target params) := by
  have run := run_resolve s x
  rw [run_linkAll, missing_staged] at run
  refine ⟨?_, ?_, fun y s' h => ⟨new_of_resolve h, load_of_resolve h⟩⟩
  · rw [← no_missing_iff, run]
    cases (s.load x).wanted.find? fun n => !(s.load x).hasClass n with
    | some name =>
      constructor
      · rintro ⟨y, s', h⟩
        cases h
      · intro h
        cases h
    | none => exact ⟨fun _ => rfl, fun _ => ⟨_, _, rfl⟩⟩
  · intro fault s' h
    rw [run] at h
    cases missing : (s.load x).wanted.find? fun n => !(s.load x).hasClass n with
    | some name =>
      rw [missing] at h
      cases h
      exact ⟨name, rfl, rfl⟩
    | none =>
      rw [missing] at h
      cases h

end Resolve
end InterfaceTree
