import InterfaceTree.Proofs.Acceptance
import InterfaceTree.Proofs.Commuting
import InterfaceTree.Proofs.Covered
import InterfaceTree.Proofs.Frame

/-!
# Instantiating again

The templates are gone then, and all that is found is found by name.
-/
namespace InterfaceTree

open Linking

section Append

variable {κ : Type}

/-- The module with more declarations, each after its own of that kind. -/
def Module.append (x d : Module κ) : Module κ where
  constants := x.constants ++ d.constants
  functions := x.functions ++ d.functions
  classes := x.classes ++ d.classes

theorem Module.mem_types_append {x d : Module Class} {t : TypeExpr} :
    t ∈ (x.append d).types ↔ t ∈ x.types ∨ t ∈ d.types := by
  simp only [types, append, List.flatMap_append, List.mem_append]
  tauto

theorem Module.classNames_append (x d : Module Class) :
    (x.append d).classNames = x.classNames ++ d.classNames :=
  List.map_append

theorem Module.mapTypes_append (h : TypeExpr → TypeExpr) (x d : Module Class) :
    (x.append d).mapTypes h = (x.mapTypes h).append (d.mapTypes h) := by
  simp only [mapTypes, append, List.map_append]

theorem Store.load_append (s : Store) (x d : Module ClassId) :
    s.load (x.append d) = (s.load x).append (s.load d) := by
  simp only [load, Module.mapClasses, Module.append, List.map_append]

theorem Module.concrete_eq_self {x : Module Class} (h : ∀ c ∈ x.classes, c.template = []) :
    x.concrete = x := by
  have classes : x.classes.filter (fun c => !c.isGeneric) = x.classes := by
    rw [List.filter_eq_self]
    intro c hc
    rw [Class.isGeneric, h c hc]
    rfl
  rw [concrete, classes]

end Append

section Complete

def TypeExpr.NamedAmong (names : List String) (u : TypeExpr) : Prop :=
  u.base?.isSome = true → u.isUsage = true ∧ ∃ text ∈ names, u.canonical = .ok text

/-- A module without templates that has a class for every usage and every reference in it. -/
structure Module.Complete (x : Module Class) : Prop where
  concrete : ∀ c ∈ x.classes, c.template = []
  distinct : x.classNames.Nodup
  usages : ∀ t ∈ x.types, t.Throughout (TypeExpr.NamedAmong x.classNames)
  references : ∀ t ∈ x.types, ∀ name ∈ t.references, name ∈ x.classNames

variable {s : Store} {x : Module ClassId}

theorem Module.Complete.provides (complete : (s.load x).Complete) {name : String}
    (h : name ∈ (s.load x).classNames) (u : Instantiation) : u.Provides (s.indexOf x) name := by
  obtain ⟨c, hc, rfl⟩ := List.mem_map.1 h
  refine .inl (isMadeBefore_of_concrete complete.distinct ?_)
  rwa [concrete_eq_self complete.concrete]

theorem Module.Complete.walks (complete : (s.load x).Complete) : ∃ z u,
    WalksModule (s.indexOf x) { store := s } (s.load x).concrete z u ∧ u.cache = {} := by
  apply walksModule_of_coversAll
  rw [concrete_eq_self complete.concrete]
  intro t ht v hv used
  obtain ⟨usage, text, member, canonical⟩ := complete.usages t ht v hv used
  exact ⟨usage, text, canonical, complete.provides member _⟩

/-- A complete module is instantiated by filling all cells anew and putting references in the place
of usages. -/
theorem instantiate_of_complete (complete : (s.load x).Complete) :
    ∃ y s', (instantiate x).run.run s = (.ok y, s') ∧ s'.load y = (s.load x).mapTypes
      (TypeExpr.instantiated (s'.firstNamed y) (s'.firstNamed y)) := by
  obtain ⟨z, u, walk, cache⟩ := complete.walks
  have run : s.instantiateParts x = (.ok z, u) := walksModule_iff_gives.1 walk
  obtain ⟨sound, parts⟩ := walk.keeps (any_inScope _) (fun _ _ _ _ => trivial)
    (Instantiation.sound_start s)
  have own := Module.concrete_eq_self complete.concrete
  have covers : ∀ t ∈ (s.load x).types, u.Covers (s.indexOf x) t := by
    rw [← own]
    exact parts.covers
  -- nothing has been made, so no class joins those that are rewritten
  have load : u.store.load (u.join z) = (s.load x).mapTypes u.rewrite := by
    have none : u.instances = [] := by
      rw [Instantiation.instances, cache]
      rfl
    rw [parts.load_join, own, none, Module.addClasses, List.append_nil]
  obtain ⟨y, s', link⟩ : ∃ y s', (linkAll (u.join z)).run.run u.store = (.ok y, s') := by
    apply ok_of_linkAll
    intro v hv
    rw [load, Module.leaves, Module.types_mapTypes, List.flatMap_map] at hv
    obtain ⟨t, ht, hv⟩ := List.mem_flatMap.1 hv
    exact lacking?_rewrite sound parts (covers t ht)
      (fun name written => complete.provides (complete.references t ht name written) u) v hv
  have linked := linksTo_of_linkAll link
  have joined := nodup_join complete.distinct sound parts
  refine ⟨y, s', ?_, ?_⟩
  · rw [run_instantiate, run]
    exact link
  · rw [linked.load, load, Module.mapLeaves, Module.mapTypes_mapTypes, linked.firstNamed]
    apply Module.mapTypes_congr
    intro t ht
    exact mapLeaves_rewrite joined sound (covers t ht)

theorem complete_of_instantiate {s₀ : Store} {x₀ : Module ClassId}
    (distinct : (s₀.load x₀).classNames.Nodup) (h : (instantiate x₀).run.run s₀ = (.ok x, s)) :
    (s.load x).Complete where
  concrete _ hc := template_of_instantiate h hc
  distinct := nodup_of_instantiate distinct h
  usages t ht u hu used := by
    have closed := closed_of_instantiate (any_inScope _) (fun _ _ _ _ => trivial) h ht hu
    cases u <;> first | exact closed.elim | exact absurd used Bool.false_ne_true
  references t ht name hname := by
    obtain ⟨reference, leaf, rfl⟩ := TypeExpr.exists_leaf_of_mem_references hname
    obtain ⟨id, hid, -, same⟩ := closed_of_instantiate (any_inScope _) (fun _ _ _ _ => trivial) h ht
      (List.mem_filter.1 leaf).1
    rw [Store.classNames_load]
    exact List.mem_map.2 ⟨id, hid, same⟩

end Complete

section More

/-- Declarations without templates that can be added to a module: their class names are new, there
is a class in the module for every usage in them, at any depth, and one in the module or among them
for every reference. -/
structure Module.BuildsOn (d m : Module Class) : Prop where
  concrete : ∀ c ∈ d.classes, c.template = []
  distinct : d.classNames.Nodup
  new : ∀ name ∈ d.classNames, name ∉ m.classNames
  single : ∀ t ∈ d.types, ∀ base args, .generic base args ∈ t.subterms → args.length = 1
  usages : ∀ t ∈ d.types, ∀ u ∈ t.allUsages, ∃ text ∈ m.classNames, u.canonical = .ok text
  references : ∀ t ∈ d.types, ∀ name ∈ t.references, name ∈ m.classNames ∨ name ∈ d.classNames

variable {m d : Module Class}

theorem Module.BuildsOn.namedAmong (more : d.BuildsOn m) {t : TypeExpr} (ht : t ∈ d.types) :
    t.Throughout (TypeExpr.NamedAmong m.classNames) := by
  intro u hu used
  have usage : u.isUsage = true := by
    cases u with
    | container base element => rfl
    | generic base args =>
      obtain ⟨element, rfl⟩ := List.length_eq_one_iff.1 (more.single t ht base args hu)
      rfl
    | _ => cases used
  exact ⟨usage, more.usages t ht u (List.mem_filter.2 ⟨hu, usage⟩)⟩

theorem Module.Complete.append (complete : m.Complete) (more : d.BuildsOn m) :
    (m.append d).Complete where
  concrete c hc := (List.mem_append.1 hc).elim (complete.concrete c) (more.concrete c)
  distinct := by
    rw [classNames_append, List.nodup_append]
    refine ⟨complete.distinct, more.distinct, ?_⟩
    rintro name hname _ hnew rfl
    exact more.new name hnew hname
  usages t ht u hu used := by
    obtain ⟨usage, text, member, canonical⟩ := (mem_types_append.1 ht).elim
      (fun ht => complete.usages t ht u hu used) (fun ht => more.namedAmong ht u hu used)
    rw [classNames_append]
    exact ⟨usage, text, List.mem_append_left _ member, canonical⟩
  references t ht name hname := by
    rw [classNames_append, List.mem_append]
    rcases mem_types_append.1 ht with ht | ht
    · exact .inl (complete.references t ht name hname)
    · exact more.references t ht name hname

end More

section Reuse

variable {s s' : Store} {x y : Module ClassId}

/-- The classes of a module are those of another one, in order, under other identities. -/
structure Store.Renames (s : Store) (x : Module ClassId) (s' : Store) (y : Module ClassId)
    (rename : ClassId → ClassId) : Prop where
  classes : y.classes = x.classes.map rename
  injective : ∀ i ∈ x.classes, ∀ j ∈ x.classes, rename i = rename j → i = j
  name : ∀ i ∈ x.classes, (s'.read (rename i)).name = (s.read i).name

theorem renames_counterpart (distinct : (s'.load y).classNames.Nodup)
    (names : (s'.load y).classNames = (s.load x).classNames) :
    s.Renames x s' y (counterpart s s' y) := by
  have classes := classes_eq_map_counterpart distinct names
  refine ⟨classes, ?_, ?_⟩
  · intro i hi j hj same
    rw [Store.classNames_load, classes, List.map_map] at distinct
    exact List.inj_on_of_nodup_map distinct hi hj (congrArg (fun id => (s'.read id).name) same)
  · intro i hi
    exact (Store.firstNamed_eq_some (firstNamed_counterpart (fun _ h => names ▸ h) hi)).2

theorem Store.read_eq_of_load_eq {t : Store} (h : s.load x = t.load x) :
    ∀ i ∈ x.classes, s.read i = t.read i :=
  List.map_inj_left.1 (congrArg Module.classes h)

theorem Store.Closed.of_load_eq {t : Store} (h : s.load x = t.load x) {u : TypeExpr}
    (closed : t.Closed x (fun _ => True) u) : s.Closed x (fun _ => True) u := by
  cases u with
  | ref reference =>
    obtain ⟨i, hi, target, name⟩ := closed
    exact ⟨i, hi, target, by rw [read_eq_of_load_eq h i hi, name]⟩
  | _ => exact closed

private theorem instantiated_of_closed (names : (s.load x).classNames ⊆ (s'.load y).classNames)
    {t : TypeExpr} (closed : t.Throughout (s.Closed x fun _ => True)) :
    t.instantiated (s'.firstNamed y) (s'.firstNamed y) =
      t.mapLeaves (TypeExpr.retarget (counterpart s s' y)) := by
  have free : t.UsageFree := by
    intro u hu
    have inside := closed u hu
    constructor <;> intro kind <;> cases u <;> first | exact inside | cases kind
  rw [TypeExpr.instantiated, TypeExpr.mapAtoms_of_usageFree free]
  apply TypeExpr.mapLeaves_congr
  intro u hu
  obtain ⟨inside, leaf⟩ := List.mem_filter.1 hu
  have own := closed u inside
  cases u with
  | named name => rfl
  | ref reference =>
    obtain ⟨name, target⟩ := reference
    obtain ⟨i, hi, rfl, rfl⟩ := own
    exact congrArg (fun target => TypeExpr.ref ⟨_, target⟩) (firstNamed_counterpart names hi)
  | _ => cases leaf

private theorem mapTypes_instantiated (names : (s.load x).classNames ⊆ (s'.load y).classNames)
    (closed : ∀ t ∈ (s.load x).types, t.Throughout (s.Closed x fun _ => True)) :
    (s.load x).mapTypes (TypeExpr.instantiated (s'.firstNamed y) (s'.firstNamed y)) =
      (s.load x).mapLeaves (TypeExpr.retarget (counterpart s s' y)) :=
  Module.mapTypes_congr fun t ht => instantiated_of_closed names (closed t ht)

variable {s₀ s₁ : Store} {x₀ : Module ClassId}

private theorem closed_of_kept (instantiated : (instantiate x₀).run.run s₀ = (.ok x, s₁))
    (kept : s.load x = s₁.load x) :
    ∀ t ∈ (s.load x).types, t.Throughout (s.Closed x fun _ => True) := by
  intro t ht u hu
  rw [kept] at ht
  apply Store.Closed.of_load_eq kept
  exact closed_of_instantiate (any_inScope _) (fun _ _ _ _ => trivial) instantiated ht hu

/-- To instantiate once more changes nothing but the identities of the classes. -/
theorem instantiate_idempotent (distinct : (s₀.load x₀).classNames.Nodup)
    (instantiated : (instantiate x₀).run.run s₀ = (.ok x, s₁)) (kept : s.load x = s₁.load x) :
    ∃ y s' rename, (instantiate x).run.run s = (.ok y, s') ∧ s.Renames x s' y rename ∧
      s'.load y = (s.load x).mapLeaves (TypeExpr.retarget rename) := by
  have complete := complete_of_instantiate distinct instantiated
  rw [← kept] at complete
  obtain ⟨y, s', run, load⟩ := instantiate_of_complete complete
  have names : (s'.load y).classNames = (s.load x).classNames := by
    rw [load, Module.classNames_mapTypes]
  refine ⟨y, s', counterpart s s' y, run, ?_, ?_⟩
  · exact renames_counterpart (nodup_of_instantiate complete.distinct run) names
  · rw [load]
    exact mapTypes_instantiated (fun _ h => names ▸ h) (closed_of_kept instantiated kept)

/-- An instantiated module with more declarations, all of whose usages have instances in it, can be
instantiated again. No class is made: the classes are those before, in order, under new identities.
What was there changes only in that the targets of references are renamed, and every outermost usage
in the new declarations is linked with the class of its text. -/
theorem instantiate_reuses {d : Module ClassId} (distinct : (s₀.load x₀).classNames.Nodup)
    (instantiated : (instantiate x₀).run.run s₀ = (.ok x, s₁)) (kept : s.load x = s₁.load x)
    (more : (s.load d).BuildsOn (s.load x)) :
    ∃ y s' rename, (instantiate (x.append d)).run.run s = (.ok y, s') ∧
      (s'.load y).classNames = (s.load x).classNames ++ (s.load d).classNames ∧
      s.Renames (x.append d) s' y rename ∧
      (∀ reference, .ref reference ∈ (s.load x).leaves →
        ∃ i ∈ x.classes, reference.target = some i) ∧
      let replaced := TypeExpr.instantiated (s'.firstNamed y) (s'.firstNamed y)
      s'.load y = ((s.load x).mapLeaves (TypeExpr.retarget rename)).append
        ((s.load d).mapTypes replaced) ∧
      ∀ u ∈ (s.load d).usages, ∃ i ∈ x.classes, u.canonical = .ok (s.read i).name ∧
        replaced u = .linked (s.read i).name (rename i) := by
  -- the first run leaves a complete module, and the declarations keep it complete
  have complete := complete_of_instantiate distinct instantiated
  rw [← kept] at complete
  have closed := closed_of_kept instantiated kept
  have joint : (s.load (x.append d)).Complete := by
    rw [Store.load_append]
    exact complete.append more
  obtain ⟨y, s', run, load⟩ := instantiate_of_complete joint
  have names : (s'.load y).classNames = (s.load x).classNames ++ (s.load d).classNames := by
    rw [load, Module.classNames_mapTypes, Store.load_append, Module.classNames_append]
  have subset : (s.load x).classNames ⊆ (s'.load y).classNames := by
    rw [names]
    exact List.subset_append_left _ _
  refine ⟨y, s', counterpart s s' y, run, names, ?_, ?_, ?_, ?_⟩
  · apply renames_counterpart
    · exact nodup_of_instantiate joint.distinct run
    · rw [names, Store.load_append, Module.classNames_append]
  · intro reference hr
    obtain ⟨t, ht, leaf⟩ := List.mem_flatMap.1 hr
    obtain ⟨i, hi, target, -⟩ := closed t ht _ (List.mem_filter.1 leaf).1
    exact ⟨i, hi, target⟩
  · rw [load, Store.load_append, Module.mapTypes_append, mapTypes_instantiated subset closed]
  · intro u hu
    obtain ⟨t, ht, outermost⟩ := List.mem_flatMap.1 hu
    have inside := t.usages_subset_allUsages outermost
    obtain ⟨text, member, canonical⟩ := more.usages t ht u inside
    rw [Store.classNames_load] at member
    obtain ⟨i, hi, rfl⟩ := List.mem_map.1 member
    refine ⟨i, hi, canonical, ?_⟩
    rw [TypeExpr.instantiated_usage (List.mem_filter.1 inside).2 canonical,
      firstNamed_counterpart subset hi]

private def crates : Module Class where
  constants := [⟨"shelf", .container (.unlinked "Box") (.container (.named "Box") (.named "P"))⟩]
  classes := [
    { name := "Box", template := [⟨"T", .universal⟩], constants := [⟨"item", .named "T"⟩] },
    { name := "P" }]

private def extras : Module Class where
  functions := [
    { name := "move",
      signatures := [{
        params := [⟨"from", .generic (.named "Box") [.container (.named "Box") (.unlinked "P")]⟩],
        returns := .union [.container (.named "Box") (.unlinked "P"), .unlinked "Lid"] }] }]
  classes := [{ name := "Lid", constants := [⟨"box", .container (.named "Box") (.named "P")⟩] }]

theorem instantiate_reuses_crates :
    let held := Store.hold {} crates
    ∃ x s₁, (instantiate held.1).run.run held.2 = (.ok x, s₁) ∧
      let more := s₁.hold extras
      ∃ y s', (instantiate (x.append more.1)).run.run more.2 = (.ok y, s') ∧
        (s'.load y).classNames = ["P", "Box<P>", "Box<Box<P>>", "Lid"] := by
  intro held
  have distinct : (held.2.load held.1).classNames.Nodup := by
    rw [Store.load_hold]
    decide
  have names : (match (instantiate held.1).run.run held.2 with
      | (.ok x, s) => (s.load x).classNames == ["P", "Box<P>", "Box<Box<P>>"]
      | (.error _, _) => false) = true := by
    decide +kernel
  rcases run : (instantiate held.1).run.run held.2 with ⟨fault | x, s₁⟩ <;> rw [run] at names
  · cases names
  · have kept : (s₁.hold extras).2.load x = s₁.load x :=
      (Store.Extends.hold s₁ extras).load_eq fun id hid => (new_of_instantiate run id hid).2
    replace names := eq_of_beq names
    have single : ∀ t ∈ extras.types, ∀ base args, .generic base args ∈ t.subterms →
        args.length = 1 := by
      have usages : ∀ t ∈ extras.types, ∀ u ∈ t.subterms, u.kind = .genericType →
          u.isUsage = true := by
        decide
      intro t ht base args inside
      have usage := usages t ht _ inside rfl
      rcases args with _ | ⟨_, _ | _⟩ <;> first | rfl | cases usage
    have more : ((s₁.hold extras).2.load (s₁.hold extras).1).BuildsOn
        ((s₁.hold extras).2.load x) := by
      rw [kept, Store.load_hold]
      refine ⟨by decide, by decide, ?_, single, ?_, ?_⟩ <;> rw [names] <;> decide +kernel
    obtain ⟨y, s', rename, again, joined, -⟩ := instantiate_reuses distinct run kept more
    refine ⟨x, s₁, rfl, y, s', again, ?_⟩
    rw [joined, kept, names, Store.load_hold]
    rfl

end Reuse
end InterfaceTree
