import InterfaceTree.Proofs.Making
import InterfaceTree.Proofs.Retained

/-!
# Exactly the needed instances

Which instances a module needs can be told from its texts alone.
-/
namespace InterfaceTree

section With

/-- The rules of the canonical text, with a text in the place of a name. -/
def Layout.rulesWith (param arg : String) : Evaluator (Except Fault) String :=
  let plain := Layout.rules 0 .plain
  { plain with
    named := fun name => if name = param then .ok arg else plain.named name
    ref := fun reference => if reference.name = param then .ok arg else plain.ref reference }

namespace TypeExpr

/-- The canonical text with `arg` in the place of every leaf that is called `param`. -/
def canonicalWith (param arg : String) (t : TypeExpr) : Except Fault String :=
  t.evaluate (Layout.rulesWith param arg)

section Equations

variable (param arg : String) (base element : TypeExpr) (ts : List TypeExpr)

theorem canonicalWith_container : canonicalWith param arg (.container base element) = (do
    let b ← base.canonicalWith param arg
    let e ← element.canonicalWith param arg
    pure (Layout.usageText b [e])) := rfl

private theorem evaluateAll_canonicalWith :
    evaluateAll (Layout.rulesWith param arg) ts = ts.mapM (canonicalWith param arg) :=
  evaluateAll_eq_mapM _ ts

theorem canonicalWith_generic : canonicalWith param arg (.generic base ts) = (do
    let b ← base.canonicalWith param arg
    let texts ← ts.mapM (canonicalWith param arg)
    pure (Layout.usageText b texts)) := by
  rw [← evaluateAll_canonicalWith]
  rfl

theorem canonicalWith_union : canonicalWith param arg (.union ts) =
    String.intercalate " or " <$> ts.mapM (canonicalWith param arg) := by
  rw [← evaluateAll_canonicalWith, map_eq_pure_bind]
  rfl

theorem canonicalWith_inter : canonicalWith param arg (.inter ts) =
    String.intercalate " and " <$> ts.mapM (canonicalWith param arg) := by
  rw [← evaluateAll_canonicalWith, map_eq_pure_bind]
  rfl

end Equations

theorem canonical_put {param arg : String} {element : TypeExpr} (h : element.canonical = .ok arg)
    (t : TypeExpr) : (t.put param element).canonical = t.canonicalWith param arg := by
  have all : ∀ ts : List TypeExpr,
      (∀ t ∈ ts, (t.put param element).canonical = t.canonicalWith param arg) →
      (ts.map fun t => t.put param element).mapM canonical =
        ts.mapM (canonicalWith param arg) := by
    intro ts ih
    induction ts with
    | nil => rfl
    | cons t ts rest =>
      rw [List.map_cons, List.mapM_cons, List.mapM_cons, ih t List.mem_cons_self,
        rest fun u hu => ih u (List.mem_cons_of_mem t hu)]
  have leaf {u : TypeExpr} {name : String} (named : u.name? = some name)
      (same : name = param → u.canonicalWith param arg = .ok arg)
      (other : name ≠ param → u.canonicalWith param arg = u.canonical) :
      (u.put param element).canonical = u.canonicalWith param arg := by
    by_cases hp : name = param
    · rw [same hp, put_of_name? (hp ▸ named), h]
    · rw [other hp, put_of_ne named hp]
  induction t with
  | named name => exact leaf rfl (fun hp => if_pos hp) fun hp => if_neg hp
  | ref reference => exact leaf rfl (fun hp => if_pos hp) fun hp => if_neg hp
  | container base element hb he =>
    rw [put] at hb he ⊢
    rw [mapLeaves_container, canonical_container, hb, he, canonicalWith_container]
  | generic base args hb ha =>
    rw [put] at hb ⊢
    rw [mapLeaves_generic, canonical_generic, hb, canonicalWith_generic, ← all args ha]
    rfl
  | union members hm =>
    rw [put, mapLeaves_union, canonical_union, canonicalWith_union, ← all members hm]
    rfl
  | inter members hm =>
    rw [put, mapLeaves_inter, canonical_inter, canonicalWith_inter, ← all members hm]
    rfl

end TypeExpr
end With

namespace Module

/-- The texts of the instances that a module needs. -/
inductive Requires (x : Module Class) : String → Prop
  /-- A usage in a constant, a function or a concrete class. -/
  | outside {t u : TypeExpr} {text : String} (type : t ∈ x.concrete.types)
      (usage : u ∈ t.allUsages) (canonical : u.canonical = .ok text) : x.Requires text
  /-- A usage in the body of a template of which an instance is needed. -/
  | body {b : Class} {p : TemplateItem} {arg text : String} {t u : TypeExpr}
      (outer : x.Requires (instanceName b.name arg)) (template : b ∈ x.classes)
      (param : b.template = [p]) (type : t ∈ b.bodyTypes) (usage : u ∈ t.allUsages)
      (canonical : u.canonicalWith p.name arg = .ok text) : x.Requires text

end Module

/-- The class with its constants and its methods in another order. -/
structure Class.Reordered (c d : Class) : Prop where
  name : c.name = d.name
  template : c.template = d.template
  parents : c.parents = d.parents
  constants : c.constants.Perm d.constants
  methods : c.methods.Perm d.methods

/-- The module with constants, functions and methods in another order. -/
structure Module.Reordered (x y : Module Class) : Prop where
  constants : x.constants.Perm y.constants
  functions : x.functions.Perm y.functions
  classes : List.Forall₂ Class.Reordered x.classes y.classes

section Reordered

variable {c d : Class} {x y : Module Class}

theorem Class.Reordered.symm (h : c.Reordered d) : d.Reordered c :=
  ⟨h.name.symm, h.template.symm, h.parents.symm, h.constants.symm, h.methods.symm⟩

theorem Module.Reordered.symm (h : x.Reordered y) : y.Reordered x :=
  ⟨h.constants.symm, h.functions.symm, h.classes.flip.imp fun _ _ h => h.symm⟩

theorem Class.Reordered.types (h : c.Reordered d) {t : TypeExpr} (ht : t ∈ c.types) :
    t ∈ d.types := by
  simp only [Class.types, List.mem_append] at ht ⊢
  rw [← h.template, ← h.parents, ← (h.constants.flatMap_right Constant.types).mem_iff,
    ← (h.methods.flatMap_right Function.types).mem_iff]
  exact ht

theorem Class.Reordered.bodyTypes (h : c.Reordered d) {t : TypeExpr} (ht : t ∈ c.bodyTypes) :
    t ∈ d.bodyTypes :=
  have body : (c.body c.name).Reordered (d.body d.name) :=
    ⟨h.name, rfl, h.parents, h.constants, h.methods⟩
  body.types ht

theorem Module.Reordered.of_mem (h : x.Reordered y) (hc : c ∈ x.classes) :
    ∃ d ∈ y.classes, c.Reordered d := by
  obtain ⟨-, -, classes⟩ := h
  generalize x.classes = cs at hc classes
  generalize y.classes = ds at classes
  induction classes with
  | nil => exact absurd hc List.not_mem_nil
  | cons same rest ih =>
    rcases List.mem_cons.1 hc with rfl | hc
    · exact ⟨_, List.mem_cons_self, same⟩
    · obtain ⟨d, hd, same⟩ := ih hc
      exact ⟨d, List.mem_cons_of_mem _ hd, same⟩

theorem Module.Reordered.concrete_types (h : x.Reordered y) {t : TypeExpr}
    (ht : t ∈ x.concrete.types) : t ∈ y.concrete.types := by
  simp only [Module.types, List.mem_append, Module.concrete] at ht ⊢
  rw [← (h.constants.flatMap_right Constant.types).mem_iff,
    ← (h.functions.flatMap_right Function.types).mem_iff]
  refine ht.imp_right fun ht => ?_
  obtain ⟨c, hc, ht⟩ := List.mem_flatMap.1 ht
  obtain ⟨member, concrete⟩ := List.mem_filter.1 hc
  obtain ⟨d, hd, same⟩ := h.of_mem member
  rw [Class.isGeneric, same.template] at concrete
  exact List.mem_flatMap.2 ⟨d, List.mem_filter.2 ⟨hd, concrete⟩, same.types ht⟩

theorem Module.Reordered.requires (h : x.Reordered y) {text : String} (needed : x.Requires text) :
    y.Requires text := by
  induction needed with
  | outside type usage canonical => exact .outside (h.concrete_types type) usage canonical
  | body outer template param type usage canonical ih =>
    obtain ⟨d, hd, same⟩ := h.of_mem template
    rw [same.name] at ih
    exact .body ih hd (same.template ▸ param) (same.bodyTypes type) usage canonical

theorem Module.Reordered.classNames (h : x.Reordered y) : x.classNames = y.classNames := by
  rw [Module.classNames, Module.classNames, ← List.forall₂_eq_eq_eq, List.forall₂_map_left_iff,
    List.forall₂_map_right_iff]
  exact h.classes.imp fun _ _ same => same.name

theorem Module.Reordered.concrete_classNames (h : x.Reordered y) {name : String}
    (hname : name ∈ x.concrete.classNames) : name ∈ y.concrete.classNames := by
  obtain ⟨c, hc, rfl⟩ := List.mem_map.1 hname
  obtain ⟨member, concrete⟩ := List.mem_filter.1 hc
  obtain ⟨d, hd, same⟩ := h.of_mem member
  rw [Class.isGeneric, same.template] at concrete
  rw [same.name]
  exact List.mem_map.2 ⟨d, List.mem_filter.2 ⟨hd, concrete⟩, rfl⟩

end Reordered

section Exactly

variable {s s' : Store} {x y : Module ClassId}

private def NeededNode (x : Module Class) (u : TypeExpr) : Prop :=
  u.isUsage = true → ∀ text, u.canonical = .ok text → x.Requires text

/-- An instance is needed, and the instances that it needs have been made. -/
private def Complete (x : Module Class) (s : Instantiation) (name : String) : Prop :=
  x.Requires name ∧ ∀ b ∈ x.classes, ∀ p arg, b.template = [p] → name = instanceName b.name arg →
    ∀ t ∈ b.bodyTypes, ∀ u ∈ t.allUsages,
      ∃ text id, u.canonicalWith p.name arg = .ok text ∧ s.target? text = some id

private theorem needed_law (distinct : (s.load x).classNames.Nodup)
    (simple : ∀ name ∈ (s.load x).classNames, Name.Simple name) :
    InstanceLaw (s.indexOf x) (NeededNode (s.load x)) (Complete (s.load x)) where
  extends_ grown h := by
    refine ⟨h.1, fun b hb p arg param named t ht u hu => ?_⟩
    obtain ⟨text, id, canonical, target⟩ := h.2 b hb p arg param named t ht u hu
    exact ⟨text, id, canonical, grown.target? target⟩
  enters usage node canonical choice t ht v hv v_usage text v_canonical := by
    have outer := node usage _ canonical
    rw [choice.named] at outer
    obtain ⟨w, hw, rfl⟩ := (TypeExpr.mem_allUsages_put choice.free).1
      (List.mem_filter.2 ⟨hv, v_usage⟩)
    rw [TypeExpr.canonical_put choice.canonical] at v_canonical
    exact .body outer (Store.decl_mem_of_find? choice.known) choice.param ht hw v_canonical
  makes {s' first u element name o p} _ _ usage node canonical choice inside := by
    refine ⟨node usage _ canonical, fun b hb q arg param named t ht v hv => ?_⟩
    obtain ⟨o', found, rfl⟩ := find?_of_mem distinct hb
    have called := choice.named.symm.trans named
    obtain ⟨same, rfl⟩ := instanceName_inj (simple_of_find? simple _ _ choice.known)
      (simple_of_find? simple _ _ found) called
    rw [← same, choice.known] at found
    obtain rfl : o = o' := Option.some.inj found
    obtain rfl : p = q := List.head_eq_of_cons_eq (choice.param.symm.trans param)
    have image : v.put p.name element ∈ (t.put p.name element).allUsages :=
      (TypeExpr.mem_allUsages_put choice.free).2 ⟨v, hv, rfl⟩
    obtain ⟨text, v_canonical, provided⟩ := (inside t ht).of_mem image
    obtain ⟨id, target⟩ :=
      target_of_provides simple (List.mem_filter.1 image).2 v_canonical provided
    rw [TypeExpr.canonical_put choice.canonical] at v_canonical
    exact ⟨text, id, v_canonical, target⟩

/-- The instances that a walk over a module makes are those that the module needs. -/
private theorem made_iff_requires {z : Module ClassId} {u : Instantiation}
    (distinct : (s.load x).classNames.Nodup)
    (simple : ∀ name ∈ (s.load x).classNames, Name.Simple name)
    (walk : WalksModule (s.indexOf x) { store := s } (s.load x).concrete z u) (text : String) :
    text ∈ u.cache.toList.map (·.name) ↔ (s.load x).Requires text := by
  have start : Instantiation.Sound (s.indexOf x) (fun _ => True) s.size { store := s } :=
    Instantiation.sound_start s
  obtain ⟨sound, -⟩ := walk.keeps (any_inScope _) (fun _ _ _ _ => trivial) start
  have all : u.All (Complete (s.load x)) :=
    walk.instances (needed_law distinct simple) start
      (fun t ht v hv usage text canonical =>
        .outside ht (List.mem_filter.2 ⟨hv, usage⟩) canonical)
      fun _ hi => absurd hi List.not_mem_nil
  constructor
  · intro made
    obtain ⟨i, hi, rfl⟩ := List.mem_map.1 made
    exact (all i hi).1
  · intro needed
    suffices target : ∃ id, u.target? text = some id by
      obtain ⟨id, target⟩ := target
      obtain ⟨i, hi, named, -⟩ := sound.mem_of_target? target
      exact List.mem_map.2 ⟨i, hi, named⟩
    induction needed with
    | outside type usage canonical =>
      obtain ⟨text', canonical', provided⟩ := (walk.covers_all start _ type).of_mem usage
      cases canonical.symm.trans canonical'
      exact target_of_provides simple (List.mem_filter.1 usage).2 canonical provided
    | body outer template param type usage canonical ih =>
      obtain ⟨_, target⟩ := ih
      obtain ⟨i, hi, named, -⟩ := sound.mem_of_target? target
      obtain ⟨text', id, canonical', made⟩ :=
        (all i hi).2 _ template _ _ param named _ type _ usage
      cases canonical.symm.trans canonical'
      exact ⟨id, made⟩

private theorem exactly_of_instantiate (distinct : (s.load x).classNames.Nodup)
    (simple : ∀ name ∈ (s.load x).classNames, Name.Simple name)
    (h : (instantiate x).run.run s = (.ok y, s')) : ∃ image made,
      s'.load y = ((s.load x).concrete.mapTypes image).addClasses made ∧
        (made.map (·.name)).Nodup ∧
          ∀ text, text ∈ made.map (·.name) ↔ (s.load x).Requires text := by
  obtain ⟨z, u, walk, linked⟩ := walk_of_instantiate h
  obtain ⟨sound, parts⟩ := walk.keeps (any_inScope _) (fun _ _ _ _ => trivial)
    (Instantiation.sound_start s)
  refine ⟨_, _, parts.load_linked linked, ?_⟩
  rw [List.map_map]
  have names := sound.names_instances
  exact ⟨names ▸ sound.cache.nodup,
    fun text => names ▸ made_iff_requires distinct simple walk text⟩

private theorem mem_classNames_iff (distinct : (s.load x).classNames.Nodup)
    (simple : ∀ name ∈ (s.load x).classNames, Name.Simple name)
    (h : (instantiate x).run.run s = (.ok y, s')) (name : String) :
    name ∈ (s'.load y).classNames ↔
      name ∈ (s.load x).concrete.classNames ∨ (s.load x).Requires name := by
  obtain ⟨image, made, loaded, -, needed⟩ := exactly_of_instantiate distinct simple h
  rw [loaded, ← needed, Module.classNames, Module.addClasses, List.map_append, List.mem_append,
    Module.mapTypes, List.map_map]
  rfl

/-- When the classes of a module have different names without brackets, instantiation makes exactly
the instances that are needed, each of them once and all of them after the concrete classes. So the
order of constants, functions and methods does not matter for which classes there are. -/
theorem instantiate_makes_needed (distinct : (s.load x).classNames.Nodup)
    (simple : ∀ name ∈ (s.load x).classNames, Name.Simple name)
    (h : (instantiate x).run.run s = (.ok y, s')) :
    (∃ image made, s'.load y = ((s.load x).concrete.mapTypes image).addClasses made ∧
      (made.map (·.name)).Nodup ∧
        ∀ text, text ∈ made.map (·.name) ↔ (s.load x).Requires text) ∧
    ∀ (t t' : Store) (z w : Module ClassId), (s.load x).Reordered (t.load z) →
      (instantiate z).run.run t = (.ok w, t') →
        ∀ name, name ∈ (s'.load y).classNames ↔ name ∈ (t'.load w).classNames := by
  refine ⟨exactly_of_instantiate distinct simple h, ?_⟩
  intro t t' z w order h' name
  have distinct' : (t.load z).classNames.Nodup := order.classNames ▸ distinct
  have simple' : ∀ name ∈ (t.load z).classNames, Name.Simple name := order.classNames ▸ simple
  rw [mem_classNames_iff distinct simple h, mem_classNames_iff distinct' simple' h']
  exact or_congr ⟨order.concrete_classNames, order.symm.concrete_classNames⟩
    ⟨order.requires, order.symm.requires⟩

private def stacked : Module Class where
  constants := [⟨"rack", .container (.named "Shelf") (.container (.named "Crate") (.named "int"))⟩]
  classes := [
    { name := "Shelf", template := [⟨"U", .universal⟩],
      constants := [⟨"front", .container (.named "Crate") (.named "U")⟩,
        ⟨"size", .named "int"⟩] },
    { name := "Crate", template := [⟨"T", .universal⟩] }]

private def restacked : Module Class :=
  { stacked with classes := stacked.classes.map fun c =>
      { c with constants := c.constants.reverse } }

theorem instantiate_makes_needed_stacked :
    let held := Store.hold {} stacked
    let other := Store.hold {} restacked
    let names := ["Crate<int>", "Crate<Crate<int>>", "Shelf<Crate<int>>"]
    ∃ y s' w t', (instantiate held.1).run.run held.2 = (.ok y, s') ∧
      (instantiate other.1).run.run other.2 = (.ok w, t') ∧
      (∀ text, text ∈ names ↔ stacked.Requires text) ∧
      ∀ name, name ∈ (s'.load y).classNames ↔ name ∈ (t'.load w).classNames := by
  intro held other names
  have made : (match (instantiate held.1).run.run held.2 with
      | (.ok y, s') => (s'.load y).classNames
      | (.error _, _) => []) = names := by
    decide +kernel
  have succeeds : ((instantiate other.1).run.run other.2).1.isOk = true := by decide +kernel
  have load : held.2.load held.1 = stacked := Store.load_hold _ _
  have order : (held.2.load held.1).Reordered (other.2.load other.1) := by
    rw [load, Store.load_hold]
    exact ⟨.refl _, .refl _, .cons ⟨rfl, rfl, rfl, (List.reverse_perm _).symm, .refl _⟩
      (.cons ⟨rfl, rfl, rfl, .refl _, .refl _⟩ .nil)⟩
  rcases run : (instantiate held.1).run.run held.2 with ⟨fault | y, s'⟩ <;> rw [run] at made
  · exact absurd made.symm (List.cons_ne_nil _ _)
  change (s'.load y).classNames = names at made
  rcases run' : (instantiate other.1).run.run other.2 with ⟨fault | w, t'⟩ <;> rw [run'] at succeeds
  · cases succeeds
  obtain ⟨⟨image, instances, loaded, -, needed⟩, same⟩ :=
    instantiate_makes_needed (by rw [load]; decide) (by rw [load]; decide) run
  have all : (s'.load y).classNames = instances.map (·.name) := by
    rw [loaded, load]
    rfl
  rw [made] at all
  rw [load] at needed
  exact ⟨y, s', w, t', rfl, rfl, fun text => all ▸ needed text, same _ _ _ _ order run'⟩

end Exactly
end InterfaceTree
