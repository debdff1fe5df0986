import InterfaceTree.Proofs.Sharing
import InterfaceTree.Proofs.Texts
import InterfaceTree.Proofs.Walks

/-!
# Where instances come from

What is inherited by all that a run goes over, from usages to the bodies of templates, holds of the
arguments of all instances.
-/
namespace InterfaceTree

section Put

namespace TypeExpr

/-- The expression with `element` in the place of every leaf of that name. -/
def put (t : TypeExpr) (name : String) (element : TypeExpr) : TypeExpr :=
  t.mapLeaves fun u => if u.name? = some name then element else u

theorem put_of_name? {t : TypeExpr} {name : String} (h : t.name? = some name)
    (element : TypeExpr) : t.put name element = element := by
  cases t with
  | named own => exact if_pos h
  | ref reference => exact if_pos h
  | _ => cases h

theorem replace_only (p : TemplateItem) (element t : TypeExpr) :
    t.replace (Template.only p element) = t.put p.name element := by
  rw [replace_eq_mapLeaves, put]
  apply mapLeaves_congr
  intro u hu
  rw [TypeMapping.onLeaf]
  cases hn : u.name? with
  | none => rfl
  | some name =>
    simp only [Std.TreeMap.getD_insert, Std.LawfulEqOrd.compare_eq_iff_eq, Option.some.injEq,
      eq_comm (a := name)]
    rfl

end TypeExpr

/-- What a template leaves to an instance of that name. -/
def Class.body (c : Class) (name : String) : Class := { c with name, template := [] }

def Class.bodyTypes (c : Class) : List TypeExpr := (c.body c.name).types

theorem Class.types_body {c : Class} {name : String} {t : TypeExpr} (h : t ∈ (c.body name).types) :
    t ∈ c.types := by
  simp only [types, body, List.flatMap_nil, List.nil_append, List.mem_append] at h ⊢
  tauto

theorem Template.apply_only (c : Class) (name : String) (p : TemplateItem) (element : TypeExpr) :
    Template.apply c name (Template.only p element) =
      (c.body name).mapTypes fun t => t.put p.name element := by
  rw [Template.apply, Class.replace_eq_mapTypes, funext (TypeExpr.replace_only p element)]
  rfl

end Put

section Origin

variable {τ : Type} [ClassTable τ] (table : τ) (Good : Instantiation → TypeExpr → Prop)

namespace Instantiation

/-- The instance is made of the template for a usage with that argument. -/
structure Origin (s : Instantiation) (i : Instance) (o : ClassObject) (p : TemplateItem)
    (element : TypeExpr) : Prop where
  known : ClassTable.find? table o.decl.name = some o
  param : o.decl.template = [p]
  named : ∃ text, element.canonical = .ok text ∧ i.name = instanceName o.decl.name text
  good : Good s element
  covered : s.Covers table element
  inside : ∀ t ∈ (o.decl.body i.name).types,
    s.Covers table (t.put p.name (s.rewrite element))
  content : s.store.read i.id =
    (o.decl.body i.name).mapTypes fun t => s.rewrite (t.put p.name (s.rewrite element))

def Originated (s : Instantiation) : Prop :=
  ∀ i ∈ s.cache.toList, ∃ o p element, s.Origin table Good i o p element

end Instantiation

/-- The property goes from an expression to all that a run goes over because of it. What is in the
place of a base need not have it when it is a leaf. -/
structure Hereditary : Prop where
  extends_ : ∀ {s s' : Instantiation} {t : TypeExpr}, s.Extends s' → Good s t → Good s' t
  usage : ∀ {s : Instantiation} {u base element : TypeExpr}, u.usage? = some (base, element) →
    Good s u → (base.isLeaf = true ∨ Good s base) ∧ Good s element
  union : ∀ {s : Instantiation} {members : List TypeExpr},
    Good s (.union members) → ∀ t ∈ members, Good s t
  inter : ∀ {s : Instantiation} {members : List TypeExpr},
    Good s (.inter members) → ∀ t ∈ members, Good s t
  body : ∀ {s : Instantiation} {first : ClassId} {o : ClassObject} {p : TemplateItem}
    {name : String} {element t : TypeExpr}, s.Sound table (fun _ => True) first →
      s.Originated table Good → ClassTable.find? table o.decl.name = some o →
        o.decl.template = [p] → Good s element → s.Covers table element →
          t ∈ (o.decl.body name).types → Good s (t.put p.name (s.rewrite element))

namespace Instantiation

variable {table Good} {first : ClassId} {s s' : Instantiation}

theorem originated_start (store : Store) : Originated table Good { store } :=
  fun _ hi => absurd hi List.not_mem_nil

theorem Origin.extends_ (her : Hereditary table Good) (grown : s.Extends s')
    (sound : s'.Sound table (fun _ => True) first) {i : Instance} {o : ClassObject}
    {p : TemplateItem} {element : TypeExpr} (old : i.id < s.store.size)
    (h : s.Origin table Good i o p element) : s'.Origin table Good i o p element := by
  have same : s'.rewrite element = s.rewrite element := sound.rewrite_extends grown h.covered
  refine ⟨h.known, h.param, h.named, her.extends_ grown h.good, h.covered.extends_ grown, ?_, ?_⟩
  · rw [same]
    intro t ht
    exact (h.inside t ht).extends_ grown
  · rw [grown.store.read_eq i.id old, h.content, same]
    apply Class.mapTypes_congr
    intro t ht
    exact (sound.rewrite_extends grown (h.inside t ht)).symm

theorem Originated.extends_ (her : Hereditary table Good) (grown : s.Extends s')
    (sound : s.Sound table (fun _ => True) first) (sound' : s'.Sound table (fun _ => True) first)
    (h : s.Originated table Good) {i : Instance} (hi : i ∈ s.cache.toList) :
    ∃ o p element, s'.Origin table Good i o p element := by
  obtain ⟨o, p, element, origin⟩ := h i hi
  exact ⟨o, p, element, origin.extends_ her grown sound' (sound.new i hi).2⟩

end Instantiation

variable {table Good} {first : ClassId} {active : List Active} {s s' : Instantiation}

theorem name_of_chosen {base element : TypeExpr} {name : String} {template : ClassObject}
    (text : (TypeExpr.container base element).canonical = .ok name)
    (chosen : templateOf table active base name = .ok template) :
    element.canonical = .ok element.text ∧
      name = instanceName template.decl.name element.text := by
  obtain ⟨named, -, -⟩ := templateOf_eq_ok_iff.1 chosen
  obtain ⟨writable, rfl⟩ := TypeExpr.canonical_eq_ok_iff.1 text
  obtain ⟨-, writable⟩ := TypeExpr.writable_container.1 writable
  refine ⟨TypeExpr.canonical_eq_ok_iff.2 ⟨writable, rfl⟩, ?_⟩
  rw [TypeExpr.text_container, TypeExpr.text_of_name? named, instanceName]

private theorem originated_addInstance (her : Hereditary table Good) {c : Class}
    (sound : s.Sound table (fun _ => True) first)
    (sound' : (s.addInstance c).2.Sound table (fun _ => True) first)
    (new : ∀ i : Instance, i.name = c.name → (s.addInstance c).2.store.read i.id = c →
      ∃ o p element, (s.addInstance c).2.Origin table Good i o p element)
    (h : s.Originated table Good) : (s.addInstance c).2.Originated table Good := by
  intro i hi
  rcases Instantiation.mem_addInstance hi with old | rfl
  · exact h.extends_ her (.addInstance s c) sound sound' old
  · exact new _ rfl (Store.read_add_self s.store c)

private theorem origin_of_stored (her : Hereditary table Good) {s₁ s₂ s₃ : Instantiation}
    {base element : TypeExpr} {o : ClassObject} {p : TemplateItem} {i : Instance}
    (text : (TypeExpr.container (s₁.rewrite base) (s₁.rewrite element)).canonical = .ok i.name)
    (chosen : templateOf table active (s₁.rewrite base) i.name = .ok o)
    (param : o.decl.template = [p]) (good : Good s₁ element) (covered : s₁.Covers table element)
    (inside : ∀ t ∈ (o.decl.body i.name).types,
      s₂.Covers table (t.put p.name (s₁.rewrite element)))
    (grown₂ : s₁.Extends s₂) (grown₃ : s₂.Extends s₃)
    (sound : s₃.Sound table (fun _ => True) first)
    (content : s₃.store.read i.id =
      (o.decl.body i.name).mapTypes fun t => s₂.rewrite (t.put p.name (s₁.rewrite element))) :
    s₃.Origin table Good i o p element := by
  obtain ⟨-, known, -⟩ := templateOf_eq_ok_iff.1 chosen
  obtain ⟨canonical, named⟩ := name_of_chosen text chosen
  rw [Instantiation.canonical_rewrite covered] at canonical
  have grown := grown₂.trans grown₃
  have same := sound.rewrite_extends grown covered
  refine ⟨known, param, ⟨_, canonical, named⟩, her.extends_ grown good, covered.extends_ grown,
    ?_, ?_⟩
  · rw [same]
    exact fun t ht => (inside t ht).extends_ grown₃
  · rw [content, same]
    apply Class.mapTypes_congr
    intro t ht
    exact (sound.rewrite_extends grown₃ (inside t ht)).symm

/-- When all that a run goes over at first has a hereditary property, each instance that it makes
comes from an argument with the property. -/
theorem Walks.originated (her : Hereditary table Good) {ts us : List TypeExpr}
    (h : Walks table active s ts us s') (sound : s.Sound table (fun _ => True) first)
    (good : ∀ t ∈ ts, t.isLeaf = true ∨ Good s t) (start : s.Originated table Good) :
    s'.Originated table Good := by
  have later {s s' : Instantiation} {ts : List TypeExpr} (grown : s.Extends s')
      (good : ∀ t ∈ ts, t.isLeaf = true ∨ Good s t) : ∀ t ∈ ts, t.isLeaf = true ∨ Good s' t :=
    fun t ht => (good t ht).imp_right (her.extends_ grown)
  have inner {s : Instantiation} {u base element : TypeExpr}
      (usage : u.usage? = some (base, element)) (good : u.isLeaf = true ∨ Good s u) :
      (base.isLeaf = true ∨ Good s base) ∧ Good s element := by
    rw [TypeExpr.isLeaf_of_usage? usage] at good
    exact her.usage usage (good.resolve_left Bool.false_ne_true)
  have pair {s : Instantiation} {base element : TypeExpr}
      (good : (base.isLeaf = true ∨ Good s base) ∧ Good s element) :
      ∀ t ∈ [base, element], t.isLeaf = true ∨ Good s t := by
    simp only [List.mem_cons, List.not_mem_nil, or_false, forall_eq_or_imp, forall_eq]
    exact ⟨good.1, .inr good.2⟩
  induction h with
  | nil => exact start
  | named rest ih => exact ih sound (fun t ht => good t (List.mem_cons_of_mem _ ht)) start
  | ref rest ih => exact ih sound (fun t ht => good t (List.mem_cons_of_mem _ ht)) start
  | union inside rest inside_ih rest_ih =>
    rw [List.forall_mem_cons] at good
    obtain ⟨grown, sound₁, -, -⟩ := inside.keeps_any sound
    have members := her.union (good.1.resolve_left Bool.false_ne_true)
    have start₁ := inside_ih sound (fun t ht => .inr (members t ht)) start
    exact rest_ih sound₁ (later grown good.2) start₁
  | inter inside rest inside_ih rest_ih =>
    rw [List.forall_mem_cons] at good
    obtain ⟨grown, sound₁, -, -⟩ := inside.keeps_any sound
    have members := her.inter (good.1.resolve_left Bool.false_ne_true)
    have start₁ := inside_ih sound (fun t ht => .inr (members t ht)) start
    exact rest_ih sound₁ (later grown good.2) start₁
  | found usage parts text provided rest parts_ih rest_ih =>
    rw [List.forall_mem_cons] at good
    obtain ⟨grown, sound₁, -, -⟩ := parts.keeps_any sound
    exact rest_ih sound₁ (later grown good.2) (parts_ih sound (pair (inner usage good.1)) start)
  | @made active s s₁ s₂ s₃ s' ts us types u base element base' element' name template p id
      usage parts text absent chosen param body stored rest parts_ih body_ih rest_ih =>
    rw [List.forall_mem_cons] at good
    obtain ⟨grown, sound₃, -, -⟩ :=
      (Walks.made usage parts text absent chosen param body stored .nil).keeps_any sound
    obtain ⟨grown₁, sound₁, covers, rewritten⟩ := parts.keeps_any sound
    obtain ⟨rfl, rfl⟩ : base' = s₁.rewrite base ∧ element' = s₁.rewrite element := by
      simpa using rewritten
    have start₁ := parts_ih sound (pair (inner usage good.1)) start
    have of_element : Good s₁ element := her.extends_ grown₁ (inner usage good.1).2
    have covered : s₁.Covers table element :=
      covers element (List.mem_cons_of_mem _ List.mem_cons_self)
    obtain ⟨-, known, -⟩ := templateOf_eq_ok_iff.1 chosen
    rw [Template.apply_only] at body body_ih stored
    -- the argument goes into the body, and the body is walked over in turn
    have of_body : ∀ t ∈ ((template.decl.body name).mapTypes
        fun t => t.put p.name (s₁.rewrite element)).types, t.isLeaf = true ∨ Good s₁ t := by
      rw [Class.types_mapTypes, List.forall_mem_map]
      exact fun t ht => .inr (her.body sound₁ start₁ known param of_element covered ht)
    obtain ⟨grown₂, sound₂, inside, rfl⟩ := body.keeps_any sound₁
    have start₂ := body_ih sound₁ of_body start₁
    rw [Class.refill_map, Class.mapTypes_mapTypes] at stored
    rw [Class.types_mapTypes, List.forall_mem_map] at inside
    obtain rfl := congrArg Prod.snd stored
    refine rest_ih sound₃ (later grown good.2) (originated_addInstance her sound₂ sound₃ ?_ start₂)
    intro i called content
    obtain rfl : i.name = name := called
    exact ⟨template, p, element, origin_of_stored her text chosen param of_element covered inside
      grown₂ (.addInstance s₂ _) sound₃ content⟩

theorem WalksModule.originated (her : Hereditary table Good) {x : Module Class}
    {y : Module ClassId} (h : WalksModule table s x y s')
    (sound : s.Sound table (fun _ => True) first) (good : ∀ t ∈ x.types, Good s t)
    (start : s.Originated table Good) : s'.Originated table Good := by
  let P (u : Instantiation) : Prop := u.Sound table (fun _ => True) first ∧
    (∀ t ∈ x.types, Good u t) ∧ u.Originated table Good
  have kept : P s' ∧ ∀ t ∈ x.types, True := by
    refine WalksModule.induct (fun _ _ => trivial) ?_ ?_ h ⟨sound, good, start⟩
    · rintro s s' ts us ⟨sound, good, start⟩ inside walk
      obtain ⟨grown, sound', -, -⟩ := walk.keeps_any sound
      have made := walk.originated her sound (fun t ht => .inr (good t (inside t ht))) start
      exact ⟨grown, ⟨sound', fun t ht => her.extends_ grown (good t ht), made⟩, fun _ _ => trivial⟩
    · rintro s c ⟨sound, good, start⟩
      have grown := Instantiation.Extends.addObject s c
      refine ⟨sound.addObject c, fun t ht => her.extends_ grown (good t ht), ?_⟩
      exact fun i hi => start.extends_ her grown sound (sound.addObject c) hi
  exact kept.1.2.2

end Origin

section Instances

variable {s s' : Store} {x y : Module ClassId}

theorem hereditary_any {τ : Type} [ClassTable τ] (table : τ) :
    Hereditary table fun _ _ => True :=
  ⟨fun _ _ => trivial, fun _ _ => ⟨.inr trivial, trivial⟩, fun _ _ _ => trivial,
    fun _ _ _ => trivial, fun _ _ _ _ _ _ _ => trivial⟩

theorem canonical_filled (find : String → Option ClassId) (t : TypeExpr) :
    (t.mapLeaves (Linking.filled find)).canonical = t.canonical := by
  apply TypeExpr.canonical_mapLeaves
  intro u hu
  rcases u with name | ⟨name, _ | id⟩ | _ | _ | _ | _ <;> rfl

/-- The declarations of the module before and after them the instances, all of them linked. -/
theorem Module.Rewritten.load_linked {τ : Type} [ClassTable τ] {table : τ} {first : ClassId}
    {u : Instantiation} {m : Module Class} {z : Module ClassId}
    (parts : m.Rewritten table first u z) (linked : u.store.LinksTo (u.join z) s' y) :
    let fill := TypeExpr.mapLeaves (Linking.filled (u.store.firstNamed (u.join z)))
    s'.load y = (m.mapTypes fun t => fill (u.rewrite t)).addClasses
      (u.instances.map (Class.mapTypes fill)) := by
  intro fill
  rw [linked.load, parts.load_join, Module.mapLeaves, Module.mapTypes_addClasses,
    Module.mapTypes_mapTypes]

theorem drop_of_linksTo {τ : Type} [ClassTable τ] {table : τ} {first : ClassId}
    {u : Instantiation} {m : Module Class} {z : Module ClassId}
    (parts : m.Rewritten table first u z) (linked : u.store.LinksTo (u.join z) s' y) :
    (s'.load y).classes.drop m.classes.length =
      u.cache.toList.map fun i =>
        (u.store.read i.id).mapLeaves (Linking.filled (u.store.firstNamed (u.join z))) := by
  have kept (image : TypeExpr → TypeExpr) :
      m.classes.length = (m.mapTypes image).classes.length := by
    rw [Module.mapTypes, List.length_map]
  rw [parts.load_linked linked, Module.addClasses, kept, List.drop_left,
    Instantiation.instances, List.map_map]
  rfl

/-- Every instance in an instantiated module is the body of a class with one parameter in which each
type is called what it is called with the argument of a usage in the place of the parameter; and the
name of the instance is made of that of the class and the text of the argument. -/
theorem instantiate_origin (h : (instantiate x).run.run s = (.ok y, s')) :
    ∀ c ∈ (s'.load y).classes.drop (s.load x).concrete.classes.length,
      ∃ b ∈ (s.load x).classes, ∃ p argument text,
        b.template = [p] ∧
        (∀ u ∈ argument.subterms, u.kind ≠ .containerType ∧ u.kind ≠ .genericType) ∧
        argument.canonical = .ok text ∧ c.name = instanceName b.name text ∧ c.template = [] ∧
        ∃ image : TypeExpr → TypeExpr, c = (b.body c.name).mapTypes image ∧
          ∀ t ∈ (b.body c.name).types,
            (image t).canonical = (t.put p.name argument).canonical := by
  obtain ⟨z, u, walk, linked⟩ := walk_of_instantiate h
  have start : Instantiation.Sound (s.indexOf x) (fun _ => True) s.size { store := s } :=
    Instantiation.sound_start s
  obtain ⟨sound, parts⟩ := walk.keeps (any_inScope _) (fun _ _ _ _ => trivial) start
  have made := walk.originated (hereditary_any _) start (fun _ _ => trivial)
    (Instantiation.originated_start s)
  rw [drop_of_linksTo parts linked, List.forall_mem_map]
  intro i hi
  obtain ⟨o, p, element, origin⟩ := made i hi
  obtain ⟨text, canonical, named⟩ := origin.named
  have name := (sound.finished i hi).name
  refine ⟨o.decl, Store.decl_mem_of_find? origin.known, p, u.rewrite element, text, origin.param,
    ?_, ?_, ?_, ?_, fun t => (u.rewrite (t.put p.name (u.rewrite element))).mapLeaves
      (Linking.filled (u.store.firstNamed (u.join z))), ?_, ?_⟩
  · exact Instantiation.usageFree_rewrite origin.covered
  · rw [Instantiation.canonical_rewrite origin.covered]
    exact canonical
  · exact name.trans named
  · show ((u.store.read i.id).template.map _) = []
    rw [(sound.finished i hi).template, List.map_nil]
  · show (u.store.read i.id).mapTypes _ = (o.decl.body (u.store.read i.id).name).mapTypes _
    rw [name, origin.content, Class.mapTypes_mapTypes]
  · intro t ht
    dsimp only
    rw [canonical_filled]
    exact Instantiation.canonical_rewrite (origin.inside t ht)

private def shelved : Module Class where
  constants := [⟨"shelf", .container (.named "Shelf") .universal⟩]
  classes := [
    { name := "Box", template := [⟨"T", .universal⟩], constants := [⟨"item", .named "T"⟩] },
    { name := "Shelf", template := [⟨"U", .universal⟩],
      constants := [⟨"box", .container (.named "Box") (.named "U")⟩] }]

theorem instantiate_origin_shelved :
    let held := Store.hold {} shelved
    ∃ y s', (instantiate held.1).run.run held.2 = (.ok y, s') ∧
      (s'.load y).classNames = ["Box<object>", "Shelf<object>"] ∧
      ∀ c ∈ (s'.load y).classes, ∃ b ∈ shelved.classes, ∃ text,
        c.name = instanceName b.name text := by
  intro held
  have names : (match (instantiate held.1).run.run held.2 with
      | (.ok y, s') => (s'.load y).classNames
      | (.error _, _) => []) = ["Box<object>", "Shelf<object>"] := by
    decide +kernel
  rcases run : (instantiate held.1).run.run held.2 with ⟨fault | y, s'⟩ <;> rw [run] at names
  · cases names
  · have origin := instantiate_origin run
    rw [Store.load_hold] at origin
    refine ⟨y, s', rfl, names, fun c hc => ?_⟩
    obtain ⟨b, hb, p, argument, text, -, -, -, named, -⟩ := origin c hc
    exact ⟨b, hb, text, named⟩

end Instances
end InterfaceTree
