import InterfaceTree.Proofs.Covered
import InterfaceTree.Proofs.Flattened

/-!
# The argument of an instance

A usage is answered with the instance of its text, which may have been made for another usage. A
union in an intersection has the text of an intersection in a union.
-/
namespace InterfaceTree

open Linking

namespace TypeExpr

theorem Tidy.mapAtoms {g : TypeExpr → TypeExpr} {t : TypeExpr} (h : t.Tidy)
    (hg : ∀ u ∈ t.atoms, u.Tidy → (g u).Tidy ∧ (g u).kind ≠ .unionType) :
    (t.mapAtoms g).Tidy := by
  induction t with
  | named name => exact (hg _ List.mem_cons_self h).1
  | ref reference => exact (hg _ List.mem_cons_self h).1
  | container base element => exact (hg _ List.mem_cons_self h).1
  | generic base args => exact (hg _ List.mem_cons_self h).1
  | union members hm =>
    obtain ⟨two, inside⟩ := tidy_union.1 h
    rw [atoms_union] at hg
    rw [mapAtoms_union, tidy_union, List.length_map, List.forall_mem_map]
    refine ⟨two, fun t ht => hm t ht (inside t ht) fun u hu => ?_⟩
    exact hg u (List.mem_flatMap.2 ⟨t, ht, hu⟩)
  | inter members hm =>
    obtain ⟨⟨two, kinds⟩, inside⟩ := tidy_inter.1 h
    rw [atoms_inter] at hg
    have images : ∀ t ∈ members, ∀ u ∈ t.atoms, u.Tidy →
        (g u).Tidy ∧ (g u).kind ≠ .unionType :=
      fun t ht u hu => hg u (List.mem_flatMap.2 ⟨t, ht, hu⟩)
    rw [mapAtoms_inter, tidy_inter, List.length_map, List.forall_mem_map, List.forall_mem_map]
    refine ⟨⟨two, fun t ht => ?_⟩, fun t ht => hm t ht (inside t ht) (images t ht)⟩
    have kind := kinds t ht
    have tidy := inside t ht
    have image := images t ht
    cases t with
    | union members => exact absurd rfl kind
    | inter members =>
      rw [mapAtoms_inter]
      exact kind
    | _ => exact (image _ List.mem_cons_self tidy).2

theorem Tidy.usages {t u : TypeExpr} (h : t.Tidy) (hu : u ∈ t.usages) : u.Tidy := by
  have all : ∀ ts : List TypeExpr, (∀ t ∈ ts, t.Tidy → u ∈ t.usages → u.Tidy) →
      (∀ t ∈ ts, t.Tidy) → u ∈ usagesAll ts → u.Tidy := by
    intro ts ih hts hu
    rw [usagesAll_eq_flatMap] at hu
    obtain ⟨t, ht, hu⟩ := List.mem_flatMap.1 hu
    exact ih t ht (hts t ht) hu
  induction t with
  | named name => exact absurd hu List.not_mem_nil
  | ref reference => exact absurd hu List.not_mem_nil
  | container base element =>
    rw [List.mem_singleton.1 hu]
    exact h
  | generic base args hb ha =>
    obtain ⟨of_base, of_args⟩ := tidy_generic.1 h
    rcases args with _ | ⟨arg, _ | ⟨second, rest⟩⟩
    · exact (List.mem_append.1 hu).elim (hb of_base) (all _ ha of_args)
    · rw [List.mem_singleton.1 hu]
      exact h
    · exact (List.mem_append.1 hu).elim (hb of_base) (all _ ha of_args)
  | union members hm => exact all members hm (tidy_union.1 h).2 hu
  | inter members hm => exact all members hm (tidy_inter.1 h).2 hu

def members? : TypeExpr → Option (List TypeExpr)
  | .union members => some members
  | .inter members => some members
  | _ => none

def factors? : TypeExpr → Option (List TypeExpr)
  | .inter members => some members
  | _ => none

/-- The name is not that of a member of an intersection. -/
def NotFactor (name : String) (t : TypeExpr) : Prop :=
  ∀ u ∈ t.subterms, ∀ members ∈ u.factors?, ∀ v ∈ members, v.name? ≠ some name

instance (name : String) (t : TypeExpr) : Decidable (t.NotFactor name) :=
  inferInstanceAs (Decidable (∀ u ∈ t.subterms, ∀ members ∈ u.factors?, ∀ v ∈ members, _))

/-- An expression stays tidy when a tidy one is put in, but not into an intersection. -/
theorem Tidy.put {t element : TypeExpr} {name : String} (h : t.Tidy) (he : element.Tidy)
    (free : t.NotFactor name) : (t.put name element).Tidy := by
  intro v hv
  rcases mem_subterms_mapLeaves hv with ⟨u, hu, hv⟩ | ⟨w, hw, inner, rfl⟩
  · split at hv
    · exact he v hv
    · obtain ⟨inside, leaf⟩ := List.mem_filter.1 hu
      obtain rfl : v = u := by cases u <;> first | exact List.mem_singleton.1 hv | cases leaf
      exact h v inside
  · have node := h w hw
    cases w with
    | union members =>
      rw [mapLeaves_union, TidyNode, List.length_map]
      exact node
    | inter members =>
      rw [mapLeaves_inter, TidyNode, List.length_map, List.forall_mem_map]
      refine ⟨node.1, fun u hu => ?_⟩
      have kind := node.2 u hu
      have other := free _ hw members rfl u hu
      cases u with
      | named own => rwa [mapLeaves_named, if_neg other]
      | ref reference => rwa [mapLeaves_ref, if_neg other]
      | container base element => exact kind
      | generic base args =>
        rw [mapLeaves_generic]
        exact kind
      | union members => exact absurd rfl kind
      | inter members =>
        rw [mapLeaves_inter]
        exact kind
    | _ => trivial

end TypeExpr

section Rewrite

variable {τ : Type} [ClassTable τ] {table : τ} {s : Instantiation}

theorem Instantiation.tidy_rewrite {t : TypeExpr} (h : t.Tidy) (ht : s.Covers table t)
    (solid : ∀ text, s.Provides table text → Name.Solid text) : (s.rewrite t).Tidy := by
  apply h.mapAtoms
  intro u hu tidy
  rcases ht u hu with ⟨name, rfl⟩ | ⟨reference, rfl⟩ | ⟨usage, text, htext, provided⟩
  · exact ⟨tidy, by simp [TypeExpr.instantiatedAtom, TypeExpr.kind]⟩
  · have named := TypeExpr.tidy_ref.1 tidy
    exact ⟨TypeExpr.tidy_ref.2 named, by simp [TypeExpr.instantiatedAtom, TypeExpr.kind]⟩
  · rw [TypeExpr.instantiatedAtom_usage usage htext]
    exact ⟨TypeExpr.tidy_ref.2 (solid text provided), by simp [TypeExpr.kind]⟩

theorem Instantiation.text_rewrite {t : TypeExpr} {text : String} (ht : s.Covers table t)
    (canonical : t.canonical = .ok text) : (s.rewrite t).text = t.text := by
  have kept := canonical
  rw [← canonical_rewrite ht] at kept
  rw [(TypeExpr.canonical_eq_ok_iff.1 kept).2, (TypeExpr.canonical_eq_ok_iff.1 canonical).2]

end Rewrite

section Module

structure Module.Bare (x : Module Class) : Prop where
  classes : ∀ c ∈ x.classes, Name.isBare c.name = true
  leaves : ∀ u ∈ x.leaves, ∀ name ∈ u.name?, Name.isBare name = true

def Module.Joined (x : Module Class) : Prop :=
  ∀ t ∈ x.types, ∀ u ∈ t.subterms, ∀ members ∈ u.members?, 2 ≤ members.length

/-- No intersection in the module has a union for a member, and in a template no intersection has
the parameter for a member. -/
structure Module.Unambiguous (x : Module Class) : Prop where
  unions : ∀ t ∈ x.types, ∀ u ∈ t.subterms, ∀ members ∈ u.factors?,
    ∀ v ∈ members, v.kind ≠ .unionType
  parameters : ∀ c ∈ x.classes, ∀ t ∈ c.types, ∀ name ∈ c.parameterNames, t.NotFactor name

variable {s s' : Store} {x y : Module ClassId}

theorem Module.tidy {x : Module Class} (bare : x.Bare) (joined : x.Joined)
    (clear : x.Unambiguous) : ∀ t ∈ x.types, t.Tidy := by
  intro t ht u hu
  have solid {name : String} (leaf : u.name? = some name) : Name.Solid name := by
    refine Name.solid_of_isBare (bare.leaves u ?_ name leaf)
    exact List.mem_flatMap.2 ⟨t, ht, List.mem_filter.2 ⟨hu, by rw [TypeExpr.isLeaf, leaf]; rfl⟩⟩
  cases u with
  | named name => exact solid rfl
  | ref reference => exact solid rfl
  | container base element => trivial
  | generic base args => trivial
  | union members => exact joined t ht _ hu members rfl
  | inter members => exact ⟨joined t ht _ hu members rfl, clear.unions t ht _ hu members rfl⟩

private theorem solid_of_find? (bare : (s.load x).Bare) {name : String} {o : ClassObject}
    (h : ClassTable.find? (s.indexOf x) name = some o) : Name.Solid o.decl.name :=
  Name.solid_of_isBare (bare.classes _ (Store.decl_mem_of_find? h))

private theorem solid_of_provides (bare : (s.load x).Bare) {u : Instantiation} {first : ClassId}
    (sound : u.Sound (s.indexOf x) (fun _ => True) first)
    (made : u.Originated (s.indexOf x) fun _ t => t.Tidy) {text : String}
    (h : u.Provides (s.indexOf x) text) : Name.Solid text := by
  rcases h with before | ⟨id, target⟩
  · rw [isMadeBefore] at before
    cases found : ClassTable.find? (s.indexOf x) text with
    | none =>
      rw [found] at before
      cases before
    | some o =>
      rw [← ClassTable.name_of_find? found]
      exact solid_of_find? bare found
  · obtain ⟨i, hi, rfl, -⟩ := sound.mem_of_target? target
    obtain ⟨o, p, element, origin⟩ := made i hi
    obtain ⟨text, canonical, named⟩ := origin.named
    obtain ⟨-, rfl⟩ := TypeExpr.canonical_eq_ok_iff.1 canonical
    rw [named]
    exact origin.good.solid_instanceName (solid_of_find? bare origin.known)

private theorem hereditary_tidy (bare : (s.load x).Bare) (joined : (s.load x).Joined)
    (clear : (s.load x).Unambiguous) : Hereditary (s.indexOf x) fun _ t => t.Tidy where
  extends_ _ h := h
  usage := by
    intro _ u base element usage h
    rcases u with _ | _ | ⟨b, e⟩ | ⟨b, _ | ⟨e, _ | _⟩⟩ | _ | _ <;> cases usage
    · exact (TypeExpr.tidy_container.1 h).imp_left .inr
    · obtain ⟨of_base, of_args⟩ := TypeExpr.tidy_generic.1 h
      exact ⟨.inr of_base, of_args _ List.mem_cons_self⟩
  union h := (TypeExpr.tidy_union.1 h).2
  inter h := (TypeExpr.tidy_inter.1 h).2
  body := by
    intro u first o p name element t sound made known param good covered ht
    have member := Store.decl_mem_of_find? known
    have inside : t ∈ o.decl.types := Class.types_body ht
    have tidy := Module.tidy bare joined clear t
      (List.mem_append_right _ (List.mem_flatMap.2 ⟨o.decl, member, inside⟩))
    refine tidy.put ?_ (clear.parameters o.decl member t inside p.name ?_)
    · exact Instantiation.tidy_rewrite good covered fun _ => solid_of_provides bare sound made
    · rw [Class.parameterNames, param]
      exact List.mem_cons_self

private theorem flattened_filled (find : String → Option ClassId) (t : TypeExpr) :
    (t.mapLeaves (filled find)).flattened = t.flattened := by
  apply TypeExpr.flattened_mapLeaves
  intro u hu
  rcases u with name | ⟨name, _ | id⟩ | _ | _ | _ | _ <;> rfl

private theorem flattened_rewrite {τ : Type} [ClassTable τ] {table : τ} {u : Instantiation}
    {t : TypeExpr} (ht : u.Covers table t) (free : t.UsageFree) :
    (u.rewrite t).flattened = t.flattened := by
  apply TypeExpr.flattened_mapAtoms
  intro v hv
  have inside := free v (TypeExpr.atoms_subset_subterms t hv)
  rcases ht v hv with ⟨name, rfl⟩ | ⟨reference, rfl⟩ | ⟨usage, -⟩
  · rfl
  · rfl
  · cases v with
    | container base element => exact absurd rfl inside.1
    | generic base args => exact absurd rfl inside.2
    | _ => cases usage

private theorem provides_of_usage {τ : Type} [ClassTable τ] {table : τ} {v : Instantiation}
    {t u : TypeExpr} {text : String} (covers : v.Covers table t) (hu : u ∈ t.usages)
    (canonical : u.canonical = .ok text) : v.Provides table text := by
  rw [TypeExpr.usages_eq_filter covers.isLeaf_or_isUsage] at hu
  obtain ⟨atom, usage⟩ := List.mem_filter.1 hu
  rcases covers u atom with ⟨name, rfl⟩ | ⟨reference, rfl⟩ | ⟨-, text', canonical', provided⟩
  · cases usage
  · cases usage
  · rw [canonical] at canonical'
    cases canonical'
    exact provided

private theorem canonical_argument {u base argument : TypeExpr} {text : String}
    (usage : u.usage? = some (base, argument)) (canonical : u.canonical = .ok text) :
    argument.canonical = .ok argument.text := by
  rw [TypeExpr.canonical_of_usage? usage] at canonical
  obtain ⟨writable, -⟩ := TypeExpr.canonical_eq_ok_iff.1 canonical
  exact TypeExpr.canonical_eq_ok_iff.2 ⟨(TypeExpr.writable_container.1 writable).2, rfl⟩

/-- The instance for a usage comes from the template of the usage, and from an argument that has the
text of the argument of the usage. -/
private theorem origin_of_usage (bare : (s.load x).Bare) (distinct : (s.load x).classNames.Nodup)
    {u : Instantiation} (sound : u.Sound (s.indexOf x) (fun _ => True) s.size)
    (made : u.Originated (s.indexOf x) fun _ t => t.Tidy) {b : Class}
    (hb : b ∈ (s.load x).classes) {p : TemplateItem} (param : b.template = [p]) {argument : String}
    (provided : u.Provides (s.indexOf x) (instanceName b.name argument)) :
    ∃ i ∈ u.cache.toList, ∃ o element, i.name = instanceName b.name argument ∧ o.decl = b ∧
      u.Origin (s.indexOf x) (fun _ t => t.Tidy) i o p element ∧ element.text = argument := by
  have simple : ∀ name o, ClassTable.find? (s.indexOf x) name = some o → Name.Simple name := by
    intro name o found
    rw [← ClassTable.name_of_find? found]
    exact Name.simple_of_isBare (bare.classes _ (Store.decl_mem_of_find? found))
  obtain ⟨id, target⟩ := provided.resolve_left (not_isMadeBefore simple _ _)
  obtain ⟨i, hi, named, -⟩ := sound.mem_of_target? target
  obtain ⟨o, q, element, origin⟩ := made i hi
  have member := Store.decl_mem_of_find? origin.known
  obtain ⟨text, canonical, called⟩ := origin.named
  obtain ⟨-, rfl⟩ := TypeExpr.canonical_eq_ok_iff.1 canonical
  obtain ⟨names, texts⟩ := instanceName_inj (Name.simple_of_isBare (bare.classes _ member))
    (Name.simple_of_isBare (bare.classes b hb)) (called.symm.trans named)
  have same : o.decl = b := List.inj_on_of_nodup_map distinct member hb names
  have params := origin.param
  rw [same, param] at params
  cases params
  exact ⟨i, hi, o, element, named, same, origin, texts⟩

private theorem flattened_of_canonical_eq {τ : Type} [ClassTable τ] {table : τ} {v : Instantiation}
    (solid : ∀ text, v.Provides table text → Name.Solid text) {a b : TypeExpr} {text : String}
    (tidy_a : a.Tidy) (tidy_b : b.Tidy) (covers_a : v.Covers table a) (covers_b : v.Covers table b)
    (text_a : a.canonical = .ok text) (text_b : b.canonical = .ok text) :
    (v.rewrite a).flattened = (v.rewrite b).flattened := by
  apply (Instantiation.tidy_rewrite tidy_a covers_a solid).flattened_eq_of_text_eq
    (Instantiation.tidy_rewrite tidy_b covers_b solid)
    (Instantiation.usageFree_rewrite covers_a) (Instantiation.usageFree_rewrite covers_b)
  rw [Instantiation.text_rewrite covers_a text_a, Instantiation.text_rewrite covers_b text_b,
    (TypeExpr.canonical_eq_ok_iff.1 text_a).2, (TypeExpr.canonical_eq_ok_iff.1 text_b).2]

private theorem read_of_firstNamed {τ : Type} [ClassTable τ] {table : τ} {v : Instantiation}
    {z : Module ClassId} {first : ClassId} (sound : v.Sound table (fun _ => True) first)
    (names : (v.store.load (v.join z)).classNames.Nodup)
    (linked : v.store.LinksTo (v.join z) s' y) {i : Instance} (hi : i ∈ v.cache.toList)
    {id : ClassId} (found : s'.firstNamed y i.name = some id) :
    s'.read id = (v.store.read i.id).mapLeaves (filled (v.store.firstNamed (v.join z))) := by
  have inside : i.id ∈ (v.join z).classes := List.mem_append_right _ (List.mem_map.2 ⟨i, hi, rfl⟩)
  have own := Store.firstNamed_of_nodup names inside
  rw [(sound.finished i hi).name, ← linked.firstNamed, found] at own
  cases own
  exact linked.read (Store.firstNamed_eq_some found).1

/-- When the text of an argument tells the argument, the class that a usage is linked with has the
argument of this very usage wherever the template has its parameter alone, up to unions in unions,
intersections in intersections, and names in the place of references. -/
theorem instantiate_argument (bare : (s.load x).Bare) (distinct : (s.load x).classNames.Nodup)
    (joined : (s.load x).Joined) (clear : (s.load x).Unambiguous)
    (h : (instantiate x).run.run s = (.ok y, s')) :
    let replaced := TypeExpr.instantiated (s'.firstNamed y) (s'.firstNamed y)
    (∃ made, s'.load y = ((s.load x).concrete.mapTypes replaced).addClasses made) ∧
    ∀ u ∈ (s.load x).concrete.usages, ∀ base argument, u.usage? = some (base, argument) →
      ∀ b ∈ (s.load x).classes, ∀ p, b.template = [p] → base.name? = some b.name →
        ∃ text, ∃ id ∈ y.classes, ∃ image : TypeExpr → TypeExpr,
          replaced u = .ref ⟨text, some id⟩ ∧ s'.read id = (b.body text).mapTypes image ∧
            ∀ t ∈ (b.body text).types, t.name? = some p.name →
              (image t).flattened = (replaced argument).flattened := by
  intro replaced
  obtain ⟨z, v, walk, linked⟩ := walk_of_instantiate h
  have start : Instantiation.Sound (s.indexOf x) (fun _ => True) s.size { store := s } :=
    Instantiation.sound_start s
  obtain ⟨sound, parts⟩ := walk.keeps (any_inScope _) (fun _ _ _ _ => trivial) start
  have made := walk.originated (hereditary_tidy bare joined clear) start
    (fun t ht => Module.tidy bare joined clear t (Module.types_concrete ht))
    (Instantiation.originated_start s)
  have solid : ∀ text, v.Provides (s.indexOf x) text → Name.Solid text :=
    fun _ => solid_of_provides bare sound made
  have names := nodup_join distinct sound parts
  have relinked {t : TypeExpr} (ht : v.Covers (s.indexOf x) t) :
      (v.rewrite t).mapLeaves (filled (v.store.firstNamed (v.join z))) = replaced t := by
    rw [mapLeaves_rewrite names sound ht, ← linked.firstNamed]
  refine ⟨⟨v.instances.map (Class.mapLeaves (filled (v.store.firstNamed (v.join z)))), ?_⟩, ?_⟩
  · rw [linked.load, parts.load_join, Module.mapLeaves, Module.mapTypes_addClasses,
      Module.mapTypes_mapTypes, Module.mapTypes_congr fun t ht => relinked (parts.covers t ht)]
    rfl
  · intro u hu base argument usage b hb p param named
    obtain ⟨text, id, canonical, found, answer⟩ := linked_usage names sound parts linked hu
    obtain ⟨member, -⟩ := Store.firstNamed_eq_some found
    obtain ⟨type, inside, hu⟩ := List.mem_flatMap.1 hu
    have covered := walk.covers_arguments start type inside u hu base argument usage
    have called : text = instanceName b.name argument.text := by
      rw [TypeExpr.canonical_of_usage? usage] at canonical
      obtain ⟨-, rfl⟩ := TypeExpr.canonical_eq_ok_iff.1 canonical
      rw [TypeExpr.text_container, TypeExpr.text_of_name? named, instanceName]
    have provided : v.Provides (s.indexOf x) text :=
      provides_of_usage (parts.covers type inside) hu canonical
    rw [called] at provided
    obtain ⟨i, hi, o, element, name, rfl, origin, same⟩ :=
      origin_of_usage bare distinct sound made hb param provided
    rw [← called] at name
    rw [← name] at found
    have content : s'.read id = (o.decl.body text).mapTypes fun t =>
        (v.rewrite (t.put p.name (v.rewrite element))).mapLeaves
          (filled (v.store.firstNamed (v.join z))) := by
      rw [read_of_firstNamed sound names linked hi found, origin.content, name]
      exact Class.mapTypes_mapTypes _ _ _
    refine ⟨text, id, member, _, answer, content, ?_⟩
    intro t ht leaf
    have put := TypeExpr.put_of_name? leaf (v.rewrite element)
    have covers := origin.inside t (by rwa [name])
    rw [put] at covers
    rw [put, flattened_filled, flattened_rewrite covers
      (Instantiation.usageFree_rewrite origin.covered), ← relinked covered, flattened_filled]
    have tidy : argument.Tidy := by
      have whole := Module.tidy bare joined clear _ (Module.types_concrete inside)
      exact ((hereditary_tidy bare joined clear).usage (s := v) usage (whole.usages hu)).2
    have writes : element.canonical = .ok argument.text := by
      obtain ⟨_, writes, -⟩ := origin.named
      rw [writes, ← (TypeExpr.canonical_eq_ok_iff.1 writes).2, same]
    exact flattened_of_canonical_eq solid origin.good tidy origin.covered covered writes
      (canonical_argument usage canonical)

private def argued : Module Class where
  constants := [⟨"box", .container (.named "Box") (.union [.named "P",
    .inter [.unlinked "Q", .container (.named "Box") (.named "P")]])⟩]
  classes := [
    { name := "Box", template := [⟨"T", .universal⟩], constants := [⟨"item", .named "T"⟩] },
    { name := "P" }, { name := "Q" }]

theorem instantiate_argument_argued :
    let held := Store.hold {} argued
    let argument : TypeExpr := .union [.named "P",
      .inter [.unlinked "Q", .container (.named "Box") (.named "P")]]
    ∃ y s', (instantiate held.1).run.run held.2 = (.ok y, s') ∧
      let replaced := TypeExpr.instantiated (s'.firstNamed y) (s'.firstNamed y)
      ∃ text, ∃ id ∈ y.classes, ∃ item,
        replaced (.container (.named "Box") argument) = .ref ⟨text, some id⟩ ∧
          (s'.read id).constants = [⟨"item", item⟩] ∧
            item.flattened = (replaced argument).flattened := by
  intro held argument
  have succeeds : ((instantiate held.1).run.run held.2).1.isOk = true := by decide +kernel
  have load : held.2.load held.1 = argued := Store.load_hold _ _
  have bare : (held.2.load held.1).Bare := by
    rw [load]
    exact ⟨by decide, by decide⟩
  have distinct : (held.2.load held.1).classNames.Nodup := by
    rw [load]
    decide
  have joined : (held.2.load held.1).Joined := by
    rw [load, Module.Joined]
    decide
  have clear : (held.2.load held.1).Unambiguous := by
    rw [load]
    exact ⟨by decide, by decide⟩
  rcases run : (instantiate held.1).run.run held.2 with ⟨fault | y, s'⟩ <;> rw [run] at succeeds
  · cases succeeds
  · obtain ⟨-, linked⟩ := instantiate_argument bare distinct joined clear run
    rw [load] at linked
    obtain ⟨text, id, member, image, answer, content, same⟩ :=
      linked (.container (.named "Box") argument) List.mem_cons_self (.named "Box") argument rfl
        _ List.mem_cons_self ⟨"T", .universal⟩ rfl rfl
    refine ⟨y, s', rfl, text, id, member, image (.named "T"), answer, ?_, ?_⟩
    · rw [content]
      rfl
    · exact same (.named "T") List.mem_cons_self rfl

/-- Two usages with different arguments of one text. -/
private def mixed : Module Class where
  constants := [
    ⟨"left", .container (.named "Box")
      (.inter [.union [.named "P", .named "Q"], .named "R"])⟩,
    ⟨"right", .container (.named "Box")
      (.union [.named "P", .inter [.named "Q", .named "R"]])⟩]
  classes := [
    { name := "Box", template := [⟨"T", .universal⟩], constants := [⟨"item", .named "T"⟩] },
    { name := "P" }, { name := "Q" }, { name := "R" }]

/-- Without the last condition the class may have the argument of another usage. -/
theorem instantiate_argument_mixed :
    let held := Store.hold {} mixed
    let argument : TypeExpr := .union [.named "P", .inter [.named "Q", .named "R"]]
    let other : TypeExpr := .inter [.union [.named "P", .named "Q"], .named "R"]
    mixed.Bare ∧ mixed.classNames.Nodup ∧ mixed.Joined ∧
      .container (.named "Box") argument ∈ mixed.concrete.usages ∧
      ∃ y s', (instantiate held.1).run.run held.2 = (.ok y, s') ∧
        let replaced := TypeExpr.instantiated (s'.firstNamed y) (s'.firstNamed y)
        ∃ id ∈ y.classes,
          replaced (.container (.named "Box") argument) = .ref ⟨"Box<P or Q and R>", some id⟩ ∧
            (s'.read id).constants = [⟨"item", other⟩] ∧
              other.flattened ≠ (replaced argument).flattened := by
  intro held argument other
  refine ⟨⟨by decide, by decide⟩, by decide, by rw [Module.Joined]; decide, by decide, ?_⟩
  have outcome : ((instantiate held.1).run.run held.2).1.toOption.any (fun y =>
      let s' := ((instantiate held.1).run.run held.2).2
      let replaced := TypeExpr.instantiated (s'.firstNamed y) (s'.firstNamed y)
      y.classes.any fun id => decide <|
        replaced (.container (.named "Box") argument) = .ref ⟨"Box<P or Q and R>", some id⟩ ∧
          (s'.read id).constants = [⟨"item", other⟩] ∧
            other.flattened ≠ (replaced argument).flattened) = true := by
    decide +kernel
  rcases run : (instantiate held.1).run.run held.2 with ⟨fault | y, s'⟩ <;> rw [run] at outcome
  · cases outcome
  · obtain ⟨id, member, found⟩ := List.any_eq_true.1 outcome
    exact ⟨y, s', rfl, id, member, of_decide_eq_true found⟩

end Module

end InterfaceTree
