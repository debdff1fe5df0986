import InterfaceTree.Proofs.Blocked

/-! # Which templates recur -/
namespace InterfaceTree

namespace Module

/-- In a generic class the base of a usage is a name or a reference that is not called like one of
the parameters. -/
def FirstOrder (x : Module Class) : Prop :=
  ∀ c ∈ x.classes, c.isGeneric = true → ∀ t ∈ c.bodyTypes, ∀ u ∈ t.allUsages,
    ∀ base ∈ u.base?, ∃ name ∈ base.name?, name ∉ c.parameterNames

instance (x : Module Class) : Decidable x.FirstOrder :=
  inferInstanceAs (Decidable (∀ c ∈ x.classes, c.isGeneric = true → ∀ t ∈ c.bodyTypes,
    ∀ u ∈ t.allUsages, ∀ base ∈ u.base?, ∃ name ∈ base.name?, name ∉ c.parameterNames))

variable (used : TypeExpr → List String) (x : Module Class)

/-- The generic class of the first name has the second name among those used in its body. -/
def Leads (name other : String) : Prop :=
  ∃ c ∈ x.classes, c.isGeneric = true ∧ c.name = name ∧ ∃ t ∈ c.bodyTypes, other ∈ used t

/-- From outside of the generic classes a name is reached that leads back to itself. -/
def Recursive : Prop :=
  ∃ t ∈ x.concrete.types, ∃ name ∈ used t, ∃ other,
    Relation.ReflTransGen (x.Leads used) name other ∧ Relation.TransGen (x.Leads used) other other

end Module

theorem TypeExpr.applies_subset_uses (t : TypeExpr) : t.applies ⊆ t.uses := by
  intro name hname
  obtain ⟨u, hu, of_base⟩ := mem_applies.1 hname
  exact mem_uses.2 ⟨u, (List.mem_filter.1 hu).1, of_base⟩

theorem Module.Recursive.mono {used more : TypeExpr → List String} {x : Module Class}
    (inside : ∀ t, used t ⊆ more t) (h : x.Recursive used) : x.Recursive more := by
  have leads (a b : String) (step : x.Leads used a b) : x.Leads more a b := by
    obtain ⟨c, hc, generic, named, t, ht, hb⟩ := step
    exact ⟨c, hc, generic, named, t, ht, inside t hb⟩
  obtain ⟨t, ht, name, hname, other, path, cycle⟩ := h
  exact ⟨t, ht, name, inside t hname, other, Relation.ReflTransGen.mono leads _ _ path,
    Relation.TransGen.mono leads _ _ cycle⟩

section Grounded

variable {s : Store} {x : Module ClassId}

/-- From the template of an instance there are no endless ways through templates. -/
private def Founded {τ : Type} [ClassTable τ] (table : τ) (name : String) : Prop :=
  ∀ base element, name = instanceName base element → Name.Simple base →
    Acc (fun b a => Needs table a b) base

private theorem acc_of_covers {u : Instantiation} {first : ClassId}
    (simple : ∀ name ∈ (s.load x).classNames, Name.Simple name)
    (sound : u.Sound (s.indexOf x) (fun _ => True) first)
    (founded : u.All fun _ name => Founded (s.indexOf x) name) {v base : TypeExpr} {name : String}
    (covers : u.CoversNode (s.indexOf x) v) (hb : v.base? = some base)
    (named : base.name? = some name) : Acc (fun b a => Needs (s.indexOf x) a b) name := by
  cases found : ClassTable.find? (s.indexOf x) name with
  | none =>
    refine Acc.intro name ?_
    rintro other ⟨o, known, -⟩
    rw [found] at known
    cases known
  | some o =>
    obtain ⟨usage, text, canonical, provided⟩ := covers (by rw [hb]; rfl)
    obtain ⟨id, target⟩ := target_of_provides simple usage canonical provided
    obtain ⟨i, hi, rfl, -⟩ := sound.mem_of_target? target
    rw [TypeExpr.isUsage_eq] at usage
    obtain ⟨⟨base', element⟩, usage⟩ := Option.isSome_iff_exists.1 usage
    rw [TypeExpr.base?_of_usage? usage] at hb
    cases hb
    refine founded i hi name element.text ?_ (simple_of_find? simple name o found)
    rw [TypeExpr.eq_instanceName usage canonical, TypeExpr.text_of_name? named]

private theorem founded_law (simple : ∀ name ∈ (s.load x).classNames, Name.Simple name)
    (firstOrder : (s.load x).FirstOrder) :
    InstanceLaw (s.indexOf x) (fun _ => True) fun _ name => Founded (s.indexOf x) name where
  extends_ _ h := h
  enters _ _ _ _ _ _ _ _ := trivial
  makes {u first v element name o p} sound founded _ _ _ choice inside := by
    intro base text named simple_base
    obtain ⟨rfl, -⟩ := instanceName_inj (simple_of_find? simple _ _ choice.known) simple_base
      (choice.named.symm.trans named)
    refine Acc.intro _ ?_
    rintro other ⟨q, known, t, ht, used⟩
    obtain rfl : o = q := Option.some.inj (choice.known.symm.trans known)
    obtain ⟨w, hw, base, hb, called⟩ := TypeExpr.mem_uses.1 used
    have covers := inside t ht (w.put p.name element) (TypeExpr.mapLeaves_mem_subterms hw)
    have usage : w.isUsage = true := by
      have leaf : w.isLeaf = false := by cases w <;> first | rfl | cases hb
      have image := (covers (TypeExpr.isSome_base?_put (by rw [hb]; rfl))).1
      exact (TypeExpr.isUsage_put leaf).symm.trans image
    obtain ⟨own, named, differ⟩ := firstOrder o.decl (Store.decl_mem_of_find? known)
      (by rw [Class.isGeneric, choice.param]; rfl) t ht w (List.mem_filter.2 ⟨hw, usage⟩) base hb
    obtain rfl : other = own := Option.some.inj (called.symm.trans named)
    have differ : other ≠ p.name := by
      rintro rfl
      exact differ (List.mem_map.2 ⟨p, by rw [choice.param]; exact List.mem_cons_self, rfl⟩)
    have image : (w.put p.name element).base? = some base :=
      TypeExpr.base?_put_of_ne hb called differ
    exact acc_of_covers simple sound founded covers image called

private theorem not_recursive (distinct : (s.load x).classNames.Nodup)
    (simple : ∀ name ∈ (s.load x).classNames, Name.Simple name)
    (firstOrder : (s.load x).FirstOrder) {y : Module ClassId} {s' : Store}
    (h : (instantiate x).run.run s = (.ok y, s')) :
    ¬ (s.load x).Recursive TypeExpr.uses := by
  obtain ⟨z, u, walk, -⟩ := walk_of_instantiate h
  have start : Instantiation.Sound (s.indexOf x) (fun _ => True) s.size { store := s } :=
    Instantiation.sound_start s
  obtain ⟨sound, -⟩ := walk.keeps (any_inScope _) (fun _ _ _ _ => trivial) start
  have founded := walk.instances (founded_law simple firstOrder) start
    (fun _ _ _ _ => trivial) fun _ hi => absurd hi List.not_mem_nil
  have needs (a b : String) (leads : (s.load x).Leads TypeExpr.uses a b) :
      Needs (s.indexOf x) a b := by
    obtain ⟨c, hc, -, rfl, t, ht, used⟩ := leads
    obtain ⟨o, found, rfl⟩ := find?_of_mem distinct hc
    exact ⟨o, found, t, ht, used⟩
  rintro ⟨t, ht, name, used, other, path, cycle⟩
  obtain ⟨w, hw, base, hb, named⟩ := TypeExpr.mem_uses.1 used
  have acc := acc_of_covers simple sound founded (walk.covers_all start t ht w hw) hb named
  exact not_transGen_of_acc acc (Relation.ReflTransGen.mono needs _ _ path)
    (Relation.TransGen.mono needs _ _ cycle)

private theorem follows_leads (simple : ∀ name ∈ (s.load x).classNames, Name.Simple name)
    (firstOrder : (s.load x).FirstOrder) :
    Follows (s.indexOf x) ((s.load x).Leads TypeExpr.applies) where
  simple := simple_of_find? simple
  body o p known param t ht u hu := by
    have member := Store.decl_mem_of_find? known
    have generic : o.decl.isGeneric = true := by rw [Class.isGeneric, param]; rfl
    have usage := (List.mem_filter.1 hu).2
    rw [TypeExpr.isUsage_eq] at usage
    obtain ⟨⟨base, element⟩, usage⟩ := Option.isSome_iff_exists.1 usage
    have hb := TypeExpr.base?_of_usage? usage
    obtain ⟨name, named, differ⟩ := firstOrder o.decl member generic t ht u hu base hb
    refine ⟨base, name, hb, named, ?_, o.decl, member, generic, rfl, t, ht,
      TypeExpr.mem_applies.2 ⟨u, hu, base, hb, named⟩⟩
    rintro rfl
    exact differ (List.mem_map.2 ⟨p, by rw [param]; exact List.mem_cons_self, rfl⟩)

private theorem not_reentered (simple : ∀ name ∈ (s.load x).classNames, Name.Simple name)
    (firstOrder : (s.load x).FirstOrder) (acyclic : ¬ (s.load x).Recursive TypeExpr.applies)
    (required outer : String) (s' : Store) :
    (instantiate x).run.run s ≠ (.error (.unsupported (.reentered required outer)), s') := by
  have spared := Module.unblocked (follows_leads simple firstOrder)
    fun t ht name applied other path =>
      ⟨rfl, fun cycle => acyclic ⟨t, ht, name, applied, other, path, cycle⟩⟩
  rw [run_instantiate]
  rcases walk : s.instantiateParts x with ⟨fault | z, u⟩
  · rintro ⟨⟩
    cases spared { store := s } _ (congrArg Prod.fst walk)
  · dsimp only
    rw [run_linkAll]
    cases (u.store.linkOwn (u.join z)).2.missing <;> exact nofun

/-- When the classes of a module have different names without brackets, and no usage in a generic
class has a parameter as its base, the check for recursion is exact: a module in which a cycle of
templates is reached is not instantiated, and a module in which none is reached is not refused for a
template that is under way. This is so whether usages with several arguments count or not. -/
theorem instantiate_refuses_recursion (distinct : (s.load x).classNames.Nodup)
    (simple : ∀ name ∈ (s.load x).classNames, Name.Simple name)
    (firstOrder : (s.load x).FirstOrder) {used : TypeExpr → List String}
    (counted : used = TypeExpr.uses ∨ used = TypeExpr.applies) :
    ((s.load x).Recursive used → ¬ ∃ y s', (instantiate x).run.run s = (.ok y, s')) ∧
      (¬ (s.load x).Recursive used → ∀ required outer s',
        (instantiate x).run.run s ≠ (.error (.unsupported (.reentered required outer)), s')) := by
  have narrow : ∀ t : TypeExpr, t.applies ⊆ used t ∧ used t ⊆ t.uses := by
    intro t
    rcases counted with rfl | rfl
    · exact ⟨t.applies_subset_uses, fun _ h => h⟩
    · exact ⟨fun _ h => h, t.applies_subset_uses⟩
  constructor
  · rintro recursive ⟨y, s', h⟩
    exact not_recursive distinct simple firstOrder h (recursive.mono fun t => (narrow t).2)
  · intro acyclic
    exact not_reentered simple firstOrder fun recursive =>
      acyclic (recursive.mono fun t => (narrow t).1)

private def knotted : Module Class where
  constants := [⟨"root", .container (.named "Tree") (.named "int")⟩]
  classes := [
    { name := "Tree", template := [⟨"T", .universal⟩],
      constants := [⟨"children", .container (.named "Forest") (.named "T")⟩] },
    { name := "Forest", template := [⟨"U", .universal⟩],
      constants := [⟨"trees", .generic (.unlinked "Box")
        [.container (.unlinked "Tree") (.container (.named "Box") (.named "U"))]⟩] },
    { name := "Box", template := [⟨"T", .universal⟩] }]

private def layered : Module Class where
  constants := [⟨"rack", .container (.named "Box") (.container (.named "Shelf") (.named "int"))⟩]
  classes := [
    { name := "Shelf", template := [⟨"U", .universal⟩],
      constants :=
        [⟨"boxes", .container (.named "Box") (.container (.named "Box") (.named "U"))⟩] },
    { name := "Box", template := [⟨"T", .universal⟩], constants := [⟨"item", .named "T"⟩] }]

theorem instantiate_refuses_recursion_knotted :
    let held := Store.hold {} knotted
    let other := Store.hold {} layered
    (¬ ∃ y s', (instantiate held.1).run.run held.2 = (.ok y, s')) ∧
      ∀ required outer s', (instantiate other.1).run.run other.2 ≠
        (.error (.unsupported (.reentered required outer)), s') := by
  intro held other
  have load : held.2.load held.1 = knotted := Store.load_hold _ _
  have load' : other.2.load other.1 = layered := Store.load_hold _ _
  constructor
  · refine (instantiate_refuses_recursion (by rw [load]; decide) (by rw [load]; decide)
      (by rw [load]; decide) (.inl rfl)).1 ?_
    have down : knotted.Leads TypeExpr.uses "Tree" "Forest" :=
      ⟨_, List.mem_cons_self, rfl, rfl, _, List.mem_cons_self, by decide⟩
    have up : knotted.Leads TypeExpr.uses "Forest" "Tree" :=
      ⟨_, List.mem_cons_of_mem _ List.mem_cons_self, rfl, rfl, _, List.mem_cons_self, by decide⟩
    rw [load]
    exact ⟨_, List.mem_cons_self, "Tree", by decide, "Tree", .refl, .tail (.single down) up⟩
  · refine (instantiate_refuses_recursion (by rw [load']; decide) (by rw [load']; decide)
      (by rw [load']; decide) (.inr rfl)).2 ?_
    have steps : ∀ c ∈ layered.classes, ∀ t ∈ c.bodyTypes, ∀ name ∈ t.applies,
        c.name = "Shelf" ∧ name = "Box" := by decide
    have leads (a b : String) (step : layered.Leads TypeExpr.applies a b) :
        a = "Shelf" ∧ b = "Box" := by
      obtain ⟨c, hc, -, rfl, t, ht, used⟩ := step
      exact steps c hc t ht b used
    rw [load']
    rintro ⟨t, ht, name, used, a, path, cycle⟩
    obtain ⟨b, first, -⟩ := Relation.TransGen.head'_iff.1 cycle
    obtain ⟨c, -, last⟩ := Relation.TransGen.tail'_iff.1 cycle
    have shelf := (leads a b first).1
    have box := (leads c a last).2
    exact absurd (shelf.symm.trans box) (by decide)

end Grounded
end InterfaceTree
