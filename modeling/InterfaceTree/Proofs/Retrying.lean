import InterfaceTree.Proofs.Covered
import InterfaceTree.Proofs.Reading
import InterfaceTree.Proofs.Steps

/-!
# Failing again

The instance whose making failed is still not there: what was made on the way was made while its
template was under way, so it is of another template.
-/
namespace InterfaceTree

section Again

variable {τ : Type} [ClassTable τ] {table : τ} {active : List Active} {first : ClassId}
  {s s₁ s' : Instantiation} {fault : Fault}

/-- What was walked over is walked over again with the same result, and no instance is made. -/
theorem Walks.again {ts us : List TypeExpr} (h : Walks table active s ts us s₁)
    (sound : s.Sound table (fun _ => True) first) (grown : s₁.Extends s')
    (sound' : s'.Sound table (fun _ => True) first) (store : Store) :
    Walks table active ⟨store, s'.cache⟩ ts us ⟨store, s'.cache⟩ := by
  have all := h.covers_all sound
  obtain ⟨-, -, covers, rfl⟩ := h.keeps_any sound
  have same : ts.map s₁.rewrite = ts.map s'.rewrite :=
    List.map_congr_left fun t ht => (sound'.rewrite_extends grown (covers t ht)).symm
  rw [same]
  have again : ∀ t ∈ ts, s'.CoversAll table t := fun t ht => (all t ht).extends_ grown
  -- only the instances matter, not the other objects in the store
  exact walks_of_coversAll (show ∀ t ∈ ts, Instantiation.CoversAll table ⟨store, s'.cache⟩ t from
    again)

theorem Refuses.again {base element : TypeExpr} (h : Refuses table active s base element fault)
    (store : Store) : Refuses table active ⟨store, s.cache⟩ base element fault := by
  cases h with
  | unnamed text => exact .unnamed text
  | unchosen text absent refusal => exact .unchosen text absent refusal
  | unbound text absent chosen arity => exact .unbound text absent chosen arity

def SimpleTemplates (table : τ) : Prop :=
  ∀ (name : String) (o : ClassObject), ClassTable.find? table name = some o →
    o.decl.isGeneric = true → Name.Simple name

/-- While a template is under way, the instance that it is entered for is not made. -/
theorem absent_of_steps (simple : SimpleTemplates table) {o : ClassObject} {name text : String}
    (known : ClassTable.find? table o.decl.name = some o) (generic : o.decl.isGeneric = true)
    (named : name = instanceName o.decl.name text)
    (sound : s.Sound table (fun _ => True) first)
    (steps : Steps table (MadeOutside table (⟨o.decl.name, name⟩ :: active)) s s')
    (absent : ¬ s.Provides table name) : ¬ s'.Provides table name := by
  rintro (before | ⟨id, target⟩)
  · exact absent (.inl before)
  · obtain ⟨i, hi, same, -⟩ := (steps.sound sound).mem_of_target? target
    rcases steps.name_of_mem hi with old | ⟨other, text', known', generic', idle, named'⟩
    · refine absent (.inr ⟨i.id, ?_⟩)
      rw [Instantiation.target?, ← same, sound.cache.find?_of_mem old]
      rfl
    · rw [same, named] at named'
      obtain ⟨bases, -⟩ := instanceName_inj (simple _ _ known generic)
        (simple _ _ known' generic') named'
      rw [← bases] at idle
      simp [Active.find?] at idle

theorem Fails.again (simple : SimpleTemplates table) {ts : List TypeExpr}
    (h : Fails table active s ts fault s') (sound : s.Sound table (fun _ => True) first)
    (store : Store) :
    Fails table active ⟨store, s'.cache⟩ ts fault ⟨store, s'.cache⟩ := by
  induction h with
  | later head rest ih =>
    have sound₁ := (head.steps sound).sound sound
    have tail := rest.steps sound₁
    exact .later (head.again sound tail.extends_ (tail.sound sound₁) store) (ih sound₁)
  | union inside ih => exact .union (ih sound)
  | inter inside ih => exact .inter (ih sound)
  | parts usage inside ih => exact .parts usage (ih sound)
  | refused usage parts refusal =>
    have sound' := (parts.steps sound).sound sound
    exact .refused usage (parts.again sound (.refl _) sound' store) (refusal.again store)
  | body usage parts text absent chosen param inside ih =>
    have sound₁ := (parts.steps sound).sound sound
    have steps := inside.steps sound₁
    obtain ⟨-, known, -⟩ := templateOf_eq_ok_iff.1 chosen
    -- what is made inside is of other templates, so none of it has the name that is still missing
    have absent' := absent_of_steps simple known (isGeneric_of_param param)
      (name_of_chosen text chosen).2 sound₁ steps absent
    exact .body usage (parts.again sound steps.extends_ (steps.sound sound₁) store) text absent'
      chosen param (ih sound₁)
  | listed many inside ih => exact .listed many (ih sound)
  | list many parts refusal =>
    have sound' := (parts.steps sound).sound sound
    exact .list many (parts.again sound (.refl _) sound' store) refusal

end Again

section Repeats

variable {τ : Type} [ClassTable τ] {table : τ} {α β : Type}

/-- Where there are the instances that the first run has left behind, the second fails with the
fault with which the first has failed, and succeeds if the first has succeeded. It makes no
instance. -/
structure Repeats (table : τ) (x y : Instantiating α) : Prop where
  steps : Stepwise table x
  fails : ∀ {first : ClassId} {s s' : Instantiation} {fault : Fault},
    s.Sound table (fun _ => True) first → Breaks x s fault s' → ∀ store, ∃ store',
      Breaks y ⟨store, s'.cache⟩ fault ⟨store', s'.cache⟩ ∧ store.Extends store'
  gives : ∀ {first : ClassId} {s s₁ s' : Instantiation} {a : α},
    s.Sound table (fun _ => True) first → Gives x s a s₁ → s₁.Extends s' →
      s'.Sound table (fun _ => True) first → ∀ store, ∃ b store',
        Gives y ⟨store, s'.cache⟩ b ⟨store', s'.cache⟩ ∧ store.Extends store'

namespace Repeats

theorem pure (a b : α) : Repeats table (Pure.pure a) (Pure.pure b) where
  steps := .pure a
  fails _ h := absurd h not_breaks_pure
  gives _ _ _ _ store := ⟨b, store, gives_pure_iff.2 ⟨rfl, rfl⟩, .refl store⟩

theorem addObject (c d : Class) : Repeats table (modifyGet (Instantiation.addObject c))
    (modifyGet (Instantiation.addObject d)) where
  steps := .addObject c
  fails _ h := absurd h not_breaks_modifyGet
  gives _ _ _ _ store := ⟨_, _, gives_modifyGet_iff.2 rfl, .add store d⟩

theorem bind {x y : Instantiating α} {f g : α → Instantiating β} (hx : Repeats table x y)
    (hf : ∀ a b, Repeats table (f a) (g b)) : Repeats table (x >>= f) (y >>= g) where
  steps := hx.steps.bind fun a => (hf a a).steps
  fails sound h store := by
    rcases breaks_bind_iff.1 h with h | ⟨a, u, ha, h⟩
    · obtain ⟨store', again, grown⟩ := hx.fails sound h store
      exact ⟨store', breaks_bind_iff.2 (.inl again), grown⟩
    · have sound₁ := (hx.steps.of_gives sound ha).sound sound
      have tail := (hf a a).steps.of_breaks sound₁ h
      obtain ⟨b, store₁, hb, grown⟩ :=
        hx.gives sound ha tail.extends_ (tail.sound sound₁) store
      obtain ⟨store', again, grown'⟩ := (hf a b).fails sound₁ h store₁
      exact ⟨store', breaks_bind_iff.2 (.inr ⟨b, _, hb, again⟩), grown.trans grown'⟩
  gives sound h grown sound' store := by
    obtain ⟨a, u, ha, h⟩ := gives_bind_iff.1 h
    have sound₁ := (hx.steps.of_gives sound ha).sound sound
    have tail := (hf a a).steps.of_gives sound₁ h
    obtain ⟨b, store₁, hb, grown₁⟩ :=
      hx.gives sound ha (tail.extends_.trans grown) sound' store
    obtain ⟨c, store₂, hc, grown₂⟩ := (hf a b).gives sound₁ h grown sound' store₁
    exact ⟨c, store₂, gives_bind_iff.2 ⟨b, _, hb, hc⟩, grown₁.trans grown₂⟩

theorem map {x y : Instantiating α} (f : α → β) (hx : Repeats table x y) :
    Repeats table (f <$> x) (f <$> y) := by
  rw [map_eq_pure_bind, map_eq_pure_bind]
  exact hx.bind fun a b => .pure (f a) (f b)

theorem mapM {f : α → Instantiating β} (h : ∀ a, Repeats table (f a) (f a)) (as : List α) :
    Repeats table (as.mapM f) (as.mapM f) := by
  induction as with
  | nil => exact .pure [] []
  | cons a as ih =>
    rw [List.mapM_cons]
    exact (h a).bind fun b c => ih.bind fun bs cs => .pure (b :: bs) (c :: cs)

theorem specializeAll (simple : SimpleTemplates table) (ts : List TypeExpr) :
    Repeats table (specializeAll table [] ts) (InterfaceTree.specializeAll table [] ts) where
  steps := .specializeAll ts
  fails sound h store := by
    have again := (fails_iff_breaks.2 h).again simple sound store
    exact ⟨store, fails_iff_breaks.1 again, .refl store⟩
  gives sound h grown sound' store := by
    have again := (walks_iff_gives.2 h).again sound grown sound' store
    exact ⟨_, store, walks_iff_gives.1 again, .refl store⟩

end Repeats

theorem Module.repeats_instantiateParts (simple : SimpleTemplates table) (x : Module Class) :
    Repeats table (x.instantiateParts table) (x.instantiateParts table) := by
  have constants (c : Constant) :
      Repeats table (c.rebuildM (usageRebuilder table)) (c.rebuildM (usageRebuilder table)) := by
    rw [usageRebuilder, Constant.rebuildM_eq_refill]
    exact (Repeats.specializeAll simple c.types).map c.refill
  have functions (f : Function) :
      Repeats table (f.rebuildM (usageRebuilder table)) (f.rebuildM (usageRebuilder table)) := by
    rw [usageRebuilder, Function.rebuildM_eq_refill]
    exact (Repeats.specializeAll simple f.types).map f.refill
  have classes (c : Class) : Repeats table (c.instantiate table) (c.instantiate table) := by
    rw [Class.instantiate, usageRebuilder, Class.rebuildM_eq_refill]
    exact ((Repeats.specializeAll simple c.types).map c.refill).bind .addObject
  exact (Repeats.mapM constants _).bind fun _ _ => (Repeats.mapM functions _).bind fun _ _ =>
    (Repeats.mapM classes _).bind fun _ _ => .pure _ _

end Repeats

section Trees

variable {τ : Type} [ClassTable τ] {table : τ}

theorem Module.breaks_instantiate_iff {x : Module Class} {s s' : Instantiation} {fault : Fault} :
    Breaks (x.instantiate table) s fault s' ↔
      Breaks (x.concrete.instantiateParts table) s fault s' := by
  rw [Breaks, Breaks, Module.run_instantiate]
  rcases (x.concrete.instantiateParts table).run.run s with ⟨other | z, u⟩
  · rfl
  · constructor <;> rintro ⟨⟩

/-- A tree that could not be instantiated cannot be instantiated in a second attempt either,
whatever has been instantiated before: the second attempt fails with the same fault, and leaves the
instances as the first one has left them. -/
theorem instantiate_fails_again (table : τ)
    (simple : ∀ (name : String) (o : ClassObject), ClassTable.find? table name = some o →
      o.decl.isGeneric = true → '<' ∉ name.toList)
    (store : Store) (calls : List (Node Class)) (n : Node Class) (fault : Fault)
    (s' : Instantiation)
    (failed : (n.instantiate table).run.run (Instantiation.after table { store } calls) =
      (.error fault, s')) :
    ∃ s'', (n.instantiate table).run.run s' = (.error fault, s'') ∧ s''.cache = s'.cache ∧
      ∀ i ∈ s'.cache.toList, s''.store.read i.id = s'.store.read i.id := by
  have sound := Instantiation.sound_after table store calls
  have sound' := sound.step n
  rw [failed] at sound'
  suffices again : ∃ later, Breaks (n.instantiate table) s' fault ⟨later, s'.cache⟩ ∧
      s'.store.Extends later by
    obtain ⟨later, again, grown⟩ := again
    exact ⟨⟨later, s'.cache⟩, again, rfl, fun i hi => grown.read_eq i.id (sound'.new i hi).2⟩
  rcases n.instantiate_eq_refill table with ⟨x, rfl⟩ | ⟨-, types, refill, walk⟩
  · have parts := Module.breaks_instantiate_iff.1 (breaks_map_iff.1 failed)
    obtain ⟨later, again, grown⟩ :=
      (x.concrete.repeats_instantiateParts simple).fails sound parts s'.store
    exact ⟨later, breaks_map_iff.2 (Module.breaks_instantiate_iff.2 again), grown⟩
  · rw [walk] at failed ⊢
    exact ((Repeats.specializeAll simple types).map refill).fails sound failed s'.store

/-- A template that the table knows, and one that it does not. -/
private def crated : List ClassObject := [
  ⟨0, { name := "Box", template := [⟨"T", .universal⟩], constants := [⟨"item", .named "T"⟩] }⟩,
  ⟨1, { name := "Peg" }⟩]

theorem instantiate_fails_again_crated :
    let box (element : TypeExpr) : TypeExpr := .container (.named "Box") element
    let crate : TypeExpr := .container (.named "Crate") (.named "Peg")
    let n : Node Class := .module { constants := [⟨"box", box (.named "Peg")⟩], classes := [
      { name := "Peg", parents := [box (box (.named "Peg"))] },
      { name := "Rack", parents := [.union [box .universal, crate]] }] }
    let before := Instantiation.after crated { store := {} }
      [.type (box .universal), .type crate]
    let fault := UnknownClass.toFault ⟨"Crate"⟩
    ∃ s' s'', (n.instantiate crated).run.run before = (.error fault, s') ∧
      s'.cache.toList.map (·.name) = ["Box<object>", "Box<Peg>", "Box<Box<Peg>>"] ∧
      (n.instantiate crated).run.run s' = (.error fault, s'') ∧ s''.cache = s'.cache := by
  intro box crate n before fault
  have outcome : (match (n.instantiate crated).run.run before with
      | (.ok _, _) => false
      | (.error other, s') => decide (other = fault ∧
          s'.cache.toList.map (·.name) = ["Box<object>", "Box<Peg>", "Box<Box<Peg>>"])) = true := by
    decide +kernel
  have simple : ∀ (name : String) (o : ClassObject), ClassTable.find? crated name = some o →
      o.decl.isGeneric = true → '<' ∉ name.toList := by
    intro name o found _
    have member : o ∈ crated :=
      List.mem_of_find?_eq_some (show findObject? crated name = some o from found)
    rw [← ClassTable.name_of_find? found]
    have all : ∀ o ∈ crated, '<' ∉ o.decl.name.toList := by decide
    exact all o member
  rcases run : (n.instantiate crated).run.run before with ⟨other | y, s'⟩ <;> rw [run] at outcome
  · obtain ⟨same_fault, names⟩ := of_decide_eq_true outcome
    rw [same_fault] at run
    obtain ⟨s'', again, same, -⟩ := instantiate_fails_again crated simple _ _ n fault s' run
    exact ⟨s', s'', by rw [same_fault], names, again, same⟩
  · cases outcome

end Trees
end InterfaceTree
