import InterfaceTree.Proofs.Failing
import InterfaceTree.Proofs.Origin

/-!
# The steps of a run

What the two kinds of steps keep is kept by all runs, one after the other.
-/
namespace InterfaceTree

section Steps

variable {τ : Type} [ClassTable τ] (table : τ) (named : String → Prop)

/-- From the first state to the second by storing instances of such names and by adding objects. -/
inductive Steps : Instantiation → Instantiation → Prop
  | refl (s : Instantiation) : Steps s s
  | make {s t : Instantiation} {name : String} {c : Class} (before : Steps s t)
      (finished : t.Finished (fun _ => True) name c) (fresh : isMadeBefore table name = false)
      (allowed : named name) : Steps s (t.addInstance c).2
  | add {s t : Instantiation} (before : Steps s t) (c : Class) : Steps s (t.addObject c).2

namespace Steps

variable {table named} {s t u : Instantiation}

theorem trans (h : Steps table named s t) (h' : Steps table named t u) :
    Steps table named s u := by
  induction h' with
  | refl => exact h
  | make _ finished fresh allowed ih => exact ih.make finished fresh allowed
  | add _ c ih => exact ih.add c

theorem imp {others : String → Prop} (h : Steps table named s t)
    (weaker : ∀ name, named name → others name) : Steps table others s t := by
  induction h with
  | refl => exact .refl _
  | make _ finished fresh allowed ih => exact ih.make finished fresh (weaker _ allowed)
  | add _ c ih => exact ih.add c

theorem extends_ (h : Steps table named s t) : s.Extends t := by
  induction h with
  | refl => exact .refl _
  | make _ _ _ _ ih => exact ih.trans (.addInstance _ _)
  | add _ c ih => exact ih.trans (.addObject _ c)

theorem sound {first : ClassId} (h : Steps table named s t)
    (sound : s.Sound table (fun _ => True) first) : t.Sound table (fun _ => True) first := by
  induction h with
  | refl => exact sound
  | make _ finished fresh _ ih => exact (ih.addInstance finished fresh).1
  | add _ c ih => exact ih.addObject c

theorem name_of_mem (h : Steps table named s t) {i : Instance} (hi : i ∈ t.cache.toList) :
    i ∈ s.cache.toList ∨ named i.name := by
  induction h with
  | refl => exact .inl hi
  | make _ finished _ allowed ih =>
    rcases Instantiation.mem_addInstance hi with old | rfl
    · exact ih old
    · rw [finished.name]
      exact .inr allowed
  | add _ _ ih => exact ih hi

theorem isPrefix (h : Steps table named s t) : s.cache.toList <+: t.cache.toList := by
  induction h with
  | refl => exact List.prefix_rfl
  | @make s name c _ _ _ _ ih =>
    refine ih.trans ?_
    rw [Instantiation.addInstance, InstanceCache.toList_insert]
    split
    · exact List.prefix_rfl
    · exact List.prefix_append _ _
  | add _ _ ih => exact ih

end Steps
end Steps

section Runs

variable {τ : Type} [ClassTable τ] {table : τ} {active : List Active} {first : ClassId}
  {s s' : Instantiation}

/-- The name is that of an instance of a template that is not under way. -/
def MadeOutside (table : τ) (active : List Active) (name : String) : Prop :=
  ∃ (o : ClassObject) (text : String), ClassTable.find? table o.decl.name = some o ∧
    o.decl.isGeneric = true ∧ Active.find? active o.decl.name = none ∧
      name = instanceName o.decl.name text

theorem MadeOutside.of_cons {a : Active} {name : String}
    (h : MadeOutside table (a :: active) name) : MadeOutside table active name := by
  obtain ⟨o, text, known, generic, idle, named⟩ := h
  refine ⟨o, text, known, generic, ?_, named⟩
  rw [Active.find?, List.find?_cons] at idle
  split at idle
  · cases idle
  · exact idle

theorem isGeneric_of_param {c : Class} {p : TemplateItem} (param : c.template = [p]) :
    c.isGeneric = true := by
  rw [Class.isGeneric, param]
  rfl

theorem madeOutside_of_chosen {base element : TypeExpr} {name : String} {template : ClassObject}
    {p : TemplateItem} (text : (TypeExpr.container base element).canonical = .ok name)
    (chosen : templateOf table active base name = .ok template)
    (param : template.decl.template = [p]) : MadeOutside table active name := by
  obtain ⟨-, known, idle⟩ := templateOf_eq_ok_iff.1 chosen
  exact ⟨template, _, known, isGeneric_of_param param, idle, (name_of_chosen text chosen).2⟩

/-- A successful walk is made of steps, none of which makes an instance of a template under way. -/
theorem Walks.steps {ts us : List TypeExpr} (h : Walks table active s ts us s')
    (sound : s.Sound table (fun _ => True) first) :
    Steps table (MadeOutside table active) s s' := by
  induction h with
  | nil => exact .refl _
  | named rest ih => exact ih sound
  | ref rest ih => exact ih sound
  | union inside rest inside_ih rest_ih =>
    have inside := inside_ih sound
    exact inside.trans (rest_ih (inside.sound sound))
  | inter inside rest inside_ih rest_ih =>
    have inside := inside_ih sound
    exact inside.trans (rest_ih (inside.sound sound))
  | found usage parts text provided rest parts_ih rest_ih =>
    have parts := parts_ih sound
    exact parts.trans (rest_ih (parts.sound sound))
  | @made active s s₁ s₂ s₃ s' ts us types u base element base' element' name template p id
      usage parts text absent chosen param body stored rest parts_ih body_ih rest_ih =>
    have parts := parts_ih sound
    have sound₁ := parts.sound sound
    have inside := (body_ih sound₁).imp fun _ => MadeOutside.of_cons
    obtain ⟨-, -, covers, rfl⟩ := body.keeps_any sound₁
    rw [Class.refill_map] at stored
    obtain rfl := congrArg Prod.snd stored
    have fresh : isMadeBefore table name = false := by
      rw [← Bool.not_eq_true]
      exact fun before => absent (.inl before)
    have before := parts.trans inside
    have made := before.make (Instantiation.finished_rewrite rfl covers fun _ _ _ _ => trivial)
      fresh (madeOutside_of_chosen text chosen param)
    exact made.trans (rest_ih (made.sound sound))

theorem Fails.steps {fault : Fault} {ts : List TypeExpr} (h : Fails table active s ts fault s')
    (sound : s.Sound table (fun _ => True) first) :
    Steps table (MadeOutside table active) s s' := by
  induction h with
  | later head rest ih =>
    have head := head.steps sound
    exact head.trans (ih (head.sound sound))
  | union inside ih => exact ih sound
  | inter inside ih => exact ih sound
  | parts usage inside ih => exact ih sound
  | refused usage parts refusal => exact parts.steps sound
  | body usage parts text absent chosen param inside ih =>
    have parts := parts.steps sound
    exact parts.trans ((ih (parts.sound sound)).imp fun _ => MadeOutside.of_cons)
  | listed many inside ih => exact ih sound
  | list many parts refusal => exact parts.steps sound

end Runs

section Trees

variable {τ : Type} [ClassTable τ] {table : τ} {first : ClassId} {α β : Type}

def Stepwise (table : τ) (run : Instantiating α) : Prop :=
  ∀ (first : ClassId) (s : Instantiation), s.Sound table (fun _ => True) first →
    Steps table (fun _ => True) s (run.run.run s).2

namespace Stepwise

theorem of_gives {x : Instantiating α} (h : Stepwise table x) {s t : Instantiation} {a : α}
    (sound : s.Sound table (fun _ => True) first) (run : Gives x s a t) :
    Steps table (fun _ => True) s t := by
  have steps := h first s sound
  rw [Gives] at run
  rwa [run] at steps

theorem of_breaks {x : Instantiating α} (h : Stepwise table x) {s t : Instantiation}
    {fault : Fault} (sound : s.Sound table (fun _ => True) first) (run : Breaks x s fault t) :
    Steps table (fun _ => True) s t := by
  have steps := h first s sound
  rw [Breaks] at run
  rwa [run] at steps

theorem pure (a : α) : Stepwise table (Pure.pure a : Instantiating α) := fun _ s _ => .refl s

theorem addObject (c : Class) : Stepwise table (modifyGet (Instantiation.addObject c)) :=
  fun _ s _ => (Steps.refl s).add c

theorem bind {x : Instantiating α} {f : α → Instantiating β} (hx : Stepwise table x)
    (hf : ∀ a, Stepwise table (f a)) : Stepwise table (x >>= f) := by
  intro first s sound
  rw [exceptT_run_bind]
  rcases run : x.run.run s with ⟨fault | a, t⟩
  · exact hx.of_breaks sound run
  · have head := hx.of_gives sound run
    exact head.trans (hf a first t (head.sound sound))

theorem map {x : Instantiating α} (f : α → β) (hx : Stepwise table x) :
    Stepwise table (f <$> x) := by
  rw [map_eq_pure_bind]
  exact hx.bind fun a => .pure (f a)

theorem mapM {f : α → Instantiating β} (h : ∀ a, Stepwise table (f a)) (as : List α) :
    Stepwise table (as.mapM f) := by
  induction as with
  | nil => exact .pure []
  | cons a as ih =>
    rw [List.mapM_cons]
    exact (h a).bind fun b => ih.bind fun bs => .pure (b :: bs)

theorem specializeAll (ts : List TypeExpr) : Stepwise table (specializeAll table [] ts) := by
  intro first s sound
  rcases run : (InterfaceTree.specializeAll table [] ts).run.run s with ⟨fault | us, t⟩
  · exact ((fails_iff_breaks.2 run).steps sound).imp fun _ _ => trivial
  · exact ((walks_iff_gives.2 run).steps sound).imp fun _ _ => trivial

end Stepwise

theorem Class.stepwise_instantiate (c : Class) : Stepwise table (c.instantiate table) := by
  rw [instantiate, usageRebuilder, Class.rebuildM_eq_refill]
  exact ((Stepwise.specializeAll c.types).map c.refill).bind .addObject

theorem Module.stepwise_instantiateParts (x : Module Class) :
    Stepwise table (x.instantiateParts table) := by
  have constants (c : Constant) : Stepwise table (c.rebuildM (usageRebuilder table)) := by
    rw [usageRebuilder, Constant.rebuildM_eq_refill]
    exact (Stepwise.specializeAll c.types).map c.refill
  have functions (f : Function) : Stepwise table (f.rebuildM (usageRebuilder table)) := by
    rw [usageRebuilder, Function.rebuildM_eq_refill]
    exact (Stepwise.specializeAll f.types).map f.refill
  exact (Stepwise.mapM constants _).bind fun _ => (Stepwise.mapM functions _).bind fun _ =>
    (Stepwise.mapM Class.stepwise_instantiate _).bind fun _ => .pure _

/-- A tree other than a module is walked over by the list of its types. -/
theorem Node.instantiate_eq_refill (table : τ) (n : Node Class) : (∃ x, n = .module x) ∨
    (∀ x, n ≠ .module x) ∧ ∃ (types : List TypeExpr) (refill : List TypeExpr → Node ClassId),
      n.instantiate table = refill <$> specializeAll table [] types := by
  cases n with
  | module x => exact .inl ⟨x, rfl⟩
  | constant c =>
    refine .inr ⟨by rintro _ ⟨⟩, c.types, fun ts => .constant (c.refill ts), ?_⟩
    rw [instantiate, usageRebuilder, Constant.rebuildM_eq_refill, Functor.map_map]
  | function f =>
    refine .inr ⟨by rintro _ ⟨⟩, f.types, fun ts => .function (f.refill ts), ?_⟩
    rw [instantiate, usageRebuilder, Function.rebuildM_eq_refill, Functor.map_map]
  | signature g =>
    refine .inr ⟨by rintro _ ⟨⟩, g.types, fun ts => .signature (g.refill ts), ?_⟩
    rw [instantiate, usageRebuilder, Signature.rebuildM_eq_refill, Functor.map_map]
  | parameter p =>
    refine .inr ⟨by rintro _ ⟨⟩, p.types, fun ts => .parameter (p.refill ts), ?_⟩
    rw [instantiate, usageRebuilder, Parameter.rebuildM_eq_refill, Functor.map_map]
  | classDecl c =>
    refine .inr ⟨by rintro _ ⟨⟩, c.types, fun ts => .classDecl (c.refill ts), ?_⟩
    rw [instantiate, usageRebuilder, Class.rebuildM_eq_refill, Functor.map_map]
  | templateItem i =>
    refine .inr ⟨by rintro _ ⟨⟩, i.types, fun ts => .templateItem (i.refill ts), ?_⟩
    rw [instantiate, usageRebuilder, TemplateItem.rebuildM_eq_refill, Functor.map_map]
  | type t =>
    refine .inr ⟨by rintro _ ⟨⟩, [t], fun ts => .type (ts.headD t), ?_⟩
    simp [instantiate, usageRebuilder]

/-- The state of one instantiation after trees have been instantiated with it one after the other,
some successfully and some not. -/
def Instantiation.after (table : τ) (s : Instantiation) (calls : List (Node Class)) :
    Instantiation :=
  calls.foldl (fun s n => ((n.instantiate table).run.run s).2) s

theorem Instantiation.Sound.emptied {u : Instantiation}
    (h : u.Sound table (fun _ => True) first) :
    Instantiation.Sound table (fun _ => True) first { u with cache := {} } where
  cache := InstanceCache.sound_empty
  size := h.size
  fresh _ hi := absurd hi List.not_mem_nil
  new _ hi := absurd hi List.not_mem_nil
  finished _ hi := absurd hi List.not_mem_nil

/-- Only a module that has been walked over to its end takes the instances away: those made before
and those made on the way. -/
theorem Node.steps_instantiate (n : Node Class) {s : Instantiation}
    (sound : s.Sound table (fun _ => True) first) :
    (∀ x y, n = .module x → ((n.instantiate table).run.run s).1 ≠ .ok y) ∧
        Steps table (fun _ => True) s ((n.instantiate table).run.run s).2 ∨
      ∃ x z u, n = .module x ∧ (x.concrete.instantiateParts table).run.run s = (.ok z, u) ∧
        Steps table (fun _ => True) s u ∧
          (n.instantiate table).run.run s = (.ok (.module (u.join z)), { u with cache := {} }) := by
  rcases n.instantiate_eq_refill table with ⟨x, rfl⟩ | ⟨other, types, refill, walk⟩
  · have parts := x.concrete.stepwise_instantiateParts first s sound
    rw [instantiate, map_eq_pure_bind, exceptT_run_bind, Module.run_instantiate]
    rcases run : (x.concrete.instantiateParts table).run.run s with ⟨fault | z, u⟩ <;>
      rw [run] at parts
    · exact .inl ⟨by rintro _ _ _ ⟨⟩, parts⟩
    · exact .inr ⟨x, z, u, rfl, run, parts, rfl⟩
  · refine .inl ⟨fun x _ same => absurd same (other x), ?_⟩
    rw [walk]
    exact (Stepwise.specializeAll types).map refill first s sound

theorem Instantiation.Sound.step {s : Instantiation} (h : s.Sound table (fun _ => True) first)
    (n : Node Class) :
    Instantiation.Sound table (fun _ => True) first ((n.instantiate table).run.run s).2 := by
  rcases n.steps_instantiate h with ⟨-, steps⟩ | ⟨x, z, u, -, -, steps, run⟩
  · exact steps.sound h
  · rw [run]
    exact (steps.sound h).emptied

theorem Instantiation.sound_after (table : τ) (store : Store) (calls : List (Node Class)) :
    (Instantiation.after table { store } calls).Sound table (fun _ => True) store.size := by
  have all : ∀ (calls : List (Node Class)) (s : Instantiation),
      s.Sound table (fun _ => True) store.size →
        (Instantiation.after table s calls).Sound table (fun _ => True) store.size := by
    intro calls
    induction calls with
    | nil => exact fun s sound => sound
    | cons n calls ih => exact fun s sound => ih _ (sound.step n)
  exact all calls _ (sound_start store)

end Trees
end InterfaceTree
