import InterfaceTree.Proofs.Stack
import InterfaceTree.Proofs.Steps

/-! # Order among instances -/
namespace InterfaceTree

section Backward

namespace Instantiation

/-- What the class is linked with is among these instances, under the name by which it is linked. -/
def LinkedAmong (made : List Instance) (c : Class) : Prop :=
  ∀ (reference : Reference) (target : ClassId), .ref reference ∈ c.leaves →
    reference.target = some target → ∃ j ∈ made, j.id = target ∧ j.name = reference.name

/-- Every instance is linked with instances strictly before it. -/
def Backward (s : Instantiation) : Prop :=
  ∀ made i rest, s.cache.toList = made ++ i :: rest → LinkedAmong made (s.store.read i.id)

variable {τ : Type} [ClassTable τ] {table : τ} {first : ClassId} {s : Instantiation}

theorem backward_nil (store : Store) : Backward { store } := by
  intro made i rest split
  exact absurd (congrArg List.length split) (by simp [InstanceCache.toList])

theorem Finished.linkedAmong {allowed : String → Prop} {name : String} {c : Class}
    (finished : s.Finished allowed name c) (sound : s.Sound table allowed first) :
    LinkedAmong s.cache.toList c := by
  intro reference target leaf linked
  obtain ⟨t, ht, leaf⟩ := List.mem_flatMap.1 leaf
  have settled := finished.settled t ht _ (List.mem_filter.1 leaf).1
  obtain ⟨j, hj, named, same⟩ := sound.mem_of_target? (settled target linked)
  exact ⟨j, hj, same, named⟩

theorem Backward.addObject (h : s.Backward) (sound : s.Sound table (fun _ => True) first)
    (c : Class) : (s.addObject c).2.Backward := by
  intro made i rest split
  have split : s.cache.toList = made ++ i :: rest := split
  have hi : i ∈ s.cache.toList := by rw [split]; exact List.mem_append_right _ List.mem_cons_self
  have same := (Extends.addObject s c).store.read_eq i.id (sound.new i hi).2
  rw [same]
  exact h made i rest split

theorem Backward.addInstance (h : s.Backward) (sound : s.Sound table (fun _ => True) first)
    {name : String} {c : Class} (finished : s.Finished (fun _ => True) name c) :
    (s.addInstance c).2.Backward := by
  intro made i rest split
  have kept {made rest : List Instance} (split : s.cache.toList = made ++ i :: rest) :
      LinkedAmong made ((s.addInstance c).2.store.read i.id) := by
    have hi : i ∈ s.cache.toList := by rw [split]; exact List.mem_append_right _ List.mem_cons_self
    rw [(Extends.addInstance s c).store.read_eq i.id (sound.new i hi).2]
    exact h _ _ _ split
  rw [Instantiation.addInstance, InstanceCache.toList_insert] at split
  split at split
  · exact kept split
  · -- the new instance is the last one
    rcases List.eq_nil_or_concat rest with rfl | ⟨rest, last, rfl⟩
    · obtain ⟨rfl, same⟩ := List.append_inj' split rfl
      obtain rfl := List.head_eq_of_cons_eq same
      have content : (s.addInstance c).2.store.read (s.store.add c).1 = c :=
        Store.read_add_self s.store c
      dsimp only
      rw [content]
      exact finished.linkedAmong sound
    · rw [List.concat_eq_append, ← List.cons_append, ← List.append_assoc] at split
      exact kept (List.append_inj' split rfl).1

end Instantiation

variable {τ : Type} [ClassTable τ] {table : τ} {first : ClassId} {s t : Instantiation}

theorem Steps.backward {named : String → Prop} (h : Steps table named s t)
    (sound : s.Sound table (fun _ => True) first) (start : s.Backward) : t.Backward := by
  induction h with
  | refl => exact start
  | make before finished _ _ ih => exact ih.addInstance (before.sound sound) finished
  | add before c ih => exact ih.addObject (before.sound sound) c

/-- The order is kept by every tree, and begins anew when a module takes the instances away. -/
theorem Instantiation.Backward.step (h : s.Backward) (sound : s.Sound table (fun _ => True) first)
    (n : Node Class) : Instantiation.Backward ((n.instantiate table).run.run s).2 := by
  rcases n.steps_instantiate sound with ⟨-, steps⟩ | ⟨x, z, u, -, -, -, run⟩
  · exact steps.backward sound h
  · rw [run]
    exact backward_nil u.store

theorem Instantiation.backward_after (table : τ) (store : Store) (calls : List (Node Class)) :
    (Instantiation.after table { store } calls).Backward := by
  have all : ∀ (calls : List (Node Class)) (s : Instantiation), s.Backward →
      s.Sound table (fun _ => True) store.size → (Instantiation.after table s calls).Backward := by
    intro calls
    induction calls with
    | nil => exact fun s start _ => start
    | cons n calls ih => exact fun s start sound => ih _ (start.step sound n) (sound.step n)
  exact all calls _ (backward_nil store) (sound_start store)

end Backward

section Orderly

/-- The instances have different names, each is found under its own and under no other, is not
generic, has no usage left in it, and is linked with instances before it. -/
structure Instantiation.Orderly (s : Instantiation) : Prop where
  distinct : (s.instances.map (·.name)).Nodup
  found : ∀ name i, s.cache.find? name = some i ↔
    i ∈ s.cache.toList ∧ (s.store.read i.id).name = name
  concrete : ∀ c ∈ s.instances, c.template = []
  usageFree : ∀ c ∈ s.instances, ∀ t ∈ c.types, ∀ u ∈ t.subterms,
    u.kind ≠ .containerType ∧ u.kind ≠ .genericType
  backward : s.Backward

variable {τ : Type} [ClassTable τ] {table : τ} {first : ClassId} {s : Instantiation}

theorem Instantiation.Sound.orderly (sound : s.Sound table (fun _ => True) first)
    (backward : s.Backward) : s.Orderly where
  distinct := by
    rw [sound.names_instances]
    exact sound.cache.nodup
  found name i := by
    constructor
    · intro found
      obtain ⟨hi, rfl⟩ := sound.cache.mem_of_find? found
      exact ⟨hi, (sound.finished i hi).name⟩
    · rintro ⟨hi, rfl⟩
      rw [(sound.finished i hi).name]
      exact sound.cache.find?_of_mem hi
  concrete c hc := by
    obtain ⟨i, hi, rfl⟩ := List.mem_map.1 hc
    exact (sound.finished i hi).template
  usageFree c hc t ht u hu := by
    obtain ⟨i, hi, rfl⟩ := List.mem_map.1 hc
    exact usageFree_of_settled ((sound.finished i hi).settled t ht) u hu
  backward := backward

end Orderly

section Calls

variable {τ : Type} [ClassTable τ] {table : τ} {first : ClassId} {s : Instantiation}

theorem Module.takes_instances (sound : s.Sound table (fun _ => True) first)
    (backward : s.Backward) {x : Module Class} {y : Node ClassId} {s' : Instantiation}
    (run : ((Node.module x).instantiate table).run.run s = (.ok y, s')) : ∃ kept u,
      (x.concrete.instantiateParts table).run.run s = (.ok kept, u) ∧
        y = .module (kept.addClasses (u.cache.toList.map (·.id))) ∧
        s.cache.toList <+: u.cache.toList ∧ u.Orderly ∧ s'.cache.size = 0 := by
  rcases (Node.module x).steps_instantiate sound with
    ⟨fails, -⟩ | ⟨_, kept, u, same, parts, steps, done⟩
  · exact absurd (congrArg Prod.fst run) (fails x y rfl)
  · cases same
    rw [run] at done
    cases done
    exact ⟨kept, u, parts, rfl, steps.isPrefix,
      (steps.sound sound).orderly (steps.backward sound backward), rfl⟩

theorem Node.leaves_instances (sound : s.Sound table (fun _ => True) first) {n : Node Class}
    (other : ∀ x y, n = .module x → ((n.instantiate table).run.run s).1 ≠ .ok y) :
    let s' := ((n.instantiate table).run.run s).2
    s.cache.size ≤ s'.cache.size ∧ s.cache.toList <+: s'.cache.toList ∧
      ∀ i ∈ s.cache.toList, s'.store.read i.id = s.store.read i.id := by
  rcases n.steps_instantiate sound with ⟨-, steps⟩ | ⟨x, kept, u, same, -, -, run⟩
  · refine ⟨?_, steps.isPrefix, fun i hi => steps.extends_.store.read_eq i.id (sound.new i hi).2⟩
    simpa [InstanceCache.toList, InstanceCache.size] using steps.isPrefix.length_le
  · exact absurd (congrArg Prod.fst run) (other x _ same)

end Calls

section Machine

variable {τ : Type} [ClassTable τ] (stop : Fault) (table : τ)

/-- Instantiates a tree with the stack at hand; there are as many templates under way as names at
the most. -/
def Instantiator.call (m : Instantiator) (n : Node Class) :
    Except Fault (Node ClassId) × Instantiator :=
  (n.instantiateStacked (Stacked.specialize stop table (ClassTable.names table).length)).run.run m

def Instantiator.after (m : Instantiator) (calls : List (Node Class)) : Instantiator :=
  calls.foldl (fun m n => (m.call stop table n).2) m

variable {table}

theorem Instantiator.call_eq (s : Instantiation) (n : Node Class) :
    Instantiator.call stop table ⟨s, []⟩ n =
      (((n.instantiate table).run.run s).1, ⟨((n.instantiate table).run.run s).2, []⟩) :=
  mirrors_instantiate (mirrors_specialize stop List.countP_le_length) n s

theorem Instantiator.after_eq (s : Instantiation) (calls : List (Node Class)) :
    Instantiator.after stop table ⟨s, []⟩ calls = ⟨s.after table calls, []⟩ := by
  induction calls generalizing s with
  | nil => rfl
  | cons n calls ih =>
    have step : (call stop table ⟨s, []⟩ n).2 = ⟨((n.instantiate table).run.run s).2, []⟩ :=
      congrArg Prod.snd (call_eq stop s n)
    rw [after, List.foldl_cons, step]
    exact ih _

/-- After any trees have been instantiated, successfully or not, and then one more, no template is
under way and the instances are in order. The last call has done what instantiation does. If it was
for a module and succeeded, the module has got all instances, those from before first, and none is
left; otherwise the instances from before are there still, as the same objects. -/
theorem instantiator_orderly (table : τ) (store : Store) (calls : List (Node Class))
    (n : Node Class) :
    let m := Instantiator.after stop table { work := { store } } calls
    let result := (m.call stop table n).1
    let m' := (m.call stop table n).2
    (result, m'.work) = (n.instantiate table).run.run m.work ∧
      m'.active = [] ∧ m'.work.Orderly ∧
      (∀ x y, n = .module x → result = .ok y → ∃ kept u,
        (x.concrete.instantiateParts table).run.run m.work = (.ok kept, u) ∧
          y = .module (kept.addClasses (u.cache.toList.map (·.id))) ∧
          m.work.cache.toList <+: u.cache.toList ∧ u.Orderly ∧ m'.work.cache.size = 0) ∧
      ((∀ x y, n = .module x → result ≠ .ok y) →
        m.work.cache.size ≤ m'.work.cache.size ∧ m.work.cache.toList <+: m'.work.cache.toList ∧
          ∀ i ∈ m.work.cache.toList, m'.work.store.read i.id = m.work.store.read i.id) := by
  intro m result m'
  have before : m = ⟨Instantiation.after table { store } calls, []⟩ :=
    Instantiator.after_eq stop _ calls
  have sound := Instantiation.sound_after table store calls
  have backward := Instantiation.backward_after table store calls
  generalize Instantiation.after table { store } calls = s at before sound backward
  have call : m.call stop table n = (((n.instantiate table).run.run s).1,
      ⟨((n.instantiate table).run.run s).2, []⟩) := by
    rw [before]
    exact Instantiator.call_eq stop s n
  have value : result = ((n.instantiate table).run.run s).1 := congrArg Prod.fst call
  have final : m' = ⟨((n.instantiate table).run.run s).2, []⟩ := congrArg Prod.snd call
  clear_value result m' m
  subst before value final
  refine ⟨rfl, rfl, (sound.step n).orderly (backward.step sound n), ?_,
    fun other => Node.leaves_instances sound other⟩
  rintro x y rfl succeeds
  exact Module.takes_instances sound backward (Prod.ext succeeds rfl)

end Machine
end InterfaceTree
