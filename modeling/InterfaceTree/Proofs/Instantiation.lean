import InterfaceTree.Proofs.Linking
import InterfaceTree.Proofs.Specialization

/-! # Instantiating a module -/
namespace InterfaceTree

/-- The module without its generic classes. -/
def Module.concrete (x : Module Class) : Module Class :=
  { x with classes := x.classes.filter fun c => !c.isGeneric }

theorem Module.template_of_mem_concrete {x : Module Class} {c : Class}
    (h : c ∈ x.concrete.classes) : c.template = [] := by
  simpa [Class.isGeneric] using (List.mem_filter.1 h).2

theorem Module.types_concrete {x : Module Class} {t : TypeExpr} (h : t ∈ x.concrete.types) :
    t ∈ x.types := by
  simp only [types, concrete, List.mem_append, List.mem_flatMap] at h ⊢
  refine h.imp_right ?_
  rintro ⟨c, hc, ht⟩
  exact ⟨c, (List.mem_filter.1 hc).1, ht⟩

section Walk

variable {τ : Type} [ClassTable τ] (table : τ)

def Module.instantiateParts (x : Module Class) : Instantiating (Module ClassId) :=
  x.traverseM (Constant.rebuildM (usageRebuilder table)) (Function.rebuildM (usageRebuilder table))
    (Class.instantiate table)

/-- A module whose types have been rewritten and whose classes are new objects. -/
structure Module.Rewritten (first : ClassId) (s : Instantiation) (x : Module Class)
    (y : Module ClassId) : Prop where
  covers : ∀ t ∈ x.types, s.Covers table t
  new : ∀ id ∈ y.classes, first ≤ id ∧ id < s.store.size
  content : s.store.load y = x.mapTypes s.rewrite

variable {table} {allowed : String → Prop} {first : ClassId}

/-- What the walk makes of a declaration, for any kind of declaration. -/
private def Done {α : Type} (table : τ) (types : α → List TypeExpr)
    (map : (TypeExpr → TypeExpr) → α → α) (s : Instantiation) (a b : α) : Prop :=
  (∀ t ∈ types a, s.Covers table t) ∧ b = map s.rewrite a

private theorem Done.extends_ {α : Type} {types : α → List TypeExpr}
    {map : (TypeExpr → TypeExpr) → α → α}
    (congr : ∀ {h k : TypeExpr → TypeExpr} {a : α}, (∀ t ∈ types a, h t = k t) → map h a = map k a)
    {s s' : Instantiation} (h : s.Extends s') (sound : s'.Sound table allowed first) {a b : α}
    (hab : Done table types map s a b) : Done table types map s' a b := by
  obtain ⟨covers, rfl⟩ := hab
  refine ⟨fun t ht => (covers t ht).extends_ h, ?_⟩
  apply congr
  intro t ht
  exact (sound.rewrite_extends h (covers t ht)).symm

private theorem done_all {α : Type} {types : α → List TypeExpr}
    {map : (TypeExpr → TypeExpr) → α → α} {s : Instantiation} {as bs : List α}
    (h : List.Forall₂ (Done table types map s) as bs) :
    (∀ t ∈ as.flatMap types, s.Covers table t) ∧ bs = as.map (map s.rewrite) := by
  obtain ⟨covers, images⟩ := forall₂_eq_map h
  refine ⟨fun t ht => ?_, images⟩
  obtain ⟨a, ha, ht⟩ := List.mem_flatMap.1 ht
  exact covers a ha t ht

private theorem keeps_declaration (inScope : NamesScoped table allowed) {α : Type}
    {types : α → List TypeExpr} {map : (TypeExpr → TypeExpr) → α → α}
    {rebuild : α → Instantiating α} {refill : α → List TypeExpr → α}
    (hrebuild : ∀ a, rebuild a =
      refill a <$> (types a).mapM (TypeExpr.rebuildM (onUsage (specialize table []))))
    (hrefill : ∀ h a, refill a ((types a).map h) = map h a) (a : α)
    (names : ∀ t ∈ types a, t.NamesIn allowed) {s : Instantiation}
    (hs : s.Sound table allowed first) :
    Keeps (Instantiation.Sound table allowed first) (rebuild a) s
      fun b u => Done table types map u a b := by
  rw [hrebuild]
  apply Keeps.map
  refine (keeps_types (specializes_specialize inScope []) (types a) names hs).imp ?_
  rintro ts u - - ⟨covers, rfl⟩
  exact ⟨covers, hrefill u.rewrite a⟩

private def StoredAs (table : τ) (first : ClassId) (s : Instantiation) (c : Class) (id : ClassId) :
    Prop :=
  (first ≤ id ∧ id < s.store.size) ∧ Done table Class.types Class.mapTypes s c (s.store.read id)

private theorem StoredAs.extends_ {s s' : Instantiation} (h : s.Extends s')
    (sound : s'.Sound table allowed first) {c : Class} {id : ClassId}
    (hc : StoredAs table first s c id) : StoredAs table first s' c id := by
  obtain ⟨⟨le, lt⟩, done⟩ := hc
  refine ⟨⟨le, Nat.lt_of_lt_of_le lt h.store.size_le⟩, ?_⟩
  rw [h.store.read_eq id lt]
  exact done.extends_ Class.mapTypes_congr h sound

private theorem storedAs_all {s : Instantiation} {cs : List Class} {ids : List ClassId}
    (h : List.Forall₂ (StoredAs table first s) cs ids) :
    (∀ id ∈ ids, first ≤ id ∧ id < s.store.size) ∧
      List.Forall₂ (Done table Class.types Class.mapTypes s) cs (ids.map s.store.read) := by
  induction h with
  | nil => exact ⟨fun _ h => absurd h List.not_mem_nil, .nil⟩
  | cons head _ ih =>
    refine ⟨?_, .cons head.2 ih.2⟩
    intro id hid
    rcases List.mem_cons.1 hid with rfl | hid
    · exact head.1
    · exact ih.1 id hid

private theorem keeps_class (inScope : NamesScoped table allowed) (c : Class)
    (names : ∀ t ∈ c.types, t.NamesIn allowed) {s : Instantiation}
    (hs : s.Sound table allowed first) :
    Keeps (Instantiation.Sound table allowed first) (c.instantiate table) s
      fun id u => StoredAs table first u c id := by
  have rebuilt : Keeps _ (c.rebuildM (usageRebuilder table)) s fun d u =>
      Done table Class.types Class.mapTypes u c d :=
    keeps_declaration inScope (Class.rebuildM_eq_refill _) Class.refill_map c names hs
  refine rebuilt.bind fun d t _ ht hd => ?_
  have grown := Instantiation.Extends.addObject t d
  have sound := ht.addObject d
  refine .modifyGet grown sound ⟨⟨ht.size, ?_⟩, ?_⟩
  · show t.store.size < (t.store.add d).2.size
    rw [Store.size_add]
    exact Nat.lt_succ_self _
  · have content : (t.addObject d).2.store.read (t.addObject d).1 = d :=
      Store.read_add_self t.store d
    rw [content]
    exact hd.extends_ Class.mapTypes_congr grown sound

theorem Module.keeps_instantiateParts (inScope : NamesScoped table allowed) (x : Module Class)
    (names : ∀ t ∈ x.types, t.NamesIn allowed) {s : Instantiation}
    (hs : s.Sound table allowed first) :
    Keeps (Instantiation.Sound table allowed first) (x.instantiateParts table) s
      fun y u => x.Rewritten table first u y := by
  simp only [types, List.mem_append, List.mem_flatMap] at names
  rw [instantiateParts, traverseM]
  have constants := Keeps.mapM (P := Done table Constant.types Constant.mapTypes)
    (fun _ _ _ _ h sound => Done.extends_ Constant.mapTypes_congr h sound) x.constants hs
    fun c hc t _ ht => keeps_declaration inScope (Constant.rebuildM_eq_refill _)
      Constant.refill_map c (fun u hu => names u (.inl (.inl ⟨c, hc, hu⟩))) ht
  refine constants.bind fun cs t _ ht hcs => ?_
  have functions := Keeps.mapM (P := Done table Function.types Function.mapTypes)
    (fun _ _ _ _ h sound => Done.extends_ Function.mapTypes_congr h sound) x.functions ht
    fun f hf t _ ht => keeps_declaration inScope (Function.rebuildM_eq_refill _)
      Function.refill_map f (fun u hu => names u (.inl (.inr ⟨f, hf, hu⟩))) ht
  refine functions.bind fun fs u htu hu hfs => ?_
  have classes := Keeps.mapM (P := StoredAs table first)
    (fun _ _ _ _ h sound => StoredAs.extends_ h sound) x.classes hu
    fun c hc t _ ht => keeps_class inScope c (fun u hu => names u (.inr ⟨c, hc, hu⟩)) ht
  refine classes.bind fun ids v huv hv hids => .pure hv ?_
  obtain ⟨constants_covers, hcs⟩ := done_all (hcs.imp fun _ _ h =>
    (h.extends_ Constant.mapTypes_congr htu hu).extends_ Constant.mapTypes_congr huv hv)
  obtain ⟨functions_covers, hfs⟩ := done_all (hfs.imp fun _ _ h =>
    h.extends_ Function.mapTypes_congr huv hv)
  obtain ⟨new, stored⟩ := storedAs_all hids
  obtain ⟨classes_covers, hids⟩ := done_all stored
  refine ⟨?_, new, ?_⟩
  · intro t ht
    simp only [types, List.mem_append] at ht
    rcases ht with (ht | ht) | ht
    · exact constants_covers t ht
    · exact functions_covers t ht
    · exact classes_covers t ht
  · rw [Store.load, mapClasses, mapTypes, hcs, hfs, hids]

end Walk

section Run

def Module.addClasses {κ : Type} (x : Module κ) (cs : List κ) : Module κ :=
  { x with classes := x.classes ++ cs }

theorem Module.types_addClasses (x : Module Class) (cs : List Class) :
    (x.addClasses cs).types = x.types ++ cs.flatMap Class.types := by
  simp only [types, addClasses, List.flatMap_append, List.append_assoc]

theorem Module.mapTypes_addClasses (h : TypeExpr → TypeExpr) (x : Module Class) (cs : List Class) :
    (x.addClasses cs).mapTypes h = (x.mapTypes h).addClasses (cs.map (Class.mapTypes h)) := by
  simp only [mapTypes, addClasses, List.map_append]

/-- The module with the instances as further classes. -/
def Instantiation.join (u : Instantiation) (y : Module ClassId) : Module ClassId :=
  y.addClasses (u.cache.toList.map (·.id))

def Instantiation.instances (u : Instantiation) : List Class :=
  u.cache.toList.map fun i => u.store.read i.id

theorem Instantiation.Sound.names_instances {τ : Type} [ClassTable τ] {table : τ}
    {allowed : String → Prop} {first : ClassId} {u : Instantiation}
    (sound : u.Sound table allowed first) :
    u.instances.map (·.name) = u.cache.toList.map (·.name) := by
  rw [instances, List.map_map]
  exact List.map_congr_left fun i hi => (sound.finished i hi).name

theorem Module.Rewritten.load_join {τ : Type} [ClassTable τ] {table : τ} {first : ClassId}
    {u : Instantiation} {x : Module Class} {y : Module ClassId}
    (parts : x.Rewritten table first u y) :
    u.store.load (u.join y) = (x.mapTypes u.rewrite).addClasses u.instances := by
  rw [← parts.content]
  simp [Store.load, mapClasses, Instantiation.join, addClasses, Instantiation.instances]

theorem Module.Rewritten.settled {τ : Type} [ClassTable τ] {table : τ} {allowed : String → Prop}
    {first : ClassId} {u : Instantiation} {x : Module Class} {y : Module ClassId}
    (parts : x.Rewritten table first u y) (sound : u.Sound table allowed first)
    (names : ∀ t ∈ x.types, t.NamesIn allowed) {t : TypeExpr}
    (ht : t ∈ (u.store.load (u.join y)).types) {v : TypeExpr} (hv : v ∈ t.subterms) :
    u.Settled allowed v := by
  rw [parts.load_join, types_addClasses, types_mapTypes, List.mem_append] at ht
  rcases ht with own | made
  · obtain ⟨t, ht, rfl⟩ := List.mem_map.1 own
    exact Instantiation.settled_rewrite (parts.covers t ht) (names t ht) hv
  · obtain ⟨c, hc, ht⟩ := List.mem_flatMap.1 made
    obtain ⟨i, hi, rfl⟩ := List.mem_map.1 hc
    exact (sound.finished i hi).settled t ht v hv

theorem Instantiation.join_new {τ : Type} [ClassTable τ] {table : τ} {allowed : String → Prop}
    {first : ClassId} {u : Instantiation} {x : Module Class} {y : Module ClassId}
    (sound : u.Sound table allowed first) (parts : x.Rewritten table first u y) :
    ∀ id ∈ (u.join y).classes, first ≤ id ∧ id < u.store.size := by
  intro id hid
  rcases List.mem_append.1 hid with kept | made
  · exact parts.new id kept
  · obtain ⟨i, hi, rfl⟩ := List.mem_map.1 made
    exact sound.new i hi

theorem Instantiation.join_target {τ : Type} [ClassTable τ] {table : τ} {allowed : String → Prop}
    {first : ClassId} {u : Instantiation} (sound : u.Sound table allowed first) (y : Module ClassId)
    {name : String} {id : ClassId} (h : u.target? name = some id) :
    id ∈ (u.join y).classes ∧ (u.store.read id).name = name := by
  obtain ⟨i, hi, rfl, rfl⟩ := sound.mem_of_target? h
  exact ⟨List.mem_append_right _ (List.mem_map.2 ⟨i, hi, rfl⟩), (sound.finished i hi).name⟩

theorem Module.run_instantiate {τ : Type} [ClassTable τ] (table : τ) (x : Module Class)
    (s : Instantiation) : (x.instantiate table).run.run s =
      match (x.concrete.instantiateParts table).run.run s with
      | (.ok y, u) => (.ok (u.join y), { u with cache := {} })
      | (.error fault, u) => (.error fault, u) := by
  have walk : x.instantiate table = (do
      let y ← x.concrete.instantiateParts table
      let made ← modifyGet Instantiation.takeInstances
      return { y with classes := y.classes ++ made }) := rfl
  rw [walk, exceptT_run_bind]
  rcases (x.concrete.instantiateParts table).run.run s with ⟨fault | y, u⟩
  · rfl
  · dsimp only
    rw [exceptT_run_bind, exceptT_run_modifyGet]
    rfl

theorem run_instantiateUnlinked {τ : Type} [ClassTable τ] (table : τ) (x : Module ClassId)
    (s : Store) : (instantiateUnlinked table x).run.run s =
      match ((s.load x).concrete.instantiateParts table).run.run { store := s } with
      | (.ok y, u) => (.ok (u.join y), u.store)
      | (.error fault, u) => (.error fault, u.store) := by
  rw [instantiateUnlinked, exceptT_run_bind, exceptT_run_get]
  dsimp only
  rw [Module.run_instantiate]
  rcases ((s.load x).concrete.instantiateParts table).run.run { store := s } with ⟨fault | y, u⟩ <;>
    rfl

def Store.instantiateParts (s : Store) (x : Module ClassId) :
    Except Fault (Module ClassId) × Instantiation :=
  ((s.load x).concrete.instantiateParts (s.indexOf x)).run.run { store := s }

theorem run_instantiate (x : Module ClassId) (s : Store) :
    (instantiate x).run.run s =
      match s.instantiateParts x with
      | (.ok y, u) => (linkAll (u.join y)).run.run u.store
      | (.error fault, u) => (.error fault, u.store) := by
  rw [instantiate, exceptT_run_bind, exceptT_run_get]
  dsimp only
  rw [exceptT_run_bind, run_instantiateUnlinked, Store.instantiateParts]
  rcases ((s.load x).concrete.instantiateParts (s.indexOf x)).run.run { store := s } with
    ⟨fault | y, u⟩ <;> rfl

variable {s : Store} {x : Module ClassId}

/-- An instantiated module is linked from a module that the walk has rewritten, whatever names the
module and its templates keep to. -/
theorem parts_of_instantiate {allowed : String → Prop}
    (inScope : NamesScoped (s.indexOf x) allowed)
    (names : ∀ t ∈ (s.load x).concrete.types, t.NamesIn allowed) {y : Module ClassId} {s' : Store}
    (h : (instantiate x).run.run s = (.ok y, s')) : ∃ z u,
      u.Sound (s.indexOf x) allowed s.size ∧
        (s.load x).concrete.Rewritten (s.indexOf x) s.size u z ∧
          u.store.LinksTo (u.join z) s' y := by
  obtain ⟨-, sound, value⟩ :=
    Module.keeps_instantiateParts inScope _ names (Instantiation.sound_start s)
  rw [run_instantiate] at h
  rcases walk : s.instantiateParts x with ⟨fault | z, u⟩ <;> rw [walk] at h
  · cases h
  · rw [Store.instantiateParts] at walk
    rw [walk] at sound value
    exact ⟨z, u, sound, value z rfl, linksTo_of_linkAll h⟩

theorem new_of_instantiate {y : Module ClassId} {s' : Store}
    (h : (instantiate x).run.run s = (.ok y, s')) :
    ∀ id ∈ y.classes, s.size ≤ id ∧ id < s'.size := by
  obtain ⟨z, u, sound, parts, linked⟩ :=
    parts_of_instantiate (any_inScope _) (fun _ _ _ _ => trivial) h
  rw [linked.classes, linked.size]
  exact Instantiation.join_new sound parts

end Run
end InterfaceTree
