import InterfaceTree.Proofs.Referred

/-!
# Runs in step

Instantiation makes no difference between a name and a reference. The proof is by induction on the
derivation of one run, which the other run copies.
-/
namespace InterfaceTree

section Alike

variable {τ τ' : Type} [ClassTable τ] [ClassTable τ'] {table : τ} {table' : τ'}
  {first first' : ClassId} {s t : Instantiation}

/-- Under one name the tables have classes that differ in nothing that resolution changes. -/
def TablesAlike (table : τ) (table' : τ') : Prop :=
  ∀ name, (ClassTable.find? table' name).map (·.decl.referred) =
    (ClassTable.find? table name).map (·.decl.referred)

theorem TablesAlike.find? (alike : TablesAlike table table') {name : String} {o : ClassObject}
    (found : ClassTable.find? table name = some o) : ∃ o',
      ClassTable.find? table' name = some o' ∧ o'.decl.referred = o.decl.referred := by
  have images := alike name
  rw [found] at images
  exact Option.map_eq_some_iff.1 images

theorem TablesAlike.isMadeBefore_eq (alike : TablesAlike table table') (name : String) :
    isMadeBefore table' name = isMadeBefore table name := by
  rw [isMadeBefore, isMadeBefore]
  cases found : ClassTable.find? table name with
  | none =>
    have images := alike name
    rw [found] at images
    rw [Option.map_eq_none_iff.1 images]
  | some o =>
    obtain ⟨o', found', same⟩ := alike.find? found
    rw [found', Option.any_some, Option.any_some, Class.isGeneric_of_mapTypes_eq same]

namespace Instantiation

/-- The instances, in the order of insertion, differ in nothing that resolution changes. -/
def Alike (s t : Instantiation) : Prop :=
  t.instances.map Class.referred = s.instances.map Class.referred

theorem Sound.target?_eq_none_iff (sound : s.Sound table (fun _ => True) first) {name : String} :
    s.target? name = none ↔ name ∉ s.instances.map (·.name) := by
  rw [target?, Option.map_eq_none_iff, sound.cache.find?_eq, sound.names_instances]
  simp

theorem Sound.instances_addObject (sound : s.Sound table (fun _ => True) first) (c : Class) :
    (s.addObject c).2.instances = s.instances :=
  List.map_congr_left fun i hi =>
    (Extends.addObject s c).store.read_eq i.id (sound.new i hi).2

theorem Sound.instances_addInstance (sound : s.Sound table (fun _ => True) first) (c : Class) :
    (s.addInstance c).2.instances =
      if c.name ∈ s.instances.map (·.name) then s.instances else s.instances ++ [c] := by
  have old : s.cache.toList.map (fun i => (s.addInstance c).2.store.read i.id) = s.instances :=
    List.map_congr_left fun i hi =>
      (Extends.addInstance s c).store.read_eq i.id (sound.new i hi).2
  have content : (s.addInstance c).2.store.read s.store.size = c := Store.read_add_self s.store c
  have present : (s.cache.find? c.name).isSome = true ↔ c.name ∈ s.instances.map (·.name) := by
    rw [Option.isSome_iff_ne_none, Ne, ← Option.map_eq_none_iff, ← target?,
      sound.target?_eq_none_iff, not_not]
  have list : (s.addInstance c).2.cache.toList =
      if (s.cache.find? c.name).isSome then s.cache.toList
      else s.cache.toList ++ [⟨c.name, s.store.size⟩] :=
    InstanceCache.toList_insert ⟨c.name, s.store.size⟩
  rw [instances, list]
  simp only [present]
  split
  · exact old
  · rw [List.map_append, old, List.map_singleton, content]

theorem Alike.names (alike : s.Alike t) :
    t.instances.map (·.name) = s.instances.map (·.name) := by
  have names := congrArg (List.map Class.name) alike
  rwa [List.map_map, List.map_map] at names

namespace Alike

variable (sound : s.Sound table (fun _ => True) first)
  (sound' : t.Sound table' (fun _ => True) first')
include sound sound'

theorem addObject (alike : s.Alike t) (c d : Class) :
    (s.addObject c).2.Alike (t.addObject d).2 := by
  rw [Alike, sound.instances_addObject, sound'.instances_addObject]
  exact alike

theorem addInstance (alike : s.Alike t) {c d : Class} (same : d.referred = c.referred) :
    (s.addInstance c).2.Alike (t.addInstance d).2 := by
  rw [Alike, sound.instances_addInstance, sound'.instances_addInstance, alike.names,
    Class.name_of_mapTypes_eq same]
  split
  · exact alike
  · rw [List.map_append, List.map_append, alike, List.map_singleton, List.map_singleton, same]

theorem provides_iff (alike : s.Alike t) (tables : TablesAlike table table') {name : String} :
    t.Provides table' name ↔ s.Provides table name := by
  have targets : t.target? name = none ↔ s.target? name = none := by
    rw [sound.target?_eq_none_iff, sound'.target?_eq_none_iff, alike.names]
  simp only [Provides, tables.isMadeBefore_eq, ← Option.ne_none_iff_exists']
  rw [Ne, targets]

end Alike
end Instantiation
end Alike

section Walks

variable {τ τ' : Type} [ClassTable τ] [ClassTable τ'] {table : τ} {table' : τ'}
  {first first' : ClassId} {active : List Active} {s s' t : Instantiation}

/-- What a walk makes differs only where the types that it goes over do. -/
theorem Walks.referred {ts us : List TypeExpr} (h : Walks table active s ts us s')
    (sound : s.Sound table (fun _ => True) first) :
    us.map TypeExpr.referred = (ts.map TypeExpr.referred).map TypeExpr.bare := by
  obtain ⟨-, -, covers, rfl⟩ := h.keeps_any sound
  rw [List.map_map, List.map_map]
  exact List.map_congr_left fun u hu => Instantiation.referred_rewrite (covers u hu)

private theorem walks_leaf {u : TypeExpr} (leaf : u.isLeaf = true) {ts us : List TypeExpr}
    (rest : Walks table active s ts us s') : ∃ v, Walks table active s (u :: ts) (v :: us) s' := by
  cases u with
  | named name => exact ⟨_, .named rest⟩
  | ref reference => exact ⟨_, .ref rest⟩
  | _ => cases leaf

private theorem isLeaf_of_referred_eq {u v : TypeExpr} (same : v.referred = u.referred)
    (leaf : u.isLeaf = true) : v.isLeaf = true := by
  rwa [TypeExpr.isLeaf, ← v.name?_referred, same, u.name?_referred]

private theorem parts_alike {b e b' e' d f : TypeExpr} {us : List TypeExpr}
    {s₁ t₁ : Instantiation} (sound : s.Sound table (fun _ => True) first)
    (sound' : t.Sound table' (fun _ => True) first')
    (same : [d, f].map TypeExpr.referred = [b, e].map TypeExpr.referred)
    (parts : Walks table active s [b, e] [b', e'] s₁)
    (parts' : Walks table' active t [d, f] us t₁) :
    ∃ d' f', us = [d', f'] ∧ d'.referred = b'.referred ∧ f'.referred = e'.referred := by
  have images := parts'.referred sound'
  rw [same, ← parts.referred sound] at images
  obtain ⟨d', rest, rfl, first, rest_image⟩ := List.map_eq_cons_iff.1 images
  obtain ⟨f', done, rfl, second, done_image⟩ := List.map_eq_cons_iff.1 rest_image
  rw [List.map_eq_nil_iff.1 done_image]
  exact ⟨d', f', rfl, first, second⟩

/-- When the walk over the parts of a usage can be copied, so can it over those of a corresponding
usage, and what is made of these has the text that names the instance. -/
private theorem usage_copied {u v b e b' e' : TypeExpr} {name : String} {s₁ : Instantiation}
    (sound : s.Sound table (fun _ => True) first) (sound' : t.Sound table' (fun _ => True) first')
    (same : v.referred = u.referred) (usage : u.usage? = some (b, e))
    (parts : Walks table active s [b, e] [b', e'] s₁)
    (text : (TypeExpr.container b' e').canonical = .ok name)
    (copy : ∀ {ts' : List TypeExpr}, ts'.map TypeExpr.referred = [b, e].map TypeExpr.referred →
      ∃ us' t₁, Walks table' active t ts' us' t₁ ∧ s₁.Alike t₁) :
    ∃ d f d' f' t₁, v.usage? = some (d, f) ∧ Walks table' active t [d, f] [d', f'] t₁ ∧
      s₁.Alike t₁ ∧ d'.referred = b'.referred ∧ f'.referred = e'.referred ∧
        (TypeExpr.container d' f').canonical = .ok name := by
  obtain ⟨d, f, usage', bases, elements⟩ := TypeExpr.usage?_of_referred_eq same usage
  have pair : [d, f].map TypeExpr.referred = [b, e].map TypeExpr.referred := by
    rw [List.map_cons, List.map_cons, List.map_cons, List.map_cons, bases, elements]
  obtain ⟨us₁, t₁, parts', alike⟩ := copy pair
  obtain ⟨d', f', rfl, bases', elements'⟩ := parts_alike sound sound' pair parts parts'
  have whole : (TypeExpr.container d' f').referred = (TypeExpr.container b' e').referred :=
    congrArg₂ TypeExpr.container bases' elements'
  exact ⟨d, f, d', f', t₁, usage', parts', alike, bases', elements',
    TypeExpr.canonical_of_referred_eq whole text⟩

private theorem templateOf_copied (tables : TablesAlike table table') {b d : TypeExpr}
    (same : d.referred = b.referred) {name : String} {template : ClassObject}
    (chosen : templateOf table active b name = .ok template) : ∃ template',
      templateOf table' active d name = .ok template' ∧
        template'.decl.referred = template.decl.referred := by
  obtain ⟨called, known, idle⟩ := templateOf_eq_ok_iff.1 chosen
  obtain ⟨template', known', decls⟩ := tables.find? known
  have names := Class.name_of_mapTypes_eq decls
  refine ⟨template', templateOf_eq_ok_iff.2 ⟨?_, ?_, ?_⟩, decls⟩
  · rw [names, ← d.name?_referred, same, b.name?_referred, called]
  · rw [names, known']
  · rw [names, idle]

private theorem apply_alike {c d : Class} (same : d.referred = c.referred) (name : String)
    {p q : TemplateItem} (named : q.name = p.name) {e f : TypeExpr}
    (elements : f.referred = e.referred) :
    (Template.apply d name (Template.only q f)).referred =
      (Template.apply c name (Template.only p e)).referred := by
  rw [Template.referred_apply, Template.referred_apply, same, named, elements]

/-- From corresponding states, a walk can be copied over types that differ in nothing that
resolution changes, and the states that it ends in correspond. -/
theorem Walks.copied (tables : TablesAlike table table') {ts us : List TypeExpr}
    (h : Walks table active s ts us s') (sound : s.Sound table (fun _ => True) first)
    (sound' : t.Sound table' (fun _ => True) first') (alike : s.Alike t) {ts' : List TypeExpr}
    (same : ts'.map TypeExpr.referred = ts.map TypeExpr.referred) :
    ∃ us' t', Walks table' active t ts' us' t' ∧ s'.Alike t' := by
  induction h generalizing t ts' with
  | nil =>
    rw [List.map_eq_nil_iff.1 same]
    exact ⟨[], t, .nil, alike⟩
  | named rest ih =>
    obtain ⟨v, vs, rfl, image, images⟩ := List.map_eq_cons_iff.1 same
    obtain ⟨us', t', copy, alike'⟩ := ih sound sound' alike images
    obtain ⟨w, copy⟩ := walks_leaf (isLeaf_of_referred_eq image rfl) copy
    exact ⟨_, t', copy, alike'⟩
  | ref rest ih =>
    obtain ⟨v, vs, rfl, image, images⟩ := List.map_eq_cons_iff.1 same
    obtain ⟨us', t', copy, alike'⟩ := ih sound sound' alike images
    obtain ⟨w, copy⟩ := walks_leaf (isLeaf_of_referred_eq image rfl) copy
    exact ⟨_, t', copy, alike'⟩
  | union inside rest inside_ih rest_ih =>
    obtain ⟨v, vs, rfl, image, images⟩ := List.map_eq_cons_iff.1 same
    obtain ⟨members', rfl, members⟩ := TypeExpr.union_of_referred_eq image
    obtain ⟨-, sound₁, -, -⟩ := inside.keeps_any sound
    obtain ⟨us₁, t₁, copy₁, alike₁⟩ := inside_ih sound sound' alike members
    obtain ⟨-, sound₁', -, -⟩ := copy₁.keeps_any sound'
    obtain ⟨us', t', copy, alike'⟩ := rest_ih sound₁ sound₁' alike₁ images
    exact ⟨_, t', .union copy₁ copy, alike'⟩
  | inter inside rest inside_ih rest_ih =>
    obtain ⟨v, vs, rfl, image, images⟩ := List.map_eq_cons_iff.1 same
    obtain ⟨members', rfl, members⟩ := TypeExpr.inter_of_referred_eq image
    obtain ⟨-, sound₁, -, -⟩ := inside.keeps_any sound
    obtain ⟨us₁, t₁, copy₁, alike₁⟩ := inside_ih sound sound' alike members
    obtain ⟨-, sound₁', -, -⟩ := copy₁.keeps_any sound'
    obtain ⟨us', t', copy, alike'⟩ := rest_ih sound₁ sound₁' alike₁ images
    exact ⟨_, t', .inter copy₁ copy, alike'⟩
  | found usage parts text provided rest parts_ih rest_ih =>
    obtain ⟨v, vs, rfl, image, images⟩ := List.map_eq_cons_iff.1 same
    obtain ⟨d, f, d', f', t₁, usage', parts', alike₁, -, -, text'⟩ :=
      usage_copied sound sound' image usage parts text (parts_ih sound sound' alike)
    obtain ⟨-, sound₁, -, -⟩ := parts.keeps_any sound
    obtain ⟨-, sound₁', -, -⟩ := parts'.keeps_any sound'
    have provided' := (alike₁.provides_iff sound₁ sound₁' tables).2 provided
    obtain ⟨us', t', copy, alike'⟩ := rest_ih sound₁ sound₁' alike₁ images
    exact ⟨_, t', .found usage' parts' text' provided' copy, alike'⟩
  | @made active s s₁ s₂ s₃ s' ts us types u base element base' element' name template p id
      usage parts text absent chosen param body stored rest parts_ih body_ih rest_ih =>
    obtain ⟨-, sound₃, -, -⟩ :=
      (Walks.made usage parts text absent chosen param body stored .nil).keeps_any sound
    obtain ⟨v, vs, rfl, image, images⟩ := List.map_eq_cons_iff.1 same
    obtain ⟨d, f, d', f', t₁, usage', parts', alike₁, bases', elements', text'⟩ :=
      usage_copied sound sound' image usage parts text (parts_ih sound sound' alike)
    obtain ⟨-, sound₁, -, -⟩ := parts.keeps_any sound
    obtain ⟨-, sound₁', -, -⟩ := parts'.keeps_any sound'
    have absent' : ¬ t₁.Provides table' name :=
      fun provided => absent ((alike₁.provides_iff sound₁ sound₁' tables).1 provided)
    -- the other run enters the corresponding template
    obtain ⟨template', chosen', decls⟩ := templateOf_copied tables bases' chosen
    have names := Class.name_of_mapTypes_eq decls
    obtain ⟨q, param', item⟩ := Class.template_of_mapTypes_eq decls param
    have bodies := apply_alike decls name item elements'
    obtain ⟨types', t₂, body', alike₂⟩ := body_ih sound₁ sound₁' alike₁
      (Class.types_of_mapTypes_eq bodies)
    rw [← names] at body'
    obtain ⟨-, sound₂, covers, rfl⟩ := body.keeps_any sound₁
    obtain ⟨-, sound₂', covers', rfl⟩ := body'.keeps_any sound₁'
    rw [Class.refill_map] at stored
    have contents : ((Template.apply template'.decl name (Template.only q f')).mapTypes
        t₂.rewrite).referred = ((Template.apply template.decl name
          (Template.only p element')).mapTypes s₂.rewrite).referred := by
      rw [Class.referred_rewrite covers, Class.referred_rewrite covers', bodies]
    have alike₃ := alike₂.addInstance sound₂ sound₂' contents
    rcases stored' : t₂.addInstance ((Template.apply template'.decl name
      (Template.only q f')).mapTypes t₂.rewrite) with ⟨id', t₃⟩
    rw [stored, stored'] at alike₃
    rw [← Class.refill_map] at stored'
    obtain ⟨-, sound₃', -, -⟩ :=
      (Walks.made usage' parts' text' absent' chosen' param' body' stored' .nil).keeps_any sound'
    obtain ⟨us', t', copy, alike'⟩ := rest_ih sound₃ sound₃' alike₃ images
    exact ⟨_, t', .made usage' parts' text' absent' chosen' param' body' stored' copy, alike'⟩

end Walks

section Modules

variable {τ τ' : Type} [ClassTable τ] [ClassTable τ'] {table : τ} {table' : τ'}
  {first first' : ClassId} {s s' t : Instantiation}

private theorem WalksClasses.copied (tables : TablesAlike table table') {cs : List Class}
    {ids : List ClassId} (h : WalksClasses table s cs ids s')
    (sound : s.Sound table (fun _ => True) first) (sound' : t.Sound table' (fun _ => True) first')
    (alike : s.Alike t) {ds : List Class}
    (same : ds.map Class.referred = cs.map Class.referred) :
    ∃ ids' t', WalksClasses table' t ds ids' t' ∧ s'.Alike t' := by
  induction h generalizing t ds with
  | nil =>
    rw [List.map_eq_nil_iff.1 same]
    exact ⟨[], t, .nil, alike⟩
  | @cons s s₁ s₂ s' c cs us id ids walk added rest ih =>
    obtain ⟨d, ds, rfl, image, images⟩ := List.map_eq_cons_iff.1 same
    obtain ⟨-, sound₁, -, -⟩ := walk.keeps_any sound
    obtain ⟨us', t₁, copy, alike₁⟩ :=
      walk.copied tables sound sound' alike (Class.types_of_mapTypes_eq image)
    obtain ⟨-, sound₁', -, -⟩ := copy.keeps_any sound'
    have alike₂ := alike₁.addObject sound₁ sound₁' (c.refill us) (d.refill us')
    have sound₂ := sound₁.addObject (c.refill us)
    rw [added] at alike₂ sound₂
    obtain ⟨ids', t', copies, alike'⟩ :=
      ih sound₂ (sound₁'.addObject (d.refill us')) alike₂ images
    exact ⟨_, t', .cons copy rfl copies, alike'⟩

theorem WalksModule.copied (tables : TablesAlike table table') {x : Module Class}
    {y : Module ClassId} (h : WalksModule table s x y s')
    (sound : s.Sound table (fun _ => True) first) (sound' : t.Sound table' (fun _ => True) first')
    (alike : s.Alike t) {x' : Module Class} (same : x'.referred = x.referred) :
    ∃ y' t', WalksModule table' t x' y' t' ∧ s'.Alike t' := by
  obtain ⟨us, vs, s₁, s₂, constants, functions, -, -, classes⟩ := h
  have of_constants : (x'.constants.flatMap Constant.types).map TypeExpr.referred =
      (x.constants.flatMap Constant.types).map TypeExpr.referred := by
    rw [← flatMap_types_map _ (Constant.types_mapTypes _),
      ← flatMap_types_map _ (Constant.types_mapTypes _)]
    exact congrArg (fun m : Module Class => m.constants.flatMap Constant.types) same
  have of_functions : (x'.functions.flatMap Function.types).map TypeExpr.referred =
      (x.functions.flatMap Function.types).map TypeExpr.referred := by
    rw [← flatMap_types_map _ (Function.types_mapTypes _),
      ← flatMap_types_map _ (Function.types_mapTypes _)]
    exact congrArg (fun m : Module Class => m.functions.flatMap Function.types) same
  have of_classes := congrArg Module.classes same
  obtain ⟨-, sound₁, -, -⟩ := constants.keeps_any sound
  obtain ⟨us', t₁, constants', alike₁⟩ := constants.copied tables sound sound' alike of_constants
  obtain ⟨-, sound₁', -, -⟩ := constants'.keeps_any sound'
  obtain ⟨-, sound₂, -, -⟩ := functions.keeps_any sound₁
  obtain ⟨vs', t₂, functions', alike₂⟩ :=
    functions.copied tables sound₁ sound₁' alike₁ of_functions
  obtain ⟨-, sound₂', -, -⟩ := functions'.keeps_any sound₁'
  obtain ⟨ids, t', classes', alike'⟩ :=
    WalksClasses.copied tables classes sound₂ sound₂' alike₂ of_classes
  exact ⟨⟨_, _, ids⟩, t', ⟨us', vs', t₁, t₂, constants', functions', rfl, rfl, classes'⟩, alike'⟩

end Modules
end InterfaceTree
