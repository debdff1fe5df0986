import InterfaceTree.Proofs.Origin
import InterfaceTree.Proofs.Traversals

/-!
# Declarations that have a text

Layout checks every node on its own: a name must be one that can be written, and a function must
have a signature.
-/
namespace InterfaceTree

section Checks

/-- What is asked of a node before its text is put together. -/
def Layout.check : Node Class → Except Fault Unit
  | .function f =>
    if f.signatures.isEmpty then .error (.malformed .function (.noSignatures f.name)) else .ok ()
  | .classDecl c => Name.check .classDecl c.name
  | .templateItem i => Name.check .templateItem i.name
  | .type (.named name) => Name.check .namedType name
  | .type (.ref reference) => Name.check .classReference reference.name
  | _ => .ok ()

private theorem effect_write (style : Name.Style) (kind : Kind) (name : String) :
    effect (Name.write style kind name) = Name.check kind name := by
  rw [Name.write]
  cases Name.check kind name <;> rfl

private theorem effect_write_put (style : Name.Style) (kind : Kind) (name : String)
    (put : String → String) :
    effect (Name.write style kind name >>= fun written => pure (put written)) =
      Name.check kind name := by
  rw [← effect_write style]
  cases Name.write style kind name <;> rfl

/-- Layout fails at a node for what it checks there, and for nothing else. -/
theorem Layout.performs_rules (indent : Nat) (style : Name.Style) :
    (Layout.rules indent style).Performs Layout.check where
  module _ _ _ _ _ _ _ := rfl
  constant _ _ := rfl
  function f texts count := by
    have none : texts.isEmpty = f.signatures.isEmpty := by
      rw [Bool.eq_iff_iff, List.isEmpty_iff, List.isEmpty_iff, ← List.length_eq_zero_iff, count,
        List.length_eq_zero_iff]
    simp only [rules, functionText, check, none]
    split <;> rfl
  signature _ _ _ _ _ _ := rfl
  parameter _ _ := rfl
  classDecl c _ _ _ _ _ _ _ _ := effect_write_put style .classDecl c.name _
  templateItem i _ := effect_write_put style .templateItem i.name _
  named name := effect_write style .namedType name
  ref reference := effect_write style .classReference reference.name
  container _ _ _ _ := rfl
  generic _ _ _ _ _ := rfl
  union _ _ _ := rfl
  inter _ _ _ := rfl

variable {α : Type}

theorem effect_eq_ok_iff {x : Except Fault α} : effect x = .ok () ↔ ∃ a, x = .ok a := by
  cases x with
  | error fault => exact ⟨fun h => (nomatch h), fun ⟨_, h⟩ => (nomatch h)⟩
  | ok a => exact ⟨fun _ => ⟨a, rfl⟩, fun _ => rfl⟩

theorem forM_eq_ok_iff {act : α → Except Fault Unit} {as : List α} :
    forM as act = .ok () ↔ ∀ a ∈ as, act a = .ok () := by
  induction as with
  | nil => exact ⟨fun _ _ h => absurd h List.not_mem_nil, fun _ => rfl⟩
  | cons a as ih =>
    rw [List.forM_cons, List.forall_mem_cons, ← ih]
    cases act a with
    | error fault => exact ⟨fun h => (nomatch h), fun h => (nomatch h.1)⟩
    | ok u => exact ⟨fun h => ⟨rfl, h⟩, fun h => h.2⟩

/-- The node can be written when its parts can. -/
def Node.Passes : Node Class → Prop
  | .function f => f.signatures ≠ []
  | .classDecl c => Name.Writable c.name
  | .templateItem i => Name.Writable i.name
  | .type t => ∀ name, t.name? = some name → Name.Writable name
  | _ => True

namespace Node

@[simp] theorem passes_module (x : Module Class) : Passes (.module x) := trivial

@[simp] theorem passes_constant (c : Constant) : Passes (.constant c) := trivial

@[simp] theorem passes_signature (s : Signature) : Passes (.signature s) := trivial

@[simp] theorem passes_parameter (p : Parameter) : Passes (.parameter p) := trivial

@[simp] theorem passes_function {f : Function} : Passes (.function f) ↔ f.signatures ≠ [] := .rfl

@[simp] theorem passes_classDecl {c : Class} : Passes (.classDecl c) ↔ Name.Writable c.name := .rfl

@[simp] theorem passes_templateItem {i : TemplateItem} :
    Passes (.templateItem i) ↔ Name.Writable i.name := .rfl

@[simp] theorem passes_type {t : TypeExpr} :
    Passes (.type t) ↔ ∀ name, t.name? = some name → Name.Writable name := .rfl

end Node

theorem Layout.check_eq_ok_iff (n : Node Class) : Layout.check n = .ok () ↔ n.Passes := by
  cases n with
  | function f =>
    rw [check, Node.Passes]
    split <;> simp_all
  | classDecl c => exact Name.check_eq_ok_iff
  | templateItem i => exact Name.check_eq_ok_iff
  | type t => cases t <;> simp [check, Node.Passes, Name.check_eq_ok_iff, TypeExpr.name?]
  | _ => exact ⟨fun _ => trivial, fun _ => rfl⟩

/-- There is a text if and only if every node passes, whatever the width and the style of names. -/
theorem Node.evaluates_iff (indent : Nat) (style : Name.Style) (n : Node Class) :
    (∃ text, n.evaluate (Layout.rules indent style) = .ok text) ↔ ∀ x ∈ n.postorder, x.Passes := by
  rw [← effect_eq_ok_iff, n.effect_evaluate (Layout.performs_rules indent style), forM_eq_ok_iff]
  simp only [Layout.check_eq_ok_iff]

end Checks

section Printable

/-- The names of the class and its parameters can be written, and its methods have signatures. -/
structure Class.Titled (c : Class) : Prop where
  name : Name.Writable c.name
  params : ∀ i ∈ c.template, Name.Writable i.name
  methods : ∀ f ∈ c.methods, f.signatures ≠ []

/-- Nothing in the module keeps it from being written. -/
structure Module.Printable (x : Module Class) : Prop where
  types : ∀ t ∈ x.types, t.Writable
  functions : ∀ f ∈ x.functions, f.signatures ≠ []
  classes : ∀ c ∈ x.classes, c.Titled

theorem TypeExpr.passes_iff (t : TypeExpr) : (∀ n ∈ t.postorder, n.Passes) ↔ t.Writable := by
  simp only [postorder, List.forall_mem_map, Node.passes_type, Writable, leaves, List.mem_filter]
  constructor
  · exact fun h u hu => h u hu.1
  · intro h u hu name found
    exact h u ⟨hu, by rw [isLeaf, found]; rfl⟩ name found

section Items

variable {α : Type} {nodes : α → List (Node Class)} {types : α → List TypeExpr} {own : α → Prop}

private theorem passes_flatMap (as : List α)
    (h : ∀ a, (∀ n ∈ nodes a, n.Passes) ↔ own a ∧ ∀ t ∈ types a, t.Writable) :
    (∀ n ∈ as.flatMap nodes, n.Passes) ↔
      (∀ a ∈ as, own a) ∧ ∀ t ∈ as.flatMap types, t.Writable := by
  simp only [List.mem_flatMap, forall_exists_index, and_imp]
  constructor
  · intro all
    have items (a : α) (ha : a ∈ as) := (h a).1 fun n hn => all n a ha hn
    exact ⟨fun a ha => (items a ha).1, fun t a ha ht => (items a ha).2 t ht⟩
  · rintro ⟨own, types⟩ n a ha hn
    exact (h a).2 ⟨own a ha, fun t ht => types t a ha ht⟩ n hn

end Items

private theorem passes_types (ts : List TypeExpr) :
    (∀ n ∈ ts.flatMap TypeExpr.postorder, n.Passes) ↔ ∀ t ∈ ts, t.Writable := by
  simp only [List.forall_mem_flatMap, TypeExpr.passes_iff]

private theorem Constant.passes_iff (c : Constant) :
    (∀ n ∈ c.postorder, n.Passes) ↔ True ∧ ∀ t ∈ c.types, t.Writable := by
  simp only [postorder, types, List.forall_mem_append, List.forall_mem_singleton,
    TypeExpr.passes_iff, Node.passes_constant, and_true, true_and]

private theorem Parameter.passes_iff (p : Parameter) :
    (∀ n ∈ p.postorder, n.Passes) ↔ True ∧ ∀ t ∈ p.types, t.Writable := by
  simp only [postorder, types, List.forall_mem_append, List.forall_mem_singleton,
    TypeExpr.passes_iff, Node.passes_parameter, and_true, true_and]

private theorem TemplateItem.passes_iff (i : TemplateItem) :
    (∀ n ∈ i.postorder, n.Passes) ↔ Name.Writable i.name ∧ ∀ t ∈ i.types, t.Writable := by
  simp only [postorder, types, List.forall_mem_append, List.forall_mem_singleton,
    TypeExpr.passes_iff, Node.passes_templateItem, and_comm]

private theorem Signature.passes_iff (s : Signature) :
    (∀ n ∈ s.postorder, n.Passes) ↔ True ∧ ∀ t ∈ s.types, t.Writable := by
  simp only [postorder, types, List.forall_mem_append, List.forall_mem_singleton,
    List.forall_mem_cons, passes_flatMap s.params Parameter.passes_iff, TypeExpr.passes_iff,
    passes_types, Node.passes_signature, implies_true, and_true, true_and, and_assoc]

private theorem Function.passes_iff (f : Function) :
    (∀ n ∈ f.postorder, n.Passes) ↔ f.signatures ≠ [] ∧ ∀ t ∈ f.types, t.Writable := by
  simp only [postorder, types, List.forall_mem_append, List.forall_mem_singleton,
    passes_flatMap f.signatures Signature.passes_iff, Node.passes_function, implies_true, true_and,
    and_comm]

private theorem Class.passes_iff (c : Class) :
    (∀ n ∈ c.postorder, n.Passes) ↔ c.Titled ∧ ∀ t ∈ c.types, t.Writable := by
  simp only [postorder, types, List.forall_mem_append, List.forall_mem_singleton,
    passes_flatMap c.template TemplateItem.passes_iff, passes_types,
    passes_flatMap c.constants Constant.passes_iff, passes_flatMap c.methods Function.passes_iff,
    Node.passes_classDecl, implies_true, true_and]
  constructor
  · rintro ⟨⟨⟨⟨⟨params, bounds⟩, parents⟩, constants⟩, methods, bodies⟩, name⟩
    exact ⟨⟨name, params, methods⟩, ⟨⟨bounds, parents⟩, constants⟩, bodies⟩
  · rintro ⟨⟨name, params, methods⟩, ⟨⟨bounds, parents⟩, constants⟩, bodies⟩
    exact ⟨⟨⟨⟨⟨params, bounds⟩, parents⟩, constants⟩, methods, bodies⟩, name⟩

private theorem Module.passes_iff (x : Module Class) :
    (∀ n ∈ x.postorder, n.Passes) ↔ x.Printable := by
  simp only [postorder, List.forall_mem_append, List.forall_mem_singleton,
    passes_flatMap x.constants Constant.passes_iff, passes_flatMap x.functions Function.passes_iff,
    passes_flatMap x.classes Class.passes_iff, Node.passes_module, implies_true, true_and, and_true]
  constructor
  · rintro ⟨⟨constants, functions, bodies⟩, classes, members⟩
    refine ⟨?_, functions, classes⟩
    simp only [types, List.forall_mem_append]
    exact ⟨⟨constants, bodies⟩, members⟩
  · rintro ⟨all, functions, classes⟩
    simp only [types, List.forall_mem_append] at all
    obtain ⟨⟨constants, bodies⟩, members⟩ := all
    exact ⟨⟨constants, functions, bodies⟩, classes, members⟩

theorem Module.print_iff (indent : Nat) (x : Module Class) :
    (∃ text, x.print indent = .ok text) ↔ x.Printable := by
  rw [← x.passes_iff]
  exact Node.evaluates_iff indent .quoted (.module x)

end Printable

section Instances

theorem TypeExpr.writable_iff {t : TypeExpr} : t.Writable ↔ ∃ text, t.canonical = .ok text := by
  simp only [canonical_eq_ok_iff, exists_and_left, exists_eq', and_true]

theorem TypeExpr.Writable.put {t element : TypeExpr} (ht : t.Writable) (he : element.Writable)
    (name : String) : (t.put name element).Writable := by
  rw [TypeExpr.put, writable_mapLeaves]
  intro u hu
  split
  · exact he
  · intro v hv
    rw [leaves_of_isLeaf (isLeaf_of_mem_leaves hu), List.mem_singleton] at hv
    exact hv ▸ ht u hu

theorem writable_of_usage {u : TypeExpr} {name : String} (usage : u.isUsage = true)
    (text : u.canonical = .ok name) : Name.Writable name := by
  have reference := TypeExpr.canonical_ref_of_isUsage usage text none
  exact TypeExpr.writable_ref.1 (TypeExpr.canonical_eq_ok_iff.1 reference).1

theorem Class.Titled.mapTypes {c : Class} (h : c.Titled) (image : TypeExpr → TypeExpr) :
    (c.mapTypes image).Titled where
  name := h.name
  params := by
    rw [Class.mapTypes, List.forall_mem_map]
    exact h.params
  methods := by
    rw [Class.mapTypes, List.forall_mem_map]
    exact fun f hf none => h.methods f hf (List.map_eq_nil_iff.1 none)

private theorem titled_body {c : Class} (h : c.Titled) {name : String}
    (writable : Name.Writable name) : (c.body name).Titled where
  name := writable
  params _ hi := absurd hi List.not_mem_nil
  methods := h.methods

variable {s s' : Store} {x y : Module ClassId}

private theorem Instantiation.Origin.printable {u : Instantiation} {i : Instance} {o : ClassObject}
    {p : TemplateItem} {element : TypeExpr}
    (origin : u.Origin (s.indexOf x) (fun _ _ => True) i o p element)
    (printable : (s.load x).Printable) :
    (u.store.read i.id).Titled ∧ ∀ t ∈ (u.store.read i.id).types, t.Writable := by
  have member := Store.decl_mem_of_find? origin.known
  have titled := printable.classes o.decl member
  obtain ⟨text, canonical, named⟩ := origin.named
  have argument : (u.rewrite element).Writable := by
    rw [TypeExpr.writable_iff, Instantiation.canonical_rewrite origin.covered]
    exact ⟨text, canonical⟩
  have usage : (TypeExpr.container (.named o.decl.name) element).canonical = .ok i.name := by
    obtain ⟨writable, rfl⟩ := TypeExpr.canonical_eq_ok_iff.1 canonical
    rw [named, TypeExpr.canonical_eq_ok_iff, TypeExpr.writable_container, TypeExpr.writable_named]
    exact ⟨⟨titled.name, writable⟩, rfl⟩
  rw [origin.content]
  refine ⟨(titled_body titled (writable_of_usage rfl usage)).mapTypes _, ?_⟩
  rw [Class.types_mapTypes, List.forall_mem_map]
  intro t ht
  have inside : t ∈ (s.load x).types :=
    List.mem_append_right _ (List.mem_flatMap.2 ⟨o.decl, member, Class.types_body ht⟩)
  rw [TypeExpr.writable_iff, Instantiation.canonical_rewrite (origin.inside t ht)]
  exact TypeExpr.writable_iff.1 ((printable.types t inside).put argument p.name)

namespace Module.Printable

variable {x : Module Class}

theorem concrete (h : x.Printable) : x.concrete.Printable where
  types t ht := h.types t (types_concrete ht)
  functions := h.functions
  classes c hc := h.classes c (List.mem_filter.1 hc).1

theorem mapTypes (h : x.Printable) {image : TypeExpr → TypeExpr}
    (writable : ∀ t ∈ x.types, (image t).Writable) : (x.mapTypes image).Printable where
  types := by
    rw [types_mapTypes, List.forall_mem_map]
    exact writable
  functions := by
    rw [Module.mapTypes, List.forall_mem_map]
    exact fun f hf none => h.functions f hf (List.map_eq_nil_iff.1 none)
  classes := by
    rw [Module.mapTypes, List.forall_mem_map]
    exact fun c hc => (h.classes c hc).mapTypes image

theorem addClasses (h : x.Printable) {cs : List Class}
    (added : ∀ c ∈ cs, c.Titled ∧ ∀ t ∈ c.types, t.Writable) : (x.addClasses cs).Printable where
  types := by
    simp only [types_addClasses, List.forall_mem_append, List.forall_mem_flatMap]
    exact ⟨h.types, fun c hc => (added c hc).2⟩
  functions := h.functions
  classes := List.forall_mem_append.2 ⟨h.classes, fun c hc => (added c hc).1⟩

end Module.Printable

theorem printable_of_instantiate (h : (instantiate x).run.run s = (.ok y, s'))
    (printable : (s.load x).Printable) : (s'.load y).Printable := by
  obtain ⟨z, u, walk, linked⟩ := walk_of_instantiate h
  have start : Instantiation.Sound (s.indexOf x) (fun _ => True) s.size { store := s } :=
    Instantiation.sound_start s
  obtain ⟨sound, parts⟩ := walk.keeps (any_inScope _) (fun _ _ _ _ => trivial) start
  have made := walk.originated (hereditary_any _) start (fun _ _ => trivial)
    (Instantiation.originated_start s)
  -- Linking sets targets only, and a target is not written.
  have linkable {t : TypeExpr} (ht : t.Writable) :
      (t.mapLeaves (Linking.filled (u.store.firstNamed (u.join z)))).Writable := by
    rw [TypeExpr.writable_iff, canonical_filled]
    exact TypeExpr.writable_iff.1 ht
  rw [parts.load_linked linked]
  refine (printable.concrete.mapTypes fun t ht => linkable ?_).addClasses ?_
  · rw [TypeExpr.writable_iff, Instantiation.canonical_rewrite (parts.covers t ht)]
    exact TypeExpr.writable_iff.1 (printable.concrete.types t ht)
  · rw [List.forall_mem_map, Instantiation.instances, List.forall_mem_map]
    intro i hi
    obtain ⟨o, p, element, origin⟩ := made i hi
    obtain ⟨titled, writable⟩ := origin.printable printable
    refine ⟨titled.mapTypes _, ?_⟩
    rw [Class.types_mapTypes, List.forall_mem_map]
    exact fun t ht => linkable (writable t ht)

end Instances

section Names

/-- Since `s` no class has come in, as an instance or as an object, whose name cannot be written. -/
structure Instantiation.WritableSince (s u : Instantiation) : Prop where
  instances : ∀ i ∈ u.cache.toList, i ∈ s.cache.toList ∨ Name.Writable i.name
  objects : ∀ id, s.store.size ≤ id → id < u.store.size → Name.Writable (u.store.read id).name

namespace Instantiation

variable {s u : Instantiation}

theorem WritableSince.refl (s : Instantiation) : s.WritableSince s where
  instances _ hi := .inl hi
  objects _ after before := absurd before (Nat.not_lt.2 after)

theorem WritableSince.addInstance (h : s.WritableSince u) {c : Class}
    (writable : Name.Writable c.name) : s.WritableSince (u.addInstance c).2 where
  instances i hi := by
    rcases mem_addInstance hi with old | rfl
    · exact h.instances i old
    · exact .inr writable
  objects id after before := by
    by_cases old : id < u.store.size
    · rw [(Extends.addInstance u c).store.read_eq id old]
      exact h.objects id after old
    · have size : (u.addInstance c).2.store.size = u.store.size + 1 := Store.size_add u.store c
      obtain rfl : id = u.store.size := by omega
      have content : (u.addInstance c).2.store.read u.store.size = c :=
        Store.read_add_self u.store c
      rw [content]
      exact writable

end Instantiation

section Keeps

variable {Inv : Instantiation → Prop} {u : Instantiation}

private theorem keeps_mapM {α β : Type} {walk : α → Instantiating β} (as : List α)
    (step : ∀ a ∈ as, ∀ {t : Instantiation}, Inv t → Keeps Inv (walk a) t fun _ _ => True)
    (hu : Inv u) : Keeps Inv (as.mapM walk) u fun _ _ => True :=
  (Keeps.mapM (P := fun _ _ _ => True) (fun _ _ _ _ _ _ _ => trivial) as hu
    fun a ha _ _ ht => step a ha ht).imp fun _ _ _ _ _ => trivial

private theorem keeps_hooks {hook : TypeExpr → Instantiating TypeExpr}
    (keeps : ∀ (t : TypeExpr) {u : Instantiation}, Inv u → Keeps Inv (hook t) u fun _ _ => True)
    (t : TypeExpr) (hu : Inv u) : Keeps Inv (t.rebuildM hook) u fun _ _ => True := by
  induction t generalizing u with
  | named name => exact keeps _ hu
  | ref reference => exact keeps _ hu
  | container base element hb he =>
    exact (hb hu).bind fun _ _ _ hv _ => (he hv).bind fun _ _ _ hw _ => keeps _ hw
  | generic base args hb ha =>
    rw [TypeExpr.rebuildM, TypeExpr.rebuildAllM_eq_mapM]
    exact (hb hu).bind fun _ _ _ hv _ =>
      (keeps_mapM args ha hv).bind fun _ _ _ hw _ => keeps _ hw
  | union members hm =>
    rw [TypeExpr.rebuildM, TypeExpr.rebuildAllM_eq_mapM]
    exact (keeps_mapM members hm hu).bind fun _ _ _ hv _ => keeps _ hv
  | inter members hm =>
    rw [TypeExpr.rebuildM, TypeExpr.rebuildAllM_eq_mapM]
    exact (keeps_mapM members hm hu).bind fun _ _ _ hv _ => keeps _ hv

private theorem keeps_onUsage {spec : TypeExpr → TypeExpr → Instantiating TypeExpr}
    (keeps : ∀ (base element : TypeExpr) {u : Instantiation}, Inv u →
      Keeps Inv (spec base element) u fun _ _ => True)
    (t : TypeExpr) (hu : Inv u) : Keeps Inv (onUsage spec t) u fun _ _ => True := by
  rcases t with _ | _ | ⟨base, element⟩ | ⟨base, _ | ⟨element, _ | ⟨second, rest⟩⟩⟩ | _ | _
  case container => exact keeps base element hu
  case generic.cons.nil => exact keeps base element hu
  case generic.nil => exact (Keeps.lift hu).bind fun _ _ _ hv _ => .throw hv
  case generic.cons.cons => exact (Keeps.lift hu).bind fun _ _ _ hv _ => .throw hv
  all_goals exact .pure hu trivial

end Keeps

variable {τ : Type} [ClassTable τ] {s : Instantiation}

private theorem keeps_makeInstance_writable
    {spec : TypeExpr → TypeExpr → Instantiating TypeExpr}
    (keeps : ∀ (base element : TypeExpr) {u : Instantiation}, s.WritableSince u →
      Keeps s.WritableSince (spec base element) u fun _ _ => True)
    (template : Class) {name : String} (writable : Name.Writable name) (element : TypeExpr)
    {u : Instantiation} (hu : s.WritableSince u) :
    Keeps s.WritableSince (makeInstance spec template name element) u fun _ _ => True := by
  refine (Keeps.lift hu).bind fun mapping v _ hv _ => ?_
  have body : Keeps s.WritableSince
      ((Template.apply template name mapping).rebuildM (.ofType (onUsage spec))) v
      fun c _ => c.name = name := by
    rw [Class.rebuildM_eq_refill]
    refine Keeps.map _ ((keeps_mapM _ (fun t _ _ ht => ?_) hv).imp fun _ _ _ _ _ => rfl)
    exact keeps_hooks (fun t _ hu => keeps_onUsage keeps t hu) t ht
  refine body.bind ?_
  rintro c w - hw rfl
  exact .modifyGet (.addInstance w c) (hw.addInstance writable) trivial

theorem keeps_specialize_writable (table : τ) (active : List Active) (base element : TypeExpr)
    {u : Instantiation} (hu : s.WritableSince u) :
    Keeps s.WritableSince (specialize table active base element) u fun t _ =>
      ∃ reference, t = .ref reference ∧ Name.Writable reference.name := by
  rw [specialize_eq]
  refine (Keeps.lift hu).bind ?_
  rintro name v - hv ⟨text, rfl⟩
  have writable := writable_of_usage rfl text
  refine (Keeps.get hv).bind fun seen w _ hw _ => ?_
  cases seen.cache.find? name with
  | some made => exact .pure hw ⟨_, rfl, writable⟩
  | none =>
    by_cases before : isMadeBefore table name = true
    · simp only [before, if_true]
      exact .pure hw ⟨_, rfl, writable⟩
    · simp only [before]
      refine (Keeps.lift hw).bind ?_
      rintro template w' - hw' ⟨chosen, -⟩
      have inner (base element : TypeExpr) {u : Instantiation} (hu : s.WritableSince u) :=
        (keeps_specialize_writable table (⟨template.decl.name, name⟩ :: active) base element
          hu).imp (P := fun _ _ => True) fun _ _ _ _ _ => trivial
      refine (keeps_makeInstance_writable inner template.decl writable element hw').bind ?_
      exact fun id _ _ h _ => .pure h ⟨_, rfl, writable⟩
termination_by Active.idleCount table active
decreasing_by exact templateOf_decreases chosen

end Names

/-- If a module has a text and can be instantiated, then the result has a text, at any width. And
whatever a specialization starts from and however it ends, each class that it makes, each instance
that it stores and the reference that it gives have a name that can be written: it is not empty and
has no back-tick in it. -/
theorem instances_printable :
    (∀ (s s' : Store) (x y : Module ClassId) (indent width : Nat) (text : String),
      (s.load x).print indent = .ok text → (instantiate x).run.run s = (.ok y, s') →
        ∃ text', (s'.load y).print width = .ok text') ∧
    ∀ (τ : Type) [ClassTable τ] (table : τ) (active : List Active) (base element : TypeExpr)
      (s : Instantiation),
      let run := (specialize table active base element).run.run s
      (∀ t, run.1 = .ok t →
        ∃ reference, t = .ref reference ∧ Name.Writable reference.name) ∧
      (∀ i ∈ run.2.cache.toList, i ∈ s.cache.toList ∨ Name.Writable i.name) ∧
      ∀ id, s.store.size ≤ id → id < run.2.store.size →
        Name.Writable (run.2.store.read id).name := by
  refine ⟨fun s s' x y indent width text printed run => ?_, ?_⟩
  · have printable := (Module.print_iff indent (s.load x)).1 ⟨text, printed⟩
    exact (Module.print_iff width (s'.load y)).2 (printable_of_instantiate run printable)
  · intro τ _ table active base element s
    obtain ⟨-, kept, value⟩ := keeps_specialize_writable table active base element (.refl s)
    exact ⟨value, kept.instances, kept.objects⟩

private def laundry : TypeExpr := .union [.named "paper bag", .unlinked "P"]

/-- A module with a usage whose argument is no identifier, and a template with a method. -/
private def hamper : Module Class where
  constants := [⟨"laundry", .container (.named "Box") laundry⟩]
  classes := [
    { name := "Box", template := [⟨"T", .universal⟩]
      methods := [⟨"get", [{ returns := .named "T" }]⟩] },
    { name := "paper bag" },
    { name := "P" }]

theorem instances_printable_hamper :
    let held := Store.hold {} hamper
    (∃ y s', (instantiate held.1).run.run held.2 = (.ok y, s') ∧
      (s'.load y).classNames = ["paper bag", "P", "Box<paper bag or P>"] ∧
      ∃ text, (s'.load y).print 2 = .ok text) ∧
    ∃ reference, ((specialize (held.2.indexOf held.1) [] (.named "Box") laundry).run.run
        { store := held.2 }).1 = .ok (.ref reference) ∧
      reference.name = "Box<paper bag or P>" ∧ Name.Writable reference.name := by
  intro held
  have names : (match (instantiate held.1).run.run held.2 with
      | (.ok y, s') => (s'.load y).classNames
      | (.error _, _) => []) = ["paper bag", "P", "Box<paper bag or P>"] := by
    decide +kernel
  have printed : ((held.2.load held.1).print 4).isOk = true := by
    decide +kernel
  have called : (match ((specialize (held.2.indexOf held.1) [] (.named "Box") laundry).run.run
        { store := held.2 }).1 with
      | .ok t => t.name?
      | .error _ => none) = some "Box<paper bag or P>" := by
    decide +kernel
  constructor
  · rcases run : (instantiate held.1).run.run held.2 with ⟨fault | y, s'⟩ <;> rw [run] at names
    · cases names
    · rcases own : (held.2.load held.1).print 4 with fault | text <;> rw [own] at printed
      · cases printed
      · exact ⟨y, s', rfl, names, instances_printable.1 _ _ _ _ 4 2 text own run⟩
  · obtain ⟨value, -, -⟩ := instances_printable.2 _ (held.2.indexOf held.1) [] (.named "Box")
      laundry { store := held.2 }
    rcases made : ((specialize (held.2.indexOf held.1) [] (.named "Box") laundry).run.run
      { store := held.2 }).1 with fault | t <;> rw [made] at called
    · cases called
    · obtain ⟨reference, rfl, writable⟩ := value t made
      exact ⟨reference, rfl, Option.some.inj called, writable⟩

end InterfaceTree
