import InterfaceTree.Proofs.Receivers

/-!
# What dropping receivers changes

The walk meets the functions of a module as it meets methods, but acts only when a class is done.
-/
namespace InterfaceTree

section Walk

/-- Drops the receivers of a class when its parts are done. -/
def Rebuilder.dropping {m : Type → Type} [Monad m] : Rebuilder m where
  classDecl c := pure c.dropReceivers

variable {m : Type → Type} [Monad m] [LawfulMonad m]

private theorem mapLeaves_id : TypeExpr.mapLeaves (fun u => u) = fun t => t :=
  funext fun _ => TypeExpr.mapLeaves_eq_self fun _ _ => rfl

theorem Constant.rebuildM_dropping (c : Constant) :
    c.rebuildM .dropping = (pure c : m Constant) := by
  have idle : c.rebuildM .dropping = (pure (c.mapLeaves fun u => u) : m Constant) :=
    c.rebuildM_pure fun _ _ => rfl
  rw [idle, mapLeaves, mapLeaves_id]
  rfl

theorem Function.rebuildM_dropping (f : Function) :
    f.rebuildM .dropping = (pure f : m Function) := by
  have idle : f.rebuildM .dropping = (pure (f.mapLeaves fun u => u) : m Function) :=
    f.rebuildM_pure fun _ _ => rfl
  rw [idle, mapLeaves, mapLeaves_id, mapTypes_id]

theorem Class.rebuildM_dropping (c : Class) :
    c.rebuildM .dropping = (pure c.dropReceivers : m Class) := by
  have idle : c.rebuildM (.ofType pure) = (pure (c.mapLeaves fun u => u) : m Class) :=
    c.rebuildM_pure fun _ _ => rfl
  rw [mapLeaves, mapLeaves_id, mapTypes_id] at idle
  -- Up to its last step this is the walk in which nothing happens.
  have last : c.rebuildM (.dropping : Rebuilder m) =
      c.rebuildM (.ofType pure) >>= fun d => pure d.dropReceivers := by
    simp only [rebuildM, bind_assoc]
    simp only [Rebuilder.dropping, Rebuilder.ofType, pure_bind]
    rfl
  rw [last, idle, pure_bind]

private theorem mapM_pure_self {α : Type} (as : List α) :
    as.mapM pure = (pure as : m (List α)) := by
  rw [List.mapM_pure (f := fun a => a), List.map_id']

theorem Module.rebuildM_dropping (x : Module Class) :
    x.rebuildM .dropping = (pure x.dropReceivers : m (Module Class)) := by
  simp only [rebuildM, traverseM, funext Constant.rebuildM_dropping,
    funext Function.rebuildM_dropping, funext Class.rebuildM_dropping, mapM_pure_self,
    List.mapM_pure, pure_bind]
  simp only [Rebuilder.dropping, pure_bind]
  rfl

end Walk

section Shortened

/-- The second is the first without its first parameter, or equal to it when it has none. -/
structure Signature.Shortened (s t : Signature) : Prop where
  params : s.params = [] ∧ t.params = [] ∨ ∃ receiver, s.params = receiver :: t.params
  variadic : t.variadic = s.variadic
  returns : t.returns = s.returns
  raises : t.raises = s.raises

structure Function.Shortened (f g : Function) : Prop where
  name : g.name = f.name
  signatures : List.Forall₂ Signature.Shortened f.signatures g.signatures

structure Class.Shortened (c d : Class) : Prop where
  name : d.name = c.name
  template : d.template = c.template
  parents : d.parents = c.parents
  constants : d.constants = c.constants
  methods : List.Forall₂ Function.Shortened c.methods d.methods

structure Module.Shortened (x y : Module Class) : Prop where
  constants : y.constants = x.constants
  functions : y.functions = x.functions
  classes : List.Forall₂ Class.Shortened x.classes y.classes

private theorem forall₂_iff_eq_map {α : Type} {R : α → α → Prop} {f : α → α}
    (h : ∀ a b, R a b ↔ b = f a) {as bs : List α} : List.Forall₂ R as bs ↔ bs = as.map f := by
  induction as generalizing bs with
  | nil => simp
  | cons a as ih => simp [List.forall₂_cons_left_iff, h, ih]

theorem Signature.shortened_iff (s t : Signature) : s.Shortened t ↔ t = s.dropReceiver := by
  constructor
  · rintro ⟨params, variadic, returns, raises⟩
    obtain ⟨_, _, _, _⟩ := t
    rcases params with ⟨before, after⟩ | ⟨receiver, before⟩ <;> simp_all [dropReceiver]
  · rintro rfl
    refine ⟨?_, rfl, rfl, rfl⟩
    cases params : s.params with
    | nil => simp [dropReceiver, params]
    | cons receiver rest => exact .inr ⟨receiver, by simp [dropReceiver, params]⟩

theorem Function.shortened_iff (f g : Function) : f.Shortened g ↔ g = f.dropReceiver := by
  have signatures : List.Forall₂ Signature.Shortened f.signatures g.signatures ↔
      g.signatures = f.signatures.map Signature.dropReceiver :=
    forall₂_iff_eq_map Signature.shortened_iff
  constructor
  · rintro ⟨name, all⟩
    obtain ⟨_, _⟩ := g
    cases name
    cases signatures.1 all
    rfl
  · rintro rfl
    exact ⟨rfl, signatures.2 rfl⟩

theorem Class.shortened_iff (c d : Class) : c.Shortened d ↔ d = c.dropReceivers := by
  have methods : List.Forall₂ Function.Shortened c.methods d.methods ↔
      d.methods = c.methods.map Function.dropReceiver :=
    forall₂_iff_eq_map Function.shortened_iff
  constructor
  · rintro ⟨name, template, parents, constants, all⟩
    obtain ⟨_, _, _, _, _⟩ := d
    cases name
    cases template
    cases parents
    cases constants
    cases methods.1 all
    rfl
  · rintro rfl
    exact ⟨rfl, rfl, rfl, rfl, methods.2 rfl⟩

theorem Module.shortened_iff (x y : Module Class) : x.Shortened y ↔ y = x.dropReceivers := by
  have classes : List.Forall₂ Class.Shortened x.classes y.classes ↔
      y.classes = x.classes.map Class.dropReceivers :=
    forall₂_iff_eq_map Class.shortened_iff
  constructor
  · rintro ⟨constants, functions, all⟩
    obtain ⟨_, _, _⟩ := y
    cases constants
    cases functions
    cases classes.1 all
    rfl
  · rintro rfl
    exact ⟨rfl, rfl, classes.2 rfl⟩

end Shortened

/-- Dropping the receivers of a module succeeds. Every signature of every method loses its first
parameter, if it has one, and nothing else in the module changes. It can be done before or after the
names have become references, and before or after any replacement. -/
theorem Module.dropReceivers_frame (x : Module Class) :
    x.rebuildM .dropping = (.ok x.dropReceivers : Except Fault (Module Class)) ∧
    (∀ y, x.Shortened y ↔ y = x.dropReceivers) ∧
    x.dropReceivers.withReferences = x.withReferences.dropReceivers ∧
    ∀ f, x.dropReceivers.replace f = (x.replace f).dropReceivers := by
  refine ⟨x.rebuildM_dropping, x.shortened_iff, x.withReferences_dropReceivers, fun f => ?_⟩
  rw [replace_eq_mapTypes, mapTypes_dropReceivers, replace_eq_mapTypes]

end InterfaceTree
