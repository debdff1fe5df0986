import InterfaceTree.Proofs.Refill
import InterfaceTree.Proofs.Replacement
import InterfaceTree.Store

/-!
# Arguments in the place of parameters

An argument may mention parameters; it is not searched.
-/
namespace InterfaceTree

section Bind

private def bindOne (f : TypeMapping) (p : TemplateItem × TypeExpr) : TypeMapping :=
  f.insert p.1.name p.2

private theorem bindAll_eq (template : List TemplateItem) (args : List TypeExpr) :
    Template.bindAll template args = (template.zip args).foldl bindOne ∅ := rfl

private theorem mem_foldl_bindOne {ps : List (TemplateItem × TypeExpr)} {f : TypeMapping}
    {key : String} :
    key ∈ ps.foldl bindOne f ↔ key ∈ f ∨ key ∈ ps.map (·.1.name) := by
  induction ps generalizing f with
  | nil => simp
  | cons p ps ih =>
    simp only [List.foldl_cons, ih, bindOne, Std.TreeMap.mem_insert,
      Std.LawfulEqCmp.compare_eq_iff_eq, List.map_cons, List.mem_cons]
    simp only [or_assoc, or_left_comm, eq_comm]

private theorem getElem?_foldl_bindOne {ps : List (TemplateItem × TypeExpr)} {f : TypeMapping}
    {key : String} (free : key ∉ ps.map (·.1.name)) : (ps.foldl bindOne f)[key]? = f[key]? := by
  induction ps generalizing f with
  | nil => rfl
  | cons p ps ih =>
    rw [List.map_cons, List.mem_cons, not_or] at free
    rw [List.foldl_cons, ih free.2, bindOne, Std.TreeMap.getElem?_insert]
    simp [Ne.symm free.1]

variable {template : List TemplateItem} {args : List TypeExpr}

private theorem names_zip (fits : template.length = args.length) :
    (template.zip args).map (·.1.name) = template.map (·.name) := by
  have items := congrArg (List.map TemplateItem.name) (List.map_fst_zip (Nat.le_of_eq fits))
  rwa [List.map_map] at items

theorem Template.mem_bindAll (fits : template.length = args.length) (key : String) :
    key ∈ bindAll template args ↔ key ∈ template.map (·.name) := by
  rw [bindAll_eq, mem_foldl_bindOne, names_zip fits]
  simp

theorem Template.getElem?_bindAll (fits : template.length = args.length) {key : String} {i : Nat}
    (here : (template.map (·.name))[i]? = some key)
    (last : ∀ j, i < j → (template.map (·.name))[j]? ≠ some key) :
    ∃ arg, args[i]? = some arg ∧ (bindAll template args)[key]? = some arg := by
  obtain ⟨item, found, rfl⟩ := Option.map_eq_some_iff.1 (List.getElem?_map .. ▸ here)
  obtain ⟨inside, -⟩ := List.getElem?_eq_some_iff.1 found
  obtain ⟨arg, given⟩ : ∃ arg, args[i]? = some arg :=
    ⟨_, List.getElem?_eq_getElem (fits ▸ inside)⟩
  have pair : (template.zip args)[i]? = some (item, arg) :=
    List.getElem?_zip_eq_some.2 ⟨found, given⟩
  -- After the place the name is not bound again.
  have free : item.name ∉ ((template.zip args).drop (i + 1)).map (·.1.name) := by
    rw [List.map_drop, names_zip fits]
    intro again
    obtain ⟨k, again⟩ := List.getElem?_of_mem again
    rw [List.getElem?_drop] at again
    exact last _ (by omega) again
  refine ⟨arg, given, ?_⟩
  obtain ⟨short, here⟩ := List.getElem?_eq_some_iff.1 pair
  rw [bindAll_eq, ← List.take_append_drop i (template.zip args), List.foldl_append,
    List.drop_eq_getElem_cons short, here, List.foldl_cons, getElem?_foldl_bindOne free, bindOne]
  exact Std.TreeMap.getElem?_insert_self

end Bind

section Walk

variable {m : Type → Type} [Monad m] [LawfulMonad m] (f : TypeMapping)

theorem Class.rebuildM_onLeaf (c : Class) :
    c.rebuildM (.ofType fun u => pure (f.onLeaf u)) = (pure (c.replace f) : m Class) := by
  have keep (u : TypeExpr) (branch : u.isLeaf = false) : f.onLeaf u = u := by
    rw [TypeMapping.onLeaf, TypeExpr.name?_of_not_isLeaf branch]
  rw [rebuildM_pure keep, replace_eq_mapTypes, funext (TypeExpr.replace_eq_mapLeaves f), mapLeaves]

end Walk

section Places

variable {f : TypeMapping} {n x y : Node Class} {p q r : Path}

theorem Node.at?_append : n.at? (q ++ r) = n.at? q >>= fun x => x.at? r := by
  induction q generalizing n with
  | nil => rfl
  | cons i q ih =>
    rw [List.cons_append, at?, at?]
    cases n.parts[i]? with
    | none => rfl
    | some part => exact ih

theorem Node.leafName?_eq_some {key : String} (leaf : n.leafName? = some key) :
    ∃ t, n = .type t ∧ t.name? = some key := by
  cases n with
  | type t => exact ⟨t, rfl, leaf⟩
  | _ => cases leaf

theorem Node.at?_of_name? {t : TypeExpr} {key : String} (named : t.name? = some key) (i : Nat) :
    (Node.type t).at? (i :: p) = none := by
  cases t <;> first | rfl | cases named

/-- The node at the end of the way lies in a value, which stands in the place of a leaf. -/
def TypeMapping.PutAt (f : TypeMapping) (n : Node Class) (p : Path) (y : Node Class) : Prop :=
  ∃ (q r : Path) (t : TypeExpr) (key : String) (value : TypeExpr), p = q ++ r ∧
    n.at? q = some (.type t) ∧ t.name? = some key ∧ f[key]? = some value ∧
      (Node.type value).at? r = some y

/-- The node at the end of the way has stood there before, and is no leaf with a key. -/
def TypeMapping.KeptAt (f : TypeMapping) (n : Node Class) (p : Path) (y : Node Class) : Prop :=
  ∃ x, n.at? p = some x ∧ (∀ key, x.leafName? = some key → key ∉ f) ∧ y = x.replace f

theorem TypeMapping.PutAt.cons {i : Nat} (part : n.parts[i]? = some x) (h : f.PutAt x p y) :
    f.PutAt n (i :: p) y := by
  obtain ⟨q, r, t, key, value, rfl, found, named, bound, inside⟩ := h
  refine ⟨i :: q, r, t, key, value, rfl, ?_, named, bound, inside⟩
  rw [Node.at?, part]
  exact found

theorem TypeMapping.KeptAt.cons {i : Nat} (part : n.parts[i]? = some x) (h : f.KeptAt x p y) :
    f.KeptAt n (i :: p) y := by
  obtain ⟨z, found, free, rfl⟩ := h
  refine ⟨z, ?_, free, rfl⟩
  rw [Node.at?, part]
  exact found

theorem TypeExpr.replace_of_name? {t : TypeExpr} {key : String} (named : t.name? = some key) :
    t.replace f = f.getD key t := by
  rw [replace_eq_mapLeaves, mapLeaves_of_isLeaf (isLeaf_of_name? named), TypeMapping.onLeaf, named]

theorem TypeExpr.replace_of_getElem? {t value : TypeExpr} {key : String}
    (named : t.name? = some key) (bound : f[key]? = some value) : t.replace f = value := by
  rw [replace_of_name? named, Std.TreeMap.getD_eq_getD_getElem?, bound, Option.getD_some]

theorem TypeExpr.replace_of_not_mem {t : TypeExpr} {key : String} (named : t.name? = some key)
    (free : key ∉ f) : t.replace f = t := by
  rw [replace_of_name? named, Std.TreeMap.getD_eq_fallback free]

theorem TypeExpr.at?_replace_of_name? {t : TypeExpr} {key : String} (named : t.name? = some key)
    (here : ((Node.type t).replace f).at? p = some y) :
    f.PutAt (.type t) p y ∨ f.KeptAt (.type t) p y := by
  rw [Node.replace_type] at here
  by_cases bound : key ∈ f
  · have value := Std.TreeMap.getElem?_eq_some_getElem bound
    rw [replace_of_getElem? named value] at here
    exact .inl ⟨[], p, t, key, f[key], rfl, rfl, named, value, here⟩
  · rw [replace_of_not_mem named bound] at here
    cases p with
    | nil =>
      cases here
      refine .inr ⟨.type t, rfl, fun other same => ?_, ?_⟩
      · cases named.symm.trans same
        exact bound
      · rw [Node.replace_type, replace_of_not_mem named bound]
    | cons i p =>
      rw [Node.at?_of_name? named] at here
      cases here

/-- Whatever a replacement leaves at the end of a way has been put there or has been kept. -/
theorem Node.at?_replace_iff :
    (n.replace f).at? p = some y ↔ f.PutAt n p y ∨ f.KeptAt n p y := by
  constructor
  · intro here
    induction p generalizing n with
    | nil =>
      cases leaf : n.leafName? with
      | some key =>
        obtain ⟨t, rfl, named⟩ := leafName?_eq_some leaf
        exact TypeExpr.at?_replace_of_name? named here
      | none =>
        cases here
        exact .inr ⟨n, rfl, by simp [leaf], rfl⟩
    | cons i p ih =>
      cases leaf : n.leafName? with
      | some key =>
        obtain ⟨t, rfl, named⟩ := leafName?_eq_some leaf
        exact TypeExpr.at?_replace_of_name? named here
      | none =>
        obtain ⟨image, found, here⟩ := Option.bind_eq_some_iff.1 here
        rw [parts_replace leaf, List.getElem?_map] at found
        obtain ⟨part, there, rfl⟩ := Option.map_eq_some_iff.1 found
        exact (ih here).imp (.cons there) (.cons there)
  · rintro (⟨q, r, t, key, value, rfl, found, named, bound, inside⟩ | ⟨x, found, -, rfl⟩)
    · rw [at?_append, at?_replace found, replace_type, TypeExpr.replace_of_getElem? named bound]
      exact inside
    · exact at?_replace found

theorem Node.eq_of_label {t : TypeExpr} (leaf : x.label.leaf = some t) : x = .type t := by
  cases x with
  | type u =>
    obtain ⟨-, same⟩ := Option.ite_none_right_eq_some.1 leaf
    exact congrArg Node.type (Option.some.inj same)
  | _ => cases leaf

theorem Node.putAt_of_leaf {t : TypeExpr} {key : String} (named : t.name? = some key)
    (bound : key ∈ f) (here : (n.replace f).at? p = some (.type t)) : f.PutAt n p (.type t) := by
  rcases at?_replace_iff.1 here with put | ⟨x, -, free, image⟩
  · exact put
  · have own : (Node.type t).label.leaf = some t := if_pos (TypeExpr.isLeaf_of_name? named)
    rw [image, label_replace fun name leaf => Std.TreeMap.getElem?_eq_none (free name leaf)] at own
    obtain rfl := eq_of_label own
    exact absurd bound (free key named)

end Places

/-- Parameters are bound exactly when there are as many arguments. Then the declared names are the
keys, each with the argument at the last place that declares it. What is made with the binding is a
class with the new name and without a template. The nodes in it are those of the arguments, where
leaves with the name of a parameter have been, and those of the body, which say what they have said;
leaves that are kept keep their links. A name of a parameter is left only inside of an argument. The
object that the template is read from does not change when the new class joins it. -/
theorem Template.apply_bind (c : Class) (className name : String) (args : List TypeExpr) :
    ((∃ f, bind className c.template args = .ok f) ↔ c.template.length = args.length) ∧
    (c.template.length ≠ args.length → bind className c.template args =
      .error (.malformed .classDecl (.arity className c.template.length args.length))) ∧
    ∀ f, bind className c.template args = .ok f →
      (∀ key, key ∈ f ↔ key ∈ c.parameterNames) ∧
      (∀ (key : String) (i : Nat), c.parameterNames[i]? = some key →
        (∀ j, i < j → c.parameterNames[j]? ≠ some key) →
          ∃ arg, args[i]? = some arg ∧ f[key]? = some arg) ∧
      let body : Class := { c with name, template := [] }
      let made := apply c name f
      body.rebuildM (.ofType fun t => pure (f.onLeaf t)) = (.ok made : Except Fault Class) ∧
      made.name = name ∧ made.template = [] ∧
      (∀ p y, (Node.classDecl made).at? p = some y ↔
        f.PutAt (.classDecl body) p y ∨ f.KeptAt (.classDecl body) p y) ∧
      (∀ p x, (Node.classDecl body).at? p = some x →
        (∀ key, x.leafName? = some key → key ∉ c.parameterNames) →
          ∃ y, (Node.classDecl made).at? p = some y ∧ y.label = x.label) ∧
      (∀ p t key, (Node.classDecl body).at? p = some (.type t) → t.name? = some key →
        key ∉ c.parameterNames → (Node.classDecl made).at? p = some (.type t)) ∧
      (∀ p t key, (Node.classDecl made).at? p = some (.type t) → t.name? = some key →
        key ∈ c.parameterNames → f.PutAt (.classDecl body) p (.type t)) ∧
      ∀ (s : Store) (id : ClassId), id < s.size → s.read id = c →
        (s.add made).2.read id = c := by
  have fails (unfit : c.template.length ≠ args.length) : bind className c.template args =
      .error (.malformed .classDecl (.arity className c.template.length args.length)) :=
    if_neg unfit
  have binds (fits : c.template.length = args.length) :
      bind className c.template args = .ok (bindAll c.template args) := if_pos fits
  have fits {f : TypeMapping} (bound : bind className c.template args = .ok f) :
      c.template.length = args.length := by
    by_contra unfit
    rw [fails unfit] at bound
    cases bound
  refine ⟨⟨fun ⟨_, bound⟩ => fits bound, fun fits => ⟨_, binds fits⟩⟩, fails, fun f bound => ?_⟩
  replace fits := fits bound
  obtain rfl : bindAll c.template args = f := Except.ok.inj ((binds fits).symm.trans bound)
  have keys (key : String) : key ∈ bindAll c.template args ↔ key ∈ c.parameterNames :=
    mem_bindAll fits key
  refine ⟨keys, fun key i => getElem?_bindAll fits, ?_⟩
  intro body made
  have image : (Node.classDecl body).replace (bindAll c.template args) = .classDecl made := rfl
  rw [← image]
  refine ⟨Class.rebuildM_onLeaf _ body, rfl, ?_, fun p y => Node.at?_replace_iff,
    fun p x here free => ⟨_, Node.at?_replace here, Node.label_replace fun key leaf => ?_⟩,
    fun p t key here named free => ?_,
    fun p t key here named declared => Node.putAt_of_leaf named ((keys key).2 declared) here,
    fun s id inside same => ?_⟩
  · rw [show made = body.replace _ from rfl, Class.replace_eq]
    rfl
  · exact Std.TreeMap.getElem?_eq_none fun bound => free key leaf ((keys key).1 bound)
  · have kept := Node.at?_replace (f := bindAll c.template args) here
    have absent : key ∉ bindAll c.template args := fun bound => free ((keys key).1 bound)
    rwa [Node.replace_type, TypeExpr.replace_of_not_mem named absent] at kept
  · rw [s.read_add_of_lt made inside, same]

/-- A template that declares one name twice and has it as the base of a usage. -/
private def doubled : Class where
  name := "Box"
  template := [⟨"T", .universal⟩, ⟨"T", .named "P"⟩]
  constants := [⟨"item", .container (.named "T") (.named "int")⟩]

/-- The second argument counts, and the parameter that it mentions stays. -/
theorem Template.apply_bind_doubled :
    let arg : TypeExpr := .generic (.named "T") [.named "str"]
    ∃ f, bind "Box" doubled.template [.named "int", arg] = .ok f ∧ f["T"]? = some arg ∧
      (Node.classDecl (apply doubled "Boxed" f)).at? [0, 0, 0] = some (.type arg) := by
  intro arg
  obtain ⟨binds, -, made⟩ := apply_bind doubled "Box" "Boxed" [.named "int", arg]
  obtain ⟨f, bound⟩ := binds.2 rfl
  obtain ⟨-, last, -, -, -, places, -⟩ := made f bound
  obtain ⟨given, second, value⟩ := last "T" 1 rfl fun j later => by
    rw [List.getElem?_eq_none (Nat.succ_le_of_lt later)]
    exact nofun
  obtain rfl : arg = given := Option.some.inj second
  exact ⟨f, bound, value, (places _ _).2 (.inl ⟨[0, 0, 0], [], _, _, _, rfl, rfl, rfl, value, rfl⟩)⟩

end InterfaceTree
