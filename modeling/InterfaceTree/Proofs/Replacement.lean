import InterfaceTree.Proofs.Postorder
import InterfaceTree.Proofs.Types

/-! # Replacing twice -/
namespace InterfaceTree

theorem Signature.replace_eq_mapTypes (f : TypeMapping) (s : Signature) :
    (s.rebuildM f.rebuilder).run = s.mapTypes (TypeExpr.replace f) := by
  simp [TypeMapping.rebuilder, Signature.rebuildM_ofType, Parameter.rebuildM_ofType, mapTypes,
    Parameter.mapTypes, TypeExpr.replace]

namespace Node

def mapTypes (h : TypeExpr → TypeExpr) : Node Class → Node Class
  | .module x => .module (x.mapTypes h)
  | .constant c => .constant (c.mapTypes h)
  | .function f => .function (f.mapTypes h)
  | .signature s => .signature (s.mapTypes h)
  | .parameter p => .parameter (p.mapTypes h)
  | .classDecl c => .classDecl (c.mapTypes h)
  | .templateItem i => .templateItem (i.mapTypes h)
  | .type t => .type (h t)

theorem replace_eq (f : TypeMapping) (n : Node Class) :
    n.replace f = n.mapTypes (TypeExpr.replace f) := by
  cases n with
  | module x => exact congrArg Node.module (x.replace_eq_mapTypes f)
  | constant c => rfl
  | function g => exact congrArg Node.function (g.replace_eq_mapTypes f)
  | signature s => exact congrArg Node.signature (s.replace_eq_mapTypes f)
  | parameter p => rfl
  | classDecl c => exact congrArg Node.classDecl (c.replace_eq_mapTypes f)
  | templateItem i => rfl
  | type t => rfl

def mapLeaves (g : TypeExpr → TypeExpr) (n : Node Class) : Node Class :=
  n.mapTypes (TypeExpr.mapLeaves g)

theorem mapTypes_mapTypes (h k : TypeExpr → TypeExpr) (n : Node Class) :
    (n.mapTypes h).mapTypes k = n.mapTypes fun t => k (h t) := by
  cases n with
  | module x => exact congrArg Node.module (x.mapTypes_mapTypes h k)
  | function g => exact congrArg Node.function (g.mapTypes_mapTypes h k)
  | classDecl c => exact congrArg Node.classDecl (c.mapTypes_mapTypes h k)
  | signature s => simp [mapTypes, Signature.mapTypes, Parameter.mapTypes]
  | _ => rfl

end Node

section Twice

/-- One mapping that does what two do after each other. -/
def TypeMapping.andThen (f g : TypeMapping) : TypeMapping := g ∪ f.map fun _ t => t.replace g

variable (f g : TypeMapping)

theorem TypeMapping.getElem?_andThen (name : String) :
    (f.andThen g)[name]? = (f[name]?.map (TypeExpr.replace g)).or g[name]? := by
  rw [andThen, Std.TreeMap.getElem?_union, Std.TreeMap.getElem?_map]

/-- A leaf that the first mapping replaces is out of reach for the second, but its value is not. -/
theorem TypeMapping.replace_onLeaf {u : TypeExpr} (leaf : u.isLeaf = true) :
    (f.onLeaf u).replace g = (f.andThen g).onLeaf u := by
  obtain ⟨name, named⟩ := Option.isSome_iff_exists.1 leaf
  have second : u.replace g = g.onLeaf u := by
    rw [TypeExpr.replace_eq_mapLeaves, TypeExpr.mapLeaves_of_isLeaf leaf]
  rw [onLeaf, onLeaf, named]
  simp only [Std.TreeMap.getD_eq_getD_getElem?, getElem?_andThen]
  cases f[name]? with
  | some value => rfl
  | none =>
    simp only [Option.getD_none, Option.map_none, Option.none_or]
    rw [second, onLeaf, named]
    exact Std.TreeMap.getD_eq_getD_getElem?

theorem TypeExpr.replace_replace_eq (t : TypeExpr) :
    (t.replace f).replace g = t.replace (f.andThen g) := by
  rw [replace_eq_mapLeaves f, replace_eq_mapLeaves g, replace_eq_mapLeaves (f.andThen g),
    mapLeaves_mapLeaves]
  apply mapLeaves_congr
  intro u hu
  rw [← replace_eq_mapLeaves, TypeMapping.replace_onLeaf f g (isLeaf_of_mem_leaves hu)]

end Twice

section Places

/-- What a node says itself, whatever is inside of it. -/
structure Node.Label where
  kind : Kind
  name : Option String := none
  variadic : Bool := false
  /-- How long the lists of parts are. -/
  lengths : List Nat := []
  leaf : Option TypeExpr := none

namespace Node

def label : Node Class → Label
  | .module x =>
    { kind := .module
      lengths := [x.constants.length, x.functions.length, x.classes.length] }
  | .constant c => { kind := .constant, name := c.name }
  | .function f => { kind := .function, name := f.name, lengths := [f.signatures.length] }
  | .signature s =>
    { kind := .signature, variadic := s.variadic, lengths := [s.params.length, s.raises.length] }
  | .parameter p => { kind := .parameter, name := p.name }
  | .classDecl c =>
    { kind := .classDecl, name := c.name
      lengths := [c.template.length, c.parents.length, c.constants.length, c.methods.length] }
  | .templateItem i => { kind := .templateItem, name := i.name }
  | .type t => { kind := t.kind, lengths := [t.parts.length], leaf := if t.isLeaf then t else none }

def leafName? : Node Class → Option String
  | .type t => t.name?
  | _ => none

variable {f : TypeMapping}

theorem replace_type (t : TypeExpr) : (Node.type t).replace f = .type (t.replace f) := rfl

theorem parts_mapLeaves (g : TypeExpr → TypeExpr) {n : Node Class} (inner : n.leafName? = none) :
    (n.mapLeaves g).parts = n.parts.map (mapLeaves g) := by
  cases n with
  | module x =>
    simp only [parts, mapLeaves, mapTypes, Module.mapTypes, List.map_append, List.map_map]
    rfl
  | function g =>
    simp only [parts, mapLeaves, mapTypes, Function.mapTypes, List.map_map]
    rfl
  | signature s =>
    simp only [parts, mapLeaves, mapTypes, Signature.mapTypes, List.map_append, List.map_cons,
      List.map_map]
    rfl
  | classDecl c =>
    simp only [parts, mapLeaves, mapTypes, Class.mapTypes, List.map_append, List.map_map]
    rfl
  | type t =>
    cases t with
    | named name => cases inner
    | ref reference => cases inner
    | container base element => rfl
    | generic base args => simp [parts, mapLeaves, mapTypes, TypeExpr.parts]
    | union members => simp [parts, mapLeaves, mapTypes, TypeExpr.parts]
    | inter members => simp [parts, mapLeaves, mapTypes, TypeExpr.parts]
  | _ => rfl

theorem parts_replace {n : Node Class} (inner : n.leafName? = none) :
    (n.replace f).parts = n.parts.map (replace f) := by
  rw [replace_eq, funext (replace_eq f), funext (TypeExpr.replace_eq_mapLeaves f)]
  exact parts_mapLeaves f.onLeaf inner

/-- A node that is no leaf with a key keeps its label. -/
theorem label_replace {n : Node Class} (free : ∀ name, n.leafName? = some name → f[name]? = none) :
    (n.replace f).label = n.label := by
  have leaf {t : TypeExpr} {name : String} (named : t.name? = some name)
      (absent : f[name]? = none) : f.onLeaf t = t := by
    rw [TypeMapping.onLeaf, named]
    simp only [Std.TreeMap.getD_eq_getD_getElem?, absent, Option.getD_none]
  rw [replace_eq]
  cases n with
  | module x => simp [label, mapTypes, Module.mapTypes]
  | function g => simp [label, mapTypes, Function.mapTypes]
  | signature s => simp [label, mapTypes, Signature.mapTypes]
  | classDecl c => simp [label, mapTypes, Class.mapTypes]
  | type t =>
    cases t with
    | named name => rw [mapTypes, TypeExpr.replace_named, leaf rfl (free name rfl)]
    | ref reference => rw [mapTypes, TypeExpr.replace_ref, leaf rfl (free reference.name rfl)]
    | container base element => rfl
    | generic base args =>
      simp [label, mapTypes, TypeExpr.replace_generic, TypeExpr.parts, TypeExpr.kind,
        TypeExpr.isLeaf, TypeExpr.name?]
    | union members =>
      simp [label, mapTypes, TypeExpr.replace_union, TypeExpr.parts, TypeExpr.kind,
        TypeExpr.isLeaf, TypeExpr.name?]
    | inter members =>
      simp [label, mapTypes, TypeExpr.replace_inter, TypeExpr.parts, TypeExpr.kind,
        TypeExpr.isLeaf, TypeExpr.name?]
  | _ => rfl

theorem at?_replace {n x : Node Class} {p : Path} (here : n.at? p = some x) :
    (n.replace f).at? p = some (x.replace f) := by
  induction p generalizing n with
  | nil =>
    cases here
    rfl
  | cons i p ih =>
    obtain ⟨part, found, there⟩ := Option.bind_eq_some_iff.1 here
    have inner : n.leafName? = none := by
      rcases n with _ | _ | _ | _ | _ | _ | _ | (_ | _ | _ | _ | _ | _) <;>
        first | rfl | cases found
    rw [at?, parts_replace inner, List.getElem?_map, found]
    exact ih there

end Node
end Places

/-- To replace by one mapping and then by another is to replace once, by the mapping that has the
values of the first with the second done in them and, under its other names, the values of the
second. A leaf whose name is a key gives way to the value as it is; all other nodes keep their
places and what they say themselves. -/
theorem Node.replace_replace (f g : TypeMapping) (n : Node Class) :
    (n.replace f).replace g = n.replace (f.andThen g) ∧
    (∀ name : String, (f.andThen g)[name]? = (f[name]?.map (TypeExpr.replace g)).or g[name]?) ∧
    (∀ (p : Path) (t : TypeExpr) (name : String) (value : TypeExpr),
      n.at? p = some (.type t) → t.name? = some name → f[name]? = some value →
        (n.replace f).at? p = some (.type value)) ∧
    ∀ (p : Path) (x : Node Class),
      n.at? p = some x → (∀ name, x.leafName? = some name → f[name]? = none) →
        ∃ y, (n.replace f).at? p = some y ∧ y.label = x.label := by
  refine ⟨?_, f.getElem?_andThen g, fun p t name value here named key => ?_,
    fun p x here free => ⟨_, at?_replace here, label_replace free⟩⟩
  · rw [replace_eq, replace_eq, replace_eq, mapTypes_mapTypes,
      funext (TypeExpr.replace_replace_eq f g)]
  · have leaf : t.isLeaf = true := Option.isSome_iff_exists.2 ⟨name, named⟩
    rw [at?_replace here, replace_type, TypeExpr.replace_eq_mapLeaves,
      TypeExpr.mapLeaves_of_isLeaf leaf, TypeMapping.onLeaf, named]
    simp only [Std.TreeMap.getD_eq_getD_getElem?, key, Option.getD_some]

end InterfaceTree
