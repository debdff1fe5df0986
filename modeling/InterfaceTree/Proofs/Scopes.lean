import InterfaceTree.Proofs.Referred
import InterfaceTree.Proofs.Replacement

/-!
# Scopes in a tree

The parts of a class are in the scope of its parameters. Everything else is in the scope of the node
around it.
-/
namespace InterfaceTree
namespace Node

/-- The parameters in whose scope the parts of a node are, when it is itself in the scope of
these. -/
def scope (params : List String) : Node Class → List String
  | .classDecl c => c.parameterNames
  | _ => params

/-- The node at the end of a way, with the parameters in whose scope it is. -/
def scopedAt? (params : List String) (n : Node Class) : Path → Option (List String × Node Class)
  | [] => some (params, n)
  | i :: p => n.parts[i]? >>= fun x => x.scopedAt? (n.scope params) p

def mapScoped (g : List String → TypeExpr → TypeExpr) (params : List String) :
    Node Class → Node Class
  | .module x => .module
    { constants := x.constants.map (Constant.mapLeaves (g params))
      functions := x.functions.map (Function.mapLeaves (g params))
      classes := x.classes.map fun c => c.mapLeaves (g c.parameterNames) }
  | .classDecl c => .classDecl (c.mapLeaves (g c.parameterNames))
  | n => n.mapLeaves (g params)

section Ways

variable {params scope : List String} {n x : Node Class} {p : Path}

variable (params) in
theorem map_scopedAt? : (n.scopedAt? params p).map (·.2) = n.at? p := by
  induction p generalizing n params with
  | nil => rfl
  | cons i p ih =>
    rw [scopedAt?, at?]
    cases n.parts[i]? with
    | none => rfl
    | some part => exact ih _

/-- A scope that is not handed down from outside is that of a class on the way. -/
theorem scope_of_scopedAt? (found : n.scopedAt? params p = some (scope, x)) :
    scope = params ∨ ∃ (q r : Path) (c : Class), p = q ++ r ∧ n.at? q = some (.classDecl c) ∧
      scope = c.parameterNames := by
  induction p generalizing n params with
  | nil =>
    cases found
    exact .inl rfl
  | cons i p ih =>
    obtain ⟨part, here, found⟩ := Option.bind_eq_some_iff.1 found
    rcases ih found with same | ⟨q, r, c, rfl, there, same⟩
    · cases n with
      | classDecl c => exact .inr ⟨[], i :: p, c, rfl, rfl, same⟩
      | _ => exact .inl same
    · refine .inr ⟨i :: q, r, c, rfl, ?_, same⟩
      rw [at?, here]
      exact there

end Ways

section Map

variable {g h : List String → TypeExpr → TypeExpr} {params : List String} {n x : Node Class}
  {p : Path}

theorem scope_mapScoped (scope : List String) :
    (n.mapScoped g params).scope scope = n.scope scope := by
  cases n with
  | classDecl c => exact c.parameterNames_mapLeaves _
  | _ => rfl

theorem mapScoped_mapScoped : (n.mapScoped g params).mapScoped h params =
    n.mapScoped (fun scope u => (g scope u).mapLeaves (h scope)) params := by
  have both (n : Node Class) : (n.mapLeaves (g params)).mapLeaves (h params) =
      n.mapLeaves fun u => (g params u).mapLeaves (h params) := by
    rw [mapLeaves, mapLeaves, mapTypes_mapTypes, mapLeaves,
      funext (TypeExpr.mapLeaves_mapLeaves (g params) (h params))]
  cases n with
  | module x =>
    simp only [mapScoped, List.map_map, Function.comp_def, Constant.mapLeaves_mapLeaves,
      Function.mapLeaves_mapLeaves, Class.mapLeaves_mapLeaves, Class.parameterNames_mapLeaves]
  | classDecl c =>
    simp only [mapScoped, Class.mapLeaves_mapLeaves, Class.parameterNames_mapLeaves]
  | constant c => exact both (.constant c)
  | function f => exact both (.function f)
  | signature s => exact both (.signature s)
  | parameter p => exact both (.parameter p)
  | templateItem i => exact both (.templateItem i)
  | type t => exact both (.type t)

theorem mapScoped_congr (same : ∀ scope u, TypeExpr.isLeaf u = true → g scope u = h scope u) :
    n.mapScoped g params = n.mapScoped h params := by
  have leaves (scope : List String) :
      TypeExpr.mapLeaves (g scope) = TypeExpr.mapLeaves (h scope) :=
    funext fun t => TypeExpr.mapLeaves_congr fun u hu =>
      same scope u (TypeExpr.isLeaf_of_mem_leaves hu)
  have constants : Constant.mapLeaves (g params) = Constant.mapLeaves (h params) :=
    funext fun c => congrArg (Constant.mapTypes · c) (leaves params)
  have functions : Function.mapLeaves (g params) = Function.mapLeaves (h params) :=
    funext fun f => congrArg (Function.mapTypes · f) (leaves params)
  cases n <;>
    simp only [mapScoped, mapLeaves, constants, functions, Class.mapLeaves, leaves]

theorem mapScoped_of_mem_parts (outer : n.kind ≠ .module) (inside : x ∈ n.parts) :
    x.mapScoped g params = x.mapLeaves (g params) := by
  cases n with
  | module m => exact absurd rfl outer
  | constant c =>
    obtain rfl := List.mem_singleton.1 inside
    rfl
  | function f =>
    obtain ⟨s, -, rfl⟩ := List.mem_map.1 inside
    rfl
  | signature s =>
    simp only [parts, List.mem_append, List.mem_cons, List.mem_map] at inside
    obtain ⟨p, -, rfl⟩ | rfl | ⟨t, -, rfl⟩ := inside <;> rfl
  | parameter p =>
    obtain rfl := List.mem_singleton.1 inside
    rfl
  | classDecl c =>
    simp only [parts, List.mem_append, List.mem_map] at inside
    obtain ((⟨i, -, rfl⟩ | ⟨t, -, rfl⟩) | ⟨k, -, rfl⟩) | ⟨f, -, rfl⟩ := inside <;> rfl
  | templateItem i =>
    obtain rfl := List.mem_singleton.1 inside
    rfl
  | type t =>
    obtain ⟨u, -, rfl⟩ := List.mem_map.1 inside
    rfl

theorem leaf_of_mapScoped {u : TypeExpr} (leaf : u.isLeaf = true)
    (image : n.mapScoped g params = .type u) :
    ∃ t, n = .type t ∧ t.isLeaf = true ∧ u = g params t := by
  cases n with
  | type t =>
    cases before : t.isLeaf with
    | true =>
      exact ⟨t, rfl, before, (Node.type.inj image).symm.trans (TypeExpr.mapLeaves_of_isLeaf before)⟩
    | false =>
      obtain rfl : t.mapLeaves (g params) = u := Node.type.inj image
      cases t <;> first | cases leaf | cases before
  | _ => cases image

variable (keeps : ∀ scope u, TypeExpr.isLeaf u = true → (g scope u).isLeaf = true)
include keeps

theorem parts_mapScoped :
    (n.mapScoped g params).parts = n.parts.map (mapScoped g (n.scope params)) := by
  have inner {scope : List String} (image : n.mapScoped g params = n.mapLeaves (g scope))
      (same : n.scope params = scope) (outer : n.kind ≠ .module) (branch : n.leafName? = none) :
      (n.mapScoped g params).parts = n.parts.map (mapScoped g (n.scope params)) := by
    rw [image, parts_mapLeaves _ branch, same]
    exact List.map_congr_left fun x hx => (mapScoped_of_mem_parts outer hx).symm
  have noParts (t : TypeExpr) (leaf : t.isLeaf = true) : (Node.type t).parts = [] := by
    cases t <;> first | rfl | cases leaf
  cases n with
  | module x =>
    simp only [mapScoped, parts, scope, List.map_append, List.map_map]
    rfl
  | type t =>
    cases leaf : t.isLeaf with
    | true =>
      have image : (t.mapLeaves (g params)).isLeaf = true := by
        rw [TypeExpr.mapLeaves_of_isLeaf leaf]
        exact keeps params t leaf
      rw [noParts t leaf]
      exact noParts _ image
    | false =>
      have outer : (Node.type t : Node Class).kind ≠ .module := by
        cases t <;> simp [kind, TypeExpr.kind]
      exact inner rfl rfl outer (TypeExpr.name?_of_not_isLeaf leaf)
  | _ => exact inner rfl rfl (by simp [kind]) rfl

/-- The way to a node leads to its image, which is in the same scope. -/
theorem scopedAt?_mapScoped : (n.mapScoped g params).scopedAt? params p =
    (n.scopedAt? params p).map fun d => (d.1, d.2.mapScoped g d.1) := by
  induction p generalizing n params with
  | nil => rfl
  | cons i p ih =>
    rw [scopedAt?, scopedAt?, parts_mapScoped keeps, List.getElem?_map, scope_mapScoped]
    cases n.parts[i]? with
    | none => rfl
    | some part => exact ih

theorem at?_mapScoped : (n.mapScoped g params).at? p =
    (n.scopedAt? params p).map fun d => d.2.mapScoped g d.1 := by
  rw [← map_scopedAt? params, scopedAt?_mapScoped keeps, Option.map_map]
  rfl

theorem leaf_of_scopedAt? {scope : List String} {u : TypeExpr} (leaf : u.isLeaf = true)
    (found : (n.mapScoped g params).scopedAt? params p = some (scope, .type u)) :
    ∃ t, u = g scope t := by
  rw [scopedAt?_mapScoped keeps] at found
  obtain ⟨⟨scope, x⟩, -, pair⟩ := Option.map_eq_some_iff.1 found
  obtain ⟨rfl, image⟩ := Prod.mk.inj pair
  obtain ⟨t, -, -, same⟩ := leaf_of_mapScoped leaf image
  exact ⟨t, same⟩

end Map
end Node

section Turned

/-- The name that a leaf gives up for a reference. -/
def TypeExpr.turned? (params : List String) : TypeExpr → Option String
  | .named name => if name = universalName ∨ name ∈ params then none else some name
  | _ => none

def TypeExpr.turned (params : List String) (t : TypeExpr) : List String :=
  t.leaves.filterMap (turned? params)

def Node.turned? (params : List String) : Node Class → Option String
  | .type t => t.turned? params
  | _ => none

def Node.turned (params : List String) : Node Class → List String
  | .module x =>
    x.constants.flatMap (fun c => c.types.flatMap (TypeExpr.turned params)) ++
      x.functions.flatMap (fun f => f.types.flatMap (TypeExpr.turned params)) ++
      x.classes.flatMap fun c => c.types.flatMap (TypeExpr.turned c.parameterNames)
  | .constant c => c.types.flatMap (TypeExpr.turned params)
  | .function f => f.types.flatMap (TypeExpr.turned params)
  | .signature s => s.types.flatMap (TypeExpr.turned params)
  | .parameter p => p.types.flatMap (TypeExpr.turned params)
  | .classDecl c => c.types.flatMap (TypeExpr.turned c.parameterNames)
  | .templateItem i => i.types.flatMap (TypeExpr.turned params)
  | .type t => t.turned params

variable (params : List String)

theorem TypeExpr.turned_eq (t : TypeExpr) :
    t.turned params = t.parts.flatMap (turned params) ++ (t.turned? params).toList := by
  have all (ts : List TypeExpr) :
      (ts.flatMap leaves).filterMap (turned? params) = ts.flatMap (turned params) := by
    rw [List.filterMap_flatMap]
    rfl
  cases t with
  | named name => cases given : turned? params (.named name) <;> simp [turned, given, parts]
  | ref reference => rfl
  | container base element => simp [turned, parts, turned?]
  | generic base args => simp [turned, parts, turned?, all]
  | union members => simp [turned, parts, turned?, all]
  | inter members => simp [turned, parts, turned?, all]

theorem Node.turned_eq (n : Node Class) :
    n.turned params = n.parts.flatMap (turned (n.scope params)) ++ (n.turned? params).toList := by
  cases n with
  | type t => simp [turned, t.turned_eq, parts, scope, turned?, List.flatMap_map]
  | _ =>
    simp [turned, parts, scope, turned?, List.flatMap_map, Constant.types, Parameter.types,
      TemplateItem.types, Signature.types, Function.types, Class.types, List.flatMap_assoc]

/-- Where names are given up is told by ways, as many as there are such names. -/
theorem Node.exists_turned (n : Node Class) : ∃ paths : List Path, paths.Nodup ∧
    (∀ p, p ∈ paths ↔ ∃ d, n.scopedAt? params p = some d ∧ (d.2.turned? d.1).isSome = true) ∧
      paths.length = (n.turned params).length := by
  obtain ⟨paths, complete, ordered, same⟩ := exists_paths_of scope
    (fun scope n p => n.scopedAt? scope p >>= fun d => d.2.turned? d.1) turned
    (fun scope n i p => bind_assoc ..) (fun scope n => n.turned_eq scope) params n
  refine ⟨paths, ordered.imp Path.Before.ne, fun p => ?_, ?_⟩
  · rw [complete]
    cases n.scopedAt? params p <;> simp
  · simpa using congrArg List.length same

end Turned
end InterfaceTree
