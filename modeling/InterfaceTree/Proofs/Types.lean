import InterfaceTree.Proofs.Parts

/-!
# Types in declarations

What can be said about the types of a whole tree is said about their list, in field order.
-/
namespace InterfaceTree

section Types

def Constant.types (c : Constant) : List TypeExpr := [c.type]

def Parameter.types (p : Parameter) : List TypeExpr := [p.type]

def TemplateItem.types (i : TemplateItem) : List TypeExpr := [i.bound]

def Signature.types (s : Signature) : List TypeExpr :=
  s.params.flatMap Parameter.types ++ s.returns :: s.raises

def Function.types (f : Function) : List TypeExpr := f.signatures.flatMap Signature.types

def Class.types (c : Class) : List TypeExpr :=
  c.template.flatMap TemplateItem.types ++ c.parents ++ c.constants.flatMap Constant.types ++
    c.methods.flatMap Function.types

def Module.types (x : Module Class) : List TypeExpr :=
  x.constants.flatMap Constant.types ++ x.functions.flatMap Function.types ++
    x.classes.flatMap Class.types

end Types

section Leaves

def Constant.leaves (c : Constant) : List TypeExpr := c.types.flatMap TypeExpr.leaves

def Function.leaves (f : Function) : List TypeExpr := f.types.flatMap TypeExpr.leaves

def Class.leaves (c : Class) : List TypeExpr := c.types.flatMap TypeExpr.leaves

def Module.leaves (x : Module Class) : List TypeExpr := x.types.flatMap TypeExpr.leaves

theorem Class.isLeaf_of_mem_leaves {c : Class} {u : TypeExpr} (h : u ∈ c.leaves) :
    u.isLeaf = true := by
  obtain ⟨t, -, ht⟩ := List.mem_flatMap.1 h
  exact TypeExpr.isLeaf_of_mem_leaves ht

theorem Module.leaves_eq (x : Module Class) :
    x.leaves = x.constants.flatMap Constant.leaves ++ x.functions.flatMap Function.leaves ++
      x.classes.flatMap Class.leaves := by
  simp only [leaves, types, List.flatMap_append, List.flatMap_assoc]
  rfl

end Leaves

section Map

variable (h : TypeExpr → TypeExpr)

def Constant.mapTypes (c : Constant) : Constant := { c with type := h c.type }

def Parameter.mapTypes (p : Parameter) : Parameter := { p with type := h p.type }

def TemplateItem.mapTypes (i : TemplateItem) : TemplateItem := { i with bound := h i.bound }

def Signature.mapTypes (s : Signature) : Signature :=
  { s with
    params := s.params.map (Parameter.mapTypes h)
    returns := h s.returns
    raises := s.raises.map h }

def Function.mapTypes (f : Function) : Function :=
  { f with signatures := f.signatures.map (Signature.mapTypes h) }

def Class.mapTypes (c : Class) : Class :=
  { c with
    template := c.template.map (TemplateItem.mapTypes h)
    parents := c.parents.map h
    constants := c.constants.map (Constant.mapTypes h)
    methods := c.methods.map (Function.mapTypes h) }

def Module.mapTypes (x : Module Class) : Module Class :=
  { constants := x.constants.map (Constant.mapTypes h)
    functions := x.functions.map (Function.mapTypes h)
    classes := x.classes.map (Class.mapTypes h) }

end Map

section Replace

variable (f : TypeMapping)

theorem Function.replace_eq_mapTypes (g : Function) :
    g.replace f = g.mapTypes (TypeExpr.replace f) := g.replace_eq f

theorem Class.replace_eq_mapTypes (c : Class) :
    c.replace f = c.mapTypes (TypeExpr.replace f) := by
  rw [replace_eq, mapTypes, funext (Function.replace_eq_mapTypes f)]
  rfl

theorem Module.replace_eq_mapTypes (x : Module Class) :
    x.replace f = x.mapTypes (TypeExpr.replace f) := by
  rw [replace_eq, mapTypes, funext (Function.replace_eq_mapTypes f),
    funext (Class.replace_eq_mapTypes f)]
  rfl

end Replace

section MapLeaves

variable (g : TypeExpr → TypeExpr)

def Constant.mapLeaves (c : Constant) : Constant := c.mapTypes (TypeExpr.mapLeaves g)

def Function.mapLeaves (f : Function) : Function := f.mapTypes (TypeExpr.mapLeaves g)

def Class.mapLeaves (c : Class) : Class := c.mapTypes (TypeExpr.mapLeaves g)

def Module.mapLeaves (x : Module Class) : Module Class := x.mapTypes (TypeExpr.mapLeaves g)

theorem Module.mapLeaves_eq (x : Module Class) : x.mapLeaves g =
    { constants := x.constants.map (Constant.mapLeaves g)
      functions := x.functions.map (Function.mapLeaves g)
      classes := x.classes.map (Class.mapLeaves g) } := rfl

end MapLeaves

section TypesMap

variable (h k : TypeExpr → TypeExpr)

theorem flatMap_types_map {α : Type} {types : α → List TypeExpr} {f : α → α}
    (hf : ∀ a, types (f a) = (types a).map h) (as : List α) :
    (as.map f).flatMap types = (as.flatMap types).map h := by
  rw [List.flatMap_map, List.map_flatMap]
  exact List.flatMap_congr fun a _ => hf a

theorem Constant.types_mapTypes (c : Constant) : (c.mapTypes h).types = c.types.map h := rfl

theorem Signature.types_mapTypes (s : Signature) : (s.mapTypes h).types = s.types.map h := by
  have params := flatMap_types_map h (fun p : Parameter => show (p.mapTypes h).types = p.types.map h
    from rfl) s.params
  simp only [types, mapTypes, params, List.map_append, List.map_cons]

theorem Function.types_mapTypes (f : Function) : (f.mapTypes h).types = f.types.map h :=
  flatMap_types_map h (Signature.types_mapTypes h) f.signatures

theorem Class.types_mapTypes (c : Class) : (c.mapTypes h).types = c.types.map h := by
  have template := flatMap_types_map h
    (fun i : TemplateItem => show (i.mapTypes h).types = i.types.map h from rfl) c.template
  have constants := flatMap_types_map h (Constant.types_mapTypes h) c.constants
  have methods := flatMap_types_map h (Function.types_mapTypes h) c.methods
  simp only [types, mapTypes, template, constants, methods, List.map_append]

theorem Module.types_mapTypes (x : Module Class) : (x.mapTypes h).types = x.types.map h := by
  have constants := flatMap_types_map h (Constant.types_mapTypes h) x.constants
  have functions := flatMap_types_map h (Function.types_mapTypes h) x.functions
  have classes := flatMap_types_map h (Class.types_mapTypes h) x.classes
  simp only [types, mapTypes, constants, functions, classes, List.map_append]

theorem Constant.mapTypes_mapTypes (c : Constant) :
    (c.mapTypes h).mapTypes k = c.mapTypes fun t => k (h t) := rfl

theorem Function.mapTypes_mapTypes (f : Function) :
    (f.mapTypes h).mapTypes k = f.mapTypes fun t => k (h t) := by
  simp [mapTypes, Signature.mapTypes, Parameter.mapTypes]

theorem Class.mapTypes_mapTypes (c : Class) :
    (c.mapTypes h).mapTypes k = c.mapTypes fun t => k (h t) := by
  simp [mapTypes, TemplateItem.mapTypes, Constant.mapTypes, Function.mapTypes, Signature.mapTypes,
    Parameter.mapTypes]

theorem Module.mapTypes_mapTypes (x : Module Class) :
    (x.mapTypes h).mapTypes k = x.mapTypes fun t => k (h t) := by
  simp only [mapTypes, List.map_map, Function.comp_def, Constant.mapTypes_mapTypes,
    Function.mapTypes_mapTypes, Class.mapTypes_mapTypes]

theorem Class.isGeneric_mapTypes (c : Class) : (c.mapTypes h).isGeneric = c.isGeneric := by
  rw [isGeneric, isGeneric, mapTypes, List.isEmpty_map]

theorem Class.parameterNames_mapTypes (c : Class) :
    (c.mapTypes h).parameterNames = c.parameterNames := by
  rw [parameterNames, mapTypes, List.map_map]
  rfl

end TypesMap

section TypesAlike

variable {f : TypeExpr → TypeExpr} {c d : Class} (same : d.mapTypes f = c.mapTypes f)
include same

theorem Class.name_of_mapTypes_eq : d.name = c.name := by
  have names := congrArg Class.name same
  exact names

theorem Class.isGeneric_of_mapTypes_eq : d.isGeneric = c.isGeneric := by
  rw [← d.isGeneric_mapTypes f, same, isGeneric_mapTypes]

theorem Class.length_template_of_mapTypes_eq : d.template.length = c.template.length := by
  have lengths := congrArg (fun e : Class => e.template.length) same
  simpa only [mapTypes, List.length_map] using lengths

theorem Class.template_of_mapTypes_eq {p : TemplateItem} (param : c.template = [p]) :
    ∃ q, d.template = [q] ∧ q.name = p.name := by
  have templates := congrArg Class.template same
  simp only [mapTypes, param, List.map_cons, List.map_nil] at templates
  obtain ⟨q, rest, template, item, done⟩ := List.map_eq_cons_iff.1 templates
  rw [List.map_eq_nil_iff.1 done] at template
  have name := congrArg TemplateItem.name item
  exact ⟨q, template, name⟩

theorem Class.types_of_mapTypes_eq : d.types.map f = c.types.map f := by
  rw [← types_mapTypes, ← types_mapTypes, same]

end TypesAlike

section LeavesMap

variable (g h : TypeExpr → TypeExpr)

theorem Constant.leaves_mapLeaves (hg : ∀ u : TypeExpr, u.isLeaf = true → (g u).isLeaf = true)
    (c : Constant) : (c.mapLeaves g).leaves = c.leaves.map g := by
  rw [leaves, mapLeaves, types_mapTypes, List.flatMap_map, leaves, List.map_flatMap]
  exact List.flatMap_congr fun t _ => t.leaves_mapLeaves g hg

theorem Function.leaves_mapLeaves (hg : ∀ u : TypeExpr, u.isLeaf = true → (g u).isLeaf = true)
    (f : Function) : (f.mapLeaves g).leaves = f.leaves.map g := by
  rw [leaves, mapLeaves, types_mapTypes, List.flatMap_map, leaves, List.map_flatMap]
  exact List.flatMap_congr fun t _ => t.leaves_mapLeaves g hg

theorem Class.leaves_mapLeaves (hg : ∀ u : TypeExpr, u.isLeaf = true → (g u).isLeaf = true)
    (c : Class) : (c.mapLeaves g).leaves = c.leaves.map g := by
  rw [leaves, mapLeaves, types_mapTypes, List.flatMap_map, leaves, List.map_flatMap]
  exact List.flatMap_congr fun t _ => t.leaves_mapLeaves g hg

theorem Class.parameterNames_mapLeaves (c : Class) :
    (c.mapLeaves g).parameterNames = c.parameterNames :=
  c.parameterNames_mapTypes _

theorem Constant.mapLeaves_mapLeaves (c : Constant) :
    (c.mapLeaves g).mapLeaves h = c.mapLeaves fun u => (g u).mapLeaves h :=
  congrArg (Constant.mk c.name) (c.type.mapLeaves_mapLeaves g h)

theorem Function.mapLeaves_mapLeaves (f : Function) :
    (f.mapLeaves g).mapLeaves h = f.mapLeaves fun u => (g u).mapLeaves h := by
  rw [mapLeaves, mapLeaves, mapTypes_mapTypes, mapLeaves]
  congr 1
  funext t
  exact t.mapLeaves_mapLeaves g h

theorem Class.mapLeaves_mapLeaves (c : Class) :
    (c.mapLeaves g).mapLeaves h = c.mapLeaves fun u => (g u).mapLeaves h := by
  rw [mapLeaves, mapLeaves, mapTypes_mapTypes, mapLeaves]
  congr 1
  funext t
  exact t.mapLeaves_mapLeaves g h

end LeavesMap
end InterfaceTree
