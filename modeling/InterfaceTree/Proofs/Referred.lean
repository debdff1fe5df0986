import InterfaceTree.Proofs.Origin
import InterfaceTree.Proofs.Resolution

/-!
# What resolution leaves alone

Expressions that differ in nothing else become equal when every name in them, but for the universal
type, is turned into an unlinked reference.
-/
namespace InterfaceTree

section Leaf

variable (params : List String) (u : TypeExpr)

theorem referredLeaf_cases : referredLeaf params u = u ∨
    ∃ name, u.name? = some name ∧ referredLeaf params u = .unlinked name := by
  cases u with
  | named name =>
    by_cases h : name = universalName ∨ name ∈ params
    · exact .inl (by simp [referredLeaf, TypeExpr.wanted?, h])
    · exact .inr ⟨name, rfl, by simp [referredLeaf, TypeExpr.wanted?, h]⟩
  | ref reference => exact .inr ⟨reference.name, rfl, rfl⟩
  | _ => exact .inl rfl

theorem name?_referredLeaf : (referredLeaf params u).name? = u.name? := by
  rcases referredLeaf_cases params u with same | ⟨name, named, image⟩
  · rw [same]
  · rw [image, named]
    rfl

theorem referredLeaf_resolvedLeaf (target : String → ClassId) :
    referredLeaf [] (u.resolvedLeaf target params) = referredLeaf [] u := by
  cases u with
  | named name =>
    by_cases h : name = universalName ∨ name ∈ params
    · rw [TypeExpr.resolvedLeaf, TypeExpr.wanted?, if_pos h]
    · have stays : ¬ (name = universalName ∨ name ∈ ([] : List String)) := by
        rintro (same | inside)
        · exact h (.inl same)
        · cases inside
      rw [TypeExpr.resolvedLeaf, TypeExpr.wanted?, if_neg h, referredLeaf, referredLeaf,
        TypeExpr.wanted?, TypeExpr.wanted?, if_neg stays]
  | _ => rfl

variable {params u} in
theorem referredLeaf_of_wanted {name : String} (wants : u.wanted? params = some name) :
    referredLeaf [] u = .unlinked name := by
  have image := referredLeaf_resolvedLeaf params u fun _ => 0
  rw [TypeExpr.resolvedLeaf, wants] at image
  exact image.symm

end Leaf

namespace TypeExpr

/-- The expression with every name in it, but for the universal type, as an unlinked reference. -/
def referred (t : TypeExpr) : TypeExpr := t.mapLeaves (referredLeaf [])

variable {a b : TypeExpr}

theorem referred_referred (t : TypeExpr) : t.referred.referred = t.referred := by
  rw [referred, referred, mapLeaves_mapLeaves]
  apply mapLeaves_congr
  intro u hu
  rw [mapLeaves_of_isLeaf (referredLeaf_isLeaf [] u (isLeaf_of_mem_leaves hu))]
  rcases referredLeaf_cases [] u with same | ⟨name, -, image⟩
  · rw [same, same]
  · rw [image]
    rfl

theorem referred_union (members : List TypeExpr) :
    (union members).referred = .union (members.map referred) := mapLeaves_union _ members

theorem referred_inter (members : List TypeExpr) :
    (inter members).referred = .inter (members.map referred) := mapLeaves_inter _ members

theorem name?_referred (t : TypeExpr) : t.referred.name? = t.name? := by
  cases t with
  | named name => exact name?_referredLeaf [] (.named name)
  | _ => rfl

theorem usage?_referred (t : TypeExpr) :
    t.referred.usage? = t.usage?.map fun (base, element) => (base.referred, element.referred) := by
  rcases t with name | _ | _ | ⟨base, _ | ⟨element, _ | _⟩⟩ | _ | _
  case named =>
    rw [referred, mapLeaves_named]
    rcases referredLeaf_cases [] (.named name) with same | ⟨_, _, image⟩
    · rw [same]
      rfl
    · rw [image]
      rfl
  all_goals rfl

theorem usage?_of_referred_eq {base element : TypeExpr} (same : b.referred = a.referred)
    (usage : a.usage? = some (base, element)) : ∃ base' element',
      b.usage? = some (base', element') ∧ base'.referred = base.referred ∧
        element'.referred = element.referred := by
  have images := congrArg usage? same
  rw [usage?_referred, usage?_referred, usage] at images
  obtain ⟨⟨base', element'⟩, found, image⟩ := Option.map_eq_some_iff.1 images
  obtain ⟨bases, elements⟩ := Prod.mk.inj image
  exact ⟨base', element', found, bases, elements⟩

theorem union_of_referred_eq {members : List TypeExpr}
    (same : b.referred = (union members).referred) :
    ∃ members', b = .union members' ∧ members'.map referred = members.map referred := by
  rw [referred_union] at same
  cases b with
  | named name =>
    have leaf := congrArg name? same
    rw [name?_referred] at leaf
    cases leaf
  | union members' =>
    rw [referred_union] at same
    exact ⟨members', rfl, TypeExpr.union.inj same⟩
  | _ => cases same

theorem inter_of_referred_eq {members : List TypeExpr}
    (same : b.referred = (inter members).referred) :
    ∃ members', b = .inter members' ∧ members'.map referred = members.map referred := by
  rw [referred_inter] at same
  cases b with
  | named name =>
    have leaf := congrArg name? same
    rw [name?_referred] at leaf
    cases leaf
  | inter members' =>
    rw [referred_inter] at same
    exact ⟨members', rfl, TypeExpr.inter.inj same⟩
  | _ => cases same

theorem canonical_of_referred_eq (same : b.referred = a.referred) {text : String}
    (canonical : a.canonical = .ok text) : b.canonical = .ok text := by
  have texts (t : TypeExpr) : t.referred.text = t.text := by
    apply text_mapLeaves
    intro u hu
    rcases referredLeaf_cases [] u with same | ⟨name, named, image⟩
    · rw [same]
    · rw [image, text_of_name? named]
      rfl
  have writable (t : TypeExpr) : t.referred.Writable ↔ t.Writable := by
    rw [Writable, referred, leaves_mapLeaves _ (referredLeaf_isLeaf [])]
    simp only [List.forall_mem_map, name?_referredLeaf]
    rfl
  obtain ⟨names, rfl⟩ := canonical_eq_ok_iff.1 canonical
  refine canonical_eq_ok_iff.2 ⟨?_, ?_⟩
  · rwa [← writable, same, writable]
  · rw [← texts, same, texts]

theorem referred_put (t : TypeExpr) (name : String) (element : TypeExpr) :
    (t.put name element).referred = t.referred.put name element.referred := by
  rw [put, referred, referred, put, mapLeaves_mapLeaves, mapLeaves_mapLeaves]
  apply mapLeaves_congr
  intro u hu
  have leaf := isLeaf_of_mem_leaves hu
  rw [mapLeaves_of_isLeaf (referredLeaf_isLeaf [] u leaf), name?_referredLeaf]
  split
  · rfl
  · exact mapLeaves_of_isLeaf leaf

theorem referred_resolved (t : TypeExpr) (target : String → ClassId) (params : List String) :
    (t.mapLeaves fun u => u.resolvedLeaf target params).referred = t.referred := by
  rw [referred, mapLeaves_mapLeaves]
  apply mapLeaves_congr
  intro u hu
  have leaf := isLeaf_of_mem_leaves hu
  rw [mapLeaves_of_isLeaf (resolvedLeaf_isLeaf target params u leaf)]
  exact referredLeaf_resolvedLeaf params u target

/-- What rewriting makes of an expression, with the targets left out. -/
def bare (t : TypeExpr) : TypeExpr := t.instantiated (fun _ => none) fun _ => none

end TypeExpr

section Rewrite

variable {τ : Type} [ClassTable τ] {table : τ} {s : Instantiation}

theorem Instantiation.referred_rewrite {t : TypeExpr} (ht : s.Covers table t) :
    (s.rewrite t).referred = t.referred.bare := by
  rw [rewrite, TypeExpr.instantiated, TypeExpr.referred, TypeExpr.mapLeaves_mapAtoms,
    TypeExpr.bare, TypeExpr.instantiated, TypeExpr.referred,
    TypeExpr.mapAtoms_mapLeaves (referredLeaf_isLeaf [])]
  apply TypeExpr.mapAtoms_congr
  intro u hu
  rcases ht u hu with ⟨name, rfl⟩ | ⟨reference, rfl⟩ | ⟨usage, text, htext, -⟩
  · rcases referredLeaf_cases [] (.named name) with same | ⟨own, named, image⟩
    · simp [TypeExpr.instantiatedAtom, same]
    · simp [TypeExpr.instantiatedAtom, image]
  · rfl
  · have kept : u.referred.canonical = .ok text :=
      TypeExpr.canonical_of_referred_eq u.referred_referred htext
    have usage' : u.referred.isUsage = true := by
      rcases u with _ | _ | _ | ⟨base, _ | ⟨element, _ | _⟩⟩ | _ | _ <;> first | rfl | cases usage
    rw [TypeExpr.referred] at kept usage'
    rw [TypeExpr.instantiatedAtom_usage usage htext, TypeExpr.instantiatedAtom_usage usage' kept]
    rfl

def Class.referred (c : Class) : Class := c.mapTypes TypeExpr.referred

def Module.referred (x : Module Class) : Module Class := x.mapTypes TypeExpr.referred

theorem Class.referred_rewrite {c : Class} (h : ∀ t ∈ c.types, s.Covers table t) :
    (c.mapTypes s.rewrite).referred = c.referred.mapTypes TypeExpr.bare := by
  rw [referred, mapTypes_mapTypes, referred, mapTypes_mapTypes]
  exact mapTypes_congr fun t ht => Instantiation.referred_rewrite (h t ht)

theorem Module.referred_rewrite {x : Module Class} (h : ∀ t ∈ x.types, s.Covers table t) :
    (x.mapTypes s.rewrite).referred = x.referred.mapTypes TypeExpr.bare := by
  rw [referred, mapTypes_mapTypes, referred, mapTypes_mapTypes]
  exact mapTypes_congr fun t ht => Instantiation.referred_rewrite (h t ht)

theorem Template.referred_apply (c : Class) (name : String) (p : TemplateItem)
    (element : TypeExpr) : (Template.apply c name (Template.only p element)).referred =
      (c.referred.body name).mapTypes fun t => t.put p.name element.referred := by
  have body : (c.body name).referred = c.referred.body name := rfl
  rw [Template.apply_only, ← body, Class.referred, Class.referred, Class.mapTypes_mapTypes,
    Class.mapTypes_mapTypes]
  congr 1
  funext t
  exact TypeExpr.referred_put t p.name element

end Rewrite
end InterfaceTree
