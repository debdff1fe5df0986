import InterfaceTree.Proofs.Canonical
import InterfaceTree.Proofs.Growth

/-!
# Type expressions after instantiation

While instantiation is under way, the targets are the instances made so far and all other references
are unlinked.
-/
namespace InterfaceTree

section Instantiated

/-- The atom with its cell filled anew, where a usage counts as a reference of its text. -/
def TypeExpr.instantiatedAtom (ofRef ofUsage : String → Option ClassId) (u : TypeExpr) : TypeExpr :=
  match u with
  | .named _ => u
  | .ref reference => .ref ⟨reference.name, ofRef reference.name⟩
  | _ =>
    match u.canonical with
    | .ok text => .ref ⟨text, ofUsage text⟩
    | .error _ => u

def TypeExpr.instantiated (ofRef ofUsage : String → Option ClassId) (t : TypeExpr) : TypeExpr :=
  t.mapAtoms (instantiatedAtom ofRef ofUsage)

variable {ofRef ofUsage : String → Option ClassId}

theorem TypeExpr.instantiatedAtom_usage {u : TypeExpr} {text : String} (hu : u.isUsage = true)
    (h : u.canonical = .ok text) :
    u.instantiatedAtom ofRef ofUsage = .ref ⟨text, ofUsage text⟩ := by
  cases u with
  | named name => cases hu
  | ref reference => cases hu
  | _ => simp only [instantiatedAtom, h]

theorem TypeExpr.instantiated_usage {u : TypeExpr} {text : String} (hu : u.isUsage = true)
    (h : u.canonical = .ok text) : u.instantiated ofRef ofUsage = .ref ⟨text, ofUsage text⟩ := by
  rw [instantiated, mapAtoms_of_isUsage hu, instantiatedAtom_usage hu h]

end Instantiated

def TypeExpr.NamesIn (allowed : String → Prop) (t : TypeExpr) : Prop :=
  ∀ name, .named name ∈ t.leaves → allowed name

namespace TypeExpr

variable {allowed : String → Prop} {base element : TypeExpr} {ts : List TypeExpr}

theorem namesIn_container : (container base element).NamesIn allowed ↔
    base.NamesIn allowed ∧ element.NamesIn allowed := by
  simp only [NamesIn, leaves_container, List.mem_append, or_imp, forall_and]

private theorem namesIn_flatMap : (∀ name, .named name ∈ ts.flatMap leaves → allowed name) ↔
    ∀ t ∈ ts, t.NamesIn allowed := by
  constructor
  · intro h t ht name hname
    exact h name (List.mem_flatMap.2 ⟨t, ht, hname⟩)
  · intro h name hname
    obtain ⟨t, ht, hname⟩ := List.mem_flatMap.1 hname
    exact h t ht name hname

theorem namesIn_generic : (generic base ts).NamesIn allowed ↔
    base.NamesIn allowed ∧ ∀ t ∈ ts, t.NamesIn allowed := by
  rw [← namesIn_flatMap]
  simp only [NamesIn, leaves_generic, List.mem_append, or_imp, forall_and]

theorem namesIn_union : (union ts).NamesIn allowed ↔ ∀ t ∈ ts, t.NamesIn allowed := by
  rw [← namesIn_flatMap, NamesIn, leaves_union]

theorem namesIn_inter : (inter ts).NamesIn allowed ↔ ∀ t ∈ ts, t.NamesIn allowed := by
  rw [← namesIn_flatMap, NamesIn, leaves_inter]

end TypeExpr

namespace Instantiation

def target? (s : Instantiation) (name : String) : Option ClassId := (s.cache.find? name).map (·.id)

/-- The expression as it is once the instances for its usages have been made. -/
def rewrite (s : Instantiation) (t : TypeExpr) : TypeExpr :=
  t.instantiated (fun _ => none) s.target?

section Covers

variable {τ : Type} [ClassTable τ] (table : τ)

/-- There is a class of that name, made now or in an earlier run. -/
def Provides (s : Instantiation) (name : String) : Prop :=
  isMadeBefore table name = true ∨ ∃ id, s.target? name = some id

/-- Every atom is a leaf, or a usage for which there is an instance. -/
def Covers (s : Instantiation) (t : TypeExpr) : Prop :=
  ∀ u ∈ t.atoms, (∃ name, u = .named name) ∨ (∃ reference, u = .ref reference) ∨
    u.isUsage = true ∧ ∃ text, u.canonical = .ok text ∧ s.Provides table text

variable {table} {s s' : Instantiation}

theorem Extends.target? (h : s.Extends s') {name : String} {id : ClassId}
    (hid : s.target? name = some id) : s'.target? name = some id := by
  obtain ⟨i, hi, rfl⟩ := Option.map_eq_some_iff.1 hid
  exact Option.map_eq_some_iff.2 ⟨i, h.made name i hi, rfl⟩

theorem Provides.extends_ (h : s.Extends s') {name : String} (hn : s.Provides table name) :
    s'.Provides table name := by
  rcases hn with before | ⟨id, hid⟩
  · exact .inl before
  · exact .inr ⟨id, h.target? hid⟩

theorem Covers.extends_ (h : s.Extends s') {t : TypeExpr} (ht : s.Covers table t) :
    s'.Covers table t := by
  intro u hu
  rcases ht u hu with name | reference | ⟨usage, text, htext, provided⟩
  · exact .inl name
  · exact .inr (.inl reference)
  · exact .inr (.inr ⟨usage, text, htext, provided.extends_ h⟩)

theorem Covers.isLeaf_or_isUsage {t : TypeExpr} (ht : s.Covers table t) :
    ∀ u ∈ t.atoms, u.isLeaf = true ∨ u.isUsage = true := by
  intro u hu
  rcases ht u hu with ⟨name, rfl⟩ | ⟨reference, rfl⟩ | ⟨usage, -⟩
  · exact .inl rfl
  · exact .inl rfl
  · exact .inr usage

theorem covers_union {members : List TypeExpr} (h : ∀ t ∈ members, s.Covers table t) :
    s.Covers table (.union members) := by
  intro u hu
  rw [TypeExpr.atoms_union] at hu
  obtain ⟨t, ht, hu⟩ := List.mem_flatMap.1 hu
  exact h t ht u hu

theorem covers_inter {members : List TypeExpr} (h : ∀ t ∈ members, s.Covers table t) :
    s.Covers table (.inter members) := by
  intro u hu
  rw [TypeExpr.atoms_inter] at hu
  obtain ⟨t, ht, hu⟩ := List.mem_flatMap.1 hu
  exact h t ht u hu

theorem covers_usage {u : TypeExpr} {text : String} (hu : u.isUsage = true)
    (htext : u.canonical = .ok text) (provided : s.Provides table text) : s.Covers table u := by
  intro v hv
  rw [TypeExpr.atoms_of_isUsage hu, List.mem_singleton] at hv
  rw [hv]
  exact .inr (.inr ⟨hu, text, htext, provided⟩)

/-- What instances are called is not changed by making instances. -/
theorem canonical_rewrite {t : TypeExpr} (ht : s.Covers table t) :
    (s.rewrite t).canonical = t.canonical := by
  apply TypeExpr.canonical_mapAtoms
  intro u hu
  rcases ht u hu with ⟨name, rfl⟩ | ⟨reference, rfl⟩ | ⟨usage, text, htext, -⟩
  · rfl
  · rfl
  · rw [TypeExpr.instantiatedAtom_usage usage htext, htext]
    exact TypeExpr.canonical_ref_of_isUsage usage htext _

end Covers

section Settled

/-- What may be inside of a type expression that is done: no usage, no name but the given ones, and
no target but an instance of the name. -/
def Settled (allowed : String → Prop) (s : Instantiation) : TypeExpr → Prop
  | .named name => allowed name
  | .ref reference => ∀ id, reference.target = some id → s.target? reference.name = some id
  | .container _ _ => False
  | .generic _ _ => False
  | .union _ => True
  | .inter _ => True

variable {allowed : String → Prop} {s s' : Instantiation}

theorem Settled.extends_ (h : s.Extends s') {u : TypeExpr} (hu : s.Settled allowed u) :
    s'.Settled allowed u := by
  cases u with
  | ref reference => exact fun id hid => h.target? (hu id hid)
  | _ => exact hu

theorem settled_rewrite {τ : Type} [ClassTable τ] {table : τ} {t : TypeExpr}
    (ht : s.Covers table t) (names : t.NamesIn allowed) {v : TypeExpr}
    (hv : v ∈ (s.rewrite t).subterms) : s.Settled allowed v := by
  rcases TypeExpr.mem_subterms_mapAtoms hv with ⟨u, hu, hv⟩ | ⟨members, rfl⟩ | ⟨members, rfl⟩
  · rcases ht u hu with ⟨name, rfl⟩ | ⟨reference, rfl⟩ | ⟨usage, text, htext, -⟩
    · rw [List.mem_singleton.1 hv]
      apply names
      rw [TypeExpr.leaves_eq_flatMap_atoms]
      exact List.mem_flatMap.2 ⟨_, hu, List.mem_cons_self⟩
    · rw [List.mem_singleton.1 hv]
      exact fun id hid => nomatch hid
    · rw [TypeExpr.instantiatedAtom_usage usage htext] at hv
      rw [List.mem_singleton.1 hv]
      exact fun id hid => hid
  · trivial
  · trivial

theorem usageFree_of_settled {t : TypeExpr} (h : ∀ u ∈ t.subterms, s.Settled allowed u) :
    t.UsageFree := by
  intro u hu
  have settled := h u hu
  constructor <;> intro kind <;> cases u <;> first | exact settled | cases kind

theorem usageFree_rewrite {τ : Type} [ClassTable τ] {table : τ} {t : TypeExpr}
    (ht : s.Covers table t) : (s.rewrite t).UsageFree :=
  usageFree_of_settled fun _ hu => settled_rewrite ht (fun (_ : String) _ => trivial) hu

theorem namesIn_of_settled {t : TypeExpr} (h : ∀ u ∈ t.subterms, s.Settled allowed u) :
    t.NamesIn allowed :=
  fun name hn => h (.named name) (List.mem_filter.1 hn).1

end Settled

/-- Rewriting is done once for all: later instances do not change it. -/
theorem rewrite_extends {τ : Type} [ClassTable τ] {table : τ} {s s' : Instantiation}
    (h : s.Extends s') (fresh : ∀ name, isMadeBefore table name = true → s'.target? name = none)
    {t : TypeExpr} (ht : s.Covers table t) : s'.rewrite t = s.rewrite t := by
  apply TypeExpr.mapAtoms_congr
  intro u hu
  rcases ht u hu with ⟨name, rfl⟩ | ⟨reference, rfl⟩ | ⟨usage, text, htext, provided⟩
  · rfl
  · rfl
  · have same : s'.target? text = s.target? text := by
      rcases provided with before | ⟨id, hid⟩
      · have absent := fresh text before
        cases hs : s.target? text with
        | none => exact absent
        | some id => rw [h.target? hs] at absent; cases absent
      · rw [hid, h.target? hid]
    rw [TypeExpr.instantiatedAtom_usage usage htext, TypeExpr.instantiatedAtom_usage usage htext,
      same]

end Instantiation
end InterfaceTree
