import InterfaceTree.Layout
import InterfaceTree.Proofs.Atoms
import InterfaceTree.Proofs.Run

/-!
# The text that names an instance

The canonical text of a usage can stand as a name, and as a name it is its own text.
-/
namespace InterfaceTree

section Except

variable {ε α β : Type}

private theorem mapM_eq_ok {f : α → Except ε β} {as : List α} {bs : List β}
    (h : as.mapM f = .ok bs) : ∀ b ∈ bs, ∃ a ∈ as, f a = .ok b := by
  induction as generalizing bs with
  | nil =>
    cases h
    exact fun b hb => absurd hb List.not_mem_nil
  | cons a as ih =>
    rw [List.mapM_cons] at h
    obtain ⟨b, hb, h⟩ := bind_eq_ok_iff.1 h
    obtain ⟨cs, hcs, h⟩ := bind_eq_ok_iff.1 h
    cases h
    intro c hc
    rcases List.mem_cons.1 hc with rfl | hc
    · exact ⟨a, List.mem_cons_self, hb⟩
    · obtain ⟨a', ha', hc⟩ := ih hcs c hc
      exact ⟨a', List.mem_cons_of_mem a ha', hc⟩

end Except

theorem mem_intercalate_iff {c : Char} {separator : String} {texts : List String}
    (hs : c ∉ separator.toList) :
    c ∈ (String.intercalate separator texts).toList ↔ ∃ text ∈ texts, c ∈ text.toList := by
  rw [String.toList_intercalate]
  induction texts with
  | nil => simp
  | cons text texts ih =>
    cases texts with
    | nil => simp
    | cons second rest =>
      rw [List.map_cons] at ih
      rw [List.map_cons, List.map_cons, List.intercalate_cons_cons, List.mem_append,
        List.mem_append, ih, or_iff_left hs]
      simp only [List.exists_mem_cons_iff]

namespace TypeExpr

section Equations

variable (base element : TypeExpr) (ts : List TypeExpr)

theorem canonical_named (name : String) :
    canonical (.named name) = Name.write .plain .namedType name := rfl

theorem canonical_ref (reference : Reference) :
    canonical (.ref reference) = Name.write .plain .classReference reference.name := rfl

theorem canonical_container : canonical (.container base element) = (do
    let b ← base.canonical
    let e ← element.canonical
    pure (Layout.usageText b [e])) := rfl

private theorem evaluateAll_canonical :
    evaluateAll (Layout.rules 0 .plain) ts = ts.mapM canonical :=
  evaluateAll_eq_mapM _ ts

theorem canonical_generic : canonical (.generic base ts) = (do
    let b ← base.canonical
    let texts ← ts.mapM canonical
    pure (Layout.usageText b texts)) := by
  rw [← evaluateAll_canonical]
  rfl

theorem canonical_union :
    canonical (.union ts) = String.intercalate " or " <$> ts.mapM canonical := by
  rw [← evaluateAll_canonical, map_eq_pure_bind]
  rfl

theorem canonical_inter :
    canonical (.inter ts) = String.intercalate " and " <$> ts.mapM canonical := by
  rw [← evaluateAll_canonical, map_eq_pure_bind]
  rfl

theorem canonical_generic_singleton :
    canonical (.generic base [element]) = canonical (.container base element) := by
  rw [canonical_generic, canonical_container]
  simp

end Equations

private theorem writable_of_write {kind : Kind} {name text : String}
    (h : Name.write .plain kind name = .ok text) : Name.Writable name ∧ text = name := by
  rw [Name.write] at h
  cases checked : Name.check kind name with
  | error fault =>
    rw [checked] at h
    cases h
  | ok u =>
    rw [checked] at h
    cases h
    exact ⟨Name.check_eq_ok_iff.1 checked, Name.spell_plain name⟩

theorem backTick_mem_usageText_iff {base : String} {args : List String} :
    Name.backTick ∈ (Layout.usageText base args).toList ↔
      Name.backTick ∈ base.toList ∨ ∃ arg ∈ args, Name.backTick ∈ arg.toList := by
  have opening : Name.backTick ∉ "<".toList := by decide
  have closing : Name.backTick ∉ ">".toList := by decide
  simp only [Layout.usageText, String.toList_append, List.mem_append, opening, closing, or_false,
    Layout.commas, mem_intercalate_iff (show Name.backTick ∉ ", ".toList by decide)]

private theorem not_mem_usageText {base : String} {args : List String}
    (hb : Name.backTick ∉ base.toList) (ha : ∀ arg ∈ args, Name.backTick ∉ arg.toList) :
    Name.backTick ∉ (Layout.usageText base args).toList := by
  rw [backTick_mem_usageText_iff]
  rintro (inside | ⟨arg, harg, inside⟩)
  · exact hb inside
  · exact ha arg harg inside

theorem backTick_not_mem_canonical {t : TypeExpr} {text : String} (h : t.canonical = .ok text) :
    Name.backTick ∉ text.toList := by
  have all : ∀ (ts : List TypeExpr) (texts : List String), (∀ t ∈ ts, ∀ text,
      t.canonical = .ok text → Name.backTick ∉ text.toList) → ts.mapM canonical = .ok texts →
      ∀ text ∈ texts, Name.backTick ∉ text.toList := by
    intro ts texts hts h text htext
    obtain ⟨t, ht, htext⟩ := mapM_eq_ok h text htext
    exact hts t ht text htext
  induction t generalizing text with
  | named name =>
    rw [canonical_named] at h
    obtain ⟨writable, rfl⟩ := writable_of_write h
    exact writable.2
  | ref reference =>
    rw [canonical_ref] at h
    obtain ⟨writable, rfl⟩ := writable_of_write h
    exact writable.2
  | container base element hb he =>
    rw [canonical_container] at h
    obtain ⟨b, htb, h⟩ := bind_eq_ok_iff.1 h
    obtain ⟨e, hte, h⟩ := bind_eq_ok_iff.1 h
    cases h
    exact not_mem_usageText (hb htb) (by simpa using he hte)
  | generic base args hb ha =>
    rw [canonical_generic] at h
    obtain ⟨b, htb, h⟩ := bind_eq_ok_iff.1 h
    obtain ⟨texts, htexts, h⟩ := bind_eq_ok_iff.1 h
    cases h
    exact not_mem_usageText (hb htb) (all args texts (fun t ht text => ha t ht) htexts)
  | union members hm =>
    rw [canonical_union, map_eq_pure_bind] at h
    obtain ⟨texts, htexts, h⟩ := bind_eq_ok_iff.1 h
    cases h
    rw [mem_intercalate_iff (by decide)]
    rintro ⟨own, hown, inside⟩
    exact all members texts (fun t ht text => hm t ht) htexts own hown inside
  | inter members hm =>
    rw [canonical_inter, map_eq_pure_bind] at h
    obtain ⟨texts, htexts, h⟩ := bind_eq_ok_iff.1 h
    cases h
    rw [mem_intercalate_iff (by decide)]
    rintro ⟨own, hown, inside⟩
    exact all members texts (fun t ht text => hm t ht) htexts own hown inside

private theorem usageText_ne_empty (base : String) (args : List String) :
    Layout.usageText base args ≠ "" := by
  intro h
  have := congrArg String.toList h
  simp [Layout.usageText, String.toList_append] at this

/-- A reference that is named by the text of a usage has the text of the usage. -/
theorem canonical_ref_of_isUsage {u : TypeExpr} {text : String} (hu : u.isUsage = true)
    (h : u.canonical = .ok text) (target : Option ClassId) :
    canonical (.ref ⟨text, target⟩) = .ok text := by
  have filled : text ≠ "" := by
    have container : ∀ b e : TypeExpr, canonical (.container b e) = .ok text → text ≠ "" := by
      intro b e h
      rw [canonical_container] at h
      obtain ⟨b, -, h⟩ := bind_eq_ok_iff.1 h
      obtain ⟨e, -, h⟩ := bind_eq_ok_iff.1 h
      cases h
      exact usageText_ne_empty b [e]
    rcases u with _ | _ | ⟨b, e⟩ | ⟨b, _ | ⟨e, _ | _⟩⟩ | _ | _ <;> try cases hu
    · exact container b e h
    · exact container b e (by rwa [canonical_generic_singleton] at h)
  rw [canonical_ref, Name.write_eq_ok ⟨filled, backTick_not_mem_canonical h⟩, Name.spell_plain]

theorem canonical_mapAtoms {g : TypeExpr → TypeExpr} {t : TypeExpr}
    (hg : ∀ u ∈ t.atoms, (g u).canonical = u.canonical) :
    (t.mapAtoms g).canonical = t.canonical := by
  have all : ∀ ts : List TypeExpr, (∀ t ∈ ts, (∀ u ∈ t.atoms, (g u).canonical = u.canonical) →
      (t.mapAtoms g).canonical = t.canonical) →
      (∀ u ∈ ts.flatMap atoms, (g u).canonical = u.canonical) →
      (ts.map (mapAtoms g)).mapM canonical = ts.mapM canonical := by
    intro ts ih hts
    induction ts with
    | nil => rfl
    | cons t ts rest =>
      rw [List.flatMap_cons] at hts
      rw [List.map_cons, List.mapM_cons, List.mapM_cons,
        ih t List.mem_cons_self fun u hu => hts u (List.mem_append_left _ hu),
        rest (fun t' ht' => ih t' (List.mem_cons_of_mem t ht'))
          fun u hu => hts u (List.mem_append_right _ hu)]
  induction t with
  | named name => exact hg (.named name) List.mem_cons_self
  | ref reference => exact hg (.ref reference) List.mem_cons_self
  | container base element => exact hg (.container base element) List.mem_cons_self
  | generic base args => exact hg (.generic base args) List.mem_cons_self
  | union members hm =>
    rw [atoms_union] at hg
    rw [mapAtoms_union, canonical_union, all members hm hg, canonical_union]
  | inter members hm =>
    rw [atoms_inter] at hg
    rw [mapAtoms_inter, canonical_inter, all members hm hg, canonical_inter]

end TypeExpr
end InterfaceTree
