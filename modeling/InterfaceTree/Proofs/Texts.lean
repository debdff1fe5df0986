import InterfaceTree.Proofs.Canonical

/-! # Texts of type expressions -/
namespace InterfaceTree.TypeExpr

mutual

/-- The canonical text, put together without looking at the names. -/
def text : TypeExpr → String
  | .named name => name
  | .ref reference => reference.name
  | .container base element => Layout.usageText base.text [element.text]
  | .generic base args => Layout.usageText base.text (textAll args)
  | .union members => String.intercalate " or " (textAll members)
  | .inter members => String.intercalate " and " (textAll members)

def textAll : List TypeExpr → List String
  | [] => []
  | t :: ts => t.text :: textAll ts

end

theorem textAll_eq_map (ts : List TypeExpr) : textAll ts = ts.map text := by
  induction ts with
  | nil => rfl
  | cons t ts ih => rw [textAll, ih, List.map_cons]

section Equations

variable (base element : TypeExpr) (ts : List TypeExpr)

@[simp] theorem text_named (name : String) : text (.named name) = name := rfl

@[simp] theorem text_ref (reference : Reference) : text (.ref reference) = reference.name := rfl

@[simp] theorem text_container :
    text (.container base element) = Layout.usageText base.text [element.text] := rfl

@[simp] theorem text_generic :
    text (.generic base ts) = Layout.usageText base.text (ts.map text) := by
  rw [text, textAll_eq_map]

@[simp] theorem text_union : text (.union ts) = String.intercalate " or " (ts.map text) := by
  rw [text, textAll_eq_map]

@[simp] theorem text_inter : text (.inter ts) = String.intercalate " and " (ts.map text) := by
  rw [text, textAll_eq_map]

variable {t : TypeExpr} in
theorem text_of_name? {name : String} (h : t.name? = some name) : t.text = name := by
  cases t <;> first | exact Option.some.inj h | cases h

end Equations

def Writable (t : TypeExpr) : Prop :=
  ∀ u ∈ t.leaves, ∀ name, u.name? = some name → Name.Writable name

section Writable

variable {base element : TypeExpr} {ts : List TypeExpr}

theorem writable_named {name : String} : (named name).Writable ↔ Name.Writable name := by
  simp [Writable, name?]

theorem writable_ref {reference : Reference} :
    (ref reference).Writable ↔ Name.Writable reference.name := by
  simp [Writable, name?]

theorem writable_container :
    (container base element).Writable ↔ base.Writable ∧ element.Writable := by
  simp only [Writable, leaves_container, List.mem_append, or_imp, forall_and]

private theorem writable_flatMap :
    (∀ u ∈ ts.flatMap leaves, ∀ name, u.name? = some name → Name.Writable name) ↔
      ∀ t ∈ ts, t.Writable := by
  constructor
  · intro h t ht u hu
    exact h u (List.mem_flatMap.2 ⟨t, ht, hu⟩)
  · intro h u hu
    obtain ⟨t, ht, hu⟩ := List.mem_flatMap.1 hu
    exact h t ht u hu

theorem writable_generic :
    (generic base ts).Writable ↔ base.Writable ∧ ∀ t ∈ ts, t.Writable := by
  rw [← writable_flatMap]
  simp only [Writable, leaves_generic, List.mem_append, or_imp, forall_and]

theorem writable_union : (union ts).Writable ↔ ∀ t ∈ ts, t.Writable := by
  rw [← writable_flatMap, Writable, leaves_union]

theorem writable_inter : (inter ts).Writable ↔ ∀ t ∈ ts, t.Writable := by
  rw [← writable_flatMap, Writable, leaves_inter]

end Writable

section Spelled

mutual

/-- The text in a style of names, put together without looking at whether names can be written. -/
def spelled (style : Name.Style) : TypeExpr → String
  | .named name => Name.spell style name
  | .ref reference => Name.spell style reference.name
  | .container base element => Layout.usageText (base.spelled style) [element.spelled style]
  | .generic base args => Layout.usageText (base.spelled style) (spelledAll style args)
  | .union members => String.intercalate " or " (spelledAll style members)
  | .inter members => String.intercalate " and " (spelledAll style members)

def spelledAll (style : Name.Style) : List TypeExpr → List String
  | [] => []
  | t :: ts => t.spelled style :: spelledAll style ts

end

variable {style : Name.Style} {base element : TypeExpr} {ts : List TypeExpr}

theorem spelledAll_eq_map : spelledAll style ts = ts.map (spelled style) := by
  induction ts with
  | nil => rfl
  | cons t ts ih => rw [spelledAll, ih, List.map_cons]

theorem spelled_generic : spelled style (.generic base ts) =
    Layout.usageText (base.spelled style) (ts.map (spelled style)) := by
  rw [spelled, spelledAll_eq_map]

theorem spelled_union :
    spelled style (.union ts) = String.intercalate " or " (ts.map (spelled style)) := by
  rw [spelled, spelledAll_eq_map]

theorem spelled_inter :
    spelled style (.inter ts) = String.intercalate " and " (ts.map (spelled style)) := by
  rw [spelled, spelledAll_eq_map]

theorem spelled_plain (t : TypeExpr) : t.spelled .plain = t.text := by
  induction t with
  | named name => exact Name.spell_plain name
  | ref reference => exact Name.spell_plain reference.name
  | container base element hb he => rw [spelled, hb, he, text_container]
  | generic base args hb ha => rw [spelled_generic, hb, List.map_congr_left ha, text_generic]
  | union members hm => rw [spelled_union, List.map_congr_left hm, text_union]
  | inter members hm => rw [spelled_inter, List.map_congr_left hm, text_inter]

private theorem write_eq_ok_iff {kind : Kind} {name text : String} :
    Name.write style kind name = .ok text ↔ Name.Writable name ∧ Name.spell style name = text := by
  constructor
  · intro h
    cases checked : Name.check kind name with
    | error fault =>
      rw [Name.write, checked] at h
      cases h
    | ok u =>
      have writable := Name.check_eq_ok_iff.1 checked
      rw [Name.write_eq_ok writable] at h
      exact ⟨writable, Except.ok.inj h⟩
  · rintro ⟨writable, rfl⟩
    exact Name.write_eq_ok writable

private theorem mapM_eq_ok_iff {text : TypeExpr → Except Fault String} {texts : List String}
    (h : ∀ t ∈ ts, ∀ {own}, text t = .ok own ↔ t.Writable ∧ t.spelled style = own) :
    ts.mapM text = .ok texts ↔ (∀ t ∈ ts, t.Writable) ∧ ts.map (spelled style) = texts := by
  induction ts generalizing texts with
  | nil =>
    rw [List.mapM_nil, pure_eq_ok_iff]
    exact ⟨fun same => ⟨fun _ ht => absurd ht List.not_mem_nil, same⟩, fun h => h.2⟩
  | cons t ts ih =>
    have rest {texts : List String} : ts.mapM text = .ok texts ↔
        (∀ t ∈ ts, t.Writable) ∧ ts.map (spelled style) = texts :=
      ih fun u hu => h u (List.mem_cons_of_mem t hu)
    simp only [List.mapM_cons, bind_eq_ok_iff, pure_eq_ok_iff, h t List.mem_cons_self, rest,
      List.forall_mem_cons, List.map_cons]
    constructor
    · rintro ⟨_, ⟨ht, rfl⟩, _, ⟨hts, rfl⟩, rfl⟩
      exact ⟨⟨ht, hts⟩, rfl⟩
    · rintro ⟨⟨ht, hts⟩, rfl⟩
      exact ⟨_, ⟨ht, rfl⟩, _, ⟨hts, rfl⟩, rfl⟩

theorem evaluate_eq_ok_iff {indent : Nat} {t : TypeExpr} {name : String} :
    t.evaluate (Layout.rules indent style) = .ok name ↔ t.Writable ∧ t.spelled style = name := by
  have all {ts : List TypeExpr} (h : ∀ t ∈ ts, ∀ {own},
      t.evaluate (Layout.rules indent style) = .ok own ↔ t.Writable ∧ t.spelled style = own)
      {texts : List String} : evaluateAll (Layout.rules indent style) ts = .ok texts ↔
        (∀ t ∈ ts, t.Writable) ∧ ts.map (spelled style) = texts := by
    rw [evaluateAll_eq_mapM]
    exact mapM_eq_ok_iff h
  induction t generalizing name with
  | named own => rw [writable_named]; exact write_eq_ok_iff
  | ref reference => rw [writable_ref]; exact write_eq_ok_iff
  | container base element hb he =>
    rw [writable_container, spelled, evaluate]
    simp only [bind_eq_ok_iff, hb, he]
    constructor
    · rintro ⟨_, ⟨hb, rfl⟩, _, ⟨he, rfl⟩, written⟩
      exact ⟨⟨hb, he⟩, Except.ok.inj written⟩
    · rintro ⟨⟨hb, he⟩, rfl⟩
      exact ⟨_, ⟨hb, rfl⟩, _, ⟨he, rfl⟩, rfl⟩
  | generic base args hb ha =>
    rw [writable_generic, spelled_generic, evaluate]
    simp only [bind_eq_ok_iff, hb, all fun t ht {_} => ha t ht]
    constructor
    · rintro ⟨_, ⟨hb, rfl⟩, _, ⟨ha, rfl⟩, written⟩
      exact ⟨⟨hb, ha⟩, Except.ok.inj written⟩
    · rintro ⟨⟨hb, ha⟩, rfl⟩
      exact ⟨_, ⟨hb, rfl⟩, _, ⟨ha, rfl⟩, rfl⟩
  | union members hm =>
    rw [writable_union, spelled_union, evaluate]
    simp only [bind_eq_ok_iff, all fun t ht {_} => hm t ht]
    constructor
    · rintro ⟨_, ⟨hm, rfl⟩, written⟩
      exact ⟨hm, Except.ok.inj written⟩
    · rintro ⟨hm, rfl⟩
      exact ⟨_, ⟨hm, rfl⟩, rfl⟩
  | inter members hm =>
    rw [writable_inter, spelled_inter, evaluate]
    simp only [bind_eq_ok_iff, all fun t ht {_} => hm t ht]
    constructor
    · rintro ⟨_, ⟨hm, rfl⟩, written⟩
      exact ⟨hm, Except.ok.inj written⟩
    · rintro ⟨hm, rfl⟩
      exact ⟨_, ⟨hm, rfl⟩, rfl⟩

theorem canonical_eq_ok_iff {t : TypeExpr} {name : String} :
    t.canonical = .ok name ↔ t.Writable ∧ t.text = name := by
  rw [canonical, evaluate_eq_ok_iff, spelled_plain]

theorem render_eq_ok_iff {t : TypeExpr} {name : String} :
    t.render = .ok name ↔ t.Writable ∧ t.spelled .quoted = name :=
  evaluate_eq_ok_iff

end Spelled

section MapLeaves

variable {g : TypeExpr → TypeExpr}

theorem text_mapLeaves {t : TypeExpr} (hg : ∀ u ∈ t.leaves, (g u).text = u.text) :
    (t.mapLeaves g).text = t.text := by
  have all : ∀ ts : List TypeExpr, (∀ t ∈ ts, (∀ u ∈ t.leaves, (g u).text = u.text) →
      (t.mapLeaves g).text = t.text) → (∀ u ∈ ts.flatMap leaves, (g u).text = u.text) →
      (ts.map (mapLeaves g)).map text = ts.map text := by
    intro ts ih hts
    rw [List.map_map]
    apply List.map_congr_left
    intro t ht
    exact ih t ht fun u hu => hts u (List.mem_flatMap.2 ⟨t, ht, hu⟩)
  induction t with
  | named name => exact hg (.named name) List.mem_cons_self
  | ref reference => exact hg (.ref reference) List.mem_cons_self
  | container base element hb he =>
    rw [leaves_container] at hg
    rw [mapLeaves_container, text_container, hb fun u hu => hg u (List.mem_append_left _ hu),
      he fun u hu => hg u (List.mem_append_right _ hu), text_container]
  | generic base args hb ha =>
    rw [leaves_generic] at hg
    rw [mapLeaves_generic, text_generic, hb fun u hu => hg u (List.mem_append_left _ hu),
      all args ha fun u hu => hg u (List.mem_append_right _ hu), text_generic]
  | union members hm =>
    rw [leaves_union] at hg
    rw [mapLeaves_union, text_union, all members hm hg, text_union]
  | inter members hm =>
    rw [leaves_inter] at hg
    rw [mapLeaves_inter, text_inter, all members hm hg, text_inter]

/-- Leaves that keep what they are called keep what the whole is called, failures too. -/
theorem canonical_mapLeaves {t : TypeExpr}
    (hg : ∀ u ∈ t.leaves, (g u).canonical = u.canonical) :
    (t.mapLeaves g).canonical = t.canonical := by
  have all : ∀ ts : List TypeExpr, (∀ t ∈ ts, (∀ u ∈ t.leaves, (g u).canonical = u.canonical) →
      (t.mapLeaves g).canonical = t.canonical) →
      (∀ u ∈ ts.flatMap leaves, (g u).canonical = u.canonical) →
      (ts.map (mapLeaves g)).mapM canonical = ts.mapM canonical := by
    intro ts ih hts
    induction ts with
    | nil => rfl
    | cons t ts rest =>
      rw [List.flatMap_cons] at hts
      rw [List.map_cons, List.mapM_cons, List.mapM_cons,
        ih t List.mem_cons_self fun u hu => hts u (List.mem_append_left _ hu),
        rest (fun t' ht' => ih t' (List.mem_cons_of_mem t ht'))
          fun u hu => hts u (List.mem_append_right _ hu)]
  induction t with
  | named name => exact hg (.named name) List.mem_cons_self
  | ref reference => exact hg (.ref reference) List.mem_cons_self
  | container base element hb he =>
    rw [leaves_container] at hg
    rw [mapLeaves_container, canonical_container, hb fun u hu => hg u (List.mem_append_left _ hu),
      he fun u hu => hg u (List.mem_append_right _ hu), canonical_container]
  | generic base args hb ha =>
    rw [leaves_generic] at hg
    rw [mapLeaves_generic, canonical_generic, hb fun u hu => hg u (List.mem_append_left _ hu),
      all args ha fun u hu => hg u (List.mem_append_right _ hu), canonical_generic]
  | union members hm =>
    rw [leaves_union] at hg
    rw [mapLeaves_union, canonical_union, all members hm hg, canonical_union]
  | inter members hm =>
    rw [leaves_inter] at hg
    rw [mapLeaves_inter, canonical_inter, all members hm hg, canonical_inter]

theorem writable_mapLeaves {t : TypeExpr} :
    (t.mapLeaves g).Writable ↔ ∀ u ∈ t.leaves, (g u).Writable := by
  simp only [Writable, leaves_mapLeaves_eq_flatMap, List.mem_flatMap]
  constructor
  · intro h u hu v hv
    exact h v ⟨u, hu, hv⟩
  · rintro h v ⟨u, hu, hv⟩
    exact h u hu v hv

end MapLeaves
end InterfaceTree.TypeExpr
