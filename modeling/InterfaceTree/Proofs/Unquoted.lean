import InterfaceTree.Proofs.Printable
import InterfaceTree.Proofs.Reading

/-! # The two styles of names -/
namespace InterfaceTree

section Ticks

def Text.unticked (text : String) : String :=
  String.ofList (text.toList.filter (· != Name.backTick))

namespace Text

theorem toList_unticked (text : String) :
    (unticked text).toList = text.toList.filter (· != Name.backTick) :=
  String.toList_ofList

theorem unticked_eq_self_iff {text : String} :
    unticked text = text ↔ Name.backTick ∉ text.toList := by
  rw [← String.toList_inj, toList_unticked, List.filter_eq_self]
  constructor
  · intro h inside
    simpa using h _ inside
  · intro h c hc
    simpa using ne_of_mem_of_not_mem hc h

theorem unticked_append (text more : String) :
    unticked (text ++ more) = unticked text ++ unticked more := by
  rw [← String.toList_inj]
  simp only [toList_unticked, String.toList_append, List.filter_append]

theorem unticked_intercalate {separator : String} (hs : Name.backTick ∉ separator.toList)
    (texts : List String) : unticked (String.intercalate separator texts) =
      String.intercalate separator (texts.map unticked) := by
  have kept : separator.toList.filter (· != Name.backTick) = separator.toList := by
    rw [← toList_unticked, unticked_eq_self_iff.2 hs]
  rw [← String.toList_inj, toList_unticked, String.toList_intercalate, String.toList_intercalate]
  induction texts with
  | nil => rfl
  | cons text texts ih =>
    cases texts with
    | nil => simp [toList_unticked]
    | cons second rest =>
      simp only [List.map_cons] at ih
      simp only [List.map_cons, List.intercalate_cons_cons, List.filter_append, kept, ih,
        toList_unticked]

theorem unticked_usageText (base : String) (args : List String) :
    unticked (Layout.usageText base args) =
      Layout.usageText (unticked base) (args.map unticked) := by
  have opening : unticked "<" = "<" := unticked_eq_self_iff.2 (by decide)
  have closing : unticked ">" = ">" := unticked_eq_self_iff.2 (by decide)
  simp only [Layout.usageText, Layout.commas, unticked_append, opening, closing,
    unticked_intercalate (show Name.backTick ∉ ", ".toList by decide)]

end Text

namespace Name

theorem writable_of_isBare {name : String} (h : isBare name = true) : Writable name := by
  constructor
  · rintro rfl
    cases h
  · intro inside
    exact absurd (plain_of_isBare h _ inside) (by decide)

theorem unticked_spell {style : Style} {name : String} (h : Writable name) :
    Text.unticked (spell style name) = name := by
  have kept : name.toList.filter (· != backTick) = name.toList := by
    rw [← Text.toList_unticked, Text.unticked_eq_self_iff.2 h.2]
  rw [← String.toList_inj, Text.toList_unticked]
  cases style with
  | plain => rw [spell_plain, kept]
  | quoted =>
    cases bare : isBare name with
    | true => rw [spell_quoted_of_isBare bare, kept]
    | false => simp [toList_spell_quoted_of_not_isBare bare, kept]

theorem backTick_mem_spell_iff {name : String} (h : Writable name) :
    backTick ∈ (spell .quoted name).toList ↔ isBare name = false := by
  cases bare : isBare name with
  | true => simpa [spell_quoted_of_isBare bare] using h.2
  | false => simp [toList_spell_quoted_of_not_isBare bare]

end Name
end Ticks

namespace TypeExpr

section Spelled

theorem unticked_spelled {t : TypeExpr} (h : t.Writable) :
    Text.unticked (t.spelled .quoted) = t.text := by
  have all {ts : List TypeExpr} (ih : ∀ t ∈ ts, t.Writable →
      Text.unticked (t.spelled .quoted) = t.text) (hts : ∀ t ∈ ts, t.Writable) :
      (ts.map (spelled .quoted)).map Text.unticked = ts.map text := by
    rw [List.map_map]
    exact List.map_congr_left fun t ht => ih t ht (hts t ht)
  induction t with
  | named name => exact Name.unticked_spell (writable_named.1 h)
  | ref reference => exact Name.unticked_spell (writable_ref.1 h)
  | container base element hb he =>
    obtain ⟨wb, we⟩ := writable_container.1 h
    rw [spelled, Text.unticked_usageText, List.map_singleton, hb wb, he we, text_container]
  | generic base args hb ha =>
    obtain ⟨wb, wa⟩ := writable_generic.1 h
    rw [spelled_generic, Text.unticked_usageText, hb wb, all ha wa, text_generic]
  | union members hm =>
    rw [spelled_union, Text.unticked_intercalate (by decide), all hm (writable_union.1 h),
      text_union]
  | inter members hm =>
    rw [spelled_inter, Text.unticked_intercalate (by decide), all hm (writable_inter.1 h),
      text_inter]

def HasTicked (t : TypeExpr) : Prop :=
  ∃ u ∈ t.leaves, ∃ name, u.name? = some name ∧ Name.isBare name = false

/-- Back-ticks come from names that are not bare, and from nothing else. -/
theorem backTick_mem_spelled_iff {t : TypeExpr} (h : t.Writable) :
    Name.backTick ∈ (t.spelled .quoted).toList ↔ t.HasTicked := by
  have all {ts : List TypeExpr} (ih : ∀ t ∈ ts, t.Writable →
      (Name.backTick ∈ (t.spelled .quoted).toList ↔ t.HasTicked)) (hts : ∀ t ∈ ts, t.Writable) :
      (∃ text ∈ ts.map (spelled .quoted), Name.backTick ∈ text.toList) ↔
        ∃ u ∈ ts.flatMap leaves, ∃ name, u.name? = some name ∧ Name.isBare name = false := by
    constructor
    · rintro ⟨text, member, inside⟩
      obtain ⟨t, ht, rfl⟩ := List.mem_map.1 member
      obtain ⟨u, hu, ticked⟩ := (ih t ht (hts t ht)).1 inside
      exact ⟨u, List.mem_flatMap.2 ⟨t, ht, hu⟩, ticked⟩
    · rintro ⟨u, member, ticked⟩
      obtain ⟨t, ht, hu⟩ := List.mem_flatMap.1 member
      exact ⟨_, List.mem_map_of_mem ht, (ih t ht (hts t ht)).2 ⟨u, hu, ticked⟩⟩
  induction t with
  | named name =>
    simpa [spelled, HasTicked, name?] using Name.backTick_mem_spell_iff (writable_named.1 h)
  | ref reference =>
    simpa [spelled, HasTicked, name?] using Name.backTick_mem_spell_iff (writable_ref.1 h)
  | container base element hb he =>
    obtain ⟨wb, we⟩ := writable_container.1 h
    simp only [spelled, backTick_mem_usageText_iff, List.mem_singleton, exists_eq_left, hb wb,
      he we, HasTicked, leaves_container, List.mem_append, or_and_right, exists_or]
  | generic base args hb ha =>
    obtain ⟨wb, wa⟩ := writable_generic.1 h
    simp only [spelled_generic, backTick_mem_usageText_iff, hb wb, all ha wa, HasTicked,
      leaves_generic, List.mem_append, or_and_right, exists_or]
  | union members hm =>
    rw [spelled_union, mem_intercalate_iff (by decide), all hm (writable_union.1 h), HasTicked,
      leaves_union]
  | inter members hm =>
    rw [spelled_inter, mem_intercalate_iff (by decide), all hm (writable_inter.1 h), HasTicked,
      leaves_inter]

theorem not_hasTicked_iff {t : TypeExpr} : ¬ t.HasTicked ↔
    ∀ u ∈ t.leaves, ∀ name, u.name? = some name → Name.isBare name = true := by
  simp only [HasTicked, not_exists, not_and, Bool.not_eq_false]

end Spelled

/-- The width of bodies and the style of names do not matter for what rendering does but write. -/
private theorem effect_canonical (t : TypeExpr) : effect t.canonical = effect t.render := by
  rw [canonical, render, t.effect_evaluate (Layout.performs_rules 0 .plain),
    t.effect_evaluate (Layout.performs_rules defaultIndent .quoted)]

/-- The text of an expression in a name of an instance is its text for reading with the back-ticks
deleted, and where there is no text for reading there is none, for the same reason. The two are one
text if and only if every name in the expression is bare. -/
theorem canonical_eq_map_render (t : TypeExpr) :
    t.canonical = t.render.map Text.unticked ∧
    ((∃ text, t.render = .ok text ∧ t.canonical = .ok text) ↔
      ∀ u ∈ t.leaves, ∀ name, u.name? = some name → Name.isBare name = true) := by
  constructor
  · have same := effect_canonical t
    cases shown : t.render with
    | error fault =>
      rw [shown] at same
      cases plain : t.canonical with
      | error other =>
        rw [plain] at same
        cases same
        rfl
      | ok text =>
        rw [plain] at same
        cases same
    | ok text =>
      obtain ⟨writable, rfl⟩ := render_eq_ok_iff.1 shown
      exact canonical_eq_ok_iff.2 ⟨writable, (unticked_spelled writable).symm⟩
  · rw [← not_hasTicked_iff]
    constructor
    · rintro ⟨text, shown, plain⟩
      obtain ⟨writable, rfl⟩ := render_eq_ok_iff.1 shown
      obtain ⟨-, same⟩ := canonical_eq_ok_iff.1 plain
      rw [← unticked_spelled writable, Text.unticked_eq_self_iff] at same
      rwa [← backTick_mem_spelled_iff writable]
    · intro bare
      have writable : t.Writable := fun u hu name leaf =>
        Name.writable_of_isBare (not_hasTicked_iff.1 bare u hu name leaf)
      rw [← backTick_mem_spelled_iff writable, ← Text.unticked_eq_self_iff,
        unticked_spelled writable] at bare
      exact ⟨_, render_eq_ok_iff.2 ⟨writable, rfl⟩, canonical_eq_ok_iff.2 ⟨writable, bare⟩⟩

end TypeExpr
end InterfaceTree
