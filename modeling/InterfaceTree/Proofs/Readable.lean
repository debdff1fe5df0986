import InterfaceTree.Proofs.Flattened

/-!
# Types are told by their texts

The proof reads a text from the left: what has been read does not depend on what follows.
-/
namespace InterfaceTree

section Told

variable {α β : Type} {text : α → List Char} {key : α → β} {good : α → Prop}

/-- The item is told by its text at the start of a longer one, as far as `key` tells it and among
the good items, when what follows may follow. -/
def Told (text : α → List Char) (key : α → β) (good : α → Prop) (follows : List Char → Prop)
    (a : α) : Prop :=
  ∀ (b : α) (rest more : List Char), good b → follows rest → follows more →
    text a ++ rest = text b ++ more → key a = key b ∧ rest = more

theorem Told.mono {follows wider : List Char → Prop} {a : α} (h : Told text key good wider a)
    (wide : ∀ rest, follows rest → wider rest) : Told text key good follows a :=
  fun b rest more hb hrest hmore same => h b rest more hb (wide rest hrest) (wide more hmore) same

variable {separator : List Char} {follows : List Char → Prop} {as bs : List α}
  {rest more : List Char}

theorem told_tail
    (items : ∀ a ∈ as, Told text key good (fun r => follows r ∨ separator <+: r) a)
    (apart : ∀ r, follows r → ¬ separator <+: r) (hbs : ∀ b ∈ bs, good b) (hrest : follows rest)
    (hmore : follows more) (same : as.flatMap (separator ++ text ·) ++ rest =
      bs.flatMap (separator ++ text ·) ++ more) : as.map key = bs.map key ∧ rest = more := by
  have starts (c : α) (cs : List α) (r : List Char) :
      separator <+: (c :: cs).flatMap (separator ++ text ·) ++ r := by
    rw [List.flatMap_cons, List.append_assoc, List.append_assoc]
    exact List.prefix_append _ _
  have goes_on (cs : List α) {r : List Char} (hr : follows r) :
      follows (cs.flatMap (separator ++ text ·) ++ r) ∨
        separator <+: cs.flatMap (separator ++ text ·) ++ r := by
    cases cs with
    | nil => exact .inl hr
    | cons c cs => exact .inr (starts c cs r)
  induction as generalizing bs with
  | nil =>
    cases bs with
    | nil => exact ⟨rfl, same⟩
    | cons b bs =>
      have begins := starts b bs more
      rw [← same] at begins
      exact absurd begins (apart rest hrest)
  | cons a as ih =>
    cases bs with
    | nil =>
      have begins := starts a as rest
      rw [same] at begins
      exact absurd begins (apart more hmore)
    | cons b bs =>
      rw [List.forall_mem_cons] at items hbs
      simp only [List.flatMap_cons, List.append_assoc] at same
      obtain ⟨head, tails⟩ := items.1 b _ _ hbs.1 (goes_on as hrest) (goes_on bs hmore)
        (List.append_cancel_left same)
      obtain ⟨tail, rests⟩ := ih items.2 hbs.2 tails
      exact ⟨by rw [List.map_cons, List.map_cons, head, tail], rests⟩

private theorem intercalate_map_cons (separator : List Char) (text : α → List Char) (a : α)
    (as : List α) : separator.intercalate ((a :: as).map text) =
      text a ++ as.flatMap (separator ++ text ·) := by
  induction as generalizing a with
  | nil => simp
  | cons b as ih =>
    rw [List.map_cons, List.map_cons, List.intercalate_cons_cons, ← List.map_cons, ih,
      List.flatMap_cons, List.append_assoc, List.append_assoc]

theorem told_separated (some : as ≠ []) (some' : bs ≠ [])
    (items : ∀ a ∈ as, Told text key good (fun r => follows r ∨ separator <+: r) a)
    (apart : ∀ r, follows r → ¬ separator <+: r) (hbs : ∀ b ∈ bs, good b) (hrest : follows rest)
    (hmore : follows more) (same : separator.intercalate (as.map text) ++ rest =
      separator.intercalate (bs.map text) ++ more) : as.map key = bs.map key ∧ rest = more := by
  obtain ⟨a, as, rfl⟩ := List.exists_cons_of_ne_nil some
  obtain ⟨b, bs, rfl⟩ := List.exists_cons_of_ne_nil some'
  rw [intercalate_map_cons, intercalate_map_cons] at same
  -- one more separator in front of both makes them items with separators
  refine told_tail items apart hbs hrest hmore ?_
  simpa using same

end Told

section Names

private theorem startsIdentifier_backTick : Name.startsIdentifier Name.backTick = false := by
  decide

private theorem Name.head?_of_isBare {name : String} (h : isBare name = true) :
    ∃ c cs, name.toList = c :: cs ∧ startsIdentifier c = true := by
  rw [isBare] at h
  cases hn : name.toList with
  | nil =>
    rw [hn] at h
    cases h
  | cons c cs =>
    rw [hn, Bool.and_eq_true] at h
    exact ⟨c, cs, rfl, h.1⟩

/-- A name is told by its text when what follows does not go on with it. -/
theorem Name.told_spell {name : String} (hn : Writable name) :
    Told (fun name => (spell .quoted name).toList) id Writable
      (fun r => ∀ c ∈ r.head?, continuesIdentifier c = false) name := by
  intro other rest more ho hrest hmore same
  dsimp only at same
  have closes (r : List Char) : ∀ c ∈ (backTick :: r).head?, ¬ c ≠ backTick := by simp
  have inside {name : String} (hn : Writable name) : ∀ c ∈ name.toList, c ≠ backTick :=
    fun c hc => ne_of_mem_of_not_mem hc hn.2
  have differ {name : String} {r t : List Char} (bare : isBare name = true)
      (same : name.toList ++ r = backTick :: t) : False := by
    obtain ⟨c, cs, starts, first⟩ := head?_of_isBare bare
    rw [starts, List.cons_append, List.cons.injEq] at same
    rw [same.1, startsIdentifier_backTick] at first
    cases first
  cases bare : isBare name <;> cases bare' : isBare other
  · rw [toList_spell_quoted_of_not_isBare bare, toList_spell_quoted_of_not_isBare bare'] at same
    simp only [List.cons_append, List.append_assoc, List.cons.injEq, true_and] at same
    obtain ⟨names, rests⟩ := split_unique (· ≠ backTick) (inside hn) (inside ho) (closes _)
      (closes _) same
    exact ⟨String.toList_injective names, List.tail_eq_of_cons_eq rests⟩
  · rw [toList_spell_quoted_of_not_isBare bare, spell_quoted_of_isBare bare'] at same
    exact (differ bare' same.symm).elim
  · rw [spell_quoted_of_isBare bare, toList_spell_quoted_of_not_isBare bare'] at same
    exact (differ bare same).elim
  · rw [spell_quoted_of_isBare bare, spell_quoted_of_isBare bare'] at same
    obtain ⟨names, rests⟩ := split_unique (continuesIdentifier · = true) (plain_of_isBare bare)
      (plain_of_isBare bare') (by simpa using hrest) (by simpa using hmore) same
    exact ⟨String.toList_injective names, rests⟩

end Names

namespace TypeExpr

section Erased

mutual

/-- What the text of a type shows: names for references, and one form for usages. -/
def erased : TypeExpr → TypeExpr
  | .named name => .named name
  | .ref reference => .named reference.name
  | .container base element => .generic base.erased [element.erased]
  | .generic base args => .generic base.erased (erasedAll args)
  | .union members => .union (erasedAll members)
  | .inter members => .inter (erasedAll members)

def erasedAll : List TypeExpr → List TypeExpr
  | [] => []
  | t :: ts => t.erased :: erasedAll ts

end

theorem erasedAll_eq_map (ts : List TypeExpr) : erasedAll ts = ts.map erased := by
  induction ts with
  | nil => rfl
  | cons t ts ih => rw [erasedAll, ih, List.map_cons]

variable {base : TypeExpr} {ts : List TypeExpr}

theorem erased_generic : erased (.generic base ts) = .generic base.erased (ts.map erased) := by
  rw [erased, erasedAll_eq_map]

theorem erased_union : erased (.union ts) = .union (ts.map erased) := by
  rw [erased, erasedAll_eq_map]

theorem erased_inter : erased (.inter ts) = .inter (ts.map erased) := by
  rw [erased, erasedAll_eq_map]

theorem spelled_erased (style : Name.Style) (t : TypeExpr) :
    t.erased.spelled style = t.spelled style := by
  have all {ts : List TypeExpr} (h : ∀ t ∈ ts, t.erased.spelled style = t.spelled style) :
      (ts.map erased).map (spelled style) = ts.map (spelled style) := by
    rw [List.map_map]
    exact List.map_congr_left h
  induction t with
  | named name => rfl
  | ref reference => rfl
  | container base element hb he =>
    rw [erased, spelled_generic, hb, List.map_singleton, he, spelled]
  | generic base args hb ha => rw [erased_generic, spelled_generic, hb, all ha, spelled_generic]
  | union members hm => rw [erased_union, spelled_union, all hm, spelled_union]
  | inter members hm => rw [erased_inter, spelled_inter, all hm, spelled_inter]

end Erased

section Readable

/-- A name or a usage, which can be the base of a usage. -/
def IsPrimary (t : TypeExpr) : Prop := t.kind ≠ .unionType ∧ t.kind ≠ .intersectionType

instance (t : TypeExpr) : Decidable t.IsPrimary := inferInstanceAs (Decidable (_ ∧ _))

/-- What may be inside of a readable type. -/
def ReadableNode : TypeExpr → Prop
  | .named name => Name.Writable name
  | .ref reference => Name.Writable reference.name
  | .container base _ => base.IsPrimary
  | .generic base _ => base.IsPrimary
  | .union members => 2 ≤ members.length ∧ ∀ t ∈ members, t.kind ≠ .unionType
  | .inter members => 2 ≤ members.length ∧ ∀ t ∈ members, t.IsPrimary

instance : DecidablePred ReadableNode
  | .named name => inferInstanceAs (Decidable (Name.Writable name))
  | .ref reference => inferInstanceAs (Decidable (Name.Writable reference.name))
  | .container base _ => inferInstanceAs (Decidable base.IsPrimary)
  | .generic base _ => inferInstanceAs (Decidable base.IsPrimary)
  | .union members =>
    inferInstanceAs (Decidable (2 ≤ members.length ∧ ∀ t ∈ members, t.kind ≠ .unionType))
  | .inter members =>
    inferInstanceAs (Decidable (2 ≤ members.length ∧ ∀ t ∈ members, t.IsPrimary))

/-- All names can be written, bases of usages are names or usages, unions and intersections have at
least two members, no union is a member of a union, and members of intersections are names or
usages. -/
def Readable (t : TypeExpr) : Prop := t.Throughout ReadableNode

instance (t : TypeExpr) : Decidable t.Readable :=
  inferInstanceAs (Decidable (∀ u ∈ t.subterms, ReadableNode u))

theorem Readable.writable {t : TypeExpr} (h : t.Readable) : t.Writable := by
  intro u hu name hname
  have node := h u (List.mem_filter.1 hu).1
  cases u <;> first | cases hname; exact node | cases hname

end Readable

section Shown

def shown (t : TypeExpr) : List Char := (t.spelled .quoted).toList

def shownArguments (args : List TypeExpr) : List Char :=
  ", ".toList.intercalate (args.map shown) ++ ['>']

variable {base element : TypeExpr} {ts : List TypeExpr}

private theorem toList_usageText (base : String) (args : List TypeExpr) :
    (Layout.usageText base (args.map (spelled .quoted))).toList =
      base.toList ++ '<' :: shownArguments args := by
  simp [Layout.usageText, Layout.commas, shownArguments, Function.comp_def,
    show shown = fun t => (t.spelled .quoted).toList from rfl]

theorem shown_container : shown (.container base element) =
    base.shown ++ '<' :: shownArguments [element] := toList_usageText _ [element]

theorem shown_generic : shown (.generic base ts) = base.shown ++ '<' :: shownArguments ts := by
  rw [shown, spelled_generic, toList_usageText, shown]

theorem shown_union : shown (.union ts) = " or ".toList.intercalate (ts.map shown) := by
  rw [shown, spelled_union, String.toList_intercalate, List.map_map]
  rfl

theorem shown_inter : shown (.inter ts) = " and ".toList.intercalate (ts.map shown) := by
  rw [shown, spelled_inter, String.toList_intercalate, List.map_map]
  rfl

/-- The name that a usage, or a name, starts with. -/
def head : TypeExpr → String
  | .named name => name
  | .ref reference => reference.name
  | .container base _ => base.head
  | .generic base _ => base.head
  | .union _ => ""
  | .inter _ => ""

/-- The argument lists after that name. -/
def suffixes : TypeExpr → List (List TypeExpr)
  | .container base element => base.suffixes ++ [[element]]
  | .generic base args => base.suffixes ++ [args]
  | _ => []

theorem Readable.shown_of_isPrimary {t : TypeExpr} (h : t.Readable) (primary : t.IsPrimary) :
    Name.Writable t.head ∧ t.shown = (Name.spell .quoted t.head).toList ++
      t.suffixes.flatMap (['<'] ++ shownArguments ·) := by
  induction t with
  | named name => exact ⟨throughout_named.1 h, (List.append_nil _).symm⟩
  | ref reference => exact ⟨throughout_ref.1 h, (List.append_nil _).symm⟩
  | container base element hb =>
    obtain ⟨⟨readable, -⟩, base_primary⟩ := throughout_container.1 h
    obtain ⟨writable, whole⟩ := hb readable base_primary
    refine ⟨writable, ?_⟩
    rw [shown_container, whole, suffixes, List.flatMap_append, List.append_assoc]
    simp [head]
  | generic base args hb =>
    obtain ⟨⟨readable, -⟩, base_primary⟩ := throughout_generic.1 h
    obtain ⟨writable, whole⟩ := hb readable base_primary
    refine ⟨writable, ?_⟩
    rw [shown_generic, whole, suffixes, List.flatMap_append, List.append_assoc]
    simp [head]
  | union members => exact absurd rfl primary.1
  | inter members => exact absurd rfl primary.2

theorem Readable.erased_of_isPrimary {t : TypeExpr} (h : t.Readable) (primary : t.IsPrimary) :
    t.erased = (t.suffixes.map (List.map erased)).foldl .generic (.named t.head) := by
  induction t with
  | named name => rfl
  | ref reference => rfl
  | container base element hb =>
    obtain ⟨⟨readable, -⟩, base_primary⟩ := throughout_container.1 h
    simp [erased, hb readable base_primary, suffixes, head]
  | generic base args hb =>
    obtain ⟨⟨readable, -⟩, base_primary⟩ := throughout_generic.1 h
    simp [erased_generic, hb readable base_primary, suffixes, head]
  | union members => exact absurd rfl primary.1
  | inter members => exact absurd rfl primary.2

end Shown
section Levels

/-- What follows a whole type: the end of the text, or of an argument. -/
def Ends (rest : List Char) : Prop := ∀ c ∈ rest.head?, c = ',' ∨ c = '>'

/-- What follows a member of a union. -/
def FollowsProduct (rest : List Char) : Prop := Ends rest ∨ " or ".toList <+: rest

/-- What follows a member of an intersection. -/
def FollowsPrimary (rest : List Char) : Prop := ∀ c ∈ rest.head?, c = ' ' ∨ c = ',' ∨ c = '>'

private theorem followsPrimary_of_isPrefix {separator rest : List Char}
    (blank : separator.head? = some ' ') (h : separator <+: rest) : FollowsPrimary rest := by
  obtain ⟨more, rfl⟩ := h
  cases separator with
  | nil => cases blank
  | cons c cs =>
    cases blank
    simp [FollowsPrimary]

private theorem Ends.followsPrimary {rest : List Char} (h : Ends rest) : FollowsPrimary rest :=
  fun c hc => .inr (h c hc)

private theorem FollowsProduct.followsPrimary {rest : List Char} (h : FollowsProduct rest) :
    FollowsPrimary rest :=
  h.elim Ends.followsPrimary (followsPrimary_of_isPrefix rfl)

/-- What is told of a name or a usage, of a member of a union and of a type. -/
structure ToldByText (t : TypeExpr) : Prop where
  arguments : ∀ args ∈ t.suffixes, ∀ a ∈ args, Told shown erased Readable Ends a
  primary : t.IsPrimary →
    Told shown erased (fun u => u.Readable ∧ u.IsPrimary) FollowsPrimary t
  product : t.kind ≠ .unionType →
    Told shown erased (fun u => u.Readable ∧ u.kind ≠ .unionType) FollowsProduct t
  whole : Told shown erased Readable Ends t

private theorem starts_spell (name : String) :
    ∃ c cs, (Name.spell .quoted name).toList = c :: cs ∧ c ≠ '>' := by
  cases bare : Name.isBare name with
  | true =>
    obtain ⟨c, cs, starts, first⟩ := Name.head?_of_isBare bare
    refine ⟨c, cs, by rw [Name.spell_quoted_of_isBare bare, starts], ?_⟩
    rintro rfl
    exact absurd first (by decide)
  | false => exact ⟨_, _, Name.toList_spell_quoted_of_not_isBare bare, by decide⟩

private theorem Readable.starts {t : TypeExpr} (h : t.Readable) :
    ∃ c cs, t.shown = c :: cs ∧ c ≠ '>' := by
  have all {separator : List Char} {ts : List TypeExpr} (some : 2 ≤ ts.length)
      (hts : ∀ t ∈ ts, ∃ c cs, t.shown = c :: cs ∧ c ≠ '>') :
      ∃ c cs, separator.intercalate (ts.map shown) = c :: cs ∧ c ≠ '>' := by
    cases ts with
    | nil => cases some
    | cons t ts =>
      obtain ⟨c, cs, starts, differ⟩ := hts t List.mem_cons_self
      rw [intercalate_map_cons, starts, List.cons_append]
      exact ⟨c, _, rfl, differ⟩
  induction t with
  | named name => exact starts_spell name
  | ref reference => exact starts_spell reference.name
  | container base element hb =>
    obtain ⟨c, cs, starts, differ⟩ := hb (throughout_container.1 h).1.1
    exact ⟨c, _, by rw [shown_container, starts, List.cons_append], differ⟩
  | generic base args hb =>
    obtain ⟨c, cs, starts, differ⟩ := hb (throughout_generic.1 h).1.1
    exact ⟨c, _, by rw [shown_generic, starts, List.cons_append], differ⟩
  | union members hm =>
    obtain ⟨inside, two, -⟩ := throughout_union.1 h
    rw [shown_union]
    exact all two fun t ht => hm t ht (inside t ht)
  | inter members hm =>
    obtain ⟨inside, two, -⟩ := throughout_inter.1 h
    rw [shown_inter]
    exact all two fun t ht => hm t ht (inside t ht)

private theorem told_shownArguments {args : List TypeExpr} (own : ∀ a ∈ args, a.Readable)
    (h : ∀ a ∈ args, Told shown erased Readable Ends a) :
    Told shownArguments (List.map erased) (fun args => ∀ a ∈ args, a.Readable) (fun _ => True)
      args := by
  intro others rest more readable _ _ same
  rw [shownArguments, shownArguments, List.append_assoc, List.append_assoc] at same
  have empty {ts : List TypeExpr} {r t : List Char} (readable : ∀ a ∈ ts, a.Readable)
      (same : ", ".toList.intercalate (ts.map shown) ++ r = '>' :: t) : ts = [] := by
    cases ts with
    | nil => rfl
    | cons a ts =>
      obtain ⟨c, cs, starts, differ⟩ := (readable a List.mem_cons_self).starts
      rw [intercalate_map_cons, starts] at same
      exact absurd (List.head_eq_of_cons_eq same) differ
  by_cases none : args = []
  · subst none
    obtain rfl := empty readable same.symm
    exact ⟨rfl, List.tail_eq_of_cons_eq same⟩
  · have none' : others ≠ [] := by
      rintro rfl
      exact none (empty own same)
    have items : ∀ a ∈ args, Told shown erased Readable
        (fun r => r.head? = some '>' ∨ ", ".toList <+: r) a := by
      intro a ha
      apply (h a ha).mono
      rintro r (closing | ⟨r, rfl⟩) c hc
      · rw [closing] at hc
        exact .inr (Option.some.inj hc).symm
      · exact .inl (Option.some.inj hc).symm
    have apart (r : List Char) (closing : r.head? = some '>') : ¬ ", ".toList <+: r := by
      rintro ⟨r, rfl⟩
      cases closing
    obtain ⟨keys, rests⟩ := told_separated none none' items apart readable rfl rfl same
    exact ⟨keys, List.tail_eq_of_cons_eq rests⟩

private theorem Readable.of_mem_suffixes {t : TypeExpr} (h : t.Readable) :
    ∀ args ∈ t.suffixes, ∀ a ∈ args, a.Readable := by
  induction t with
  | container base element hb =>
    obtain ⟨⟨readable, argument⟩, -⟩ := throughout_container.1 h
    rw [suffixes, List.forall_mem_append]
    exact ⟨hb readable, by simpa [Readable] using argument⟩
  | generic base args hb =>
    obtain ⟨⟨readable, arguments⟩, -⟩ := throughout_generic.1 h
    rw [suffixes, List.forall_mem_append]
    exact ⟨hb readable, by simpa [Readable] using arguments⟩
  | _ => exact fun args hargs => absurd hargs List.not_mem_nil

/-- A name or a usage is read as a name and then one argument list after the other. -/
private theorem Readable.told_primary {t : TypeExpr} (ht : t.Readable) (primary : t.IsPrimary)
    (h : ∀ args ∈ t.suffixes, ∀ a ∈ args, Told shown erased Readable Ends a) :
    Told shown erased (fun u => u.Readable ∧ u.IsPrimary) FollowsPrimary t := by
  rintro u rest more ⟨hu, primary'⟩ hrest hmore same
  obtain ⟨writable, whole⟩ := ht.shown_of_isPrimary primary
  obtain ⟨writable', whole'⟩ := hu.shown_of_isPrimary primary'
  rw [whole, whole', List.append_assoc, List.append_assoc] at same
  have stops (argss : List (List TypeExpr)) {r : List Char} (hr : FollowsPrimary r) :
      ∀ c ∈ (argss.flatMap (['<'] ++ shownArguments ·) ++ r).head?,
        Name.continuesIdentifier c = false := by
    cases argss with
    | nil =>
      intro c hc
      rcases hr c hc with rfl | rfl | rfl <;> decide
    | cons args argss =>
      intro c hc
      cases hc
      decide
  obtain ⟨names, tails⟩ := Name.told_spell writable _ _ _ writable' (stops _ hrest)
    (stops _ hmore) same
  have items : ∀ args ∈ t.suffixes, Told shownArguments (List.map erased)
      (fun args => ∀ a ∈ args, a.Readable) (fun r => FollowsPrimary r ∨ ['<'] <+: r) args :=
    fun args hargs => (told_shownArguments (ht.of_mem_suffixes args hargs) (h args hargs)).mono
      fun _ _ => trivial
  have apart (r : List Char) (hr : FollowsPrimary r) : ¬ ['<'] <+: r := by
    rintro ⟨r, rfl⟩
    exact absurd (hr '<' rfl) (by decide)
  obtain ⟨suffixes, rests⟩ := told_tail items apart hu.of_mem_suffixes hrest hmore tails
  rw [ht.erased_of_isPrimary primary, hu.erased_of_isPrimary primary', suffixes]
  exact ⟨by rw [show t.head = u.head from names], rests⟩

private def joined (join : List TypeExpr → TypeExpr) : List TypeExpr → TypeExpr
  | [t] => t
  | ts => join ts

private theorem joined_of_two_le {join : List TypeExpr → TypeExpr} {ts : List TypeExpr}
    (h : 2 ≤ ts.length) : joined join (ts.map erased) = join (ts.map erased) := by
  match ts, h with
  | _ :: _ :: _, _ => rfl

private theorem factors_of_isPrimary {t : TypeExpr} (h : t.IsPrimary) : t.factors = [t] := by
  cases t with
  | inter members => exact absurd rfl h.2
  | _ => rfl

private theorem alternatives_of_kind {t : TypeExpr} (h : t.kind ≠ .unionType) :
    t.alternatives = [t] := by
  cases t with
  | union members => exact absurd rfl h
  | _ => rfl

private theorem Readable.factors_eq {t : TypeExpr} (h : t.Readable) (single : t.kind ≠ .unionType) :
    t.factors ≠ [] ∧ (∀ u ∈ t.factors, u.Readable ∧ u.IsPrimary) ∧
      t.shown = " and ".toList.intercalate (t.factors.map shown) ∧
      t.erased = joined .inter (t.factors.map erased) := by
  by_cases primary : t.IsPrimary
  · rw [factors_of_isPrimary primary]
    refine ⟨List.cons_ne_nil _ _, ?_, by simp, rfl⟩
    exact List.forall_mem_singleton.2 ⟨h, primary⟩
  · cases t with
    | inter members =>
      obtain ⟨inside, two, primaries⟩ := throughout_inter.1 h
      refine ⟨?_, fun u hu => ⟨inside u hu, primaries u hu⟩, shown_inter, ?_⟩
      · rintro rfl
        cases two
      · rw [erased_inter]
        exact (joined_of_two_le two).symm
    | _ => exact absurd ⟨single, nofun⟩ primary

private theorem Readable.alternatives_eq {t : TypeExpr} (h : t.Readable) :
    t.alternatives ≠ [] ∧ (∀ u ∈ t.alternatives, u.Readable ∧ u.kind ≠ .unionType) ∧
      t.shown = " or ".toList.intercalate (t.alternatives.map shown) ∧
      t.erased = joined .union (t.alternatives.map erased) := by
  by_cases single : t.kind = .unionType
  · cases t with
    | union members =>
      obtain ⟨inside, two, singles⟩ := throughout_union.1 h
      refine ⟨?_, fun u hu => ⟨inside u hu, singles u hu⟩, shown_union, ?_⟩
      · rintro rfl
        cases two
      · rw [erased_union]
        exact (joined_of_two_le two).symm
    | _ => cases single
  · rw [alternatives_of_kind single]
    refine ⟨List.cons_ne_nil _ _, ?_, by simp, rfl⟩
    exact List.forall_mem_singleton.2 ⟨h, single⟩

private theorem Readable.told_product {t : TypeExpr} (ht : t.Readable)
    (single : t.kind ≠ .unionType) (h : ∀ u ∈ t.factors,
      Told shown erased (fun u => u.Readable ∧ u.IsPrimary) FollowsPrimary u) :
    Told shown erased (fun u => u.Readable ∧ u.kind ≠ .unionType) FollowsProduct t := by
  rintro u rest more ⟨hu, single'⟩ hrest hmore same
  obtain ⟨some, -, text, whole⟩ := ht.factors_eq single
  obtain ⟨some', good, text', whole'⟩ := hu.factors_eq single'
  rw [text, text'] at same
  have items : ∀ u ∈ t.factors, Told shown erased (fun u => u.Readable ∧ u.IsPrimary)
      (fun r => FollowsProduct r ∨ " and ".toList <+: r) u :=
    fun u hu => (h u hu).mono fun _ hr =>
      hr.elim FollowsProduct.followsPrimary (followsPrimary_of_isPrefix rfl)
  have apart (r : List Char) (hr : FollowsProduct r) : ¬ " and ".toList <+: r := by
    rintro ⟨r, rfl⟩
    rcases hr with ends | ⟨r', same⟩
    · exact absurd (ends ' ' rfl) (by decide)
    · cases same
  obtain ⟨keys, rests⟩ := told_separated some some' items apart good hrest hmore same
  exact ⟨by rw [whole, whole', keys], rests⟩

private theorem Readable.told_whole {t : TypeExpr} (ht : t.Readable)
    (h : ∀ u ∈ t.alternatives,
      Told shown erased (fun u => u.Readable ∧ u.kind ≠ .unionType) FollowsProduct u) :
    Told shown erased Readable Ends t := by
  intro u rest more hu hrest hmore same
  obtain ⟨some, -, text, whole⟩ := ht.alternatives_eq
  obtain ⟨some', good, text', whole'⟩ := hu.alternatives_eq
  rw [text, text'] at same
  have apart (r : List Char) (ends : Ends r) : ¬ " or ".toList <+: r := by
    rintro ⟨r, rfl⟩
    exact absurd (ends ' ' rfl) (by decide)
  obtain ⟨keys, rests⟩ := told_separated some some' h apart good hrest hmore same
  exact ⟨by rw [whole, whole', keys], rests⟩

private theorem ToldByText.of_isPrimary {t : TypeExpr} (ht : t.Readable) (primary : t.IsPrimary)
    (arguments : ∀ args ∈ t.suffixes, ∀ a ∈ args, Told shown erased Readable Ends a) :
    t.ToldByText := by
  have told := ht.told_primary primary arguments
  have product := ht.told_product primary.1 (by simpa [factors_of_isPrimary primary] using told)
  have whole := ht.told_whole (by simpa [alternatives_of_kind primary.1] using product)
  exact ⟨arguments, fun _ => told, fun _ => product, whole⟩

theorem Readable.toldByText {t : TypeExpr} (h : t.Readable) : t.ToldByText := by
  induction t with
  | named name => exact .of_isPrimary h ⟨nofun, nofun⟩ nofun
  | ref reference => exact .of_isPrimary h ⟨nofun, nofun⟩ nofun
  | container base element hb he =>
    obtain ⟨⟨readable, argument⟩, -⟩ := throughout_container.1 h
    refine .of_isPrimary h ⟨nofun, nofun⟩ ?_
    rw [suffixes, List.forall_mem_append]
    refine ⟨(hb readable).arguments, ?_⟩
    simpa using (he argument).whole
  | generic base args hb ha =>
    obtain ⟨⟨readable, arguments⟩, -⟩ := throughout_generic.1 h
    refine .of_isPrimary h ⟨nofun, nofun⟩ ?_
    rw [suffixes, List.forall_mem_append]
    refine ⟨(hb readable).arguments, ?_⟩
    simpa using fun a ha' => (ha a ha' (arguments a ha')).whole
  | inter members hm =>
    obtain ⟨inside, -, primaries⟩ := throughout_inter.1 h
    have product := h.told_product nofun
      fun t ht => (hm t ht (inside t ht)).primary (primaries t ht)
    have whole := h.told_whole (by simpa [alternatives] using product)
    exact ⟨nofun, fun primary => absurd rfl primary.2, fun _ => product, whole⟩
  | union members hm =>
    obtain ⟨inside, -, singles⟩ := throughout_union.1 h
    have whole := h.told_whole
      fun t ht => (hm t ht (inside t ht)).product (singles t ht)
    exact ⟨nofun, fun primary => absurd rfl primary.1, fun single => absurd rfl single, whole⟩

/-- Two readable types have a text, and the same one, if and only if they are equal but for targets,
names in the place of references, and the two forms of a usage with one argument. -/
theorem render_eq_iff {t u : TypeExpr} (ht : t.Readable) (hu : u.Readable) :
    (∃ text, t.render = .ok text ∧ u.render = .ok text) ↔ t.erased = u.erased := by
  simp only [render_eq_ok_iff]
  constructor
  · rintro ⟨text, ⟨-, shows⟩, -, shows'⟩
    have same : t.shown ++ [] = u.shown ++ [] := by rw [shown, shown, shows, shows']
    exact (ht.toldByText.whole u [] [] hu nofun nofun same).1
  · intro same
    refine ⟨_, ⟨ht.writable, rfl⟩, hu.writable, ?_⟩
    rw [← spelled_erased .quoted u, ← same, spelled_erased]

/-- Names that look like what stands between the parts of a type, as references and as names. -/
theorem render_eq_iff_disguised :
    let t : TypeExpr := .union [.container (.container (.linked "or" 3) (.named "a, b"))
      (.inter [.named "x<y>", .named "and"]), .named "or"]
    let u : TypeExpr := .union [.generic (.container (.named "or") (.unlinked "a, b"))
      [.inter [.unlinked "x<y>", .linked "and" 0]], .unlinked "or"]
    t.Readable ∧ u.Readable ∧ t.render = .ok "or<`a, b`><`x<y>` and and> or or" ∧
      t.erased = u.erased := by
  intro t u
  have ht : t.Readable := by decide +kernel
  have hu : u.Readable := by decide +kernel
  have text : t.render = .ok "or<`a, b`><`x<y>` and and> or or" := by decide +kernel
  have text' : u.render = .ok "or<`a, b`><`x<y>` and and> or or" := by decide +kernel
  exact ⟨ht, hu, text, (render_eq_iff ht hu).1 ⟨_, text, text'⟩⟩

end Levels
end TypeExpr
end InterfaceTree
