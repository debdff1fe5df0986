import InterfaceTree.Instance.Specialize
import InterfaceTree.Proofs.Texts

/-!
# Reading texts back

A canonical text has no parentheses: it is a list of names with a joint in front of each but the
first.
-/
namespace InterfaceTree

/-- A text has one split with a property of all characters before it and not of the next one. -/
theorem split_unique (P : Char → Prop) [DecidablePred P] {cs ds rest more : List Char}
    (hc : ∀ c ∈ cs, P c) (hd : ∀ c ∈ ds, P c) (hrest : ∀ c ∈ rest.head?, ¬ P c)
    (hmore : ∀ c ∈ more.head?, ¬ P c) (same : cs ++ rest = ds ++ more) : cs = ds ∧ rest = more := by
  have stops {rest : List Char} (h : ∀ c ∈ rest.head?, ¬ P c) : rest.takeWhile (P ·) = [] := by
    cases rest with
    | nil => rfl
    | cons c rest => exact List.takeWhile_cons_of_neg (by simpa using h c rfl)
  have first {cs rest : List Char} (hc : ∀ c ∈ cs, P c) (hrest : ∀ c ∈ rest.head?, ¬ P c) :
      (cs ++ rest).takeWhile (P ·) = cs := by
    rw [List.takeWhile_append_of_pos (by simpa using hc), stops hrest, List.append_nil]
  obtain rfl : cs = ds := by rw [← first hc hrest, same, first hd hmore]
  exact ⟨rfl, List.append_cancel_left same⟩

section Solid

/-- The depth of angle brackets after a character. There is none when a bracket is closed that has
not been opened, and at a blank that is outside of all brackets. -/
def Name.depth (depth : Nat) (c : Char) : Option Nat :=
  if c = '<' then some (depth + 1)
  else if depth = 0 ∧ (c = '>' ∨ c = ' ') then none
  else if c = '>' then some (depth - 1)
  else some depth

/-- The name ends where a text goes on with a blank: its brackets are balanced, and all blanks in it
are inside of them. -/
def Name.Solid (name : String) : Prop := name.toList.foldlM Name.depth 0 = some 0

instance (name : String) : Decidable (Name.Solid name) := inferInstanceAs (Decidable (_ = _))

namespace Name

private theorem depth_add {depth after : Nat} {c : Char} (more : Nat)
    (h : Name.depth depth c = some after) : Name.depth (depth + more) c = some (after + more) := by
  unfold Name.depth at *
  split at h
  · grind
  · grind

private theorem foldlM_depth_add {cs : List Char} {depth after : Nat} (more : Nat)
    (h : cs.foldlM Name.depth depth = some after) :
    cs.foldlM Name.depth (depth + more) = some (after + more) := by
  induction cs generalizing depth with
  | nil =>
    cases h
    rfl
  | cons c cs ih =>
    rw [List.foldlM_cons] at h ⊢
    obtain ⟨next, hc, hcs⟩ := Option.bind_eq_some_iff.1 h
    rw [depth_add more hc]
    exact ih hcs

theorem plain_of_isBare {name : String} (h : isBare name = true) :
    ∀ c ∈ name.toList, continuesIdentifier c = true := by
  rw [isBare] at h
  cases hn : name.toList with
  | nil => exact fun c hc => absurd hc List.not_mem_nil
  | cons c cs =>
    rw [hn, Bool.and_eq_true, List.all_eq_true] at h
    refine List.forall_mem_cons.2 ⟨?_, h.2⟩
    have first := h.1
    simp only [startsIdentifier, continuesIdentifier, Bool.or_eq_true] at first ⊢
    simp only [Char.isAlphanum, Bool.or_eq_true]
    tauto

theorem solid_of_isBare {name : String} (h : isBare name = true) : Solid name := by
  have plain := plain_of_isBare h
  rw [Solid]
  generalize name.toList = cs at plain
  induction cs with
  | nil => rfl
  | cons c cs ih =>
    have step : Name.depth 0 c = some 0 := by
      have hc := plain c List.mem_cons_self
      have opening : c ≠ '<' := by rintro rfl; revert hc; decide
      have closing : c ≠ '>' := by rintro rfl; revert hc; decide
      have blank : c ≠ ' ' := by rintro rfl; revert hc; decide
      simp [Name.depth, opening, closing, blank]
    rw [List.foldlM_cons, step]
    exact ih fun d hd => plain d (List.mem_cons_of_mem c hd)

def Stops (rest : List Char) : Prop := ∀ c ∈ rest.head?, c = ' '

/-- Of two names at the start of a text one cannot be longer than the other. -/
private theorem eq_of_append_eq {cs ds rest more : List Char} {depth : Nat}
    (hc : cs.foldlM Name.depth depth = some 0) (hd : ds.foldlM Name.depth depth = some 0)
    (hrest : Stops rest) (hmore : Stops more) (same : cs ++ rest = ds ++ more) :
    cs = ds ∧ rest = more := by
  induction cs generalizing ds depth with
  | nil =>
    cases hc
    cases ds with
    | nil => exact ⟨rfl, same⟩
    | cons d ds =>
      obtain rfl : d = ' ' := hrest d (by rw [List.nil_append] at same; rw [same]; rfl)
      cases hd
  | cons c cs ih =>
    cases ds with
    | nil =>
      cases hd
      obtain rfl : c = ' ' := hmore c (by rw [List.nil_append] at same; rw [← same]; rfl)
      cases hc
    | cons d ds =>
      rw [List.cons_append, List.cons_append, List.cons.injEq] at same
      obtain ⟨rfl, same⟩ := same
      rw [List.foldlM_cons] at hc hd
      obtain ⟨next, step, hc⟩ := Option.bind_eq_some_iff.1 hc
      rw [step] at hd
      obtain ⟨rfl, rest_eq⟩ := ih hc hd same
      exact ⟨rfl, rest_eq⟩

private theorem Solid.foldlM_depth {name : String} (h : Solid name) (depth : Nat) :
    name.toList.foldlM Name.depth depth = some depth := by
  have := foldlM_depth_add depth h
  rwa [Nat.zero_add] at this

private theorem foldlM_depth_blank (depth : Nat) {separator : String}
    (h : separator.toList.foldlM Name.depth 1 = some 1) :
    separator.toList.foldlM Name.depth (depth + 1) = some (depth + 1) := by
  have := foldlM_depth_add depth h
  rwa [Nat.add_comm 1 depth] at this

end Name

section InstanceName

/-- Only usages have an opening bracket. -/
def Name.Simple (name : String) : Prop := '<' ∉ name.toList

instance (name : String) : Decidable (Name.Simple name) :=
  inferInstanceAs (Decidable ('<' ∉ name.toList))

theorem Name.simple_of_isBare {name : String} (h : isBare name = true) : Simple name := by
  intro opening
  exact absurd (Name.plain_of_isBare h _ opening) (by decide)

theorem toList_instanceName (base element : String) :
    (instanceName base element).toList = base.toList ++ '<' :: (element.toList ++ ['>']) := by
  simp [instanceName, Layout.usageText, Layout.commas, String.toList_append]

theorem not_simple_instanceName (base element : String) :
    ¬ Name.Simple (instanceName base element) := by
  rw [Name.Simple, toList_instanceName, not_not]
  exact List.mem_append_right _ List.mem_cons_self

theorem not_isMadeBefore {τ : Type} [ClassTable τ] {table : τ}
    (simple : ∀ name o, ClassTable.find? table name = some o → Name.Simple name)
    (base element : String) : isMadeBefore table (instanceName base element) ≠ true := by
  intro before
  rw [isMadeBefore] at before
  cases found : ClassTable.find? table (instanceName base element) with
  | none =>
    rw [found] at before
    cases before
  | some o => exact not_simple_instanceName base element (simple _ o found)

/-- The name of an instance tells the template and the text of the argument. -/
theorem instanceName_inj {base base' element element' : String} (hb : Name.Simple base)
    (hb' : Name.Simple base') (same : instanceName base element = instanceName base' element') :
    base = base' ∧ element = element' := by
  have texts := congrArg String.toList same
  rw [toList_instanceName, toList_instanceName] at texts
  have before {name : String} (simple : Name.Simple name) : ∀ c ∈ name.toList, c ≠ '<' :=
    fun c hc => ne_of_mem_of_not_mem hc simple
  have opening (rest : List Char) : ∀ c ∈ ('<' :: rest).head?, ¬ c ≠ '<' := by simp
  obtain ⟨bases, elements⟩ :=
    split_unique (· ≠ '<') (before hb) (before hb') (opening _) (opening _) texts
  exact ⟨String.toList_injective bases,
    String.toList_injective (List.append_cancel_right (List.tail_eq_of_cons_eq elements))⟩

end InstanceName
end Solid

namespace TypeExpr

/-- What may be inside of a tidy expression. -/
def TidyNode : TypeExpr → Prop
  | .named name => Name.Solid name
  | .ref reference => Name.Solid reference.name
  | .container _ _ => True
  | .generic _ _ => True
  | .union members => 2 ≤ members.length
  | .inter members => 2 ≤ members.length ∧ ∀ t ∈ members, t.kind ≠ .unionType

/-- Names end where they seem to end, there are at least two members in every union and
intersection, and no union is a member of an intersection. -/
def Tidy (t : TypeExpr) : Prop := t.Throughout TidyNode

section Tidy

variable {base element : TypeExpr} {ts : List TypeExpr}

theorem tidy_named {name : String} : (named name).Tidy ↔ Name.Solid name := throughout_named

theorem tidy_ref {reference : Reference} : (ref reference).Tidy ↔ Name.Solid reference.name :=
  throughout_ref

theorem tidy_container : (container base element).Tidy ↔ base.Tidy ∧ element.Tidy :=
  throughout_container.trans (and_iff_left trivial)

theorem tidy_generic : (generic base ts).Tidy ↔ base.Tidy ∧ ∀ t ∈ ts, t.Tidy :=
  throughout_generic.trans (and_iff_left trivial)

theorem tidy_union : (union ts).Tidy ↔ 2 ≤ ts.length ∧ ∀ t ∈ ts, t.Tidy :=
  throughout_union.trans and_comm

theorem tidy_inter : (inter ts).Tidy ↔
    (2 ≤ ts.length ∧ ∀ t ∈ ts, t.kind ≠ .unionType) ∧ ∀ t ∈ ts, t.Tidy :=
  throughout_inter.trans and_comm

private theorem foldlM_depth_intercalate (depth : Nat) {separator : String} {texts : List String}
    (hs : separator.toList.foldlM Name.depth 1 = some 1)
    (ht : ∀ text ∈ texts, text.toList.foldlM Name.depth (depth + 1) = some (depth + 1)) :
    (String.intercalate separator texts).toList.foldlM Name.depth (depth + 1) =
      some (depth + 1) := by
  rw [String.toList_intercalate]
  induction texts with
  | nil => rfl
  | cons text texts ih =>
    have head := ht text List.mem_cons_self
    have tail := ih fun u hu => ht u (List.mem_cons_of_mem text hu)
    cases texts with
    | nil => simpa using head
    | cons second rest =>
      rw [List.map_cons] at tail
      rw [List.map_cons, List.map_cons, List.intercalate_cons_cons]
      simp only [List.foldlM_append, head, Name.foldlM_depth_blank depth hs, Option.bind_eq_bind,
        Option.bind_some]
      exact tail

private theorem foldlM_depth_usageText {depth : Nat} {base : String} {args : List String}
    (hb : base.toList.foldlM Name.depth depth = some depth)
    (ha : ∀ arg ∈ args, arg.toList.foldlM Name.depth (depth + 1) = some (depth + 1)) :
    (Layout.usageText base args).toList.foldlM Name.depth depth = some depth := by
  have opening : "<".toList.foldlM Name.depth depth = some (depth + 1) := by simp [Name.depth]
  have inside : (Layout.commas args).toList.foldlM Name.depth (depth + 1) = some (depth + 1) :=
    foldlM_depth_intercalate depth (by decide) ha
  have closing : ">".toList.foldlM Name.depth (depth + 1) = some depth := by simp [Name.depth]
  simp only [Layout.usageText, String.toList_append, List.foldlM_append, hb, opening,
    inside, closing, Option.bind_eq_bind, Option.bind_some]

theorem Tidy.foldlM_depth {t : TypeExpr} (h : t.Tidy) (depth : Nat) :
    t.text.toList.foldlM Name.depth (depth + 1) = some (depth + 1) := by
  induction t generalizing depth with
  | named name => exact (tidy_named.1 h).foldlM_depth _
  | ref reference => exact (tidy_ref.1 h).foldlM_depth _
  | container base element hb he =>
    obtain ⟨tb, te⟩ := tidy_container.1 h
    rw [text_container]
    apply foldlM_depth_usageText (hb tb _)
    simpa using he te _
  | generic base args hb ha =>
    obtain ⟨tb, ta⟩ := tidy_generic.1 h
    rw [text_generic]
    apply foldlM_depth_usageText (hb tb _)
    rw [List.forall_mem_map]
    exact fun t ht => ha t ht (ta t ht) _
  | union members hm =>
    rw [text_union]
    apply foldlM_depth_intercalate depth (by decide)
    rw [List.forall_mem_map]
    exact fun t ht => hm t ht ((tidy_union.1 h).2 t ht) _
  | inter members hm =>
    rw [text_inter]
    apply foldlM_depth_intercalate depth (by decide)
    rw [List.forall_mem_map]
    exact fun t ht => hm t ht ((tidy_inter.1 h).2 t ht) _

theorem Tidy.solid_instanceName {t : TypeExpr} (h : t.Tidy) {base : String}
    (hb : Name.Solid base) : Name.Solid (instanceName base t.text) := by
  apply foldlM_depth_usageText hb
  simpa using h.foldlM_depth 0

end Tidy

section Words

/-- What stands in front of a member. -/
inductive Joint
  | or
  | and
  deriving DecidableEq, Repr

def Joint.text : Joint → String
  | .or => " or "
  | .and => " and "

mutual

/-- The names in an expression from left to right, each with the joint in front of it; the first
has the joint in front of the whole. -/
def words (joint : Joint) : TypeExpr → List (Joint × String)
  | .named name => [(joint, name)]
  | .ref reference => [(joint, reference.name)]
  | .container base element => [(joint, (container base element).text)]
  | .generic base args => [(joint, (generic base args).text)]
  | .union members => wordsAll joint .or members
  | .inter members => wordsAll joint .and members

def wordsAll (first joint : Joint) : List TypeExpr → List (Joint × String)
  | [] => []
  | t :: ts => t.words first ++ wordsAll joint joint ts

end

/-- The text that the words make, with the first joint. -/
def written (ws : List (Joint × String)) : List Char :=
  ws.flatMap fun w => w.1.text.toList ++ w.2.toList

private theorem written_append (ws vs : List (Joint × String)) :
    written (ws ++ vs) = written ws ++ written vs := List.flatMap_append

theorem Tidy.written_words {t : TypeExpr} (h : t.Tidy) (joint : Joint) :
    written (t.words joint) = joint.text.toList ++ t.text.toList := by
  have all : ∀ (ts : List TypeExpr) (first joint : Joint), ts ≠ [] →
      (∀ t ∈ ts, ∀ joint, written (t.words joint) = joint.text.toList ++ t.text.toList) →
      written (wordsAll first joint ts) =
        first.text.toList ++ (String.intercalate joint.text (ts.map text)).toList := by
    intro ts first joint some hts
    rw [String.toList_intercalate]
    induction ts generalizing first with
    | nil => exact absurd rfl some
    | cons t ts ih =>
      rw [wordsAll, written_append, hts t List.mem_cons_self]
      cases ts with
      | nil => simp [wordsAll, written]
      | cons second rest =>
        rw [ih joint (List.cons_ne_nil _ _) fun u hu => hts u (List.mem_cons_of_mem t hu)]
        simp [List.intercalate_cons_cons]
  have many {ts : List TypeExpr} (h : 2 ≤ ts.length) : ts ≠ [] := by
    rintro rfl
    exact absurd h (by decide)
  induction t generalizing joint with
  | named name => simp [words, written]
  | ref reference => simp [words, written]
  | container base element => simp [words, written]
  | generic base args => simp [words, written]
  | union members hm =>
    obtain ⟨two, inside⟩ := tidy_union.1 h
    rw [words, text_union]
    exact all members joint .or (many two) fun t ht => hm t ht (inside t ht)
  | inter members hm =>
    obtain ⟨two, inside⟩ := tidy_inter.1 h
    rw [words, text_inter]
    exact all members joint .and (many two.1) fun t ht => hm t ht (inside t ht)

private theorem written_cons (joint : Joint) (name : String) (ws : List (Joint × String)) :
    written ((joint, name) :: ws) = joint.text.toList ++ (name.toList ++ written ws) := by
  simp [written]

private theorem stops_written (ws : List (Joint × String)) : Name.Stops (written ws) := by
  rcases ws with _ | ⟨⟨_ | _, name⟩, ws⟩
  · exact fun c hc => nomatch hc
  · rw [written_cons]
    exact fun c hc => (Option.some.inj (Option.mem_def.1 hc)).symm
  · rw [written_cons]
    exact fun c hc => (Option.some.inj (Option.mem_def.1 hc)).symm

private theorem joint_of_append_eq {joint joint' : Joint} {cs ds : List Char}
    (same : joint.text.toList ++ cs = joint'.text.toList ++ ds) : joint = joint' ∧ cs = ds := by
  cases joint <;> cases joint' <;> simp_all [Joint.text]

/-- Words can be read off the text that they make. -/
theorem words_of_written {ws vs : List (Joint × String)}
    (hw : ∀ w ∈ ws, Name.Solid w.2) (hv : ∀ v ∈ vs, Name.Solid v.2)
    (same : written ws = written vs) : ws = vs := by
  have filled : ∀ (v : Joint × String) (vs : List (Joint × String)), written (v :: vs) ≠ [] := by
    rintro ⟨_ | _, name⟩ vs h <;> simp [written_cons, Joint.text] at h
  induction ws generalizing vs with
  | nil =>
    cases vs with
    | nil => rfl
    | cons v vs => exact absurd same.symm (filled v vs)
  | cons w ws ih =>
    cases vs with
    | nil => exact absurd same (filled w ws)
    | cons v vs =>
      obtain ⟨joint, name⟩ := w
      obtain ⟨joint', name'⟩ := v
      rw [List.forall_mem_cons] at hw hv
      rw [written_cons, written_cons] at same
      obtain ⟨rfl, named⟩ := joint_of_append_eq same
      obtain ⟨names, rest⟩ :=
        Name.eq_of_append_eq hw.1 hv.1 (stops_written ws) (stops_written vs) named
      obtain rfl : name = name' := String.toList_injective names
      rw [ih hw.2 hv.2 rest]

end Words

end TypeExpr
end InterfaceTree
