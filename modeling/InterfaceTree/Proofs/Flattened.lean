import InterfaceTree.Proofs.Reading

/-!
# Expressions of one text

A text does not show where a union in a union or an intersection in an intersection begins, nor
whether a name is a reference.
-/
namespace InterfaceTree.TypeExpr

section Flattened

/-- The members of a union, and anything else as its own only member. -/
def alternatives : TypeExpr → List TypeExpr
  | .union members => members
  | t => [t]

/-- The members of an intersection, and anything else as its own only member. -/
def factors : TypeExpr → List TypeExpr
  | .inter members => members
  | t => [t]

mutual

/-- The expression with names for references, without unions in unions and without intersections in
intersections. -/
def flattened : TypeExpr → TypeExpr
  | .named name => .named name
  | .ref reference => .named reference.name
  | .container base element => .container base.flattened element.flattened
  | .generic base args => .generic base.flattened (flattenedAll args)
  | .union members => .union (alternativesAll members)
  | .inter members => .inter (factorsAll members)

def flattenedAll : List TypeExpr → List TypeExpr
  | [] => []
  | t :: ts => t.flattened :: flattenedAll ts

def alternativesAll : List TypeExpr → List TypeExpr
  | [] => []
  | t :: ts => t.flattened.alternatives ++ alternativesAll ts

def factorsAll : List TypeExpr → List TypeExpr
  | [] => []
  | t :: ts => t.flattened.factors ++ factorsAll ts

end

section Equations

variable (ts : List TypeExpr)

theorem flattenedAll_eq_map : flattenedAll ts = ts.map flattened := by
  induction ts with
  | nil => rfl
  | cons t ts ih => rw [flattenedAll, ih, List.map_cons]

theorem flattened_union :
    (union ts).flattened = .union (ts.flatMap fun t => t.flattened.alternatives) := by
  rw [flattened]
  congr 1
  induction ts with
  | nil => rfl
  | cons t ts ih => rw [alternativesAll, ih, List.flatMap_cons]

theorem flattened_inter :
    (inter ts).flattened = .inter (ts.flatMap fun t => t.flattened.factors) := by
  rw [flattened]
  congr 1
  induction ts with
  | nil => rfl
  | cons t ts ih => rw [factorsAll, ih, List.flatMap_cons]

end Equations

private theorem flattened_all {f : TypeExpr → TypeExpr} {ts : List TypeExpr}
    (parts : TypeExpr → List TypeExpr) (h : ∀ t ∈ ts, (f t).flattened = t.flattened) :
    (ts.map f).flatMap (fun t => parts t.flattened) = ts.flatMap fun t => parts t.flattened := by
  rw [List.flatMap_map]
  apply List.flatMap_congr
  intro t ht
  rw [h t ht]

theorem flattened_mapAtoms {g : TypeExpr → TypeExpr} {t : TypeExpr}
    (hg : ∀ u ∈ t.atoms, (g u).flattened = u.flattened) :
    (t.mapAtoms g).flattened = t.flattened := by
  induction t with
  | named name => exact hg (.named name) List.mem_cons_self
  | ref reference => exact hg (.ref reference) List.mem_cons_self
  | container base element => exact hg (.container base element) List.mem_cons_self
  | generic base args => exact hg (.generic base args) List.mem_cons_self
  | union members hm =>
    rw [atoms_union] at hg
    rw [mapAtoms_union, flattened_union, flattened_union, flattened_all alternatives]
    exact fun t ht => hm t ht fun u hu => hg u (List.mem_flatMap.2 ⟨t, ht, hu⟩)
  | inter members hm =>
    rw [atoms_inter] at hg
    rw [mapAtoms_inter, flattened_inter, flattened_inter, flattened_all factors]
    exact fun t ht => hm t ht fun u hu => hg u (List.mem_flatMap.2 ⟨t, ht, hu⟩)

theorem flattened_mapLeaves {g : TypeExpr → TypeExpr} {t : TypeExpr}
    (hg : ∀ u ∈ t.leaves, (g u).flattened = u.flattened) :
    (t.mapLeaves g).flattened = t.flattened := by
  induction t with
  | named name => exact hg (.named name) List.mem_cons_self
  | ref reference => exact hg (.ref reference) List.mem_cons_self
  | container base element hb he =>
    rw [leaves_container] at hg
    rw [mapLeaves_container, flattened, hb fun u hu => hg u (List.mem_append_left _ hu),
      he fun u hu => hg u (List.mem_append_right _ hu), flattened]
  | generic base args hb ha =>
    rw [leaves_generic] at hg
    rw [mapLeaves_generic, flattened, hb fun u hu => hg u (List.mem_append_left _ hu), flattened,
      flattenedAll_eq_map, flattenedAll_eq_map, List.map_map]
    congr 1
    apply List.map_congr_left
    intro t ht
    exact ha t ht fun u hu => hg u (List.mem_append_right _ (List.mem_flatMap.2 ⟨t, ht, hu⟩))
  | union members hm =>
    rw [leaves_union] at hg
    rw [mapLeaves_union, flattened_union, flattened_union, flattened_all alternatives]
    exact fun t ht => hm t ht fun u hu => hg u (List.mem_flatMap.2 ⟨t, ht, hu⟩)
  | inter members hm =>
    rw [leaves_inter] at hg
    rw [mapLeaves_inter, flattened_inter, flattened_inter, flattened_all factors]
    exact fun t ht => hm t ht fun u hu => hg u (List.mem_flatMap.2 ⟨t, ht, hu⟩)

end Flattened

section Groups

/-- Names that are joined by "and", at least one of them. -/
abbrev Group := String × List String

def Group.names (g : Group) : List String := g.1 :: g.2

def Group.words (joint : Joint) (g : Group) : List (Joint × String) :=
  (joint, g.1) :: g.2.map (Joint.and, ·)

def Group.product (g : Group) : TypeExpr :=
  match g.2 with
  | [] => .named g.1
  | _ :: _ => .inter (g.names.map .named)

def Group.sum : List Group → TypeExpr
  | [g] => g.product
  | gs => .union (gs.map product)

private theorem factors_product (g : Group) : g.product.factors = g.names.map .named := by
  obtain ⟨name, _ | ⟨second, names⟩⟩ := g <;> rfl

private theorem alternatives_product (g : Group) : g.product.alternatives = [g.product] := by
  obtain ⟨name, _ | ⟨second, names⟩⟩ := g <;> rfl

private theorem alternatives_sum (gs : List Group) :
    (Group.sum gs).alternatives = gs.map Group.product := by
  rcases gs with _ | ⟨g, _ | ⟨second, gs⟩⟩
  · rfl
  · exact alternatives_product g
  · rfl

private theorem Tidy.exists_group {t : TypeExpr} (h : t.Tidy) (free : t.UsageFree)
    (single : t.kind ≠ .unionType) :
    ∃ g : Group, (∀ joint, t.words joint = g.words joint) ∧ t.flattened = g.product := by
  have all : ∀ ts : List TypeExpr, ts ≠ [] → (∀ t ∈ ts, ∃ g : Group,
      (∀ joint, t.words joint = g.words joint) ∧ t.flattened = g.product) →
      ∃ g : Group, (∀ joint, wordsAll joint .and ts = g.words joint) ∧
        (ts.flatMap fun t => t.flattened.factors) = g.names.map .named ∧
          ts.length ≤ g.names.length := by
    intro ts some hts
    induction ts with
    | nil => exact absurd rfl some
    | cons t ts ih =>
      obtain ⟨g, words, product⟩ := hts t List.mem_cons_self
      cases ts with
      | nil =>
        refine ⟨g, fun joint => ?_, ?_, by simp [Group.names]⟩
        · rw [wordsAll, wordsAll, words, List.append_nil]
        · rw [List.flatMap_singleton, product, factors_product]
      | cons second rest =>
        obtain ⟨g', words', factors', length⟩ := ih (List.cons_ne_nil _ _)
          fun u hu => hts u (List.mem_cons_of_mem t hu)
        refine ⟨(g.1, g.2 ++ g'.names), fun joint => ?_, ?_, ?_⟩
        · rw [wordsAll, words, words']
          simp [Group.words, Group.names]
        · rw [List.flatMap_cons, product, factors_product, factors']
          simp [Group.names]
        · simp only [Group.names, List.length_cons, List.length_append] at length ⊢
          omega
  induction t with
  | named name => exact ⟨(name, []), fun _ => rfl, rfl⟩
  | ref reference => exact ⟨(reference.name, []), fun _ => rfl, rfl⟩
  | container base element => exact absurd rfl free.self.1
  | generic base args => exact absurd rfl free.self.2
  | union members => exact absurd rfl single
  | inter members hm =>
    obtain ⟨⟨two, kinds⟩, inside⟩ := tidy_inter.1 h
    have some : members ≠ [] := by
      rintro rfl
      exact absurd two (by decide)
    obtain ⟨g, words, factors, length⟩ := all members some fun t ht =>
      hm t ht (inside t ht) ((throughout_inter.1 free).1 t ht) (kinds t ht)
    refine ⟨g, words, ?_⟩
    rw [flattened_inter, factors]
    obtain ⟨name, _ | ⟨second, names⟩⟩ := g
    · exact absurd (Nat.le_trans two length) (by simp [Group.names])
    · rfl

private theorem Tidy.exists_groups {t : TypeExpr} (h : t.Tidy) (free : t.UsageFree) :
    ∃ gs : List Group, t.words .or = gs.flatMap (Group.words .or) ∧ t.flattened = Group.sum gs ∧
      gs ≠ [] := by
  have all : ∀ ts : List TypeExpr, (∀ t ∈ ts, ∃ gs : List Group,
      t.words .or = gs.flatMap (Group.words .or) ∧ t.flattened = Group.sum gs ∧ gs ≠ []) →
      ∃ gs : List Group, wordsAll .or .or ts = gs.flatMap (Group.words .or) ∧
        (ts.flatMap fun t => t.flattened.alternatives) = gs.map Group.product ∧
          ts.length ≤ gs.length := by
    intro ts hts
    induction ts with
    | nil => exact ⟨[], rfl, rfl, Nat.le_refl 0⟩
    | cons t ts ih =>
      obtain ⟨gs, words, sum, some⟩ := hts t List.mem_cons_self
      obtain ⟨gs', words', sum', length⟩ := ih fun u hu => hts u (List.mem_cons_of_mem t hu)
      refine ⟨gs ++ gs', ?_, ?_, ?_⟩
      · rw [wordsAll, words, words', List.flatMap_append]
      · rw [List.flatMap_cons, sum, alternatives_sum, sum', List.map_append]
      · have := List.length_pos_iff.2 some
        simp only [List.length_cons, List.length_append]
        omega
  have single {t : TypeExpr} (h : t.Tidy) (free : t.UsageFree) (kind : t.kind ≠ .unionType) :
      ∃ gs : List Group, t.words .or = gs.flatMap (Group.words .or) ∧
        t.flattened = Group.sum gs ∧ gs ≠ [] := by
    obtain ⟨g, words, product⟩ := h.exists_group free kind
    exact ⟨[g], by rw [words, List.flatMap_singleton], product, List.cons_ne_nil _ _⟩
  induction t with
  | named name => exact single h free (by simp [kind])
  | ref reference => exact single h free (by simp [kind])
  | container base element => exact single h free (by simp [kind])
  | generic base args => exact single h free (by simp [kind])
  | inter members => exact single h free (by simp [kind])
  | union members hm =>
    obtain ⟨two, inside⟩ := tidy_union.1 h
    obtain ⟨gs, words, sum, length⟩ := all members fun t ht =>
      hm t ht (inside t ht) ((throughout_union.1 free).1 t ht)
    refine ⟨gs, words, ?_, ?_⟩
    · rw [flattened_union, sum]
      rcases gs with _ | ⟨g, _ | ⟨second, gs⟩⟩
      · rfl
      · exact absurd (Nat.le_trans two length) (by simp)
      · rfl
    · rintro rfl
      exact absurd (Nat.le_trans two length) (by simp)

/-- The groups of an expression can be told from its words. -/
private theorem groups_of_words {gs hs : List Group}
    (same : gs.flatMap (Group.words .or) = hs.flatMap (Group.words .or)) : gs = hs := by
  -- the names of a group end where the next word has the other joint, or none comes
  have names : ∀ (ns ms : List String) (ws vs : List (Joint × String)),
      (∀ w ∈ ws.head?, w.1 = .or) → (∀ v ∈ vs.head?, v.1 = .or) →
      ns.map (Joint.and, ·) ++ ws = ms.map (Joint.and, ·) ++ vs → ns = ms ∧ ws = vs := by
    intro ns
    induction ns with
    | nil =>
      intro ms ws vs hw _ same
      cases ms with
      | nil => exact ⟨rfl, same⟩
      | cons m ms =>
        have := hw (Joint.and, m) (by rw [← List.nil_append ws]; exact congrArg List.head? same)
        cases this
    | cons n ns ih =>
      intro ms ws vs hw hv same
      cases ms with
      | nil =>
        have := hv (Joint.and, n)
          (by rw [← List.nil_append vs]; exact congrArg List.head? same.symm)
        cases this
      | cons m ms =>
        simp only [List.map_cons, List.cons_append, List.cons.injEq, Prod.mk.injEq,
          true_and] at same
        obtain ⟨rfl, rest⟩ := same
        obtain ⟨rfl, tail⟩ := ih ms ws vs hw hv rest
        exact ⟨rfl, tail⟩
  have starts : ∀ gs : List Group, ∀ w ∈ (gs.flatMap (Group.words .or)).head?, w.1 = .or := by
    intro gs w hw
    cases gs with
    | nil => cases hw
    | cons g gs =>
      cases hw
      rfl
  induction gs generalizing hs with
  | nil =>
    cases hs with
    | nil => rfl
    | cons h hs => cases same
  | cons g gs ih =>
    cases hs with
    | nil => cases same
    | cons h hs =>
      obtain ⟨first, more⟩ := g
      obtain ⟨first', more'⟩ := h
      simp only [List.flatMap_cons, Group.words, List.cons_append, List.cons.injEq, Prod.mk.injEq,
        true_and] at same
      obtain ⟨rfl, rest⟩ := same
      obtain ⟨rfl, tail⟩ := names more more' _ _ (starts gs) (starts hs) rest
      rw [ih tail]

private theorem Tidy.solid_words {t : TypeExpr} (h : t.Tidy) (free : t.UsageFree) (joint : Joint) :
    ∀ w ∈ t.words joint, Name.Solid w.2 := by
  have all : ∀ (ts : List TypeExpr) (first joint : Joint),
      (∀ t ∈ ts, ∀ joint, ∀ w ∈ t.words joint, Name.Solid w.2) →
      ∀ w ∈ wordsAll first joint ts, Name.Solid w.2 := by
    intro ts first joint hts
    induction ts generalizing first with
    | nil => exact fun w hw => nomatch hw
    | cons t ts ih =>
      intro w hw
      rcases List.mem_append.1 hw with hw | hw
      · exact hts t List.mem_cons_self _ w hw
      · exact ih joint (fun u hu => hts u (List.mem_cons_of_mem t hu)) w hw
  induction t generalizing joint with
  | named name =>
    intro w hw
    rw [List.mem_singleton.1 hw]
    exact tidy_named.1 h
  | ref reference =>
    intro w hw
    rw [List.mem_singleton.1 hw]
    exact tidy_ref.1 h
  | container base element => exact absurd rfl free.self.1
  | generic base args => exact absurd rfl free.self.2
  | union members hm =>
    exact all members _ _ fun t ht =>
      hm t ht ((tidy_union.1 h).2 t ht) ((throughout_union.1 free).1 t ht)
  | inter members hm =>
    exact all members _ _ fun t ht =>
      hm t ht ((tidy_inter.1 h).2 t ht) ((throughout_inter.1 free).1 t ht)

/-- Tidy expressions without usages that have one text are the same but for nesting of unions in
unions and of intersections in intersections, and for names in the place of references. -/
theorem Tidy.flattened_eq_of_text_eq {t u : TypeExpr} (ht : t.Tidy) (hu : u.Tidy)
    (free : t.UsageFree) (free' : u.UsageFree) (same : t.text = u.text) :
    t.flattened = u.flattened := by
  have words : t.words .or = u.words .or := by
    apply words_of_written (ht.solid_words free .or) (hu.solid_words free' .or)
    rw [ht.written_words, hu.written_words, same]
  obtain ⟨gs, hgs, flat, -⟩ := ht.exists_groups free
  obtain ⟨hs, hhs, flat', -⟩ := hu.exists_groups free'
  rw [flat, flat', groups_of_words (hgs.symm.trans (words.trans hhs))]

end Groups
end InterfaceTree.TypeExpr
