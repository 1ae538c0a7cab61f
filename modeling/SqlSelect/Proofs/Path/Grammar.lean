import SqlSelect.Proofs.Path.Reading

/-! The texts of joins by their grammar. Gaps stand around every symbol and every path, and nowhere
else; the readers of joins take the texts of the grammar and no others. -/
namespace SqlSelect.Path

def Spaced (symbol text : List Char) : Prop :=
  ∃ before after, text = before ++ (symbol ++ after) ∧ ∀ c ∈ before ++ after, isGap c = true

def PathText (text : List Char) (p : ColumnPath) : Prop :=
  p.Named ∧ Spaced p.text.toList text

-- Two paths with `==` between them, in any number of parentheses.
inductive EqualityText : List Char → PathEquality → Prop
  | plain {l op r : List Char} {left right : ColumnPath} (hleft : PathText l left)
      (hop : Spaced ['=', '='] op) (hright : PathText r right) :
      EqualityText (l ++ (op ++ r)) ⟨left, right⟩
  | enclosed {o text c : List Char} {e : PathEquality} (ho : Spaced ['('] o)
      (h : EqualityText text e) (hc : Spaced [')'] c) : EqualityText (o ++ (text ++ c)) e

inductive ConjunctionText : List Char → List PathEquality → Prop
  | single {text : List Char} {e : PathEquality} (h : EqualityText text e) :
      ConjunctionText text [e]
  | more {text op later : List Char} {e : PathEquality} {es : List PathEquality}
      (h : EqualityText text e) (hop : Spaced ['&', '&'] op) (hlater : ConjunctionText later es) :
      ConjunctionText (text ++ (op ++ later)) (e :: es)

inductive JoinText : List Char → List PathEquality → Prop
  | plain {text : List Char} {es : List PathEquality} (h : ConjunctionText text es) :
      JoinText text es
  | enclosed {o text c : List Char} {es : List PathEquality} (ho : Spaced ['('] o)
      (h : ConjunctionText text es) (hc : Spaced [')'] c) : JoinText (o ++ (text ++ c)) es

variable {cs text rest : List Char} {p : ColumnPath} {e : PathEquality} {es : List PathEquality}

section Gaps

theorem stops_skipGap (cs : List Char) : Stops isGap (skipGap cs) := by
  obtain ⟨-, -, -, h⟩ := skipGap_eq_iff.mp (rfl : skipGap cs = _)
  exact h

theorem exists_gap (cs : List Char) :
    ∃ gap, cs = gap ++ skipGap cs ∧ ∀ c ∈ gap, isGap c = true := by
  obtain ⟨gap, hcs, hgap, -⟩ := skipGap_eq_iff.mp (rfl : skipGap cs = _)
  exact ⟨gap, hcs, hgap⟩

theorem skipGap_append {gap : List Char} (h : ∀ c ∈ gap, isGap c = true) (cs : List Char) :
    skipGap (gap ++ cs) = skipGap cs :=
  List.dropWhile_append_of_pos h

theorem skipGap_eq_self (h : Stops isGap cs) : skipGap cs = cs :=
  skipGap_eq_iff.mpr ⟨[], rfl, by simp, h⟩

@[simp] theorem skipGap_skipGap (cs : List Char) : skipGap (skipGap cs) = skipGap cs :=
  skipGap_eq_self (stops_skipGap cs)

/-- No name goes on in a gap, nor behind it. -/
theorem stops_append_of_gap {gap : List Char} (h : ∀ c ∈ gap, isGap c = true)
    (hrest : Stops Text.isIdentifierRest rest) : Stops Text.isIdentifierRest (gap ++ rest) := by
  cases gap with
  | nil => exact hrest
  | cons c gap => exact stops_cons.mpr (isIdentifier_of_isGap (h c List.mem_cons_self)).2

/-- Skipping to a symbol, and over the gap behind it. -/
theorem Spaced.skipGap_append {s : Char} {symbol : List Char} (h : Spaced (s :: symbol) text)
    (hs : isGap s = false) (rest : List Char) :
    ∃ after, skipGap (text ++ rest) = s :: (symbol ++ after) ∧ skipGap after = skipGap rest := by
  obtain ⟨before, after, rfl, hgaps⟩ := h
  simp only [List.mem_append, or_imp, forall_and] at hgaps
  refine ⟨after ++ rest, ?_, Path.skipGap_append hgaps.2 rest⟩
  rw [List.append_assoc, Path.skipGap_append hgaps.1]
  rw [skipGap_eq_self]
  · simp
  · exact stops_cons.mpr hs

/-- No name goes on with a symbol, nor with the gap before it. -/
theorem Spaced.stops {s : Char} {symbol : List Char} (h : Spaced (s :: symbol) text)
    (hs : Text.isIdentifierRest s = false) (rest : List Char) :
    Stops Text.isIdentifierRest (text ++ rest) := by
  obtain ⟨before, after, rfl, hgaps⟩ := h
  simp only [List.mem_append, or_imp, forall_and] at hgaps
  rw [List.append_assoc]
  exact stops_append_of_gap hgaps.1 (stops_cons.mpr hs)

/-- A symbol that is found behind a gap has gaps around it. -/
theorem spaced_of_skipGap {s : Char} (h : skipGap cs = s :: rest) :
    ∃ text, Spaced [s] text ∧ cs = text ++ skipGap rest := by
  obtain ⟨before, hcs, hbefore⟩ := exists_gap cs
  obtain ⟨after, hrest, hafter⟩ := exists_gap rest
  refine ⟨before ++ ([s] ++ after), ⟨before, after, rfl, ?_⟩, ?_⟩
  · simpa [or_imp, forall_and] using ⟨hbefore, hafter⟩
  · rw [h, hrest] at hcs
    simpa using hcs

end Gaps

section Taken

/-! Gaps in front of a text change nothing, so the texts are read wherever skipping leads to
them. -/

/-- A path is read with the gaps around it. -/
theorem readTerm_of_text (h : PathText text p) (hrest : Stops Text.isIdentifierRest rest)
    (hcs : skipGap cs = skipGap (text ++ rest)) : readTerm cs = .ok (p, skipGap rest) := by
  -- Behind the path there is its own gap, and the one that the rest begins with.
  have hread : readTerm (text ++ rest) = .ok (p, skipGap rest) := by
    obtain ⟨hp, before, after, rfl, hgaps⟩ := h
    simp only [List.mem_append, or_imp, forall_and] at hgaps
    obtain ⟨gap, hgap, hall⟩ := exists_gap rest
    refine readTerm_eq_ok.mpr ⟨hp, stops_skipGap rest, before, after ++ gap, ?_, ?_, ?_⟩
    · rw [List.append_assoc after, ← hgap]
      simp
    · simp only [List.mem_append, or_imp, forall_and]
      exact ⟨hgaps.1, hgaps.2, hall⟩
    · rw [List.append_assoc, ← hgap]
      exact stops_append_of_gap hgaps.2 hrest
  rw [readTerm] at hread ⊢
  rwa [hcs]

/-- A comparison is read from its two paths. -/
theorem readComparison_of_text {l op r : List Char} {left right : ColumnPath}
    (hleft : PathText l left) (hop : Spaced ['=', '='] op) (hright : PathText r right)
    (hrest : Stops Text.isIdentifierRest rest)
    (hcs : skipGap cs = skipGap (l ++ (op ++ (r ++ rest)))) :
    readComparison cs = .ok (⟨left, right⟩, skipGap rest) := by
  obtain ⟨after, hskip, hafter⟩ := hop.skipGap_append rfl (r ++ rest)
  have hl := readTerm_of_text hleft (hop.stops rfl (r ++ rest)) hcs
  have hr := readTerm_of_text hright hrest hafter
  rw [readComparison, hl, hskip]
  simp only [List.cons_append, List.nil_append, hr]

/-- No path begins with a parenthesis. -/
theorem readEquality_of_readComparison (h : readComparison cs = .ok (e, rest)) :
    readEquality cs = .ok (e, rest) := by
  rw [readEquality]
  split
  · next inner hopening =>
    have hterm : readTerm cs = .error ('(' :: inner) := by
      rw [readTerm, hopening]
      rfl
    rw [readComparison, hterm] at h
    cases h
  · exact h

/-- Parentheses around an equality come in pairs. -/
theorem readEquality_of_enclosed {inner last : List Char} (hopening : skipGap cs = '(' :: inner)
    (hinner : readEquality (skipGap inner) = .ok (e, rest))
    (hclosing : skipGap rest = ')' :: last) :
    readEquality cs = .ok (e, skipGap last) := by
  rw [readEquality]
  split
  · next hopening' =>
    cases hopening.symm.trans hopening'
    simp only [hinner, hclosing]
  · next hnone => exact absurd hopening (hnone inner)

/-- Every text of an equality is read as that. -/
theorem readEquality_of_text (h : EqualityText text e) (hrest : Stops Text.isIdentifierRest rest)
    (hcs : skipGap cs = skipGap (text ++ rest)) : readEquality cs = .ok (e, skipGap rest) := by
  induction h generalizing cs rest with
  | plain hleft hop hright =>
    rw [List.append_assoc, List.append_assoc] at hcs
    exact readEquality_of_readComparison (readComparison_of_text hleft hop hright hrest hcs)
  | @enclosed o text c e ho h hc ih =>
    rw [List.append_assoc, List.append_assoc] at hcs
    obtain ⟨inner, hopening, hinner⟩ := ho.skipGap_append rfl (text ++ (c ++ rest))
    obtain ⟨last, hclosing, hlast⟩ := hc.skipGap_append rfl rest
    rw [← hlast]
    apply readEquality_of_enclosed (hcs.trans hopening)
    · exact ih (hc.stops rfl rest) ((skipGap_skipGap inner).trans hinner)
    · rw [skipGap_skipGap]
      exact hclosing

theorem readFurther_of_end (h : ∀ later, cs ≠ '&' :: '&' :: later) : readFurther cs = ([], cs) := by
  unfold readFurther
  split
  · next later => exact absurd rfl (h later)
  · rfl

theorem readFurther_of_conjunction (h : readConjunction cs = .ok (es, rest)) :
    readFurther ('&' :: '&' :: cs) = (es, rest) := by
  unfold readConjunction at h
  split at h
  · cases h
  · next e after he =>
    cases h
    rw [readFurther]
    split
    · next hnone => cases he.symm.trans hnone
    · next he' =>
      cases he.symm.trans he'
      rfl

/-- Every text of a conjunction is read as that, up to where no equality follows. -/
theorem readConjunction_of_text (h : ConjunctionText text es)
    (hrest : Stops Text.isIdentifierRest rest) (hend : ∀ later, skipGap rest ≠ '&' :: '&' :: later)
    (hcs : skipGap cs = skipGap (text ++ rest)) :
    readConjunction cs = .ok (es, skipGap rest) := by
  induction h generalizing cs rest with
  | single h =>
    have hfurther := readFurther_of_end hend
    rw [readConjunction, readEquality_of_text h hrest hcs]
    simp only [hfurther]
  | @more text op later e es h hop hlater ih =>
    rw [List.append_assoc, List.append_assoc] at hcs
    obtain ⟨after, hskip, hafter⟩ := hop.skipGap_append rfl (later ++ rest)
    have hfirst := readEquality_of_text h (hop.stops rfl (later ++ rest)) hcs
    have hfurther := readFurther_of_conjunction (ih hrest hend hafter)
    rw [readConjunction, hfirst, hskip]
    simp only [List.cons_append, List.nil_append, hfurther]

theorem wholeConjunction_of_text (h : ConjunctionText cs es) : wholeConjunction cs = .ok es := by
  have hread : readConjunction cs = .ok (es, []) := by
    have hstops : Stops Text.isIdentifierRest [] := by simp [Stops]
    have hend : ∀ later, skipGap [] ≠ '&' :: '&' :: later := by simp [skipGap]
    exact readConjunction_of_text h hstops hend (by rw [List.append_nil])
  rw [wholeConjunction, hread]

theorem enclosedConjunction?_of_text {o c : List Char} (ho : Spaced ['('] o)
    (h : ConjunctionText text es) (hc : Spaced [')'] c) :
    enclosedConjunction? (o ++ (text ++ c)) = some es := by
  obtain ⟨inner, hopening, hinner⟩ := ho.skipGap_append rfl (text ++ c)
  obtain ⟨last, hclosing, hlast⟩ := hc.skipGap_append rfl []
  rw [List.append_nil] at hclosing
  have hread : readConjunction (skipGap inner) = .ok (es, skipGap c) := by
    apply readConjunction_of_text h
    · simpa using hc.stops rfl []
    · simp [hclosing]
    · exact (skipGap_skipGap inner).trans hinner
  rw [enclosedConjunction?, hopening]
  simp only [List.nil_append, hread, skipGap_skipGap]
  simp only [hclosing]
  exact if_pos hlast

end Taken

section Written

/-! What a reader has taken is a text of its grammar. -/

theorem spaced_self (symbol : List Char) : Spaced symbol symbol :=
  ⟨[], [], by simp, by simp⟩

/-- What is read as a path is the text of one. -/
theorem exists_text_of_readTerm (h : readTerm cs = .ok (p, rest)) :
    ∃ text, cs = text ++ rest ∧ PathText text p := by
  obtain ⟨hp, -, before, after, rfl, hgaps, -⟩ := readTerm_eq_ok.mp h
  exact ⟨before ++ (p.text.toList ++ after), by simp, hp, before, after, rfl, hgaps⟩

theorem exists_text_of_readComparison (h : readComparison cs = .ok (e, rest)) :
    ∃ text, cs = text ++ rest ∧ EqualityText text e := by
  unfold readComparison at h
  split at h
  · cases h
  · next left after hleft =>
    split at h
    · cases h
    · next right rest hright =>
      cases h
      obtain ⟨l, rfl, hl⟩ := exists_text_of_readTerm hleft
      obtain ⟨r, rfl, hr⟩ := exists_text_of_readTerm hright
      exact ⟨l ++ (['=', '='] ++ r), by simp, .plain hl (spaced_self _) hr⟩
  · cases h

/-- What is read as an equality is the text of one. -/
theorem exists_text_of_readEquality (h : readEquality cs = .ok (e, rest)) :
    ∃ text, cs = text ++ rest ∧ EqualityText text e := by
  fun_induction readEquality cs generalizing e rest with
  | case1 => exact exists_text_of_readComparison h
  | case2 cs inner hopening hlt e' after hinner last hclosing ih =>
    cases h
    obtain ⟨o, ho, rfl⟩ := spaced_of_skipGap hopening
    obtain ⟨text, htext, he⟩ := ih hinner
    obtain ⟨c, hc, rfl⟩ := spaced_of_skipGap hclosing
    exact ⟨o ++ (text ++ c), by simp [htext], .enclosed ho he hc⟩
  | case3 => exact exists_text_of_readComparison h
  | case4 => exact exists_text_of_readComparison h

/-- Further equalities are read each as a whole or not at all. -/
theorem exists_text_of_readFurther (cs : List Char) :
    readFurther cs = ([], cs) ∨ ∃ text, cs = '&' :: '&' :: (text ++ (readFurther cs).2) ∧
      ConjunctionText text (readFurther cs).1 := by
  fun_induction readFurther cs with
  | case1 => exact .inl rfl
  | case2 later e after he hlt es last hfurther ih =>
    obtain ⟨text, rfl, htext⟩ := exists_text_of_readEquality he
    rw [hfurther] at ih
    -- Either the list ends with this equality, or it goes on with what was read further.
    rcases ih with hend | ⟨text', rfl, htext'⟩
    · cases hend
      exact .inr ⟨text, rfl, .single htext⟩
    · exact .inr ⟨text ++ (['&', '&'] ++ text'), by simp, .more htext (spaced_self _) htext'⟩
  | case3 => exact .inl rfl

/-- What is read as a conjunction is the text of one. -/
theorem exists_text_of_readConjunction (h : readConjunction cs = .ok (es, rest)) :
    ∃ text, cs = text ++ rest ∧ ConjunctionText text es := by
  unfold readConjunction at h
  split at h
  · cases h
  · next e after he =>
    cases h
    obtain ⟨text, rfl, htext⟩ := exists_text_of_readEquality he
    rcases exists_text_of_readFurther after with hend | ⟨text', hafter, htext'⟩
    · rw [hend]
      exact ⟨text, rfl, .single htext⟩
    · refine ⟨text ++ (['&', '&'] ++ text'), ?_, .more htext (spaced_self _) htext'⟩
      rw [List.append_assoc]
      exact congrArg (text ++ ·) (by simpa using hafter)

theorem conjunctionText_of_wholeConjunction (h : wholeConjunction cs = .ok es) :
    ConjunctionText cs es := by
  unfold wholeConjunction at h
  split at h
  · cases h
  · next hread =>
    cases h
    obtain ⟨text, rfl, htext⟩ := exists_text_of_readConjunction hread
    rwa [List.append_nil]
  · cases h

theorem joinText_of_enclosedConjunction? (h : enclosedConjunction? cs = some es) :
    JoinText cs es := by
  unfold enclosedConjunction? at h
  split at h
  · next inner hopening =>
    split at h
    · cases h
    · next after hread =>
      split at h
      · next last hclosing =>
        split at h <;> cases h
        next hlast =>
        obtain ⟨o, ho, rfl⟩ := spaced_of_skipGap hopening
        obtain ⟨c, hc, rfl⟩ := spaced_of_skipGap hclosing
        obtain ⟨text, htext, hes⟩ := exists_text_of_readConjunction hread
        rw [htext, hlast, List.append_nil]
        exact .enclosed ho hes hc
      · cases h
  · cases h

end Written

section Bare

/-! Gaps and parentheses make no difference to the equalities of a text. -/

-- What is left of a text without its gaps and parentheses.
def bare (cs : List Char) : List Char :=
  cs.filter fun c => !(isGap c || c == '(' || c == ')')

theorem bare_append (cs cs' : List Char) : bare (cs ++ cs') = bare cs ++ bare cs' :=
  List.filter_append ..

/-- Gaps around a symbol do not count. -/
theorem Spaced.bare_eq {symbol : List Char} (h : Spaced symbol text) : bare text = bare symbol := by
  obtain ⟨before, after, rfl, hgaps⟩ := h
  simp only [List.mem_append, or_imp, forall_and] at hgaps
  have hnone : ∀ gap : List Char, (∀ c ∈ gap, isGap c = true) → bare gap = [] := by
    intro gap hgap
    exact List.filter_eq_nil_iff.mpr fun c hc => by simp [hgap c hc]
  rw [bare_append, bare_append, hnone before hgaps.1, hnone after hgaps.2, List.nil_append,
    List.append_nil]

/-- A path is written in letters, digits, `_` and the point. -/
theorem mem_text_of_named (hp : p.Named) {c : Char} (hc : c ∈ p.text.toList) :
    Text.isIdentifierRest c = true ∨ c = '.' := by
  rw [ColumnPath.text, String.toList_append, String.toList_append, List.mem_append,
    List.mem_append] at hc
  rcases hc with (hc | hc) | hc
  · exact .inl (isIdentifierRest_of_mem hp.qualifier hc)
  · exact .inr (by simpa using hc)
  · exact .inl (isIdentifierRest_of_mem hp.property hc)

/-- There are no gaps and parentheses inside of a path. -/
theorem bare_text (hp : p.Named) : bare p.text.toList = p.text.toList := by
  apply List.filter_eq_self.mpr
  intro c hc
  rw [Bool.not_eq_true', ← Bool.not_eq_true]
  intro hout
  simp only [Bool.or_eq_true, beq_iff_eq] at hout
  have hfalse : Text.isIdentifierRest c = false ∧ c ≠ '.' := by
    rcases hout with (hgap | rfl) | rfl
    · refine ⟨(isIdentifier_of_isGap hgap).2, ?_⟩
      rintro rfl
      cases hgap
    · exact ⟨rfl, by decide⟩
    · exact ⟨rfl, by decide⟩
  rcases mem_text_of_named hp hc with hrest | hpoint
  · exact Bool.false_ne_true (hfalse.1.symm.trans hrest)
  · exact hfalse.2 hpoint

theorem bare_enclosed {o c : List Char} (ho : Spaced ['('] o) (hc : Spaced [')'] c) :
    bare (o ++ (text ++ c)) = bare text := by
  rw [bare_append, bare_append, ho.bare_eq, hc.bare_eq]
  exact List.append_nil (bare text)

theorem pathText_bare (h : PathText text p) : PathText (bare text) p := by
  refine ⟨h.1, ?_⟩
  rw [h.2.bare_eq, bare_text h.1]
  exact spaced_self _

theorem equalityText_bare (h : EqualityText text e) : EqualityText (bare text) e := by
  induction h with
  | plain hleft hop hright =>
    rw [bare_append, bare_append, hop.bare_eq]
    exact .plain (pathText_bare hleft) (spaced_self _) (pathText_bare hright)
  | enclosed ho h hc ih =>
    rwa [bare_enclosed ho hc]

/-- A conjunction says the same without its gaps and parentheses. -/
theorem conjunctionText_bare (h : ConjunctionText text es) : ConjunctionText (bare text) es := by
  induction h with
  | single h => exact .single (equalityText_bare h)
  | more h hop hlater ih =>
    rw [bare_append, bare_append, hop.bare_eq]
    exact .more (equalityText_bare h) (spaced_self _) ih

theorem conjunctionText_bare_of_join (h : JoinText text es) : ConjunctionText (bare text) es := by
  cases h with
  | plain h => exact conjunctionText_bare h
  | enclosed ho h hc =>
    rw [bare_enclosed ho hc]
    exact conjunctionText_bare h

/-- A text has one reading, whatever its parentheses are derived from. -/
theorem JoinText.unique {es' : List PathEquality} (h : JoinText text es) (h' : JoinText text es') :
    es = es' := by
  -- Without parentheses there is one reader for both, and it has one result.
  have hread := wholeConjunction_of_text (conjunctionText_bare_of_join h)
  have hread' := wholeConjunction_of_text (conjunctionText_bare_of_join h')
  exact Except.ok.inj (hread.symm.trans hread')

end Bare

section Conjunction

/-! No text of the grammar holds a disjunction. -/

theorem before?_eq_none {c : Char} (h : c ∉ cs) (needle : List Char) :
    Text.before? (c :: needle) cs = none := by
  induction cs with
  | nil => rfl
  | cons d cs ih =>
    rw [List.mem_cons, not_or] at h
    rw [Text.before?, ih h.2]
    simp [h.1]

theorem Spaced.not_mem {c : Char} {symbol : List Char} (h : Spaced symbol text) (hc : c ∉ symbol)
    (hgap : isGap c = false) : c ∉ text := by
  obtain ⟨before, after, rfl, hgaps⟩ := h
  simp only [List.mem_append, or_imp, forall_and] at hgaps
  simp only [List.mem_append, not_or]
  refine ⟨fun hmem => ?_, hc, fun hmem => ?_⟩
  · exact Bool.false_ne_true (hgap.symm.trans (hgaps.1 c hmem))
  · exact Bool.false_ne_true (hgap.symm.trans (hgaps.2 c hmem))

theorem PathText.bar_not_mem (h : PathText text p) : '|' ∉ text := by
  refine h.2.not_mem (fun hmem => ?_) rfl
  rcases mem_text_of_named h.1 hmem with hrest | hpoint
  · cases hrest
  · cases hpoint

theorem EqualityText.bar_not_mem (h : EqualityText text e) : '|' ∉ text := by
  induction h with
  | plain hleft hop hright =>
    simp only [List.mem_append, not_or]
    exact ⟨hleft.bar_not_mem, hop.not_mem (by decide) rfl, hright.bar_not_mem⟩
  | enclosed ho h hc ih =>
    simp only [List.mem_append, not_or]
    exact ⟨ho.not_mem (by decide) rfl, ih, hc.not_mem (by decide) rfl⟩

theorem ConjunctionText.bar_not_mem (h : ConjunctionText text es) : '|' ∉ text := by
  induction h with
  | single h => exact h.bar_not_mem
  | more h hop hlater ih =>
    simp only [List.mem_append, not_or]
    exact ⟨h.bar_not_mem, hop.not_mem (by decide) rfl, ih⟩

/-- There are no bars in a text of joins. -/
theorem JoinText.bar_not_mem (h : JoinText text es) : '|' ∉ text := by
  cases h with
  | plain h => exact h.bar_not_mem
  | enclosed ho h hc =>
    simp only [List.mem_append, not_or]
    exact ⟨ho.not_mem (by decide) rfl, h.bar_not_mem, hc.not_mem (by decide) rfl⟩

end Conjunction

end SqlSelect.Path

namespace SqlSelect

open SqlSelect.Path

/-- A text is read as equalities exactly if it is a text of these. -/
theorem PathEquality.parseAll_eq_ok {text : String} {es : List PathEquality} :
    parseAll text = .ok es ↔ JoinText text.toList es := by
  constructor
  · intro h
    unfold parseAll at h
    dsimp only at h
    split at h
    · cases h
    · split at h
      · next henclosed =>
        cases h
        exact joinText_of_enclosedConjunction? henclosed
      · split at h
        · next hwhole =>
          cases h
          exact .plain (conjunctionText_of_wholeConjunction hwhole)
        · cases h
  · intro h
    rw [parseAll, before?_eq_none h.bar_not_mem]
    dsimp only
    -- The reader of the whole text only runs where the parentheses do not enclose all of it.
    cases henclosed : enclosedConjunction? text.toList with
    | some es' => rw [h.unique (joinText_of_enclosedConjunction? henclosed)]
    | none =>
      have hwhole : wholeConjunction text.toList = .ok es := by
        generalize text.toList = cs at h henclosed
        cases h with
        | plain h => exact wholeConjunction_of_text h
        | enclosed ho h hc => cases henclosed.symm.trans (enclosedConjunction?_of_text ho h hc)
      rw [hwhole]

/-- The texts of the grammar are those that are read, and each is read as the one list of equalities
that it has. -/
theorem PathEquality.parseAll_of_grammar (text : String) :
    (∀ es, parseAll text = .ok es ↔ JoinText text.toList es) ∧
      ∀ es es', JoinText text.toList es → JoinText text.toList es' → es = es' :=
  ⟨fun _ => parseAll_eq_ok, fun _ _ h h' => h.unique h'⟩

/-- One equality has parentheses of its own, inside those around all of them. -/
theorem PathEquality.parseAll_of_grammar_nested :
    JoinText " ( (a.X==b.Y )&&\tc.Z == d.W ) ".toList
        [⟨⟨"a", "X"⟩, ⟨"b", "Y"⟩⟩, ⟨⟨"c", "Z"⟩, ⟨"d", "W"⟩⟩] ∧
      ∀ es, JoinText " ( (a.X==b.Y )&&\tc.Z == d.W ) ".toList es →
        es = [⟨⟨"a", "X"⟩, ⟨"b", "Y"⟩⟩, ⟨⟨"c", "Z"⟩, ⟨"d", "W"⟩⟩] := by
  obtain ⟨hread, hunique⟩ := parseAll_of_grammar " ( (a.X==b.Y )&&\tc.Z == d.W ) "
  have hjoin := (hread [⟨⟨"a", "X"⟩, ⟨"b", "Y"⟩⟩, ⟨⟨"c", "Z"⟩, ⟨"d", "W"⟩⟩]).mp
    (Except.toOption_eq_some.mp (by decide +kernel))
  exact ⟨hjoin, fun es hes => hunique es _ hes hjoin⟩

end SqlSelect
