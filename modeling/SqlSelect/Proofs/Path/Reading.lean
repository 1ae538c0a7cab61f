import Mathlib.Data.List.TakeWhile
import SqlSelect.Path
import SqlSelect.Proofs.Outcome

/-! Which texts the readers of paths take. -/
namespace SqlSelect

structure ColumnPath.Named (p : ColumnPath) : Prop where
  qualifier : Text.isIdentifier p.qualifier.toList = true
  property : Text.isIdentifier p.property.toList = true

def ColumnPath.WrittenIn (p : ColumnPath) (text : String) : Prop :=
  p.Named ∧ ∃ before after, text.toList = before ++ (p.text.toList ++ after) ∧
    ∀ c ∈ before ++ after, Path.isGap c = true

namespace Path

-- The text does not begin with such a character.
def Stops (p : Char → Bool) (cs : List Char) : Prop :=
  ∀ c ∈ cs.head?, p c = false

variable {cs rest : List Char} {name : String} {p : ColumnPath}

theorem stops_cons {q : Char → Bool} {c : Char} : Stops q (c :: cs) ↔ q c = false := by
  simp [Stops]

/-- A text is cut before the first character that is not of the kind. -/
theorem span_iff (q : Char → Bool) {xs ys : List Char} :
    cs.takeWhile q = xs ∧ cs.dropWhile q = ys ↔
      cs = xs ++ ys ∧ (∀ c ∈ xs, q c = true) ∧ Stops q ys := by
  constructor
  · rintro ⟨rfl, rfl⟩
    refine ⟨List.takeWhile_append_dropWhile.symm, fun c hc => List.mem_takeWhile_imp hc, ?_⟩
    intro c hc
    have hnot := List.head?_dropWhile_not q cs
    rwa [Option.mem_def.mp hc] at hnot
  · rintro ⟨rfl, hxs, hys⟩
    rw [List.takeWhile_append_of_pos hxs, List.dropWhile_append_of_pos hxs]
    cases ys with
    | nil => simp
    | cons y ys => simp [stops_cons.mp hys]

theorem skipGap_eq_iff :
    skipGap cs = rest ↔
      ∃ gap, cs = gap ++ rest ∧ (∀ c ∈ gap, isGap c = true) ∧ Stops isGap rest := by
  constructor
  · intro h
    exact ⟨cs.takeWhile isGap, (span_iff isGap).mp ⟨rfl, h⟩⟩
  · rintro ⟨gap, h⟩
    exact ((span_iff isGap).mpr h).2

/-- No identifier has a gap in it. -/
theorem isIdentifier_of_isGap {c : Char} (h : isGap c = true) :
    Text.isIdentifierStart c = false ∧ Text.isIdentifierRest c = false := by
  simp only [isGap, Bool.or_eq_true, beq_iff_eq] at h
  rcases h with ((rfl | rfl) | rfl) | rfl <;> exact ⟨rfl, rfl⟩

theorem isIdentifierRest_of_mem {name : String} {c : Char}
    (h : Text.isIdentifier name.toList = true) (hc : c ∈ name.toList) :
    Text.isIdentifierRest c = true := by
  cases hname : name.toList with
  | nil =>
    rw [hname] at hc
    cases hc
  | cons first later =>
    rw [hname, Text.isIdentifier, Bool.and_eq_true] at h
    rw [hname] at hc
    rcases List.mem_cons.mp hc with rfl | hc
    · rw [Text.isIdentifierStart, Bool.or_eq_true] at h
      rw [Text.isIdentifierRest, Char.isAlphanum]
      rcases h.1 with halpha | hline
      · simp [halpha]
      · simp [hline]
    · exact List.all_eq_true.mp h.2 c hc

theorem stops_isGap_of_isIdentifier (h : Text.isIdentifier name.toList = true) :
    Stops isGap (name.toList ++ cs) := by
  cases hname : name.toList with
  | nil =>
    rw [hname] at h
    cases h
  | cons c rest =>
    rw [hname, Text.isIdentifier, Bool.and_eq_true] at h
    rw [List.cons_append, stops_cons, ← Bool.not_eq_true]
    intro hgap
    rw [(isIdentifier_of_isGap hgap).1] at h
    exact Bool.false_ne_true h.1

/-- An identifier is read as far as it goes. -/
theorem readIdentifier_eq_ok :
    readIdentifier cs = .ok (name, rest) ↔
      Text.isIdentifier name.toList = true ∧ cs = name.toList ++ rest ∧
        Stops Text.isIdentifierRest rest := by
  constructor
  · intro h
    cases cs with
    | nil => cases h
    | cons c cs =>
      rw [readIdentifier] at h
      split at h
      · next hstart =>
        cases h
        have hspan := (span_iff Text.isIdentifierRest).mp ⟨(rfl : cs.takeWhile _ = _), rfl⟩
        obtain ⟨hcs, hall, hstops⟩ := hspan
        refine ⟨?_, ?_, hstops⟩
        · simp [Text.isIdentifier, hstart]
        · rw [String.toList_ofList, List.cons_append, ← hcs]
      · cases h
  · rintro ⟨hname, rfl, hstops⟩
    cases hchars : name.toList with
    | nil =>
      rw [hchars] at hname
      cases hname
    | cons c cs =>
      rw [hchars, Text.isIdentifier, Bool.and_eq_true] at hname
      obtain ⟨htake, hdrop⟩ := (span_iff Text.isIdentifierRest).mpr
        ⟨rfl, List.all_eq_true.mp hname.2, hstops⟩
      rw [List.cons_append, readIdentifier, if_pos hname.1, htake, hdrop, ← hchars,
        String.ofList_toList]

/-- A path is two identifiers with a point between them. -/
theorem readPath_eq_ok :
    readPath cs = .ok (p, rest) ↔
      p.Named ∧ cs = p.text.toList ++ rest ∧ Stops Text.isIdentifierRest rest := by
  constructor
  · intro h
    unfold readPath at h
    split at h
    · cases h
    · next qualifier after hqualifier =>
      split at h
      · cases h
      · next property rest hproperty =>
        cases h
        obtain ⟨hq, rfl, -⟩ := readIdentifier_eq_ok.mp hqualifier
        obtain ⟨hp, rfl, hstops⟩ := readIdentifier_eq_ok.mp hproperty
        exact ⟨⟨hq, hp⟩, by simp [ColumnPath.text], hstops⟩
    · cases h
  · rintro ⟨hp, rfl, hstops⟩
    have hqualifier : readIdentifier (p.text.toList ++ rest) =
        .ok (p.qualifier, '.' :: (p.property.toList ++ rest)) :=
      readIdentifier_eq_ok.mpr ⟨hp.qualifier, by simp [ColumnPath.text], stops_cons.mpr rfl⟩
    have hproperty := readIdentifier_eq_ok.mpr ⟨hp.property, rfl, hstops⟩
    rw [readPath, hqualifier]
    simp only [hproperty]

/-- Gaps end before what follows them, and so do identifiers. -/
theorem readTerm_eq_ok :
    readTerm cs = .ok (p, rest) ↔ p.Named ∧ Stops isGap rest ∧
      ∃ before after, cs = before ++ (p.text.toList ++ (after ++ rest)) ∧
        (∀ c ∈ before ++ after, isGap c = true) ∧ Stops Text.isIdentifierRest (after ++ rest) := by
  simp only [List.mem_append, or_imp, forall_and]
  constructor
  · intro h
    unfold readTerm at h
    split at h
    · cases h
    · next q middle hpath =>
      cases h
      obtain ⟨hp, htext, hstops⟩ := readPath_eq_ok.mp hpath
      obtain ⟨before, hbefore, hgap, -⟩ := skipGap_eq_iff.mp htext
      obtain ⟨after, hafter, hgap', hrest⟩ := skipGap_eq_iff.mp (rfl : skipGap middle = _)
      refine ⟨hp, hrest, before, after, ?_, ⟨hgap, hgap'⟩, ?_⟩
      · rwa [← hafter]
      · rwa [← hafter]
  · rintro ⟨hp, hrest, before, after, rfl, ⟨hgap, hgap'⟩, hstops⟩
    have hbegin : Stops isGap (p.text.toList ++ (after ++ rest)) := by
      rw [ColumnPath.text, String.toList_append, String.toList_append, List.append_assoc,
        List.append_assoc]
      exact stops_isGap_of_isIdentifier hp.qualifier
    have hskip := skipGap_eq_iff.mpr ⟨before, rfl, hgap, hbegin⟩
    have hskip' := skipGap_eq_iff.mpr ⟨after, rfl, hgap', hrest⟩
    rw [readTerm, hskip, readPath_eq_ok.mpr ⟨hp, rfl, hstops⟩]
    simp only [hskip']

end Path

open SqlSelect.Path in
/-- A path is read from its text with gaps around it, and from nothing else. -/
theorem ColumnPath.parse_eq_ok {text : String} {p : ColumnPath} :
    parse text = .ok p ↔ p.WrittenIn text := by
  have hparse : parse text = .ok p ↔ readTerm text.toList = .ok (p, []) := by
    unfold parse
    dsimp only
    split
    · next h => simp [h]
    · next h => simp [h]
    · next hrest h => simpa [h] using fun _ => hrest
  rw [hparse, readTerm_eq_ok, WrittenIn]
  constructor
  · rintro ⟨hp, -, before, after, htext, hgaps, -⟩
    exact ⟨hp, before, after, by simpa using htext, hgaps⟩
  · rintro ⟨hp, before, after, htext, hgaps⟩
    refine ⟨hp, by simp [Stops], before, after, by simpa using htext, hgaps, ?_⟩
    intro c hc
    rw [List.append_nil] at hc
    have hafter : c ∈ after := List.mem_of_mem_head? hc
    exact (isIdentifier_of_isGap (hgaps c (List.mem_append_right _ hafter))).2

/-- The text of a path is read as the path. -/
theorem ColumnPath.parse_text {p : ColumnPath} (h : p.Named) : parse p.text = .ok p :=
  parse_eq_ok.mpr ⟨h, [], [], by simp, by simp⟩

namespace PathEquality

def Named (e : PathEquality) : Prop :=
  e.left.Named ∧ e.right.Named

end PathEquality

namespace Path

variable {cs rest : List Char} {e : PathEquality} {es : List PathEquality}

theorem named_of_readComparison (h : readComparison cs = .ok (e, rest)) : e.Named := by
  unfold readComparison at h
  split at h
  · cases h
  · next left after hleft =>
    split at h
    · cases h
    · next right rest hright =>
      cases h
      exact ⟨(readTerm_eq_ok.mp hleft).1, (readTerm_eq_ok.mp hright).1⟩
  · cases h

theorem named_of_readEquality (h : readEquality cs = .ok (e, rest)) : e.Named := by
  fun_induction readEquality cs generalizing e rest with
  | case1 => exact named_of_readComparison h
  | case2 cs r hg hlt e' r' hr r'' hc ih =>
    cases h
    exact ih hr
  | case3 => exact named_of_readComparison h
  | case4 => exact named_of_readComparison h

theorem named_of_readFurther (cs : List Char) : ∀ e ∈ (readFurther cs).1, e.Named := by
  fun_induction readFurther cs with
  | case1 => simp
  | case2 rest e rest' hr hlt es last hfurther ih =>
    rw [hfurther] at ih
    exact List.forall_mem_cons.mpr ⟨named_of_readEquality hr, ih⟩
  | case3 => simp

theorem named_of_readConjunction (h : readConjunction cs = .ok (es, rest)) :
    ∀ e ∈ es, e.Named := by
  unfold readConjunction at h
  split at h
  · cases h
  · next e after he =>
    cases h
    exact List.forall_mem_cons.mpr ⟨named_of_readEquality he, named_of_readFurther after⟩

theorem named_of_enclosedConjunction? (h : enclosedConjunction? cs = some es) :
    ∀ e ∈ es, e.Named := by
  unfold enclosedConjunction? at h
  split at h
  · split at h
    · cases h
    · next hconjunction =>
      split at h
      · split at h <;> cases h
        exact named_of_readConjunction hconjunction
      · cases h
  · cases h

theorem named_of_wholeConjunction (h : wholeConjunction cs = .ok es) : ∀ e ∈ es, e.Named := by
  unfold wholeConjunction at h
  split at h
  · cases h
  · next hconjunction =>
    cases h
    exact named_of_readConjunction hconjunction
  · cases h

end Path

open SqlSelect.Path in
/-- Whatever is read has identifiers for its names. -/
theorem PathEquality.named_of_parseAll {text : String} {es : List PathEquality}
    (h : parseAll text = .ok es) : ∀ e ∈ es, e.Named := by
  unfold parseAll at h
  dsimp only at h
  split at h
  · cases h
  · split at h
    · next hclosed =>
      cases h
      exact named_of_enclosedConjunction? hclosed
    · split at h
      · next hwhole =>
        cases h
        exact named_of_wholeConjunction hwhole
      · cases h

end SqlSelect
