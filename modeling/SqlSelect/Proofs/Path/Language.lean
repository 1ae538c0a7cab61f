import SqlSelect.Proofs.Path.Reading

/-! The language of column paths, in the characters of its texts: a text that is a path is one in a
single way, and a text that is none is left where no path goes on with it. -/
namespace SqlSelect.Path

def Letter (c : Char) : Prop :=
  ('A' ≤ c ∧ c ≤ 'Z') ∨ ('a' ≤ c ∧ c ≤ 'z') ∨ c = '_'

def Digit (c : Char) : Prop :=
  '0' ≤ c ∧ c ≤ '9'

-- A letter, then letters and digits.
def Word : List Char → Prop
  | [] => False
  | c :: cs => Letter c ∧ ∀ d ∈ cs, Letter d ∨ Digit d

-- Spaces, tabs and line breaks in any number.
def Gap (cs : List Char) : Prop :=
  ∀ c ∈ cs, c ∈ [' ', '\t', '\r', '\n']

structure PathParts where
  before : List Char
  qualifier : List Char
  property : List Char
  after : List Char

namespace PathParts

def text (s : PathParts) : List Char :=
  s.before ++ (s.qualifier ++ '.' :: (s.property ++ s.after))

def path (s : PathParts) : ColumnPath :=
  ⟨String.ofList s.qualifier, String.ofList s.property⟩

structure Valid (s : PathParts) : Prop where
  before : Gap s.before
  qualifier : Word s.qualifier
  property : Word s.property
  after : Gap s.after

end PathParts

def Viable (cs : List Char) : Prop :=
  ∃ s : PathParts, s.Valid ∧ cs <+: s.text

variable {cs done stop gap name : List Char} {p : ColumnPath} {s s' : PathParts}

section Characters

theorem isAlpha_iff {c : Char} :
    c.isAlpha = true ↔ ('A' ≤ c ∧ c ≤ 'Z') ∨ ('a' ≤ c ∧ c ≤ 'z') := by
  change (decide ('A' ≤ c ∧ c ≤ 'Z') || (decide ('a' ≤ c) && decide (c ≤ 'z'))) = true ↔ _
  rw [Bool.or_eq_true, Bool.and_eq_true, decide_eq_true_iff, decide_eq_true_iff,
    decide_eq_true_iff]

theorem isDigit_iff {c : Char} : c.isDigit = true ↔ Digit c := by
  change (decide ('0' ≤ c) && decide (c ≤ '9')) = true ↔ _
  rw [Bool.and_eq_true, decide_eq_true_iff, decide_eq_true_iff, Digit]

theorem isIdentifierStart_iff {c : Char} : Text.isIdentifierStart c = true ↔ Letter c := by
  rw [Text.isIdentifierStart, Bool.or_eq_true, isAlpha_iff, beq_iff_eq, or_assoc, Letter]

theorem isIdentifierRest_iff {c : Char} :
    Text.isIdentifierRest c = true ↔ Letter c ∨ Digit c := by
  rw [Text.isIdentifierRest, Char.isAlphanum, Bool.or_eq_true, Bool.or_eq_true, isAlpha_iff,
    isDigit_iff, beq_iff_eq, Letter]
  tauto

/-- Identifiers are the words of the grammar. -/
theorem isIdentifier_iff : Text.isIdentifier cs = true ↔ Word cs := by
  cases cs with
  | nil => simp [Text.isIdentifier, Word]
  | cons c cs =>
    simp [Text.isIdentifier, Word, List.all_eq_true, isIdentifierStart_iff, isIdentifierRest_iff]

theorem gap_iff : Gap gap ↔ ∀ c ∈ gap, isGap c = true := by
  simp [Gap, isGap, or_assoc]

end Characters

section Parts

/-! A text has its parts in one way: gaps end where names begin, and names end at the point and at
the gap. -/

theorem isIdentifier_ofList (h : Word name) :
    Text.isIdentifier (String.ofList name).toList = true := by
  rw [String.toList_ofList]
  exact isIdentifier_iff.mpr h

theorem stops_of_word {rest : List Char} (h : Word name) : Stops isGap (name ++ rest) := by
  have hstops : Stops isGap ((String.ofList name).toList ++ rest) :=
    stops_isGap_of_isIdentifier (isIdentifier_ofList h)
  rwa [String.toList_ofList] at hstops

theorem isIdentifierRest_of_word (h : Word name) : ∀ c ∈ name, Text.isIdentifierRest c = true := by
  intro c hc
  rw [← @String.toList_ofList name] at hc
  exact isIdentifierRest_of_mem (isIdentifier_ofList h) hc

theorem stops_of_gap (h : Gap gap) : Stops Text.isIdentifierRest gap := by
  intro c hc
  exact (isIdentifier_of_isGap (gap_iff.mp h c (List.mem_of_mem_head? hc))).2

/-- A text is cut in one way where the parts differ in their characters. -/
theorem append_inj_of_stops {q : Char → Bool} {xs xs' ys ys' : List Char}
    (h : xs ++ ys = xs' ++ ys') (hxs : ∀ c ∈ xs, q c = true) (hxs' : ∀ c ∈ xs', q c = true)
    (hys : Stops q ys) (hys' : Stops q ys') : xs = xs' ∧ ys = ys' := by
  obtain ⟨htake, hdrop⟩ := (span_iff q).mpr ⟨rfl, hxs, hys⟩
  obtain ⟨htake', hdrop'⟩ := (span_iff q).mpr ⟨rfl, hxs', hys'⟩
  rw [h] at htake hdrop
  exact ⟨htake.symm.trans htake', hdrop.symm.trans hdrop'⟩

/-- What follows a name where no name goes on is the point and all behind it. -/
theorem PathParts.qualifier_eq {rest : List Char} (hs : s.Valid) (hgap : Gap gap)
    (hname : Word name) (hrest : Stops Text.isIdentifierRest rest)
    (h : gap ++ (name ++ rest) = s.text) :
    gap = s.before ∧ name = s.qualifier ∧ rest = '.' :: (s.property ++ s.after) := by
  obtain ⟨hbefore, hnames⟩ := append_inj_of_stops h (gap_iff.mp hgap) (gap_iff.mp hs.before)
    (stops_of_word hname) (stops_of_word hs.qualifier)
  obtain ⟨hqualifier, hpoint⟩ := append_inj_of_stops hnames (isIdentifierRest_of_word hname)
    (isIdentifierRest_of_word hs.qualifier) hrest (stops_cons.mpr rfl)
  exact ⟨hbefore, hqualifier, hpoint⟩

/-- A path is taken apart in one way, whatever follows it. -/
theorem PathParts.parts_eq {rest : List Char} (hs : s.Valid) (hs' : s'.Valid)
    (hrest : Stops Text.isIdentifierRest (s.after ++ rest)) (h : s.text ++ rest = s'.text) :
    s.before = s'.before ∧ s.qualifier = s'.qualifier ∧ s.property = s'.property ∧
      s.after ++ rest = s'.after := by
  rw [text, List.append_assoc, List.append_assoc, List.cons_append, List.append_assoc] at h
  obtain ⟨hbefore, hqualifier, hpoint⟩ :=
    qualifier_eq hs' hs.before hs.qualifier (stops_cons.mpr rfl) h
  obtain ⟨hproperty, hafter⟩ := append_inj_of_stops (List.cons.inj hpoint).2
    (isIdentifierRest_of_word hs.property) (isIdentifierRest_of_word hs'.property) hrest
    (stops_of_gap hs'.after)
  exact ⟨hbefore, hqualifier, hproperty, hafter⟩

theorem PathParts.eq_of_text_eq (hs : s.Valid) (hs' : s'.Valid) (h : s.text = s'.text) :
    s = s' := by
  rw [← List.append_nil s.text] at h
  have hrest : Stops Text.isIdentifierRest (s.after ++ []) := by
    rw [List.append_nil]
    exact stops_of_gap hs.after
  obtain ⟨hbefore, hqualifier, hproperty, hafter⟩ := parts_eq hs hs' hrest h
  cases s
  cases s'
  simp_all

theorem PathParts.valid_of_named {before after : List Char} (hp : p.Named)
    (hgaps : ∀ c ∈ before ++ after, isGap c = true) :
    Valid ⟨before, p.qualifier.toList, p.property.toList, after⟩ := by
  rw [List.forall_mem_append] at hgaps
  exact ⟨gap_iff.mpr hgaps.1, isIdentifier_iff.mp hp.qualifier, isIdentifier_iff.mp hp.property,
    gap_iff.mpr hgaps.2⟩

/-- A path is written in the texts that consist of its parts. -/
theorem writtenIn_iff {text : String} :
    p.WrittenIn text ↔ ∃ s : PathParts, s.Valid ∧ s.text = text.toList ∧ s.path = p := by
  constructor
  · rintro ⟨hp, before, after, htext, hgaps⟩
    refine ⟨_, PathParts.valid_of_named hp hgaps, ?_, ?_⟩
    · rw [htext]
      simp [PathParts.text, ColumnPath.text]
    · simp [PathParts.path]
  · rintro ⟨s, hs, htext, rfl⟩
    refine ⟨⟨?_, ?_⟩, s.before, s.after, ?_, ?_⟩
    · exact isIdentifier_ofList hs.qualifier
    · exact isIdentifier_ofList hs.property
    · rw [← htext]
      simp [PathParts.text, PathParts.path, ColumnPath.text]
    · exact List.forall_mem_append.mpr ⟨gap_iff.mp hs.before, gap_iff.mp hs.after⟩

end Parts

section Stopping

/-! A reader that stops has passed the beginning of a path, and no path goes on from there with the
next character. -/

-- The beginning of a path, with the characters that can follow it.
inductive Begins : List Char → (Char → Bool) → Prop
  | gap {gap : List Char} (hgap : Gap gap) :
      Begins gap fun c => isGap c || Text.isIdentifierStart c
  | qualifier {gap name : List Char} (hgap : Gap gap) (hname : Word name) :
      Begins (gap ++ name) fun c => Text.isIdentifierRest c || c == '.'
  | point {gap name : List Char} (hgap : Gap gap) (hname : Word name) :
      Begins (gap ++ (name ++ ['.'])) Text.isIdentifierStart
  | whole {s : PathParts} (hs : s.Valid) :
      Begins s.text fun c => isGap c || (s.after.isEmpty && Text.isIdentifierRest c)

variable {next : Char → Bool}

theorem stops_or {q r : Char → Bool} :
    Stops (fun c => q c || r c) cs ↔ Stops q cs ∧ Stops r cs := by
  simp [Stops, forall_and]

theorem viable_of_begins (h : Begins done next) : Viable done := by
  have hword : Word ['_'] := ⟨.inr (.inr rfl), by simp⟩
  have hgap : Gap [] := by simp [Gap]
  cases h with
  | gap hbefore => exact ⟨⟨done, ['_'], ['_'], []⟩, ⟨hbefore, hword, hword, hgap⟩, _, rfl⟩
  | @qualifier gap name hbefore hname =>
    exact ⟨⟨gap, name, ['_'], []⟩, ⟨hbefore, hname, hword, hgap⟩, ['.', '_'],
      by simp [PathParts.text]⟩
  | @point gap name hbefore hname =>
    exact ⟨⟨gap, name, ['_'], []⟩, ⟨hbefore, hname, hword, hgap⟩, ['_'],
      by simp [PathParts.text]⟩
  | @whole s hs => exact ⟨s, hs, List.prefix_rfl⟩

theorem isIdentifierStart_of_word {c : Char} {rest rest' : List Char} (h : Word name)
    (hc : c :: rest = name ++ rest') : Text.isIdentifierStart c = true := by
  cases name with
  | nil => exact h.elim
  | cons d name =>
    obtain rfl := (List.cons.inj hc).1
    exact isIdentifierStart_iff.mpr h.1

theorem stops_after {c : Char} {rest : List Char} (hs : s.Valid)
    (hc : s.after = [] → Text.isIdentifierRest c = false) :
    Stops Text.isIdentifierRest (s.after ++ c :: rest) := by
  cases hafter : s.after with
  | nil => exact stops_cons.mpr (hc hafter)
  | cons d after =>
    have hgap := stops_of_gap hs.after
    rw [hafter, stops_cons] at hgap
    exact stops_cons.mpr hgap

/-- A character that some path goes on with is one of those that can follow. -/
theorem next_of_viable {c : Char} (h : Begins done next) (hc : Viable (done ++ [c])) :
    next c = true := by
  obtain ⟨s, hs, later, htext⟩ := hc
  rw [List.append_assoc, List.singleton_append] at htext
  rw [← Bool.not_eq_false]
  intro hnext
  -- The parts that were passed are those of the path, so the next character is the path's too.
  cases h with
  | gap hgap =>
    rw [Bool.or_eq_false_iff] at hnext
    obtain ⟨-, hrest⟩ := append_inj_of_stops htext (gap_iff.mp hgap) (gap_iff.mp hs.before)
      (stops_cons.mpr hnext.1) (stops_of_word hs.qualifier)
    exact Bool.false_ne_true (hnext.2.symm.trans (isIdentifierStart_of_word hs.qualifier hrest))
  | qualifier hgap hname =>
    rw [Bool.or_eq_false_iff] at hnext
    rw [List.append_assoc] at htext
    obtain ⟨-, -, hpoint⟩ :=
      PathParts.qualifier_eq hs hgap hname (stops_cons.mpr hnext.1) htext
    exact beq_eq_false_iff_ne.mp hnext.2 (List.cons.inj hpoint).1
  | point hgap hname =>
    rw [List.append_assoc, List.append_assoc] at htext
    obtain ⟨-, -, hpoint⟩ := PathParts.qualifier_eq hs hgap hname (stops_cons.mpr rfl) htext
    exact Bool.false_ne_true
      (hnext.symm.trans (isIdentifierStart_of_word hs.property (List.cons.inj hpoint).2))
  | whole hs' =>
    simp only [Bool.or_eq_false_iff, Bool.and_eq_false_imp, List.isEmpty_iff] at hnext
    obtain ⟨-, -, -, hafter⟩ := PathParts.parts_eq hs' hs (stops_after hs' hnext.2) htext
    have hc := gap_iff.mp hs.after c (by simp [← hafter])
    exact Bool.false_ne_true (hnext.1.symm.trans hc)

/-- No longer beginning of a path is in the text than what was read. -/
theorem prefix_of_viable {q : List Char} (h : Begins done next) (hstop : Stops next stop)
    (hq : q <+: done ++ stop) (hviable : Viable q) : q <+: done := by
  rcases List.prefix_or_prefix_of_prefix hq (List.prefix_append done stop) with hdone | ⟨more, rfl⟩
  · exact hdone
  cases more with
  | nil => simp
  | cons c more =>
    obtain ⟨later, hcs⟩ := (List.prefix_append_right_inj done).mp hq
    have hnext : next c = false := by
      rw [← hcs] at hstop
      exact stops_cons.mp hstop
    obtain ⟨s, hs, hprefix⟩ := hviable
    have hc : Viable (done ++ [c]) := ⟨s, hs, List.IsPrefix.trans ⟨more, by simp⟩ hprefix⟩
    exact absurd (next_of_viable h hc) (by simp [hnext])

theorem stops_of_readIdentifier_error (h : readIdentifier cs = .error stop) :
    stop = cs ∧ Stops Text.isIdentifierStart cs := by
  cases cs with
  | nil =>
    cases h
    exact ⟨rfl, by simp [Stops]⟩
  | cons c cs =>
    rw [readIdentifier] at h
    split at h
    · cases h
    · next hstart =>
      cases h
      exact ⟨rfl, stops_cons.mpr (Bool.not_eq_true _ ▸ hstart)⟩

-- The reader has passed the beginning of a path, up to a character that does not go on with it.
def StopsAt (cs stop : List Char) : Prop :=
  ∃ done next, cs = done ++ stop ∧ Begins done next ∧ Stops next stop

theorem stopsAt_of_readPath_error (hgap : Gap gap) (hbegin : Stops isGap cs)
    (h : readPath cs = .error stop) : StopsAt (gap ++ cs) stop := by
  unfold readPath at h
  split at h
  · next hqualifier =>
    cases h
    obtain ⟨rfl, hstart⟩ := stops_of_readIdentifier_error hqualifier
    exact ⟨gap, _, rfl, .gap hgap, stops_or.mpr ⟨hbegin, hstart⟩⟩
  · next qualifier after hqualifier =>
    obtain ⟨hname, rfl, -⟩ := readIdentifier_eq_ok.mp hqualifier
    split at h
    · next hproperty =>
      cases h
      obtain ⟨rfl, hstart⟩ := stops_of_readIdentifier_error hproperty
      exact ⟨_, _, by simp, .point hgap (isIdentifier_iff.mp hname), hstart⟩
    · cases h
  · next hnone hqualifier =>
    cases h
    obtain ⟨hname, rfl, hrest⟩ := readIdentifier_eq_ok.mp hqualifier
    have hpoint : Stops (· == '.') stop := by
      intro c hc
      obtain ⟨rest, rfl⟩ := List.head?_eq_some_iff.mp hc
      exact beq_eq_false_iff_ne.mpr fun hc => hnone rest (by rw [hc])
    exact ⟨_, _, by simp, .qualifier hgap (isIdentifier_iff.mp hname),
      stops_or.mpr ⟨hrest, hpoint⟩⟩

/-- Where the reader fails, no path goes on. -/
theorem stopsAt_of_readTerm_error (h : readTerm cs = .error stop) : StopsAt cs stop := by
  obtain ⟨gap, hcs, hgap, hbegin⟩ := skipGap_eq_iff.mp (rfl : skipGap cs = _)
  unfold readTerm at h
  split at h
  · next hpath =>
    cases h
    rw [hcs]
    exact stopsAt_of_readPath_error (gap_iff.mpr hgap) hbegin hpath
  · cases h

theorem stopsAt_of_readTerm (h : readTerm cs = .ok (p, stop)) : StopsAt cs stop := by
  obtain ⟨hp, hgap, before, after, rfl, hgaps, hrest⟩ := readTerm_eq_ok.mp h
  have hs := PathParts.valid_of_named hp hgaps
  refine ⟨_, _, by simp [PathParts.text, ColumnPath.text], .whole hs, stops_or.mpr ⟨hgap, ?_⟩⟩
  cases after with
  | nil => simpa using hrest
  | cons c after => simp [Stops]

end Stopping

end SqlSelect.Path

namespace SqlSelect

open SqlSelect.Path

/-- The fault of a text is where it ceases to be the beginning of a path. -/
theorem ColumnPath.stopsAt_of_parse_eq_error {text : String} {fault : PathFault}
    (h : parse text = .error fault) :
    ∃ stop, StopsAt text.toList stop ∧ fault = faultAt text.toList stop .columnPath := by
  unfold parse at h
  dsimp only at h
  split at h
  · next stop hterm =>
    cases h
    exact ⟨stop, stopsAt_of_readTerm_error hterm, rfl⟩
  · cases h
  · next stop _ hterm =>
    cases h
    exact ⟨stop, stopsAt_of_readTerm hterm, rfl⟩

/-- The texts of paths are read, each as the one path that it is. Any other text has a longest
beginning that some path goes on from, and the fault is told behind it. -/
theorem ColumnPath.parse_of_language (text : String) :
    (∀ cs, Text.isIdentifier cs = true ↔ Word cs) ∧
      (∀ p, parse text = .ok p ↔
        ∃ s : PathParts, s.Valid ∧ s.text = text.toList ∧ s.path = p) ∧
      (∀ s s' : PathParts, s.Valid → s'.Valid → s.text = text.toList → s'.text = text.toList →
        s = s') ∧
      ((∃ p, parse text = .ok p) ∨ ∃ viable, viable <+: text.toList ∧ Viable viable ∧
        (∀ q, q <+: text.toList → Viable q → q <+: viable) ∧
        parse text = .error ⟨Text.byteLength viable, .columnPath⟩) := by
  refine ⟨fun _ => isIdentifier_iff, fun _ => parse_eq_ok.trans writtenIn_iff, ?_, ?_⟩
  · intro s s' hs hs' htext htext'
    exact PathParts.eq_of_text_eq hs hs' (htext.trans htext'.symm)
  · cases hparse : parse text with
    | ok p => exact .inl ⟨p, rfl⟩
    | error fault =>
      obtain ⟨stop, ⟨done, next, htext, hbegins, hstop⟩, rfl⟩ := stopsAt_of_parse_eq_error hparse
      rw [htext]
      refine .inr ⟨done, List.prefix_append done stop, viable_of_begins hbegins, ?_, ?_⟩
      · exact fun q hq hviable => prefix_of_viable hbegins hstop hq hviable
      · simp [faultAt]

/-- A letter that is not of ASCII ends a name, and the fault counts bytes up to it; a path with
gaps has no other parts. -/
theorem ColumnPath.parse_of_language_umlaut :
    (∃ viable, viable <+: "\ts.Größe".toList ∧ Viable viable ∧
        (∀ q, q <+: "\ts.Größe".toList → Viable q → q <+: viable) ∧ Text.byteLength viable = 5) ∧
      ∀ s : PathParts, s.Valid → s.text = " s.Id\t".toList →
        s = ⟨[' '], ['s'], ['I', 'd'], ['\t']⟩ := by
  constructor
  · obtain ⟨-, -, -, hread⟩ := parse_of_language "\ts.Größe"
    have hfault : parse "\ts.Größe" = .error ⟨5, .columnPath⟩ := by rfl
    rcases hread with ⟨p, hp⟩ | ⟨viable, hprefix, hviable, hlongest, hparse⟩
    · cases hfault.symm.trans hp
    · have hposition := PathFault.mk.inj (Except.error.inj (hparse.symm.trans hfault))
      exact ⟨viable, hprefix, hviable, hlongest, hposition.1⟩
  · intro s hs htext
    obtain ⟨-, -, hunique, -⟩ := parse_of_language " s.Id\t"
    have hvalid : PathParts.Valid ⟨[' '], ['s'], ['I', 'd'], ['\t']⟩ :=
      ⟨by simp [Gap], isIdentifier_iff.mp rfl, isIdentifier_iff.mp rfl, by simp [Gap]⟩
    exact hunique s _ hs hvalid htext (by decide)

end SqlSelect
