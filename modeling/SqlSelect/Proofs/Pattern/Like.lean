import SqlSelect.Proofs.Pattern.Quotation

/-! What a pattern matches. A pattern that looks for a beginning or an end of texts has the text to
look for as it is, so that its wildcards are those of the pattern; it looks for this very text
exactly if there are none in it. -/
namespace SqlSelect

inductive PatternPiece where
  -- Any number of characters, written `%`.
  | run
  -- Any character, written `_`.
  | one
  -- A character of a class, by what is written between its brackets.
  | member (spelling : List Char)
  | char (c : Char)

namespace PatternPiece

-- The character is listed, by itself or as one of a range.
def lists : List Char → Char → Bool
  | first :: '-' :: last :: cs, c => (first ≤ c && c ≤ last) || lists cs c
  | first :: cs, c => first == c || lists cs c
  | [], _ => false

-- The character is of the class; behind a `^` are those that are not.
def admits : List Char → Char → Bool
  | '^' :: cs, c => !lists cs c
  | cs, c => lists cs c

def Covers : PatternPiece → List Char → Prop
  | run, _ => True
  | one, part => ∃ c, part = [c]
  | member spelling, part => ∃ c, part = [c] ∧ admits spelling c = true
  | char c, part => part = [c]

def Match (ps : List PatternPiece) (text : List Char) : Prop :=
  ∃ parts : List (List Char), List.Forall₂ Covers ps parts ∧ parts.flatten = text

variable {p : PatternPiece} {ps qs : List PatternPiece} {text : List Char}

theorem match_nil : Match [] text ↔ text = [] := by
  constructor
  · rintro ⟨parts, hparts, rfl⟩
    cases hparts
    rfl
  · rintro rfl
    exact ⟨[], .nil, rfl⟩

theorem match_cons :
    Match (p :: ps) text ↔ ∃ part rest, p.Covers part ∧ Match ps rest ∧ text = part ++ rest := by
  constructor
  · rintro ⟨_, hparts, rfl⟩
    cases hparts with
    | @cons _ part _ parts hp hps =>
      exact ⟨part, parts.flatten, hp, ⟨parts, hps, rfl⟩, List.flatten_cons⟩
  · rintro ⟨part, _, hp, ⟨parts, hps, rfl⟩, rfl⟩
    exact ⟨part :: parts, .cons hp hps, List.flatten_cons⟩

/-- A text matches two patterns in a row if it can be cut between them. -/
theorem match_append :
    Match (ps ++ qs) text ↔
      ∃ front back, Match ps front ∧ Match qs back ∧ text = front ++ back := by
  induction ps generalizing text with
  | nil => simp [match_nil]
  | cons p ps ih =>
    simp only [List.cons_append, match_cons, ih]
    constructor
    · rintro ⟨part, _, hp, ⟨front, back, hfront, hback, rfl⟩, rfl⟩
      exact ⟨part ++ front, back, ⟨part, front, hp, hfront, rfl⟩, hback, by simp⟩
    · rintro ⟨_, back, ⟨part, front, hp, hfront, rfl⟩, hback, rfl⟩
      exact ⟨part, front ++ back, hp, ⟨front, back, hfront, hback, rfl⟩, by simp⟩

theorem match_run : Match [run] text := by
  rw [match_cons]
  exact ⟨text, [], trivial, match_nil.mpr rfl, (List.append_nil text).symm⟩

/-- Characters match themselves only. -/
theorem match_map_char {cs : List Char} : Match (cs.map char) text ↔ text = cs := by
  induction cs generalizing text with
  | nil => exact match_nil
  | cons c cs ih => simp [match_cons, Covers, ih]

/-- A piece that stands for something stands for one character or for none. -/
theorem exists_covers_le_one {part : List Char} (h : p.Covers part) :
    ∃ part', p.Covers part' ∧ part'.length ≤ 1 := by
  cases p with
  | run => exact ⟨[], trivial, Nat.zero_le 1⟩
  | one =>
    obtain ⟨c, rfl⟩ := h
    exact ⟨[c], ⟨c, rfl⟩, Nat.le_refl 1⟩
  | member spelling =>
    obtain ⟨c, rfl, hc⟩ := h
    exact ⟨[c], ⟨c, rfl, hc⟩, Nat.le_refl 1⟩
  | char c =>
    obtain rfl : part = [c] := h
    exact ⟨[c], rfl, Nat.le_refl 1⟩

/-- What matches at all is matched by a text that is no longer than there are pieces. -/
theorem exists_match_le_length (h : Match ps text) :
    ∃ text', Match ps text' ∧ text'.length ≤ ps.length := by
  induction ps generalizing text with
  | nil => exact ⟨[], match_nil.mpr rfl, Nat.le_refl 0⟩
  | cons p ps ih =>
    obtain ⟨part, rest, hp, hrest, -⟩ := match_cons.mp h
    obtain ⟨part', hp', hpart⟩ := exists_covers_le_one hp
    obtain ⟨rest', hrest', hlength⟩ := ih hrest
    refine ⟨part' ++ rest', match_cons.mpr ⟨part', rest', hp', hrest', rfl⟩, ?_⟩
    rw [List.length_append, List.length_cons]
    omega

end PatternPiece

namespace LikePattern

open PatternPiece

-- The pieces of a pattern. A class ends at the first closing bracket; an opening bracket without
-- one is a character like others.
def pieces : List Char → List PatternPiece
  | [] => []
  | '%' :: cs => run :: pieces cs
  | '_' :: cs => one :: pieces cs
  | '[' :: cs =>
    if ']' ∈ cs then
      member (cs.takeWhile (· != ']')) :: pieces (cs.dropWhile (· != ']')).tail
    else char '[' :: pieces cs
  | c :: cs => char c :: pieces cs
termination_by cs => cs.length
decreasing_by
  all_goals simp only [List.length_cons, List.length_tail]
  · omega
  · omega
  · have := (cs.dropWhile_sublist (· != ']')).length_le
    omega
  · omega
  · omega

def Matches (pattern text : List Char) : Prop :=
  Match (pieces pattern) text

def HasWildcard (text : List Char) : Prop :=
  '%' ∈ text ∨ '_' ∈ text ∨ List.Sublist ['[', ']'] text

instance (text : List Char) : Decidable (HasWildcard text) :=
  inferInstanceAs (Decidable (_ ∨ _ ∨ _))

theorem hasWildcard_cons {c : Char} {cs : List Char} :
    HasWildcard (c :: cs) ↔ c = '%' ∨ c = '_' ∨ (c = '[' ∧ ']' ∈ cs) ∨ HasWildcard cs := by
  simp only [HasWildcard, List.mem_cons, List.cons_sublist_cons', List.singleton_sublist, eq_comm]
  tauto

theorem length_pieces_le (cs : List Char) : (pieces cs).length ≤ cs.length := by
  fun_induction pieces cs with
  | case1 => exact Nat.le_refl 0
  | case2 cs ih => exact Nat.succ_le_succ ih
  | case3 cs ih => exact Nat.succ_le_succ ih
  | case4 cs hclosed ih =>
    have hrest := (cs.dropWhile_sublist (· != ']')).length_le
    simp only [List.length_cons, List.length_tail] at ih ⊢
    omega
  | case5 cs hopen ih => exact Nat.succ_le_succ ih
  | case6 c cs _ _ _ ih => exact Nat.succ_le_succ ih

/-- What is written in a class ends at the first closing bracket. -/
theorem span_class {spelling : List Char} (h : ']' ∉ spelling) (rest : List Char) :
    (spelling ++ ']' :: rest).takeWhile (· != ']') = spelling ∧
      (spelling ++ ']' :: rest).dropWhile (· != ']') = ']' :: rest := by
  refine (Path.span_iff (· != ']')).mpr ⟨rfl, ?_, Path.stops_cons.mpr rfl⟩
  intro c hc
  exact bne_iff_ne.mpr (ne_of_mem_of_not_mem hc h)

theorem pieces_class {spelling : List Char} (h : ']' ∉ spelling) (rest : List Char) :
    pieces ('[' :: (spelling ++ ']' :: rest)) = member spelling :: pieces rest := by
  obtain ⟨hspelling, hrest⟩ := span_class h rest
  rw [pieces, if_pos (by simp), hspelling, hrest, List.tail_cons]

/-- Nothing in front of a `%` is changed by it: it closes no class. -/
theorem pieces_append_run (cs : List Char) : pieces (cs ++ ['%']) = pieces cs ++ [run] := by
  fun_induction pieces cs with
  | case1 => simp [pieces]
  | case2 cs ih => simp [pieces, ih]
  | case3 cs ih => simp [pieces, ih]
  | case4 cs hclosed ih =>
    -- The class is closed in front already, at the same bracket with more behind it.
    obtain ⟨spelling, rest, rfl, hspelling⟩ := List.eq_append_cons_of_mem hclosed
    obtain ⟨htake, hdrop⟩ := span_class hspelling rest
    have hmember := pieces_class hspelling (rest ++ ['%'])
    rw [hdrop, List.tail_cons] at ih
    rw [htake, hdrop, List.tail_cons, List.cons_append, List.cons_append, List.append_assoc,
      List.cons_append, hmember, ih]
  | case5 cs hopen ih => simp [pieces, hopen, ih]
  | case6 c cs hrun hone hmember ih => simp [pieces, ih]

/-- A pattern without wildcards consists of its characters. -/
theorem pieces_of_not_hasWildcard {cs : List Char} (h : ¬HasWildcard cs) :
    pieces cs = cs.map char := by
  fun_induction pieces cs with
  | case1 => rfl
  | case2 cs ih => exact absurd (hasWildcard_cons.mpr (.inl rfl)) h
  | case3 cs ih => exact absurd (hasWildcard_cons.mpr (.inr (.inl rfl))) h
  | case4 cs hclosed ih => exact absurd (hasWildcard_cons.mpr (.inr (.inr (.inl ⟨rfl, hclosed⟩)))) h
  | case5 cs hopen ih =>
    have hcs : ¬HasWildcard cs := fun hw => h (hasWildcard_cons.mpr (.inr (.inr (.inr hw))))
    rw [ih hcs, List.map_cons]
  | case6 c cs _ _ _ ih =>
    have hcs : ¬HasWildcard cs := fun hw => h (hasWildcard_cons.mpr (.inr (.inr (.inr hw))))
    rw [ih hcs, List.map_cons]

/-- If anything matches, then something does that is not longer than the pattern. -/
theorem exists_matches_le_length {cs text : List Char} (h : Matches cs text) :
    ∃ text', Matches cs text' ∧ text'.length ≤ cs.length := by
  obtain ⟨text', htext', hlength⟩ := exists_match_le_length h
  exact ⟨text', htext', hlength.trans (length_pieces_le cs)⟩

-- Something matches, but nothing that is shorter than the pattern and, of its length, nothing but
-- itself.
structure Rigid (ps : List PatternPiece) (pattern : List Char) : Prop where
  matched : ∃ text, Match ps text
  least : ∀ text, Match ps text → pattern.length ≤ text.length
  only : ∀ text, Match ps text → text.length = pattern.length → text = pattern

/-- A rigid pattern is rigid behind its first character, too. -/
theorem Rigid.tail {ps : List PatternPiece} {c : Char} {cs : List Char}
    (h : Rigid (char c :: ps) (c :: cs)) : Rigid ps cs := by
  have hcons {text : List Char} (htext : Match ps text) : Match (char c :: ps) (c :: text) :=
    match_cons.mpr ⟨[c], text, rfl, htext, rfl⟩
  refine ⟨?_, ?_, ?_⟩
  · obtain ⟨text, htext⟩ := h.matched
    obtain ⟨-, rest, -, hrest, -⟩ := match_cons.mp htext
    exact ⟨rest, hrest⟩
  · intro text htext
    exact Nat.le_of_succ_le_succ (h.least _ (hcons htext))
  · intro text htext hlength
    have hsame := h.only _ (hcons htext) (congrArg Nat.succ hlength)
    exact (List.cons.inj hsame).2

/-- What follows the first piece is matched by a text that is no longer than it. -/
theorem Rigid.exists_short {p : PatternPiece} {cs pattern : List Char}
    (h : Rigid (p :: pieces cs) pattern) :
    ∃ part short, p.Covers part ∧ Matches cs short ∧ short.length ≤ cs.length := by
  obtain ⟨text, htext⟩ := h.matched
  obtain ⟨part, rest, hpart, hrest, -⟩ := match_cons.mp htext
  obtain ⟨short, hshort, hlength⟩ := exists_matches_le_length hrest
  exact ⟨part, short, hpart, hshort, hlength⟩

/-- Only a pattern without wildcards is so. -/
theorem not_hasWildcard_of_rigid {cs : List Char} (h : Rigid (pieces cs) cs) :
    ¬HasWildcard cs := by
  fun_induction pieces cs with
  | case1 => simp [HasWildcard]
  | case2 cs ih =>
    -- The run can be left out.
    obtain ⟨-, short, -, hshort, hlength⟩ := h.exists_short
    have hle := h.least short (match_cons.mpr ⟨[], short, trivial, hshort, rfl⟩)
    rw [List.length_cons] at hle
    omega
  | case3 cs ih =>
    -- Another character can be in the place of the wildcard.
    obtain ⟨-, short, -, hshort, hlength⟩ := h.exists_short
    have hmatch : Match (one :: pieces cs) ('a' :: short) :=
      match_cons.mpr ⟨['a'], short, ⟨'a', rfl⟩, hshort, rfl⟩
    have hle := h.least _ hmatch
    simp only [List.length_cons] at hle
    have hsame := h.only _ hmatch (by simp only [List.length_cons]; omega)
    simp at hsame
  | case4 cs hclosed ih =>
    -- A class takes more characters than it stands for.
    obtain ⟨_, short, ⟨c, rfl, hc⟩, hshort, hlength⟩ := h.exists_short
    have hle := h.least _ (match_cons.mpr ⟨[c], short, ⟨c, rfl, hc⟩, hshort, rfl⟩)
    have hrest := (cs.dropWhile_sublist (· != ']')).length_le
    have hpos := List.length_pos_of_mem hclosed
    simp only [List.length_cons, List.length_tail, List.singleton_append] at hle hlength
    omega
  | case5 cs hopen ih =>
    rw [hasWildcard_cons]
    rintro (hc | hc | ⟨-, hclosed⟩ | hcs)
    · cases hc
    · cases hc
    · exact hopen hclosed
    · exact ih h.tail hcs
  | case6 c cs hrun hone hmember ih =>
    rw [hasWildcard_cons]
    rintro (hc | hc | ⟨hc, -⟩ | hcs)
    · exact hrun hc
    · exact hone hc
    · exact hmember hc
    · exact ih h.tail hcs

/-- A pattern without wildcards matches itself only. -/
theorem matches_iff_eq {cs text : List Char} (h : ¬HasWildcard cs) :
    Matches cs text ↔ text = cs := by
  rw [Matches, pieces_of_not_hasWildcard h, match_map_char]

/-- With any run behind it, a pattern matches by a beginning of the text. -/
theorem matches_append_run {cs text : List Char} :
    Matches (cs ++ ['%']) text ↔ ∃ start, start <+: text ∧ Matches cs start := by
  rw [Matches, pieces_append_run, match_append]
  constructor
  · rintro ⟨start, rest, hstart, -, rfl⟩
    exact ⟨start, List.prefix_append _ _, hstart⟩
  · rintro ⟨start, ⟨rest, rfl⟩, hstart⟩
    exact ⟨start, rest, hstart, match_run, rfl⟩

/-- With any run in front of it, a pattern matches by an end of the text. -/
theorem matches_cons_run {cs text : List Char} :
    Matches ('%' :: cs) text ↔ ∃ last, last <:+ text ∧ Matches cs last := by
  rw [Matches, pieces, match_cons]
  constructor
  · rintro ⟨front, last, -, hlast, rfl⟩
    exact ⟨last, List.suffix_append _ _, hlast⟩
  · rintro ⟨last, ⟨front, rfl⟩, hlast⟩
    exact ⟨front, last, trivial, hlast, rfl⟩

end LikePattern

open Rendering LikePattern

namespace PatternShape

-- Where a test looks: at the beginning of a text, at its end, or anywhere in it.
def IsPart : PatternShape → List Char → List Char → Prop
  | startsWith, part, text => part <+: text
  | endsWith, part, text => part <:+ text
  | like, part, text | notLike, part, text => part <:+: text

def wanted : PatternShape → List Char → List Char
  | startsWith, text | endsWith, text => text
  | like, text | notLike, text => text.map wildcard

variable {shape : PatternShape} {part text cs : List Char}

theorem isPart_self (shape : PatternShape) (text : List Char) : shape.IsPart text text := by
  cases shape with
  | startsWith => exact List.prefix_rfl
  | endsWith => exact List.suffix_rfl
  | like => exact List.infix_rfl
  | notLike => exact List.infix_rfl

theorem infix_of_isPart (h : shape.IsPart part text) : part <:+: text := by
  cases shape with
  | startsWith => exact List.IsPrefix.isInfix h
  | endsWith => exact List.IsSuffix.isInfix h
  | like => exact h
  | notLike => exact h

/-- The pattern of a test matches the texts that have there what matches the pattern looked for. -/
theorem matches_pattern :
    Matches (shape.pattern cs) text ↔
      ∃ part, shape.IsPart part text ∧ Matches (shape.wanted cs) part := by
  have hanywhere (pattern : List Char) : Matches ('%' :: (pattern ++ ['%'])) text ↔
      ∃ part, part <:+: text ∧ Matches pattern part := by
    simp only [matches_cons_run, matches_append_run, List.infix_iff_prefix_suffix]
    constructor
    · rintro ⟨last, hlast, part, hpart, hmatch⟩
      exact ⟨part, ⟨last, hpart, hlast⟩, hmatch⟩
    · rintro ⟨part, ⟨last, hpart, hlast⟩, hmatch⟩
      exact ⟨last, hlast, part, hpart, hmatch⟩
  cases shape with
  | startsWith => exact matches_append_run
  | endsWith => exact matches_cons_run
  | like => exact hanywhere _
  | notLike => exact hanywhere _

/-- A test looks for the very text that it was given exactly if that has no wildcards. -/
theorem matches_pattern_iff_isPart :
    (∀ text, Matches (shape.pattern cs) text ↔ shape.IsPart (shape.wanted cs) text) ↔
      ¬HasWildcard (shape.wanted cs) := by
  constructor
  · intro h
    have hwithin {text : List Char} (htext : Matches (shape.wanted cs) text) :
        shape.wanted cs <:+: text :=
      infix_of_isPart ((h text).mp (matches_pattern.mpr ⟨text, shape.isPart_self text, htext⟩))
    apply not_hasWildcard_of_rigid
    refine ⟨?_, ?_, ?_⟩
    · obtain ⟨part, -, hpart⟩ := matches_pattern.mp ((h _).mpr (shape.isPart_self _))
      exact ⟨part, hpart⟩
    · intro text htext
      exact (hwithin htext).length_le
    · intro text htext hlength
      exact ((hwithin htext).eq_of_length hlength.symm).symm
  · intro h text
    rw [matches_pattern]
    simp [matches_iff_eq h]

end PatternShape

/-- The literal of a pattern test matches the texts that have, where the test looks, a match of what
it looks for. Only a text without wildcards of the pattern is looked for as it is. -/
theorem Condition.matches_of_renderPattern (s : Scope) (c : ColumnRef) (column : ResolvedColumn)
    (hcolumn : s.aliases.resolve s.names c = .ok column) (source : PatternSource) (text : String)
    (hsource : source.Gives text) (htext : text ≠ "") (shape : PatternShape) (t : ParameterTable) :
    ∃ literal pattern : List Char,
      Yields ((Predicate.condition (.pattern c shape source)).renderCondition s) t
        (column.qualified ++ " " ++ shape.operator ++ " " ++ String.ofList ('\'' :: literal)) t ∧
      Script.readQuoted literal = some (pattern, []) ∧
      (∀ string, Matches pattern string ↔
        ∃ part, shape.IsPart part string ∧ Matches (shape.wanted text.toList) part) ∧
      ((∀ string, Matches pattern string ↔ shape.IsPart (shape.wanted text.toList) string) ↔
        ¬HasWildcard (shape.wanted text.toList)) := by
  refine ⟨Text.doubleQuotes (shape.pattern text.toList) ++ ['\''], shape.pattern text.toList,
    ?_, ?_, ?_, ?_⟩
  · have hgiven := PatternSource.text?_of_gives hsource
    have hyields := renderPattern_of_text hcolumn hgiven htext shape t
    rw [PatternShape.test_eq, String.append_assoc, String.append_assoc] at hyields
    rw [String.append_assoc, String.append_assoc, String.append_assoc]
    exact hyields
  · have hend : Path.Stops (· == '\'') [] := by simp [Path.Stops]
    exact Script.readQuoted_doubleQuotes (shape.pattern text.toList) hend
  · intro string
    exact PatternShape.matches_pattern
  · exact PatternShape.matches_pattern_iff_isPart

/-- A quote is doubled in the literal and is a character like others in the pattern. -/
theorem Condition.matches_of_renderPattern_quote :
    ∃ literal pattern : List Char,
      Yields
          ((Predicate.condition (.pattern (.property Demo.student "LastName") .startsWith
            (.captured ⟨"start", .text "O'"⟩))).renderCondition Demo.studentScope)
          {} ("s.last_name like " ++ String.ofList ('\'' :: literal)) {} ∧
        Script.readQuoted literal = some (pattern, []) ∧
        ∀ string, Matches pattern string ↔ "O'".toList <+: string := by
  obtain ⟨literal, pattern, hyields, hread, -, hplain⟩ :=
    matches_of_renderPattern Demo.studentScope (.property Demo.student "LastName") _ rfl
      (.captured ⟨"start", .text "O'"⟩) "O'" (.capturedText "start" _) (by decide) .startsWith {}
  have hwildcard : ¬HasWildcard "O'".toList := by decide
  exact ⟨literal, pattern, hyields, hread, hplain.mpr hwildcard⟩

/-- The sign of a percentage and an underscore are wildcards wherever they come from, so that texts
match that neither begin nor end with the text given. -/
theorem Condition.matches_beyond_affix :
    (∃ literal pattern : List Char,
      Yields
          ((Predicate.condition (.pattern (.property Demo.student "LastName") .startsWith
            (.text (some "50%")))).renderCondition Demo.studentScope)
          {} ("s.last_name like " ++ String.ofList ('\'' :: literal)) {} ∧
        Script.readQuoted literal = some (pattern, []) ∧
        Matches pattern "500".toList ∧ ¬"50%".toList <+: "500".toList) ∧
    ∃ literal pattern : List Char,
      Yields
          ((Predicate.condition (.pattern (.property Demo.student "LastName") .endsWith
            (.text (some "_a")))).renderCondition Demo.studentScope)
          {} ("s.last_name like " ++ String.ofList ('\'' :: literal)) {} ∧
        Script.readQuoted literal = some (pattern, []) ∧
        Matches pattern "xa".toList ∧ ¬"_a".toList <:+ "xa".toList := by
  refine ⟨⟨"50%%'".toList, "50%%".toList, rfl, rfl, ?_, by decide⟩,
    ⟨"%_a'".toList, "%_a".toList, rfl, rfl, ?_, by decide⟩⟩
  · have hplain : Matches "50".toList "50".toList := (matches_iff_eq (by decide)).mpr rfl
    have hstart : Matches ("50".toList ++ ['%']) "500".toList :=
      matches_append_run.mpr ⟨_, by decide, hplain⟩
    have hpattern : Matches (("50".toList ++ ['%']) ++ ['%']) "500".toList :=
      matches_append_run.mpr ⟨_, List.prefix_rfl, hstart⟩
    exact hpattern
  · have hend : Matches "_a".toList "xa".toList := by
      have hpieces : pieces "_a".toList = .one :: "a".toList.map .char := by simp [pieces]
      rw [Matches, hpieces, PatternPiece.match_cons]
      exact ⟨['x'], "a".toList, ⟨'x', rfl⟩, PatternPiece.match_map_char.mpr rfl, rfl⟩
    have hpattern : Matches ('%' :: "_a".toList) "xa".toList :=
      matches_cons_run.mpr ⟨_, List.suffix_rfl, hend⟩
    exact hpattern

end SqlSelect
