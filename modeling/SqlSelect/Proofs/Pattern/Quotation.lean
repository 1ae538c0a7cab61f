import SqlSelect.Proofs.Script.Recovery
import SqlSelect.Proofs.Where.Pruning

/-! A pattern is written as one literal, which ends where it should: read back by the rule for
quotes, it holds the text to look for between its wildcards. -/
namespace SqlSelect

open Rendering Script

theorem substitute_singleton (old new : Char) (cs : List Char) :
    Text.substitute old [new] cs = cs.map fun c => if c = old then new else c := by
  rw [Text.substitute, ← List.flatMap_singleton' (cs.map _), List.flatMap_map]
  apply List.flatMap_congr
  intro c _
  split <;> rfl

theorem doubleQuotes_append (as bs : List Char) :
    Text.doubleQuotes (as ++ bs) = Text.doubleQuotes as ++ Text.doubleQuotes bs :=
  List.flatMap_append

namespace PatternShape

def wildcard (c : Char) : Char :=
  if c = '*' then '%' else if c = '?' then '_' else c

def pattern : PatternShape → List Char → List Char
  | startsWith, text => text ++ ['%']
  | endsWith, text => '%' :: text
  | like, text | notLike, text => '%' :: (text.map wildcard ++ ['%'])

def operator : PatternShape → String
  | notLike => "not like"
  | _ => "like"

/-- The wildcard of a character is a quote only if the character is one. -/
theorem wildcard_eq_quote_iff (c : Char) : wildcard c = '\'' ↔ c = '\'' := by
  unfold wildcard
  split
  · next h => simp [h]
  · split
    · next h => simp [h]
    · exact Iff.rfl

theorem wildcards_eq_map (cs : List Char) : wildcards cs = cs.map wildcard := by
  rw [wildcards, substitute_singleton, substitute_singleton, List.map_map]
  apply List.map_congr_left
  intro c _
  -- What a star becomes is no question mark.
  by_cases hstar : c = '*'
  · subst hstar
    rfl
  · simp [wildcard, hstar]

/-- A quote is no wildcard, and no wildcard is written as a quote. -/
theorem wildcards_doubleQuotes (cs : List Char) :
    wildcards (Text.doubleQuotes cs) = Text.doubleQuotes (cs.map wildcard) := by
  rw [wildcards_eq_map]
  induction cs with
  | nil => rfl
  | cons c cs ih =>
    rw [List.map_cons, doubleQuotes_cons, doubleQuotes_cons]
    by_cases hc : c = '\''
    · have hquote : wildcard c = '\'' := (wildcard_eq_quote_iff c).mpr hc
      have hsame : wildcard '\'' = '\'' := rfl
      rw [if_pos hc, if_pos hquote, List.map_cons, List.map_cons, ih, hsame]
    · have hother : wildcard c ≠ '\'' := mt (wildcard_eq_quote_iff c).mp hc
      rw [if_neg hc, if_neg hother, List.map_cons, ih]

/-- The test is its operator and the literal of its pattern. -/
theorem test_eq (shape : PatternShape) (text : String) :
    shape.test text = shape.operator ++ " " ++
      String.ofList ('\'' :: (Text.doubleQuotes (shape.pattern text.toList) ++ ['\''])) := by
  have hnil : Text.doubleQuotes [] = [] := rfl
  have hpercent (cs : List Char) : Text.doubleQuotes ('%' :: cs) = '%' :: Text.doubleQuotes cs :=
    rfl
  apply String.toList_injective
  cases shape with
  | startsWith => simp [test, operator, pattern, doubleQuotes_append, hpercent, hnil]
  | endsWith => simp [test, operator, pattern, hpercent]
  | like =>
    simp [test, operator, pattern, wildcards_doubleQuotes, doubleQuotes_append, hpercent, hnil]
  | notLike =>
    simp [test, operator, pattern, wildcards_doubleQuotes, doubleQuotes_append, hpercent, hnil]

end PatternShape

-- A text to look for is given as it is, or by a variable that holds a text or a character.
inductive PatternSource.Gives : PatternSource → String → Prop
  | text (t : String) : Gives (.text (some t)) t
  | capturedText (name t : String) : Gives (.captured ⟨name, .text t⟩) t
  | capturedChar (name : String) (c : Char) : Gives (.captured ⟨name, .char c⟩) (String.singleton c)

/-- The text that a source gives is what is looked for. -/
theorem PatternSource.text?_of_gives {source : PatternSource} {text : String}
    (h : source.Gives text) : source.text? = .ok (some text) := by
  cases h <;> rfl

/-- A pattern test with a text is rendered as the test of its column. -/
theorem Condition.renderPattern_of_text {s : Scope} {c : ColumnRef} {column : ResolvedColumn}
    {source : PatternSource} {text : String} (hcolumn : s.aliases.resolve s.names c = .ok column)
    (hsource : source.text? = .ok (some text)) (htext : text ≠ "") (shape : PatternShape)
    (t : ParameterTable) :
    Yields (renderPattern s c shape source) t (column.qualified ++ " " ++ shape.test text) t := by
  simp [renderPattern, Scope.column, hcolumn, hsource, htext]

/-- Whatever text is looked for, the condition ends in one literal and nothing comes behind it. The
literal holds the text with a wildcard on one side or on both; where the text may have wildcards of
its own, these are replaced one by one, and nothing else is. -/
theorem Condition.readQuoted_of_renderPattern (s : Scope) (c : ColumnRef) (column : ResolvedColumn)
    (hcolumn : s.aliases.resolve s.names c = .ok column) (source : PatternSource) (text : String)
    (hsource : source.Gives text) (htext : text ≠ "") (shape : PatternShape) (t : ParameterTable) :
    ∃ literal : List Char,
      Yields ((Predicate.condition (.pattern c shape source)).renderCondition s) t
        (column.qualified ++ " " ++ shape.operator ++ " " ++ String.ofList ('\'' :: literal)) t ∧
      readQuoted literal = some (shape.pattern text.toList, []) := by
  refine ⟨Text.doubleQuotes (shape.pattern text.toList) ++ ['\''], ?_, ?_⟩
  · have hgiven := PatternSource.text?_of_gives hsource
    have hyields := renderPattern_of_text hcolumn hgiven htext shape t
    rw [PatternShape.test_eq] at hyields
    simp only [String.append_assoc] at hyields ⊢
    exact hyields
  · have hend : Path.Stops (· == '\'') [] := by simp [Path.Stops]
    exact readQuoted_doubleQuotes (shape.pattern text.toList) hend

/-- With quotes on both sides, and with wildcards inside. -/
theorem Condition.readQuoted_of_renderPattern_quoted :
    ∃ literal : List Char,
      Yields
          ((Predicate.condition (.pattern (.property Demo.student "LastName") .notLike
            (.captured ⟨"part", .text "'O*'?'"⟩))).renderCondition Demo.studentScope)
          {} ("s.last_name not like " ++ String.ofList ('\'' :: literal)) {} ∧
        readQuoted literal = some ("%'O%'_'%".toList, []) := by
  obtain ⟨literal, hyields, hread⟩ :=
    readQuoted_of_renderPattern Demo.studentScope (.property Demo.student "LastName") _ rfl
      (.captured ⟨"part", .text "'O*'?'"⟩) "'O*'?'" (.capturedText "part" _) (by decide) .notLike {}
  exact ⟨literal, hyields, hread⟩

end SqlSelect
