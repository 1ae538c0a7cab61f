import SqlSelect.Proofs.Script.Spelling

/-! The reader of scripts takes back every parameter and the query. -/
namespace SqlSelect

open SqlSelect.Path (Stops span_iff stops_cons)

namespace Script

variable {cs rest : List Char} {ending : LineEnding}

theorem dropPrefix?_append (part rest : List Char) :
    (part ++ rest).dropPrefix? part = some rest :=
  List.dropPrefix?_append_of_beq rest (beq_self_eq_true part)

theorem toList_text (ending : LineEnding) :
    ending.text.toList = ['\n'] ∨ ending.text.toList = ['\r', '\n'] := by
  cases ending
  · exact .inl rfl
  · exact .inr rfl

/-- What any part of a line stops at. -/
theorem stops_text {q : Char → Bool} (ending : LineEnding) (rest : List Char)
    (hr : q '\r' = false) (hn : q '\n' = false) : Stops q (ending.text.toList ++ rest) := by
  rcases toList_text ending with h | h
  · rw [h]
    exact stops_cons.mpr hn
  · rw [h]
    exact stops_cons.mpr hr

/-- Either line ending is read as one break. -/
theorem readBreak_text (ending : LineEnding) (rest : List Char) :
    readBreak (ending.text.toList ++ rest) = some rest := by
  rcases toList_text ending with h | h <;> rw [h] <;> rfl

theorem doubleQuotes_cons (c : Char) (text : List Char) :
    Text.doubleQuotes (c :: text) =
      if c = '\'' then '\'' :: '\'' :: Text.doubleQuotes text else c :: Text.doubleQuotes text := by
  unfold Text.doubleQuotes Text.substitute
  rw [List.flatMap_cons]
  split <;> rfl

/-- A text without quotes is written as it is. -/
theorem doubleQuotes_of_spelledWith {text : List Char} (h : ∀ c ∈ text, (c != '\'') = true) :
    Text.doubleQuotes text = text := by
  induction text with
  | nil => rfl
  | cons c text ih =>
    obtain ⟨hc, htext⟩ := List.forall_mem_cons.mp h
    rw [doubleQuotes_cons, if_neg (bne_iff_ne.mp hc), ih htext]

theorem readQuoted_cons {c : Char} (h : c ≠ '\'') :
    readQuoted (c :: cs) = (readQuoted cs).map fun r => (c :: r.1, r.2) := by
  have hread : readQuoted (c :: cs) = readQuoted cs >>= fun r => pure (c :: r.1, r.2) := by
    simp [readQuoted, h]
  rw [hread]
  cases readQuoted cs <;> rfl

/-- Each quote of the text is doubled, so none is taken for its end. -/
theorem readQuoted_doubleQuotes (text : List Char) (h : Stops (· == '\'') rest) :
    readQuoted (Text.doubleQuotes text ++ '\'' :: rest) = some (text, rest) := by
  induction text with
  | nil =>
    cases rest with
    | nil => rfl
    | cons c rest =>
      have hc : c ≠ '\'' := by simpa using stops_cons.mp h
      simp [Text.doubleQuotes, Text.substitute, readQuoted, hc]
  | cons c text ih =>
    rw [doubleQuotes_cons]
    split
    · next hc =>
      rw [List.cons_append, List.cons_append, readQuoted, ih, hc]
      rfl
    · next hc =>
      rw [List.cons_append, readQuoted_cons hc, ih]
      rfl

/-- A number is read up to the line break: it begins like no text and no date. -/
theorem readLiteral_number {number : List Char} (h : ∀ c ∈ number, isNumberPart c = true)
    (ending : LineEnding) (rest : List Char) :
    readLiteral (number ++ (ending.text.toList ++ rest)) =
      some (number, ending.text.toList ++ rest) := by
  obtain ⟨c, cs, hcs, hquote, hconvert⟩ : ∃ c cs, number ++ (ending.text.toList ++ rest) = c :: cs ∧
      c ≠ '\'' ∧ c ≠ 'c' := by
    -- An empty number begins with the line break.
    cases number with
    | nil =>
      rcases toList_text ending with hending | hending <;> rw [hending]
      · exact ⟨'\n', rest, rfl, by decide, by decide⟩
      · exact ⟨'\r', '\n' :: rest, rfl, by decide, by decide⟩
    | cons c number =>
      refine ⟨c, _, rfl, ?_, ?_⟩
      · rintro rfl
        cases h '\'' (List.mem_cons_self ..)
      · rintro rfl
        cases h 'c' (List.mem_cons_self ..)
  obtain ⟨hnumber, hrest⟩ := (span_iff isNumberPart).mpr ⟨rfl, h, stops_text ending rest rfl rfl⟩
  have hnone : (c :: cs).dropPrefix? "convert(datetime, '".toList = none := by
    simp [List.dropPrefix?, hconvert]
  rw [hcs] at hnumber hrest ⊢
  rw [readLiteral, hnone]
  · simp only [hnumber, hrest]
  · simp [hquote]

/-- A date is read back from within its conversion. -/
theorem readLiteral_date {date : List Char} (h : ∀ c ∈ date, (c != '\'') = true)
    (rest : List Char) :
    readLiteral ("convert(datetime, '".toList ++ (date ++ '\'' :: (", 106)".toList ++ rest))) =
      some (date, rest) := by
  have hquoted : readQuoted (date ++ '\'' :: (", 106)".toList ++ rest)) =
      some (date, ", 106)".toList ++ rest) := by
    have hstops : Stops (· == '\'') (", 106)".toList ++ rest) := by simp [Stops]
    have hread := readQuoted_doubleQuotes date hstops
    rwa [doubleQuotes_of_spelledWith h] at hread
  rw [readLiteral, dropPrefix?_append]
  · simp only [hquoted, Option.bind_eq_bind, Option.bind_some, dropPrefix?_append, Option.pure_def]
  · simp

variable {options : BuildOptions} {p : Parameter} {ps : List Parameter}

/-- Every value is read up to its end, whatever is in it. -/
theorem readLiteral_literal (hp : p.Legible) (ending : LineEnding) (rest : List Char) :
    readLiteral (p.literal.toList ++ (ending.text.toList ++ rest)) =
      some (p.value.toList, ending.text.toList ++ rest) := by
  have hquoted := readQuoted_doubleQuotes p.value.toList (stops_text ending rest rfl rfl)
  unfold Parameter.literal
  cases hkind : p.kind with
  | bigint => exact readLiteral_number (hp.number (.inl hkind)) ending rest
  | decimal => exact readLiteral_number (hp.number (.inr hkind)) ending rest
  | nchar => simpa [readLiteral] using hquoted
  | nvarchar => simpa [readLiteral] using hquoted
  | datetime => simpa using readLiteral_date (hp.date hkind) (ending.text.toList ++ rest)

theorem spelled_declaredType (options : BuildOptions) (kind : ParameterKind) :
    SpelledWith (!isBreak ·) (kind.declaredType options) := by
  have hdigit (c : Char) (h : c.isDigit = true) : (!isBreak c) = true := by
    have hword := isWordPart_of_isDigit c h
    rw [isWordPart, Bool.and_eq_true] at hword
    exact hword.2
  cases kind with
  | nvarchar => exact .append (.append (by decide) (.repr hdigit _)) (by decide)
  | _ =>
    simp only [ParameterKind.declaredType]
    decide

/-- The reader of a name stops at the blank behind it. -/
theorem span_name (hp : p.Legible) {rest : List Char} (h : rest.head? = some ' ') :
    (p.name.toList ++ rest).takeWhile isWordPart = p.name.toList ∧
      (p.name.toList ++ rest).dropWhile isWordPart = rest := by
  refine (span_iff isWordPart).mpr ⟨rfl, hp.name, fun c hc => ?_⟩
  obtain rfl : ' ' = c := by simpa [h] using hc
  rfl

/-- A declaration is read back with the name and type of its parameter. -/
theorem readDeclaration_declaration (hp : p.Legible) (ending : LineEnding) (rest : List Char) :
    readDeclaration ((p.declaration options).toList ++ (ending.text.toList ++ rest)) =
      some ((p.name, p.kind.declaredType options), rest) := by
  -- The name ends at a blank, and the type at the line break.
  let typed := (p.kind.declaredType options).toList ++ (ending.text.toList ++ rest)
  have hline : (p.declaration options).toList ++ (ending.text.toList ++ rest) =
      "declare ".toList ++ (p.name.toList ++ ([' '] ++ typed)) := by
    simp [Parameter.declaration, typed]
  have hname : ([' '] ++ typed).head? = some ' ' := rfl
  obtain ⟨htype, hend⟩ := (span_iff (!isBreak ·)).mpr
    ⟨(rfl : typed = _), spelled_declaredType options p.kind, stops_text ending rest rfl rfl⟩
  rw [hline, readDeclaration]
  simp only [dropPrefix?_append, Option.bind_eq_bind, Option.bind_some, span_name hp hname, htype,
    hend, readBreak_text, String.ofList_toList, Option.pure_def]

/-- An assignment is read back with the name and value of its parameter. -/
theorem readAssignment_assignment (hp : p.Legible) (ending : LineEnding) (rest : List Char) :
    readAssignment (p.assignment.toList ++ (ending.text.toList ++ rest)) =
      some ((p.name, p.value), rest) := by
  let assigned := p.literal.toList ++ (ending.text.toList ++ rest)
  have hline : p.assignment.toList ++ (ending.text.toList ++ rest) =
      "select ".toList ++ (p.name.toList ++ (" = ".toList ++ assigned)) := by
    simp [Parameter.assignment, assigned]
  have hname : (" = ".toList ++ assigned).head? = some ' ' := rfl
  have hvalue : readLiteral assigned = _ := readLiteral_literal hp ending rest
  rw [hline, readAssignment]
  simp only [dropPrefix?_append, Option.bind_eq_bind, Option.bind_some, span_name hp hname, hvalue,
    readBreak_text, String.ofList_toList, Option.pure_def]

theorem toList_terminate_cons (line : String) (lines : List String) :
    (ending.terminate (line :: lines)).toList =
      line.toList ++ (ending.text.toList ++ (ending.terminate lines).toList) := by
  simp [LineEnding.terminate]

theorem readDeclarations_cons {d : String × String} (hline : readBreak cs = none)
    (hd : readDeclaration cs = some (d, rest)) :
    readDeclarations cs = (readDeclarations rest).map fun r => (d :: r.1, r.2) := by
  rw [readDeclarations, hline]
  dsimp only
  split
  · next hnone => cases hd.symm.trans hnone
  · next hsome =>
    cases hd.symm.trans hsome
    rw [Option.map_eq_bind]
    rfl

theorem readBreak_declaration (p : Parameter) (rest : List Char) :
    readBreak ((p.declaration options).toList ++ rest) = none := by
  simp [Parameter.declaration, readBreak]

/-- The declarations of a script are read back up to the blank line behind them. -/
theorem readDeclarations_terminate (hps : ∀ p ∈ ps, p.Legible) :
    readDeclarations ((ending.terminate (ps.map (·.declaration options))).toList ++
        (ending.text.toList ++ rest)) =
      some (ps.map fun p => (p.name, p.kind.declaredType options), rest) := by
  induction ps with
  | nil =>
    rw [readDeclarations]
    simp [LineEnding.terminate, readBreak_text]
  | cons p ps ih =>
    obtain ⟨hp, hps⟩ := List.forall_mem_cons.mp hps
    rw [List.map_cons, toList_terminate_cons, List.append_assoc, List.append_assoc,
      readDeclarations_cons (readBreak_declaration p _) (readDeclaration_declaration hp _ _), ih hps]
    rfl

/-- As many assignments are read back as there are declarations. -/
theorem readAssignments_terminate (hps : ∀ p ∈ ps, p.Legible) :
    readAssignments ps.length ((ending.terminate (ps.map (·.assignment))).toList ++ rest) =
      some (ps.map fun p => (p.name, p.value), rest) := by
  induction ps with
  | nil => simp [LineEnding.terminate, readAssignments]
  | cons p ps ih =>
    obtain ⟨hp, hps⟩ := List.forall_mem_cons.mp hps
    rw [List.map_cons, toList_terminate_cons, List.length_cons, readAssignments, List.append_assoc,
      List.append_assoc, readAssignment_assignment hp ending]
    simp only [Option.bind_eq_bind, Option.bind_some, ih hps, Option.pure_def, List.map_cons]

/-- The text of a script, part by part. -/
theorem toList_script (options : BuildOptions) (hps : ps ≠ []) (query : String) :
    (script options ps query).toList =
      (options.lineEnding.terminate (ps.map (·.declaration options))).toList ++
        (options.lineEnding.text.toList ++
          ((options.lineEnding.terminate (ps.map (·.assignment))).toList ++
            (options.lineEnding.text.toList ++ query.toList))) := by
  cases ps with
  | nil => exact absurd rfl hps
  | cons p ps => simp [script, scriptLines, LineEnding.terminate]

/-- A script is read back as its parameters and its query. -/
theorem read_script (options : BuildOptions) (hps : ∀ p ∈ ps, p.Legible) {query : String}
    (hquery : "select".toList <+: query.toList) :
    read (script options ps query).toList =
      some (ps.map (·.inScript options), query.toList) := by
  cases ps with
  | nil =>
    -- The query alone is no declaration.
    have hnot : ¬"declare".toList <+: query.toList := by
      obtain ⟨rest, hrest⟩ := hquery
      rw [← hrest]
      simp
    rw [script, read, if_neg hnot]
    rfl
  | cons p ps =>
    have hdeclare : "declare".toList <+: (script options (p :: ps) query).toList := by
      simp [toList_script, toList_terminate_cons, Parameter.declaration]
    rw [read, if_pos hdeclare, toList_script options (List.cons_ne_nil p ps),
      readDeclarations_terminate hps]
    simp only [Option.bind_eq_bind, Option.bind_some, List.length_map,
      readAssignments_terminate hps, readBreak_text]
    simp [List.zipWith_map, Function.comp_def, Parameter.inScript]

end Script

namespace Demo

-- The values have quotes and line breaks in them, and lines of a script.
def quotedValues : List TableCall :=
  [.captured ⟨"note", .text "'\r\nselect @param_value_1 = ''\r\n\r\nselect 2"⟩,
   .captured ⟨"late's", .int 3⟩,
   .literal (.char '\''),
   .date ⟨2000, 2, 29, by decide⟩,
   .captured ⟨"age", .int (-7)⟩]

end Demo

/-- A script is read back whatever values were bound: each parameter with its name, type and value,
and the query behind them. -/
theorem ParameterTable.read_script_of_run {calls : List TableCall} (hcalls : ∀ p, .add p ∉ calls)
    (options : BuildOptions) {query : String} (hquery : "select".toList <+: query.toList) :
    Script.read (script options (run {} calls).parameters query).toList =
      some ((run {} calls).parameters.map (·.inScript options), query.toList) := by
  have hempty : Legible {} := fun p hp => nomatch hp
  exact Script.read_script options (hempty.reaches (reaches_run hcalls {})) hquery

theorem ParameterTable.read_script_of_run_quotedValues :
    (∀ p, .add p ∉ Demo.quotedValues) ∧ "select".toList <+: "select\r\n\t1\r\n".toList ∧
      Script.read (script { lineEnding := .crlf } (run {} Demo.quotedValues).parameters
          "select\r\n\t1\r\n").toList =
        some ([⟨"@param_note", "nvarchar(300)", "'\r\nselect @param_value_1 = ''\r\n\r\nselect 2"⟩,
            ⟨"@param_value_1", "nchar", "'"⟩, ⟨"@param_date_1", "datetime", "29-Feb-2000"⟩,
            ⟨"@param_age", "bigint", "-7"⟩],
          "select\r\n\t1\r\n".toList) := by
  have hcalls : ∀ p, .add p ∉ Demo.quotedValues := by simp [Demo.quotedValues]
  have hquery : "select".toList <+: "select\r\n\t1\r\n".toList := by simp
  refine ⟨hcalls, hquery, ?_⟩
  rw [read_script_of_run hcalls { lineEnding := .crlf } hquery]
  decide +kernel

end SqlSelect
