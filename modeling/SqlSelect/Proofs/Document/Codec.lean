import SqlSelect.Proofs.Document.Operand

/-! A document that was read is read again from what is written for it. -/
namespace SqlSelect

namespace Json

variable {α : Type} {read : Json → Option α} {write : α → Json}

theorem required?_eq_some {a : Option Json} {x : α} :
    required? read a = some x ↔ ∃ j, a = some j ∧ read j = some x :=
  Option.bind_eq_some_iff

theorem defaulted?_eq_some {missing : α} {a : Option Json} {x : α}
    (h : defaulted? missing read a = some x) :
    x = missing ∨ ∃ j, a = some j ∧ read j = some x := by
  cases a with
  | none => exact .inl (Option.some.inj h).symm
  | some j => exact .inr ⟨j, rfl, h⟩

theorem orNull?_eq_some {j : Json} {o : Option α} (h : orNull? read j = some o) :
    ∀ x ∈ o, read j = some x := by
  rintro x rfl
  unfold orNull? at h
  split at h
  · cases h
  · simpa using h

/-- What is written for a value must not be a null, which is read as nothing. -/
theorem orNull?_ofOption {o : Option α} (h : ∀ x ∈ o, write x ≠ null ∧ read (write x) = some x) :
    orNull? read (ofOption write o) = some o := by
  cases o with
  | none => rfl
  | some x =>
    obtain ⟨hnull, hread⟩ := h x rfl
    unfold orNull? ofOption
    split
    · next heq => exact absurd heq hnull
    · simp [hread]

theorem orNull?_text? (o : Option String) : orNull? text? (ofOption string o) = some o :=
  orNull?_ofOption fun _ _ => ⟨nofun, rfl⟩

end Json

namespace WrittenAlias

theorem ofJson?_toJson (a : WrittenAlias) : ofJson? a.toJson = some a := rfl

end WrittenAlias

namespace WrittenSelect

/-- Select items are read back from what they are written as. -/
theorem ofJson?_toJson {j : Json} {s : WrittenSelect} (h : ofJson? j = some s) :
    ofJson? s.toJson = some s := by
  unfold ofJson? at h
  split at h
  · cases h
  · split at h
    · cases h
      rfl
    · cases h
      rfl
    · obtain ⟨name, value, hvalue, rfl⟩ := captured_of_capturedOfJson? h
      have hreadable : (capturedToJson name value).isReadable := by
        simp [Json.isReadable, canonical?_capturedToJson hvalue]
      have hread : capturedOfJson? captured (capturedToJson name value) = _ :=
        capturedOfJson?_capturedToJson hvalue
      simp only [toJson, ofJson?, hreadable]
      exact hread

end WrittenSelect

namespace WrittenJoin

/-- The form with a key does not fit a text, which is written without its members. -/
theorem ofJson?_toJson (x : WrittenJoin) : ofJson? x.toJson = some x := by
  cases x with
  | key kind source target foreignKey => cases kind <;> rfl
  | text kind conditions => cases kind <;> rfl

end WrittenJoin

namespace WrittenList

/-- Lists are read back from what they are written as. -/
theorem ofJson?_toJson {j : Json} {l : WrittenList} (h : ofJson? j = some l) :
    ofJson? l.toJson = some l := by
  unfold ofJson? at h
  split at h
  · simp only [Option.bind_eq_bind, Option.bind_eq_some_iff, Option.pure_def,
      Option.some.injEq] at h
    obtain ⟨column, -, values, hvalues, name, -, value, hvalue, rfl⟩ := h
    have hvalues : Json.orNull? (fun j => j.items?.bind Json.canonicalAll?)
        (Json.ofOption .array values) = some values := by
      refine Json.orNull?_ofOption fun vs hvs => ⟨nofun, ?_⟩
      obtain rfl | ⟨j, -, hj⟩ := Json.defaulted?_eq_some hvalues
      · cases hvs
      · obtain ⟨items, -, hitems⟩ := Option.bind_eq_some_iff.mp (Json.orNull?_eq_some hj vs hvs)
        exact Json.canonicalAll_of_canonicalAll? hitems
    have hvalue : value.canonical? = some value := Json.canonical_of_defaulted? hvalue
    have hslots : (toJson ⟨column, values, name, value⟩).structure?
        ["column", "values", "var", "value"] = some [some (.string column),
          some (.ofOption .array values), some (.ofOption .string name), some value] := rfl
    simp only [ofJson?, hslots]
    simp [Json.required?, Json.text?, Json.defaulted?, hvalues, Json.orNull?_text?, hvalue]
  · cases h

end WrittenList

namespace WrittenPattern

/-- Patterns are read back from what they are written as. -/
theorem ofJson?_toJson {j : Json} {p : WrittenPattern} (h : ofJson? j = some p) :
    ofJson? p.toJson = some p := by
  unfold ofJson? at h
  split at h
  · simp only [Option.bind_eq_bind, Option.bind_eq_some_iff, Option.pure_def,
      Option.some.injEq] at h
    obtain ⟨column, -, pattern, -, name, -, value, hvalue, rfl⟩ := h
    have hvalue : value.canonical? = some value := Json.canonical_of_defaulted? hvalue
    have hslots : (toJson ⟨column, pattern, name, value⟩).structure?
        ["column", "pattern", "var", "value"] = some [some (.string column),
          some (.ofOption .string pattern), some (.ofOption .string name), some value] := rfl
    simp only [ofJson?, hslots]
    simp [Json.required?, Json.text?, Json.defaulted?, Json.orNull?_text?, hvalue]
  · cases h

end WrittenPattern

namespace WrittenFilter

/-- A comparison is read by its tag, the left operand first. -/
theorem ofJson?_of_compareOp (op : CompareOp) (left right : Json) :
    ofJson? (.object [(op.tag, .array [left, right])]) =
      (WrittenOperand.ofJson? left).bind fun left =>
        (WrittenOperand.ofJson? right).bind fun right => some (compare op left right) := by
  cases op <;> rfl

theorem ofJson?_of_patternShape (shape : PatternShape) (j : Json) :
    ofJson? (.object [(shape.tag, j)]) = pattern shape <$> WrittenPattern.ofJson? j := by
  cases shape <;> rfl

/-- A single test is read back if no object in it repeats a key. -/
theorem ofJson?_toJson_of_test {tag : String} {j : Json} {f : WrittenFilter} (hj : j.DistinctKeys)
    (h : testOfJson? tag j = some f) : ofJson? f.toJson = some f := by
  unfold testOfJson? at h
  split at h
  · next op _ _ =>
    split at h
    · next left right =>
      simp only [Option.bind_eq_bind, Option.bind_eq_some_iff, Option.pure_def,
        Option.some.injEq] at h
      obtain ⟨l, hl, r, hr, rfl⟩ := h
      obtain ⟨hleft, hright⟩ : left.DistinctKeys ∧ right.DistinctKeys := by simpa using hj
      have hl := WrittenOperand.ofJson?_toJson hleft hl
      have hr := WrittenOperand.ofJson?_toJson hright hr
      simp [toJson, ofJson?_of_compareOp, hl, hr]
    · cases h
  · next shape _ _ =>
    obtain ⟨p, hp, rfl⟩ := Option.map_eq_some_iff.mp h
    simp [toJson, ofJson?_of_patternShape, WrittenPattern.ofJson?_toJson hp]
  · split at h
    · obtain ⟨l, hl, rfl⟩ := Option.map_eq_some_iff.mp h
      exact congrArg (inList false <$> ·) (WrittenList.ofJson?_toJson hl)
    · obtain ⟨l, hl, rfl⟩ := Option.map_eq_some_iff.mp h
      exact congrArg (inList true <$> ·) (WrittenList.ofJson?_toJson hl)
    · obtain ⟨column, -, rfl⟩ := Option.map_eq_some_iff.mp h
      rfl
    · obtain ⟨column, -, rfl⟩ := Option.map_eq_some_iff.mp h
      rfl
    · cases h

theorem toJson_ne_null (f : WrittenFilter) : f.toJson ≠ .null := by
  cases f <;> simp [toJson]

/-- A filter is a group of filters or a single test. -/
theorem cases_of_ofJson? {j : Json} {f : WrittenFilter} (h : ofJson? j = some f) :
    (∃ op items fs, j = .object [(op.sql, .array items)] ∧ allOfJson? items = some fs ∧
      group op fs = f) ∨
    ∃ tag value, j = .object [(tag, value)] ∧ testOfJson? tag value = some f := by
  unfold ofJson? at h
  split at h
  · next items =>
    obtain ⟨fs, hfs, rfl⟩ := Option.map_eq_some_iff.mp h
    exact .inl ⟨.and, items, fs, rfl, hfs, rfl⟩
  · next items =>
    obtain ⟨fs, hfs, rfl⟩ := Option.map_eq_some_iff.mp h
    exact .inl ⟨.or, items, fs, rfl, hfs, rfl⟩
  · next tag value _ _ => exact .inr ⟨tag, value, rfl, h⟩
  · cases h

theorem ofJson?_group (op : LogicalOp) (items : List Json) :
    ofJson? (.object [(op.sql, .array items)]) = group op <$> allOfJson? items := by
  cases op <;> simp [LogicalOp.sql, ofJson?]

mutual

/-- A filter is read back from what it is written as, if no object in it repeats a key. -/
theorem ofJson?_toJson {j : Json} {f : WrittenFilter} (hj : j.DistinctKeys)
    (h : ofJson? j = some f) : ofJson? f.toJson = some f := by
  obtain ⟨op, items, fs, rfl, hfs, rfl⟩ | ⟨tag, value, rfl, htest⟩ := cases_of_ofJson? h
  · have hitems : ∀ j ∈ items, j.DistinctKeys := by simpa using hj
    simp [toJson, ofJson?_group, allOfJson?_allToJson hitems hfs]
  · have hvalue : value.DistinctKeys := by simpa using hj
    exact ofJson?_toJson_of_test hvalue htest
termination_by sizeOf j

theorem allOfJson?_allToJson {js : List Json} {fs : List WrittenFilter}
    (hjs : ∀ j ∈ js, j.DistinctKeys) (h : allOfJson? js = some fs) :
    allOfJson? (allToJson fs) = some fs := by
  cases js with
  | nil =>
    cases h
    rfl
  | cons j js =>
    obtain ⟨hj, hjs⟩ := List.forall_mem_cons.mp hjs
    simp only [allOfJson?, Option.bind_eq_bind, Option.bind_eq_some_iff, Option.pure_def,
      Option.some.injEq] at h
    obtain ⟨f, hf, fs, hfs, rfl⟩ := h
    simp [allToJson, allOfJson?, ofJson?_toJson hj hf, allOfJson?_allToJson hjs hfs]
termination_by sizeOf js

end

end WrittenFilter

namespace Document

section Lists

variable {α : Type} {read : Json → Option α} {write : α → Json} {xs : List α}

/-- An array is read back if its members are. -/
theorem list?_array_map (h : ∀ x ∈ xs, read (write x) = some x) :
    list? read (.array (xs.map write)) = some xs := by
  have hread : (xs.map write).mapM read = some xs := by
    rw [Option.mapM_eq_some, List.forall₂_map_left_iff, List.forall₂_same]
    exact h
  simpa [list?, Json.items?] using hread

/-- Where each member that was read is read again, so is the list. -/
theorem list?_again {j : Json} (h : list? read j = some xs)
    (hread : ∀ j x, read j = some x → read (write x) = some x) :
    list? read (.array (xs.map write)) = some xs := by
  obtain ⟨items, -, hitems⟩ := Option.bind_eq_some_iff.mp h
  exact list?_array_map (forall_of_forall₂ (Option.mapM_eq_some.mp hitems) hread)

end Lists

/-- A document that was read is read again from what is written for it, also where its literals
look like columns, captured variables or dates, and its joins have members of the other form. -/
theorem ofJson?_toJson_of_eq_some {j : Json} {d : Document} (hj : j.DistinctKeys)
    (h : ofJson? j = some d) : ofJson? d.toJson = some d := by
  unfold ofJson? at h
  split at h
  · next hslots =>
    simp only [Option.bind_eq_bind, Option.bind_eq_some_iff, Option.pure_def,
      Option.some.injEq] at h
    obtain ⟨aliases, haliases, distinct, -, select, hselect, columnAliases, -, source, -,
      joins, -, filter, hfilter, orderBy, -, rfl⟩ := h
    have haliases : list? WrittenAlias.ofJson? (.array (aliases.map (·.toJson))) = some aliases :=
      list?_array_map fun a _ => a.ofJson?_toJson
    have hselect : list? WrittenSelect.ofJson? (.array (select.map (·.toJson))) = some select := by
      obtain ⟨_, -, hselect⟩ := Json.required?_eq_some.mp hselect
      exact list?_again hselect fun _ _ => WrittenSelect.ofJson?_toJson
    have hjoins : list? WrittenJoin.ofJson? (.array (joins.map (·.toJson))) = some joins :=
      list?_array_map fun x _ => x.ofJson?_toJson
    have htexts (texts : List String) : list? Json.text? (Json.strings texts) = some texts :=
      list?_array_map fun _ _ => rfl
    have hfilter : Json.orNull? WrittenFilter.ofJson? (Json.ofOption (·.toJson) filter) =
        some filter := by
      -- The only part with operands, whose literals are read again if no key is repeated.
      refine Json.orNull?_ofOption fun f hf => ⟨f.toJson_ne_null, ?_⟩
      obtain rfl | ⟨j, rfl, hj'⟩ := Json.defaulted?_eq_some hfilter
      · cases hf
      · have hdistinct := Json.distinctKeys_of_structure? hj hslots j (by simp)
        exact WrittenFilter.ofJson?_toJson hdistinct (Json.orNull?_eq_some hj' f hf)
    have hwritten : (toJson ⟨aliases, distinct, select, columnAliases, source, joins, filter,
        orderBy⟩).structure? keys = some [some (.array (aliases.map (·.toJson))),
          some (.bool distinct), some (.array (select.map (·.toJson))),
          some (.strings columnAliases), some (.string source),
          some (.array (joins.map (·.toJson))), some (.ofOption (·.toJson) filter),
          some (.strings orderBy)] := rfl
    simp only [ofJson?, hwritten]
    simp [Json.required?, Json.defaulted?, Json.text?, Json.flag?, haliases, hselect, hjoins,
      htexts, hfilter]
  · cases h

theorem ofJson?_toJson_of_eq_some_lookalikes :
    let j : Json := .object [("unknown", .bool true), ("from", .string "Student"),
      ("aliases", .array [.array [.string "Student", .string "s"]]),
      ("select", .array [.object [("var", .string "v")], .null, .string "s.Id"]),
      ("joins", .array [.object [("kind", .object [("left", .null)]), ("from", .int 5),
        ("to", .string "ClassRoom"), ("key", .string "Id"), ("on", .string "s.Id = c.Id")]]),
      ("filter", .object [("and", .array [
        .object [("eq", .array [.object [("var", .null), ("col", .int 5)],
          .object [("ymd", .array [.int 2000, .int 1, .int 31])]])],
        .object [("not_in", .array [.string "s.Id", .array [.int 1, .object []]])]])])]
    let d : Document := {
      aliases := [⟨"Student", "s"⟩]
      distinct := false
      select := [.captured "v" .null, .null, .column "s.Id"]
      columnAliases := []
      source := "Student"
      joins := [.text .left "s.Id = c.Id"]
      filter := some (.group .and [
        .compare .eq (.literal (.object [("col", .int 5), ("var", .null)])) (.dateParts 2000 1 31),
        .inList true ⟨"s.Id", some [.int 1, .object []], none, .null⟩])
      orderBy := [] }
    j.DistinctKeys ∧ ofJson? j = some d ∧ ofJson? d.toJson = some d := by
  intro j d
  have hj : j.DistinctKeys := by simp [j]
  have h : ofJson? j = some d := by rfl
  exact ⟨hj, h, ofJson?_toJson_of_eq_some hj h⟩

end Document

end SqlSelect
