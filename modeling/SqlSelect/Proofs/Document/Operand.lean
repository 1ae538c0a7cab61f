import SqlSelect.Document.Writing
import SqlSelect.Proofs.Json.Slot

/-! Operands as they are written and read: the canonical form of a value is read as the value is, so
a literal is not taken for another form when it is written and read again. -/
namespace SqlSelect

namespace Json

variable {j v : Json}

theorem text?_of_canonical? (h : j.canonical? = some v) : v.text? = j.text? := by
  cases j with
  | array items =>
    obtain ⟨vs, -, rfl⟩ := canonical?_array_eq_some.mp h
    rfl
  | object members =>
    obtain ⟨ms, -, rfl⟩ := canonical?_object_eq_some.mp h
    rfl
  | _ => cases h <;> rfl

theorem within?_eq_some {low high n : Int} :
    j.within? low high = some n ↔ j = int n ∧ low ≤ n ∧ n < high := by
  cases j <;> grind [within?]

theorem within?_of_canonical? (h : j.canonical? = some v) (low high : Int) :
    v.within? low high = j.within? low high := by
  cases j with
  | array items =>
    obtain ⟨vs, -, rfl⟩ := canonical?_array_eq_some.mp h
    rfl
  | object members =>
    obtain ⟨ms, -, rfl⟩ := canonical?_object_eq_some.mp h
    rfl
  | _ => cases h <;> rfl

theorem required?_text?_of_rel {a b : Option Json}
    (h : Option.Rel (fun j v => j.canonical? = some v) a b) :
    required? text? b = required? text? a := by
  cases h with
  | some h => exact text?_of_canonical? h
  | none => rfl

theorem defaulted?_canonical?_of_rel {a b : Option Json}
    (h : Option.Rel (fun j v => j.canonical? = some v) a b) :
    defaulted? null canonical? b = defaulted? null canonical? a := by
  cases h with
  | some h => exact (canonical_of_canonical? h).trans h.symm
  | none => rfl

theorem canonical_of_defaulted? {a : Option Json} (h : defaulted? null canonical? a = some v) :
    v.Canonical := by
  cases a with
  | none =>
    cases h
    rfl
  | some j => exact canonical_of_canonical? h

theorem slots?_pair (members : List (String × Json)) (key key' : String) :
    slots? members [key, key'] =
      (slot? members key).bind fun a => (slot? members key').bind fun b => some [a, b] := by
  simp [slots?, Option.bind_assoc]

end Json

section Captured

variable {α : Type} {make : String → Json → α}

/-- A captured value is in canonical form once it is read. -/
theorem captured_of_capturedOfJson? {j : Json} {x : α} (h : capturedOfJson? make j = some x) :
    ∃ name value, value.Canonical ∧ make name value = x := by
  cases j with
  | object members =>
    simp only [capturedOfJson?] at h
    split at h
    · simp only [Option.bind_eq_bind, Option.bind_eq_some_iff, Option.pure_def,
        Option.some.injEq] at h
      obtain ⟨name, -, value, hvalue, rfl⟩ := h
      exact ⟨name, value, Json.canonical_of_defaulted? hvalue, rfl⟩
    · cases h
  | _ => cases h

variable {name : String} {value : Json}

/-- A captured value in canonical form is read back. -/
theorem capturedOfJson?_capturedToJson (h : value.Canonical) :
    capturedOfJson? make (capturedToJson name value) = some (make name value) := by
  have hvalue : Json.defaulted? .null Json.canonical? (some value) = some value := h
  simp [capturedOfJson?, capturedToJson, Json.slots?_pair, Json.slot?, Json.membersNamed, hvalue,
    Json.required?, Json.text?]

theorem canonical?_capturedToJson (h : value.Canonical) :
    (capturedToJson name value).canonical? =
      some (.object [("value", value), ("var", .string name)]) := by
  have hvalue : value.canonical? = some value := h
  simp only [capturedToJson, Json.canonical?, Json.canonicalMembers?, hvalue,
    Option.bind_eq_bind, Option.bind_some]
  rfl

end Captured

namespace WrittenOperand

section Members

variable {members ms : List (String × Json)} (hkeys : (members.map (·.1)).Nodup)
  (h : Json.canonicalMembers? [] members = some ms)

include hkeys h

theorem columnOfJson?_members :
    columnOfJson? (.object ms) = columnOfJson? (.object members) := by
  have hslot := Json.rel_slot? hkeys h "col"
  simp only [columnOfJson?]
  generalize Json.slot? members "col" = a at hslot
  generalize Json.slot? ms "col" = b at hslot
  cases hslot with
  | none => rfl
  | some hslot => exact congrArg (column <$> ·) (Json.required?_text?_of_rel hslot)

theorem capturedOfJson?_members {α : Type} (make : String → Json → α) :
    capturedOfJson? make (.object ms) = capturedOfJson? make (.object members) := by
  have hname := Json.rel_slot? hkeys h "var"
  have hvalue := Json.rel_slot? hkeys h "value"
  simp only [capturedOfJson?, Json.slots?_pair]
  generalize Json.slot? members "var" = a at hname
  generalize Json.slot? ms "var" = a' at hname
  generalize Json.slot? members "value" = b at hvalue
  generalize Json.slot? ms "value" = b' at hvalue
  cases hname with
  | none => rfl
  | some hname =>
    cases hvalue with
    | none => rfl
    | some hvalue =>
      simp only [Option.bind_some, Json.required?_text?_of_rel hname,
        Json.defaulted?_canonical?_of_rel hvalue]

theorem datePartsOfJson?_members :
    datePartsOfJson? (.object ms) = datePartsOfJson? (.object members) := by
  have hslot := Json.rel_slot? hkeys h "ymd"
  simp only [datePartsOfJson?]
  generalize Json.slot? members "ymd" = a at hslot
  generalize Json.slot? ms "ymd" = b at hslot
  cases hslot with
  | none => rfl
  | some hslot =>
    cases hslot with
    | none => rfl
    | @some j v hv =>
      cases j with
      | array items =>
        obtain ⟨vs, hvs, rfl⟩ := Json.canonical?_array_eq_some.mp hv
        rcases Json.canonicalAll?_eq_some.mp hvs with
          _ | ⟨hyear, _ | ⟨hmonth, _ | ⟨hday, _ | _⟩⟩⟩ <;> try rfl
        simp only [Option.bind_eq_bind, Option.bind_some, Json.within?_of_canonical? hyear,
          Json.within?_of_canonical? hmonth, Json.within?_of_canonical? hday]
      | object members =>
        obtain ⟨ms, -, rfl⟩ := Json.canonical?_object_eq_some.mp hv
        rfl
      | _ => cases hv <;> rfl

end Members

/-- An operand is read from the canonical form as from the value. -/
theorem ofJson?_of_canonical? {j v : Json} (hj : j.DistinctKeys) (h : j.canonical? = some v) :
    ofJson? v = ofJson? j := by
  have hv : v.canonical? = some v := Json.canonical_of_canonical? h
  cases j with
  | object members =>
    obtain ⟨ms, hms, rfl⟩ := Json.canonical?_object_eq_some.mp h
    obtain ⟨hkeys, -⟩ := Json.distinctKeys_object.mp hj
    simp only [ofJson?, h, hv, columnOfJson?_members hkeys hms,
      capturedOfJson?_members hkeys hms, datePartsOfJson?_members hkeys hms]
  | array items =>
    obtain ⟨vs, -, rfl⟩ := Json.canonical?_array_eq_some.mp h
    simp only [ofJson?, h, hv, columnOfJson?, capturedOfJson?, datePartsOfJson?]
  | _ => cases h <;> rfl

theorem column_of_columnOfJson? {j : Json} {x : WrittenOperand} (h : columnOfJson? j = some x) :
    ∃ path, column path = x := by
  cases j with
  | object members =>
    simp only [columnOfJson?, Option.bind_eq_bind, Option.bind_eq_some_iff, Option.map_eq_map,
      Option.map_eq_some_iff] at h
    obtain ⟨_, -, path, -, rfl⟩ := h
    exact ⟨path, rfl⟩
  | _ => cases h

/-- A date by numbers is read back. -/
theorem dateParts_of_datePartsOfJson? {j : Json} {x : WrittenOperand}
    (h : datePartsOfJson? j = some x) :
    ∃ year month day, dateParts year month day = x ∧ datePartsOfJson? x.toJson = some x := by
  cases j with
  | object members =>
    simp only [datePartsOfJson?, Option.bind_eq_bind, Option.bind_eq_some_iff] at h
    obtain ⟨_, -, h⟩ := h
    split at h
    · simp only [Option.bind_eq_some_iff, Json.within?_eq_some, Option.pure_def,
        Option.some.injEq] at h
      obtain ⟨year, ⟨-, hyear⟩, month, ⟨-, hmonth⟩, day, ⟨-, hday⟩, rfl⟩ := h
      refine ⟨year, month.toNat, day.toNat, rfl, ?_⟩
      have hslot : Json.slot? [("ymd", Json.array [.int year, .int month, .int day])] "ymd" =
        some (some (.array [.int year, .int month, .int day])) := rfl
      simp only [toJson, Int.toNat_of_nonneg hmonth.1, Int.toNat_of_nonneg hday.1, datePartsOfJson?,
        hslot, Option.bind_eq_bind, Option.bind_some, Json.within?_eq_some.mpr ⟨rfl, hyear⟩,
        Json.within?_eq_some.mpr ⟨rfl, hmonth⟩, Json.within?_eq_some.mpr ⟨rfl, hday⟩]
      rfl
    · cases h
  | _ => cases h

/-- An operand that was read is read again from what is written for it. -/
theorem ofJson?_toJson {j : Json} {x : WrittenOperand} (hj : j.DistinctKeys)
    (h : ofJson? j = some x) : ofJson? x.toJson = some x := by
  cases hv : j.canonical? with
  | none => simp [ofJson?, hv] at h
  | some v =>
    have hx := h
    simp only [ofJson?, hv, Option.orElse_eq_orElse, Option.orElse_eq_or,
      Option.or_eq_some_iff] at hx
    obtain hx | ⟨-, hx | ⟨-, hx | ⟨-, hx⟩⟩⟩ := hx
    · obtain ⟨path, rfl⟩ := column_of_columnOfJson? hx
      rfl
    · obtain ⟨name, value, hvalue, rfl⟩ := captured_of_capturedOfJson? hx
      have hcolumn : columnOfJson? (capturedToJson name value) = none := rfl
      simp [ofJson?, toJson, canonical?_capturedToJson hvalue, hcolumn,
        capturedOfJson?_capturedToJson hvalue]
    · obtain ⟨year, month, day, rfl, hx⟩ := dateParts_of_datePartsOfJson? hx
      -- Neither of the forms that are tried first has its members here.
      have hearlier : ofJson? (dateParts year month day).toJson =
          (datePartsOfJson? (dateParts year month day).toJson <|> _) := rfl
      rw [hearlier, hx]
      rfl
    · cases hx
      exact (ofJson?_of_canonical? hj hv).trans h

-- A repeated key makes a literal of what is a column once the key is there only once.
example :
    ofJson? (.object [("col", .string "a"), ("col", .string "b")]) =
      some (literal (.object [("col", .string "b")])) ∧
    ofJson? (.object [("col", .string "b")]) = some (column "b") :=
  ⟨rfl, rfl⟩

end WrittenOperand

end SqlSelect
