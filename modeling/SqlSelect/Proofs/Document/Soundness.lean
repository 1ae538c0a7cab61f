import SqlSelect.Document.Filter
import SqlSelect.Proofs.Document.Conversion

/-! Everything that is wrong with a filter of a document, in the order in which it is written. -/
namespace SqlSelect

-- The value that stands beside the name of a variable is left alone if there is no name.
def variableFaults (name? : Option String) (value : Json) : List Fault :=
  if name?.isSome then value.valueFaults else []

theorem variableFaults_eq_nil_iff {name? : Option String} {value : Json} :
    variableFaults name? value = [] ↔ (name?.isSome = true → value.Converts) := by
  cases name? with
  | none => simp [variableFaults]
  | some name => simp [variableFaults, Json.valueFaults_eq_nil_iff]

def WrittenOperand.value? : WrittenOperand → Option Json
  | captured _ value | literal value => some value
  | column _ | dateParts .. => none

namespace WrittenOperand

def faults (w : WrittenOperand) : List Fault :=
  (w.value?.map Json.valueFaults).getD []

def Sound (w : WrittenOperand) : Prop :=
  ∀ j, w.value? = some j → j.Converts

/-- An operand has no faults exactly if it is sound. -/
theorem faults_eq_nil_iff {w : WrittenOperand} : w.faults = [] ↔ w.Sound := by
  unfold faults Sound
  cases w.value? with
  | none => simp
  | some j => simpa using Json.valueFaults_eq_nil_iff

/-- Converting an operand raises the first of its faults. -/
theorem reports_toOperand (w : WrittenOperand) : Reports w.toOperand w.faults := by
  cases w with
  | column path => exact reports_ok _
  | captured name value => exact .map _ (reports_ofJson value)
  | dateParts year month day => exact reports_ok _
  | literal value => exact .map _ (reports_ofJson value)

end WrittenOperand

namespace WrittenList

def faults (l : WrittenList) : List Fault :=
  (if l.values?.isSome = l.variableName?.isSome then [.document (.listSource l.column)] else []) ++
    Json.valueFaultsOfAll (l.values?.getD []) ++ variableFaults l.variableName? l.value

-- The items are written out or are in a variable, and can be converted.
structure Sound (l : WrittenList) : Prop where
  source : l.values?.isSome ≠ l.variableName?.isSome
  values : ∀ js, l.values? = some js → ∀ j ∈ js, j.Converts
  value : l.variableName?.isSome = true → l.value.Converts

theorem faults_eq_nil_iff {l : WrittenList} : l.faults = [] ↔ l.Sound := by
  have hvalues : Json.valueFaultsOfAll (l.values?.getD []) = [] ↔
      ∀ js, l.values? = some js → ∀ j ∈ js, j.Converts := by
    rw [Json.valueFaultsOfAll_eq_nil_iff]
    cases l.values? <;> simp
  rw [faults, List.append_eq_nil_iff, List.append_eq_nil_iff, hvalues, variableFaults_eq_nil_iff,
    ite_eq_right_iff]
  constructor
  · rintro ⟨⟨hsource, hvalues⟩, hvalue⟩
    refine ⟨fun h => ?_, hvalues, hvalue⟩
    cases hsource h
  · rintro ⟨hsource, hvalues, hvalue⟩
    exact ⟨⟨fun h => absurd h hsource, hvalues⟩, hvalue⟩

theorem reports_toSource (l : WrittenList) : Reports l.toSource l.faults := by
  obtain ⟨column, values?, variableName?, value⟩ := l
  cases values? with
  | none =>
    cases variableName? with
    | none => exact reports_error _ _
    | some name => exact .map _ (reports_ofJson value)
  | some values =>
    cases variableName? with
    | none =>
      have h := (reports_allOfJson values).map ListSource.values
      rwa [← List.append_nil (Json.valueFaultsOfAll values)] at h
    | some name => exact reports_error _ _

end WrittenList

namespace WrittenPattern

def faults (p : WrittenPattern) : List Fault :=
  (if p.pattern?.isSome && p.variableName?.isSome then [.document (.patternSource p.column)]
    else []) ++ variableFaults p.variableName? p.value

-- The pattern is not both written out and in a variable, and a variable's can be converted.
structure Sound (p : WrittenPattern) : Prop where
  source : p.pattern? = none ∨ p.variableName? = none
  value : p.variableName?.isSome = true → p.value.Converts

theorem faults_eq_nil_iff {p : WrittenPattern} : p.faults = [] ↔ p.Sound := by
  rw [faults, List.append_eq_nil_iff, variableFaults_eq_nil_iff, ite_eq_right_iff]
  have hsource : ((p.pattern?.isSome && p.variableName?.isSome) = true →
      [Fault.document (.patternSource p.column)] = []) ↔
        p.pattern? = none ∨ p.variableName? = none := by
    cases p.pattern? <;> cases p.variableName? <;> simp
  rw [hsource]
  exact ⟨fun ⟨hsource, hvalue⟩ => ⟨hsource, hvalue⟩, fun ⟨hsource, hvalue⟩ => ⟨hsource, hvalue⟩⟩

theorem reports_toSource (p : WrittenPattern) : Reports p.toSource p.faults := by
  obtain ⟨column, pattern?, variableName?, value⟩ := p
  cases variableName? with
  | none => cases pattern? <;> exact reports_ok _
  | some name =>
    cases pattern? with
    | none => exact .map _ (reports_ofJson value)
    | some pattern => exact reports_error _ _

end WrittenPattern

namespace WrittenFilter

mutual

-- An empty list is wrong after its members, of which there are none.
def faults : WrittenFilter → List Fault
  | group op items => faultsOfAll items ++ if items.isEmpty then [.document (.emptyList op)] else []
  | compare _ left right => left.faults ++ right.faults
  | inList _ test => test.faults
  | pattern _ test => test.faults
  | isNull .. => []

def faultsOfAll : List WrittenFilter → List Fault
  | [] => []
  | f :: fs => f.faults ++ faultsOfAll fs

end

-- No list is empty, at any depth, and every test is sound.
inductive Sound : WrittenFilter → Prop
  | group (op : LogicalOp) {items : List WrittenFilter} (hne : items ≠ [])
      (h : ∀ f ∈ items, Sound f) : Sound (.group op items)
  | compare (op : CompareOp) {left right : WrittenOperand} (hl : left.Sound) (hr : right.Sound) :
      Sound (.compare op left right)
  | inList (negated : Bool) {test : WrittenList} (h : test.Sound) : Sound (.inList negated test)
  | pattern (shape : PatternShape) {test : WrittenPattern} (h : test.Sound) :
      Sound (.pattern shape test)
  | isNull (negated : Bool) (path : String) : Sound (.isNull negated path)

mutual

/-- A filter has no faults exactly if no list in it is empty and every test is sound. -/
theorem faults_eq_nil_iff : ∀ f : WrittenFilter, f.faults = [] ↔ f.Sound
  | group op items => by
    rw [faults, List.append_eq_nil_iff, faultsOfAll_eq_nil_iff items]
    constructor
    · rintro ⟨hitems, hne⟩
      exact .group op (by rintro rfl; cases hne) hitems
    · rintro (⟨-, hne, hitems⟩)
      exact ⟨hitems, by simp [hne]⟩
  | compare op left right => by
    rw [faults, List.append_eq_nil_iff, left.faults_eq_nil_iff, right.faults_eq_nil_iff]
    constructor
    · rintro ⟨hl, hr⟩
      exact .compare op hl hr
    · rintro (_ | ⟨-, hl, hr⟩)
      exact ⟨hl, hr⟩
  | inList negated test => by
    rw [faults, test.faults_eq_nil_iff]
    exact ⟨.inList negated, fun h => by cases h with | inList _ h => exact h⟩
  | pattern shape test => by
    rw [faults, test.faults_eq_nil_iff]
    exact ⟨.pattern shape, fun h => by cases h with | pattern _ h => exact h⟩
  | isNull negated path => ⟨fun _ => .isNull negated path, fun _ => rfl⟩

theorem faultsOfAll_eq_nil_iff : ∀ fs : List WrittenFilter,
    faultsOfAll fs = [] ↔ ∀ f ∈ fs, f.Sound
  | [] => by simp [faultsOfAll]
  | f :: fs => by
    rw [faultsOfAll, List.append_eq_nil_iff, faults_eq_nil_iff f, faultsOfAll_eq_nil_iff fs,
      List.forall_mem_cons]

end

theorem isEmpty_of_allToPredicate {fs : List WrittenFilter} {ps : List Predicate}
    (h : allToPredicate fs = .ok ps) : ps.isEmpty = fs.isEmpty := by
  cases fs with
  | nil =>
    cases h
    rfl
  | cons f fs =>
    obtain ⟨p, -, h⟩ := Except.bind_eq_ok.mp h
    obtain ⟨ps, -, h⟩ := Except.bind_eq_ok.mp h
    cases h
    rfl

mutual

/-- Converting a filter raises its first fault in the order of the document. -/
theorem reports_toPredicate : ∀ f : WrittenFilter, Reports f.toPredicate f.faults
  | group op items => by
    refine .bind (reports_allToPredicate items) fun ps hps => ?_
    rw [← isEmpty_of_allToPredicate hps]
    cases ps with
    | nil => exact reports_error _ []
    | cons p ps => exact reports_ok _
  | compare op left right =>
    .bind left.reports_toOperand fun _ _ => .map _ right.reports_toOperand
  | inList negated test => .map _ test.reports_toSource
  | pattern shape test => .map _ test.reports_toSource
  | isNull negated path => reports_ok _

theorem reports_allToPredicate : ∀ fs : List WrittenFilter,
    Reports (allToPredicate fs) (faultsOfAll fs)
  | [] => reports_ok _
  | f :: fs => .bind (reports_toPredicate f) fun _ _ => .map _ (reports_allToPredicate fs)

end

end WrittenFilter

end SqlSelect
