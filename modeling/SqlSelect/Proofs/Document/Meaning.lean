import SqlSelect.Proofs.Document.Soundness
import SqlSelect.Proofs.Naming.Filter

/-! A filter of a document keeps its meaning: the predicate that it becomes has the value of the
filter, in which a list is all or any of its members. -/
namespace SqlSelect

inductive WrittenOperand.Denotes : WrittenOperand → Operand → Prop
  | column (path : String) : Denotes (.column path) (.column (.path path))
  | captured (name : String) {value : Json} {v : Value} (h : value.Denotes v) :
      Denotes (.captured name value) (.captured ⟨name, v⟩)
  | dateParts (year : Int) (month day : Nat) :
      Denotes (.dateParts year month day) (.dateParts year month day)
  | literal {value : Json} {v : Value} (h : value.Denotes v) : Denotes (.literal value) (.literal v)

inductive WrittenList.Denotes : WrittenList → ListSource → Prop
  | values (column : String) (value : Json) {items : List Json} {vs : List Value}
      (h : List.Forall₂ Json.Denotes items vs) :
      Denotes ⟨column, some items, none, value⟩ (.values vs)
  | captured (column name : String) {value : Json} {v : Value} (h : value.Denotes v) :
      Denotes ⟨column, none, some name, value⟩ (.captured ⟨name, v⟩)

inductive WrittenPattern.Denotes : WrittenPattern → PatternSource → Prop
  | text (column : String) (pattern? : Option String) (value : Json) :
      Denotes ⟨column, pattern?, none, value⟩ (.text pattern?)
  | captured (column name : String) {value : Json} {v : Value} (h : value.Denotes v) :
      Denotes ⟨column, none, some name, value⟩ (.captured ⟨name, v⟩)

/-- An operand is converted to what it denotes. -/
theorem WrittenOperand.denotes_of_toOperand {w : WrittenOperand} {o : Operand}
    (h : w.toOperand = .ok o) : w.Denotes o := by
  cases w with
  | column path =>
    cases h
    exact .column path
  | captured name value =>
    obtain ⟨v, hv, h⟩ := Except.bind_eq_ok.mp h
    cases h
    exact .captured name (ofJson_eq_ok_iff.mp hv)
  | dateParts year month day =>
    cases h
    exact .dateParts year month day
  | literal value =>
    obtain ⟨v, hv, rfl⟩ := Except.map_eq_ok.mp h
    exact .literal (ofJson_eq_ok_iff.mp hv)

/-- A list is converted to its items or to its variable. -/
theorem WrittenList.denotes_of_toSource {l : WrittenList} {source : ListSource}
    (h : l.toSource = .ok source) : l.Denotes source := by
  obtain ⟨column, values?, variableName?, value⟩ := l
  unfold toSource at h
  split at h
  · next values hvalues hname =>
    cases hvalues
    cases hname
    obtain ⟨vs, hvs, rfl⟩ := Except.map_eq_ok.mp h
    exact .values column value (allOfJson_eq_ok_iff.mp hvs)
  · next name hvalues hname =>
    cases hvalues
    cases hname
    obtain ⟨v, hv, h⟩ := Except.bind_eq_ok.mp h
    cases h
    exact .captured column name (ofJson_eq_ok_iff.mp hv)
  · cases h

/-- A pattern is converted to its text or to its variable. -/
theorem WrittenPattern.denotes_of_toSource {p : WrittenPattern} {source : PatternSource}
    (h : p.toSource = .ok source) : p.Denotes source := by
  obtain ⟨column, pattern?, variableName?, value⟩ := p
  unfold toSource at h
  split at h
  · next hname =>
    cases hname
    cases h
    exact .text column pattern? value
  · next name hname hpattern =>
    cases hname
    cases hpattern
    obtain ⟨v, hv, h⟩ := Except.bind_eq_ok.mp h
    cases h
    exact .captured column name (ofJson_eq_ok_iff.mp hv)
  · cases h

namespace WrittenFilter

-- A test is one condition; a list is a chain of what its members stand for.
inductive Denotes : WrittenFilter → Predicate → Prop
  | group {op : LogicalOp} {items : List WrittenFilter} {ps : List Predicate} {p : Predicate}
      (hitems : List.Forall₂ Denotes items ps) (hchain : Predicate.Chain op ps p) :
      Denotes (.group op items) p
  | compare (op : CompareOp) {left right : WrittenOperand} {l r : Operand} (hl : left.Denotes l)
      (hr : right.Denotes r) : Denotes (.compare op left right) (.condition (.compare l op r))
  | inList (negated : Bool) {test : WrittenList} {source : ListSource} (h : test.Denotes source) :
      Denotes (.inList negated test) (.condition (.inList (.path test.column) negated source))
  | pattern (shape : PatternShape) {test : WrittenPattern} {source : PatternSource}
      (h : test.Denotes source) :
      Denotes (.pattern shape test) (.condition (.pattern (.path test.column) shape source))
  | isNull (negated : Bool) (path : String) :
      Denotes (.isNull negated path) (.condition (.isNull (.path path) negated))

/-- A test denotes the condition that it stands for. -/
theorem Tests.denotes {f : WrittenFilter} {c : Condition} (h : f.Tests c) :
    f.Denotes (.condition c) := by
  cases h with
  | compare op hl hr =>
    exact .compare op (WrittenOperand.denotes_of_toOperand hl)
      (WrittenOperand.denotes_of_toOperand hr)
  | inList negated h => exact .inList negated (WrittenList.denotes_of_toSource h)
  | pattern shape h => exact .pattern shape (WrittenPattern.denotes_of_toSource h)
  | isNull negated path => exact .isNull negated path

mutual

-- The value, the tests from the `n`-th on having the values that are given by number.
def valueAt (v : Nat → Bool) : Nat → WrittenFilter → Bool
  | n, group op items => op.among (valuesFrom v n items)
  | n, _ => v n

def valuesFrom (v : Nat → Bool) : Nat → List WrittenFilter → List Bool
  | _, [] => []
  | n, f :: fs => f.valueAt v n :: valuesFrom v (n + f.tests.length) fs

end

/-- A filter that is a single test becomes one condition. -/
theorem exists_condition_of_toPredicate {f : WrittenFilter} {p : Predicate} (hf : f.tests = [f])
    (h : f.toPredicate = .ok p) : ∃ c, p = .condition c ∧ f.Tests c := by
  have htests := tests_of_toPredicate h
  rw [hf] at htests
  cases p with
  | condition c =>
    obtain ⟨hc, -⟩ := List.forall₂_cons.mp htests
    exact ⟨c, rfl, hc⟩
  | logical op p q =>
    -- Both sides have a condition, and there is only one.
    have hlength := htests.length_eq
    have hp := List.length_pos_iff.mpr p.conditions_ne_nil
    have hq := List.length_pos_iff.mpr q.conditions_ne_nil
    simp only [Predicate.conditions, List.length_append, List.length_singleton] at hlength
    omega

theorem valueAt_of_test {f : WrittenFilter} {p : Predicate} (hf : f.tests = [f])
    (h : f.toPredicate = .ok p) (v : Nat → Bool) (n : Nat) : p.valueAt v n = f.valueAt v n := by
  obtain ⟨c, rfl, hc⟩ := exists_condition_of_toPredicate hf h
  cases hc <;> rfl

theorem denotes_of_test {f : WrittenFilter} {p : Predicate} (hf : f.tests = [f])
    (h : f.toPredicate = .ok p) : f.Denotes p := by
  obtain ⟨c, rfl, hc⟩ := exists_condition_of_toPredicate hf h
  exact hc.denotes

mutual

/-- A filter is converted to what it denotes. -/
theorem denotes_of_toPredicate : ∀ {f : WrittenFilter} {p : Predicate}, f.toPredicate = .ok p →
    f.Denotes p
  | group op items, p, h => by
    obtain ⟨ps, hps, hchain⟩ := exists_chain_of_toPredicate h
    exact .group (denotes_of_allToPredicate hps) hchain
  | compare .., _, h => denotes_of_test rfl h
  | inList .., _, h => denotes_of_test rfl h
  | pattern .., _, h => denotes_of_test rfl h
  | isNull .., _, h => denotes_of_test rfl h

theorem denotes_of_allToPredicate : ∀ {fs : List WrittenFilter} {ps : List Predicate},
    allToPredicate fs = .ok ps → List.Forall₂ Denotes fs ps
  | [], ps, h => by
    cases h
    exact .nil
  | f :: fs, ps, h => by
    obtain ⟨p, ps, rfl, hp, hps⟩ := exists_of_allToPredicate_cons h
    exact .cons (denotes_of_toPredicate hp) (denotes_of_allToPredicate hps)

end

mutual

/-- A converted filter has the value of the written one, whatever values the tests have. -/
theorem valueAt_of_toPredicate : ∀ {f : WrittenFilter} {p : Predicate}, f.toPredicate = .ok p →
    ∀ v n, p.valueAt v n = f.valueAt v n
  | group op items, p, h, v, n => by
    obtain ⟨ps, hps, hchain⟩ := exists_chain_of_toPredicate h
    rw [hchain.valueAt, valueAt, valuesFrom_of_allToPredicate hps]
  | compare .., _, h, v, n => valueAt_of_test rfl h v n
  | inList .., _, h, v, n => valueAt_of_test rfl h v n
  | pattern .., _, h, v, n => valueAt_of_test rfl h v n
  | isNull .., _, h, v, n => valueAt_of_test rfl h v n

theorem valuesFrom_of_allToPredicate : ∀ {fs : List WrittenFilter} {ps : List Predicate},
    allToPredicate fs = .ok ps → ∀ v n, Predicate.valuesFrom v n ps = valuesFrom v n fs
  | [], ps, h, v, n => by
    cases h
    rfl
  | f :: fs, ps, h, v, n => by
    obtain ⟨p, ps, rfl, hp, hps⟩ := exists_of_allToPredicate_cons h
    have hlength : f.tests.length = p.conditions.length := (tests_of_toPredicate hp).length_eq
    rw [Predicate.valuesFrom, valuesFrom, valueAt_of_toPredicate hp,
      valuesFrom_of_allToPredicate hps, hlength]

end

/-- A filter of a document becomes a predicate if nothing in it is wrong, at any depth, and
otherwise the first thing that is wrong in it is raised. The predicate is what the filter stands
for: its conditions are the tests of the filter, in order, its chains are the lists, and whatever
the values of the tests, it has the value of the filter, in which a list is all or any of its
members. -/
theorem toPredicate_keeps_meaning (f : WrittenFilter) :
    ((∃ p, f.toPredicate = .ok p) ↔ f.Sound) ∧
      (∀ fault, f.toPredicate = .error fault ↔ f.faults.head? = some fault) ∧
      ∀ p, f.toPredicate = .ok p → f.Denotes p ∧
        List.Forall₂ (fun test c => test.Denotes (.condition c)) f.tests p.conditions ∧
        ∀ v, p.valueAt v 0 = f.valueAt v 0 := by
  refine ⟨?_, f.reports_toPredicate, fun p hp => ⟨denotes_of_toPredicate hp, ?_, fun v => ?_⟩⟩
  · rw [← f.faults_eq_nil_iff]
    exact f.reports_toPredicate.exists_ok_iff
  · exact (tests_of_toPredicate hp).imp fun _ _ h => h.denotes
  · exact valueAt_of_toPredicate hp v 0

end WrittenFilter

namespace Demo

-- A list of three with a list of one inside.
def nestedFilter : WrittenFilter :=
  .group .and
    [.isNull false "s.LastName",
     .group .or
       [.compare .eq (.literal (.object [("char", .string "B")])) (.column "s.FirstName"),
        .group .and [.isNull true "s.Id"],
        .inList true
          ⟨"s.DateOfBirth", some [.object [("date", .string "2000-02-29")]], none, .null⟩],
     .pattern .like ⟨"s.LastName", some "O*", none, .null⟩]

-- An empty list comes before a value that is nothing and a test without a source.
def faultyFilter : WrittenFilter :=
  .group .and
    [.group .or [.isNull false "s.Id", .group .or []],
     .compare .lt (.column "s.Id") (.captured "id" (.array [.object []])),
     .inList false ⟨"s.Id", none, none, .null⟩]

end Demo

/-- The one filter has a list inside a list, and the other fails at its empty list. -/
theorem WrittenFilter.toPredicate_keeps_meaning_nested :
    (∃ p, Demo.nestedFilter.toPredicate = .ok p ∧
        ∀ v, p.valueAt v 0 = (v 0 && (v 1 || v 2 || v 3) && v 4)) ∧
      Demo.faultyFilter.toPredicate = .error (.document (.emptyList .or)) := by
  obtain ⟨hsound, -, hmeaning⟩ := toPredicate_keeps_meaning Demo.nestedFilter
  obtain ⟨-, hfault, -⟩ := toPredicate_keeps_meaning Demo.faultyFilter
  have hfine : Demo.nestedFilter.Sound := by
    rw [← faults_eq_nil_iff]
    rfl
  obtain ⟨p, hp⟩ := hsound.mpr hfine
  obtain ⟨-, -, hvalue⟩ := hmeaning p hp
  refine ⟨⟨p, hp, fun v => ?_⟩, (hfault _).mpr rfl⟩
  rw [hvalue]
  simp [Demo.nestedFilter, valueAt, valuesFrom, LogicalOp.among, tests, testsOfAll, Bool.and_assoc,
    Bool.or_assoc]

end SqlSelect
