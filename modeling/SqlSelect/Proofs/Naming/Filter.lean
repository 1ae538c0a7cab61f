import SqlSelect.Document.Filter
import SqlSelect.Proofs.Naming.Condition
import SqlSelect.Proofs.Predicate.Chain

/-! The tests of a filter in a document and the texts that they become. -/
namespace SqlSelect

def WrittenOperand.path? : WrittenOperand → Option String
  | column path => some path
  | _ => none

theorem WrittenOperand.column?_of_toOperand {w : WrittenOperand} {o : Operand}
    (h : w.toOperand = .ok o) : o.column? = w.path?.map .path := by
  cases w with
  | column path =>
    cases h
    rfl
  | dateParts year month day =>
    cases h
    rfl
  | captured name value =>
    obtain ⟨v, -, h⟩ := Except.bind_eq_ok.mp h
    cases h
    rfl
  | literal value =>
    obtain ⟨v, -, rfl⟩ := Except.map_eq_ok.mp h
    rfl

namespace WrittenFilter

mutual

-- The members that are no lists, from left to right.
def tests : WrittenFilter → List WrittenFilter
  | group _ items => testsOfAll items
  | f => [f]

def testsOfAll : List WrittenFilter → List WrittenFilter
  | [] => []
  | f :: fs => f.tests ++ testsOfAll fs

end

def Names (shows : String → String → Prop) : WrittenFilter → String → Prop
  | group .., _ => False
  | compare op left right, text => op.Names shows left.path? right.path? text
  | inList negated test, text => ∃ column items, shows test.column column ∧
      text = column ++ (if negated then " not in (" else " in (") ++ items ++ ")"
  | pattern shape test, text => ∃ column pattern, shows test.column column ∧
      text = column ++ " " ++ shape.test pattern
  | isNull negated path, text => ∃ column, shows path column ∧
      text = column ++ (if negated then " is not null" else " is null")

inductive Tests : WrittenFilter → Condition → Prop
  | compare (op : CompareOp) {left right : WrittenOperand} {l r : Operand}
      (hl : left.toOperand = .ok l) (hr : right.toOperand = .ok r) :
      Tests (.compare op left right) (.compare l op r)
  | inList (negated : Bool) {test : WrittenList} {source : ListSource}
      (h : test.toSource = .ok source) :
      Tests (.inList negated test) (.inList (.path test.column) negated source)
  | pattern (shape : PatternShape) {test : WrittenPattern} {source : PatternSource}
      (h : test.toSource = .ok source) :
      Tests (.pattern shape test) (.pattern (.path test.column) shape source)
  | isNull (negated : Bool) (path : String) :
      Tests (.isNull negated path) (.isNull (.path path) negated)

/-- A test shows the paths of its condition. -/
theorem Tests.names {f : WrittenFilter} {c : Condition} {shows : ColumnRef → String → Prop}
    {shows' : String → String → Prop} {text : String} (h : f.Tests c)
    (hshows : ∀ path text, shows (.path path) text → shows' path text)
    (hc : c.Names shows text) : f.Names shows' text := by
  cases h with
  | compare op hl hr =>
    rw [Condition.Names, WrittenOperand.column?_of_toOperand hl,
      WrittenOperand.column?_of_toOperand hr] at hc
    exact hc.imp hshows
  | inList negated _ =>
    obtain ⟨column, items, hcolumn, htext⟩ := hc
    exact ⟨column, items, hshows _ _ hcolumn, htext⟩
  | pattern shape _ =>
    obtain ⟨column, pattern, hcolumn, htext⟩ := hc
    exact ⟨column, pattern, hshows _ _ hcolumn, htext⟩
  | isNull negated path =>
    obtain ⟨column, hcolumn, htext⟩ := hc
    exact ⟨column, hshows _ _ hcolumn, htext⟩

/-- A list becomes a chain of its members. -/
theorem exists_chain_of_toPredicate {op : LogicalOp} {items : List WrittenFilter} {p : Predicate}
    (h : (group op items).toPredicate = .ok p) :
    ∃ ps, allToPredicate items = .ok ps ∧ Predicate.Chain op ps p := by
  obtain ⟨ps, hps, h⟩ := Except.bind_eq_ok.mp h
  cases hchain : Predicate.chain? op ps with
  | none => simp [hchain] at h
  | some q =>
    obtain rfl : q = p := by simpa [hchain] using h
    exact ⟨ps, hps, Predicate.chain_of_chain? hchain⟩

theorem exists_of_allToPredicate_cons {f : WrittenFilter} {fs : List WrittenFilter}
    {ps : List Predicate} (h : allToPredicate (f :: fs) = .ok ps) :
    ∃ p ps', ps = p :: ps' ∧ f.toPredicate = .ok p ∧ allToPredicate fs = .ok ps' := by
  obtain ⟨p, hp, h⟩ := Except.bind_eq_ok.mp h
  obtain ⟨ps', hps', h⟩ := Except.bind_eq_ok.mp h
  cases h
  exact ⟨p, ps', rfl, hp, hps'⟩

mutual

/-- A predicate has the tests of its filter, in order. -/
theorem tests_of_toPredicate : ∀ {f : WrittenFilter} {p : Predicate}, f.toPredicate = .ok p →
    List.Forall₂ Tests f.tests p.conditions
  | group op items, p, h => by
    obtain ⟨ps, hps, hchain⟩ := exists_chain_of_toPredicate h
    rw [hchain.conditions]
    exact testsOfAll_of_allToPredicate hps
  | compare op left right, p, h => by
    obtain ⟨l, hl, h⟩ := Except.bind_eq_ok.mp h
    obtain ⟨r, hr, h⟩ := Except.bind_eq_ok.mp h
    cases h
    exact .cons (.compare op hl hr) .nil
  | inList negated test, p, h => by
    obtain ⟨source, hsource, h⟩ := Except.bind_eq_ok.mp h
    cases h
    exact .cons (.inList negated hsource) .nil
  | pattern shape test, p, h => by
    obtain ⟨source, hsource, h⟩ := Except.bind_eq_ok.mp h
    cases h
    exact .cons (.pattern shape hsource) .nil
  | isNull negated path, p, h => by
    cases h
    exact .cons (.isNull negated path) .nil

/-- The tests of the members are the conditions that these become. -/
theorem testsOfAll_of_allToPredicate : ∀ {fs : List WrittenFilter} {ps : List Predicate},
    allToPredicate fs = .ok ps → List.Forall₂ Tests (testsOfAll fs) (ps.flatMap (·.conditions))
  | [], ps, h => by
    cases h
    exact .nil
  | f :: fs, ps, h => by
    obtain ⟨p, ps, rfl, hp, hps⟩ := exists_of_allToPredicate_cons h
    exact List.rel_append (tests_of_toPredicate hp) (testsOfAll_of_allToPredicate hps)

end

end WrittenFilter

end SqlSelect
