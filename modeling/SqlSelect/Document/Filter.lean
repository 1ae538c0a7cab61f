import SqlSelect.Document.Basic
import SqlSelect.Document.Value
/-!
Filters of documents as predicates. The first fault in reading order is the one that is reported.
-/

namespace SqlSelect

def WrittenOperand.toOperand : WrittenOperand → Except Fault Operand
  | column path => .ok (.column (.path path))
  | captured name value => do
    let v ← Value.ofJson value
    pure (.captured ⟨name, v⟩)
  | dateParts year month day => .ok (.dateParts year month day)
  | literal value => Operand.literal <$> Value.ofJson value

def WrittenList.toSource (l : WrittenList) : Except Fault ListSource :=
  match l.values?, l.variableName? with
  | some values, none => ListSource.values <$> Value.allOfJson values
  | none, some name => do
    let v ← Value.ofJson l.value
    pure (.captured ⟨name, v⟩)
  | _, _ => .error (.document (.listSource l.column))

def WrittenPattern.toSource (p : WrittenPattern) : Except Fault PatternSource :=
  match p.variableName?, p.pattern? with
  | none, pattern => .ok (.text pattern)
  | some name, none => do
    let v ← Value.ofJson p.value
    pure (.captured ⟨name, v⟩)
  | some _, some _ => .error (.document (.patternSource p.column))

namespace WrittenFilter

mutual

-- A list of filters is the left-nested chain of its members.
def toPredicate : WrittenFilter → Except Fault Predicate
  | group op items => do
    let predicates ← allToPredicate items
    match Predicate.chain? op predicates with
    | some p => pure p
    | none => throw (.document (.emptyList op))
  | compare op left right => do
    let l ← left.toOperand
    let r ← right.toOperand
    pure (.condition (.compare l op r))
  | inList negated test => do
    let source ← test.toSource
    pure (.condition (.inList (.path test.column) negated source))
  | pattern shape test => do
    let source ← test.toSource
    pure (.condition (.pattern (.path test.column) shape source))
  | isNull negated column => .ok (.condition (.isNull (.path column) negated))

def allToPredicate : List WrittenFilter → Except Fault (List Predicate)
  | [] => .ok []
  | f :: fs => do
    let p ← f.toPredicate
    let ps ← allToPredicate fs
    pure (p :: ps)

end

end WrittenFilter

def Document.predicate (d : Document) : Except Fault (Option Predicate) :=
  match d.filter with
  | none => .ok none
  | some f => some <$> f.toPredicate

end SqlSelect
