import SqlSelect.Proofs.Parameter.Account
import SqlSelect.Proofs.Rendered

/-! The text of a condition with its references to parameters marked. -/
namespace SqlSelect

inductive Piece where
  | plain (text : String)
  | reference (r : Reference)

namespace Piece

def text : Piece → String
  | plain text => text
  | reference r => r.name

def references : Piece → List Reference
  | plain _ => []
  | reference r => [r]

-- The text is a name if there is something that it stands for.
def of : Option Source → String → Piece
  | some source, name => reference ⟨source, name⟩
  | none, text => plain text

@[simp] theorem text_plain (text : String) : (plain text).text = text := rfl

@[simp] theorem references_plain (text : String) : (plain text).references = [] := rfl

@[simp] theorem text_of (source? : Option Source) (text : String) :
    (of source? text).text = text := by
  cases source? <;> rfl

@[simp] theorem sources_of (source? : Option Source) (text : String) :
    (of source? text).references.map (·.source) = source?.toList := by
  cases source? <;> rfl

end Piece

abbrev MarkedText := List Piece

namespace MarkedText

def text (m : MarkedText) : String :=
  String.join (m.map Piece.text)

def references (m : MarkedText) : List Reference :=
  m.flatMap Piece.references

@[simp] theorem text_nil : text [] = "" := by
  simp [text]

@[simp] theorem text_cons (p : Piece) (m : MarkedText) : text (p :: m) = p.text ++ text m := by
  simp [text]

@[simp] theorem text_append (m n : MarkedText) : text (m ++ n) = text m ++ text n := by
  simp [text]

@[simp] theorem references_nil : references [] = [] := rfl

@[simp] theorem references_cons (p : Piece) (m : MarkedText) :
    references (p :: m) = p.references ++ references m := rfl

@[simp] theorem references_append (m n : MarkedText) :
    references (m ++ n) = references m ++ references n :=
  List.flatMap_append

theorem text_intersperse (sep : String) (m : MarkedText) :
    text (m.intersperse (.plain sep)) = sep.intercalate (m.map Piece.text) := by
  induction m with
  | nil => simp
  | cons p m ih =>
    cases m with
    | nil => simp
    | cons q m =>
      rw [List.intersperse_cons_cons, text_cons, text_cons, ih]
      simp [String.append_assoc]

theorem references_intersperse (sep : String) (m : MarkedText) :
    references (m.intersperse (.plain sep)) = m.references := by
  induction m with
  | nil => rfl
  | cons p m ih =>
    cases m with
    | nil => rfl
    | cons q m =>
      rw [List.intersperse_cons_cons, references_cons, references_cons, ih, references_cons p]
      rfl

end MarkedText

def Value.boundSource? : Value → Option Source
  | .char c => some (.literal (.char c))
  | .text s => some (.literal (.text s))
  | .date d => some (.literal (.date d))
  | _ => none

-- Dates in lists are written out.
def Value.itemSource? : Value → Option Source
  | .char c => some (.literal (.char c))
  | .text s => some (.literal (.text s))
  | _ => none

namespace Operand

def source? : Operand → Option Source
  | column _ => none
  | captured v => if v.value.isNull then none else some (.captured v)
  | literal v => v.boundSource?
  | dateParts year month day => (Date.ofParts? year month day).map fun d => .literal (.date d)

def mark (s : Scope) (o : Operand) : Rendering Piece :=
  Piece.of o.source? <$> o.render s

end Operand

namespace ResolvedColumn

def markItem (c : ResolvedColumn) (item : Value) : Rendering Piece :=
  Piece.of item.itemSource? <$> c.renderItem item

end ResolvedColumn

namespace Condition

def markCompare (s : Scope) (left : Operand) (op : CompareOp) (right : Operand) :
    Rendering MarkedText :=
  if left.isNull || right.isNull then do
    let text ← renderCompare s left op right
    pure [.plain text]
  else do
    let l ← left.mark s
    let r ← right.mark s
    pure [l, .plain (" " ++ op.sql ++ " "), r]

def markList (s : Scope) (column : ColumnRef) (negated : Bool) (source : ListSource) :
    Rendering MarkedText := do
  let column ← s.column column
  match ← Rendering.ofExcept (source.items? s.options) with
  | none => pure [.plain alwaysTrue]
  | some items =>
    if items.isEmpty && s.options.emptyInList = .fail then
      throw (.usage (.emptyList column.qualified))
    let pieces ← items.mapM column.markItem
    pure (.plain (column.qualified ++ (if negated then " not in (" else " in (")) ::
      pieces.intersperse (.plain ", ") ++ [.plain ")"])

def mark (s : Scope) : Condition → Rendering MarkedText
  | compare left op right => markCompare s left op right
  | inList column negated source => markList s column negated source
  | c => do
    let text ← c.render s
    pure [.plain text]

end Condition

/-- Marking an operand does not change its text. -/
theorem Operand.text_mark (s : Scope) (o : Operand) : Piece.text <$> o.mark s = o.render s := by
  simp [mark]

theorem ResolvedColumn.text_markItem (c : ResolvedColumn) (item : Value) :
    Piece.text <$> c.markItem item = c.renderItem item := by
  simp [markItem]

theorem ResolvedColumn.renderItems_eq_mapM (c : ResolvedColumn) (items : List Value) :
    c.renderItems items = items.mapM c.renderItem := by
  induction items with
  | nil => rfl
  | cons item items ih => rw [renderItems, List.mapM_cons, ih]

theorem ResolvedColumn.text_markItems (c : ResolvedColumn) (items : List Value) :
    List.map Piece.text <$> items.mapM c.markItem = c.renderItems items := by
  rw [Rendering.map_mapM, renderItems_eq_mapM]
  simp only [text_markItem]

namespace Condition

theorem text_markCompare (s : Scope) (left : Operand) (op : CompareOp) (right : Operand) :
    MarkedText.text <$> markCompare s left op right = renderCompare s left op right := by
  unfold markCompare
  split
  · simp
  · next h =>
    simp only [Operand.isNull, Bool.or_eq_true, not_or, Bool.not_eq_true] at h
    obtain ⟨⟨hl, hl'⟩, hr, hr'⟩ := h
    simp [renderCompare, hl, hl', hr, hr', ← Operand.text_mark, String.append_assoc]

theorem text_markList (s : Scope) (column : ColumnRef) (negated : Bool) (source : ListSource) :
    MarkedText.text <$> markList s column negated source = renderList s column negated source := by
  simp only [markList, renderList, map_bind]
  congr 1
  funext c
  congr 1
  funext items?
  cases items? with
  | none => simp
  | some items =>
    by_cases hempty : (items.isEmpty && s.options.emptyInList = .fail) = true
    · simp only [hempty]
      rfl
    · simp [hempty, ← ResolvedColumn.text_markItems, MarkedText.text_intersperse,
        String.append_assoc]

/-- The marks do not change the text. -/
theorem text_mark (s : Scope) (c : Condition) : MarkedText.text <$> c.mark s = c.render s := by
  cases c with
  | compare left op right => exact text_markCompare s left op right
  | inList column negated source => exact text_markList s column negated source
  | pattern column shape source => simp [mark]
  | isNull column negated => simp [mark]

end Condition

end SqlSelect
