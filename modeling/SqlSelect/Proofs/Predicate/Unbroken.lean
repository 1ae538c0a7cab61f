import SqlSelect.Proofs.Marking.Text
import SqlSelect.Proofs.Pattern.Quotation
import SqlSelect.Proofs.Where.Leaves

/-! Where the line breaks in a condition come from: from the texts that it is about. With none in
these, each condition is in one line, and so is each parameter that is bound for it. -/
namespace SqlSelect

open Rendering Script

abbrev OneLine (text : String) : Prop :=
  SpelledWith (!isBreak ·) text

theorem SpelledWith.oneLine_of_word {text : String} (h : SpelledWith isWordPart text) :
    OneLine text :=
  h.mono fun _ hc => (Bool.and_eq_true_iff.mp hc).2

theorem SpelledWith.oneLine_of_number {text : String} (h : SpelledWith isNumberPart text) :
    OneLine text := by
  refine h.mono fun c hc => ?_
  have hother (d : Char) (hd : isNumberPart d = false) : c ≠ d := by
    rintro rfl
    rw [hc] at hd
    cases hd
  simp [isBreak, hother '\r' rfl, hother '\n' rfl]

theorem Date.oneLine_sqlText (d : Date) : OneLine d.sqlText :=
  d.spelled_sqlText.mono fun _ hc =>
    (Bool.and_eq_true_iff.mp (Bool.and_eq_true_iff.mp hc).1).2

/-- Texts in one line are one line with such a separator between them. -/
theorem oneLine_intercalate {sep : String} (hsep : OneLine sep) {texts : List String}
    (h : ∀ text ∈ texts, OneLine text) : OneLine (sep.intercalate texts) := by
  induction texts with
  | nil => simp [SpelledWith]
  | cons text texts ih =>
    obtain ⟨htext, htexts⟩ := List.forall_mem_cons.mp h
    cases texts with
    | nil => simpa using htext
    | cons text' texts =>
      rw [String.intercalate_cons_cons]
      exact .append (.append htext hsep) (ih htexts)

def Value.Unbroken : Value → Prop
  | .text s => OneLine s
  | .char c => OneLine (String.singleton c)
  | _ => True

/-- A value in one line has its text in one line. -/
theorem Value.Unbroken.classify {v : Value} {kind : ParameterKind} {text : String}
    (hv : v.Unbroken) (h : v.classify = .ok (kind, text)) : OneLine text := by
  cases v with
  | int n =>
    cases h
    exact (spelled_decimal n).oneLine_of_number
  | float x =>
    obtain ⟨_, htext, heq⟩ := Except.map_eq_ok.mp h
    cases heq
    exact (x.spelled_sqlNumber htext).oneLine_of_number
  | char c =>
    cases h
    exact hv
  | text s =>
    cases h
    exact hv
  | date d =>
    cases h
    exact d.oneLine_sqlText
  | _ => cases h

structure Parameter.Unbroken (p : Parameter) : Prop where
  name : OneLine p.name
  value : OneLine p.value

namespace ParameterTable

variable {t u : ParameterTable} {name : String}

def Unbroken (t : ParameterTable) : Prop :=
  ∀ p ∈ t.parameters, p.Unbroken

theorem Unbroken.concat (h : t.Unbroken) {p : Parameter} (hp : p.Unbroken)
    (hu : u.parameters = t.parameters ++ [p]) : u.Unbroken := by
  rw [Unbroken, hu]
  exact List.forall_mem_append.mpr ⟨h, List.forall_mem_singleton.mpr hp⟩

theorem Unbroken.bindCaptured {v : Variable} (h : t.Unbroken) (hv : v.value.Unbroken)
    (hb : t.bindCaptured v = (.ok name, u)) : OneLine name ∧ u.Unbroken := by
  obtain ⟨hname, kind, value, hclass, -, rfl, rfl⟩ := bindCaptured_eq_ok.mp hb
  have hline := (spelled_variable hname).oneLine_of_word
  refine ⟨hline, ?_⟩
  rw [add_fst]
  split
  · exact h
  · exact h.concat ⟨hline, hv.classify hclass⟩ rfl

/-- A literal in one line adds no break to the table, and neither does its name. -/
theorem Unbroken.bindLiteral {v : Value} (h : t.Unbroken) (hv : v.Unbroken)
    (hb : t.bindLiteral v = (.ok name, u)) : OneLine name ∧ u.Unbroken := by
  obtain ⟨kind, value, hclass⟩ := exists_classify_of_bindLiteral hb
  cases hr : t.reusable? kind value with
  | some p =>
    obtain ⟨hbind, -, hp⟩ := bindLiteral_of_reusable hclass hr
    cases hb.symm.trans hbind
    exact ⟨(h p (mem_parameters_of_mem_literals hp)).name, h⟩
  | none =>
    cases hb.symm.trans (bindLiteral_of_new hclass hr)
    have hline : OneLine (t.newLiteral kind value).name :=
      (spelled_literalName _ _).oneLine_of_word
    exact ⟨hline, h.concat ⟨hline, hv.classify hclass⟩ rfl⟩

end ParameterTable

namespace Rendering

variable {α β : Type} {P : α → Prop} {Q : β → Prop}

-- Over a table without line breaks, the rendering gives what is wanted and adds none.
def Keeps (P : α → Prop) (m : Rendering α) : Prop :=
  ∀ t a u, t.Unbroken → Yields m t a u → P a ∧ u.Unbroken

theorem keeps_pure {a : α} (h : P a) : Keeps P (pure a) := by
  intro t b u ht hm
  obtain ⟨rfl, rfl⟩ := (yields_pure _ _ _ _).mp hm
  exact ⟨h, ht⟩

theorem keeps_throw (f : Fault) : Keeps P (throw f) := by
  intro t a u ht hm
  cases hm

theorem keeps_ofExcept {x : Except Fault α} (h : ∀ a, x = .ok a → P a) : Keeps P (ofExcept x) := by
  intro t a u ht hm
  obtain ⟨hx, rfl⟩ := (yields_ofExcept _ _ _ _).mp hm
  exact ⟨h a hx, ht⟩

theorem Keeps.bind {m : Rendering α} {k : α → Rendering β} (hm : Keeps P m)
    (hk : ∀ a, P a → Keeps Q (k a)) : Keeps Q (m >>= k) := by
  intro t b u ht h
  obtain ⟨a, v, ha, hb⟩ := (yields_bind _ _ _ _ _).mp h
  obtain ⟨hpa, hv⟩ := hm t a v ht ha
  exact hk a hpa v b u hv hb

theorem Keeps.map {m : Rendering α} {g : α → β} (hm : Keeps P m) (hg : ∀ a, P a → Q (g a)) :
    Keeps Q (g <$> m) := by
  rw [map_eq_pure_bind]
  exact hm.bind fun a ha => keeps_pure (hg a ha)

/-- A traversal keeps what its steps keep. -/
theorem keeps_mapM {f : α → Rendering β} {xs : List α} (h : ∀ x ∈ xs, Keeps Q (f x)) :
    Keeps (∀ b ∈ ·, Q b) (xs.mapM f) := by
  induction xs with
  | nil => exact keeps_pure (by simp)
  | cons x xs ih =>
    obtain ⟨hx, hxs⟩ := List.forall_mem_cons.mp h
    rw [List.mapM_cons]
    refine hx.bind fun b hb => (ih hxs).bind fun bs hbs => ?_
    exact keeps_pure (List.forall_mem_cons.mpr ⟨hb, hbs⟩)

theorem keeps_bindCaptured {v : Variable} (hv : v.value.Unbroken) :
    Keeps OneLine (Rendering.bind (·.bindCaptured v)) :=
  fun _ _ _ ht h => ht.bindCaptured hv ((yields_step _ _ _ _).mp h)

theorem keeps_bindLiteral {v : Value} (hv : v.Unbroken) :
    Keeps OneLine (Rendering.bind (·.bindLiteral v)) :=
  fun _ _ _ ht h => ht.bindLiteral hv ((yields_step _ _ _ _).mp h)

end Rendering

variable {s : Scope}

def ColumnRef.Unbroken (s : Scope) (c : ColumnRef) : Prop :=
  ∀ column, s.aliases.resolve s.names c = .ok column → OneLine column.qualified

theorem ColumnRef.Unbroken.keeps {c : ColumnRef} (hc : c.Unbroken s) :
    Keeps (fun column => OneLine column.qualified) (s.column c) :=
  keeps_ofExcept hc

theorem Value.Unbroken.renderLiteral {v : Value} (hv : v.Unbroken) :
    Keeps OneLine v.renderLiteral := by
  cases v with
  | int n => exact keeps_pure (spelled_decimal n).oneLine_of_number
  | float x => exact keeps_ofExcept fun _ hx => (x.spelled_sqlNumber hx).oneLine_of_number
  | bool b => exact keeps_pure (by cases b <;> decide)
  | list items => exact keeps_throw _
  | null => exact keeps_throw _
  | char c => exact keeps_bindLiteral hv
  | text s => exact keeps_bindLiteral hv
  | date d => exact keeps_bindLiteral hv

namespace Operand

def Unbroken (s : Scope) : Operand → Prop
  | column c => c.Unbroken s
  | captured v => v.value.Unbroken
  | literal v => v.Unbroken
  | dateParts .. => True

theorem Unbroken.column? {o : Operand} (ho : o.Unbroken s) {c : ColumnRef}
    (hc : o.column? = some c) : c.Unbroken s := by
  cases o <;> cases hc
  exact ho

/-- An operand in one line is rendered in one line. -/
theorem Unbroken.render {o : Operand} (ho : o.Unbroken s) : Keeps OneLine (o.render s) := by
  cases o with
  | column c => exact (ColumnRef.Unbroken.keeps ho).map fun _ hcolumn => hcolumn
  | captured v => exact keeps_bindCaptured ho
  | literal v => exact Value.Unbroken.renderLiteral ho
  | dateParts year month day =>
    rw [Operand.render]
    cases Date.ofParts? year month day with
    | none => exact keeps_throw _
    | some d => exact keeps_bindLiteral (v := .date d) trivial

end Operand

theorem CompareOp.oneLine_nullTest {op : CompareOp} {column text : String}
    (hcolumn : OneLine column) (h : op.nullTest column = .ok text) : OneLine text := by
  cases op <;> cases h
  · exact .append hcolumn (by decide)
  · exact .append hcolumn (by decide)

theorem ResolvedColumn.keeps_renderItem {c : ResolvedColumn} {item : Value}
    (hitem : item.Unbroken) : Keeps OneLine (c.renderItem item) := by
  unfold renderItem
  split
  -- Numbers are written out.
  · exact keeps_pure (spelled_decimal _).oneLine_of_number
  · exact keeps_pure (spelled_decimal _).oneLine_of_number
  · exact keeps_ofExcept fun _ hx => (Binary64.spelled_sqlNumber hx).oneLine_of_number
  · exact keeps_ofExcept fun _ hx => (Binary64.spelled_sqlNumber hx).oneLine_of_number
  -- Texts and characters are bound.
  · exact keeps_bindLiteral hitem
  · exact keeps_bindLiteral hitem
  · exact keeps_bindLiteral hitem
  · exact keeps_bindLiteral hitem
  -- Dates are written out too; nothing else is an item.
  · exact keeps_pure (.append (.append (by decide) (Date.oneLine_sqlText _)) (by decide))
  · exact keeps_throw _
  · exact keeps_throw _

theorem oneLine_doubleQuotes {cs : List Char} (h : ∀ c ∈ cs, (!isBreak c) = true) :
    ∀ c ∈ Text.doubleQuotes cs, (!isBreak c) = true := by
  intro c hc
  obtain ⟨d, hd, hcd⟩ := List.mem_flatMap.mp hc
  -- A quote becomes two of them, and every other character stays.
  by_cases hquote : d = '\''
  · have hc : c = '\'' := by simpa [hquote] using hcd
    rw [hc]
    rfl
  · obtain rfl : c = d := by simpa [hquote] using hcd
    exact h c hd

namespace PatternShape

/-- A wildcard is a line break only if its character is one. -/
theorem isBreak_wildcard (c : Char) : isBreak (wildcard c) = isBreak c := by
  unfold wildcard
  split
  · next h =>
    rw [h]
    rfl
  · split
    · next h =>
      rw [h]
      rfl
    · rfl

/-- A pattern in one line looks for a text in one line. -/
theorem oneLine_pattern (shape : PatternShape) {text : String} (h : OneLine text) :
    ∀ c ∈ shape.pattern text.toList, (!isBreak c) = true := by
  have hpercent : (!isBreak '%') = true := rfl
  have hwild : ∀ c ∈ text.toList.map wildcard, (!isBreak c) = true := by
    intro c hc
    obtain ⟨d, hd, rfl⟩ := List.mem_map.mp hc
    rw [isBreak_wildcard]
    exact h d hd
  have hbehind {cs : List Char} (hcs : ∀ c ∈ cs, (!isBreak c) = true) :
      ∀ c ∈ cs ++ ['%'], (!isBreak c) = true :=
    List.forall_mem_append.mpr ⟨hcs, List.forall_mem_singleton.mpr hpercent⟩
  cases shape with
  | startsWith => exact hbehind h
  | endsWith => exact List.forall_mem_cons.mpr ⟨hpercent, h⟩
  | like => exact List.forall_mem_cons.mpr ⟨hpercent, hbehind hwild⟩
  | notLike => exact List.forall_mem_cons.mpr ⟨hpercent, hbehind hwild⟩

theorem oneLine_test (shape : PatternShape) {text : String} (h : OneLine text) :
    OneLine (shape.test text) := by
  have hquoted := oneLine_doubleQuotes (shape.oneLine_pattern h)
  have hoperator : OneLine shape.operator := by cases shape <;> decide
  rw [test_eq]
  refine .append (.append hoperator (by decide)) (.ofList ?_)
  refine List.forall_mem_cons.mpr ⟨rfl, List.forall_mem_append.mpr ⟨hquoted, ?_⟩⟩
  exact List.forall_mem_singleton.mpr rfl

end PatternShape

namespace Condition

-- No line break is in the names of the columns and in the texts that they are compared with.
def Unbroken (s : Scope) : Condition → Prop
  | compare left _ right => left.Unbroken s ∧ right.Unbroken s
  | inList column _ source =>
    column.Unbroken s ∧
      ∀ items, source.items? s.options = .ok (some items) → ∀ item ∈ items, item.Unbroken
  | pattern column _ source =>
    column.Unbroken s ∧ ∀ text, source.text? = .ok (some text) → OneLine text
  | isNull column _ => column.Unbroken s

theorem keeps_renderNullTest {left right : Operand} (op : CompareOp) (hl : left.Unbroken s)
    (hr : right.Unbroken s) : Keeps OneLine (renderNullTest s left op right) := by
  unfold renderNullTest
  cases hc : left.column? <|> right.column? with
  | none => exact keeps_throw _
  | some c =>
    have hcolumn : c.Unbroken s := by
      cases hleft : left.column? with
      | none =>
        rw [hleft] at hc
        exact hr.column? hc
      | some c' =>
        rw [hleft] at hc
        cases hc
        exact hl.column? hleft
    exact hcolumn.keeps.bind fun column hqualified =>
      keeps_ofExcept fun _ => CompareOp.oneLine_nullTest hqualified

theorem keeps_renderCompare {left right : Operand} (op : CompareOp) (hl : left.Unbroken s)
    (hr : right.Unbroken s) : Keeps OneLine (renderCompare s left op right) := by
  have hoperator : OneLine op.sql := by cases op <;> decide
  unfold renderCompare
  split
  · split
    · exact keeps_pure (by decide)
    · exact keeps_renderNullTest op hl hr
  · split
    · exact keeps_renderNullTest op hl hr
    · refine hl.render.bind fun l hl => hr.render.bind fun r hr => keeps_pure ?_
      have hfront : OneLine (l ++ " " ++ op.sql) := .append (.append hl (by decide)) hoperator
      exact .append (.append hfront (by decide)) hr

theorem keeps_renderPattern {column : ColumnRef} (shape : PatternShape) {source : PatternSource}
    (hcolumn : column.Unbroken s)
    (hsource : ∀ text, source.text? = .ok (some text) → OneLine text) :
    Keeps OneLine (renderPattern s column shape source) := by
  have hgiven (text? : Option String) (h : source.text? = .ok text?) :
      ∀ text ∈ text?, OneLine text := by
    rintro text rfl
    exact hsource text h
  refine hcolumn.keeps.bind fun c hc => (keeps_ofExcept hgiven).bind fun text? htext => ?_
  cases text? with
  | none => exact keeps_pure (by decide)
  | some text =>
    dsimp only
    split
    · exact keeps_pure (by decide)
    · exact keeps_pure (.append (.append hc (by decide)) (shape.oneLine_test (htext text rfl)))

theorem keeps_renderList {column : ColumnRef} (negated : Bool) {source : ListSource}
    (hcolumn : column.Unbroken s)
    (hsource : ∀ items, source.items? s.options = .ok (some items) → ∀ v ∈ items, v.Unbroken) :
    Keeps OneLine (renderList s column negated source) := by
  have hgiven (items? : Option (List Value)) (h : source.items? s.options = .ok items?) :
      ∀ items ∈ items?, ∀ v ∈ items, v.Unbroken := by
    rintro items rfl
    exact hsource items h
  have hopen : OneLine (if negated then " not in (" else " in (") := by cases negated <;> decide
  refine hcolumn.keeps.bind fun c hc => (keeps_ofExcept hgiven).bind fun items? hitems => ?_
  cases items? with
  | none => exact keeps_pure (by decide)
  | some items =>
    dsimp only
    split
    · exact keeps_throw _
    · have hrender : Keeps (∀ text ∈ ·, OneLine text) (c.renderItems items) := by
        rw [c.renderItems_eq_mapM]
        exact keeps_mapM fun v hv => c.keeps_renderItem (hitems items rfl v hv)
      refine hrender.bind fun texts htexts => keeps_pure ?_
      have hlist := oneLine_intercalate (by decide : OneLine ", ") htexts
      exact .append (.append (.append hc hopen) hlist) (by decide)

/-- A condition adds no line breaks to those of its columns and texts. -/
theorem Unbroken.render {c : Condition} (hc : c.Unbroken s) : Keeps OneLine (c.render s) := by
  cases c with
  | compare left op right => exact keeps_renderCompare op hc.1 hc.2
  | inList column negated source => exact keeps_renderList negated hc.1 hc.2
  | pattern column shape source => exact keeps_renderPattern shape hc.1 hc.2
  | isNull column negated =>
    have hend : OneLine (if negated then " is not null" else " is null") := by
      cases negated <;> decide
    exact (ColumnRef.Unbroken.keeps hc).bind fun c hc => keeps_pure (.append hc hend)

end Condition

/-- The whole filter is compiled to lines. -/
theorem Predicate.keeps_compile {p : Predicate} (hp : ∀ c ∈ p.conditions, c.Unbroken s) :
    Keeps (fun lines => ∀ text ∈ WhereLine.texts lines, OneLine text) (p.compile s) := by
  intro t lines u ht h
  have hconditions : Keeps (∀ text ∈ ·, OneLine text) (p.conditions.mapM (Condition.render s)) :=
    keeps_mapM fun c hc => (hp c hc).render
  exact hconditions t _ u ht (yields_texts.mpr ⟨lines, h, rfl⟩)

end SqlSelect
