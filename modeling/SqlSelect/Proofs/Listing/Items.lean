import SqlSelect.Proofs.Parameter.Call
import SqlSelect.Proofs.Where.Pruning

/-! The items of a list test. Either each of them is written, in order and against one table, or the
first one that the column cannot hold is at fault. -/
namespace SqlSelect

open Rendering ParameterTable

def DataKind.fits (kind : DataKind) : Value → Bool
  | .int _ => kind.isNumeric
  | .float x => kind.isNumeric && x.isFinite
  | .char _ | .text _ => kind = .char || kind = .text
  | .date _ => kind = .datetime
  | _ => false

def Value.isText : Value → Bool
  | char _ | text _ => true
  | _ => false

def ResolvedColumn.unfit (c : ResolvedColumn) (item : Value) : Fault :=
  match c.kind, item with
  | .bool, _ => .notImplemented (.listOverBool c.qualified)
  | .int, .float x | .decimal, .float x => .invalidValue (.notANumber x)
  | _, item => c.mismatch item

def ResolvedColumn.listTest (c : ResolvedColumn) (negated : Bool) (texts : List String) : String :=
  c.qualified ++ (if negated then " not in (" else " in (") ++ String.intercalate ", " texts ++ ")"

namespace ParameterTable

structure HasLiteral (t : ParameterTable) (p : Parameter) : Prop where
  found : t.find? p.name = some p
  mem : p ∈ t.literals

-- How an item is written: a number or a date as itself, a text by the name of its parameter.
inductive Writes (t : ParameterTable) : Value → String → Prop
  | int (n : Int) : Writes t (.int n) (Text.decimal n)
  | float {x : Binary64} (hx : x.isFinite = true) : Writes t (.float x) x.text
  | date (d : Date) : Writes t (.date d) ("convert(datetime, '" ++ d.sqlText ++ "', 106)")
  | char {c : Char} {name : String} (h : t.HasLiteral ⟨name, String.singleton c, .nchar⟩) :
      Writes t (.char c) name
  | text {s name : String} (h : t.HasLiteral ⟨name, s, .nvarchar⟩) : Writes t (.text s) name

variable {t u : ParameterTable}

theorem Consistent.hasLiteral (h : t.Consistent) {p : Parameter} (hp : p ∈ t.literals) :
    t.HasLiteral p :=
  ⟨h.find?_of_mem (mem_parameters_of_mem_literals hp), hp⟩

/-- A literal that is found by its name is found later. -/
theorem HasLiteral.grows {p : Parameter} (h : t.HasLiteral p) (ht : t.Consistent)
    (hu : u.Consistent) (hgrows : t.Grows u) : u.HasLiteral p :=
  hu.hasLiteral ((hgrows.literals ht.placed).subset h.mem)

/-- What is bound later leaves an item as it is written. -/
theorem Writes.grows {item : Value} {text : String} (h : t.Writes item text) (ht : t.Consistent)
    (hu : u.Consistent) (hgrows : t.Grows u) : u.Writes item text := by
  cases h with
  | int n => exact .int n
  | float hx => exact .float hx
  | date d => exact .date d
  | char h => exact .char (h.grows ht hu hgrows)
  | text h => exact .text (h.grows ht hu hgrows)

/-- Texts share a parameter exactly if they are equal; a character is never equal to a text. -/
theorem Writes.eq_iff (h : t.Consistent) {item item' : Value} {text text' : String}
    (hitem : item.isText = true) (hitem' : item'.isText = true) (hw : t.Writes item text)
    (hw' : t.Writes item' text') : text = text' ↔ item = item' := by
  cases hw with
  | int | float | date => cases hitem
  | char hp =>
    cases hw' with
    | int | float | date => cases hitem'
    | char hp' => simp [h.name_eq_iff hp.mem hp'.mem, String.singleton_inj]
    | text hp' => simp [h.name_eq_iff hp.mem hp'.mem]
  | text hp =>
    cases hw' with
    | int | float | date => cases hitem'
    | char hp' => simp [h.name_eq_iff hp.mem hp'.mem]
    | text hp' => simp [h.name_eq_iff hp.mem hp'.mem]

end ParameterTable

namespace ResolvedColumn

variable {c : ResolvedColumn} {t : ParameterTable} {item : Value} {items : List Value}

/-- An item that is a text or a character is bound as a literal. -/
theorem renderItem_of_isText (htext : item.isText = true) (hfits : c.kind.fits item = true) :
    c.renderItem item = Rendering.bind (·.bindLiteral item) := by
  cases item <;> cases htext <;> cases hkind : c.kind <;>
    simp_all [DataKind.fits, renderItem]

/-- A text that fits the column is written as the name of its parameter. -/
theorem exists_yields_text (h : t.Consistent) {kind : ParameterKind} {value : String}
    (htext : item.isText = true) (hfits : c.kind.fits item = true)
    (hclass : item.classify = .ok (kind, value)) :
    ∃ name u, Yields (c.renderItem item) t name u ∧ u.Consistent ∧ t.Grows u ∧
      u.HasLiteral ⟨name, value, kind⟩ := by
  obtain ⟨name, u, hbind, hmem, -⟩ := h.exists_bindLiteral hclass
  have hu : u.Consistent := h.binds (.literal hbind)
  rw [renderItem_of_isText htext hfits]
  exact ⟨name, u, (yields_step _ _ _ _).mpr hbind, hu, (Binds.literal hbind).grows,
    hu.hasLiteral hmem⟩

/-- An item that fits is written, and the table is only added to. -/
theorem exists_yields_renderItem (h : t.Consistent) (hfits : c.kind.fits item = true) :
    ∃ text u, Yields (c.renderItem item) t text u ∧ u.Consistent ∧ t.Grows u ∧
      u.Writes item text := by
  cases item with
  | null | bool b | list vs => cases hfits
  | int n =>
    have hrender : c.renderItem (.int n) = pure (Text.decimal n) := by
      cases hkind : c.kind <;> simp_all [DataKind.fits, DataKind.isNumeric, renderItem]
    rw [hrender]
    exact ⟨_, t, rfl, h, .refl t, .int n⟩
  | float x =>
    obtain ⟨hnumeric, hx⟩ : c.kind.isNumeric = true ∧ x.isFinite = true := by
      simpa [DataKind.fits] using hfits
    have hrender : c.renderItem (.float x) = pure x.text := by
      cases hkind : c.kind <;>
        simp_all [DataKind.isNumeric, renderItem, Binary64.sqlNumber, Rendering.ofExcept]
    rw [hrender]
    exact ⟨_, t, rfl, h, .refl t, .float hx⟩
  | date d =>
    have hrender : c.renderItem (.date d) =
        pure ("convert(datetime, '" ++ d.sqlText ++ "', 106)") := by
      cases hkind : c.kind <;> simp_all [DataKind.fits, renderItem]
    rw [hrender]
    exact ⟨_, t, rfl, h, .refl t, .date d⟩
  | char x =>
    obtain ⟨name, u, hyields, hu, hgrows, hp⟩ := exists_yields_text h rfl hfits rfl
    exact ⟨name, u, hyields, hu, hgrows, .char hp⟩
  | text x =>
    obtain ⟨name, u, hyields, hu, hgrows, hp⟩ := exists_yields_text h rfl hfits rfl
    exact ⟨name, u, hyields, hu, hgrows, .text hp⟩

/-- An item that does not fit the column is refused. -/
theorem renderItem_of_unfit (hfits : c.kind.fits item = false) :
    c.renderItem item = throw (c.unfit item) := by
  cases item <;> cases hkind : c.kind <;>
    simp_all [DataKind.fits, DataKind.isNumeric, renderItem, unfit, Binary64.sqlNumber,
      Rendering.ofExcept]

/-- Later items do not disturb what the earlier ones refer to. -/
theorem exists_yields_renderItems (h : t.Consistent)
    (hfits : ∀ item ∈ items, c.kind.fits item = true) :
    ∃ texts u, Yields (c.renderItems items) t texts u ∧ u.Consistent ∧ t.Grows u ∧
      List.Forall₂ u.Writes items texts := by
  induction items generalizing t with
  | nil => exact ⟨[], t, rfl, h, .refl t, .nil⟩
  | cons item items ih =>
    rw [List.forall_mem_cons] at hfits
    obtain ⟨text, v, hyields, hv, hgrows, hwrites⟩ := exists_yields_renderItem h hfits.1
    obtain ⟨texts, u, hyields', hu, hgrows', hwrites'⟩ := ih hv hfits.2
    refine ⟨text :: texts, u, ?_, hu, hgrows.trans hgrows', .cons ?_ hwrites'⟩
    · simp only [renderItems, yields_bind, yields_pure]
      exact ⟨text, v, hyields, texts, u, hyields', rfl, rfl⟩
    · exact hwrites.grows hv hu hgrows'

/-- The items before the first that does not fit are written in vain. -/
theorem exists_run_renderItems_of_unfit (h : t.Consistent)
    (hunfit : items.find? (fun item => !c.kind.fits item) = some item) :
    ∃ u, (c.renderItems items).run t = (.error (c.unfit item), u) := by
  induction items generalizing t with
  | nil => cases hunfit
  | cons first items ih =>
    rw [renderItems]
    cases hfits : c.kind.fits first with
    | false =>
      obtain rfl : first = item := by simpa [hfits] using hunfit
      rw [renderItem_of_unfit hfits]
      exact ⟨t, rfl⟩
    | true =>
      obtain ⟨text, v, hyields, hv, -⟩ := exists_yields_renderItem h hfits
      obtain ⟨u, hu⟩ := ih hv (by simpa [hfits] using hunfit)
      refine ⟨u, ?_⟩
      rw [run_bind, hyields]
      dsimp only
      rw [run_bind, hu]

end ResolvedColumn

inductive ResolvedColumn.Lists (c : ResolvedColumn) (policy : EmptyListPolicy) (items : List Value)
    (u : ParameterTable) : Except Fault (List String) → Prop
  | empty (hnil : items = []) (hfail : policy = .fail) :
      c.Lists policy items u (.error (.usage (.emptyList c.qualified)))
  | unfit {item : Value} (hfind : items.find? (fun item => !c.kind.fits item) = some item) :
      c.Lists policy items u (.error (c.unfit item))
  | written {texts : List String} (hallowed : items ≠ [] ∨ policy = .render)
      (hfits : ∀ item ∈ items, c.kind.fits item = true) (hu : u.Consistent)
      (hwrites : List.Forall₂ u.Writes items texts) : c.Lists policy items u (.ok texts)

namespace ResolvedColumn.Lists

variable {c : ResolvedColumn} {policy : EmptyListPolicy} {items : List Value} {u : ParameterTable}
  {outcome : Except Fault (List String)}

/-- A list is written exactly if all its items fit, and if it may be empty in case it is. -/
theorem exists_ok_iff (h : c.Lists policy items u outcome) :
    (∃ texts, outcome = .ok texts) ↔
      (items ≠ [] ∨ policy = .render) ∧ ∀ item ∈ items, c.kind.fits item = true := by
  cases h with
  | empty hnil hfail => simp [hnil, hfail]
  | @unfit item hfind =>
    have hitem : c.kind.fits item = false := by simpa using List.find?_some hfind
    constructor
    · rintro ⟨texts, ⟨⟩⟩
    · rintro ⟨-, hfits⟩
      rw [hfits item (List.mem_of_find?_eq_some hfind)] at hitem
      cases hitem
  | written hallowed hfits => exact ⟨fun _ => ⟨hallowed, hfits⟩, fun _ => ⟨_, rfl⟩⟩

/-- The texts of a list stand for its items, and one name for one text. -/
theorem writes {texts : List String} (h : c.Lists policy items u (.ok texts)) :
    List.Forall₂ u.Writes items texts ∧
      ∀ a ∈ items.zip texts, ∀ b ∈ items.zip texts, a.1.isText = true → b.1.isText = true →
        (a.2 = b.2 ↔ a.1 = b.1) := by
  cases h with
  | written hallowed hfits hu hwrites =>
    refine ⟨hwrites, fun a ha b hb hatext hbtext => ?_⟩
    have hzip : ∀ p ∈ items.zip texts, u.Writes p.1 p.2 := fun p hp =>
      (List.forall₂_iff_zip.mp hwrites).2 hp
    exact (hzip a ha).eq_iff hu hatext hbtext (hzip b hb)

/-- The fault of a list is that of its first item that does not fit, or that of an empty list. -/
theorem fault {f : Fault} (h : c.Lists policy items u (.error f)) :
    (items = [] ∧ f = .usage (.emptyList c.qualified)) ∨
      ∃ item, items.find? (fun item => !c.kind.fits item) = some item ∧ f = c.unfit item := by
  cases h with
  | empty hnil => exact .inl ⟨hnil, rfl⟩
  | unfit hfind => exact .inr ⟨_, hfind, rfl⟩

end ResolvedColumn.Lists

namespace Condition

variable {s : Scope} {c : ResolvedColumn} {column : ColumnRef} {items : List Value}

/-- A list of values is checked to have items, and then written item by item. -/
theorem renderList_of_values (hc : s.aliases.resolve s.names column = .ok c) (negated : Bool) :
    renderList s column negated (.values items) =
      if items = [] ∧ s.options.emptyInList = .fail then throw (.usage (.emptyList c.qualified))
      else c.listTest negated <$> c.renderItems items := by
  have hcolumn : s.column column = pure c := by
    rw [Scope.column, hc]
    rfl
  have hitems : Rendering.ofExcept ((ListSource.values items).items? s.options) =
      pure (some items) := rfl
  rw [renderList, hcolumn, pure_bind, hitems, pure_bind]
  by_cases hempty : items = [] ∧ s.options.emptyInList = .fail
  · simp [hempty]
  · have hkept : (items.isEmpty && decide (s.options.emptyInList = .fail)) = false := by
      simpa using hempty
    rw [if_neg hempty, map_eq_pure_bind]
    simp [hkept, ResolvedColumn.listTest]

/-- A captured list of dates is a list of these dates. -/
theorem renderList_of_captured {v : Variable} (hv : v.value = .list items)
    (hdates : ∀ item ∈ items, item.isDate = true) (negated : Bool) :
    renderList s column negated (.captured v) = renderList s column negated (.values items) := by
  have hsource : (ListSource.captured v).items? s.options =
      (ListSource.values items).items? s.options := by
    have hall : items.all Value.isDate = true := List.all_eq_true.mpr hdates
    simp [ListSource.items?, hv, hall]
  rw [renderList, renderList, hsource]

/-- One outcome and one table, whether the test is negated or not. -/
theorem exists_lists_renderList (hc : s.aliases.resolve s.names column = .ok c)
    {t : ParameterTable} (h : t.Consistent) :
    ∃ outcome u, c.Lists s.options.emptyInList items u outcome ∧
      ∀ negated, (renderList s column negated (.values items)).run t =
        (outcome.map (c.listTest negated), u) := by
  by_cases hempty : items = [] ∧ s.options.emptyInList = .fail
  · refine ⟨_, t, .empty hempty.1 hempty.2, fun negated => ?_⟩
    rw [renderList_of_values hc, if_pos hempty]
    rfl
  · cases hfind : items.find? (fun item => !c.kind.fits item) with
    | none =>
      have hfits : ∀ item ∈ items, c.kind.fits item = true := by simpa using hfind
      have hallowed : items ≠ [] ∨ s.options.emptyInList = .render := by
        rw [not_and_or] at hempty
        cases hpolicy : s.options.emptyInList <;> simp_all
      obtain ⟨texts, u, hyields, hu, -, hwrites⟩ := c.exists_yields_renderItems h hfits
      refine ⟨_, u, .written hallowed hfits hu hwrites, fun negated => ?_⟩
      rw [renderList_of_values hc, if_neg hempty, run_map, hyields]
    | some item =>
      obtain ⟨u, hrun⟩ := c.exists_run_renderItems_of_unfit h hfind
      refine ⟨_, u, .unfit hfind, fun negated => ?_⟩
      rw [renderList_of_values hc, if_neg hempty, run_map, hrun]

/-- A list is written as a whole or not at all, whatever calls came before: if each of its items
fits the column, and if it may be empty in case it is. Then there is one text for each item, which
stands for that item in the table that the whole list leaves. The negated test differs in nothing
but its keyword, and a captured list of dates is tested as the dates themselves. -/
theorem renderList_values (calls : List TableCall) (s : Scope) (column : ColumnRef)
    (c : ResolvedColumn) (hc : s.aliases.resolve s.names column = .ok c) (items : List Value) :
    ∃ (outcome : Except Fault (List String)) (u : ParameterTable),
      (∀ negated, (renderList s column negated (.values items)).run (run {} calls) =
        (outcome.map (c.listTest negated), u)) ∧
      ((∃ texts, outcome = .ok texts) ↔
        (items ≠ [] ∨ s.options.emptyInList = .render) ∧
          ∀ item ∈ items, c.kind.fits item = true) ∧
      (∀ texts, outcome = .ok texts → List.Forall₂ u.Writes items texts ∧
        ∀ a ∈ items.zip texts, ∀ b ∈ items.zip texts, a.1.isText = true → b.1.isText = true →
          (a.2 = b.2 ↔ a.1 = b.1)) ∧
      (∀ f, outcome = .error f →
        (items = [] ∧ f = .usage (.emptyList c.qualified)) ∨
          ∃ item, items.find? (fun item => !c.kind.fits item) = some item ∧ f = c.unfit item) ∧
      ∀ (v : Variable) negated, v.value = .list items → (∀ item ∈ items, item.isDate = true) →
        renderList s column negated (.captured v) =
          renderList s column negated (.values items) := by
  obtain ⟨outcome, u, hlists, hrun⟩ := exists_lists_renderList hc (consistent_empty.run calls)
  refine ⟨outcome, u, hrun, hlists.exists_ok_iff, ?_, ?_, ?_⟩
  · rintro texts rfl
    exact hlists.writes
  · rintro f rfl
    exact hlists.fault
  · intro v negated hv hdates
    exact renderList_of_captured hv hdates negated

end Condition

namespace Demo

def firstName : ColumnRef := .property student "FirstName"

def resolvedFirstName : ResolvedColumn := ⟨"s", student, "FirstName", "first_name", .text⟩

-- One text comes twice, and one looks like the character.
def listedNames : List Value := [.text "Ann", .char 'B', .text "B", .text "Ann"]

end Demo

/-- A character and a text that look alike have parameters of their own, and the text that comes
twice has one. -/
theorem Condition.renderList_values_names :
    Demo.studentScope.aliases.resolve Demo.studentScope.names Demo.firstName =
        .ok Demo.resolvedFirstName ∧
      ∃ texts u,
        Yields (renderList Demo.studentScope Demo.firstName true (.values Demo.listedNames))
          (run {} Demo.crowdedNames)
          "s.first_name not in (@param_value_1, @param_value_4, @param_value_5, @param_value_1)" u ∧
        List.Forall₂ u.Writes Demo.listedNames texts ∧
        u.find? "@param_value_1" = some ⟨"@param_value_1", "Ann", .nvarchar⟩ ∧
        u.find? "@param_value_4" = some ⟨"@param_value_4", "B", .nchar⟩ ∧
        u.find? "@param_value_5" = some ⟨"@param_value_5", "B", .nvarchar⟩ := by
  obtain ⟨outcome, u, hrun, hok, hwrites, -⟩ :=
    renderList_values Demo.crowdedNames Demo.studentScope Demo.firstName Demo.resolvedFirstName rfl
      Demo.listedNames
  obtain ⟨texts, rfl⟩ := hok.mpr ⟨.inl (by simp [Demo.listedNames]), by decide⟩
  obtain ⟨hwrites, -⟩ := hwrites texts rfl
  have hyields :
      Yields (renderList Demo.studentScope Demo.firstName true (.values Demo.listedNames))
        (run {} Demo.crowdedNames)
        "s.first_name not in (@param_value_1, @param_value_4, @param_value_5, @param_value_1)" _ :=
    rfl
  obtain ⟨-, rfl⟩ := Prod.mk.inj ((hrun true).symm.trans hyields)
  exact ⟨rfl, texts, _, hyields, hwrites, by decide +kernel, by decide +kernel, by decide +kernel⟩

end SqlSelect
