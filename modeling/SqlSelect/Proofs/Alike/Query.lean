import SqlSelect.Proofs.Alike.Condition
import SqlSelect.Proofs.Query.Call
import SqlSelect.Schema.Demo

/-! Two chains of calls that differ in the values which are bound make the same query text. -/
namespace SqlSelect

open Rendering

variable (L : LiteralPairing)

inductive SelectItem.Alike : SelectItem → SelectItem → Prop
  | column (c : ColumnRef) : Alike (.column c) (.column c)
  | captured {v w : Variable} (h : v.Alike w) : Alike (.captured v) (.captured w)
  | null : Alike .null .null

inductive JoinSpec.Alike : JoinSpec → JoinSpec → Prop
  | same (spec : JoinSpec) : Alike spec spec
  | predicate {p p' : Predicate} (h : p.Alike L p') : Alike (.predicate p) (.predicate p')

def Call.takesValues : Call → Bool
  | select _ | join .. | filter _ => true
  | _ => false

-- The same call, but for the values to be bound.
inductive Call.Alike : Call → Call → Prop
  | same {call : Call} (h : call.takesValues = false) : Alike call call
  | select {items items' : List SelectItem} (h : List.Forall₂ SelectItem.Alike items items') :
      Alike (.select items) (.select items')
  | join (kind : JoinKind) {spec spec' : JoinSpec} (h : spec.Alike L spec') :
      Alike (.join kind spec) (.join kind spec')
  | filter {p p' : Predicate} (h : p.Alike L p') : Alike (.filter p) (.filter p')

namespace Query

def withBound (q : Query) (filter : Option Predicate) (parameters : ParameterTable) : Query :=
  { q with filter, parameters }

theorem ofKind_withBound (q : Query) (filter : Option Predicate) (t : ParameterTable)
    (kind : StatementKind) :
    (q.withBound filter t).ofKind kind = (·.withBound filter t) <$> q.ofKind kind := by
  unfold ofKind
  cases hkind : q.kind with
  | none => simp [withBound, hkind]
  | some current => by_cases h : current = kind <;> simp [withBound, hkind, h]

inductive Alike : Query → Query → Prop
  | of (q : Query) {filter filter' : Option Predicate} {t t' : ParameterTable}
      (hfilter : Option.Rel (Predicate.Alike L) filter filter') (ht : t.Alike L t') :
      Alike (q.withBound filter t) (q.withBound filter' t')

variable {L} {q : Query} {filter filter' : Option Predicate} {t t' : ParameterTable}

section Frame

variable (q) (hfilter : Option.Rel (Predicate.Alike L) filter filter') (ht : t.Alike L t')
include hfilter ht

theorem agree_registerAll (pairs : List (Entity × String)) :
    Except.Agree (Alike L) ((q.withBound filter t).registerAll pairs)
      ((q.withBound filter' t').registerAll pairs) := by
  rw [registerAll_eq_map, registerAll_eq_map]
  exact (Except.Agree.refl (fun _ => rfl) (q.aliases.registerAll pairs)).map
    fun aliases _ hsame => hsame ▸ .of { q with aliases } hfilter ht

theorem agree_ofKind (kind : StatementKind) :
    Except.Agree (Alike L) ((q.withBound filter t).ofKind kind)
      ((q.withBound filter' t').ofKind kind) := by
  rw [ofKind_withBound, ofKind_withBound]
  exact (Except.Agree.refl (fun _ => rfl) (q.ofKind kind)).map
    fun q _ hsame => hsame ▸ .of q hfilter ht

theorem agree_startStatement (kind : StatementKind) (e : Entity) :
    Except.Agree (Alike L) ((q.withBound filter t).startStatement kind e)
      ((q.withBound filter' t').startStatement kind e) := by
  refine (agree_ofKind q hfilter ht kind).bind ?_
  rintro _ _ ⟨q, hfilter, ht⟩
  exact .ok (.of { q with source := some e } hfilter ht)

theorem agree_orderColumns (columns : List ColumnRef) :
    Except.Agree (Alike L) ((q.withBound filter t).orderColumns columns)
      ((q.withBound filter' t').orderColumns columns) := by
  induction columns generalizing q with
  | nil => exact .ok (.of q hfilter ht)
  | cons c cs ih =>
    refine .bind_same (q.aliases.resolve q.names c) fun column => ?_
    refine .ite (q.isSelected column = true) ?_ (.error _ _)
    exact ih { q with orderBy := q.orderBy ++ [column] }

/-- The other calls neither read nor change what is bound. -/
theorem agree_apply {call : Call} (h : call.takesValues = false) :
    Except.Agree (Alike L) ((q.withBound filter t).apply call)
      ((q.withBound filter' t').apply call) := by
  cases call with
  | withOptions options => exact .ok (.of (q.withOptions options) hfilter ht)
  | withResolver names => exact .ok (.of (q.withResolver names) hfilter ht)
  | tableAliases pairs =>
    refine (agree_registerAll q hfilter ht pairs).bind fun q q' hq => ?_
    cases pairs with
    | nil => exact .error _ _
    | cons p pairs => exact .ok hq
  | tableAlias e name =>
    exact .bind_same (finished (q.aliases.register e name)) fun registered =>
      .ok (.of { q with aliases := registered.2 } hfilter ht)
  | distinct => exact .ok (.of q.makeDistinct hfilter ht)
  | select items => cases h
  | columnAliases labels =>
    refine .ite (labels.length ≠ q.columns.length) (.error _ _) ?_
    exact .bind_same (labelColumns q.columns labels) fun columns =>
      .ok (.of { q with columns, columnsNamed := true } hfilter ht)
  | selectFrom e =>
    exact .bind_same (q.aliases.aliasFor e) fun _ =>
      .ok (.of { q with source := some e } hfilter ht)
  | join kind spec => cases h
  | filter p => cases h
  | orderBy columns => exact agree_orderColumns q hfilter ht columns
  | insertInto e => exact agree_startStatement q hfilter ht .insert e
  | update e => exact agree_startStatement q hfilter ht .update e
  | deleteFrom e => exact agree_startStatement q hfilter ht .delete e

end Frame

end Query

variable {L}

/-- Only conditions without values are equalities of columns. -/
theorem Predicate.Alike.agree_columnPairs {p p' : Predicate} (h : p.Alike L p') :
    Except.Agree Eq p.columnPairs p'.columnPairs := by
  induction h with
  | logical op _ _ ihp ihq =>
    cases op with
    | and =>
      refine ihp.bind fun left _ hleft => ?_
      refine ihq.bind fun right _ hright => ?_
      exact .ok (hleft ▸ hright ▸ rfl)
    | or => exact .error _ _
  | condition h =>
    cases h with
    | compare op hl hr =>
      cases hl with
      | column c =>
        cases hr with
        | column c' => exact .refl (fun _ => rfl) _
        | _ => cases op <;> exact .error _ _
      | _ => cases op <;> exact .error _ _
    | _ => exact .error _ _

/-- Joins that are alike resolve to the same clause. -/
theorem JoinSpec.Alike.agree_resolve {spec spec' : JoinSpec} (h : spec.Alike L spec')
    (kind : JoinKind) (aliases : AliasRegistry) (names : Resolver) :
    Except.Agree Eq (spec.resolve kind aliases names) (spec'.resolve kind aliases names) := by
  cases h with
  | same => exact .refl (fun _ => rfl) _
  | predicate h =>
    refine h.agree_columnPairs.bind ?_
    rintro pairs _ rfl
    exact .refl (fun _ => rfl) _

namespace Query

variable {q q' : Query}

/-- Items that are alike are selected alike. -/
theorem Alike.agree_selectItem (h : Alike L q q') {item item' : SelectItem}
    (hitem : item.Alike item') :
    Except.Agree (Alike L) (q.selectItem item) (q'.selectItem item') := by
  obtain ⟨q, hfilter, ht⟩ := h
  cases hitem with
  | column c =>
    exact .bind_same (q.aliases.resolve q.names c) fun column =>
      .ok (.of (q.addColumn (.column column)) hfilter ht)
  | captured hv =>
    refine (ht.bindCaptured hv).bind ?_
    rintro ⟨name, u⟩ ⟨_, u'⟩ ⟨rfl, hu⟩
    exact .ok (.of (q.addColumn (.parameter name)) hfilter hu)
  | null => exact .ok (.of (q.addColumn .null) hfilter ht)

theorem Alike.agree_select (h : Alike L q q') {items items' : List SelectItem}
    (hitems : List.Forall₂ SelectItem.Alike items items') :
    Except.Agree (Alike L) (q.select items) (q'.select items') := by
  obtain ⟨q, hfilter, ht⟩ := h
  refine (agree_ofKind q hfilter ht .select).bind ?_
  rintro _ _ ⟨q, hfilter, ht⟩
  rw [selectItems_eq_foldlM, selectItems_eq_foldlM]
  refine .ite (q.columnsNamed = true) (.error _ _) ?_
  exact Except.agree_foldlM hitems (fun _ _ _ _ hq hitem => hq.agree_selectItem hitem)
    (.of q hfilter ht)

/-- Calls that are alike lead from queries that are alike to such queries, or both fail. -/
theorem Alike.agree_apply (h : Alike L q q') {call call' : Call} (hcall : call.Alike L call') :
    Except.Agree (Alike L) (q.apply call) (q'.apply call') := by
  obtain ⟨q, hfilter, ht⟩ := h
  cases hcall with
  | same hcall => exact Query.agree_apply q hfilter ht hcall
  | select hitems => exact (Alike.of q hfilter ht).agree_select hitems
  | join kind hspec =>
    refine (hspec.agree_resolve kind q.aliases q.names).bind ?_
    rintro clause _ rfl
    exact .ok (.of { q with joins := q.joins ++ [clause] } hfilter ht)
  | filter hp => exact .ok (.of q (.some hp) ht)

/-- Runs of calls that are alike agree. -/
theorem agree_run {calls calls' : List Call} (h : List.Forall₂ (Call.Alike L) calls calls') :
    Except.Agree (Alike L) (run {} calls) (run {} calls') :=
  Except.agree_foldlM h (fun _ _ _ _ hq hcall => hq.agree_apply hcall)
    (.of {} .none ParameterTable.alike_empty)

/-- A filter is compiled over the parameters that the select list has bound. -/
theorem compileFilter_eq_map {p : Predicate} (h : q.filter = some p) :
    q.compileFilter = (fun r => (some r.1, r.2)) <$> outcome (p.compile q.scope) q.parameters := by
  unfold compileFilter outcome
  rw [h]
  dsimp only
  rcases (p.compile q.scope).run q.parameters with ⟨f | lines, u⟩ <;> rfl

/-- The filters of queries that are alike are compiled to the same lines. -/
theorem Alike.agree_compileFilter (h : Alike L q q') :
    Except.Agree (fun p p' => p.1 = p'.1 ∧ p.2.Alike L p'.2) q.compileFilter q'.compileFilter := by
  obtain ⟨q, hfilter, ht⟩ := h
  cases hfilter with
  | none => exact .ok ⟨rfl, ht⟩
  | @some p p' hp =>
    rw [compileFilter_eq_map (p := p) rfl, compileFilter_eq_map (p := p') rfl]
    refine (hp.agree_compile (s := q.scope) _ _ ht).map ?_
    rintro ⟨lines, u⟩ ⟨_, u'⟩ ⟨rfl, hu⟩
    exact ⟨rfl, hu⟩

-- The same text, and parameters of the same names and types in the same order.
def SameText (b b' : BuiltQuery) : Prop :=
  b.text = b'.text ∧
    b.parameters.map (fun p => (p.name, p.kind)) = b'.parameters.map (fun p => (p.name, p.kind))

theorem Alike.agree_buildSelect (h : Alike L q q') :
    Except.Agree SameText q.buildSelect q'.buildSelect := by
  have hcompile := h.agree_compileFilter
  obtain ⟨q, hfilter, ht⟩ := h
  refine .ite (q.columns.isEmpty = true) (.error _ _) ?_
  refine .ite (q.columns.any (·.isNamelessNull) = true) (.error _ _) ?_
  -- Both queries are over one frame `q`, so they are of one entity.
  obtain ⟨source, hsource⟩ : ∃ source, source = q.source := ⟨_, rfl⟩
  cases source with
  | none =>
    simp only [withBound, ← hsource]
    exact .error _ _
  | some e =>
    simp only [withBound, ← hsource]
    refine hcompile.bind ?_
    rintro ⟨lines, u⟩ ⟨_, u'⟩ ⟨rfl, hu⟩
    refine .bind_same (q.aliases.aliasFor e) fun qualifier => .ok ⟨rfl, ?_⟩
    exact map_eq_of_forall₂ hu.entries fun p p' hp => Prod.ext hp.1 hp.2

/-- Queries that are alike are built to the same text, or both fail. -/
theorem Alike.agree_build (h : Alike L q q') : Except.Agree SameText q.build q'.build := by
  have hselect := h.agree_buildSelect
  obtain ⟨q, hfilter, ht⟩ := h
  cases hkind : q.kind with
  | none =>
    simp only [build, withBound, hkind]
    exact .error _ _
  | some kind =>
    cases kind with
    | select =>
      simp only [build, withBound, hkind]
      exact hselect
    | _ =>
      simp only [build, withBound, hkind]
      exact .error _ _

end Query

namespace Demo

-- A name that is searched for in two columns, next to a second one and a date.
def namesakes (name other : String) (year caller : Int) : List Call :=
  [.tableAlias student "s",
   .select [.column (.property student "Id"), .captured ⟨"caller", .int caller⟩],
   .selectFrom student,
   .filter (.and
     (.condition (.compare (.column (.property student "FirstName")) .eq (.literal (.text name))))
     (.or
       (.condition
         (.inList (.property student "LastName") false (.values [.text other, .text name])))
       (.condition
         (.compare (.column (.property student "DateOfBirth")) .gte (.dateParts year 1 31)))))]

theorem exists_build_namesakes :
    ∃ q b, Query.run {} (namesakes "Ann" "Bob" 2001 7) = .ok q ∧ q.build = .ok b ∧
      b.parameters.map (fun p => (p.name, p.kind)) =
        [("@param_caller", .bigint), ("@param_value_1", .nvarchar), ("@param_value_2", .nvarchar),
          ("@param_date_1", .datetime)] :=
  Query.exists_build (by decide +kernel)

inductive Replaced : Value → Value → Prop
  | name : Replaced (.text "Ann") (.text "Eve' or 1 = 1 --")
  | other : Replaced (.text "Bob") (.text "")
  | born : Replaced (.date ⟨2001, 1, 31, by decide⟩) (.date ⟨1998, 1, 31, by decide⟩)

def replacement : LiteralPairing where
  Pairs := Replaced
  sameForm := by
    rintro _ _ (_ | _ | _) <;> constructor
  classify_eq_iff := by
    rintro _ _ _ _ (_ | _ | _) (_ | _ | _) <;> simp [Value.classify]

theorem alike_namesakes : List.Forall₂ (Call.Alike replacement)
    (namesakes "Ann" "Bob" 2001 7) (namesakes "Eve' or 1 = 1 --" "" 1998 (-40)) := by
  have hname := Replaced.name
  have hother := Replaced.other
  refine .cons (.same rfl) (.cons (.select ?_) (.cons (.same rfl) (.cons (.filter ?_) .nil)))
  · exact .cons (.column _) (.cons (.captured (.bound "caller" rfl ⟨_, rfl⟩ ⟨_, rfl⟩)) .nil)
  · refine .logical .and (.condition ?_) (.logical .or (.condition ?_) (.condition ?_))
    · exact .compare .eq (.column _) (.bound hname)
    · exact .values _ _ (.cons (.bound hother rfl) (.cons (.bound hname rfl) .nil))
    · exact .compare .gte (.column _) (.dateParts rfl rfl Replaced.born)

end Demo

namespace Query

/-- Chains of calls that are alike but for the values to be bound build alike: if one does then so
does the other, to the same text and with parameters of the same names and types. -/
theorem text_of_alike (L : LiteralPairing) (calls calls' : List Call)
    (h : List.Forall₂ (Call.Alike L) calls calls') :
    ((∃ b, run {} calls >>= build = .ok b) ↔ ∃ b', run {} calls' >>= build = .ok b') ∧
      ∀ b b', run {} calls >>= build = .ok b → run {} calls' >>= build = .ok b' →
        SameText b b' := by
  have hagree := (agree_run h).bind fun _ _ hq => hq.agree_build
  exact Except.agree_iff.mp hagree

/-- One of the other values tries to end the statement. -/
theorem text_of_alike_namesakes :
    ∃ b b', run {} (Demo.namesakes "Ann" "Bob" 2001 7) >>= build = .ok b ∧
      run {} (Demo.namesakes "Eve' or 1 = 1 --" "" 1998 (-40)) >>= build = .ok b' ∧
      b.text = b'.text ∧ b'.parameters.map (fun p => (p.name, p.kind)) =
        [("@param_caller", .bigint), ("@param_value_1", .nvarchar), ("@param_value_2", .nvarchar),
          ("@param_date_1", .datetime)] := by
  obtain ⟨hiff, hsame⟩ := text_of_alike Demo.replacement _ _ Demo.alike_namesakes
  obtain ⟨q, b, hq, hbuild, hnames⟩ := Demo.exists_build_namesakes
  have hb : run {} (Demo.namesakes "Ann" "Bob" 2001 7) >>= build = .ok b :=
    Except.bind_eq_ok.mpr ⟨q, hq, hbuild⟩
  obtain ⟨b', hb'⟩ := hiff.mp ⟨b, hb⟩
  obtain ⟨htext, hparameters⟩ := hsame b b' hb hb'
  exact ⟨b, b', hb, hb', htext, hparameters.symm.trans hnames⟩

end Query

end SqlSelect
