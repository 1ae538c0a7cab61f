import SqlSelect.Proofs.Marking.Filter
import SqlSelect.Proofs.Query.Build
import SqlSelect.Proofs.Query.Selected
import SqlSelect.Schema.Demo

/-! The parameters of a built query and the references to them in its text. -/
namespace SqlSelect

open Rendering WhereLine ParameterTable

def SelectStatement.conditionTexts (st : SelectStatement) : List String :=
  match st.filter with
  | none => []
  | some lines => texts (stripAlwaysTrue lines).1

theorem SelectStatement.conditions_eq_conditionTexts (st : SelectStatement) :
    st.printout.conditions = st.conditionTexts := by
  rw [conditions_printout, keptLines, conditionTexts]
  cases st.filter <;> rfl

def keptReferences (conditions : List MarkedText) : List Reference :=
  (conditions.filter (·.applies)).flatMap MarkedText.references

theorem mem_keptReferences {conditions : List MarkedText} {r : Reference} :
    r ∈ keptReferences conditions ↔ ∃ m ∈ conditions, m.applies = true ∧ r ∈ m.references := by
  simp [keptReferences, and_assoc]

namespace Query

def conditions (q : Query) : List Condition :=
  match q.filter with
  | none => []
  | some p => p.conditions

structure Marks (q : Query) (st : SelectStatement) (t : ParameterTable)
    (conditions : List MarkedText) : Prop where
  yields : Yields (q.conditions.mapM (·.mark q.scope)) q.parameters conditions t
  texts_eq : st.conditionTexts = (conditions.filter (·.applies)).map MarkedText.text
  -- A condition that is left refers to its operands, or to its items, in order.
  sources_eq : List.Forall₂ (fun c m => m.applies = true → m.references.map (·.source) = c.sources)
    q.conditions conditions

-- The text of the built query shows the references. A parameter that is selected is an item by its
-- name, and a condition that is left is the text that its references are marked in.
def Prints (q : Query) (b : BuiltQuery) (st : SelectStatement) (conditions : List MarkedText) :
    Prop :=
  ∃ p : Printout, p.ShownIn q.options.lineEnding.text b.text ∧
    List.Forall₂ (fun e item => ∀ name ∈ e.column.parameter?, item = name) st.columns p.items ∧
    p.conditions = (conditions.filter (·.applies)).map MarkedText.text

variable {q : Query} {b : BuiltQuery} {st : SelectStatement} {t : ParameterTable}

/-- The references are in the conditions and items that are printed. -/
theorem Builds.prints {conditions : List MarkedText} (h : q.Builds b st t)
    (hmarks : q.Marks st t conditions) : q.Prints b st conditions := by
  refine ⟨st.printout, h.shownIn, ?_, st.conditions_eq_conditionTexts.trans hmarks.texts_eq⟩
  rw [SelectStatement.printout, List.forall₂_map_right_iff, List.forall₂_same]
  intro e he name hname
  exact SelectColumn.text_of_parameter hname

/-- The references of the conditions go on with those of the select list. -/
theorem Builds.exists_marks {refs : List Reference} (h : q.Builds b st t)
    (hrefs : q.parameters.Accounts refs) :
    ∃ conditions, q.Marks st t conditions ∧ t.Accounts (refs ++ keptReferences conditions) := by
  rcases compileFilter_eq_ok.mp h.filter with ⟨hf, hst, rfl⟩ | ⟨p, lines, hf, hst, hp⟩
  · have hconditions : q.conditions = [] := by rw [conditions, hf]
    refine ⟨[], ⟨?_, ?_, ?_⟩, ?_⟩
    · rw [hconditions]
      exact (yields_pure _ _ _ _).mpr ⟨rfl, rfl⟩
    · rw [SelectStatement.conditionTexts, hst]
      rfl
    · rw [hconditions]
      exact .nil
    · simpa [keptReferences] using hrefs
  · have hconditions : q.conditions = p.conditions := by rw [conditions, hf]
    obtain ⟨conditions, hyields, htexts, hsources, ht⟩ := hrefs.compile hp
    refine ⟨conditions, ⟨?_, ?_, ?_⟩, ht⟩
    · rw [hconditions]
      exact hyields
    · rw [SelectStatement.conditionTexts, hst]
      exact htexts
    · rw [hconditions]
      exact hsources

/-- The references of a built query: those of its select list, and then those of the conditions
that are left. -/
theorem exists_accounts {calls : List Call} (hrun : run {} calls = .ok q)
    (hbuild : q.build = .ok b) :
    ∃ st t conditions, q.Builds b st t ∧ q.Marks st t conditions ∧
      SelectEntry.parameterNames st.columns =
        (calls.flatMap Call.selected).map Variable.parameterName ∧
      t.Accounts ((calls.flatMap Call.selected).map Variable.reference ++
        keptReferences conditions) := by
  obtain ⟨st, t, hst⟩ := build_eq_ok.mp hbuild
  have hselected := hasSelected_of_run hrun
  obtain ⟨conditions, hmarks, ht⟩ := hst.exists_marks hselected.accounts
  have hcolumns := hst.columns_eq ▸ hselected.columns_eq
  exact ⟨st, t, conditions, hst, hmarks, hcolumns, ht⟩

end Query

namespace Demo

-- A variable has the name that the first literal would have; a filter against null is dropped.
def sharedNames : List Call :=
  [.tableAlias student "s",
   .select [.column (.property student "FirstName"), .captured ⟨"value_1", .int 7⟩],
   .selectFrom student,
   .filter (.and
     (.and
       (.condition
         (.compare (.column (.property student "FirstName")) .eq (.literal (.text "Ann"))))
       (.condition
         (.compare (.column (.property student "Id")) .lt (.captured ⟨"value_1", .int 8⟩))))
     (.or
       (.condition (.compare (.literal (.text "Eve")) .ne (.captured ⟨"name", .null⟩)))
       (.condition
         (.inList (.property student "LastName") false (.values [.text "Bob", .text "Ann"])))))]

def sharedNamesParameters : List Parameter :=
  [⟨"@param_value_1", "7", .bigint⟩, ⟨"@param_value_2", "Ann", .nvarchar⟩,
   ⟨"@param_value_3", "Bob", .nvarchar⟩]

def sharedNamesLines : List String :=
  ["select",
   "\ts.first_name,",
   "\t@param_value_1",
   "from",
   "\tPQ_Student as s",
   "where",
   "\t(",
   "\t\ts.first_name = @param_value_2",
   "\t\tand s.student_id < @param_value_1",
   "\t)",
   "\tand",
   "\t(",
   "\t\ts.last_name in (@param_value_3, @param_value_2)",
   "\t)"]

theorem exists_build_sharedNames :
    ∃ q b, Query.run {} sharedNames = .ok q ∧ q.build = .ok b ∧
      (b.parameters, b.text) =
        (sharedNamesParameters, String.join (sharedNamesLines.map (· ++ "\n"))) :=
  Query.exists_build (by decide +kernel)

end Demo

namespace Query

/-- The parameters of a built query are those that its text refers to, in the order of first use:
those of the select list, and then those of the conditions that are left. -/
theorem names_of_build (calls : List Call) (q : Query) (b : BuiltQuery)
    (hrun : run {} calls = .ok q) (hbuild : q.build = .ok b) :
    ∃ st t conditions, q.Builds b st t ∧ q.Marks st t conditions ∧ q.Prints b st conditions ∧
      SelectEntry.parameterNames st.columns =
        (calls.flatMap Call.selected).map Variable.parameterName ∧
      b.parameters.map (·.name) = (SelectEntry.parameterNames st.columns ++
        (keptReferences conditions).map (·.name)).eraseDups ∧
      (b.parameters.map (·.name)).Nodup ∧
      ∀ name, name ∈ b.parameters.map (·.name) ↔
        name ∈ SelectEntry.parameterNames st.columns ∨
          ∃ m ∈ conditions, m.applies = true ∧ ∃ r ∈ m.references, r.name = name := by
  obtain ⟨st, t, conditions, hst, hmarks, hcolumns, ht⟩ := exists_accounts hrun hbuild
  have hnames : b.parameters.map (·.name) = (SelectEntry.parameterNames st.columns ++
      (keptReferences conditions).map (·.name)).eraseDups := by
    rw [hst.parameters_eq, hcolumns]
    have hrefs := ht.names_eq
    rwa [List.map_append, List.map_map] at hrefs
  refine ⟨st, t, conditions, hst, hmarks, hst.prints hmarks, hcolumns, hnames, ?_,
    fun name => ?_⟩
  · rw [hnames]
    exact nodup_eraseDups _
  · rw [hnames, List.mem_eraseDups, List.mem_append, List.mem_map]
    apply or_congr_right
    constructor
    · rintro ⟨r, hr, hname⟩
      obtain ⟨m, hm, happlies, hr⟩ := mem_keptReferences.mp hr
      exact ⟨m, hm, happlies, r, hr, hname⟩
    · rintro ⟨m, hm, happlies, r, hr, hname⟩
      exact ⟨r, mem_keptReferences.mpr ⟨m, hm, happlies, hr⟩, hname⟩

theorem names_of_build_sharedNames :
    ∃ q b, run {} Demo.sharedNames = .ok q ∧ q.build = .ok b ∧
      b.text = String.join (Demo.sharedNamesLines.map (· ++ "\n")) ∧
      ∃ st t conditions, q.Builds b st t ∧ q.Marks st t conditions ∧ q.Prints b st conditions ∧
        ("@param_value_1" :: (keptReferences conditions).map (·.name)).eraseDups =
          ["@param_value_1", "@param_value_2", "@param_value_3"] := by
  obtain ⟨q, b, hrun, hbuild, hb⟩ := Demo.exists_build_sharedNames
  obtain ⟨hparameters, htext⟩ := Prod.mk.inj hb
  obtain ⟨st, t, conditions, hst, hmarks, hprints, hcolumns, hnames, -⟩ :=
    names_of_build _ q b hrun hbuild
  refine ⟨q, b, hrun, hbuild, htext, st, t, conditions, hst, hmarks, hprints, ?_⟩
  rw [hcolumns, hparameters] at hnames
  exact hnames.symm

-- The name has one parameter, with the type and text of the value.
def Holds (parameters : List Parameter) (name : String) (v : Value) : Prop :=
  ∃ kind text, v.classify = .ok (kind, text) ∧
    parameters.filter (·.name == name) = [⟨name, text, kind⟩]

/-- Every reference of a built query has the value that it stands for, a literal its own and a
variable that of the first one of its name; and none of the one kind has the parameter of one of the
other. -/
theorem values_of_build (calls : List Call) (q : Query) (b : BuiltQuery)
    (hrun : run {} calls = .ok q) (hbuild : q.build = .ok b) :
    ∃ st t conditions, q.Builds b st t ∧ q.Marks st t conditions ∧ q.Prints b st conditions ∧
      SelectEntry.parameterNames st.columns =
        (calls.flatMap Call.selected).map Variable.parameterName ∧
      (∀ v name, ⟨.literal v, name⟩ ∈ keptReferences conditions →
        Holds b.parameters name v ∧ name ∈ t.literals.map (·.name)) ∧
      (∀ v name, ⟨.captured v, name⟩ ∈ keptReferences conditions → name = v.parameterName) ∧
      ∀ v ∈ calls.flatMap Call.selected ++ capturedBy (keptReferences conditions),
        v.parameterName ∉ t.literals.map (·.name) ∧
        ∃ w, (calls.flatMap Call.selected ++ capturedBy (keptReferences conditions)).find?
            (·.name == v.name) = some w ∧ Holds b.parameters v.parameterName w.value := by
  obtain ⟨st, t, conditions, hst, hmarks, hcolumns, ht⟩ := exists_accounts hrun hbuild
  refine ⟨st, t, conditions, hst, hmarks, hst.prints hmarks, hcolumns, ?_, ?_, ?_⟩
  · intro v name hr
    obtain ⟨kind, text, hclass, hmem⟩ := ht.literal v name (List.mem_append_right _ hr)
    refine ⟨⟨kind, text, hclass, ?_⟩, List.mem_map.mpr ⟨_, hmem, rfl⟩⟩
    rw [hst.parameters_eq]
    exact ht.filter_name (mem_parameters_of_mem_literals hmem)
  · intro v name hr
    exact (ht.captured v name (List.mem_append_right _ hr)).1
  · intro v hv
    -- The variables bound are those behind all the references.
    have hbound := capturedBy_append ((calls.flatMap Call.selected).map Variable.reference)
      (keptReferences conditions)
    rw [capturedBy_reference] at hbound
    rw [← hbound] at hv ⊢
    obtain ⟨name, hr⟩ := mem_capturedBy.mp hv
    obtain ⟨rfl, hg, w, kind, text, hw, hclass, hmem⟩ := ht.captured v name hr
    refine ⟨?_, w, hw, kind, text, hclass, ?_⟩
    · intro hmem'
      have hg' : t.isGenerated v.parameterName = true :=
        (isGenerated_iff t v.parameterName).mpr (List.mem_map.mp hmem')
      exact Bool.false_ne_true (hg.symm.trans hg')
    · rw [hst.parameters_eq]
      exact ht.filter_name hmem

theorem values_of_build_sharedNames :
    ∃ q b, run {} Demo.sharedNames = .ok q ∧ q.build = .ok b ∧
      Holds b.parameters "@param_value_1" (.int 7) := by
  obtain ⟨q, b, hrun, hbuild, -⟩ := Demo.exists_build_sharedNames
  obtain ⟨st, t, conditions, -, -, -, -, -, -, hcaptured⟩ := values_of_build _ q b hrun hbuild
  refine ⟨q, b, hrun, hbuild, ?_⟩
  obtain ⟨-, w, hw, hholds⟩ := hcaptured ⟨"value_1", .int 7⟩ List.mem_cons_self
  cases hw
  exact hholds

end Query

end SqlSelect
