import SqlSelect.Proofs.Where.Pruning

/-! Outlines and blocks. An outline of a filter shows the conditions and groups that its block has,
each as deep and behind the same connective, and it is enough to build the filter again. -/
namespace SqlSelect

open Rendering

namespace WhereLine

def isCondition : WhereLine → Bool
  | condition .. => true
  | _ => false

-- The groups that are opened in a block, each with its depth and with the connective that the line
-- before it consists of, if it does; `before` is that of the line ahead of the block.
def openings (before : Option (Nat × LogicalOp)) :
    List WhereLine → List (Nat × Option (Nat × LogicalOp))
  | [] => []
  | opening d :: rest => (d, before) :: openings none rest
  | connective d op :: rest => openings (some (d, op)) rest
  | condition .. :: rest => openings none rest
  | closing _ :: rest => openings none rest

end WhereLine

namespace OutlineEntry

def isGroup (e : OutlineEntry) : Bool :=
  e.condition?.isNone

def opened (e : OutlineEntry) : Nat × Option (Nat × LogicalOp) :=
  (e.depth, e.connective.map (e.depth, ·))

def ShownAt (s : Scope) (e : OutlineEntry) (depth : Nat) (line : WhereLine) : Prop :=
  ∃ c text t u, e.condition? = some c ∧ Yields (c.render s) t text u ∧
    line = .condition depth e.connective text

-- One more entry in front of the trees that come behind it. A group has those that are deeper.
def gather (e : OutlineEntry) (behind : List (Nat × LogicalTree Condition)) :
    List (Nat × LogicalTree Condition) :=
  match e.condition? with
  | some c => (e.depth, .leaf e.connective c) :: behind
  | none =>
    (e.depth, .group e.connective ((behind.takeWhile (e.depth < ·.1)).map (·.2))) ::
      behind.dropWhile (e.depth < ·.1)

def mark : Option LogicalOp → List Char
  | none => ['[', '-', ']', ' ']
  | some .and => ['[', 'a', 'n', 'd', ']', ' ']
  | some .or => ['[', 'o', 'r', ']', ' ']

def readMark : List Char → Option (Option LogicalOp × List Char)
  | '[' :: '-' :: ']' :: ' ' :: cs => some (none, cs)
  | '[' :: 'a' :: 'n' :: 'd' :: ']' :: ' ' :: cs => some (some .and, cs)
  | '[' :: 'o' :: 'r' :: ']' :: ' ' :: cs => some (some .or, cs)
  | _ => none

-- A printed line taken apart: its depth, which is half of the blanks in front, its connective, and
-- its condition. The word `group` stands for none.
def readLine (line : String) : Option (Nat × Option LogicalOp × Option String) :=
  let blanks := (line.toList.takeWhile (· == ' ')).length
  if blanks % 2 = 0 then
    (readMark (line.toList.dropWhile (· == ' '))).map fun (c, rest) =>
      let content := String.ofList rest
      (blanks / 2, c, if content = "group" then none else some content)
  else none

end OutlineEntry

/-- No condition is explained by the word for a group. -/
theorem Condition.explain_ne_group (c : Condition) : c.explain ≠ "group" := by
  have hgroup (d : Char) (hd : d ∈ c.explain.toList) (hother : d ∉ "group".toList) :
      c.explain ≠ "group" := by
    intro h
    rw [h] at hd
    exact hother hd
  cases c with
  | pattern c shape source =>
    exact hgroup '(' (by simp [explain]) (by decide)
  | compare l op r => exact hgroup ' ' (by simp [explain]) (by decide)
  | inList c negated items =>
    refine hgroup ' ' ?_ (by decide)
    cases negated <;> simp [explain]
  | isNull c negated =>
    refine hgroup ' ' ?_ (by decide)
    cases negated <;> simp [explain]

namespace OutlineEntry

def content (e : OutlineEntry) : String :=
  (e.condition?.map Condition.explain).getD "group"

/-- A line of an outline is its blanks, its mark and its content. -/
theorem toList_text (e : OutlineEntry) : e.text.toList =
    List.replicate (2 * e.depth) ' ' ++ (mark e.connective ++ e.content.toList) := by
  obtain ⟨d, c, condition?⟩ := e
  rcases c with _ | _ | _ <;> cases condition? <;>
    simp [OutlineEntry.text, content, mark, Text.spaces, LogicalOp.sql]

theorem readMark_mark (c : Option LogicalOp) (cs : List Char) :
    readMark (mark c ++ cs) = some (c, cs) := by
  rcases c with _ | _ | _ <;> rfl

/-- No condition is shown as a group. -/
theorem readLine_text (e : OutlineEntry) :
    readLine e.text = some (e.depth, e.connective, e.condition?.map Condition.explain) := by
  have hblanks : ∀ c ∈ List.replicate (2 * e.depth) ' ', (c == ' ') = true := by
    intro c hc
    rw [List.eq_of_mem_replicate hc]
    rfl
  obtain ⟨rest, hrest⟩ : ∃ rest, mark e.connective ++ e.content.toList = '[' :: rest := by
    rcases e.connective with _ | _ | _ <;> exact ⟨_, rfl⟩
  have htake : e.text.toList.takeWhile (· == ' ') = List.replicate (2 * e.depth) ' ' := by
    rw [toList_text, List.takeWhile_append_of_pos hblanks, hrest,
      List.takeWhile_cons_of_neg (by decide), List.append_nil]
  have hdrop : e.text.toList.dropWhile (· == ' ') = mark e.connective ++ e.content.toList := by
    rw [toList_text, List.dropWhile_append_of_pos hblanks, hrest,
      List.dropWhile_cons_of_neg (by decide)]
  have hshown : (if e.content = "group" then none else some e.content) =
      e.condition?.map Condition.explain := by
    cases hc : e.condition? with
    | none => simp [content, hc]
    | some c => simp [content, hc, c.explain_ne_group]
  rw [readLine, htake, hdrop, readMark_mark, List.length_replicate]
  simp [hshown]

end OutlineEntry

namespace LogicalTree

def ofOutline? (entries : List OutlineEntry) : Option (LogicalTree Condition) :=
  match entries.foldr OutlineEntry.gather [] with
  | [(_, t)] => some t
  | _ => none

-- The filter of a grouping; a group has two members, of which the second has its operator.
def predicate? : LogicalTree Condition → Option Predicate
  | leaf _ c => some (.condition c)
  | group _ [l, r] => do
    let op ← r.connective
    let p ← l.predicate?
    let q ← r.predicate?
    pure (.logical op p q)
  | group _ _ => none

mutual

/-- The entries of a tree are gathered to that tree, in front of trees that are no deeper. -/
theorem foldr_gather_outlineFrom : ∀ (t : LogicalTree Condition) (d : Nat)
    (behind : List (Nat × LogicalTree Condition)), (∀ p ∈ behind.head?, p.1 ≤ d) →
      (t.outlineFrom d).foldr OutlineEntry.gather behind = (d, t) :: behind
  | leaf c a, d, behind, _ => rfl
  | group c ts, d, behind, h => by
    have hdeeper : ∀ p ∈ behind.head?, p.1 ≤ d + 1 := fun p hp => Nat.le_succ_of_le (h p hp)
    have hmembers : ∀ p ∈ ts.map (d + 1, ·), decide (d < p.1) = true := by simp
    have hrest : behind.takeWhile (d < ·.1) = [] ∧ behind.dropWhile (d < ·.1) = behind := by
      cases behind with
      | nil => exact ⟨rfl, rfl⟩
      | cons p behind =>
        have hp : ¬ d < p.1 := Nat.not_lt.mpr (h p rfl)
        exact ⟨List.takeWhile_cons_of_neg (by simpa using hp),
          List.dropWhile_cons_of_neg (by simpa using hp)⟩
    rw [outlineFrom, List.foldr_cons, foldr_gather_outlineAll ts (d + 1) behind hdeeper]
    simp only [OutlineEntry.gather, List.takeWhile_append_of_pos hmembers,
      List.dropWhile_append_of_pos hmembers, hrest.1, hrest.2, List.append_nil]
    simp [Function.comp_def]

theorem foldr_gather_outlineAll : ∀ (ts : List (LogicalTree Condition)) (d : Nat)
    (behind : List (Nat × LogicalTree Condition)), (∀ p ∈ behind.head?, p.1 ≤ d) →
      (outlineAll d ts).foldr OutlineEntry.gather behind = ts.map (d, ·) ++ behind
  | [], d, behind, _ => rfl
  | t :: ts, d, behind, h => by
    have hhead : ∀ p ∈ (ts.map (d, ·) ++ behind).head?, p.1 ≤ d := by
      cases ts with
      | nil => exact h
      | cons u ts => simp
    rw [outlineAll, List.foldr_append, foldr_gather_outlineAll ts d behind h,
      foldr_gather_outlineFrom t d _ hhead]
    rfl

end

/-- A tree is read back from its outline. -/
theorem ofOutline?_outline (t : LogicalTree Condition) : ofOutline? t.outline = some t := by
  have h := foldr_gather_outlineFrom t 0 [] (by simp)
  rw [ofOutline?, outline, h]

theorem outline_injective : Function.Injective outline := by
  intro t u h
  have hsame : some t = some u := by rw [← ofOutline?_outline, h, ofOutline?_outline]
  exact Option.some.inj hsame

end LogicalTree

namespace Predicate

-- Where a condition of the filter is in its outline and in its block. The members of the outermost
-- group are one deep in both; a condition without a group is the root of the outline.
def Depths : Predicate → (outline block : Nat) → Prop
  | condition _, outline, block => outline = 0 ∧ block = 1
  | logical .., outline, block => 1 ≤ outline ∧ block = outline

/-- A predicate is read back from its grouping. -/
theorem predicate?_groupingBehind (p : Predicate) (c : Option LogicalOp) :
    (p.groupingBehind c).predicate? = some p := by
  induction p generalizing c with
  | condition a => rfl
  | logical op p q ihp ihq =>
    have hop : (q.groupingBehind (some op)).connective = some op := by cases q <;> rfl
    simp [groupingBehind, LogicalTree.predicate?, ihp, ihq, hop]

theorem grouping_injective : Function.Injective grouping := by
  intro p q h
  have hsame : some p = some q := by
    rw [← predicate?_groupingBehind p none, ← predicate?_groupingBehind q none]
    exact congrArg LogicalTree.predicate? h
  exact Option.some.inj hsame

variable {s : Scope} {c : Option LogicalOp} {t u : ParameterTable} {tree : LogicalTree String}

/-- In a tree, the conditions are compiled to lines one by one, at their depths. -/
theorem shown_of_traverse {p : Predicate}
    (h : Yields ((p.groupingBehind c).traverse (·.render s)) t tree u) (d : Nat) :
    List.Forall₂ (fun e line => d ≤ e.depth ∧ e.ShownAt s e.depth line)
      (((p.groupingBehind c).outlineFrom d).filter (!·.isGroup))
      ((tree.linesAt d).filter (·.isCondition)) := by
  induction p generalizing c t tree u d with
  | condition a =>
    obtain ⟨text, htext, rfl⟩ := (yields_traverse_condition a).mp h
    exact .cons ⟨Nat.le_refl d, a, text, t, u, rfl, htext, rfl⟩ .nil
  | logical op p q ihp ihq =>
    obtain ⟨l, r, v, hl, hr, rfl⟩ := (yields_traverse_logical op p q).mp h
    have hmembers := (List.rel_append (ihp hl (d + 1)) (ihq hr (d + 1))).imp
      fun e line hshown => And.imp_left Nat.le_of_succ_le hshown
    cases c <;>
      simpa [groupingBehind, LogicalTree.outlineFrom, LogicalTree.outlineAll,
        LogicalTree.linesAt_group, LogicalTree.linesOfAll, OutlineEntry.isGroup,
        WhereLine.isCondition] using hmembers

/-- In a tree, the groups are opened one by one, at their depths and behind their connectives. -/
theorem openings_of_traverse {p : Predicate}
    (h : Yields ((p.groupingBehind c).traverse (·.render s)) t tree u) (d : Nat)
    (rest : List WhereLine) :
    WhereLine.openings none (tree.linesAt d ++ rest) =
      (((p.groupingBehind c).outlineFrom d).filter (·.isGroup)).map (·.opened) ++
        WhereLine.openings none rest := by
  induction p generalizing c t tree u d rest with
  | condition a =>
    obtain ⟨text, -, rfl⟩ := (yields_traverse_condition a).mp h
    rfl
  | logical op p q ihp ihq =>
    obtain ⟨l, r, v, hl, hr, rfl⟩ := (yields_traverse_logical op p q).mp h
    cases c <;>
      simp [groupingBehind, LogicalTree.outlineFrom, LogicalTree.outlineAll,
        LogicalTree.linesAt_group, LogicalTree.linesOfAll, OutlineEntry.isGroup,
        OutlineEntry.opened, WhereLine.openings, ihp hl, ihq hr]

/-- The conditions of an outline are those of the block, each at its depth. -/
theorem shown_of_compile {p : Predicate} {lines : List WhereLine}
    (h : Yields (p.compile s) t lines u) :
    List.Forall₂ (fun e line => ∃ depth, p.Depths e.depth depth ∧ e.ShownAt s depth line)
      (p.grouping.outline.filter (!·.isGroup)) (lines.filter (·.isCondition)) := by
  obtain ⟨tree, htree, rfl⟩ := yields_compile.mp h
  cases p with
  | condition a =>
    obtain ⟨text, htext, rfl⟩ := (yields_traverse_condition a).mp htree
    exact .cons ⟨1, ⟨rfl, rfl⟩, a, text, t, u, rfl, htext, rfl⟩ .nil
  | logical op p q =>
    obtain ⟨l, r, v, hl, hr, rfl⟩ := (yields_traverse_logical op p q).mp htree
    have hmembers := List.rel_append (shown_of_traverse hl 1) (shown_of_traverse hr 1)
    have hdepths := hmembers.imp fun e line hshown =>
      show ∃ depth, (logical op p q).Depths e.depth depth ∧ e.ShownAt s depth line from
        ⟨e.depth, ⟨hshown.1, rfl⟩, hshown.2⟩
    simpa [grouping, groupingBehind, LogicalTree.outline, LogicalTree.outlineFrom,
      LogicalTree.outlineAll, LogicalTree.lines, LogicalTree.linesOfAll, OutlineEntry.isGroup]
      using hdepths

/-- The root has no parentheses in a block, so its entry has no partner there. -/
theorem openings_of_compile {p : Predicate} {lines : List WhereLine}
    (h : Yields (p.compile s) t lines u) :
    WhereLine.openings none lines =
      (p.grouping.outline.tail.filter (·.isGroup)).map (·.opened) := by
  obtain ⟨tree, htree, rfl⟩ := yields_compile.mp h
  cases p with
  | condition a =>
    obtain ⟨text, -, rfl⟩ := (yields_traverse_condition a).mp htree
    rfl
  | logical op p q =>
    obtain ⟨l, r, v, hl, hr, rfl⟩ := (yields_traverse_logical op p q).mp htree
    rw [LogicalTree.lines, LogicalTree.linesOfAll, openings_of_traverse hl, LogicalTree.linesOfAll,
      openings_of_traverse hr]
    simp [grouping, groupingBehind, LogicalTree.outline, LogicalTree.outlineFrom,
      LogicalTree.outlineAll, LogicalTree.linesOfAll, WhereLine.openings]

/-- An outline is printed in lines that are read back as its entries. -/
theorem exists_lines_outlineText (p : Predicate) :
    ∃ shown : List String, p.outlineText = String.join (shown.map (· ++ "\n")) ∧
      shown.map OutlineEntry.readLine = p.grouping.outline.map fun e =>
        some (e.depth, e.connective, e.condition?.map Condition.explain) := by
  refine ⟨p.grouping.outline.map (·.text), ?_, ?_⟩
  · rw [outlineText, List.map_map]
    rfl
  · rw [List.map_map]
    refine List.map_congr_left fun e _ => ?_
    rw [Function.comp_apply, e.readLine_text]

/-- The outline of a filter shows the block that it is compiled to: condition by condition and, but
for the root, group by group, in order, at the same depths and behind the same connectives. Its
entries are read back from the lines that it is printed in, from them the grouping, and from that
the filter, and no other has the same one. -/
theorem outline_of_compile (s : Scope) (p : Predicate) (t u : ParameterTable)
    (lines : List WhereLine) (h : Yields (p.compile s) t lines u) :
    List.Forall₂ (fun e line => ∃ depth, p.Depths e.depth depth ∧ e.ShownAt s depth line)
        (p.grouping.outline.filter (!·.isGroup)) (lines.filter (·.isCondition)) ∧
      WhereLine.openings none lines =
        (p.grouping.outline.tail.filter (·.isGroup)).map (·.opened) ∧
      (∃ shown : List String, p.outlineText = String.join (shown.map (· ++ "\n")) ∧
        shown.map OutlineEntry.readLine = p.grouping.outline.map fun e =>
          some (e.depth, e.connective, e.condition?.map Condition.explain)) ∧
      LogicalTree.ofOutline? p.grouping.outline = some p.grouping ∧
      p.grouping.predicate? = some p ∧
      (∀ tree : LogicalTree Condition, tree.outline = p.grouping.outline → tree = p.grouping) ∧
      ∀ q : Predicate, q.grouping.outline = p.grouping.outline → q = p := by
  refine ⟨shown_of_compile h, openings_of_compile h, p.exists_lines_outlineText,
    LogicalTree.ofOutline?_outline _, predicate?_groupingBehind p none, ?_, ?_⟩
  · intro tree htree
    exact LogicalTree.outline_injective htree
  · intro q hq
    exact grouping_injective (LogicalTree.outline_injective hq)

/-- Groups in groups, with a connective and without one. -/
theorem outline_of_compile_partlyAbsent :
    Yields (Demo.partlyAbsent.compile Demo.studentScope) {} Demo.partlyAbsentLines {} ∧
      (Demo.partlyAbsent.grouping.outline.tail.filter (·.isGroup)).map (·.opened) =
        [(1, none), (1, some (1, .or)), (2, some (2, .and))] ∧
      (Demo.partlyAbsent.grouping.outline.filter (!·.isGroup)).length = 5 ∧
      (LogicalTree.ofOutline? Demo.partlyAbsent.grouping.outline).bind LogicalTree.predicate? =
        some Demo.partlyAbsent ∧
      Demo.partlyAbsent.outlineText =
        "[-] group\n" ++
        "  [-] group\n" ++
        "    [-] Student.FirstName == name\n" ++
        "    [and] Student.FirstName == name\n" ++
        "  [or] group\n" ++
        "    [-] Student.FirstName == name\n" ++
        "    [and] group\n" ++
        "      [-] Student.LastName is null\n" ++
        "      [or] Student.FirstName == name\n" := by
  obtain ⟨hconditions, hgroups, -, htree, hfilter, -, -⟩ :=
    outline_of_compile Demo.studentScope Demo.partlyAbsent {} {} Demo.partlyAbsentLines rfl
  refine ⟨rfl, hgroups.symm, hconditions.length_eq, ?_, by decide +kernel⟩
  rw [htree, Option.bind_some, hfilter]

end Predicate

end SqlSelect
