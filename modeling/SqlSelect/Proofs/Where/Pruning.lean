import SqlSelect.Proofs.Where.Grouping
import SqlSelect.Proofs.Where.Sweep
import SqlSelect.Schema.Demo
import SqlSelect.Statement

/-! The cleanup as an operation on the grouping: the lines that are left are those of the grouping
without the conditions that are always true and without the groups that lose all their members. -/
namespace SqlSelect

open WhereLine Rendering

namespace LogicalTree

mutual

-- What is left of the tree; the first member left of a group has no connective.
def prune? : LogicalTree String → Option (LogicalTree String)
  | leaf c text => if text = alwaysTrue then none else some (leaf c text)
  | group c ts =>
    match survivors ts with
    | [] => none
    | t :: ts => some (group c (t.behind none :: ts))

def survivors : List (LogicalTree String) → List (LogicalTree String)
  | [] => []
  | t :: ts =>
    match t.prune? with
    | some u => u :: survivors ts
    | none => survivors ts

end

def prunedLines (t : LogicalTree String) : List WhereLine :=
  match t.prune? with
  | some u => u.lines
  | none => []

theorem prune?_behind (t : LogicalTree String) (c : Option LogicalOp) :
    (t.behind c).prune? = t.prune?.map (behind c) := by
  cases t with
  | leaf k text =>
    by_cases h : text = alwaysTrue
    · simp [prune?, h]
    · simp [prune?, h]
  | group k ts =>
    rw [behind_group, prune?, prune?]
    cases survivors ts <;> rfl

theorem survivors_eq_nil_iff {ts : List (LogicalTree String)} :
    survivors ts = [] ↔ ∀ t ∈ ts, t.prune? = none := by
  induction ts with
  | nil => simp [survivors]
  | cons t ts ih =>
    rw [survivors, List.forall_mem_cons]
    cases h : t.prune? with
    | some u => simp
    | none => simpa using ih

/-- Nothing is left exactly of a tree whose conditions are all always true. -/
theorem prune?_eq_none_iff {t : LogicalTree String} (h : Linked t) :
    t.prune? = none ↔ ∀ text ∈ t.leaves, text = alwaysTrue := by
  induction h with
  | leaf c text => simp [prune?, leaves]
  | @group c t ts _ _ _ _ iht ihts =>
    have hnone : (group c (t :: ts)).prune? = none ↔ survivors (t :: ts) = [] := by
      rw [prune?]
      cases survivors (t :: ts) <;> simp
    rw [hnone, survivors_eq_nil_iff, leaves, List.forall_mem_cons, iht]
    simp only [mem_leavesAll, List.mem_cons]
    constructor
    · rintro ⟨ht, hts⟩ text ⟨u, rfl | hu, htext⟩
      · exact ht text htext
      · exact (ihts u hu).mp (hts u hu) text htext
    · intro hall
      refine ⟨fun text htext => hall text ⟨t, Or.inl rfl, htext⟩, fun u hu => ?_⟩
      exact (ihts u hu).mpr fun text htext => hall text ⟨u, Or.inr hu, htext⟩

theorem linesAt_group (d : Nat) (c : Option LogicalOp) (ts : List (LogicalTree String)) :
    (group c ts).linesAt d = (c.map (WhereLine.connective d)).toList ++
      .opening d :: (linesOfAll (d + 1) ts ++ [.closing d]) := by
  simp [linesAt]

/-- The first line of a tree never closes a group. -/
theorem not_emptyGroup_linesAt (l : WhereLine) (t : LogicalTree String) (d : Nat)
    (rest : List WhereLine) : ∀ next ∈ (t.linesAt d ++ rest).head?, ¬ EmptyGroup l next := by
  rcases t with ⟨c, text⟩ | ⟨_ | op, ts⟩ <;> simp [linesAt, EmptyGroup]

theorem openGroup_linesAt (t : LogicalTree String) (d : Nat) (rest : List WhereLine) :
    openGroup d (t.linesAt d ++ rest) = (t.behind none).linesAt d ++ rest := by
  rcases t with ⟨c, text⟩ | ⟨_ | op, ts⟩ <;> simp [linesAt, openGroup, behind]

-- The last line passed stays passed when the pass comes back to it, whatever follows.
def Settled (before : List WhereLine) : Prop :=
  ∀ l ∈ before.head?, l.isAlwaysTrue = false ∧ ∀ next, ¬ EmptyGroup l next

theorem settled_linesAt {t u : LogicalTree String} (h : t.prune? = some u) (c : Option LogicalOp)
    (d : Nat) (before : List WhereLine) : Settled (((u.behind c).linesAt d).reverse ++ before) := by
  cases t with
  | leaf k text =>
    rw [prune?] at h
    split at h
    · cases h
    · next ht =>
      cases h
      simpa [Settled, linesAt, isAlwaysTrue, EmptyGroup] using ht
  | group k ts =>
    rw [prune?] at h
    cases hs : survivors ts with
    | nil => simp [hs] at h
    | cons v vs =>
      rw [hs] at h
      cases h
      simp [Settled, linesAt_group, isAlwaysTrue, EmptyGroup]

-- The lines after a pass that looks at the last line passed again.
def resumed (before after : List WhereLine) : List WhereLine :=
  swept (stepBack before after).1 (stepBack before after).2

/-- A pass goes on behind a line that applies and opens no empty group. -/
theorem swept_goOn (line : WhereLine) {before rest : List WhereLine}
    (hl : line.isAlwaysTrue = false) (hn : ∀ next ∈ rest.head?, ¬ EmptyGroup line next) :
    swept before (line :: rest) = swept (line :: before) rest := by
  rw [swept_cons]
  rcases sweepStep_cases before line rest with
    ⟨depth, op, rfl, _⟩ | ⟨depth, d, after, rfl, rfl, _⟩ | ⟨_, _, hs⟩
  · simp [isAlwaysTrue] at hl
  · exact absurd trivial (hn _ rfl)
  · rw [hs]

/-- To look again at a line that stays is to go on behind it. -/
theorem resumed_eq_swept {before after : List WhereLine}
    (h : ∀ l ∈ before.head?, l.isAlwaysTrue = false ∧ ∀ next ∈ after.head?, ¬ EmptyGroup l next) :
    resumed before after = swept before after := by
  cases before with
  | nil => rfl
  | cons l before => exact swept_goOn l (h l rfl).1 (h l rfl).2

-- How a pass goes through the lines of a tree: it leaves the lines of what is left. If nothing is
-- left, it comes back to the line before, and what follows a first member loses its connective.
structure Sweeps (t : LogicalTree String) : Prop where
  kept : ∀ {u}, t.prune? = some u → ∀ c d before rest,
    swept before ((t.behind c).linesAt d ++ rest) =
      swept (((u.behind c).linesAt d).reverse ++ before) rest
  first : t.prune? = none → ∀ d before rest, (∀ op, before.head? ≠ some (.connective d op)) →
    swept before ((t.behind none).linesAt d ++ rest) = resumed before (openGroup d rest)
  later : t.prune? = none → ∀ op d before rest,
    swept before ((t.behind (some op)).linesAt d ++ rest) = resumed before rest

/-- A pass over a leaf takes it away or leaves it. -/
theorem sweeps_leaf (c : Option LogicalOp) (text : String) : Sweeps (leaf c text) := by
  have hs (k : Option LogicalOp) (d : Nat) (before rest : List WhereLine) (h : text = alwaysTrue) :
      swept before (((leaf c text).behind k).linesAt d ++ rest) =
        swept (afterFilter d k before rest).1 (afterFilter d k before rest).2 := by
    simp [linesAt, swept_cons, sweepStep, h]
  refine ⟨?_, ?_, ?_⟩
  · intro u hu k d before rest
    rw [prune?] at hu
    split at hu
    · cases hu
    · next ht =>
      cases hu
      exact swept_goOn _ (by simpa [isAlwaysTrue] using ht) (by simp [EmptyGroup])
  · intro hn d before rest _
    exact hs none d before rest (by simpa [prune?] using hn)
  · intro hn op d before rest
    exact hs (some op) d before rest (by simpa [prune?] using hn)

/-- Members behind the first one left keep their connectives. -/
theorem swept_linesOfAll_later {ts : List (LogicalTree String)}
    (hts : ∀ t ∈ ts, t.connective.isSome ∧ Sweeps t) (d : Nat) {before : List WhereLine}
    (hb : Settled before) (rest : List WhereLine) :
    swept before (linesOfAll d ts ++ rest) =
      swept ((linesOfAll d (survivors ts)).reverse ++ before) rest := by
  induction ts generalizing before with
  | nil => simp [linesOfAll, survivors]
  | cons t ts ih =>
    obtain ⟨⟨hc, ht⟩, hts⟩ := List.forall_mem_cons.mp hts
    rw [linesOfAll, List.append_assoc, survivors]
    cases hp : t.prune? with
    | some u =>
      have hu := ht.kept hp t.connective d before (linesOfAll d ts ++ rest)
      have hcu : u.behind t.connective = u := by
        have h := prune?_behind t t.connective
        rw [behind_connective, hp] at h
        simpa using h.symm
      rw [behind_connective, hcu] at hu
      have hset := settled_linesAt hp t.connective d before
      rw [hcu] at hset
      rw [hu, ih hts hset, linesOfAll]
      simp
    | none =>
      obtain ⟨op, hop⟩ := Option.isSome_iff_exists.mp hc
      have hl := ht.later hp op d before (linesOfAll d ts ++ rest)
      rw [← hop, behind_connective] at hl
      rw [hl, resumed_eq_swept fun l hm => ⟨(hb l hm).1, fun next _ => (hb l hm).2 next⟩]
      exact ih hts hb

/-- Members of a group, ahead of the line that ends it. -/
theorem swept_linesOfAll_first {t : LogicalTree String} {ts : List (LogicalTree String)}
    (ht : Sweeps t) (hts : ∀ t ∈ ts, t.connective.isSome ∧ Sweeps t) (d : Nat)
    (before rest : List WhereLine) (hb : ∀ l ∈ before.head?, l.isAlwaysTrue = false)
    (hc : ∀ op, before.head? ≠ some (.connective d op)) (hr : openGroup d rest = rest) :
    swept before (linesOfAll d (t.behind none :: ts) ++ rest) =
      match survivors (t :: ts) with
      | [] => resumed before rest
      | u :: us => swept ((linesOfAll d (u.behind none :: us)).reverse ++ before) rest := by
  induction ts generalizing t with
  | nil =>
    rw [linesOfAll, List.append_assoc, survivors]
    cases hp : t.prune? with
    | some u => simpa [linesOfAll, survivors] using ht.kept hp none d before rest
    | none => simpa [linesOfAll, survivors, hr] using ht.first hp d before rest hc
  | cons v vs ih =>
    rw [linesOfAll, List.append_assoc, survivors]
    cases hp : t.prune? with
    | some u =>
      have hset := settled_linesAt hp none d before
      rw [ht.kept hp none d before, swept_linesOfAll_later hts d hset]
      simp [linesOfAll]
    | none =>
      -- The next member is first now: its connective goes, and the induction goes on with it.
      obtain ⟨⟨_, hv⟩, hvs⟩ := List.forall_mem_cons.mp hts
      have hnext : openGroup d (linesOfAll d (v :: vs) ++ rest) =
          linesOfAll d (v.behind none :: vs) ++ rest := by
        simp only [linesOfAll, List.append_assoc, openGroup_linesAt]
      have hstay : resumed before (linesOfAll d (v.behind none :: vs) ++ rest) =
          swept before (linesOfAll d (v.behind none :: vs) ++ rest) := by
        apply resumed_eq_swept
        intro l hl
        refine ⟨hb l hl, ?_⟩
        rw [linesOfAll, List.append_assoc]
        exact not_emptyGroup_linesAt l (v.behind none) d _
      rw [ht.first hp d before _ hc, hnext, hstay]
      exact ih hv hvs

theorem afterGroup_of_first {d : Nat} {before : List WhereLine} (rest : List WhereLine)
    (hc : ∀ op, before.head? ≠ some (.connective d op)) :
    afterGroup d before rest = stepBack before (openGroup d rest) := by
  unfold afterGroup
  split
  · next k op before =>
    have hk : k ≠ d := fun h => hc op (by rw [h]; rfl)
    rw [if_neg hk]
  · rfl

/-- From its opening line on, a group is swept member by member. -/
theorem swept_group {t : LogicalTree String} {ts : List (LogicalTree String)}
    (hfirst : t.connective = none) (ht : Sweeps t)
    (hts : ∀ t ∈ ts, t.connective.isSome ∧ Sweeps t) (d : Nat) (before rest : List WhereLine) :
    swept before (.opening d :: (linesOfAll (d + 1) (t :: ts) ++ .closing d :: rest)) =
      match survivors (t :: ts) with
      | [] => swept (afterGroup d before rest).1 (afterGroup d before rest).2
      | u :: us => swept (((group none (u.behind none :: us)).linesAt d).reverse ++ before) rest := by
  have hopen : swept before (.opening d :: (linesOfAll (d + 1) (t :: ts) ++ .closing d :: rest)) =
      swept (.opening d :: before) (linesOfAll (d + 1) (t :: ts) ++ .closing d :: rest) := by
    refine swept_goOn _ rfl ?_
    rw [linesOfAll, List.append_assoc]
    exact not_emptyGroup_linesAt _ t (d + 1) _
  have hmembers := swept_linesOfAll_first ht hts (d + 1) (.opening d :: before) (.closing d :: rest)
    (by simp [isAlwaysTrue]) (by simp) rfl
  rw [← hfirst, behind_connective] at hmembers
  rw [hopen, hmembers]
  cases survivors (t :: ts) with
  | nil => exact swept_cons before (.opening d) (.closing d :: rest)
  | cons u us =>
    dsimp only
    rw [swept_goOn (.closing d) rfl (by simp [EmptyGroup])]
    simp [linesAt_group, hfirst]

/-- A pass over a group is one over its members, each after the other. -/
theorem sweeps_group (c : Option LogicalOp) {t : LogicalTree String}
    {ts : List (LogicalTree String)} (hfirst : t.connective = none) (ht : Sweeps t)
    (hts : ∀ t ∈ ts, t.connective.isSome ∧ Sweeps t) : Sweeps (group c (t :: ts)) := by
  have hinside := swept_group hfirst ht hts
  have hfront (op : LogicalOp) (d : Nat) (before rest : List WhereLine) :
      swept before (((group c (t :: ts)).behind (some op)).linesAt d ++ rest) =
        swept (.connective d op :: before)
          (.opening d :: (linesOfAll (d + 1) (t :: ts) ++ .closing d :: rest)) := by
    rw [behind_group, linesAt_group]
    simpa using swept_goOn (.connective d op) rfl (by simp [EmptyGroup])
  have hbare (d : Nat) (rest : List WhereLine) :
      ((group c (t :: ts)).behind none).linesAt d ++ rest =
        .opening d :: (linesOfAll (d + 1) (t :: ts) ++ .closing d :: rest) := by
    simp [linesAt_group]
  rcases hs : survivors (t :: ts) with _ | ⟨u, us⟩
  · have hp : (group c (t :: ts)).prune? = none := by simp [prune?, hs]
    simp only [hs] at hinside
    refine ⟨fun h => by simp [hp] at h, fun _ d before rest hc => ?_, fun _ op d before rest => ?_⟩
    · rw [hbare, hinside, afterGroup_of_first rest hc]
      rfl
    · rw [hfront, hinside]
      simp [afterGroup, resumed]
  · have hp : (group c (t :: ts)).prune? = some (group c (u.behind none :: us)) := by
      simp [prune?, hs]
    simp only [hs] at hinside
    refine ⟨fun h k d before rest => ?_, fun h => by simp [hp] at h, fun h => by simp [hp] at h⟩
    cases hp.symm.trans h
    cases k with
    | none => rw [hbare, hinside, behind_group]
    | some op =>
      rw [hfront, hinside]
      simp [linesAt_group]

/-- A pass leaves the lines of what is left of the tree. -/
theorem sweeps_of_linked {t : LogicalTree String} (h : Linked t) : Sweeps t := by
  induction h with
  | leaf c text => exact sweeps_leaf c text
  | group c hfirst hlater _ _ iht ihts =>
    exact sweeps_group c hfirst iht fun u hu => ⟨hlater u hu, ihts u hu⟩

/-- One pass over the lines of a whole block leaves those of the pruned grouping. -/
theorem swept_lines {t : LogicalTree String} (h : Linked t) (hc : t.connective = none) :
    swept [] t.lines = t.prunedLines := by
  cases h with
  | leaf c text =>
    have hs := sweeps_leaf c text
    rw [connective] at hc
    subst hc
    cases hp : (leaf none text).prune? with
    | some u =>
      have hk := hs.kept hp none 1 [] []
      have hu : u = leaf none text := by
        rw [prune?] at hp
        split at hp <;> cases hp
        rfl
      subst hu
      simpa [lines, prunedLines, hp, swept_nil] using hk
    | none =>
      have hk := hs.first hp 1 [] [] (by simp)
      simpa [lines, prunedLines, hp, swept_nil, resumed, stepBack, openGroup] using hk
  | @group c t ts hfirst hlater ht hts =>
    have hmembers : ∀ u ∈ ts, u.connective.isSome ∧ Sweeps u :=
      fun u hu => ⟨hlater u hu, sweeps_of_linked (hts u hu)⟩
    have hk := swept_linesOfAll_first (sweeps_of_linked ht) hmembers 1 [] [] (by simp) (by simp) rfl
    rw [← hfirst, behind_connective, List.append_nil] at hk
    rw [lines, hk, prunedLines, prune?]
    cases survivors (t :: ts) with
    | nil => exact swept_nil []
    | cons u us => simp [lines, swept_nil, hfirst]

/-- What is left has at least one line. -/
theorem lines_ne_nil {t u : LogicalTree String} (h : t.prune? = some u) : u.lines ≠ [] := by
  cases t with
  | leaf c text =>
    rw [prune?] at h
    split at h <;> cases h
    simp [lines, linesAt]
  | group c ts =>
    rw [prune?] at h
    cases hs : survivors ts with
    | nil => simp [hs] at h
    | cons v vs =>
      rw [hs] at h
      cases h
      rcases v with ⟨k, text⟩ | ⟨k, us⟩ <;> simp [lines, linesOfAll, linesAt]

/-- Nothing is left exactly if no leaf applies. -/
theorem prunedLines_eq_nil_iff {t : LogicalTree String} (h : Linked t) :
    t.prunedLines = [] ↔ ∀ text ∈ t.leaves, text = alwaysTrue := by
  rw [← prune?_eq_none_iff h, prunedLines]
  cases hp : t.prune? with
  | none => simp
  | some u => simp [lines_ne_nil hp]

end LogicalTree

/-- The block is missing exactly if no line of it is left. -/
theorem SelectStatement.whereLines_eq_nil_iff {st : SelectStatement} {lines : List WhereLine}
    (h : st.filter = some lines) : st.whereLines = [] ↔ (stripAlwaysTrue lines).1 = [] := by
  rw [whereLines, h]
  cases hl : (stripAlwaysTrue lines).1 <;> simp [hl]

/-- Of the lines of a filter, the cleanup leaves those of the pruned grouping: every condition that
is not always true, at its depth and in its place, and no pair of parentheses around nothing. -/
theorem stripAlwaysTrue_compile (s : Scope) (p : Predicate) (t u : ParameterTable)
    (lines : List WhereLine) (h : Yields (p.compile s) t lines u) :
    ∃ tree : LogicalTree String,
      Yields (p.grouping.traverse (·.render s)) t tree u ∧
      tree.shape = p.grouping.shape ∧
      lines = tree.lines ∧
      (stripAlwaysTrue lines).1 = tree.prunedLines ∧
      (stripAlwaysTrue lines).1.filterMap condition? =
        (lines.filterMap condition?).filter (·.2 ≠ alwaysTrue) ∧
      (∀ l ∈ (stripAlwaysTrue lines).1, l.isAlwaysTrue = false) ∧
      (∀ d e, ¬ [.opening d, .closing e] <:+: (stripAlwaysTrue lines).1) ∧
      ((stripAlwaysTrue lines).1 = [] ↔ ∀ text ∈ tree.leaves, text = alwaysTrue) ∧
      ∀ st : SelectStatement, st.filter = some lines →
        (st.whereLines = [] ↔ ∀ text ∈ tree.leaves, text = alwaysTrue) := by
  obtain ⟨tree, htree, rfl⟩ := Predicate.yields_compile.mp h
  obtain ⟨hlinked, hconn, hshape⟩ := Predicate.linked_of_traverse htree
  have hclean := clean_swept tree.lines
  have hnil : (stripAlwaysTrue tree.lines).1 = [] ↔ ∀ text ∈ tree.leaves, text = alwaysTrue := by
    rw [stripAlwaysTrue_fst, LogicalTree.swept_lines hlinked hconn,
      LogicalTree.prunedLines_eq_nil_iff hlinked]
  refine ⟨tree, htree, hshape, rfl, ?_, ?_, ?_, ?_, hnil, fun st hst => ?_⟩
  · rw [stripAlwaysTrue_fst, LogicalTree.swept_lines hlinked hconn]
  · rw [stripAlwaysTrue_fst, filterMap_condition?_swept]
  · rw [stripAlwaysTrue_fst]
    exact hclean.applies
  · rw [stripAlwaysTrue_fst]
    exact not_infix_of_clean hclean
  · rw [SelectStatement.whereLines_eq_nil_iff hst, hnil]

namespace Demo

def studentScope : Scope where
  aliases := ⟨[⟨"s", student⟩]⟩
  names := .declared

def unnamed : Predicate :=
  .condition (.isNull (.property student "LastName") false)

def anyName : Predicate :=
  .condition (.compare (.column (.property student "FirstName")) .eq (.captured ⟨"name", .null⟩))

-- Of the five conditions, only the fourth applies; a whole group before it does not.
def partlyAbsent : Predicate :=
  .or (.and anyName anyName) (.and anyName (.or unnamed anyName))

def partlyAbsentLines : List WhereLine :=
  [.opening 1, .condition 2 none alwaysTrue, .condition 2 (some .and) alwaysTrue, .closing 1,
   .connective 1 .or, .opening 1, .condition 2 none alwaysTrue, .connective 2 .and, .opening 2,
   .condition 3 none "s.last_name is null", .condition 3 (some .or) alwaysTrue, .closing 2,
   .closing 1]

end Demo

theorem stripAlwaysTrue_compile_partlyAbsent :
    Yields (Demo.partlyAbsent.compile Demo.studentScope) {} Demo.partlyAbsentLines {} ∧
      (stripAlwaysTrue Demo.partlyAbsentLines).1 ≠ [] ∧
      (stripAlwaysTrue Demo.partlyAbsentLines).1.filterMap condition? =
        [(3, "s.last_name is null")] := by
  obtain ⟨tree, htree, -, -, -, hconditions, -, -, hnil, -⟩ :=
    stripAlwaysTrue_compile Demo.studentScope Demo.partlyAbsent {} {} Demo.partlyAbsentLines rfl
  have hkept : (stripAlwaysTrue Demo.partlyAbsentLines).1.filterMap condition? =
      [(3, "s.last_name is null")] := hconditions.trans (by decide)
  refine ⟨rfl, fun h => ?_, hkept⟩
  rw [h] at hkept
  cases hkept

end SqlSelect
