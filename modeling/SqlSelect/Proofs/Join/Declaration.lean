import SqlSelect.Proofs.Join.Conjunction
import SqlSelect.Proofs.Path.Grammar

/-! The three ways to declare a join are one: a text and a key stand for predicates, and resolve as
those do, also where they fail. -/
namespace SqlSelect

/-- A text of joins has at least one equality. -/
theorem Path.JoinText.ne_nil {text : List Char} {es : List PathEquality} (h : JoinText text es) :
    es ≠ [] := by
  have hconjunction : ∀ {text es}, ConjunctionText text es → es ≠ [] := by
    intro text es h
    cases h <;> exact List.cons_ne_nil _ _
  cases h with
  | plain h => exact hconjunction h
  | enclosed _ h _ => exact hconjunction h

namespace Predicate

/-- However many equalities are chained, their columns come out in order. -/
theorem columnPairs_of_all? {pairs : List (ColumnRef × ColumnRef)} {p : Predicate}
    (h : all? (pairs.map fun pair => equality pair.1 pair.2) = some p) :
    p.columnPairs = .ok pairs := by
  cases pairs with
  | nil => cases h
  | cons first pairs =>
    cases h
    induction pairs using List.reverseRecOn with
    | nil => rfl
    | append_singleton pairs last ih =>
      rw [List.map_append, List.foldl_append]
      exact columnPairs_and ih rfl

end Predicate

namespace JoinSpec

/-- Declared equalities can be said as a predicate. -/
theorem exists_all?_of_parseAll {conditions : String} {es : List PathEquality}
    (h : PathEquality.parseAll conditions = .ok es) (names : Resolver) :
    ∃ p, Predicate.all? (es.map fun e => .equality (.path e.left.text) (.path e.right.text)) =
        some p ∧ (text conditions).pairs names = (predicate p).pairs names := by
  obtain ⟨first, rest, rfl⟩ :=
    List.exists_cons_of_ne_nil (PathEquality.parseAll_eq_ok.mp h).ne_nil
  refine ⟨_, rfl, (pairs_text_eq_ok.mpr ⟨_, h, rfl⟩).trans ?_⟩
  refine (Predicate.columnPairs_of_all? ?_).symm
  rw [List.map_map]
  rfl

/-- A text resolves as the chain of its equalities, with every path taken for what it was read
from; a key resolves as the equality with the primary key. -/
theorem resolve_declarations (kind : JoinKind) (aliases : AliasRegistry) (names : Resolver) :
    (∀ conditions es, PathEquality.parseAll conditions = .ok es →
      (∀ e ∈ es, ColumnPath.parse e.left.text = .ok e.left ∧
        ColumnPath.parse e.right.text = .ok e.right) ∧
      ∃ p, Predicate.all? (es.map fun e =>
          .equality (.path e.left.text) (.path e.right.text)) = some p ∧
        (text conditions).resolve kind aliases names =
          (predicate p).resolve kind aliases names) ∧
    ∀ source foreignKey target k, names.primaryKey target = .ok k →
      (key source foreignKey target).resolve kind aliases names =
        (predicate (.equality (.property source foreignKey) (.property target k))).resolve kind
          aliases names := by
  constructor
  · intro conditions es h
    constructor
    · intro e he
      obtain ⟨hleft, hright⟩ := PathEquality.named_of_parseAll h e he
      exact ⟨ColumnPath.parse_text hleft, ColumnPath.parse_text hright⟩
    · obtain ⟨p, hp, hpairs⟩ := exists_all?_of_parseAll h names
      exact ⟨p, hp, resolve_congr hpairs⟩
  · intro source foreignKey target k hk
    exact resolve_congr (pairs_key_eq_ok.mpr ⟨k, hk, rfl⟩)

/-- The text is a conjunction whatever its gaps and parentheses, and the key is the first of its
equalities. -/
theorem resolve_declarations_enclosed :
    (text " ( (s.ClassRoomId==c.Id )&&\ts.Id == c.Grade ) ").resolve .inner
        ⟨[⟨"s", Demo.student⟩, ⟨"c", Demo.classRoom⟩]⟩ .declared =
      (predicate (.and (.equality (.path "s.ClassRoomId") (.path "c.Id"))
        (.equality (.path "s.Id") (.path "c.Grade")))).resolve .inner
          ⟨[⟨"s", Demo.student⟩, ⟨"c", Demo.classRoom⟩]⟩ .declared ∧
    (key Demo.student "ClassRoomId" Demo.classRoom).resolve .inner
        ⟨[⟨"s", Demo.student⟩, ⟨"c", Demo.classRoom⟩]⟩ .declared =
      (predicate (.equality (.property Demo.student "ClassRoomId")
        (.property Demo.classRoom "Id"))).resolve .inner
          ⟨[⟨"s", Demo.student⟩, ⟨"c", Demo.classRoom⟩]⟩ .declared := by
  obtain ⟨htext, hkey⟩ := resolve_declarations .inner
    ⟨[⟨"s", Demo.student⟩, ⟨"c", Demo.classRoom⟩]⟩ .declared
  have hread : PathEquality.parseAll " ( (s.ClassRoomId==c.Id )&&\ts.Id == c.Grade ) " =
      .ok [⟨⟨"s", "ClassRoomId"⟩, ⟨"c", "Id"⟩⟩, ⟨⟨"s", "Id"⟩, ⟨"c", "Grade"⟩⟩] :=
    Except.toOption_eq_some.mp (by decide +kernel)
  obtain ⟨-, p, hp, hresolve⟩ := htext _ _ hread
  cases hp
  exact ⟨hresolve, hkey _ _ _ _ rfl⟩

end JoinSpec

end SqlSelect
