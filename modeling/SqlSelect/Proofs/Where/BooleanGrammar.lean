import SqlSelect.Where.Line

/-! Conditions joined by `and` and `or`, as SQL reads them: `and` binds tighter than `or`, operators
of one kind group from the left, and parentheses go before both. Every sequence of tokens has at
most one reading. -/
namespace SqlSelect

inductive BooleanToken where
  | condition (text : String)
  | connective (op : LogicalOp)
  | opening
  | closing
deriving DecidableEq

namespace BooleanToken

def text : BooleanToken → String
  | condition text => text
  | connective .and => "and"
  | connective .or => "or"
  | opening => "("
  | closing => ")"

def condition? : BooleanToken → Option String
  | condition text => some text
  | _ => none

-- A line of tokens, with a blank between them and so many tabs in front.
def line (tabs : Nat) (tokens : List BooleanToken) : String :=
  String.ofList (List.replicate tabs '\t') ++ " ".intercalate (tokens.map text)

end BooleanToken

-- What a line adds to the expression; its tabs are nothing to a reader.
def WhereLine.tokens : WhereLine → List BooleanToken
  | condition _ none text => [.condition text]
  | condition _ (some op) text => [.connective op, .condition text]
  | connective _ op => [.connective op]
  | opening _ => [.opening]
  | closing _ => [.closing]

/-- A printed line has its tokens and nothing else behind its tabs. -/
theorem WhereLine.text_eq_line (l : WhereLine) : l.text = BooleanToken.line l.depth l.tokens := by
  have hop (op : LogicalOp) : (BooleanToken.connective op).text = op.sql := by cases op <;> rfl
  cases l with
  | condition d op text =>
    cases op with
    | none => rfl
    | some op =>
      have hwords : " ".intercalate [op.sql, text] = op.sql ++ " " ++ text := rfl
      rw [BooleanToken.line, tokens, List.map_cons, hop, List.map_singleton]
      exact congrArg (Text.tabs d ++ ·) hwords.symm
  | connective d op =>
    rw [BooleanToken.line, tokens, List.map_singleton, hop]
    rfl
  | opening d => rfl
  | closing d => rfl

inductive BooleanExpr where
  | condition (text : String)
  | enclosed (e : BooleanExpr)
  | joined (op : LogicalOp) (left right : BooleanExpr)
deriving DecidableEq

def LogicalOp.apply : LogicalOp → Bool → Bool → Bool
  | and, a, b => a && b
  | or, a, b => a || b

namespace BooleanExpr

def value (v : String → Bool) : BooleanExpr → Bool
  | condition text => v text
  | enclosed e => e.value v
  | joined op l r => op.apply (l.value v) (r.value v)

inductive Level where
  | operand
  | conjunction
  | disjunction

-- The tokens are read as the expression, where one of this level is due.
inductive Reading : Level → List BooleanToken → BooleanExpr → Prop
  | condition (text : String) : Reading .operand [.condition text] (condition text)
  | enclosed {ts : List BooleanToken} {e : BooleanExpr} (h : Reading .disjunction ts e) :
      Reading .operand (.opening :: (ts ++ [.closing])) (enclosed e)
  | operand {ts : List BooleanToken} {e : BooleanExpr} (h : Reading .operand ts e) :
      Reading .conjunction ts e
  | and {ls rs : List BooleanToken} {l r : BooleanExpr} (hl : Reading .conjunction ls l)
      (hr : Reading .operand rs r) :
      Reading .conjunction (ls ++ .connective .and :: rs) (joined .and l r)
  | conjunction {ts : List BooleanToken} {e : BooleanExpr} (h : Reading .conjunction ts e) :
      Reading .disjunction ts e
  | or {ls rs : List BooleanToken} {l r : BooleanExpr} (hl : Reading .disjunction ls l)
      (hr : Reading .conjunction rs r) :
      Reading .disjunction (ls ++ .connective .or :: rs) (joined .or l r)

-- A left operand, if there is one, takes what was read behind it.
def joinTo (op : LogicalOp) (left : Option BooleanExpr) (e : BooleanExpr) : BooleanExpr :=
  match left with
  | none => e
  | some l => joined op l e

-- The left operands of an `or` and of an `and` that wait for what a parenthesis encloses.
structure Waiting where
  disjunction : Option BooleanExpr
  conjunction : Option BooleanExpr

mutual

-- Reads on where an operand is due.
def readOperand (outer : List Waiting) (disj conj : Option BooleanExpr) :
    List BooleanToken → Option BooleanExpr
  | .condition text :: ts => readOperator outer disj (joinTo .and conj (condition text)) ts
  | .opening :: ts => readOperand (⟨disj, conj⟩ :: outer) none none ts
  | _ => none

-- Reads on behind the conjunction `e`.
def readOperator (outer : List Waiting) (disj : Option BooleanExpr) (e : BooleanExpr) :
    List BooleanToken → Option BooleanExpr
  | [] => if outer.isEmpty then some (joinTo .or disj e) else none
  | .connective .and :: ts => readOperand outer disj (some e) ts
  | .connective .or :: ts => readOperand outer (some (joinTo .or disj e)) none ts
  | .closing :: ts =>
    match outer with
    | w :: outer =>
      readOperator outer w.disjunction
        (joinTo .and w.conjunction (enclosed (joinTo .or disj e))) ts
    | [] => none
  | _ => none

end

def read? (ts : List BooleanToken) : Option BooleanExpr :=
  readOperand [] none none ts

-- What reading the tokens of one level does in the middle of a text.
def ReadsOn : Level → List BooleanToken → BooleanExpr → Prop
  | .operand, ts, e => ∀ outer disj conj rest,
    readOperand outer disj conj (ts ++ rest) = readOperator outer disj (joinTo .and conj e) rest
  | .conjunction, ts, e => ∀ outer disj rest,
    readOperand outer disj none (ts ++ rest) = readOperator outer disj e rest
  | .disjunction, ts, e => ∃ disj last, joinTo .or disj last = e ∧ ∀ outer rest,
    readOperand outer none none (ts ++ rest) = readOperator outer disj last rest

/-- Tokens are read as their expression in the middle of a text, too. -/
theorem readsOn_of_reading {level : Level} {ts : List BooleanToken} {e : BooleanExpr}
    (h : Reading level ts e) : ReadsOn level ts e := by
  induction h with
  | condition text =>
    intro outer disj conj rest
    rfl
  | @enclosed ts e _ ih =>
    obtain ⟨disj', last, rfl, hread⟩ := ih
    intro outer disj conj rest
    rw [List.cons_append, List.append_assoc, readOperand, hread]
    rfl
  | operand _ ih =>
    intro outer disj rest
    exact ih outer disj none rest
  | @and ls rs l r _ _ ihl ihr =>
    intro outer disj rest
    rw [List.append_assoc, ihl, List.cons_append, readOperator, ihr]
    rfl
  | @conjunction ts e _ ih => exact ⟨none, e, rfl, fun outer rest => ih outer none rest⟩
  | @or ls rs l r _ _ ihl ihr =>
    obtain ⟨disj, last, rfl, hread⟩ := ihl
    refine ⟨some (joinTo .or disj last), r, rfl, fun outer rest => ?_⟩
    rw [List.append_assoc, hread, List.cons_append, readOperator, ihr]

/-- The reader gives the expression that the tokens are read as. -/
theorem read?_of_reading {ts : List BooleanToken} {e : BooleanExpr}
    (h : Reading .disjunction ts e) : read? ts = some e := by
  obtain ⟨disj, last, rfl, hread⟩ := readsOn_of_reading h
  have hend := hread [] []
  rw [List.append_nil] at hend
  rw [read?, hend]
  rfl

example (a b c : String) :
    read? [.condition a, .connective .or, .condition b, .connective .and, .condition c] =
      some (joined .or (condition a) (joined .and (condition b) (condition c))) := rfl

/-- Tokens are read as one expression at most. -/
theorem reading_unique {ts : List BooleanToken} {e e' : BooleanExpr}
    (h : Reading .disjunction ts e) (h' : Reading .disjunction ts e') : e' = e :=
  Option.some.inj ((read?_of_reading h').symm.trans (read?_of_reading h))

/-- Two operands and a connective need no parentheses inside. -/
theorem reading_joined {ls rs : List BooleanToken} {l r : BooleanExpr} (op : LogicalOp)
    (hl : Reading .operand ls l) (hr : Reading .operand rs r) :
    Reading .disjunction (ls ++ .connective op :: rs) (joined op l r) := by
  cases op with
  | and => exact .conjunction (.and (.operand hl) hr)
  | or => exact .or (.conjunction (.operand hl)) (.operand hr)

end BooleanExpr

end SqlSelect
