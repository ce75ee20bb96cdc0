import Calculator.Error

/-!
# Checking an expression

One pass over the tokens that keeps the token before and the parentheses
still open. Each token is judged by its neighbour on the left first, then by
its parenthesis; what is missing at the end comes last. The first reason met
is the one reported.
-/

namespace Calculator

/-- What the tokens read so far leave behind. -/
structure Progress where
  /-- How many tokens were read. -/
  position : Nat := 0
  previous : Option Token := none
  /-- Positions of the parentheses still open, the innermost first. -/
  opened : List Nat := []
deriving DecidableEq, Repr

/-! ## Neighbours -/

namespace Token

/-- Whether a token begins an operand: a number or a group. -/
def startsOperand : Token → Bool
  | number _ | lpar => true
  | op _ | rpar => false

/-- Whether an operand must come after what was read: at the start, after an
operator and after an opening parenthesis. -/
def operandDue : Option Token → Bool
  | none => true
  | some (number _) | some rpar => false
  | some (op _) | some lpar => true

/-- What is wrong with a token that is not of the kind that is due. -/
def neighbourFault : Option Token → Token → Fault
  | some (number _), number _ => .adjacentOperands
  | some (number _), lpar => .groupAfterOperand
  | some (op a), op b => .adjacentOperators a b
  | none, t => .badStart t
  | some p, t => .misplaced t p

end Token

/-! ## The pass -/

namespace Progress

/-- Reads one token, or tells why it cannot stand here. -/
def step (p : Progress) (t : Token) : Except Malformed Progress :=
  if t.startsOperand = Token.operandDue p.previous then
    match t, p.opened with
    | .rpar, [] => .error (.atToken p.position .unmatchedClose)
    | .rpar, _ :: outer => .ok ⟨p.position + 1, some t, outer⟩
    | .lpar, opened => .ok ⟨p.position + 1, some t, p.position :: opened⟩
    | _, opened => .ok ⟨p.position + 1, some t, opened⟩
  else
    .error (.atToken p.position (Token.neighbourFault p.previous t))

/-- Whether the tokens may end here, and if not, why. -/
def finish (p : Progress) : Except Malformed Unit :=
  match p.previous, p.opened with
  | some (.op o), _ => .error (.unexpectedEnd (.op o))
  | some .lpar, _ => .error (.unexpectedEnd .lpar)
  | _, i :: _ => .error (.unclosedGroup i)
  | _, [] => .ok ()

end Progress

/-! ## The whole list -/

/-- Succeeds exactly on the expressions of three tokens and more. -/
def checkExpression (ts : List Token) : Except Malformed Unit :=
  if ts.length < minTokens then
    .error (.tooShort ts.length)
  else
    ts.foldlM Progress.step {} >>= Progress.finish

end Calculator
