import KpiReport.Formula.Position

/-!
# Tokens

The words of a formula: brackets, the five operator signs, unsigned numbers and identifiers.
White space separates words and is not one of them.
-/

namespace KpiReport.Formula

/-- The kinds of token. `cross` is the second spelling of multiplication. -/
inductive TokenKind where
  | openParen
  | closeParen
  | plus
  | minus
  | times
  | cross
  | slash
  | number
  | ident
deriving DecidableEq, Repr, Inhabited

/-- The name under which a token kind is reported. -/
def TokenKind.label : TokenKind → String
  | .openParen => "Ob"
  | .closeParen => "Cb"
  | .plus => "Plus"
  | .minus => "Minus"
  | .times => "Mul"
  | .cross => "FMul"
  | .slash => "Div"
  | .number => "Number"
  | .ident => "Ident"

/-- A sum sign. -/
def TokenKind.isAddOp : TokenKind → Bool
  | .plus | .minus => true
  | _ => false

/-- A product sign. -/
def TokenKind.isMulOp : TokenKind → Bool
  | .times | .cross | .slash => true
  | _ => false

/-- A word of a formula, with its text and the place where it starts. -/
structure Token where
  kind : TokenKind
  text : String
  pos : Position
deriving DecidableEq, Repr, Inhabited

end KpiReport.Formula
