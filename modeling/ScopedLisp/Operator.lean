/-!
# Binary operators

The nine operators of the language and the symbols that write them.  A symbol
names at most one operator and every operator is named by its own symbol.
-/

namespace ScopedLisp

/-- Arithmetic, order and equality. -/
inductive Operator where
  | add
  | subtract
  | multiply
  | divide
  | less
  | greater
  | lessOrEqual
  | greaterOrEqual
  | equal
  deriving DecidableEq, Inhabited

namespace Operator

/-- The text that writes an operator. -/
def symbol : Operator → String
  | .add => "+"
  | .subtract => "-"
  | .multiply => "*"
  | .divide => "/"
  | .less => "<"
  | .greater => ">"
  | .lessOrEqual => "<="
  | .greaterOrEqual => ">="
  | .equal => "="

/-- The operator that a text writes. -/
def ofSymbol? : String → Option Operator
  | "+" => some .add
  | "-" => some .subtract
  | "*" => some .multiply
  | "/" => some .divide
  | "<" => some .less
  | ">" => some .greater
  | "<=" => some .lessOrEqual
  | ">=" => some .greaterOrEqual
  | "=" => some .equal
  | _ => none

@[simp]
theorem ofSymbol?_symbol (operator : Operator) :
    ofSymbol? operator.symbol = some operator := by
  cases operator <;> rfl

/-- A text is read as an operator exactly if it is that operator's symbol. -/
theorem ofSymbol?_eq_some_iff {text : String} {operator : Operator} :
    ofSymbol? text = some operator ↔ text = operator.symbol := by
  constructor
  · intro read
    unfold ofSymbol? at read
    split at read <;>
      first
        | (obtain rfl := Option.some.inj read; rfl)
        | contradiction
  · rintro rfl
    exact ofSymbol?_symbol operator

end Operator

end ScopedLisp
