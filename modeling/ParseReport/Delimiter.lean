import ParseReport.Text.Basic

/-!
# Delimiters

Round, square, curly and angle brackets come in pairs.
-/

namespace ParseReport.Delimiter

/-- The partner of an opening delimiter. -/
def closing? : Char → Option Char
  | '(' => some ')'
  | '[' => some ']'
  | '{' => some '}'
  | '<' => some '>'
  | _ => none

/-- The partner of a closing delimiter. -/
def opening? : Char → Option Char
  | ')' => some '('
  | ']' => some '['
  | '}' => some '{'
  | '>' => some '<'
  | _ => none

/-- The two directions belong to one pairing. -/
theorem closing?_eq_some_iff {a b : Char} : closing? a = some b ↔ opening? b = some a := by
  constructor
  · fun_cases closing? a <;> simp +contextual [eq_comm, opening?]
  · fun_cases opening? b <;> simp +contextual [eq_comm, closing?]

end ParseReport.Delimiter
