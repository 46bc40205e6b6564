import ParseReport.Position.Cursor

/-!
# Tokens

The checker reads a text as a row of tokens, each of at least one character.
A string literal is one token: it runs from a quote to the next quote that no
backslash escapes, and what it holds is not looked at.
-/

namespace ParseReport

namespace Check

inductive Token
  | opening (delimiter : Char)
  | closing (delimiter : Char)
  /-- A string literal. -/
  | literal
  /-- A string literal that the end of the text cuts off. -/
  | openLiteral
  /-- The old sign for an inequality. -/
  | oldInequality
  /-- A run of blanks, and whether its line ends with it. -/
  | blanks (trailing : Bool)
  /-- Any other character. -/
  | plain
  deriving DecidableEq, Repr

/-- Spaces and tabs. -/
def isBlank (c : Char) : Bool := c = ' ' ∨ c = '\t'

/-- Whether a line ends where `t` begins. -/
def endsLine : Text → Bool
  | [] => true
  | '\n' :: _ => true
  | '\r' :: '\n' :: _ => true
  | _ => false

/-- Counts the characters of a literal after its opening quote up to and with the closing one,
when `passed` of them are counted already; none if it is not closed. -/
def literalLength? : Text → Nat → Option Nat
  | [], _ => none
  | '"' :: _, passed => some (passed + 1)
  | ['\\'], _ => none
  | '\\' :: _ :: t, passed => literalLength? t (passed + 2)
  | _ :: t, passed => literalLength? t (passed + 1)

/-- Reads on after the opening quote of a literal. -/
def restOfLiteral (c : Cursor) : Token × Cursor :=
  match literalLength? c.rest 0 with
  | some length => (.literal, c.advance length)
  | none => (.openLiteral, c.advance c.rest.length)

/-- Reads on after the first character of a token. -/
def restOfToken (first : Char) (c : Cursor) : Token × Cursor :=
  match first with
  | '(' | '[' | '{' => (.opening first, c)
  | ')' | ']' | '}' => (.closing first, c)
  | '"' => restOfLiteral c
  | '<' =>
    match c.eat? '>' with
    | some c => (.oldInequality, c)
    | none => (.plain, c)
  | ' ' | '\t' =>
    let c := (c.eatWhile isBlank).2
    (.blanks (endsLine c.rest), c)
  | _ => (.plain, c)

/-- Reads the next token. -/
def token? (c : Cursor) : Option (Token × Cursor) :=
  c.bump?.map fun (first, c) => restOfToken first c

/-- Only what follows the first character is read on. -/
theorem restOfToken_advance (first : Char) (c : Cursor) :
    ∃ n, (restOfToken first c).2 = c.advance n := by
  have stay : ∃ n, c = c.advance n := ⟨0, c.advance_zero.symm⟩
  unfold restOfToken
  split
  any_goals exact stay
  · unfold restOfLiteral
    split <;> exact ⟨_, rfl⟩
  · unfold Cursor.eat?
    split
    · rename_i h
      split at h
      · cases h
        exact ⟨1, rfl⟩
      · simp at h
    · exact stay
  · exact ⟨_, rfl⟩
  · exact ⟨_, rfl⟩

/-- Every token takes at least one character. -/
theorem length_rest_of_token? {c next : Cursor} {token : Token} (h : token? c = some (token, next)) :
    next.rest.length < c.rest.length := by
  simp only [token?, Option.map_eq_some_iff] at h
  obtain ⟨⟨first, c'⟩, hbump, hrest⟩ := h
  obtain ⟨n, hn⟩ := restOfToken_advance first c'
  have : next = c'.advance n := by rw [← hn, hrest]
  rw [this, Cursor.rest_of_bump? hbump, Cursor.rest_advance, List.length_drop, List.length_cons]
  omega

end Check

end ParseReport
