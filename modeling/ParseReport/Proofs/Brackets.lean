import ParseReport.Proofs.Findings

/-!
# Balanced delimiters

A stack takes a word of delimiters in when every closer meets the partner of the innermost
opener. The words after which the stack is as before are the words of a grammar. What a stack
that is not empty still needs is a word of this grammar for each opener on it.
-/

namespace ParseReport

namespace Delimiter
open Check

/-- Delimiters that have to stand around a word together. -/
inductive Partners : Char → Char → Prop
  | round : Partners '(' ')'
  | square : Partners '[' ']'
  | curly : Partners '{' '}'

/-- The grammar of balanced words. -/
inductive Balanced : List Char → Prop
  | empty : Balanced []
  | nest {opener closer : Char} {inner later : List Char} :
    Partners opener closer → Balanced inner → Balanced later →
      Balanced (opener :: inner ++ closer :: later)

theorem Partners.spec {opener closer : Char} (h : Partners opener closer) :
    isOpener opener = true ∧ isOpener closer = false ∧ closing? opener = some closer := by
  cases h <;> exact ⟨rfl, rfl, rfl⟩

theorem Partners.isCloser_closer {opener closer : Char} (h : Partners opener closer) :
    isCloser closer = true := by
  cases h <;> rfl

theorem partners_of_closer {opener closer : Char} (hcloser : isCloser closer = true)
    (hpair : closing? opener = some closer) : Partners opener closer := by
  have hc : closer = ')' ∨ closer = ']' ∨ closer = '}' := by simpa [isCloser] using hcloser
  rw [closing?_eq_some_iff] at hpair
  rcases hc with rfl | rfl | rfl
  · cases hpair
    exact .round
  · cases hpair
    exact .square
  · cases hpair
    exact .curly

/-- The openers on a stack after a word, the innermost first; none if a closer meets no
partner. -/
def stackAfter? : List Char → List Char → Option (List Char)
  | stack, [] => some stack
  | stack, c :: word =>
    if isOpener c then
      stackAfter? (c :: stack) word
    else
      match stack with
      | [] => none
      | opener :: stack =>
        if closing? opener = some c then stackAfter? stack word else none

variable {opener closer : Char} {stack inner later word : List Char}

theorem stackAfter?_opener (h : isOpener opener = true) :
    stackAfter? stack (opener :: word) = stackAfter? (opener :: stack) word := by
  cases stack <;> simp [stackAfter?, h]

theorem stackAfter?_extra (h : isOpener closer = false) :
    stackAfter? [] (closer :: word) = none := by
  simp [stackAfter?, h]

theorem stackAfter?_closer (h : isOpener closer = false) :
    stackAfter? (opener :: stack) (closer :: word) =
      if closing? opener = some closer then stackAfter? stack word else none := by
  simp [stackAfter?, h]

/-- A balanced word leaves every stack as it is. -/
theorem Balanced.stackAfter?_append (h : Balanced word) (stack later : List Char) :
    stackAfter? stack (word ++ later) = stackAfter? stack later := by
  induction h generalizing stack later with
  | empty => rfl
  | @nest opener closer inner rest hpartners hinner hrest ihinner ihrest =>
      obtain ⟨hopener, hcloser, hpair⟩ := hpartners.spec
      calc
        stackAfter? stack (opener :: inner ++ closer :: rest ++ later)
            = stackAfter? (opener :: stack) (inner ++ closer :: (rest ++ later)) := by
          rw [List.append_assoc, List.cons_append, stackAfter?_opener hopener]
          rfl
        _ = stackAfter? (opener :: stack) (closer :: (rest ++ later)) := ihinner _ _
        _ = stackAfter? stack (rest ++ later) := by
          rw [stackAfter?_closer hcloser, if_pos hpair]
        _ = stackAfter? stack later := ihrest _ _

/-- The word closes what is on the stack, with balanced words in between. -/
inductive Closes : List Char → List Char → Prop
  | nil {word : List Char} : Balanced word → Closes [] word
  | cons {opener closer : Char} {stack inner later : List Char} :
    Balanced inner → Partners opener closer → Closes stack later →
      Closes (opener :: stack) (inner ++ closer :: later)

theorem Closes.nest (hpartners : Partners opener closer) (hinner : Balanced inner)
    (h : Closes stack later) : Closes stack (opener :: inner ++ closer :: later) := by
  cases h with
  | nil hlater => exact .nil (.nest hpartners hinner hlater)
  | cons hmore hpartners' hrest =>
      have hboth := Closes.cons (.nest hpartners hinner hmore) hpartners' hrest
      rwa [List.append_assoc, List.cons_append] at hboth

theorem closes_of_stackAfter? (hword : ∀ c ∈ word, isOpener c = true ∨ isCloser c = true)
    (h : stackAfter? stack word = some []) : Closes stack word := by
  induction word generalizing stack with
  | nil =>
      cases h
      exact .nil .empty
  | cons c word ih =>
      have hlater : ∀ d ∈ word, isOpener d = true ∨ isCloser d = true :=
        fun d hd => hword d (List.mem_cons_of_mem c hd)
      cases hopener : isOpener c with
      | true =>
          rw [stackAfter?_opener hopener] at h
          -- The word closes `c` first, and what it does after that is left for the stack.
          cases ih hlater h with
          | cons hinner hpartners hrest => exact hrest.nest hpartners hinner
      | false =>
          have hcloser : isCloser c = true := by
            rcases hword c List.mem_cons_self with hother | hcloser
            · rw [hopener] at hother
              cases hother
            · exact hcloser
          cases stack with
          | nil =>
              rw [stackAfter?_extra hopener] at h
              cases h
          | cons opener stack =>
              rw [stackAfter?_closer hopener] at h
              split at h
              · next hpair =>
                exact .cons .empty (partners_of_closer hcloser hpair) (ih hlater h)
              · cases h

/-- The grammar and the stack accept the same words of delimiters. -/
theorem balanced_iff_stackAfter? (hword : ∀ c ∈ word, isOpener c = true ∨ isCloser c = true) :
    Balanced word ↔ stackAfter? [] word = some [] := by
  constructor
  · intro h
    have hrun := h.stackAfter?_append [] []
    rwa [List.append_nil] at hrun
  · intro h
    cases closes_of_stackAfter? hword h with
    | nil hbalanced => exact hbalanced

end Delimiter

end ParseReport
