import ParseReport.Proofs.LiteralContents
import ParseReport.Proofs.Matches
import ParseReport.Proofs.SlicedReading

/-!
# Loops that consume a text

A reader that can only bump and eat notes each character that it consumes. A loop on such a reader
makes passes until one of them leaves it, and as every other pass consumes at least one character,
it comes to an end. The loop over a literal and the loop over a run of characters come to where a
literal or a run is passed at once.
-/

namespace ParseReport

namespace Text

/-- The characters of a text that begins at an offset, each with its own offset. -/
def placed : Nat → Text → List (Nat × Char)
  | _, [] => []
  | offset, c :: t => (offset, c) :: placed (offset + c.utf8Size) t

theorem placed_append (offset : Nat) (a b : Text) :
    placed offset (a ++ b) = placed offset a ++ placed (offset + a.size) b := by
  induction a generalizing offset with
  | nil => rfl
  | cons c a ih =>
      rw [List.cons_append, placed, ih, placed, size_cons, Nat.add_assoc]
      rfl

theorem le_of_mem_placed {offset : Nat} {t : Text} {entry : Nat × Char}
    (h : entry ∈ placed offset t) : offset ≤ entry.1 := by
  induction t generalizing offset with
  | nil => cases h
  | cons c t ih =>
      rcases List.mem_cons.mp h with rfl | h
      · exact Nat.le_refl _
      · exact (Nat.le_add_right _ _).trans (ih h)

/-- No two characters stand at one offset. -/
theorem nodup_placed (offset : Nat) (t : Text) : (placed offset t).Nodup := by
  induction t generalizing offset with
  | nil => exact List.nodup_nil
  | cons c t ih =>
      refine List.nodup_cons.mpr ⟨fun hmem => ?_, ih _⟩
      exact absurd (le_of_mem_placed hmem) (Nat.not_le.mpr (Nat.lt_add_of_pos_right c.utf8Size_pos))

end Text

/-- A cursor with the characters that its successful bumps and eats have consumed, each with its
offset. -/
structure TracingReader where
  cursor : Cursor
  consumed : List (Nat × Char)

namespace TracingReader
variable {r next last : TracingReader} {c : Char}

/-- The reader at the start of a text. -/
def start (t : Text) : TracingReader := ⟨.start t, []⟩

/-- Notes a character that was passed on the way to `cursor`. -/
def note (r : TracingReader) (c : Char) (cursor : Cursor) : TracingReader :=
  ⟨cursor, r.consumed ++ [(r.cursor.offset, c)]⟩

/-- Consumes the next character. -/
def bump (r : TracingReader) : Option Char × TracingReader :=
  match r.cursor.bump? with
  | none => (none, r)
  | some (c, cursor) => (some c, r.note c cursor)

/-- Consumes the next character if it is `expected`. -/
def eat (r : TracingReader) (expected : Char) : Bool × TracingReader :=
  match r.cursor.eat? expected with
  | none => (false, r)
  | some cursor => (true, r.note expected cursor)

/-- The reader behind the next character. -/
def past (r : TracingReader) (c : Char) : TracingReader := r.note c (r.cursor.advance 1)

theorem bump_of_none (h : r.cursor.peek? = none) : r.bump = (none, r) := by
  rw [bump, Cursor.bump?, h]
  rfl

theorem bump_of_some (h : r.cursor.peek? = some c) : r.bump = (some c, r.past c) := by
  rw [bump, Cursor.bump?, h]
  rfl

theorem eat_of_peek? (h : r.cursor.peek? = some c) : r.eat c = (true, r.past c) := by
  rw [eat, Cursor.eat?, if_pos h]
  rfl

theorem eat_of_ne (h : r.cursor.peek? ≠ some c) : r.eat c = (false, r) := by
  rw [eat, Cursor.eat?, if_neg h]

/-- Between the two readers each character of `part` was consumed, once and in order. -/
structure Reads (r : TracingReader) (part : Text) (next : TracingReader) : Prop where
  passes : r.cursor.Passes part next.cursor
  consumed : next.consumed = r.consumed ++ part.placed r.cursor.offset

namespace Reads
variable {part more : Text}

theorem refl (r : TracingReader) : r.Reads [] r := ⟨.refl _, (List.append_nil _).symm⟩

theorem trans (h : r.Reads part next) (h' : next.Reads more last) : r.Reads (part ++ more) last := by
  refine ⟨h.passes.trans h'.passes, ?_⟩
  rw [h'.consumed, h.consumed, h.passes.offset, Text.placed_append, List.append_assoc]

theorem past (h : r.cursor.peek? = some c) : r.Reads [c] (r.past c) :=
  ⟨Cursor.passes_advance_one h, rfl⟩

end Reads

/-- The reader went on or stayed, and consumed each character on its way once. -/
def Follows (r next : TracingReader) : Prop := ∃ part, r.Reads part next

/-- The reader went on by at least one character, and consumed each character on its way once. -/
def Advances (r next : TracingReader) : Prop := ∃ part, part ≠ [] ∧ r.Reads part next

theorem Follows.refl (r : TracingReader) : r.Follows r := ⟨[], .refl r⟩

theorem Follows.trans (h : r.Follows next) (h' : next.Follows last) : r.Follows last := by
  obtain ⟨part, hpart⟩ := h
  obtain ⟨more, hmore⟩ := h'
  exact ⟨_, hpart.trans hmore⟩

theorem Advances.follows (h : r.Advances next) : r.Follows next := by
  obtain ⟨part, -, hpart⟩ := h
  exact ⟨part, hpart⟩

theorem advances_past (h : r.cursor.peek? = some c) : r.Advances (r.past c) :=
  ⟨[c], List.cons_ne_nil c [], .past h⟩

theorem Advances.trans_follows (h : r.Advances next) (h' : next.Follows last) : r.Advances last := by
  obtain ⟨part, hne, hpart⟩ := h
  obtain ⟨more, hmore⟩ := h'
  exact ⟨_, List.append_ne_nil_of_left_ne_nil hne more, hpart.trans hmore⟩

theorem follows_bump (r : TracingReader) : r.Follows r.bump.2 := by
  cases hnext : r.cursor.peek? with
  | none =>
      rw [bump_of_none hnext]
      exact .refl r
  | some c =>
      rw [bump_of_some hnext]
      exact (advances_past hnext).follows

theorem follows_eat (r : TracingReader) (expected : Char) : r.Follows (r.eat expected).2 := by
  by_cases hnext : r.cursor.peek? = some expected
  · rw [eat_of_peek? hnext]
    exact (advances_past hnext).follows
  · rw [eat_of_ne hnext]
    exact .refl r

/-- Less of the text is left after an advance. -/
theorem Advances.length_rest_lt (h : r.Advances next) :
    next.cursor.rest.length < r.cursor.rest.length := by
  obtain ⟨part, hne, hpart⟩ := h
  have hpos := List.length_pos_of_ne_nil hne
  rw [hpart.passes.rest, List.length_append]
  omega

end TracingReader

/-- What one pass of a loop comes to. -/
inductive Pass (σ ρ : Type)
  | leave (result : ρ) (state : σ)
  | again (state : σ)

namespace Pass
variable {σ ρ α : Type}

/-- A pass that leaves may have gone on, and a pass that does not leave has. -/
def Consumes (reader : σ → TracingReader) (x : σ) : Pass σ ρ → Prop
  | leave _ y => (reader x).Follows (reader y)
  | again y => (reader x).Advances (reader y)

/-- A value for either way that a pass can go. -/
def elim (left : ρ → σ → α) (more : σ → α) : Pass σ ρ → α
  | leave result y => left result y
  | again y => more y

end Pass

/-- A loop with a reader in its state, each pass of which leaves the loop or advances. -/
structure Loop (σ ρ : Type) where
  reader : σ → TracingReader
  pass : σ → Pass σ ρ
  consumes : ∀ x, (pass x).Consumes reader x

namespace Loop
variable {σ ρ : Type} {loop : Loop σ ρ} {x y : σ} {result : ρ}

theorem follows (h : loop.pass x = .leave result y) : (loop.reader x).Follows (loop.reader y) := by
  have hpass := loop.consumes x
  rwa [h] at hpass

theorem advances (h : loop.pass x = .again y) : (loop.reader x).Advances (loop.reader y) := by
  have hpass := loop.consumes x
  rwa [h] at hpass

/-- Makes passes until one leaves. -/
def run (loop : Loop σ ρ) (x : σ) : ρ × σ :=
  match h : loop.pass x with
  | .leave result y => (result, y)
  | .again y =>
    have := (advances h).length_rest_lt
    loop.run y
termination_by (loop.reader x).cursor.rest.length

theorem run_of_leave (h : loop.pass x = .leave result y) : loop.run x = (result, y) := by
  rw [run.eq_def]
  split <;> simp_all

theorem run_of_again (h : loop.pass x = .again y) : loop.run x = loop.run y := by
  rw [run.eq_def]
  split <;> simp_all

/-- What holds of a pass that leaves, and is handed back by each pass before it, holds of the run. -/
theorem run_induction {motive : σ → ρ → σ → Prop}
    (leave : ∀ x result y, loop.pass x = .leave result y → motive x result y)
    (again : ∀ x y result z, loop.pass x = .again y → motive y result z → motive x result z)
    (x : σ) : motive x (loop.run x).1 (loop.run x).2 := by
  -- On what is left of the text: a pass that does not leave the loop leaves less of it.
  induction hn : (loop.reader x).cursor.rest.length using Nat.strong_induction_on generalizing x with
  | _ n ih =>
      cases hpass : loop.pass x with
      | leave result y =>
          rw [run_of_leave hpass]
          exact leave x result y hpass
      | again y =>
          rw [run_of_again hpass]
          exact again x y _ _ hpass (ih _ (hn ▸ (advances hpass).length_rest_lt) y rfl)

/-- However a loop ends, each character that it passed was consumed once. -/
theorem follows_run (loop : Loop σ ρ) (x : σ) :
    (loop.reader x).Follows (loop.reader (loop.run x).2) := by
  apply run_induction (motive := fun x _ y => (loop.reader x).Follows (loop.reader y))
  · exact fun x result y hpass => follows hpass
  · exact fun x y result z hpass hrest => (advances hpass).follows.trans hrest

/-- What no pass changes is what comes out of the run. -/
theorem eq_run {α : Type} (loop : Loop σ ρ) {f : σ → α} {g : ρ → σ → α}
    (h : ∀ x, f x = (loop.pass x).elim g f) (x : σ) : f x = g (loop.run x).1 (loop.run x).2 := by
  apply run_induction (motive := fun x result y => f x = g result y)
  · intro x result y hpass
    rw [h x, hpass]
    rfl
  · intro x y result z hpass hrest
    rw [h x, hpass]
    exact hrest

end Loop

namespace Check
open TracingReader
variable {r next : TracingReader} {c : Char}

/-- One pass over a literal after its opening quote. What follows a backslash is bumped without a
look at it. The pass leaves with whether the literal is closed. -/
def literalPass (r : TracingReader) : Pass TracingReader Bool :=
  match r.bump with
  | (none, r) => .leave false r
  | (some c, r) =>
    if c = '"' then .leave true r
    else if c = '\\' then .again r.bump.2
    else .again r

theorem literalPass_of_none (h : r.cursor.peek? = none) : literalPass r = .leave false r := by
  rw [literalPass, bump_of_none h]

theorem literalPass_of_some (h : r.cursor.peek? = some c) :
    literalPass r =
      if c = '"' then .leave true (r.past c)
      else if c = '\\' then .again (r.past c).bump.2
      else .again (r.past c) := by
  rw [literalPass, bump_of_some h]

theorem literalPass_consumes (r : TracingReader) : (literalPass r).Consumes id r := by
  cases hnext : r.cursor.peek? with
  | none =>
      rw [literalPass_of_none hnext]
      exact .refl r
  | some c =>
      rw [literalPass_of_some hnext]
      split
      · exact (advances_past hnext).follows
      · split
        · exact (advances_past hnext).trans_follows (follows_bump _)
        · exact advances_past hnext

/-- The loop over a literal. -/
def literalLoop : Loop TracingReader Bool := ⟨id, literalPass, literalPass_consumes⟩

/-- One pass over a run of characters that satisfy `p`, with their number so far. -/
def runPass (p : Char → Bool) (x : TracingReader × Nat) : Pass (TracingReader × Nat) Nat :=
  if x.1.cursor.peek?.any p then .again (x.1.bump.2, x.2 + 1) else .leave x.2 x

theorem runPass_consumes (p : Char → Bool) (x : TracingReader × Nat) :
    (runPass p x).Consumes Prod.fst x := by
  rw [runPass]
  split
  · rename_i hany
    obtain ⟨c, hnext, -⟩ := (Option.any_eq_true _ _).mp hany
    rw [bump_of_some hnext]
    exact advances_past hnext
  · exact .refl _

/-- The loop over a run of characters. -/
def runLoop (p : Char → Bool) : Loop (TracingReader × Nat) Nat :=
  ⟨Prod.fst, runPass p, runPass_consumes p⟩

/-- The loop counts and passes the run that a cursor passes at once. -/
theorem eatWhile_eq_run (p : Char → Bool) (x : TracingReader × Nat) :
    (x.2 + (x.1.cursor.eatWhile p).1, (x.1.cursor.eatWhile p).2) =
      (((runLoop p).run x).1, ((runLoop p).run x).2.1.cursor) := by
  refine (runLoop p).eq_run (g := fun count y => (count, y.1.cursor))
    (f := fun x => (x.2 + (x.1.cursor.eatWhile p).1, (x.1.cursor.eatWhile p).2)) (fun x => ?_) x
  change _ = (runPass p x).elim _ _
  rw [runPass]
  split
  · rename_i hany
    obtain ⟨c, hnext, hp⟩ := (Option.any_eq_true _ _).mp hany
    obtain ⟨rest, hrest⟩ := List.head?_eq_some_iff.mp hnext
    rw [bump_of_some hnext, Cursor.eatWhile_cons hrest hp]
    exact Prod.ext (Nat.add_right_comm _ _ 1) rfl
  · rename_i hstop
    rw [Cursor.eatWhile_of_not (Bool.eq_false_iff.mpr hstop)]
    rfl

theorem literalLength?_of_plain {c : Char} (hquote : c ≠ '"') (hback : c ≠ '\\') (t : Text)
    (passed : Nat) : literalLength? (c :: t) passed = literalLength? t (passed + 1) := by
  rw [literalLength?]
  · exact hquote
  · exact fun h _ => hback h
  · exact fun _ _ h _ => hback h

/-- Counting a literal can start from any number. -/
theorem literalLength?_add (t : Text) (more passed : Nat) :
    literalLength? t (more + passed) = (literalLength? t passed).map (more + ·) := by
  fun_induction literalLength? t passed with
  | case1 => rfl
  | case2 => rfl
  | case3 => rfl
  | case4 c t passed ih => exact ih
  | case5 c t passed hquote hlone hescape ih =>
      rw [literalLength?_of_plain hquote (not_backslash hlone hescape)]
      exact ih

/-- What was read of a literal can be passed before the rest is read. -/
theorem restOfLiteral_advance {c : Cursor} {t : Text} (front : Text) (hrest : c.rest = front ++ t)
    (hlength : literalLength? (front ++ t) 0 = literalLength? t front.length) :
    restOfLiteral c = restOfLiteral (c.advance front.length) := by
  have hlater : (c.advance front.length).rest = t := by
    rw [Cursor.rest_advance, hrest, List.drop_left]
  rw [restOfLiteral, restOfLiteral, hlater, hrest, hlength, ← Nat.add_zero front.length,
    literalLength?_add]
  cases literalLength? t 0 with
  | none => simp
  | some length => simp

theorem restOfLiteral_of_nil {c : Cursor} (h : c.rest = []) : restOfLiteral c = (.openLiteral, c) := by
  rw [restOfLiteral, h]
  simp [literalLength?]

theorem restOfLiteral_of_quote {c : Cursor} (h : c.peek? = some '"') :
    restOfLiteral c = (.literal, c.advance 1) := by
  obtain ⟨t, hrest⟩ := List.head?_eq_some_iff.mp h
  rw [restOfLiteral, hrest]
  rfl

theorem restOfLiteral_of_plain {c : Cursor} {d : Char} (h : c.peek? = some d) (hquote : d ≠ '"')
    (hback : d ≠ '\\') : restOfLiteral c = restOfLiteral (c.advance 1) := by
  obtain ⟨t, hrest⟩ := List.head?_eq_some_iff.mp h
  exact restOfLiteral_advance [d] hrest (literalLength?_of_plain hquote hback t 0)

/-- A backslash is passed together with what follows it, if anything does. -/
theorem restOfLiteral_of_backslash {r : TracingReader} (h : r.cursor.peek? = some '\\') :
    restOfLiteral r.cursor = restOfLiteral (r.past '\\').bump.2.cursor := by
  obtain ⟨t, hrest⟩ := List.head?_eq_some_iff.mp h
  have hlater : (r.past '\\').cursor.rest = t := Cursor.rest_advance_one hrest
  cases t with
  | nil =>
      -- The second bump does nothing here, so it is the next pass that finds the end of the text.
      rw [bump_of_none (by rw [Cursor.peek?, hlater]; rfl), restOfLiteral_of_nil hlater,
        restOfLiteral, hrest]
      rfl
  | cons d t =>
      rw [bump_of_some (c := d) (by rw [Cursor.peek?, hlater]; rfl),
        restOfLiteral_advance ['\\', d] hrest rfl]
      exact congrArg restOfLiteral (Cursor.advance_advance r.cursor 1 1).symm

/-- The loop over a literal tells whether the literal is closed, and passes it. -/
theorem restOfLiteral_eq_run (r : TracingReader) :
    restOfLiteral r.cursor =
      (if (literalLoop.run r).1 then .literal else .openLiteral, (literalLoop.run r).2.cursor) := by
  refine literalLoop.eq_run (f := fun r => restOfLiteral r.cursor)
    (g := fun closed r => (if closed then .literal else .openLiteral, r.cursor)) (fun r => ?_) r
  change _ = (literalPass r).elim _ _
  cases hnext : r.cursor.peek? with
  | none =>
      rw [literalPass_of_none hnext]
      exact restOfLiteral_of_nil (List.head?_eq_none_iff.mp hnext)
  | some c =>
      rw [literalPass_of_some hnext]
      split
      · rename_i hquote
        exact restOfLiteral_of_quote (hquote ▸ hnext)
      · rename_i hquote
        split
        · rename_i hback
          subst hback
          exact restOfLiteral_of_backslash hnext
        · rename_i hback
          exact restOfLiteral_of_plain hnext hquote hback

end Check

end ParseReport
