import ParseReport.Proofs.Loops

/-!
# The scan always advances

The loop over the tokens of a text, the loop over a literal and the loop over a run of characters
share one cursor. A pass of any of the three leaves its loop or moves the cursor forward, also where
an escape is not finished at the end of the text. So the scan consumes each character of a text at
most once, and a scan that comes to the end without a failure has consumed them all.
-/

namespace ParseReport

namespace Text

theorem placed_prefix {front t : Text} (h : front <+: t) (offset : Nat) :
    placed offset front <+: placed offset t := by
  obtain ⟨later, rfl⟩ := h
  rw [placed_append]
  exact List.prefix_append _ _

end Text

namespace TracingReader
variable {r next : TracingReader}

/-- The reader `next` is in the text of `r`, and not before it. -/
structure GoesOn (r next : TracingReader) : Prop where
  text : next.cursor.text = r.cursor.text
  le : r.cursor.offset ≤ next.cursor.offset
  le_size : next.cursor.offset ≤ r.cursor.text.size

theorem Follows.goesOn (h : r.Follows next) : r.GoesOn next := by
  obtain ⟨part, hpart⟩ := h
  constructor
  case text => exact hpart.passes.text
  case le => exact hpart.passes.offset ▸ Nat.le_add_right _ _
  case le_size => exact hpart.passes.text ▸ next.cursor.isBoundary_offset.le_size

theorem Advances.offset_lt (h : r.Advances next) : r.cursor.offset < next.cursor.offset := by
  obtain ⟨part, hne, hpart⟩ := h
  have hpos : 0 < Text.size part :=
    (List.length_pos_of_ne_nil hne).trans_le (Text.length_le_size part)
  rw [hpart.passes.offset]
  exact Nat.lt_add_of_pos_right hpos

/-- From its start a reader has consumed what stands before its cursor. -/
theorem Follows.consumed_eq {t : Text} (h : (start t).Follows r) :
    ∃ front, t = front ++ r.cursor.rest ∧ r.consumed = front.placed 0 := by
  obtain ⟨front, hfront⟩ := h
  exact ⟨front, hfront.passes.rest, hfront.consumed⟩

end TracingReader

/-- A pass of a loop from `x` stays in the text, and does not go back. Unless it leaves the loop, it
goes forward. -/
def Pass.GoesOn {σ ρ : Type} (reader : σ → TracingReader) (x : σ) : Pass σ ρ → Prop
  | leave _ y => (reader x).GoesOn (reader y)
  | again y => (reader x).GoesOn (reader y) ∧
    (reader x).cursor.offset < (reader y).cursor.offset

theorem Pass.Consumes.goesOn {σ ρ : Type} {reader : σ → TracingReader} {x : σ} {pass : Pass σ ρ}
    (h : pass.Consumes reader x) : pass.GoesOn reader x := by
  cases pass with
  | leave result y => exact TracingReader.Follows.goesOn h
  | again y => exact ⟨(TracingReader.Advances.follows h).goesOn, TracingReader.Advances.offset_lt h⟩

namespace Check
open TracingReader
variable {x : TracingReader × Scan} {r : TracingReader} {s : Scan} {c : Char}

/-- Reads on after the first character of a token, with the loops. -/
def traceToken (first : Char) (r : TracingReader) : Token × TracingReader :=
  match first with
  | '(' | '[' | '{' => (.opening first, r)
  | ')' | ']' | '}' => (.closing first, r)
  | '"' =>
    let ended := literalLoop.run r
    (if ended.1 then .literal else .openLiteral, ended.2)
  | '<' =>
    let eaten := r.eat '>'
    (if eaten.1 then .oldInequality else .plain, eaten.2)
  | ' ' | '\t' =>
    let ended := (runLoop isBlank).run (r, 0)
    (.blanks (endsLine ended.2.1.cursor.rest), ended.2.1)
  | _ => (.plain, r)

theorem follows_traceToken (first : Char) (r : TracingReader) : r.Follows (traceToken first r).2 := by
  unfold traceToken
  split
  any_goals exact .refl r
  · exact literalLoop.follows_run r
  · exact follows_eat r '>'
  · exact (runLoop isBlank).follows_run (r, 0)
  · exact (runLoop isBlank).follows_run (r, 0)

/-- The loops come to where a token ends. -/
theorem restOfToken_eq_trace (first : Char) (r : TracingReader) :
    restOfToken first r.cursor = ((traceToken first r).1, (traceToken first r).2.cursor) := by
  have hblanks : (r.cursor.eatWhile isBlank).2 = ((runLoop isBlank).run (r, 0)).2.1.cursor :=
    congrArg Prod.snd (eatWhile_eq_run isBlank (r, 0))
  unfold traceToken
  split
  any_goals rfl
  · exact restOfLiteral_eq_run r
  · rw [restOfToken, Cursor.eat?]
    by_cases hnext : r.cursor.peek? = some '>'
    · rw [eat_of_peek? hnext, if_pos hnext]
      rfl
    · rw [eat_of_ne hnext, if_neg hnext]
      rfl
  · rw [restOfToken, hblanks]
  · rw [restOfToken, hblanks]
  · rw [restOfToken] <;> assumption

/-- How the loop over the tokens goes on, with what the session made of a token. -/
def passAfter (r : TracingReader) (s : Scan) :
    Except Breach Progress → Pass (TracingReader × Scan) (Except Breach Progress)
  | .error breach => .leave (.error breach) (r, s)
  | .ok (.failed s failure) => .leave (.ok (.failed s failure)) (r, s)
  | .ok (.going s) => .again (r, s)

/-- One pass over the tokens of a text. It leaves at the end of the text and with a failure. -/
def scanPass (x : TracingReader × Scan) :
    Pass (TracingReader × Scan) (Except Breach Progress) :=
  match x.1.bump with
  | (none, r) => .leave (.ok (.going x.2)) (r, x.2)
  | (some first, r) =>
    let (token, r) := traceToken first r
    passAfter r x.2 (x.2.step x.1.cursor token r.cursor)

theorem scanPass_of_none (h : x.1.cursor.peek? = none) :
    scanPass x = .leave (.ok (.going x.2)) x := by
  rw [scanPass, bump_of_none h]

theorem scanPass_of_some (h : x.1.cursor.peek? = some c) :
    scanPass x = passAfter (traceToken c (x.1.past c)).2 x.2
      (x.2.step x.1.cursor (traceToken c (x.1.past c)).1 (traceToken c (x.1.past c)).2.cursor) := by
  rw [scanPass, bump_of_some h]

theorem passAfter_consumes (h : x.1.Advances r) (result : Except Breach Progress) :
    (passAfter r s result).Consumes Prod.fst x := by
  match result with
  | .error breach => exact h.follows
  | .ok (.failed s failure) => exact h.follows
  | .ok (.going s) => exact h

theorem scanPass_consumes (x : TracingReader × Scan) : (scanPass x).Consumes Prod.fst x := by
  cases hnext : x.1.cursor.peek? with
  | none =>
      rw [scanPass_of_none hnext]
      exact .refl x.1
  | some c =>
      rw [scanPass_of_some hnext]
      -- The first character is an advance already, whatever the inner loop then passes.
      exact passAfter_consumes ((advances_past hnext).trans_follows (follows_traceToken c _)) _

/-- The loop over the tokens of a text. -/
def scanLoop : Loop (TracingReader × Scan) (Except Breach Progress) :=
  ⟨Prod.fst, scanPass, scanPass_consumes⟩

theorem elim_passAfter (r : TracingReader) (s : Scan) (result : Except Breach Progress) :
    (passAfter r s result).elim (fun result _ => result) (fun y => Scan.tokens y.1.cursor y.2) =
      result.bind (·.andThen (Scan.tokens r.cursor)) := by
  match result with
  | .error breach => rfl
  | .ok (.failed s failure) => rfl
  | .ok (.going s) => rfl

/-- The loop over the tokens comes to what the scan of the tokens comes to. -/
theorem tokens_eq_run (x : TracingReader × Scan) :
    Scan.tokens x.1.cursor x.2 = (scanLoop.run x).1 := by
  refine scanLoop.eq_run (f := fun x => Scan.tokens x.1.cursor x.2)
    (g := fun result _ => result) (fun x => ?_) x
  change _ = (scanPass x).elim _ _
  cases hnext : x.1.cursor.peek? with
  | none =>
      have htoken : token? x.1.cursor = none := by
        rw [token?, Cursor.bump?, hnext]
        rfl
      rw [scanPass_of_none hnext, Scan.tokens_of_none x.2 htoken]
      rfl
  | some c =>
      have htoken : token? x.1.cursor = some (restOfToken c (x.1.past c).cursor) := by
        rw [token?, Cursor.bump?, hnext]
        rfl
      rw [restOfToken_eq_trace] at htoken
      rw [scanPass_of_some hnext, elim_passAfter, Scan.tokens_of_some x.2 htoken]

/-- The loop over the tokens is left without a failure only at the end of the text. -/
theorem rest_of_run_going (x : TracingReader × Scan) (h : (scanLoop.run x).1 = .ok (.going s)) :
    (scanLoop.run x).2.1.cursor.rest = [] := by
  refine scanLoop.run_induction (motive := fun _ result y =>
    result = .ok (.going s) → y.1.cursor.rest = []) ?_ ?_ x h
  · intro x result y hpass hgoing
    change scanPass x = _ at hpass
    cases hnext : x.1.cursor.peek? with
    | none =>
        rw [scanPass_of_none hnext] at hpass
        cases hpass
        exact List.head?_eq_none_iff.mp hnext
    | some c =>
        rw [scanPass_of_some hnext, hgoing] at hpass
        unfold passAfter at hpass
        split at hpass <;> cases hpass
  · exact fun x y result z hpass hrest => hrest

/-- What comes after the quote of a literal that the end of the text cuts off, if need be within an
escape. -/
def CutLiteral (t : Text) : Prop :=
  LiteralBody t ∨ ∃ body, LiteralBody body ∧ t = body ++ ['\\']

theorem CutLiteral.escape {t : Text} (h : CutLiteral t) (d : Char) :
    CutLiteral ('\\' :: d :: t) := by
  rcases h with hbody | ⟨body, hbody, rfl⟩
  · exact .inl (.escape hbody)
  · exact .inr ⟨'\\' :: d :: body, .escape hbody, rfl⟩

theorem CutLiteral.plain {t : Text} (h : CutLiteral t) (hquote : c ≠ '"') (hback : c ≠ '\\') :
    CutLiteral (c :: t) := by
  rcases h with hbody | ⟨body, hbody, rfl⟩
  · exact .inl (.plain hquote hback hbody)
  · exact .inr ⟨c :: body, .plain hquote hback hbody, rfl⟩

/-- No quote closes a literal from its body alone. -/
theorem LiteralBody.literalLength?_append {body t : Text} (h : LiteralBody body) (passed : Nat) :
    literalLength? (body ++ t) passed = literalLength? t (passed + body.length) := by
  induction h generalizing passed with
  | empty => rfl
  | @plain c body hquote hback hbody ih =>
      rw [List.cons_append, literalLength?_of_plain hquote hback, ih, List.length_cons,
        Nat.add_right_comm, Nat.add_assoc]
  | @escape c body hbody ih =>
      change literalLength? (body ++ t) (passed + 2) = _
      rw [ih, List.length_cons, List.length_cons, Nat.add_right_comm, Nat.add_assoc]

theorem literalLength?_eq_none_iff {t : Text} {passed : Nat} :
    literalLength? t passed = none ↔ CutLiteral t := by
  constructor
  · intro h
    fun_induction literalLength? t passed with
    | case1 => exact .inl .empty
    | case2 => cases h
    | case3 => exact .inr ⟨[], .empty, rfl⟩
    | case4 c t passed ih => exact (ih h).escape c
    | case5 c t passed hquote hlone hescape ih =>
        exact (ih h).plain hquote (not_backslash hlone hescape)
  · rintro (hbody | ⟨body, hbody, rfl⟩)
    · have hnone := hbody.literalLength?_append (t := []) passed
      rwa [List.append_nil] at hnone
    · exact hbody.literalLength?_append passed

theorem literalLoop_of_none (h : literalLength? r.cursor.rest 0 = none) :
    (literalLoop.run r).1 = false ∧ (literalLoop.run r).2.cursor.rest = [] := by
  have hrun := restOfLiteral_eq_run r
  rw [restOfLiteral, h] at hrun
  obtain ⟨htoken, hcursor⟩ := Prod.mk.inj hrun
  constructor
  · cases hclosed : (literalLoop.run r).1 with
    | false => rfl
    | true =>
        rw [hclosed] at htoken
        cases htoken
  · rw [← hcursor, Cursor.rest_advance, List.drop_length]

theorem literalLoop_of_some {length : Nat} (h : literalLength? r.cursor.rest 0 = some length) :
    (literalLoop.run r).1 = true := by
  have hrun := restOfLiteral_eq_run r
  rw [restOfLiteral, h] at hrun
  cases hclosed : (literalLoop.run r).1 with
  | true => rfl
  | false =>
      rw [hclosed] at hrun
      cases (Prod.mk.inj hrun).1

/-- The loop over a literal ends without a closing quote only on a literal that is cut off. -/
theorem literalLoop_cut_iff (r : TracingReader) :
    (literalLoop.run r).1 = false ↔ CutLiteral r.cursor.rest := by
  rw [← literalLength?_eq_none_iff]
  cases hlength : literalLength? r.cursor.rest 0 with
  | none => exact iff_of_true (literalLoop_of_none hlength).1 rfl
  | some length => exact iff_of_false (by simp [literalLoop_of_some hlength]) (Option.some_ne_none _)

theorem rest_of_literalLoop_cut (h : (literalLoop.run r).1 = false) :
    (literalLoop.run r).2.cursor.rest = [] :=
  (literalLoop_of_none (literalLength?_eq_none_iff.mpr ((literalLoop_cut_iff r).mp h))).2

/-- From a reader on, a pass of any of the three loops leaves its loop or goes forward, and the
loops come to what is read of the text there at once. On a literal that is cut off, the loop over it
is left at the end of the text. -/
structure AdvancesAt (r : TracingReader) : Prop where
  scan_pass : ∀ s, (scanPass (r, s)).GoesOn Prod.fst (r, s)
  literal_pass : (literalPass r).GoesOn id r
  run_pass : ∀ p count, (runPass p (r, count)).GoesOn Prod.fst (r, count)
  tokens_eq : ∀ s, Scan.tokens r.cursor s = (scanLoop.run (r, s)).1
  literal_eq : restOfLiteral r.cursor =
    (if (literalLoop.run r).1 then .literal else .openLiteral, (literalLoop.run r).2.cursor)
  run_eq : ∀ p, r.cursor.eatWhile p =
    (((runLoop p).run (r, 0)).1, ((runLoop p).run (r, 0)).2.1.cursor)
  cut_iff : (literalLoop.run r).1 = false ↔ CutLiteral r.cursor.rest
  rest_of_cut : (literalLoop.run r).1 = false → (literalLoop.run r).2.cursor.rest = []

theorem advancesAt (r : TracingReader) : AdvancesAt r where
  scan_pass s := (scanPass_consumes (r, s)).goesOn
  literal_pass := (literalPass_consumes r).goesOn
  run_pass p count := (runPass_consumes p (r, count)).goesOn
  tokens_eq s := tokens_eq_run (r, s)
  literal_eq := restOfLiteral_eq_run r
  run_eq p := by simpa using eatWhile_eq_run p (r, 0)
  cut_iff := literalLoop_cut_iff r
  rest_of_cut := rest_of_literalLoop_cut

/-- From every place in a text the three loops of a scan leave or go forward in each of their
passes, within the text. The characters that a scan consumes are the first of the text, each of them
consumed once, and a scan that has not failed at the end of its tokens has consumed them all. -/
theorem scan_always_advances (t : Text) :
    (∀ offset, t.IsBoundary offset → ∃ c : Cursor, c.text = t ∧ c.offset = offset) ∧
    (∀ r : TracingReader, r.cursor.text = t → AdvancesAt r) ∧
    ∀ session : Session,
      let ended := scanLoop.run (.start t, .start session)
      ended.1 = Scan.tokens (.start t) (.start session) ∧
        (t.placed 0).Nodup ∧ ended.2.1.consumed <+: t.placed 0 ∧
        ∀ s, ended.1 = .ok (.going s) → ended.2.1.consumed = t.placed 0 := by
  refine ⟨?_, fun r _ => advancesAt r, fun session => ?_⟩
  · intro offset hboundary
    obtain ⟨rest, hrest⟩ := Option.isSome_iff_exists.mp
      (Text.isBoundary_iff_isSome_after?.mp hboundary)
    exact ⟨⟨t, offset, rest, hrest⟩, rfl, rfl⟩
  · intro ended
    obtain ⟨front, ht, hconsumed⟩ : ∃ front,
        t = front ++ ended.2.1.cursor.rest ∧ ended.2.1.consumed = front.placed 0 :=
      (scanLoop.follows_run (.start t, .start session)).consumed_eq
    refine ⟨(tokens_eq_run (.start t, .start session)).symm, Text.nodup_placed 0 t, ?_, ?_⟩
    · exact hconsumed ▸ Text.placed_prefix ⟨_, ht.symm⟩ 0
    · intro s hgoing
      rw [rest_of_run_going _ hgoing, List.append_nil] at ht
      exact ht ▸ hconsumed

/-- Before the lone backslash at the end of the text, a literal would be cut off. The scan takes it
as a token of its own and consumes five characters, among them one of two bytes. -/
theorem scan_advances_to_lone_backslash :
    let t : Text := "é\"a\"\\".toList
    let ended := scanLoop.run (.start t, .start default)
    (t.IsBoundary 5 ∧ ended.1 = .ok (.going (.start default))) ∧
      (∃ c : Cursor, c.text = t ∧ c.offset = 5 ∧
        (literalLoop.run ⟨c, []⟩).1 = false ∧ (literalLoop.run ⟨c, []⟩).2.cursor.rest = []) ∧
      ended.2.1.consumed = [(0, 'é'), (2, '"'), (3, 'a'), (4, '"'), (5, '\\')] := by
  intro t ended
  obtain ⟨hcursor, hadvances, hscan⟩ := scan_always_advances t
  obtain ⟨htokens, -, -, hall⟩ := hscan default
  have hboundary : t.IsBoundary 5 := by decide
  have hgoing : ended.1 = .ok (.going (.start default)) := by
    have hfirst : token? (.start t) = some (.plain, (Cursor.start t).advance 1) := rfl
    have hliteral : token? ((Cursor.start t).advance 1) =
      some (.literal, (Cursor.start t).advance 4) := rfl
    have hlast : token? ((Cursor.start t).advance 4) =
      some (.plain, (Cursor.start t).advance 5) := rfl
    have hnone : token? ((Cursor.start t).advance 5) = none := rfl
    rw [htokens, Scan.tokens_of_some _ hfirst]
    change Scan.tokens _ (.start default) = _
    rw [Scan.tokens_of_some _ hliteral]
    change Scan.tokens _ (.start default) = _
    rw [Scan.tokens_of_some _ hlast]
    exact Scan.tokens_of_none _ hnone
  refine ⟨⟨hboundary, hgoing⟩, ?_, hall _ hgoing⟩
  obtain ⟨c, htext, hoffset⟩ := hcursor 5 hboundary
  have hrest : c.rest = ['\\'] := by
    have hafter := c.after?_offset
    rw [htext, hoffset] at hafter
    exact (Option.some.inj hafter).symm
  have hadvance := hadvances ⟨c, []⟩ htext
  have hcut := hadvance.cut_iff.mpr (.inr ⟨[], .empty, hrest⟩)
  exact ⟨c, htext, hoffset, hcut, hadvance.rest_of_cut hcut⟩

end Check

end ParseReport
