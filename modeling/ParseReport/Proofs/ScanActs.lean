import ParseReport.Proofs.Findings
import ParseReport.Proofs.Locate

/-!
# A scan carries out the acts of its text

The scan takes tokens, the acts are called for character by character. A token is passed
together with the sites in it, and what the scan then does to its session is exactly what the
acts of these sites say, up to the point at which the session fails. Both sides use the same
session, so this holds for any limit.
-/

namespace ParseReport

/-- The cursor between two parts of a text. -/
def Cursor.between (before after : Text) : Cursor :=
  ⟨before ++ after, before.size, after, Text.after?_size_append before after⟩

/-- The stretch between two such cursors. -/
def Match.between (before part after : Text) : Match :=
  ⟨before ++ part ++ after, ⟨before.size.toUInt32, (before.size + part.size).toUInt32⟩⟩

namespace Cursor

@[simp] theorem text_between (before after : Text) :
    (between before after).text = before ++ after := rfl

@[simp] theorem rest_between (before after : Text) : (between before after).rest = after := rfl

@[simp] theorem offset_between (before after : Text) :
    (between before after).offset = before.size := rfl

theorem advance_between {before part after rest : Text} {n : Nat} (hrest : rest = part ++ after)
    (hn : n = part.length) :
    (between before rest).advance n = between (before ++ part) after := by
  subst hrest hn
  simp [between, advance]

theorem matched_between {before part after : Text}
    (hfits : (before ++ part ++ after).size ≤ maxOffset) :
    (between (before ++ part) after).matched before.size =
      .ok (.between before part after) := by
  simp only [Text.size_append] at hfits
  have hstart : ¬maxOffset < before.size := by omega
  have hstop : ¬maxOffset < before.size + part.size := by omega
  simp [matched, between, Match.between, Span.ofRange, Text.size_append, hstart, hstop,
    Except.map]

end Cursor

theorem toNat_toUInt32 {n : Nat} (h : n ≤ maxOffset) : n.toUInt32.toNat = n := by
  have hlt : n < UInt32.size := by
    unfold maxOffset at h
    change n < 4294967296
    omega
  exact UInt32.toNat_ofNat_of_lt hlt

namespace Match
variable {before part after : Text}

theorem spelling_between (hfits : (before ++ part ++ after).size ≤ maxOffset) :
    (between before part after).spelling = .ok part := by
  have hslice : (before ++ part ++ after).slice? before.size (before.size + part.size) =
      some part :=
    Text.slice?_eq_some_iff.mpr ⟨before, after, rfl, rfl, rfl⟩
  simp only [Text.size_append] at hfits
  simp only [spelling, between, Span.slice?]
  rw [toNat_toUInt32 (by omega), toNat_toUInt32 (by omega), hslice]

/-- A stretch is located on the line that the `\n` before it count. -/
theorem locate_between (hfits : (before ++ part ++ after).size + 2 ≤ maxOffset) :
    ∃ location, (between before part after).anchor.locate = .ok location ∧
      location.line = before.count '\n' + 1 := by
  have hbefore : before.size ≤ maxOffset := by
    simp only [Text.size_append] at hfits
    omega
  have hfloor : (before ++ part ++ after).floor (before.size.toUInt32).toNat = before.size := by
    rw [toNat_toUInt32 hbefore, List.append_assoc]
    exact Text.floor_size_append before (part ++ after)
  exact ⟨_, Location.ofSpan_eq hfits (List.append_assoc before part after) hfloor, rfl⟩

end Match

namespace Check

/-- Goes on after a scan that may have failed. -/
def followedBy (r : Except Breach Progress) (next : Scan → Except Breach Progress) :
    Except Breach Progress :=
  r.bind (·.andThen next)

@[simp] theorem followedBy_going (s : Scan) (next : Scan → Except Breach Progress) :
    followedBy (.ok (.going s)) next = next s := rfl

theorem followedBy_assoc (r : Except Breach Progress) (f g : Scan → Except Breach Progress) :
    followedBy (followedBy r f) g = followedBy r (fun s => followedBy (f s) g) := by
  cases r with
  | error breach => rfl
  | ok p => cases p <;> rfl

/-- A scan without its stack. -/
def Scan.bare (s : Scan) : Scan := { s with openers := [] }

def Progress.bare : Progress → Progress
  | going s => going s.bare
  | failed s failure => failed s.bare failure

/-- The outcome of a check does not look at the stack. -/
theorem Progress.outcome_bare (p : Progress) (t : Text) : p.bare.outcome t = p.outcome t := by
  cases p <;> rfl

namespace Scan

/-- Carries out one act. -/
def perform (s : Scan) : Act → Except Breach Progress
  | .opened delimiter offset => .ok (.going (s.note (.opened delimiter offset)))
  | .closed opener closer offset =>
    .ok (.going { s.note (.closed opener closer offset) with pairs := s.pairs + 1 })
  | .worry concern => s.worry concern
  | .regret concern => s.regret concern

/-- Carries out acts in order, up to the first failure. -/
def play (s : Scan) : List Act → Except Breach Progress
  | [] => .ok (.going s)
  | act :: acts => followedBy (s.perform act) (·.play acts)

theorem play_singleton (s : Scan) (act : Act) : s.play [act] = s.perform act := by
  rw [play]
  cases s.perform act with
  | error breach => rfl
  | ok p => cases p <;> rfl

theorem play_append (s : Scan) (first later : List Act) :
    s.play (first ++ later) = followedBy (s.play first) (·.play later) := by
  induction first generalizing s with
  | nil => rfl
  | cons act first ih =>
      rw [List.cons_append, play, play, followedBy_assoc]
      exact congrArg (followedBy (s.perform act)) (funext ih)

theorem follow_bare (s : Scan) (answer : Except Misuse Session.Outcome) :
    (s.follow answer).map Progress.bare = s.bare.follow answer := by
  cases answer with
  | error misuse => rfl
  | ok outcome =>
      obtain ⟨session, event, failure⟩ := outcome
      cases failure <;> rfl

/-- Nothing comes after a panic. -/
theorem followedBy_raise (s : Scan) (concern : Concern)
    (next : Scan → Except Breach Progress) :
    followedBy (s.raise concern) next = s.raise concern := by
  rw [raise, Session.raise]
  cases s.session.ensureActive .raise <;> rfl

/-- Ends the session. -/
def conclude (s : Scan) : Except Breach Progress := s.follow s.session.expressConcerns

/-- Reports what is still open at the end of a text and ends the session. -/
def finish (s : Scan) : Except Breach Progress :=
  followedBy (s.bare.unclosed s.openers.reverse) conclude

/-- Ends a scan of `t`: by a panic, when a literal with its quote after `quote` is open. -/
def settle (t : Text) (quote? : Option Text) (s : Scan) : Except Breach Progress :=
  match quote? with
  | some quote => s.raise (cutOff t quote)
  | none => s.conclude

end Scan

theorem tokens_eq_followedBy {c next : Cursor} {token : Token} (s : Scan)
    (h : token? c = some (token, next)) :
    Scan.tokens c s = followedBy (s.step c token next) (Scan.tokens next) :=
  Scan.tokens_of_some s h

theorem scan_eq_followedBy (t : Text) (session : Session) :
    scan t session = followedBy (Scan.tokens (.start t) (.start session)) Scan.finish := by
  rw [scan]
  cases Scan.tokens (.start t) (.start session) with
  | error breach => rfl
  | ok p => cases p <;> rfl

/-- The opener that stands at a site. -/
def Site.opener (s : Site) : Opener :=
  ⟨s.char, s.text, ⟨s.before.size.toUInt32, (s.before.size + Text.size [s.char]).toUInt32⟩⟩

theorem anchor_between (before : Text) (c : Char) (part after : Text) :
    (Match.between before (c :: part) after).anchor =
      Site.anchor ⟨before, c, part ++ after⟩ (c :: part) := by
  simp [Match.anchor, Match.between, Site.anchor, Site.text]

theorem Scan.unclosed_eq_play (s : Scan) (openers : List Site) :
    s.unclosed (openers.map Site.opener) = s.play (openers.map Site.unclosed) := by
  induction openers generalizing s with
  | nil => rfl
  | cons opener openers ih =>
      rw [List.map_cons, unclosed_cons, List.map_cons, play]
      exact congrArg (followedBy _) (funext ih)

section Tokens
variable {before t : Text} {c : Char}

/-- A blank run does not go on across the cut. -/
def Seam (before t : Text) : Prop :=
  t.head?.any isBlank = true → before.getLast?.any isBlank = false

theorem seam_of_last (hc : isBlank c = false) (before t : Text) : Seam (before ++ [c]) t := by
  intro _
  simp [hc]

theorem token?_between (before : Text) (c : Char) (t : Text) :
    token? (.between before (c :: t)) = some (restOfToken c (.between (before ++ [c]) t)) :=
  congrArg (fun next => some (restOfToken c next)) (Cursor.advance_between rfl rfl)

theorem token?_of_opener (h : isOpener c = true) :
    token? (.between before (c :: t)) = some (.opening c, .between (before ++ [c]) t) := by
  have hc : c = '(' ∨ c = '[' ∨ c = '{' := by simpa [isOpener] using h
  rw [token?_between]
  rcases hc with rfl | rfl | rfl <;> rfl

theorem token?_of_closer (h : isCloser c = true) :
    token? (.between before (c :: t)) = some (.closing c, .between (before ++ [c]) t) := by
  have hc : c = ')' ∨ c = ']' ∨ c = '}' := by simpa [isCloser] using h
  rw [token?_between]
  rcases hc with rfl | rfl | rfl <;> rfl

theorem token?_literal {body rest : Text}
    (hlength : literalLength? (body ++ '"' :: rest) 0 = some (body.length + 1)) :
    token? (.between before ('"' :: (body ++ '"' :: rest))) =
      some (.literal, .between (before ++ '"' :: (body ++ ['"'])) rest) := by
  have hadvance : (Cursor.between (before ++ ['"']) (body ++ '"' :: rest)).advance
      (body.length + 1) = .between (before ++ ['"'] ++ (body ++ ['"'])) rest :=
    Cursor.advance_between (by simp) (by simp)
  rw [token?_between, restOfToken, restOfLiteral, Cursor.rest_between, hlength]
  simp only [hadvance, List.append_assoc, List.cons_append, List.nil_append]

theorem token?_openLiteral (hlength : literalLength? t 0 = none) :
    token? (.between before ('"' :: t)) =
      some (.openLiteral, .between (before ++ '"' :: t) []) := by
  have hadvance : (Cursor.between (before ++ ['"']) t).advance t.length =
      .between (before ++ ['"'] ++ t) [] :=
    Cursor.advance_between (by simp) rfl
  rw [token?_between, restOfToken, restOfLiteral, Cursor.rest_between, hlength]
  simp only [hadvance, List.append_assoc, List.cons_append, List.nil_append]

theorem token?_oldInequality :
    token? (.between before ('<' :: '>' :: t)) =
      some (.oldInequality, .between (before ++ ['<', '>']) t) := by
  have hadvance : (Cursor.between (before ++ ['<']) ('>' :: t)).advance 1 =
      .between (before ++ ['<'] ++ ['>']) t :=
    Cursor.advance_between rfl rfl
  rw [token?_between, restOfToken, Cursor.eat?, Cursor.peek?, Cursor.rest_between,
    if_pos (by rfl), hadvance, List.append_assoc]
  rfl

theorem token?_blanks (h : isBlank c = true) :
    token? (.between before (c :: t)) =
      some (.blanks (endsLine (t.dropWhile isBlank)),
        .between (before ++ c :: t.takeWhile isBlank) (t.dropWhile isBlank)) := by
  have hadvance : (Cursor.between (before ++ [c]) t).advance (t.takeWhile isBlank).length =
      .between (before ++ [c] ++ t.takeWhile isBlank) (t.dropWhile isBlank) :=
    Cursor.advance_between (List.takeWhile_append_dropWhile).symm rfl
  have hc : c = ' ' ∨ c = '\t' := by simpa [isBlank] using h
  rw [token?_between]
  rcases hc with rfl | rfl <;>
    simp only [restOfToken, Cursor.eatWhile, Cursor.rest_between, hadvance, List.append_assoc,
      List.cons_append, List.nil_append]

theorem token?_plain (hopener : isOpener c = false) (hcloser : isCloser c = false)
    (hblank : isBlank c = false) (hquote : c ≠ '"') (hless : c = '<' → t.head? ≠ some '>') :
    token? (.between before (c :: t)) = some (.plain, .between (before ++ [c]) t) := by
  by_cases hc : c = '<'
  · subst hc
    rw [token?_between, restOfToken, Cursor.eat?, Cursor.peek?, Cursor.rest_between,
      if_neg (hless rfl)]
  · rw [token?_between, restOfToken]
    all_goals
      rintro rfl
      simp_all [isOpener, isCloser, isBlank]

end Tokens

theorem stretch_between {before part after rest : Text}
    (hfits : (before ++ part ++ after).size ≤ maxOffset) :
    stretch (.between before rest) (.between (before ++ part) after) =
      .ok (.between before part after) := by
  rw [stretch, Cursor.offset_between, Cursor.matched_between hfits]
  rfl

theorem stretch_quote {before after : Text}
    (hfits : (before ++ '"' :: after).size ≤ maxOffset) :
    stretch (.between before ('"' :: after)) ((Cursor.between before ('"' :: after)).advance 1) =
      .ok (.between before ['"'] after) := by
  have hnext : (Cursor.between before ('"' :: after)).advance 1 =
      .between (before ++ ['"']) after :=
    Cursor.advance_between rfl rfl
  rw [hnext]
  exact stretch_between (by rwa [← List.append_cons])

namespace Scan
variable {before part after rest : Text} (s : Scan)

/-- Tokens that only have to be passed. -/
theorem step_idle {token : Token} (htoken : token = .plain ∨ token = .blanks false)
    (c next : Cursor) : s.step c token next = .ok (.going s) := by
  rcases htoken with rfl | rfl <;> rfl

theorem step_literal (hfits : (before ++ '"' :: after).size ≤ maxOffset) (next : Cursor) :
    s.step (.between before ('"' :: after)) .literal next = .ok (.going s) := by
  rw [step, stretch_quote hfits]
  rfl

theorem step_opening (hfits : (before ++ part ++ after).size ≤ maxOffset) (delimiter : Char) :
    s.step (.between before rest) (.opening delimiter) (.between (before ++ part) after) =
      .ok (.going { s.note (.opened delimiter before.size) with
        openers := ⟨delimiter, Match.between before part after⟩ :: s.openers }) := by
  rw [step, stretch_between hfits]
  rfl

theorem step_closing (hfits : (before ++ part ++ after).size ≤ maxOffset) (delimiter : Char) :
    s.step (.between before rest) (.closing delimiter) (.between (before ++ part) after) =
      s.close delimiter (Match.between before part after) before.size := by
  rw [step, stretch_between hfits]
  rfl

theorem step_oldInequality (hfits : (before ++ part ++ after).size ≤ maxOffset) :
    s.step (.between before rest) .oldInequality (.between (before ++ part) after) =
      s.worry (.about (.obsolete "<>".toList "!=".toList)
        (Match.between before part after).anchor) := by
  rw [step, stretch_between hfits]
  rfl

theorem step_trailing (hfits : (before ++ part ++ after).size ≤ maxOffset) :
    s.step (.between before rest) (.blanks true) (.between (before ++ part) after) =
      s.worry (.about (trailingBlanks part.length) (Match.between before part after).anchor) := by
  have hspelling := Match.spelling_between hfits
  rw [step, stretch_between hfits]
  simp only [Except.mapError, bind, Except.bind, hspelling]

/-- A literal that is cut off raises the panic with the line of its quote. -/
theorem step_openLiteral (hfits : (before ++ '"' :: after).size + 2 ≤ maxOffset) :
    s.step (.between before ('"' :: after)) .openLiteral
        (.between (before ++ '"' :: after) []) =
      s.raise (cutOff (before ++ '"' :: after) before) := by
  have htotal : before ++ ['"'] ++ after = before ++ '"' :: after := by simp
  have hsize : (before ++ '"' :: after).size ≤ maxOffset := by omega
  obtain ⟨location, hlocate, hline⟩ := Match.locate_between (by rwa [htotal])
  have hanchor : (Cursor.between (before ++ '"' :: after) []).anchor =
      .point (before ++ '"' :: after) (before ++ '"' :: after).size.toUInt32 := by
    rw [Cursor.anchor, Cursor.offset_between, Nat.min_eq_left hsize,
      Cursor.text_between, List.append_nil]
  rw [step, stretch_quote hsize]
  simp only [Except.mapError, bind, Except.bind, raiseOpenLiteral, hlocate, hline, hanchor]
  rfl

end Scan

/-- Two results that stay equal up to the stack, whatever goes on after them in the same way. The
first result leaves the sites in `pending` on the stack. -/
def Mirrors (pending : List Site) (r bare : Except Breach Progress) : Prop :=
  ∀ next next' : Scan → Except Breach Progress,
    (∀ s : Scan, s.openers = pending.map Site.opener →
      (next s).map Progress.bare = next' s.bare) →
    (followedBy r next).map Progress.bare = followedBy bare next'

theorem mirrors_going {pending : List Site} {s : Scan}
    (hopeners : s.openers = pending.map Site.opener) :
    Mirrors pending (.ok (.going s)) (.ok (.going s.bare)) := by
  intro next next' h
  exact h s hopeners

/-- What the session answers does not depend on the stack. -/
theorem mirrors_follow {pending : List Site} {s : Scan}
    (hopeners : s.openers = pending.map Site.opener) (answer : Except Misuse Session.Outcome) :
    Mirrors pending (s.follow answer) (s.bare.follow answer) := by
  intro next next' h
  cases answer with
  | error misuse => rfl
  | ok outcome =>
      obtain ⟨session, event, failure⟩ := outcome
      cases failure with
      | none => exact h _ hopeners
      | some failure => rfl

theorem mirrors_perform {pending : List Site} {s : Scan}
    (hopeners : s.openers = pending.map Site.opener) (act : Act) :
    Mirrors pending (s.perform act) (s.bare.perform act) := by
  cases act with
  | opened delimiter offset => exact mirrors_going (s := s.note _) hopeners
  | closed opener closer offset =>
      exact mirrors_going (s := { s.note _ with pairs := s.pairs + 1 }) hopeners
  | worry concern => exact mirrors_follow hopeners _
  | regret concern => exact mirrors_follow hopeners _

theorem mirrors_play {pending : List Site} {s : Scan}
    (hopeners : s.openers = pending.map Site.opener) (acts : List Act) :
    Mirrors pending (s.play acts) (s.bare.play acts) := by
  induction acts generalizing s with
  | nil => exact mirrors_going hopeners
  | cons act acts ih =>
      intro next next' h
      rw [Scan.play, Scan.play, followedBy_assoc, followedBy_assoc]
      apply mirrors_perform hopeners act
      intro s' hs'
      exact ih hs' next next' h

/-- From the end of `before` on, a scan with the given openers does what the acts say. -/
def Simulates (before after : Text) : Prop :=
  ∀ (pending : List Site) (s : Scan), s.openers = pending.map Site.opener →
    (followedBy (Scan.tokens (.between before after) s) Scan.finish).map Progress.bare =
      followedBy (s.bare.play (restActs before pending after))
        (Scan.settle (before ++ after) (modeFrom before .outside after).quote?)

theorem simulates_nil (before : Text) : Simulates before [] := by
  intro pending s hopeners
  have hnone : token? (.between before []) = none := rfl
  have hopen : s.openers.reverse = pending.reverse.map Site.opener := by
    rw [hopeners, List.map_reverse]
  rw [Scan.tokens_of_none s hnone, followedBy_going, Scan.finish, hopen, Scan.unclosed_eq_play,
    restActs_nil]
  have hplay : Mirrors [] (s.bare.play (pending.reverse.map Site.unclosed))
      (s.bare.play (pending.reverse.map Site.unclosed)) :=
    mirrors_play (s := s.bare) rfl _
  apply hplay
  intro s' _
  exact s'.follow_bare _

/-- A token is passed with what it calls for. -/
theorem simulates_step {before part after : Text} {token : Token}
    (htoken : token? (.between before (part ++ after)) =
      some (token, .between (before ++ part) after))
    (hmode : modeFrom before .outside (part ++ after) = modeFrom (before ++ part) .outside after)
    (hstep : ∀ (pending : List Site) (s : Scan), s.openers = pending.map Site.opener →
      ∃ called pending', restActs before pending (part ++ after) =
          called ++ restActs (before ++ part) pending' after ∧
        Mirrors pending'
          (s.step (.between before (part ++ after)) token (.between (before ++ part) after))
          (s.bare.play called))
    (hrest : Simulates (before ++ part) after) : Simulates before (part ++ after) := by
  intro pending s hopeners
  obtain ⟨called, pending', hacts, hmirrors⟩ := hstep pending s hopeners
  rw [hmode, ← List.append_assoc]
  calc
    (followedBy (Scan.tokens (.between before (part ++ after)) s) Scan.finish).map Progress.bare
        = (followedBy (s.step (.between before (part ++ after)) token
            (.between (before ++ part) after))
          (fun s' => followedBy (Scan.tokens (.between (before ++ part) after) s')
            Scan.finish)).map Progress.bare := by
      rw [tokens_eq_followedBy s htoken, followedBy_assoc]
    _ = followedBy (s.bare.play called)
          (fun s' => followedBy (s'.play (restActs (before ++ part) pending' after))
            (Scan.settle (before ++ part ++ after)
              (modeFrom (before ++ part) .outside after).quote?)) := by
      apply hmirrors
      intro s' hs'
      exact hrest pending' s' hs'
    _ = followedBy (s.bare.play (restActs before pending (part ++ after)))
          (Scan.settle (before ++ part ++ after)
            (modeFrom (before ++ part) .outside after).quote?) := by
      rw [hacts, Scan.play_append, followedBy_assoc]

section Simulate
variable {before after : Text} {c : Char}

theorem simulates_plain (hopener : isOpener c = false) (hcloser : isCloser c = false)
    (hblank : isBlank c = false) (hquote : c ≠ '"') (hless : c = '<' → after.head? ≠ some '>')
    (hrest : Simulates (before ++ [c]) after) : Simulates before (c :: after) := by
  have htoken : token? (.between before (c :: after)) =
      some (.plain, .between (before ++ [c]) after) :=
    token?_plain hopener hcloser hblank hquote hless
  have hsilent : ∀ pending, Site.acts pending ⟨before, c, after⟩ = [] := by
    intro pending
    apply Site.acts_of_neither pending hopener hcloser
    · simpa [Site.isOldInequality] using hless
    · simp [Site.beginsTrailing, hblank]
  change Simulates before ([c] ++ after)
  apply simulates_step htoken (modeFrom_cons hquote) _ hrest
  intro pending s hopeners
  refine ⟨[], pending, ?_, ?_⟩
  · rw [List.singleton_append, restActs_cons hquote, hsilent,
      Site.consume_of_neither pending hopener hcloser]
  · rw [s.step_idle (.inl rfl)]
    exact mirrors_going hopeners

theorem simulates_opener (hfits : (before ++ [c] ++ after).size ≤ maxOffset)
    (hopener : isOpener c = true) (hrest : Simulates (before ++ [c]) after) :
    Simulates before (c :: after) := by
  obtain ⟨-, hquote⟩ := kind_of_opener hopener
  change Simulates before ([c] ++ after)
  apply simulates_step (token?_of_opener hopener) (modeFrom_cons hquote) _ hrest
  intro pending s hopeners
  refine ⟨[.opened c before.size], ⟨before, c, after⟩ :: pending, ?_, ?_⟩
  · rw [List.singleton_append, restActs_cons hquote]
    simp [Site.acts, Site.consume, hopener]
  · rw [s.step_opening hfits, Scan.play_singleton]
    apply mirrors_going (s := { s.note _ with openers := _ })
    simp [hopeners, Site.opener, Match.between, Site.text]

/-- A closer pops the stack before it reports. -/
theorem simulates_closer (hfits : (before ++ [c] ++ after).size ≤ maxOffset)
    (hcloser : isCloser c = true) (hrest : Simulates (before ++ [c]) after) :
    Simulates before (c :: after) := by
  obtain ⟨hopener, -, hquote⟩ := kind_of_closer hcloser
  have hanchor : (Match.between before [c] after).anchor =
      Site.anchor ⟨before, c, after⟩ [c] :=
    anchor_between before c [] after
  change Simulates before ([c] ++ after)
  apply simulates_step (token?_of_closer hcloser) (modeFrom_cons hquote) _ hrest
  intro pending s hopeners
  refine ⟨Site.acts pending ⟨before, c, after⟩, pending.tail, ?_, ?_⟩
  · rw [List.singleton_append, restActs_cons hquote]
    simp [Site.consume, hopener, hcloser]
  · rw [s.step_closing hfits, Scan.close, hopeners, hanchor]
    cases pending with
    | nil =>
        rw [Site.acts_of_extra hopener hcloser, Scan.play_singleton]
        exact mirrors_follow hopeners _
    | cons opener pending =>
        rw [Site.acts_of_closer opener pending hopener hcloser]
        by_cases hfit : Delimiter.closing? opener.char = some c
        · rw [if_pos hfit, Scan.play_singleton]
          simp only [List.map_cons, Site.opener, hfit, if_true]
          exact mirrors_going rfl
        · rw [if_neg hfit, Scan.play_singleton]
          simp only [List.map_cons, Site.opener, hfit, if_false]
          exact mirrors_follow rfl _

theorem simulates_oldInequality (hfits : (before ++ '<' :: '>' :: after).size ≤ maxOffset)
    (hrest : Simulates (before ++ ['<', '>']) after) :
    Simulates before ('<' :: '>' :: after) := by
  have hjoin : before ++ ['<', '>'] ++ after = before ++ '<' :: '>' :: after := by simp
  have hanchor : (Match.between before ['<', '>'] after).anchor =
      Site.anchor ⟨before, '<', '>' :: after⟩ ['<', '>'] :=
    anchor_between before '<' ['>'] after
  have hgreater : ∀ pending, Site.acts pending ⟨before ++ ['<'], '>', after⟩ = [] ∧
      Site.consume pending ⟨before ++ ['<'], '>', after⟩ = pending :=
    fun pending => ⟨Site.acts_of_neither pending rfl rfl rfl rfl,
      Site.consume_of_neither pending rfl rfl⟩
  have hmode : modeFrom before .outside (['<', '>'] ++ after) =
      modeFrom (before ++ ['<', '>']) .outside after :=
    modeFrom_run (by simp)
  change Simulates before (['<', '>'] ++ after)
  apply simulates_step token?_oldInequality hmode _ hrest
  intro pending s hopeners
  refine ⟨Site.acts pending ⟨before, '<', '>' :: after⟩, pending, ?_, ?_⟩
  · rw [List.cons_append, restActs_cons (by decide), List.singleton_append,
      restActs_cons (by decide), Site.consume_of_neither pending rfl rfl, (hgreater pending).1,
      (hgreater pending).2, List.append_assoc]
    rfl
  · rw [s.step_oldInequality (by rwa [hjoin]), hanchor, Site.acts_of_oldInequality pending rfl,
      Scan.play_singleton]
    exact mirrors_follow hopeners _

/-- The first blank of a run speaks for all of it. -/
theorem simulates_blanks (hfits : (before ++ c :: after).size ≤ maxOffset)
    (hseam : Seam before (c :: after)) (hblank : isBlank c = true)
    (hrest : Simulates (before ++ c :: after.takeWhile isBlank) (after.dropWhile isBlank)) :
    Simulates before (c :: after) := by
  obtain ⟨run, t, hafter, hrunof, htof⟩ : ∃ run t, after = run ++ t ∧
      after.takeWhile isBlank = run ∧ after.dropWhile isBlank = t :=
    ⟨_, _, List.takeWhile_append_dropWhile.symm, rfl, rfl⟩
  have hrun : ∀ d ∈ run, isBlank d = true := by
    intro d hd
    rw [← hrunof] at hd
    exact List.mem_takeWhile_imp hd
  have htoken : token? (.between before (c :: after)) =
      some (.blanks (endsLine t), .between (before ++ c :: run) t) := by
    rw [token?_blanks hblank, hrunof, htof]
  rw [hrunof, htof] at hrest
  have hjoin : before ++ c :: run ++ t = before ++ c :: after := by simp [hafter]
  have hfirst : before.getLast?.any isBlank = false := hseam (by simpa using hblank)
  have htrailing : Site.beginsTrailing ⟨before, c, after⟩ = endsLine t := by
    simp [Site.beginsTrailing, hblank, hfirst, htof]
  have hruns : Site.blanks ⟨before, c, after⟩ = c :: run := by
    simp [Site.blanks, hrunof]
  have hanchor : (Match.between before (c :: run) t).anchor =
      Site.anchor ⟨before, c, after⟩ (c :: run) := by
    rw [anchor_between, hafter]
  obtain ⟨hopener, hcloser, hquote, -⟩ := kind_of_blank hblank
  have hquotes : ∀ d ∈ c :: run, d ≠ '"' := by
    intro d hd
    rcases List.mem_cons.mp hd with rfl | hd
    · exact hquote
    · exact (kind_of_blank (hrun d hd)).2.2.1
  have hacts : ∀ pending, restActs before pending (c :: after) =
      Site.acts pending ⟨before, c, after⟩ ++ restActs (before ++ c :: run) pending t := by
    intro pending
    rw [restActs_cons hquote, Site.consume_of_neither pending hopener hcloser, hafter,
      restActs_blanks (by simpa using hblank) hrun, List.append_assoc]
    rfl
  have hsplit : c :: after = c :: run ++ t := by rw [hafter]; rfl
  rw [hsplit] at htoken hacts ⊢
  apply simulates_step htoken (modeFrom_run hquotes) _ hrest
  intro pending s hopeners
  refine ⟨_, pending, hacts pending, ?_⟩
  rw [Site.acts_of_blank pending hblank, htrailing, hruns]
  cases hend : endsLine t with
  | true =>
      rw [if_pos rfl, s.step_trailing (by rwa [hjoin]), hanchor, Scan.play_singleton]
      exact mirrors_follow hopeners _
  | false =>
      rw [if_neg (by decide), s.step_idle (.inr rfl)]
      exact mirrors_going hopeners

theorem simulates_literal {body rest : Text}
    (hfits : (before ++ '"' :: (body ++ '"' :: rest)).size ≤ maxOffset)
    (hlength : literalLength? (body ++ '"' :: rest) 0 = some (body.length + 1))
    (hread : ∀ before quote,
      sitesFrom before (.inside quote) (body ++ '"' :: rest) =
        sitesFrom (before ++ (body ++ ['"'])) .outside rest ∧
      modeFrom before (.inside quote) (body ++ '"' :: rest) =
        modeFrom (before ++ (body ++ ['"'])) .outside rest)
    (hrest : Simulates (before ++ '"' :: (body ++ ['"'])) rest) :
    Simulates before ('"' :: (body ++ '"' :: rest)) := by
  have hsplit : '"' :: (body ++ '"' :: rest) = '"' :: (body ++ ['"']) ++ rest := by simp
  have hmode : modeFrom before .outside ('"' :: (body ++ '"' :: rest)) =
      modeFrom (before ++ '"' :: (body ++ ['"'])) .outside rest := by
    rw [modeFrom_quote, (hread _ before).2, List.append_assoc]
    rfl
  have htoken : token? (.between before ('"' :: (body ++ '"' :: rest))) =
      some (.literal, .between (before ++ '"' :: (body ++ ['"'])) rest) :=
    token?_literal hlength
  have hacts : ∀ pending, restActs before pending ('"' :: (body ++ '"' :: rest)) =
      restActs (before ++ '"' :: (body ++ ['"'])) pending rest :=
    fun _ => restActs_literal hread
  rw [hsplit] at hmode htoken hacts ⊢
  apply simulates_step htoken hmode _ hrest
  intro pending s hopeners
  refine ⟨[], pending, hacts pending, ?_⟩
  rw [← hsplit, s.step_literal hfits]
  exact mirrors_going hopeners

/-- An open literal raises the panic at once, so that nothing pending is reported. -/
theorem simulates_openLiteral (hfits : (before ++ '"' :: after).size + 2 ≤ maxOffset)
    (hlength : literalLength? after 0 = none) : Simulates before ('"' :: after) := by
  intro pending s hopeners
  obtain ⟨hsites, hquote⟩ := inside_of_not_closed hlength (before ++ ['"']) before
  have hacts : restActs before pending ('"' :: after) = [] := by
    simp [restActs, sitesFrom_quote, modeFrom_quote, hsites, hquote, actsFrom]
  have hfollow := s.follow_bare (s.session.raise (cutOff (before ++ '"' :: after) before))
  rw [tokens_eq_followedBy s (token?_openLiteral hlength), s.step_openLiteral hfits, hacts,
    modeFrom_quote, hquote, Scan.followedBy_raise, Scan.followedBy_raise]
  exact hfollow

end Simulate

/-- The ways in which a text can begin. -/
theorem beginning_cases (c : Char) (t : Text) :
    isOpener c = true ∨ isCloser c = true ∨ isBlank c = true ∨ c = '"' ∨
      (c = '<' ∧ ∃ t', t = '>' :: t') ∨
      (isOpener c = false ∧ isCloser c = false ∧ isBlank c = false ∧ c ≠ '"' ∧
        (c = '<' → t.head? ≠ some '>')) := by
  have hhead : t.head? = some '>' ↔ ∃ t', t = '>' :: t' := List.head?_eq_some_iff
  rw [← hhead]
  grind

theorem seam_dropWhile (before t : Text) : Seam before (t.dropWhile isBlank) := by
  intro hblank
  cases hhead : (t.dropWhile isBlank).head? with
  | none => simp [hhead] at hblank
  | some c =>
      have hnot := List.head?_dropWhile_not isBlank t
      simp_all

/-- The scan goes from token to token through the whole text. -/
theorem simulates {before after : Text} (hfits : (before ++ after).size + 2 ≤ maxOffset)
    (hseam : Seam before after) : Simulates before after := by
  induction hn : after.length using Nat.strong_induction_on generalizing before after with
  | _ n ih =>
      cases after with
      | nil => exact simulates_nil before
      | cons c after =>
          have hsize : (before ++ c :: after).size ≤ maxOffset := by omega
          have hone : (before ++ [c] ++ after).size ≤ maxOffset := by rwa [← List.append_cons]
          have hlater : ∀ d part t, c :: after = d :: part ++ t → Seam (before ++ d :: part) t →
              Simulates (before ++ d :: part) t := by
            intro d part t hsplit hseam
            apply ih t.length _ _ hseam rfl
            · simp only [← hn, hsplit, List.length_append, List.length_cons]
              omega
            · rwa [List.append_assoc, ← hsplit]
          have hnext : isBlank c = false → Simulates (before ++ [c]) after := by
            intro hblank
            exact hlater c [] after rfl (seam_of_last hblank before after)
          rcases beginning_cases c after with hopener | hcloser | hblank | rfl | ⟨rfl, t, rfl⟩ |
            ⟨hopener, hcloser, hblank, hquote, hless⟩
          · exact simulates_opener hone hopener (hnext (kind_of_opener hopener).1)
          · exact simulates_closer hone hcloser (hnext (kind_of_closer hcloser).2.1)
          · apply simulates_blanks hsize hseam hblank
            apply hlater _ _ _ _ (seam_dropWhile _ after)
            rw [List.cons_append, List.takeWhile_append_dropWhile]
          · cases hlength : literalLength? after 0 with
            | none => exact simulates_openLiteral hfits hlength
            | some length =>
                obtain ⟨body, rest, rfl, hbody, hread⟩ := exists_literal hlength
                rw [Nat.zero_add] at hbody
                apply simulates_literal hsize (by rw [hlength, hbody]) hread
                apply hlater _ _ _ (by simp)
                rw [← List.cons_append, ← List.append_assoc]
                exact seam_of_last (by decide) _ rest
          · apply simulates_oldInequality hsize
            apply hlater _ _ _ rfl
            rw [List.append_cons]
            exact seam_of_last (by decide) _ t
          · exact simulates_plain hopener hcloser hblank hquote hless (hnext hblank)

/-- Up to its stack, a scan does what the acts of its text say, then settles. -/
theorem scan_eq_play {t : Text} (hfits : t.size + 2 ≤ maxOffset) (session : Session) :
    (scan t session).map Progress.bare =
      followedBy ((Scan.start session).play (acts t)) (Scan.settle t (openLiteral? t)) := by
  have hwhole : Simulates [] t := simulates hfits (fun _ => rfl)
  have hstart : Cursor.start t = .between [] t := rfl
  rw [scan_eq_followedBy, hstart]
  exact hwhole [] (.start session) rfl

end Check

end ParseReport
