import ParseReport.Check.Event
import ParseReport.Check.Token
import ParseReport.Session.Basic

/-!
# Scanning a text

One pass over the tokens of a text reports into a session. Problems with
delimiters are regrets, matters of style are worries, and a literal that is not
closed is a panic, since every delimiter after its quote would be misread. The
scan stops as soon as the session fails.
-/

namespace ParseReport

namespace Check

/-- A rule of use that a check broke. No check of a text that fits breaks one. -/
inductive Breach
  | misuse (misuse : Misuse)
  | span (error : SpanError)
  | fault (fault : Fault)
  deriving DecidableEq, Repr

/-- What a breach says; a bad slice has no fixed wording. -/
def Breach.message? : Breach → Option Text
  | misuse m => some m.message
  | span e => some e.message
  | fault f => f.message?

/-- Blanks at the end of a line. -/
def trailingBlanks (count : Nat) : Problem :=
  .custom "trailing-whitespace".toList "trailing whitespace".toList
    (some (if count = 1 then "remove the trailing character".toList
      else "remove the ".toList ++ Text.decimal count ++ " trailing characters".toList))

/-- An opening delimiter and where it stands. -/
structure Opener where
  delimiter : Char
  site : Match
  deriving DecidableEq, Repr

/-- The stretch between two cursors. -/
def stretch (before next : Cursor) : Except Breach Match :=
  (next.matched before.offset).mapError .span

/-- The state of a scan. -/
structure Scan where
  session : Session
  /-- The delimiters still open, the innermost first. -/
  openers : List Opener
  /-- Delimiters closed by their partners so far. -/
  pairs : Nat
  log : Array Event

/-- Where a scan stands after a step. -/
inductive Progress
  | going (scan : Scan)
  | failed (scan : Scan) (failure : Failure)

namespace Scan

/-- The state at the start of a text. -/
def start (session : Session) : Scan :=
  ⟨session, [], 0, #[.started session.ledger.filename]⟩

def note (s : Scan) (event : Event) : Scan := { s with log := s.log.push event }

/-- Takes over what the session answered to a report. -/
def follow (s : Scan) : Except Misuse Session.Outcome → Except Breach Progress
  | .error misuse => .error (.misuse misuse)
  | .ok outcome =>
    let s := { s with session := outcome.session }.note (.session outcome.event)
    match outcome.failure with
    | none => .ok (.going s)
    | some failure => .ok (.failed s failure)

def worry (s : Scan) (concern : Concern) : Except Breach Progress :=
  s.follow (s.session.worry concern)

def regret (s : Scan) (concern : Concern) : Except Breach Progress :=
  s.follow (s.session.regret concern)

def raise (s : Scan) (concern : Concern) : Except Breach Progress :=
  s.follow (s.session.raise concern)

/-- A closing delimiter takes the innermost open one with it, whether the two match or not. -/
def close (s : Scan) (closer : Char) (site : Match) (offset : Nat) : Except Breach Progress :=
  match s.openers with
  | [] => s.regret (.about (.extraCloser closer) site.anchor)
  | opener :: openers =>
    let s := { s with openers }
    if Delimiter.closing? opener.delimiter = some closer then
      .ok (.going { s.note (.closed opener.delimiter closer offset) with pairs := s.pairs + 1 })
    else
      s.regret (.about (.mismatched opener.delimiter closer) site.anchor)

/-- A literal whose quote is at `opening` is still open at the end of the text. -/
def raiseOpenLiteral (s : Scan) (opening : Match) (last : Cursor) : Except Breach Progress := do
  let location ← opening.anchor.locate.mapError .fault
  s.raise
    { problem := .earlyEnd (some ("a closing ".toList ++ Problem.ticked ['"']))
      advice := some ("the string opened on line ".toList ++ Text.decimal location.line
        ++ " is never closed".toList)
      anchor := some last.anchor }

/-- Takes the token between two cursors. Only what may be reported later is kept as a stretch, so a
token that is just passed can also lie behind the offsets that a span can hold. -/
def step (s : Scan) (before : Cursor) (token : Token) (next : Cursor) :
    Except Breach Progress := do
  match token with
  | .plain | .blanks false => return .going s
  | .opening delimiter =>
    let site ← stretch before next
    let s := s.note (.opened delimiter before.offset)
    return .going { s with openers := ⟨delimiter, site⟩ :: s.openers }
  | .closing delimiter =>
    let site ← stretch before next
    s.close delimiter site before.offset
  | .literal =>
    -- The quote is kept before it is known whether the literal is closed.
    let _ ← stretch before (before.advance 1)
    return .going s
  | .openLiteral =>
    let opening ← stretch before (before.advance 1)
    s.raiseOpenLiteral opening next
  | .oldInequality =>
    let site ← stretch before next
    s.worry (.about (.obsolete "<>".toList "!=".toList) site.anchor)
  | .blanks true =>
    let site ← stretch before next
    let run ← site.spelling.mapError .fault
    s.worry (.about (trailingBlanks run.length) site.anchor)

/-- Takes the tokens from a cursor on, up to the first failure or the end of the text. -/
def tokens (c : Cursor) (s : Scan) : Except Breach Progress :=
  match h : token? c with
  | none => .ok (.going s)
  | some (token, next) =>
    match s.step c token next with
    | .error breach => .error breach
    | .ok (.failed s failure) => .ok (.failed s failure)
    | .ok (.going s) =>
      have := length_rest_of_token? h
      tokens next s
termination_by c.rest.length

/-- Reports openers that nothing closed, in the order given. -/
def unclosed (s : Scan) : List Opener → Except Breach Progress
  | [] => .ok (.going s)
  | opener :: openers =>
    match s.regret (.about (.unclosed opener.delimiter) opener.site.anchor) with
    | .error breach => .error breach
    | .ok (.failed s failure) => .ok (.failed s failure)
    | .ok (.going s) => s.unclosed openers

end Scan

/-- Goes on with a scan that has not failed. -/
def Progress.andThen (p : Progress) (next : Scan → Except Breach Progress) :
    Except Breach Progress :=
  match p with
  | going s => next s
  | failed s failure => .ok (.failed s failure)

namespace Scan

theorem tokens_of_none {c : Cursor} (s : Scan) (h : token? c = none) :
    tokens c s = .ok (.going s) := by
  rw [tokens.eq_def]
  split
  · rfl
  · simp_all

/-- The tokens are taken one by one. -/
theorem tokens_of_some {c next : Cursor} {token : Token} (s : Scan)
    (h : token? c = some (token, next)) :
    tokens c s = (s.step c token next).bind (·.andThen (tokens next)) := by
  rw [tokens.eq_def]
  split
  · simp_all
  · rename_i h'
    rw [h] at h'
    cases h'
    cases hstep : s.step c token next with
    | error => rfl
    | ok p => cases p <;> rfl

theorem unclosed_cons (s : Scan) (opener : Opener) (openers : List Opener) :
    s.unclosed (opener :: openers) =
      (s.regret (.about (.unclosed opener.delimiter) opener.site.anchor)).bind
        (·.andThen (·.unclosed openers)) := by
  rw [unclosed]
  cases hregret : s.regret (.about (.unclosed opener.delimiter) opener.site.anchor) with
  | error => rfl
  | ok p => cases p <;> rfl

end Scan

/-- Scans a text to its end, then reports what is still open, then ends the session. -/
def scan (t : Text) (session : Session) : Except Breach Progress := do
  let read ← Scan.tokens (.start t) (.start session)
  let closed ← read.andThen fun s => { s with openers := [] }.unclosed s.openers.reverse
  closed.andThen fun s => s.follow s.session.expressConcerns

end Check

end ParseReport
