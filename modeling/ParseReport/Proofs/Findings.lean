import ParseReport.Check.Run
import ParseReport.Proofs.Reading

/-!
# What there is to find in a text

The sites of a text are gone through one at a time, with the openers that nothing has consumed
yet. Each site calls for certain acts, and no limit stops them. The verdict of a check with a
limit is worked out from the reports among the acts.
-/

namespace ParseReport.Check

/-- Opening delimiters that have to be closed. -/
def isOpener (c : Char) : Bool := c = '(' ∨ c = '[' ∨ c = '{'

/-- Their partners. -/
def isCloser (c : Char) : Bool := c = ')' ∨ c = ']' ∨ c = '}'

theorem kind_of_blank {c : Char} (h : isBlank c = true) :
    isOpener c = false ∧ isCloser c = false ∧ c ≠ '"' ∧ c ≠ '<' := by
  have hc : c = ' ' ∨ c = '\t' := by simpa [isBlank] using h
  rcases hc with rfl | rfl <;> decide

theorem kind_of_opener {c : Char} (h : isOpener c = true) :
    isBlank c = false ∧ c ≠ '"' := by
  have hc : c = '(' ∨ c = '[' ∨ c = '{' := by simpa [isOpener] using h
  rcases hc with rfl | rfl | rfl <;> decide

theorem kind_of_closer {c : Char} (h : isCloser c = true) :
    isOpener c = false ∧ isBlank c = false ∧ c ≠ '"' := by
  have hc : c = ')' ∨ c = ']' ∨ c = '}' := by simpa [isCloser] using h
  rcases hc with rfl | rfl | rfl <;> decide

theorem isCloser_of_opener {c : Char} (h : isOpener c = true) : isCloser c = false := by
  rw [Bool.eq_false_iff]
  intro hcloser
  rw [(kind_of_closer hcloser).1] at h
  cases h

/-- Something that a check does on account of a site. -/
inductive Act
  /-- Logs an opener. -/
  | opened (delimiter : Char) (offset : Nat)
  /-- Logs and counts a closer that met its partner. -/
  | closed (opener closer : Char) (offset : Nat)
  | worry (concern : Concern)
  | regret (concern : Concern)
  deriving DecidableEq

/-- The diagnostic that the act reports. -/
def Act.report? : Act → Option Diagnostic
  | opened .. => none
  | closed .. => none
  | worry concern => some ⟨concern, .worry⟩
  | regret concern => some ⟨concern, .regret⟩

/-- Whether the act counts a pair. -/
def Act.isPair : Act → Bool
  | closed .. => true
  | _ => false

namespace Site

/-- The place of a spelling that begins at the site. -/
def anchor (s : Site) (spelling : Text) : Anchor :=
  .attached s.text ⟨s.before.size.toUInt32, (s.before.size + spelling.size).toUInt32⟩

/-- A `<` directly followed by a `>`. -/
def isOldInequality (s : Site) : Bool := s.char = '<' ∧ s.after.head? = some '>'

/-- The blanks from the site on. -/
def blanks (s : Site) : Text := s.char :: s.after.takeWhile isBlank

/-- Whether the site is the first of a run of blanks with which its line ends. -/
def beginsTrailing (s : Site) : Bool :=
  isBlank s.char ∧ ¬s.before.getLast?.any isBlank ∧ endsLine (s.after.dropWhile isBlank)

theorem isOldInequality_iff {s : Site} :
    s.isOldInequality = true ↔ s.char = '<' ∧ s.after.head? = some '>' := by
  simp [isOldInequality]

theorem beginsTrailing_iff {s : Site} :
    s.beginsTrailing = true ↔
      isBlank s.char = true ∧ s.before.getLast?.any isBlank = false ∧
        endsLine (s.after.dropWhile isBlank) = true := by
  simp [beginsTrailing]

theorem isOldInequality_of_blank {s : Site} (hblank : isBlank s.char = true) :
    s.isOldInequality = false := by
  obtain ⟨-, -, -, hless⟩ := kind_of_blank hblank
  simp [isOldInequality, hless]

/-- The acts that the site calls for. The innermost opener that is not consumed comes first in
`pending`. -/
def acts (pending : List Site) (s : Site) : List Act :=
  if isOpener s.char then
    [.opened s.char s.before.size]
  else if isCloser s.char then
    match pending with
    | [] => [.regret (.about (.extraCloser s.char) (s.anchor [s.char]))]
    | opener :: _ =>
      if Delimiter.closing? opener.char = some s.char then
        [.closed opener.char s.char s.before.size]
      else
        [.regret (.about (.mismatched opener.char s.char) (s.anchor [s.char]))]
  else if s.isOldInequality then
    [.worry (.about (.obsolete "<>".toList "!=".toList) (s.anchor ['<', '>']))]
  else if s.beginsTrailing then
    [.worry (.about (trailingBlanks s.blanks.length) (s.anchor s.blanks))]
  else
    []

/-- The openers not consumed after the site. A closer consumes the innermost one, whether the two
match or not. -/
def consume (pending : List Site) (s : Site) : List Site :=
  if isOpener s.char then s :: pending
  else if isCloser s.char then pending.tail
  else pending

theorem consume_of_neither (pending : List Site) {s : Site} (hopener : isOpener s.char = false)
    (hcloser : isCloser s.char = false) : s.consume pending = pending := by
  simp [consume, hopener, hcloser]

theorem consume_of_opener (pending : List Site) {s : Site} (hopener : isOpener s.char = true) :
    s.consume pending = s :: pending := by
  simp [consume, hopener]

theorem consume_of_closer (pending : List Site) {s : Site} (hopener : isOpener s.char = false)
    (hcloser : isCloser s.char = true) : s.consume pending = pending.tail := by
  simp [consume, hopener, hcloser]

theorem acts_of_opener (pending : List Site) {s : Site} (hopener : isOpener s.char = true) :
    s.acts pending = [.opened s.char s.before.size] := by
  simp [acts, hopener]

theorem acts_of_neither (pending : List Site) {s : Site} (hopener : isOpener s.char = false)
    (hcloser : isCloser s.char = false) (hold : s.isOldInequality = false)
    (htrailing : s.beginsTrailing = false) : s.acts pending = [] := by
  simp [acts, hopener, hcloser, hold, htrailing]

theorem acts_of_extra {s : Site} (hopener : isOpener s.char = false)
    (hcloser : isCloser s.char = true) :
    s.acts [] = [.regret (.about (.extraCloser s.char) (s.anchor [s.char]))] := by
  simp [acts, hopener, hcloser]

theorem acts_of_closer {s : Site} (opener : Site) (pending : List Site)
    (hopener : isOpener s.char = false) (hcloser : isCloser s.char = true) :
    s.acts (opener :: pending) =
      if Delimiter.closing? opener.char = some s.char then
        [.closed opener.char s.char s.before.size]
      else
        [.regret (.about (.mismatched opener.char s.char) (s.anchor [s.char]))] := by
  simp [acts, hopener, hcloser]

theorem acts_of_oldInequality (pending : List Site) {s : Site} (h : s.isOldInequality = true) :
    s.acts pending =
      [.worry (.about (.obsolete "<>".toList "!=".toList) (s.anchor ['<', '>']))] := by
  have hchar : s.char = '<' := (isOldInequality_iff.mp h).1
  have hopener : isOpener s.char = false := by rw [hchar]; rfl
  have hcloser : isCloser s.char = false := by rw [hchar]; rfl
  simp only [acts, hopener, hcloser, h, if_true, Bool.false_eq_true, if_false]

theorem acts_of_blank (pending : List Site) {s : Site} (hblank : isBlank s.char = true) :
    s.acts pending =
      if s.beginsTrailing then
        [.worry (.about (trailingBlanks s.blanks.length) (s.anchor s.blanks))]
      else [] := by
  obtain ⟨hopener, hcloser, -⟩ := kind_of_blank hblank
  have hold := isOldInequality_of_blank hblank
  simp only [acts, hopener, hcloser, hold, Bool.false_eq_true, if_false]

/-- A blank after a blank is not the first of its run. -/
theorem acts_of_laterBlank (pending : List Site) {s : Site} (hblank : isBlank s.char = true)
    (hlast : s.before.getLast?.any isBlank = true) : s.acts pending = [] := by
  have hfirst : ¬s.beginsTrailing = true := by simp [beginsTrailing, hlast]
  rw [acts_of_blank pending hblank, if_neg hfirst]

/-- The report of an opener that nothing consumed. -/
def unclosed (s : Site) : Act := .regret (.about (.unclosed s.char) (s.anchor [s.char]))

end Site

/-- The acts that a row of sites calls for. -/
def actsFrom : List Site → List Site → List Act
  | _, [] => []
  | pending, s :: sites => s.acts pending ++ actsFrom (s.consume pending) sites

/-- The openers not consumed after a row of sites. -/
def pendingFrom (pending sites : List Site) : List Site := sites.foldl Site.consume pending

/-- The acts for a text that comes after `before` and begins outside the literals. Openers that
were never consumed are reported last, unless a literal is open at the end. -/
def restActs (before : Text) (pending : List Site) (t : Text) : List Act :=
  actsFrom pending (sitesFrom before .outside t) ++
    if (modeFrom before .outside t).quote? = none then
      (pendingFrom pending (sitesFrom before .outside t)).reverse.map Site.unclosed
    else []

/-- The acts for a whole text. -/
def acts (t : Text) : List Act := restActs [] [] t

/-- The diagnostics that acts report. -/
def reports (acts : List Act) : List Diagnostic := acts.filterMap Act.report?

/-- Everything that an unlimited check reports, in the order in which it does. -/
def findings (t : Text) : List Diagnostic := reports (acts t)

/-- The pairs of delimiters that an unlimited check counts. -/
def pairs (t : Text) : Nat := (acts t).countP Act.isPair

/-- The concern of a literal that the end of `t` cuts off, with its quote after `quote`. -/
def cutOff (t quote : Text) : Concern where
  problem := .earlyEnd (some ("a closing ".toList ++ Problem.ticked ['"']))
  advice := some ("the string opened on line ".toList ++ Text.decimal (quote.count '\n' + 1)
    ++ " is never closed".toList)
  anchor := some (.point t t.size.toUInt32)

/-- The result that a check of `t` has to give. -/
def verdict (t : Text) (config : Config) : Except Error Summary :=
  if config.limit.toNat ≤ (findings t).length then
    .error (.reported ⟨config.filename, (findings t).take config.limit.toNat,
      .limitExceeded config.limit.toNat⟩)
  else
    match openLiteral? t with
    | some quote => .error (.reported ⟨config.filename, [⟨cutOff t quote, .panic⟩], .panic⟩)
    | none =>
      if findings t = [] then .ok ⟨pairs t, t.lineCount⟩
      else .error (.reported ⟨config.filename, findings t, .concerns⟩)

@[simp] theorem reports_append (first later : List Act) :
    reports (first ++ later) = reports first ++ reports later :=
  List.filterMap_append

theorem reports_concat (acts : List Act) (act : Act) :
    reports (acts ++ [act]) = reports acts ++ act.report?.toList := by
  cases h : act.report? <;> simp [reports, h]

section Rest
variable {before t : Text} {pending : List Site}

theorem restActs_nil : restActs before pending [] = pending.reverse.map Site.unclosed := rfl

theorem restActs_cons {c : Char} (hc : c ≠ '"') :
    restActs before pending (c :: t) =
      Site.acts pending ⟨before, c, t⟩ ++
        restActs (before ++ [c]) (Site.consume pending ⟨before, c, t⟩) t := by
  simp only [restActs, sitesFrom_cons hc, modeFrom_cons hc, actsFrom, pendingFrom,
    List.foldl_cons, List.append_assoc]

/-- A literal calls for no act. -/
theorem restActs_literal {body rest : Text}
    (hread : ∀ before quote,
      sitesFrom before (.inside quote) (body ++ '"' :: rest) =
        sitesFrom (before ++ (body ++ ['"'])) .outside rest ∧
      modeFrom before (.inside quote) (body ++ '"' :: rest) =
        modeFrom (before ++ (body ++ ['"'])) .outside rest) :
    restActs before pending ('"' :: (body ++ '"' :: rest)) =
      restActs (before ++ '"' :: (body ++ ['"'])) pending rest := by
  obtain ⟨hsites, hmode⟩ := hread (before ++ ['"']) before
  have hjoin : before ++ ['"'] ++ (body ++ ['"']) = before ++ '"' :: (body ++ ['"']) := by simp
  rw [hjoin] at hsites hmode
  simp only [restActs, sitesFrom_quote, modeFrom_quote, hsites, hmode]

/-- After a blank, further blanks of the same run call for no act. -/
theorem restActs_blanks {run : Text} (hlast : before.getLast?.any isBlank = true)
    (hrun : ∀ c ∈ run, isBlank c = true) :
    restActs before pending (run ++ t) = restActs (before ++ run) pending t := by
  induction run generalizing before with
  | nil => simp
  | cons c run ih =>
      have hblank := hrun c List.mem_cons_self
      obtain ⟨hopener, hcloser, hquote, -⟩ := kind_of_blank hblank
      have hacts : Site.acts pending ⟨before, c, run ++ t⟩ = [] :=
        Site.acts_of_laterBlank pending hblank hlast
      rw [List.cons_append, restActs_cons hquote, hacts,
        Site.consume_of_neither pending hopener hcloser, List.nil_append,
        ih (by simpa using hblank) (fun d hd => hrun d (List.mem_cons_of_mem c hd)),
        List.append_assoc]
      rfl

end Rest

end ParseReport.Check
