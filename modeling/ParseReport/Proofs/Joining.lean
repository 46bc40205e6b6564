import ParseReport.Proofs.Findings

/-!
# Sites of joined texts

When two texts are joined, the sites of the first one get more text behind them, and those of the
second one get more text in front. The acts for a site read little of either: `Site.look` says
what, and texts whose sites look alike call for the same acts, up to the places they name.
-/

namespace ParseReport

/-- A diagnostic apart from the place it points to. -/
def Diagnostic.gist (d : Diagnostic) : Severity × Problem × Option Text :=
  (d.severity, d.problem, d.advice)

namespace Check

/-- The site with more text behind it. -/
def Site.extend (more : Text) (s : Site) : Site := { s with after := s.after ++ more }

/-- The site with more text in front of it. -/
def Site.shift (front : Text) (s : Site) : Site := { s with before := front ++ s.before }

/-- The mode in a text with more in front of it. -/
def Mode.shift (front : Text) : Mode → Mode
  | outside => outside
  | inside quote => inside (front ++ quote)
  | escaped quote => escaped (front ++ quote)

/-- Whether a line ends is told from two characters at most. -/
theorem endsLine_cons_cons (c d : Char) (t : Text) :
    endsLine (c :: d :: t) = decide (c = '\n' ∨ c = '\r' ∧ d = '\n') := by
  by_cases hline : c = '\n'
  · rw [hline]
    rfl
  · by_cases hreturn : c = '\r'
    · by_cases hnext : d = '\n' <;> simp [endsLine, hreturn, hnext]
    · simp [endsLine, hline, hreturn]

theorem sitesFrom_append (before a b : Text) (mode : Mode) :
    sitesFrom before mode (a ++ b) =
      (sitesFrom before mode a).map (Site.extend b) ++
        sitesFrom (before ++ a) (modeFrom before mode a) b := by
  induction a generalizing before mode with
  | nil => rw [List.nil_append, List.append_nil]; rfl
  | cons c a ih =>
      have hmore := ih (before ++ [c]) (mode.next before c)
      rw [List.append_assoc, List.singleton_append] at hmore
      rw [List.cons_append, sitesFrom, sitesFrom, modeFrom, hmore]
      split <;> rfl

theorem Mode.next_shift (front before : Text) (c : Char) (mode : Mode) :
    (mode.shift front).next (front ++ before) c = (mode.next before c).shift front := by
  cases mode with
  | outside =>
      by_cases hquote : c = '"'
      · simp [shift, next, hquote]
      · simp [shift, next, hquote]
  | inside quote =>
      by_cases hquote : c = '"'
      · simp [shift, next, hquote]
      · by_cases hback : c = '\\' <;> simp [shift, next, hquote, hback]
  | escaped quote => rfl

theorem Mode.shift_eq_outside_iff {front : Text} {mode : Mode} :
    mode.shift front = .outside ↔ mode = .outside := by
  cases mode <;> simp [shift]

theorem Mode.quote?_shift (front : Text) (mode : Mode) :
    (mode.shift front).quote? = mode.quote?.map (front ++ ·) := by
  cases mode <;> rfl

theorem modeFrom_shift (front before t : Text) (mode : Mode) :
    modeFrom (front ++ before) (mode.shift front) t = (modeFrom before mode t).shift front := by
  induction t generalizing before mode with
  | nil => rfl
  | cons c t ih =>
      rw [modeFrom, modeFrom, Mode.next_shift, List.append_assoc]
      exact ih (before ++ [c]) (mode.next before c)

theorem sitesFrom_shift (front before t : Text) (mode : Mode) :
    sitesFrom (front ++ before) (mode.shift front) t =
      (sitesFrom before mode t).map (Site.shift front) := by
  induction t generalizing before mode with
  | nil => rfl
  | cons c t ih =>
      rw [sitesFrom, sitesFrom, Mode.next_shift, List.append_assoc, ih (before ++ [c])]
      simp only [Mode.shift_eq_outside_iff]
      split <;> rfl

/-- What the acts for a site read of it, apart from its place. -/
structure Look where
  char : Char
  isOldInequality : Bool
  beginsTrailing : Bool
  blanks : Nat
  deriving DecidableEq

def Site.look (s : Site) : Look := ⟨s.char, s.isOldInequality, s.beginsTrailing, s.blanks.length⟩

/-- What an act reports and whether it counts a pair, apart from the places. -/
def Act.gist (act : Act) : Option (Severity × Problem × Option Text) × Bool :=
  (act.report?.map Diagnostic.gist, act.isPair)

section Alike
variable {s s' : Site} {pending pending' row row' : List Site}

/-- A site consumes by its character alone. -/
theorem Site.char_consume_congr (hchar : s.char = s'.char)
    (hpending : pending.map Site.char = pending'.map Site.char) :
    (s.consume pending).map Site.char = (s'.consume pending').map Site.char := by
  cases hopener : isOpener s'.char with
  | true =>
      rw [consume_of_opener pending (by rw [hchar, hopener]), consume_of_opener pending' hopener,
        List.map_cons, List.map_cons, hchar, hpending]
  | false =>
      cases hcloser : isCloser s'.char with
      | true =>
          rw [consume_of_closer pending (by rw [hchar, hopener]) (by rw [hchar, hcloser]),
            consume_of_closer pending' hopener hcloser, List.map_tail, List.map_tail, hpending]
      | false =>
          rw [consume_of_neither pending (by rw [hchar, hopener]) (by rw [hchar, hcloser]),
            consume_of_neither pending' hopener hcloser, hpending]

/-- Sites that look alike call for the same acts. -/
theorem Site.gist_acts_congr (hlook : s.look = s'.look)
    (hpending : pending.map Site.char = pending'.map Site.char) :
    (s.acts pending).map Act.gist = (s'.acts pending').map Act.gist := by
  obtain ⟨hchar, hold, htrailing, hblanks⟩ := Look.mk.inj hlook
  have hopeners : isOpener s.char = isOpener s'.char := by rw [hchar]
  have hclosers : isCloser s.char = isCloser s'.char := by rw [hchar]
  cases hopener : isOpener s'.char with
  | true =>
      rw [acts_of_opener pending (hopeners.trans hopener), acts_of_opener pending' hopener]
      rfl
  | false =>
      cases hcloser : isCloser s'.char with
      | true =>
          cases pending with
          | nil =>
              obtain rfl : pending' = [] := List.map_eq_nil_iff.mp hpending.symm
              rw [acts_of_extra (hopeners.trans hopener) (hclosers.trans hcloser),
                acts_of_extra hopener hcloser, hchar]
              rfl
          | cons opener pending =>
              obtain ⟨opener', pending', rfl, hopenerChar, -⟩ :=
                List.map_eq_cons_iff.mp hpending.symm
              rw [acts_of_closer opener pending (hopeners.trans hopener)
                  (hclosers.trans hcloser),
                acts_of_closer opener' pending' hopener hcloser, hchar, hopenerChar]
              split <;> rfl
      | false =>
          simp only [acts, hopeners, hclosers, hopener, hcloser, hold, htrailing, hblanks,
            Bool.false_eq_true, if_false]
          split
          · rfl
          · split <;> rfl

theorem gist_actsFrom_congr (hrow : row.map Site.look = row'.map Site.look)
    (hpending : pending.map Site.char = pending'.map Site.char) :
    (actsFrom pending row).map Act.gist = (actsFrom pending' row').map Act.gist ∧
      (pendingFrom pending row).map Site.char = (pendingFrom pending' row').map Site.char := by
  induction row generalizing pending pending' row' with
  | nil =>
      obtain rfl : row' = [] := List.map_eq_nil_iff.mp hrow.symm
      exact ⟨rfl, hpending⟩
  | cons s row ih =>
      obtain ⟨s', row', rfl, hlook, hmore⟩ := List.map_eq_cons_iff.mp hrow.symm
      have hchar : s.char = s'.char := congrArg Look.char hlook.symm
      obtain ⟨hacts, hlast⟩ := ih hmore.symm (Site.char_consume_congr hchar hpending)
      refine ⟨?_, hlast⟩
      rw [actsFrom, actsFrom, List.map_append, List.map_append, hacts,
        Site.gist_acts_congr hlook.symm hpending]

theorem gist_unclosed_congr (hchars : row.map Site.char = row'.map Site.char) :
    (row.map Site.unclosed).map Act.gist = (row'.map Site.unclosed).map Act.gist := by
  have hgist : ∀ row : List Site, (row.map Site.unclosed).map Act.gist =
      (row.map Site.char).map fun c => (some (.regret, .unclosed c, none), false) := by
    intro row
    rw [List.map_map, List.map_map]
    rfl
  rw [hgist, hgist, hchars]

end Alike

/-- Texts whose sites look alike and whose literals are closed alike call for the same acts. -/
theorem gist_acts_congr {t t' : Text} (hsites : (sites t).map Site.look = (sites t').map Site.look)
    (hliteral : openLiteral? t = none ↔ openLiteral? t' = none) :
    (acts t).map Act.gist = (acts t').map Act.gist := by
  have hempty : ([] : List Site).map Site.char = ([] : List Site).map Site.char := rfl
  obtain ⟨hacts, hlast⟩ := gist_actsFrom_congr hsites hempty
  have hreverse : (pendingFrom [] (sites t)).reverse.map Site.char =
      (pendingFrom [] (sites t')).reverse.map Site.char := by
    rw [List.map_reverse, hlast, List.map_reverse]
  have hwhole : ∀ t, acts t = actsFrom [] (sites t) ++ if openLiteral? t = none then
      (pendingFrom [] (sites t)).reverse.map Site.unclosed else [] :=
    fun _ => rfl
  rw [hwhole, hwhole, List.map_append, List.map_append, hacts]
  by_cases hclosed : openLiteral? t' = none
  · rw [if_pos (hliteral.mpr hclosed), if_pos hclosed, gist_unclosed_congr hreverse]
  · rw [if_neg (mt hliteral.mp hclosed), if_neg hclosed]

/-- The same acts up to places report the same up to places. -/
theorem gist_findings_congr {t t' : Text} (h : (acts t).map Act.gist = (acts t').map Act.gist) :
    (findings t).map Diagnostic.gist = (findings t').map Diagnostic.gist := by
  have hreports : ∀ t, (findings t).map Diagnostic.gist =
      ((acts t).map Act.gist).filterMap Prod.fst := by
    intro t
    rw [findings, reports, List.map_filterMap, List.filterMap_map]
    rfl
  rw [hreports, hreports, h]

/-- They count the same pairs. -/
theorem pairs_congr {t t' : Text} (h : (acts t).map Act.gist = (acts t').map Act.gist) :
    pairs t = pairs t' := by
  have hpairs : ∀ t, pairs t = ((acts t).map Act.gist).countP Prod.snd := by
    intro t
    rw [pairs, List.countP_map]
    rfl
  rw [hpairs, hpairs, h]

end Check

end ParseReport
