import ParseReport.Proofs.Joining
import ParseReport.Proofs.Truncation

/-!
# What a literal holds is not looked at

Two texts that differ only in the body of one literal are compared. The sites in front of the
literal and behind it look alike in both, and the body has none, so both texts call for the same
acts up to the places. Only the line on which a later literal is cut off depends on the body, by
the line ends in it.
-/

namespace ParseReport

/-- What a report says of a diagnostic, apart from its hint and its place. -/
def Diagnostic.wording (d : Diagnostic) : Severity × Text × Text := (d.severity, d.kind, d.message)

/-- Diagnostics that are the same up to their places read the same. -/
theorem Diagnostic.wording_congr {row row' : List Diagnostic}
    (h : row.map gist = row'.map gist) :
    row.map wording = row'.map wording ∧ row.map hint = row'.map hint := by
  have hwording : ∀ row : List Diagnostic, row.map wording =
      (row.map gist).map fun g => (g.1, g.2.1.kind, g.2.1.message) := by
    intro row
    rw [List.map_map]
    rfl
  have hhint : ∀ row : List Diagnostic, row.map hint =
      (row.map gist).map fun g => (g.2.2 <|> g.2.1.hint) := by
    intro row
    rw [List.map_map]
    rfl
  rw [hwording, hwording, hhint, hhint, h]
  exact ⟨rfl, rfl⟩

namespace Check

/-- What can stand between the quotes of a literal: characters other than a quote and a
backslash, and backslashes each with the one character after it. -/
inductive LiteralBody : Text → Prop
  | empty : LiteralBody []
  | plain {c : Char} {body : Text} :
    c ≠ '"' → c ≠ '\\' → LiteralBody body → LiteralBody (c :: body)
  | escape {c : Char} {body : Text} : LiteralBody body → LiteralBody ('\\' :: c :: body)

/-- The body of a literal is passed without a site, and after the closing quote reading goes on
outside. -/
theorem LiteralBody.read {body : Text} (h : LiteralBody body) (before quote t : Text) :
    sitesFrom before (.inside quote) (body ++ '"' :: t) =
        sitesFrom (before ++ (body ++ ['"'])) .outside t ∧
      modeFrom before (.inside quote) (body ++ '"' :: t) =
        modeFrom (before ++ (body ++ ['"'])) .outside t := by
  induction h generalizing before with
  | empty => exact ⟨rfl, rfl⟩
  | @plain c body hquote hback hbody ih =>
      have hmore := ih (before ++ [c])
      have hnext : Mode.next before c (.inside quote) = .inside quote := by
        rw [Mode.next, if_neg hquote, if_neg hback]
      simpa [sitesFrom, modeFrom, hnext] using hmore
  | @escape c body hbody ih =>
      have hmore := ih (before ++ ['\\'] ++ [c])
      simpa [sitesFrom, modeFrom, Mode.next] using hmore

/-- A quote ends every run of blanks. -/
theorem takeWhile_append_quote (t more : Text) :
    (t ++ '"' :: more).takeWhile isBlank = t.takeWhile isBlank ∧
      (t ++ '"' :: more).dropWhile isBlank = t.dropWhile isBlank ++ '"' :: more := by
  induction t with
  | nil => exact ⟨rfl, rfl⟩
  | cons c t ih =>
      cases hblank : isBlank c with
      | true => simpa [hblank] using ih
      | false => simp [hblank]

/-- Whether a line ends can be told without looking behind a quote. -/
theorem endsLine_append_quote (t more : Text) :
    endsLine (t ++ '"' :: more) = endsLine (t ++ ['"']) := by
  match t with
  | [] => rfl
  | [c] => exact (endsLine_cons_cons c '"' more).trans (endsLine_cons_cons c '"' []).symm
  | c :: d :: t => exact (endsLine_cons_cons c d _).trans (endsLine_cons_cons c d _).symm

/-- From the sites in front of a literal, only its opening quote can be seen. -/
theorem look_extend_quote (s : Site) (more : Text) :
    (s.extend ('"' :: more)).look = (s.extend ['"']).look := by
  have hhead : (s.after ++ '"' :: more).head? = (s.after ++ ['"']).head? := by
    cases s.after <;> rfl
  obtain ⟨htake, hdrop⟩ := takeWhile_append_quote s.after more
  obtain ⟨htake', hdrop'⟩ := takeWhile_append_quote s.after []
  have hends := endsLine_append_quote (s.after.dropWhile isBlank) more
  have hold : (s.extend ('"' :: more)).isOldInequality = (s.extend ['"']).isOldInequality := by
    simp [Site.isOldInequality, Site.extend, hhead]
  have htrailing : (s.extend ('"' :: more)).beginsTrailing = (s.extend ['"']).beginsTrailing := by
    simp [Site.beginsTrailing, Site.extend, hdrop, hdrop', hends]
  have hblanks : (s.extend ('"' :: more)).blanks = (s.extend ['"']).blanks := by
    simp [Site.blanks, Site.extend, htake, htake']
  rw [Site.look, Site.look, hold, htrailing, hblanks]
  rfl

/-- From the sites behind a text, only its last character can be seen. -/
theorem look_shift {s : Site} (front : Text) (hbefore : s.before ≠ []) :
    (s.shift front).look = s.look := by
  have hlast : (front ++ s.before).getLast? = s.before.getLast? :=
    List.getLast?_append_of_ne_nil front hbefore
  have htrailing : (s.shift front).beginsTrailing = s.beginsTrailing := by
    simp [Site.beginsTrailing, Site.shift, hlast]
  rw [Site.look, Site.look, htrailing]
  rfl

section Around
variable {a body b : Text}

/-- How the sites of a text look that has a literal in it. -/
theorem look_sites_around (ha : openLiteral? a = none) (hbody : LiteralBody body) :
    (sites (a ++ '"' :: (body ++ '"' :: b))).map Site.look =
      (sites a).map (fun s => (s.extend ['"']).look) ++
        (sitesFrom ['"'] .outside b).map Site.look := by
  have hoff : modeFrom [] .outside a = .outside := Mode.quote?_eq_none_iff.mp ha
  have hbehind : sitesFrom a .outside ('"' :: (body ++ '"' :: b)) =
      (sitesFrom ['"'] .outside b).map (Site.shift (a ++ '"' :: body)) := by
    rw [sitesFrom_quote, (hbody.read _ _ _).1, ← sitesFrom_shift]
    simp [Mode.shift]
  have hlook : ∀ s ∈ sitesFrom ['"'] .outside b,
      (s.shift (a ++ '"' :: body)).look = s.look := by
    intro s hs
    obtain ⟨part, hbefore, -⟩ := mem_sitesFrom_iff.mp hs
    apply look_shift
    rw [hbefore]
    exact List.cons_ne_nil _ _
  have hfront : ∀ s ∈ sites a,
      (s.extend ('"' :: (body ++ '"' :: b))).look = (s.extend ['"']).look :=
    fun s _ => look_extend_quote s _
  rw [sites, sitesFrom_append, hoff, List.nil_append, hbehind, List.map_append, List.map_map,
    List.map_map]
  exact congrArg₂ _ (List.map_congr_left hfront) (List.map_congr_left hlook)

/-- Where a literal behind the given one is cut off. -/
theorem openLiteral?_around (ha : openLiteral? a = none) (hbody : LiteralBody body) :
    openLiteral? (a ++ '"' :: (body ++ '"' :: b)) =
      (modeFrom ['"'] .outside b).quote?.map (a ++ '"' :: body ++ ·) := by
  have hoff : modeFrom [] .outside a = .outside := Mode.quote?_eq_none_iff.mp ha
  rw [openLiteral?, modeFrom_append, hoff, List.nil_append, modeFrom_quote, (hbody.read _ _ _).2,
    ← Mode.quote?_shift, ← modeFrom_shift]
  simp [Mode.shift]

end Around

/-- Two results that agree but for the places, the lines and, where it is not promised, the
hints. -/
def Alike (sameHints : Prop) (r r' : Except Error Summary) : Prop :=
  (∃ summary summary', r = .ok summary ∧ r' = .ok summary' ∧ summary.pairs = summary'.pairs) ∨
    ∃ failure failure', r = .error (.reported failure) ∧ r' = .error (.reported failure') ∧
      failure.cause = failure'.cause ∧
      failure.diagnostics.map Diagnostic.wording = failure'.diagnostics.map Diagnostic.wording ∧
      (sameHints →
        failure.diagnostics.map Diagnostic.hint = failure'.diagnostics.map Diagnostic.hint)

/-- The verdicts on two texts are alike when the texts call for the same acts and cut off the same
literals, if any; the hint about such a literal depends on the line ends before its quote. -/
theorem alike_verdict {t t' front front' : Text} {quote? : Option Text} (config : Config)
    (hacts : (acts t).map Act.gist = (acts t').map Act.gist)
    (hquote : openLiteral? t = quote?.map (front ++ ·))
    (hquote' : openLiteral? t' = quote?.map (front' ++ ·)) :
    Alike (front.count '\n' = front'.count '\n') (verdict t config) (verdict t' config) := by
  have hfindings := gist_findings_congr hacts
  have hlength : (findings t).length = (findings t').length := by
    simpa using congrArg List.length hfindings
  rw [verdict, verdict, hquote, hquote', hlength]
  by_cases hfull : config.limit.toNat ≤ (findings t').length
  · have htaken : ((findings t).take config.limit.toNat).map Diagnostic.gist =
        ((findings t').take config.limit.toNat).map Diagnostic.gist := by
      rw [List.map_take, List.map_take, hfindings]
    obtain ⟨hwording, hhint⟩ := Diagnostic.wording_congr htaken
    rw [if_pos hfull, if_pos hfull]
    exact .inr ⟨_, _, rfl, rfl, rfl, hwording, fun _ => hhint⟩
  · rw [if_neg hfull, if_neg hfull]
    cases quote? with
    | some quote =>
        refine .inr ⟨_, _, rfl, rfl, rfl, rfl, ?_⟩
        intro hlines
        have hcount : (front ++ quote).count '\n' = (front' ++ quote).count '\n' := by
          rw [List.count_append, List.count_append, hlines]
        simp only [List.map_cons, List.map_nil, Diagnostic.hint, cutOff, hcount]
    | none =>
        by_cases hnone : findings t' = []
        · have hnone' : findings t = [] := by
            rwa [← List.length_eq_zero_iff, hlength, List.length_eq_zero_iff]
          simp only [Option.map_none, if_pos hnone, if_pos hnone']
          exact .inl ⟨_, _, rfl, rfl, pairs_congr hacts⟩
        · have hsome : findings t ≠ [] := by
            rwa [Ne, ← List.length_eq_zero_iff, hlength, List.length_eq_zero_iff]
          obtain ⟨hwording, hhint⟩ := Diagnostic.wording_congr hfindings
          simp only [Option.map_none, if_neg hnone, if_neg hsome]
          exact .inr ⟨_, _, rfl, rfl, rfl, hwording, fun _ => hhint⟩

/-- Where a text in front leaves no literal open, what the next literal holds has no influence on
a check, whatever comes behind: it succeeds with the same pairs, or fails for the same cause with
the same severities, kinds and messages. The hints are the same as well if the two bodies have as
many line ends. -/
theorem check_ignores_literal_contents {a body body' b : Text} (config : Config)
    (ha : openLiteral? a = none) (hbody : LiteralBody body) (hbody' : LiteralBody body')
    (hfits : Text.size (a ++ '"' :: (body ++ '"' :: b)) + 2 ≤ maxOffset)
    (hfits' : Text.size (a ++ '"' :: (body' ++ '"' :: b)) + 2 ≤ maxOffset)
    (hlimit : config.limit ≠ 0) :
    ∃ outcome outcome', check (a ++ '"' :: (body ++ '"' :: b)) config = .ok outcome ∧
      check (a ++ '"' :: (body' ++ '"' :: b)) config = .ok outcome' ∧
      Alike (body.count '\n' = body'.count '\n') outcome.result outcome'.result := by
  have hsites := look_sites_around (b := b) ha hbody
  rw [← look_sites_around ha hbody'] at hsites
  have hquote := openLiteral?_around (b := b) ha hbody
  have hquote' := openLiteral?_around (b := b) ha hbody'
  have hacts := gist_acts_congr hsites (by rw [hquote, hquote', Option.map_eq_none_iff,
    Option.map_eq_none_iff])
  obtain ⟨p, hp, -, hresult⟩ := check_eq_outcome hfits config hlimit
  obtain ⟨p', hp', -, hresult'⟩ := check_eq_outcome hfits' config hlimit
  refine ⟨_, _, hp, hp', ?_⟩
  rw [hresult, hresult']
  have hlines : (a ++ '"' :: body).count '\n' = (a ++ '"' :: body').count '\n' ↔
      body.count '\n' = body'.count '\n' := by
    simp [List.count_append]
  rw [← hlines]
  exact alike_verdict config hacts hquote hquote'

/-- A closer and an escaped quote in a literal are as good as nothing. -/
theorem check_ignores_closer_in_literal :
    let front : Text := ['f', '(']
    let body : Text := [')', '\\', '"']
    let back : Text := [')', '\n']
    openLiteral? front = none ∧ LiteralBody body ∧ LiteralBody [] ∧
      Text.size (front ++ '"' :: (body ++ '"' :: back)) + 2 ≤ maxOffset ∧
      Text.size (front ++ '"' :: ([] ++ '"' :: back)) + 2 ≤ maxOffset ∧
      (⟨['f'], 1⟩ : Config).limit ≠ 0 ∧
      ∃ outcome outcome', check (front ++ '"' :: (body ++ '"' :: back)) ⟨['f'], 1⟩ = .ok outcome ∧
        check (front ++ '"' :: ([] ++ '"' :: back)) ⟨['f'], 1⟩ = .ok outcome' ∧
        Alike (body.count '\n' = ([] : Text).count '\n') outcome.result outcome'.result := by
  intro front body back
  have hfront : openLiteral? front = none := rfl
  have hbody : LiteralBody body := .plain (by decide) (by decide) (.escape .empty)
  have hfits : Text.size (front ++ '"' :: (body ++ '"' :: back)) + 2 ≤ maxOffset := by decide
  have hfits' : Text.size (front ++ '"' :: ([] ++ '"' :: back)) + 2 ≤ maxOffset := by decide
  exact ⟨hfront, hbody, .empty, hfits, hfits', by decide,
    check_ignores_literal_contents ⟨['f'], 1⟩ hfront hbody .empty hfits hfits' (by decide)⟩

end Check

end ParseReport
