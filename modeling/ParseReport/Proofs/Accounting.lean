import ParseReport.Proofs.Blame
import ParseReport.Proofs.Trace

/-!
# Every delimiter is accounted for

Where a check reads a text to its end, it leaves a trace of every delimiter outside the literals:
in a pair it counts, or in a diagnostic. The law holds site by site with the openers still
pending as the balance, and these are reported at the end.
-/

namespace ParseReport.Check
variable {t : Text} {config : Config}

/-- The diagnostics that the result of a check holds. -/
def Outcome.diagnostics (outcome : Outcome) : List Diagnostic :=
  match outcome.result with
  | .error (.reported failure) => failure.diagnostics
  | _ => []

/-- With every literal closed and the limit not reached, the result holds all there is to find. -/
theorem diagnostics_of_below (hclosed : openLiteral? t = none)
    (hbelow : (findings t).length < config.limit.toNat) {outcome : Outcome}
    (hresult : outcome.result = verdict t config) : outcome.diagnostics = findings t := by
  rw [verdict, if_neg (Nat.not_le.mpr hbelow), hclosed] at hresult
  by_cases hnone : findings t = []
  · simp only [if_pos hnone] at hresult
    rw [Outcome.diagnostics, hresult, hnone]
  · simp only [if_neg hnone] at hresult
    rw [Outcome.diagnostics, hresult]

theorem findings_of_closed (hclosed : openLiteral? t = none) :
    findings t = reports (actsFrom [] (sites t)) ++
      (pendingFrom [] (sites t)).reverse.map Site.leftOver := by
  rw [findings, acts_of_closed hclosed, reports_append, reports_unclosed]

theorem pairs_of_closed (hclosed : openLiteral? t = none) :
    pairs t = (actsFrom [] (sites t)).countP Act.isPair := by
  have hunclosed : ∀ openers : List Site,
      (openers.map Site.unclosed).countP Act.isPair = 0 := by
    intro openers
    rw [List.countP_map]
    exact List.countP_eq_zero.mpr fun _ _ => Bool.false_ne_true
  rw [pairs, acts_of_closed hclosed, List.countP_append, hunclosed, Nat.add_zero]

/-- Openers left over are of a kind of their own. -/
theorem countKind_leftOver (openers : List Site) :
    countKind "unclosed".toList (openers.map Site.leftOver) = openers.length ∧
      countKind "mismatched".toList (openers.map Site.leftOver) = 0 ∧
      countKind "extra-paren".toList (openers.map Site.leftOver) = 0 := by
  simp only [countKind, List.countP_map]
  refine ⟨List.countP_eq_length.mpr ?_, List.countP_eq_zero.mpr ?_, List.countP_eq_zero.mpr ?_⟩
  · exact fun _ _ => rfl
  · exact fun _ _ => Bool.false_ne_true
  · exact fun _ _ => Bool.false_ne_true

theorem countKind_findings (hclosed : openLiteral? t = none) :
    countKind "unclosed".toList (findings t) = (pendingFrom [] (sites t)).length ∧
      countKind "mismatched".toList (findings t) =
        countKind "mismatched".toList (reports (actsFrom [] (sites t))) ∧
      countKind "extra-paren".toList (findings t) =
        countKind "extra-paren".toList (reports (actsFrom [] (sites t))) := by
  have hmet : countKind "unclosed".toList (reports (actsFrom [] (sites t))) = 0 := by
    apply List.countP_eq_zero.mpr
    intro d hd hkind
    obtain ⟨s, -, pending, hd⟩ := exists_mem_of_mem_reports hd
    exact (Site.accounts_of_mem_reports hd).2 (of_decide_eq_true hkind)
  obtain ⟨hunclosed, hmismatched, hextra⟩ :=
    countKind_leftOver (pendingFrom [] (sites t)).reverse
  rw [findings_of_closed hclosed, countKind_append, countKind_append, countKind_append,
    hunclosed, hmismatched, hextra, hmet, List.length_reverse]
  exact ⟨Nat.zero_add _, rfl, rfl⟩

/-- Where every literal is closed and the limit is not reached, each opener outside the literals
is counted in a pair or reported as mismatched or unclosed, and each closer is counted in a pair
or reported as mismatched or extra. The pairs counted are those that are logged. -/
theorem check_accounts_for_delimiters (t : Text) (config : Config)
    (hfits : t.size + 2 ≤ maxOffset) (hclosed : openLiteral? t = none)
    (hbelow : (findings t).length < config.limit.toNat) :
    ∃ session p, Session.ofConfig config = .ok session ∧ scan t session = .ok p ∧
      check t config = .ok (p.outcome t) ∧
      p.scan.pairs = (p.outcome t).log.countP Event.isClosed ∧
      (sites t).countP (fun s => isOpener s.char) =
        p.scan.pairs + countKind "mismatched".toList (p.outcome t).diagnostics +
          countKind "unclosed".toList (p.outcome t).diagnostics ∧
      (sites t).countP (fun s => isCloser s.char) =
        p.scan.pairs + countKind "mismatched".toList (p.outcome t).diagnostics +
          countKind "extra-paren".toList (p.outcome t).diagnostics := by
  have hlimit : config.limit ≠ 0 := by
    intro hzero
    rw [hzero] at hbelow
    exact absurd hbelow (Nat.not_lt_zero _)
  have hstart := start_holds hlimit
  obtain ⟨p, hscan, -, hresult⟩ := scan_verdict hfits hstart
  obtain ⟨hlog, hpairs⟩ := scan_trace hfits hstart hscan
  have hcheck := check_of_scan hfits hlimit hscan
  have hdiagnostics := diagnostics_of_below hclosed hbelow hresult
  obtain ⟨hunclosed, hmismatched, hextra⟩ := countKind_findings hclosed
  obtain ⟨hopeners, hclosers⟩ := conserve [] (sites t)
  refine ⟨_, p, Session.ofConfig_eq hlimit, hscan, hcheck, ?_, ?_, ?_⟩
  · rw [hlog, countP_isClosed_trace hbelow, hpairs hbelow]
  · rw [hdiagnostics, hpairs hbelow, hunclosed, hmismatched, pairs_of_closed hclosed]
    exact hopeners
  · rw [hdiagnostics, hpairs hbelow, hmismatched, hextra, pairs_of_closed hclosed]
    exact hclosers

/-- A mismatch, a pair, an extra closer and an unclosed opener make three delimiters of each
direction. -/
theorem check_accounts_for_six :
    let t : Text := "(][])\x7b\n".toList
    t.size + 2 ≤ maxOffset ∧ openLiteral? t = none ∧ (findings t).length < (9 : UInt64).toNat ∧
      ∃ session p, Session.ofConfig ⟨['f'], 9⟩ = .ok session ∧ scan t session = .ok p ∧
        check t ⟨['f'], 9⟩ = .ok (p.outcome t) ∧
        p.scan.pairs = (p.outcome t).log.countP Event.isClosed ∧
        3 = p.scan.pairs + countKind "mismatched".toList (p.outcome t).diagnostics +
          countKind "unclosed".toList (p.outcome t).diagnostics ∧
        3 = p.scan.pairs + countKind "mismatched".toList (p.outcome t).diagnostics +
          countKind "extra-paren".toList (p.outcome t).diagnostics := by
  intro t
  have hfits : t.size + 2 ≤ maxOffset := by decide
  have hclosed : openLiteral? t = none := rfl
  have hbelow : (findings t).length < (9 : UInt64).toNat := by decide
  exact ⟨hfits, hclosed, hbelow, check_accounts_for_delimiters t ⟨['f'], 9⟩ hfits hclosed hbelow⟩

end ParseReport.Check
