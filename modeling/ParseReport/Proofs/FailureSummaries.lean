import ParseReport.Proofs.Detached
import ParseReport.Proofs.SessionHistory

/-!
# Summaries of failures

The failure of a session has one of three shapes: a panic alone, as many worries and regrets as the
limit says, or the worries and regrets that were held when the session ended. The colour of a
summary is worked out from the cause of the failure and one count, and what the summary lists from
the counts; that both suit what the failure holds follows from its shape.
-/

namespace ParseReport
open Display

namespace Failure
variable {f g : Failure} {severity : Severity}

/-- The severities of the diagnostics, in order. -/
def severities (f : Failure) : List Severity := f.diagnostics.map Diagnostic.severity

/-- The shapes that the failure of a session may have. -/
inductive Shaped (f : Failure) : Prop
  | raised : f.severities = [.panic] → f.cause = .panic → Shaped f
  | escalated : f.severities ≠ [] → .panic ∉ f.severities →
    f.cause = .limitExceeded f.severities.length → Shaped f
  | concluded : f.severities ≠ [] → .panic ∉ f.severities → f.cause = .concerns → Shaped f

section Counts

theorem count_eq (f : Failure) (severity : Severity) :
    f.count severity = f.severities.count severity := by
  rw [count, severities, List.count, List.countP_map, List.countP_eq_length_filter]
  rfl

theorem count_pos_iff : 0 < f.count severity ↔ severity ∈ f.severities := by
  rw [count_eq, List.count_pos_iff]

theorem add_counts (f : Failure) :
    f.count .panic + f.count .regret + f.count .worry = f.severities.length := by
  simp only [count_eq]
  induction f.severities with
  | nil => rfl
  | cons severity rest ih => cases severity <;> simp <;> omega

/-- Without a panic the most serious severity is a regret if there is one, and else a worry. -/
theorem regret_or_worry_spec (hnone : .panic ∉ f.severities) (hsome : f.severities ≠ []) :
    (if 0 < f.count .regret then Severity.regret else .worry) ∈ f.severities ∧
      ∀ severity ∈ f.severities,
        severity.rank ≤ (if 0 < f.count .regret then Severity.regret else .worry).rank := by
  simp only [count_pos_iff]
  by_cases hregret : .regret ∈ f.severities
  · rw [if_pos hregret]
    refine ⟨hregret, ?_⟩
    intro severity hmem
    cases severity with
    | worry => decide
    | regret => decide
    | panic => exact absurd hmem hnone
  · rw [if_neg hregret]
    have hworry : ∀ severity ∈ f.severities, severity = .worry := by
      intro severity hmem
      cases severity with
      | worry => rfl
      | regret => exact absurd hmem hregret
      | panic => exact absurd hmem hnone
    obtain ⟨severity, hmem⟩ := List.exists_mem_of_ne_nil _ hsome
    refine ⟨hworry severity hmem ▸ hmem, ?_⟩
    intro other hother
    rw [hworry other hother]

/-- The counts that are not zero, the most serious severity first. -/
def listed (f : Failure) : List (Severity × Nat) := f.counts.filter (0 < ·.2)

theorem mem_listed_iff {count : Nat} :
    (severity, count) ∈ f.listed ↔ count = f.count severity ∧ 0 < count := by
  cases severity <;> simp [listed, counts]

theorem pairwise_listed (f : Failure) : f.listed.Pairwise fun a b => b.1.rank < a.1.rank := by
  apply List.Pairwise.filter
  simp [counts, Severity.rank]

theorem listed_ne_nil (h : f.severities ≠ []) : f.listed ≠ [] := by
  obtain ⟨severity, hmem⟩ := List.exists_mem_of_ne_nil _ h
  exact List.ne_nil_of_mem (mem_listed_iff.mpr ⟨rfl, count_pos_iff.mpr hmem⟩)

end Counts

end Failure

namespace Severity

/-- One worry or sorry is counted by a text that ends in `y`, one panic by a text that ends in `c`,
and any other number by a text that ends in `s`. -/
theorem getLast?_counted (severity : Severity) (count : Nat) :
    (severity.counted count).getLast? =
      some (if count = 1 then if severity = .panic then 'c' else 'y' else 's') := by
  have hlabel : severity.label.getLast? = some (if severity = .panic then 'c' else 'y') := by
    cases severity <;> rfl
  have hplural : severity.plural.getLast? = some 's' := by
    cases severity <;> rfl
  rw [counted, List.getLast?_append]
  by_cases hone : count = 1
  · rw [if_pos hone, if_pos hone, hlabel, Option.some_or]
  · rw [if_neg hone, if_neg hone, hplural, Option.some_or]

/-- Nothing but a single panic is counted as `1 panic`. -/
theorem eq_panic_of_counted {severity : Severity} {count : Nat}
    (h : severity.counted count = "1 panic".toList) : severity = .panic := by
  have hlast : some _ = some 'c' := (severity.getLast?_counted count).symm.trans
    (congrArg List.getLast? h)
  by_contra hother
  rw [if_neg hother] at hlast
  split at hlast <;> exact absurd hlast (by decide)

end Severity

namespace Failure
variable {f g : Failure}

/-- What a summary and its colour tell of the diagnostics of a failure. -/
structure SumsUp (f : Failure) : Prop where
  total : f.count .panic + f.count .regret + f.count .worry = f.diagnostics.length
  /-- It lists the counts that are not zero, the most serious severity first. -/
  summary : ∃ listed : List (Severity × Nat),
    listed ≠ [] ∧ (listed.Pairwise fun a b => b.1.rank < a.1.rank) ∧
    (∀ severity count, (severity, count) ∈ listed ↔ count = f.count severity ∧ 0 < count) ∧
    (listed.map (fun entry => entry.1.counted entry.2) = ["1 panic".toList] ↔ f.cause = .panic) ∧
    f.summary = "aborting due to ".toList ++
      List.intercalate ", ".toList (listed.map fun entry => entry.1.counted entry.2) ++
      " in ".toList ++ f.filename ++
      if f.isEscalated then
        " (stopped at the limit of ".toList ++
          Text.decimal (f.count .panic + f.count .regret + f.count .worry) ++ ")".toList
      else []
  limit : ∀ limit, f.cause = .limitExceeded limit →
    limit = f.count .panic + f.count .regret + f.count .worry
  /-- It stands in the colour of the most serious diagnostic. -/
  color : ∃ d ∈ f.diagnostics, (∀ d' ∈ f.diagnostics, d'.severity.rank ≤ d.severity.rank) ∧
    f.emitSummary true = (Paint.severity d.severity).code ++ f.summary ++ reset ++ ['\n']

section Shapes

theorem Shaped.severities_ne_nil (h : f.Shaped) : f.severities ≠ [] := by
  cases h with
  | raised hall => simp [hall]
  | escalated hsome => exact hsome
  | concluded hsome => exact hsome

/-- Only a panic that was raised is a panic. -/
theorem Shaped.panic_mem_iff (h : f.Shaped) : .panic ∈ f.severities ↔ f.cause = .panic := by
  cases h with
  | raised hall hcause => simp [hall, hcause]
  | escalated _ hnone hcause => simp [hnone, hcause]
  | concluded _ hnone hcause => simp [hnone, hcause]

theorem Shaped.limit_eq (h : f.Shaped) {limit : Nat} (hcause : f.cause = .limitExceeded limit) :
    limit = f.severities.length := by
  cases h with
  | raised _ hpanic => cases hcause.symm.trans hpanic
  | escalated _ _ hlimit => exact Cause.limitExceeded.inj (hcause.symm.trans hlimit)
  | concluded _ _ hconcerns => cases hcause.symm.trans hconcerns

theorem Shaped.listed_eq_iff (h : f.Shaped) :
    f.listed.map (fun entry => entry.1.counted entry.2) = ["1 panic".toList] ↔
      f.cause = .panic := by
  constructor
  · intro hone
    obtain ⟨⟨severity, count⟩, hlisted, hcounted⟩ := List.map_eq_singleton_iff.mp hone
    obtain rfl := Severity.eq_panic_of_counted hcounted
    have hmem : (Severity.panic, count) ∈ f.listed := by
      rw [hlisted]
      exact List.mem_singleton_self _
    obtain ⟨rfl, hpositive⟩ := mem_listed_iff.mp hmem
    exact h.panic_mem_iff.mp (count_pos_iff.mp hpositive)
  · intro hcause
    cases h with
    | raised hall _ =>
        have hlisted : f.listed = [(.panic, 1)] := by
          simp only [listed, counts, count_eq, hall]
          rfl
        rw [hlisted]
        rfl
    | escalated _ _ hlimit => cases hcause.symm.trans hlimit
    | concluded _ _ hconcerns => cases hcause.symm.trans hconcerns

theorem Shaped.summary_eq (h : f.Shaped) :
    f.summary = "aborting due to ".toList ++
      List.intercalate ", ".toList (f.listed.map fun entry => entry.1.counted entry.2) ++
      " in ".toList ++ f.filename ++
      if f.isEscalated then
        " (stopped at the limit of ".toList ++ Text.decimal f.severities.length ++ ")".toList
      else [] := by
  unfold Failure.summary isEscalated
  cases hcause : f.cause with
  | limitExceeded limit =>
      rw [h.limit_eq hcause]
      simp only [listed, if_true]
  | panic => simp only [listed, Bool.false_eq_true, if_false]
  | concerns => simp only [listed, Bool.false_eq_true, if_false]

/-- The severity in whose colour the summary stands is there, and none is more serious. -/
theorem Shaped.summarySeverity_spec (h : f.Shaped) :
    f.summarySeverity ∈ f.severities ∧
      ∀ severity ∈ f.severities, severity.rank ≤ f.summarySeverity.rank := by
  rw [summarySeverity]
  cases h with
  | raised hall hcause =>
      rw [hcause, hall]
      refine ⟨List.mem_singleton_self _, ?_⟩
      intro severity hmem
      rw [List.mem_singleton.mp hmem]
  | escalated hsome hnone hcause =>
      rw [hcause]
      exact regret_or_worry_spec hnone hsome
  | concluded hsome hnone hcause =>
      rw [hcause]
      exact regret_or_worry_spec hnone hsome

theorem emitSummary_true (f : Failure) :
    f.emitSummary true =
      (Paint.severity f.summarySeverity).code ++ f.summary ++ reset ++ ['\n'] := by
  simp [emitSummary, Line.writeLn, Line.write, Segment.write, painted]

theorem Shaped.sumsUp (h : f.Shaped) : f.SumsUp := by
  have htotal := f.add_counts
  constructor
  · rw [htotal, severities, List.length_map]
  · refine ⟨f.listed, listed_ne_nil h.severities_ne_nil, f.pairwise_listed,
      fun severity count => mem_listed_iff, h.listed_eq_iff, ?_⟩
    rw [htotal]
    exact h.summary_eq
  · intro limit hcause
    rw [htotal]
    exact h.limit_eq hcause
  · obtain ⟨hmem, hgreatest⟩ := h.summarySeverity_spec
    obtain ⟨d, hd, hseverity⟩ := List.mem_map.mp hmem
    refine ⟨d, hd, ?_, ?_⟩
    · intro d' hd'
      rw [hseverity]
      exact hgreatest _ (List.mem_map_of_mem hd')
    · rw [hseverity, emitSummary_true]

/-- The shape of a failure can be seen. -/
theorem Shaped.of_looksLike (h : f.Shaped) (hlooks : g.LooksLike f) : g.Shaped := by
  have hseverities : g.severities = f.severities :=
    map_eq_of_alike hlooks.diagnostics fun _ _ hd => hd.severity
  cases h with
  | raised hall hcause => exact .raised (hseverities.trans hall) (hlooks.cause.trans hcause)
  | escalated hsome hnone hcause =>
      rw [← hseverities] at hsome hnone hcause
      exact .escalated hsome hnone (hlooks.cause.trans hcause)
  | concluded hsome hnone hcause =>
      rw [← hseverities] at hsome hnone
      exact .concluded hsome hnone (hlooks.cause.trans hcause)

end Shapes

end Failure

namespace Session
variable {config : Config} {done : List Exchange} {s : Session} {call : Call} {failure : Failure}

theorem severity_ne_of_mem_reports {d : Diagnostic} (hd : d ∈ reports done) :
    d.severity ≠ .panic := by
  obtain ⟨⟨phase, call, reply⟩, -, hreport⟩ := List.mem_filterMap.mp hd
  obtain ⟨-, hcall⟩ := Option.ite_none_right_eq_some.mp hreport
  cases call <;> cases hcall <;> simp

theorem Agrees.explains (h : Agrees config done s) (hmem : (call, failure) ∈ failures done) :
    Explains config done call failure := by
  by_cases hphase : s.phase = .active
  · rw [(h.active hphase).2.2] at hmem
    cases hmem
  · exact (h.inactive hphase).2.2 call failure hmem

theorem Explains.shaped (h : Explains config done call failure) : failure.Shaped := by
  have hheld : failure.diagnostics = reports done → .panic ∉ failure.severities := by
    intro hdiagnostics hmem
    obtain ⟨d, hd, hseverity⟩ := List.mem_map.mp hmem
    exact severity_ne_of_mem_reports (hdiagnostics ▸ hd) hseverity
  have hlimit : ∀ d, failure.diagnostics = reports done → (reports done).getLast? = some d →
      failure.cause = .limitExceeded (lastLimit config done).toNat →
      (reports done).length = (lastLimit config done).toNat → failure.Shaped := by
    intro d hdiagnostics hlast hcause hlength
    refine .escalated ?_ (hheld hdiagnostics) ?_
    · rw [Failure.severities, hdiagnostics, ne_eq, List.map_eq_nil_iff]
      intro hnone
      rw [hnone] at hlast
      cases hlast
    · rw [hcause, Failure.severities, List.length_map, hdiagnostics, hlength]
  obtain ⟨-, hcase⟩ := h
  cases call with
  | worry concern => exact hlimit _ hcase.1 hcase.2.1 hcase.2.2.1 hcase.2.2.2
  | regret concern => exact hlimit _ hcase.1 hcase.2.1 hcase.2.2.1 hcase.2.2.2
  | raise concern =>
      obtain ⟨hdiagnostics, hcause⟩ := hcase
      refine .raised ?_ hcause
      rw [Failure.severities, hdiagnostics]
      rfl
  | expressConcerns =>
      obtain ⟨hdiagnostics, hsome, -, hcause⟩ := hcase
      refine .concluded ?_ (hheld hdiagnostics) hcause
      rw [Failure.severities, hdiagnostics, ne_eq, List.map_eq_nil_iff]
      exact List.length_pos_iff.mp hsome
  | setFilename filename => cases hcase
  | setLimit limit => cases hcase
  | concerns => cases hcase

/-- Whatever failure the calls on a session bring, its counts add up to what it holds, its summary
lists those that are not zero and names the limit that was reached, if one was, and the summary
stands in the colour of the most serious diagnostic. So it is when the failure is detached, which
succeeds if its anchors belong to texts that fit. -/
theorem failures_sum_up (config : Config) (hlimit : config.limit ≠ 0) (calls : List Call) :
    ∃ s, ofConfig config = .ok s ∧
      ∀ call failure, (call, failure) ∈ failures (s.transcript calls) →
        failure.SumsUp ∧ (∀ detached, failure.detach = .ok detached → detached.SumsUp) ∧
          (failure.Fits → ∃ detached, failure.detach = .ok detached) := by
  obtain ⟨s, hs, -, hstart⟩ := agrees_ofConfig hlimit
  refine ⟨s, hs, ?_⟩
  intro call failure hmem
  have hend : Agrees config (s.transcript calls) (s.after calls) := by
    simpa using hstart.run calls
  have hshaped := (hend.explains hmem).shaped
  refine ⟨hshaped.sumsUp, ?_, Failure.Fits.exists_detach⟩
  intro detached hdetach
  exact (hshaped.of_looksLike (Failure.looksLike_of_detach hdetach).1).sumsUp

/-- A worry without an anchor and a regret at a closer reach the limit. -/
theorem failures_sum_up_at_limit :
    (2 : UInt64) ≠ 0 ∧ ∃ s, ofConfig ⟨['f'], 2⟩ = .ok s ∧
      let t : Text := "x)".toList
      let odd : Concern := ⟨.adHoc "odd".toList, none, none⟩
      let closer : Concern := .about (.extraCloser ')') (.attached t ⟨1, 1⟩)
      let failure : Failure := ⟨['f'], [⟨odd, .worry⟩, ⟨closer, .regret⟩], .limitExceeded 2⟩
      failures (s.transcript [.worry odd, .regret closer, .expressConcerns]) =
          [(.regret closer, failure)] ∧
        failure.SumsUp ∧ failure.Fits ∧
        failure.summary =
          "aborting due to 1 sorry, 1 worry in f (stopped at the limit of 2)".toList ∧
        ∃ detached, failure.detach = .ok detached ∧ detached.SumsUp := by
  refine ⟨by decide, ?_⟩
  let t : Text := "x)".toList
  let odd : Concern := ⟨.adHoc "odd".toList, none, none⟩
  let closer : Concern := .about (.extraCloser ')') (.attached t ⟨1, 1⟩)
  let failure : Failure := ⟨['f'], [⟨odd, .worry⟩, ⟨closer, .regret⟩], .limitExceeded 2⟩
  have hfits : failure.Fits := by
    refine List.forall_mem_cons.mpr ⟨?_, List.forall_mem_singleton.mpr ?_⟩
    · intro anchor hnone
      cases hnone
    · rintro _ ⟨⟩
      exact ⟨t, by decide, .attached ⟨1, 1⟩⟩
  obtain ⟨s, hs, hsum⟩ := failures_sum_up ⟨['f'], 2⟩ (by decide)
    [.worry odd, .regret closer, .expressConcerns]
  cases hs
  obtain ⟨hsums, hdetached, hdetach⟩ := hsum (.regret closer) failure List.mem_cons_self
  obtain ⟨detached, hd⟩ := hdetach hfits
  exact ⟨_, rfl, rfl, hsums, hfits, by decide, detached, hd, hdetached detached hd⟩

end Session

end ParseReport
