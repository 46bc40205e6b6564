import ParseReport.Display.Terminal
import ParseReport.Proofs.Anchors
import ParseReport.Proofs.Blame
import ParseReport.Proofs.Composition
import ParseReport.Proofs.PlainReports

/-!
# Diagnostics without their texts

Detaching works out the location that an anchor has in its text and keeps that in place of the
text. Whoever looks at a diagnostic, a failure or an error sees no difference, but that it can be
kept longer than the text, and nothing is left to be detached a second time.
-/

namespace ParseReport

theorem Anchor.detach_of_isDetached {anchor : Anchor} (h : anchor.isDetached = true) :
    anchor.detach = .ok anchor := by
  cases anchor with
  | attached t span => cases h
  | detached span l => rfl

namespace Diagnostic
variable {d d' : Diagnostic}

/-- All that can be seen of a diagnostic, but for whether it holds on to its text. -/
structure LooksLike (d' d : Diagnostic) : Prop where
  severity : d'.severity = d.severity
  problem : d'.problem = d.problem
  kind : d'.kind = d.kind
  message : d'.message = d.message
  hint : d'.hint = d.hint
  span : d'.anchor.map Anchor.span = d.anchor.map Anchor.span
  location : d'.location = d.location

/-- The diagnostic holds on to no text. -/
def IsDetached (d : Diagnostic) : Prop := ∀ anchor ∈ d.anchor, anchor.isDetached = true

theorem LooksLike.entry (h : d'.LooksLike d) : d'.entry = d.entry := by
  rw [Diagnostic.entry, h.severity, h.kind, h.message, h.hint, h.location, Diagnostic.entry]

theorem detach_of_some {anchor : Anchor} (hanchor : d.anchor = some anchor) :
    d.detach = anchor.detach.map fun detached => { d with anchor := some detached } := by
  rw [detach, hanchor, Option.mapM_some]
  cases anchor.detach <;> rfl

theorem detach_of_none (hanchor : d.anchor = none) : d.detach = .ok d := by
  obtain ⟨⟨problem, advice, anchor⟩, severity⟩ := d
  obtain rfl : anchor = none := hanchor
  rfl

theorem looksLike_of_detach (h : d.detach = .ok d') : d'.LooksLike d ∧ d'.IsDetached := by
  cases hanchor : d.anchor with
  | none =>
      rw [detach_of_none hanchor] at h
      cases h
      refine ⟨⟨rfl, rfl, rfl, rfl, rfl, rfl, rfl⟩, ?_⟩
      intro anchor hmem
      rw [hanchor] at hmem
      cases hmem
  | some anchor =>
      rw [detach_of_some hanchor] at h
      obtain ⟨_, hdetach, rfl⟩ := map_eq_ok_iff.mp h
      obtain ⟨l, hl, rfl⟩ := Anchor.detach_eq_ok_iff.mp hdetach
      refine ⟨⟨rfl, rfl, rfl, rfl, rfl, ?_, ?_⟩, ?_⟩
      · rw [hanchor]
        rfl
      · rw [location_of_some hanchor, hl]
        rfl
      · rintro _ ⟨⟩
        rfl

theorem detach_of_isDetached (h : d.IsDetached) : d.detach = .ok d := by
  cases hanchor : d.anchor with
  | none => exact detach_of_none hanchor
  | some anchor =>
      rw [detach_of_some hanchor, Anchor.detach_of_isDetached (h anchor hanchor)]
      obtain ⟨⟨problem, advice, anchor⟩, severity⟩ := d
      obtain rfl : anchor = some _ := hanchor
      rfl

theorem Fits.exists_detach (h : d.Fits) : ∃ d', d.detach = .ok d' := by
  cases hanchor : d.anchor with
  | none => exact ⟨d, detach_of_none hanchor⟩
  | some anchor =>
      obtain ⟨l, hl, -⟩ := (h anchor hanchor).exists_locate
      rw [detach_of_some hanchor, Anchor.detach_eq_ok_iff.mpr ⟨l, hl, rfl⟩]
      exact ⟨_, rfl⟩

end Diagnostic

namespace Failure
variable {f g : Failure}

/-- All that can be seen of a failure, but for whether it holds on to a text. -/
structure LooksLike (g f : Failure) : Prop where
  filename : g.filename = f.filename
  cause : g.cause = f.cause
  isEscalated : g.isEscalated = f.isEscalated
  count : ∀ severity, g.count severity = f.count severity
  messages : g.messages = f.messages
  diagnostics : List.Forall₂ Diagnostic.LooksLike g.diagnostics f.diagnostics
  render : g.render = f.render
  summary : g.summary = f.summary
  emit : ∀ colored, g.emit colored = f.emit colored
  emitSummary : ∀ colored, g.emitSummary colored = f.emitSummary colored

section Alike
variable (hdiagnostics : List.Forall₂ Diagnostic.LooksLike g.diagnostics f.diagnostics)
include hdiagnostics

theorem map_eq_of_alike {α : Type} {view : Diagnostic → α}
    (hview : ∀ d' d : Diagnostic, d'.LooksLike d → view d' = view d) :
    g.diagnostics.map view = f.diagnostics.map view := by
  rw [← List.forall₂_eq_eq_eq, List.forall₂_map_left_iff, List.forall₂_map_right_iff]
  exact hdiagnostics.imp hview

theorem mapM_entry_eq_of_alike :
    g.diagnostics.mapM Diagnostic.entry = f.diagnostics.mapM Diagnostic.entry := by
  have hentries := map_eq_of_alike hdiagnostics fun _ _ h => h.entry
  have hmapM : ∀ row : List Diagnostic,
      row.mapM Diagnostic.entry = (row.map Diagnostic.entry).mapM id := fun row => by
    rw [List.mapM_map]
    rfl
  rw [hmapM, hentries, ← hmapM]

theorem count_eq_of_alike (severity : Severity) : g.count severity = f.count severity := by
  have hseverities := map_eq_of_alike hdiagnostics fun _ _ h => h.severity
  have hcount : ∀ row : List Diagnostic, (row.filter (·.severity = severity)).length =
      ((row.map Diagnostic.severity).filter (· = severity)).length := fun row => by
    rw [List.filter_map, List.length_map]
    rfl
  rw [count, count, hcount, hcount, hseverities]

/-- A failure shows nothing else of its diagnostics than what can be seen of each. -/
theorem looksLike_of_alike (hfilename : g.filename = f.filename) (hcause : g.cause = f.cause) :
    g.LooksLike f := by
  have hentries := mapM_entry_eq_of_alike hdiagnostics
  have hcount := count_eq_of_alike hdiagnostics
  have hcounts : g.counts = f.counts :=
    List.map_congr_left fun severity _ => congrArg (Prod.mk severity) (hcount severity)
  have hsummary : g.summary = f.summary := by
    unfold summary
    rw [hcounts, hfilename, hcause]
  have hemitSummary : ∀ colored, g.emitSummary colored = f.emitSummary colored := by
    intro colored
    rw [emitSummary, emitSummary, hsummary, summarySeverity, summarySeverity, hcause, hcount]
  refine ⟨hfilename, hcause, ?_, hcount, ?_, hdiagnostics, ?_, hsummary, ?_, hemitSummary⟩
  · rw [isEscalated, isEscalated, hcause]
  · exact map_eq_of_alike hdiagnostics fun _ _ h => h.message
  · rw [render, render, Diagnostic.renderAll, Diagnostic.renderAll, hentries, hfilename]
  · intro colored
    rw [emit, emit, Diagnostic.emitAll, Diagnostic.emitAll, hentries, hfilename, hemitSummary]

end Alike

/-- Every anchor in the failure belongs to a text that fits. -/
def Fits (f : Failure) : Prop := ∀ d ∈ f.diagnostics, d.Fits

/-- The failure holds on to no text. -/
def IsDetached (f : Failure) : Prop := ∀ d ∈ f.diagnostics, d.IsDetached

theorem detach_eq_ok_iff :
    f.detach = .ok g ↔ g.filename = f.filename ∧ g.cause = f.cause ∧
      List.Forall₂ (fun d d' => d.detach = .ok d') f.diagnostics g.diagnostics := by
  rw [← mapM_eq_ok_iff, detach, bind_eq_ok_iff]
  constructor
  · rintro ⟨diagnostics, hdiagnostics, ⟨⟩⟩
    exact ⟨rfl, rfl, hdiagnostics⟩
  · obtain ⟨filename, diagnostics, cause⟩ := g
    rintro ⟨⟨⟩, ⟨⟩, hdiagnostics⟩
    exact ⟨diagnostics, hdiagnostics, rfl⟩

theorem looksLike_of_detach (h : f.detach = .ok g) : g.LooksLike f ∧ g.IsDetached := by
  obtain ⟨hfilename, hcause, hdiagnostics⟩ := detach_eq_ok_iff.mp h
  constructor
  · have halike := hdiagnostics.imp fun _ _ hd => (Diagnostic.looksLike_of_detach hd).1
    exact looksLike_of_alike halike.flip hfilename hcause
  · intro d' hd'
    obtain ⟨d, -, hd⟩ := exists_of_mem_mapM (mapM_eq_ok_iff.mpr hdiagnostics) hd'
    exact (Diagnostic.looksLike_of_detach hd).2

theorem detach_of_isDetached (h : f.IsDetached) : f.detach = .ok f := by
  refine detach_eq_ok_iff.mpr ⟨rfl, rfl, List.forall₂_same.mpr ?_⟩
  exact fun d hd => Diagnostic.detach_of_isDetached (h d hd)

theorem Fits.exists_detach (h : f.Fits) : ∃ g, f.detach = .ok g := by
  obtain ⟨diagnostics, hdiagnostics⟩ := exists_mapM_eq_ok fun d hd => (h d hd).exists_detach
  exact ⟨⟨f.filename, diagnostics, f.cause⟩,
    detach_eq_ok_iff.mpr ⟨rfl, rfl, mapM_eq_ok_iff.mp hdiagnostics⟩⟩

end Failure

namespace Check

namespace Error
variable {error error' : Error}

/-- All that can be seen of an error, but for whether it holds on to a text. -/
inductive LooksLike : Error → Error → Prop
  | unreadable (path reason : Text) : LooksLike (.unreadable path reason) (.unreadable path reason)
  | tooLarge (error : SpanError) : LooksLike (.tooLarge error) (.tooLarge error)
  | reported {g f : Failure} : g.LooksLike f → LooksLike (.reported g) (.reported f)

/-- Every anchor in the error belongs to a text that fits. -/
def Fits (error : Error) : Prop := ∀ f, error = .reported f → f.Fits

/-- The error holds on to no text. -/
def IsDetached (error : Error) : Prop := ∀ f, error = .reported f → f.IsDetached

theorem LooksLike.message (h : error'.LooksLike error) : error'.message = error.message := by
  cases h with
  | unreadable path reason => rfl
  | tooLarge error => rfl
  | reported hfailure => exact hfailure.render

theorem looksLike_of_detach (h : error.detach = .ok error') :
    error'.LooksLike error ∧ error'.IsDetached := by
  cases error with
  | unreadable path reason =>
      cases h
      exact ⟨.unreadable path reason, nofun⟩
  | tooLarge error =>
      cases h
      exact ⟨.tooLarge error, nofun⟩
  | reported f =>
      obtain ⟨g, hdetach, rfl⟩ := map_eq_ok_iff.mp h
      obtain ⟨hlooks, hdetached⟩ := Failure.looksLike_of_detach hdetach
      refine ⟨.reported hlooks, ?_⟩
      rintro _ ⟨⟩
      exact hdetached

theorem detach_of_isDetached (h : error.IsDetached) : error.detach = .ok error := by
  cases error with
  | unreadable path reason => rfl
  | tooLarge error => rfl
  | reported f => rw [detach, Failure.detach_of_isDetached (h f rfl), Except.map]

theorem Fits.exists_detach (h : error.Fits) : ∃ error', error.detach = .ok error' := by
  cases error with
  | unreadable path reason => exact ⟨_, rfl⟩
  | tooLarge error => exact ⟨_, rfl⟩
  | reported f =>
      obtain ⟨g, hg⟩ := (h f rfl).exists_detach
      exact ⟨.reported g, by rw [detach, hg, Except.map]⟩

end Error

section Errors
variable {t : Text} {config : Config}

/-- A failure of a check points into the checked text and nowhere else. -/
theorem anchor_of_verdict {failure : Failure} (hlimit : config.limit ≠ 0)
    (hverdict : verdict t config = .error (.reported failure)) :
    ∀ d ∈ failure.diagnostics, ∃ span, d.anchor = some (.attached t span) := by
  rcases diagnostics_of_verdict hlimit hverdict with ⟨hdiagnostics, -⟩ | ⟨quote, hdiagnostics⟩
  · intro d hd
    rw [hdiagnostics] at hd
    obtain ⟨s, hs, haccounts⟩ := exists_accounts_of_mem_findings (List.mem_of_mem_take hd)
    obtain rfl := text_of_mem_sites hs
    exact ⟨_, haccounts.anchor⟩
  · intro d hd
    rw [hdiagnostics] at hd
    obtain rfl := List.mem_singleton.mp hd
    exact ⟨_, rfl⟩

theorem fits_of_verdict {failure : Failure} (hfits : t.size + 2 ≤ maxOffset)
    (hlimit : config.limit ≠ 0) (hverdict : verdict t config = .error (.reported failure)) :
    failure.Fits := by
  intro d hd anchor hanchor
  obtain ⟨span, hspan⟩ := anchor_of_verdict hlimit hverdict d hd
  rw [hspan] at hanchor
  obtain rfl := Option.some.inj hanchor
  exact ⟨t, hfits, .attached span⟩

/-- A text for which there are no offsets is turned away, and no other text leaves an error that
does not fit. -/
theorem error_fits_of_check (hsize : t.size + 2 ≤ maxOffset ∨ maxOffset < t.size)
    {outcome : Outcome} (hcheck : check t config = .ok outcome) {error : Error}
    (herror : outcome.result = .error error) : error.Fits := by
  rintro f rfl
  rcases hsize with hfits | hlarge
  · have hverdict := result_eq_verdict hfits hcheck
    exact fits_of_verdict hfits (limit_ne_zero_of_check hfits hcheck) (hverdict.symm.trans herror)
  · have hrange : ∃ e, Span.ofRange 0 t.size = .error e := by
      simp [Span.ofRange, hlarge]
    obtain ⟨e, he⟩ := hrange
    rw [check, he] at hcheck
    obtain rfl := Except.ok.inj hcheck
    cases herror

end Errors

end Check

/-- A failure whose anchors belong to texts that fit can be detached. What comes of it holds on to
no text, looks like the failure in all there is to see, and detaching changes it no further. The
same is true of every error of a check of a text that fits, and of one that is too large to be
checked. Between the two are the sizes 2^32 - 2 and 2^32 - 1, of which nothing is said: a check takes
such a text, but to work out a location in it can overflow. -/
theorem detaching_is_invisible :
    (∀ f : Failure, f.Fits →
      ∃ g, f.detach = .ok g ∧ g.LooksLike f ∧ g.IsDetached ∧ g.detach = .ok g) ∧
      ∀ (t : Text) (config : Config) (outcome : Check.Outcome) (error : Check.Error),
        t.size + 2 ≤ maxOffset ∨ maxOffset < t.size → check t config = .ok outcome →
          outcome.result = .error error →
            ∃ error', error.detach = .ok error' ∧ error'.LooksLike error ∧
              error'.message = error.message ∧ error'.IsDetached ∧
              error'.detach = .ok error' := by
  constructor
  · intro f hfits
    obtain ⟨g, hg⟩ := hfits.exists_detach
    obtain ⟨hlooks, hdetached⟩ := Failure.looksLike_of_detach hg
    exact ⟨g, hg, hlooks, hdetached, Failure.detach_of_isDetached hdetached⟩
  · intro t config outcome error hsize hcheck herror
    obtain ⟨error', hdetach⟩ := (Check.error_fits_of_check hsize hcheck herror).exists_detach
    obtain ⟨hlooks, hdetached⟩ := Check.Error.looksLike_of_detach hdetach
    exact ⟨error', hdetach, hlooks, hlooks.message, hdetached,
      Check.Error.detach_of_isDetached hdetached⟩

/-- An inverted span, a span inside a character that was detached before, and the failure of a
check. -/
theorem detaching_three_anchors :
    let t : Text := "(é]\r\n".toList
    let gone : Anchor := .detached ⟨2, 3⟩ ⟨1, 2, "(é]".toList, 1⟩
    let f : Failure := ⟨['f'],
      [⟨.about (.extraCloser ']') (.attached t ⟨3, 1⟩), .regret⟩,
        ⟨.about (.adHoc "odd".toList) gone, .worry⟩], .limitExceeded 2⟩
    f.Fits ∧ t.size + 2 ≤ maxOffset ∧ ∃ g outcome error error', f.detach = .ok g ∧
      g.LooksLike f ∧ g.IsDetached ∧ check t ⟨['f'], 9⟩ = .ok outcome ∧
      outcome.result = .error error ∧ error.detach = .ok error' ∧
      error'.message = error.message := by
  intro t gone f
  have hsize : t.size + 2 ≤ maxOffset := by decide
  have hgone : gone.Fits := ⟨t, hsize, .detach (.attached ⟨2, 3⟩) (by decide +kernel)⟩
  have hfits : f.Fits := by
    refine List.forall_mem_cons.mpr ⟨?_, List.forall_mem_singleton.mpr ?_⟩
    · rintro _ ⟨⟩
      exact ⟨t, hsize, .attached ⟨3, 1⟩⟩
    · rintro _ ⟨⟩
      exact hgone
  obtain ⟨p, hp, -, hresult⟩ := Check.check_eq_outcome hsize ⟨['f'], 9⟩ (by decide)
  obtain ⟨error, herror⟩ : ∃ error, Check.verdict t ⟨['f'], 9⟩ = .error error := ⟨_, rfl⟩
  rw [herror] at hresult
  obtain ⟨hfailure, hcheck⟩ := detaching_is_invisible
  obtain ⟨g, hg, hlooks, hdetached, -⟩ := hfailure f hfits
  obtain ⟨error', hdetach, -, hmessage, -⟩ :=
    hcheck t ⟨['f'], 9⟩ _ error (.inl hsize) hp hresult
  exact ⟨hfits, hsize, g, _, error, error', hg, hlooks, hdetached, hp, hresult, hdetach, hmessage⟩

end ParseReport
