import ParseReport.Display.Entry
import ParseReport.Proofs.Excerpt
import ParseReport.Proofs.Results

/-!
# Anchors and their texts

An anchor is made for a text, or by detaching another anchor, so there is a text behind each of
them. The anchor is located where its span is located in that text, whether it still holds the text
or not, and if the text fits there is such a location. The excerpt there is free of line ends.
-/

namespace ParseReport

namespace Text

theorem dropFinal_prefix_self (t : Text) (c : Char) : t.dropFinal c <+: t := by
  unfold dropFinal
  split
  · exact List.dropLast_prefix t
  · exact List.prefix_refl t

theorem withoutTerminator_prefix_self (t : Text) : t.withoutTerminator <+: t :=
  (dropFinal_prefix_self _ _).trans (dropFinal_prefix_self _ _)

/-- A first line that begins with another character keeps it when the `\n` is cut off. -/
theorem dropFinal_firstLine_cons {c : Char} (hc : c ≠ '\n') (t : Text) :
    (firstLine (c :: t)).dropFinal '\n' = c :: t.firstLine.dropFinal '\n' := by
  have hmem : '\n' ∉ [c] := fun hmem => hc (List.mem_singleton.mp hmem).symm
  rw [firstLine, if_neg hc, ← List.singleton_append, dropFinal_append_of_not_mem hmem,
    List.singleton_append]

theorem newline_not_mem_dropFinal_firstLine (t : Text) : '\n' ∉ t.firstLine.dropFinal '\n' := by
  induction t with
  | nil => exact List.not_mem_nil
  | cons c t ih =>
      by_cases hc : c = '\n'
      · simp [firstLine, hc, dropFinal]
      · rw [dropFinal_firstLine_cons hc]
        exact List.not_mem_cons_of_ne_of_not_mem (Ne.symm hc) ih

theorem newline_not_mem_firstLine (t : Text) : '\n' ∉ t.firstLine.withoutTerminator := fun hmem =>
  t.newline_not_mem_dropFinal_firstLine ((dropFinal_prefix_self _ _).subset hmem)

theorem newline_not_mem_lastLine (t : Text) : '\n' ∉ t.lastLine := by
  intro hmem
  have := List.mem_rtakeWhile_imp hmem
  simp at this

end Text

/-- Every span of a text that fits has a location, and the excerpt there is one line. -/
theorem Location.exists_ofSpan {t : Text} (hfits : t.size + 2 ≤ maxOffset) (span : Span) :
    ∃ l, ofSpan t span = .ok l ∧ '\n' ∉ l.excerpt := by
  obtain ⟨front, back, ht, hfloor, -, -⟩ := t.exists_floor span.start.toNat
  refine ⟨_, ofSpan_eq hfits ht hfloor, ?_⟩
  change '\n' ∉ (front.lastLine ++ back.firstLine).withoutTerminator
  rw [← Text.firstLine_append front.newline_not_mem_lastLine]
  exact Text.newline_not_mem_firstLine _

namespace Anchor

/-- The anchor was made for `t`, or it is what detaching made of such an anchor. -/
inductive PointsInto (t : Text) : Anchor → Prop
  | attached (span : Span) : PointsInto t (.attached t span)
  | detach {anchor detached : Anchor} :
    PointsInto t anchor → anchor.detach = .ok detached → PointsInto t detached

/-- The text behind the anchor fits. -/
def Fits (anchor : Anchor) : Prop := ∃ t : Text, t.size + 2 ≤ maxOffset ∧ anchor.PointsInto t

/-- Detaching keeps the span, and the location of which it makes a part of the anchor. -/
theorem detach_eq_ok_iff {anchor detached : Anchor} :
    anchor.detach = .ok detached ↔
      ∃ l, anchor.locate = .ok l ∧ detached = .detached anchor.span l := by
  rw [detach, map_eq_ok_iff]
  exact exists_congr fun l => and_congr_right' eq_comm

theorem PointsInto.locate_eq {t : Text} {anchor : Anchor} (h : anchor.PointsInto t) :
    anchor.locate = Location.ofSpan t anchor.span := by
  induction h with
  | attached span => rfl
  | detach _ hdetach ih =>
      obtain ⟨l, hl, rfl⟩ := detach_eq_ok_iff.mp hdetach
      rw [ih] at hl
      exact hl.symm

theorem Fits.exists_locate {anchor : Anchor} (h : anchor.Fits) :
    ∃ l, anchor.locate = .ok l ∧ '\n' ∉ l.excerpt := by
  obtain ⟨t, hfits, hinto⟩ := h
  rw [hinto.locate_eq]
  exact Location.exists_ofSpan hfits anchor.span

end Anchor

namespace Diagnostic

/-- The anchor of the diagnostic, if it has one, belongs to a text that fits. -/
def Fits (d : Diagnostic) : Prop := ∀ anchor ∈ d.anchor, anchor.Fits

theorem location_of_none {d : Diagnostic} (h : d.anchor = none) : d.location = .ok none := by
  rw [location, h]
  rfl

theorem location_of_some {d : Diagnostic} {anchor : Anchor} (h : d.anchor = some anchor) :
    d.location = anchor.locate.map some := by
  rw [location, h, Option.mapM_some]
  cases anchor.locate <;> rfl

theorem Fits.exists_location {d : Diagnostic} (h : d.Fits) :
    ∃ place, d.location = .ok place ∧ (place = none ↔ d.anchor = none) ∧
      ∀ l ∈ place, '\n' ∉ l.excerpt := by
  cases hanchor : d.anchor with
  | none => exact ⟨none, location_of_none hanchor, iff_of_true rfl rfl, nofun⟩
  | some anchor =>
      obtain ⟨l, hl, hexcerpt⟩ := (h anchor hanchor).exists_locate
      refine ⟨some l, ?_, by simp, ?_⟩
      · rw [location_of_some hanchor, hl]
        rfl
      · rintro l' ⟨⟩
        exact hexcerpt

/-- The diagnostic has an entry, which shows what there is to it. -/
theorem entry_eq {d : Diagnostic} {place : Option Location} (h : d.location = .ok place) :
    d.entry = .ok ⟨d.severity, d.kind, d.message, d.hint, place⟩ := by
  rw [entry, h]
  rfl

theorem Fits.exists_entry {d : Diagnostic} (h : d.Fits) : ∃ e, d.entry = .ok e := by
  obtain ⟨place, hplace, -, -⟩ := h.exists_location
  exact ⟨_, entry_eq hplace⟩

end Diagnostic

end ParseReport
