import ParseReport.Position.LineScan
import ParseReport.Proofs.LineStarts

/-!
# The two lookups agree

An offset is moved down to the end of a front part of the text. From there both lookups count
the `\n` of that part and the characters after the last of them, one by searching the table and
slicing, the other in passing.
-/

namespace ParseReport

namespace Text

theorem lastLine_append (a b : Text) :
    (a ++ b).lastLine = if '\n' ∈ b then b.lastLine else a.lastLine ++ b := by
  induction b using List.reverseRecOn with
  | nil => simp
  | append_singleton b c ih =>
      rw [← List.append_assoc, lastLine_append_singleton, lastLine_append_singleton, ih]
      by_cases hc : c = '\n'
      · simp [hc]
      · by_cases hb : '\n' ∈ b <;> simp [hc, hb, Ne.symm hc]

theorem lastLine_eq_self {t : Text} (h : '\n' ∉ t) : t.lastLine = t := by
  have := lastLine_append [] t
  rwa [if_neg h, List.nil_append] at this

theorem lastLine_newline_cons (t : Text) : lastLine ('\n' :: t) = t.lastLine := by
  have h := lastLine_append ['\n'] t
  by_cases ht : '\n' ∈ t
  · rwa [if_pos ht] at h
  · rw [lastLine_eq_self ht]
    rwa [if_neg ht] at h

theorem lastLine_cons_of_mem (c : Char) {t : Text} (ht : '\n' ∈ t) :
    lastLine (c :: t) = t.lastLine := by
  have h := lastLine_append [c] t
  rwa [if_pos ht] at h

theorem length_lastLine_le (t : Text) : t.lastLine.length ≤ t.length := by
  have h := congrArg List.length t.closedLines_append_lastLine
  rw [List.length_append] at h
  omega

/-- A scan that stops at the end of a front part has counted its `\n`, and its characters after
the last of them. -/
theorem scanLines_append {a b : Text} {fuel ends since : Nat} (hfit : a.size ≤ fuel)
    (hstop : ∀ c b', b = c :: b' → fuel < a.size + c.utf8Size) :
    (a ++ b).scanLines fuel (ends, since) =
      (ends + a.count '\n', if '\n' ∈ a then a.lastLine.length else since + a.length) := by
  induction a generalizing fuel ends since with
  | nil =>
      cases b with
      | nil => simp [scanLines]
      | cons c b =>
          have := hstop c b rfl
          have hwide : ¬c.utf8Size ≤ fuel := by simpa using this
          simp [scanLines, hwide]
  | cons c a ih =>
      simp only [size_cons] at hfit hstop
      have hc : c.utf8Size ≤ fuel := by omega
      have hrest : ∀ d b', b = d :: b' → fuel - c.utf8Size < size a + d.utf8Size := by
        intro d b' hb
        have := hstop d b' hb
        omega
      rw [List.cons_append, scanLines, if_pos hc]
      by_cases hn : c = '\n'
      · subst hn
        rw [if_pos rfl, ih (by omega) hrest, List.count_cons_self, lastLine_newline_cons,
          if_pos List.mem_cons_self]
        refine Prod.ext (by simp only; omega) ?_
        split
        · rfl
        · rw [lastLine_eq_self ‹_›, Nat.zero_add]
      · rw [if_neg hn, ih (by omega) hrest, List.count_cons_of_ne hn]
        by_cases ha : '\n' ∈ a
        · rw [if_pos ha, if_pos (List.mem_cons_of_mem c ha), lastLine_cons_of_mem c ha]
        · have hca : '\n' ∉ c :: a := by simp [ha, Ne.symm hn]
          rw [if_neg ha, if_neg hca, List.length_cons]
          refine Prod.ext rfl ?_
          simp only
          omega

end Text

/-- The position after a front part of a text, worked out from that part alone. -/
def positionAfter (front : Text) : Except Fault Position := do
  return ⟨← ordinal (front.count '\n'), ← ordinal front.lastLine.length⟩

theorem ordinal_eq_successor {count : Nat} (h : count ≤ maxOffset) :
    ordinal count = successor count := by
  rw [ordinal, if_pos h]

theorem ordinal_maxOffset : ordinal maxOffset = .error .overflow := rfl

theorem Text.count_newline_le_size (t : Text) : t.count '\n' ≤ t.size :=
  Nat.le_trans List.count_le_length t.length_le_size

theorem Text.position_eq {t front back : Text} {offset : Nat} (hsize : t.size ≤ maxOffset)
    (ht : t = front ++ back) (hfit : front.size ≤ offset)
    (hstop : ∀ c back', back = c :: back' → offset < front.size + c.utf8Size) :
    t.position offset = positionAfter front := by
  subst ht
  rw [size_append] at hsize
  have hcount := front.count_newline_le_size
  have hsince : (if '\n' ∈ front then front.lastLine.length else 0 + front.length) =
      front.lastLine.length := by
    split
    · rfl
    · rw [lastLine_eq_self ‹_›, Nat.zero_add]
  rw [position, scanLines_append hfit hstop, hsince, Nat.zero_add, positionAfter,
    ordinal_eq_successor (by omega)]

namespace LineTable

/-- The table finds the position after the front part that the offset is moved down to. -/
theorem position_eq {t front back : Text} {offset : Nat} (hsize : t.size ≤ maxOffset)
    (ht : t = front ++ back) (hfloor : t.floor offset = front.size) :
    (ofText t).position t offset = positionAfter front := by
  subst ht
  have hfront : front.size ≤ maxOffset := by
    rw [Text.size_append] at hsize
    omega
  have hcount := Nat.le_trans front.count_newline_le_size hfront
  have hslice : (front ++ back).slice? front.closedLines.size front.size = some front.lastLine := by
    apply Text.slice?_eq_some_iff.mpr
    refine ⟨front.closedLines, back, by simp, rfl, ?_⟩
    rw [← Text.size_append, Text.closedLines_append_lastLine]
  rw [position, hfloor, Nat.min_eq_left hfront, lineAt_size hsize, positionAfter]
  rcases Nat.lt_or_eq_of_le hcount with hlt | heq
  · rw [ordinal_of_lt hlt]
    have hstart := lineStart?_count hsize
    have hmin := Nat.min_eq_left front.size_closedLines_le
    simp [bind, Except.bind, hstart, hmin, hslice]
  · rw [heq, ordinal_maxOffset]
    rfl

end LineTable

/-- A position is missing only at the end of a text of the largest size. -/
theorem positionAfter_eq_error {front : Text} {fault : Fault} (hsize : front.size ≤ maxOffset)
    (h : positionAfter front = .error fault) :
    fault = .overflow ∧ front.size = maxOffset := by
  have hlines := front.count_newline_le_size
  have hcolumn := Nat.le_trans front.length_lastLine_le front.length_le_size
  rw [positionAfter] at h
  cases hline : ordinal (front.count '\n') with
  | error fault' =>
      obtain ⟨rfl, heq⟩ := ordinal_eq_error_iff.mp hline
      rw [hline] at h
      cases h
      exact ⟨rfl, by omega⟩
  | ok line =>
      cases hcol : ordinal front.lastLine.length with
      | error fault' =>
          obtain ⟨rfl, heq⟩ := ordinal_eq_error_iff.mp hcol
          rw [hline, hcol] at h
          cases h
          exact ⟨rfl, by omega⟩
      | ok column =>
          rw [hline, hcol] at h
          cases h

/-- The lookup by table and the lookup by scan answer alike for every 32-bit offset. They answer
with a position, unless the text has the largest size. -/
theorem position_ofText_eq_scan (t : Text) (offset : UInt32) (hsize : t.size ≤ maxOffset) :
    (LineTable.ofText t).position t offset.toNat = t.position offset.toNat ∧
      ∀ fault, t.position offset.toNat = .error fault →
        fault = .overflow ∧ t.size = maxOffset := by
  obtain ⟨front, back, ht, hfloor, hfit, hstop⟩ := t.exists_floor offset.toNat
  have hscan := Text.position_eq hsize ht hfit hstop
  have htotal : t.size = front.size + back.size := by rw [ht, Text.size_append]
  constructor
  · rw [LineTable.position_eq hsize ht hfloor, hscan]
  · intro fault hfault
    rw [hscan] at hfault
    obtain ⟨hkind, hfull⟩ := positionAfter_eq_error (by omega) hfault
    exact ⟨hkind, by omega⟩

/-- Offset 7 lies inside the second character of the second line. -/
theorem position_inside_character :
    Text.size ['a', 'β', '\n', 'γ', 'δ'] ≤ maxOffset ∧
      (LineTable.ofText ['a', 'β', '\n', 'γ', 'δ']).position ['a', 'β', '\n', 'γ', 'δ'] 7 =
        .ok ⟨2, 2⟩ :=
  ⟨by decide, (position_ofText_eq_scan ['a', 'β', '\n', 'γ', 'δ'] 7 (by decide)).1⟩

end ParseReport
