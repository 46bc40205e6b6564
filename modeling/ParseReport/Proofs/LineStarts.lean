import ParseReport.Position.LineTable
import Mathlib.Data.List.DropRight

/-!
# Line starts of a text

The table of a text lists 0 and the offsets directly after each `\n`. When the text is cut in
two, the starts up to the cut are those of the front part, one for each of its `\n` and one for
the beginning. The search for the line of the cut stops right after them.
-/

namespace ParseReport

namespace Text

/-- The part up to and with the last `\n`. -/
def closedLines (t : Text) : Text := t.rdropWhile (· ≠ '\n')

/-- The part after the last `\n`. -/
def lastLine (t : Text) : Text := t.rtakeWhile (· ≠ '\n')

@[simp] theorem closedLines_append_lastLine (t : Text) : t.closedLines ++ t.lastLine = t :=
  List.rdropWhile_append_rtakeWhile

/-- What comes after a cut follows the last line in front of it. -/
theorem closedLines_append_lastLine_append (t more : Text) :
    t.closedLines ++ (t.lastLine ++ more) = t ++ more := by
  rw [← List.append_assoc, closedLines_append_lastLine]

theorem size_closedLines_add_lastLine (t : Text) :
    t.closedLines.size + t.lastLine.size = t.size := by
  rw [← size_append, closedLines_append_lastLine]

theorem size_closedLines_le (t : Text) : t.closedLines.size ≤ t.size := by
  rw [← t.size_closedLines_add_lastLine]
  exact Nat.le_add_right _ _

theorem lastLine_append_singleton (t : Text) (c : Char) :
    (t ++ [c]).lastLine = if c = '\n' then [] else t.lastLine ++ [c] := by
  by_cases hc : c = '\n'
  · simp [lastLine, hc]
  · simp [lastLine, hc]

theorem closedLines_append_singleton (t : Text) (c : Char) :
    (t ++ [c]).closedLines = if c = '\n' then t ++ [c] else t.closedLines := by
  by_cases hc : c = '\n'
  · simp [closedLines, hc]
  · simp [closedLines, hc]

/-- The offsets directly after each `\n` of a text that begins at `offset`. -/
def newlineEnds (offset : Nat) : Text → List Nat
  | [] => []
  | c :: t =>
    if c = '\n' then (offset + c.utf8Size) :: newlineEnds (offset + c.utf8Size) t
    else newlineEnds (offset + c.utf8Size) t

theorem newlineEnds_append (offset : Nat) (a b : Text) :
    newlineEnds offset (a ++ b) = newlineEnds offset a ++ newlineEnds (offset + a.size) b := by
  induction a generalizing offset with
  | nil => simp [newlineEnds]
  | cons c a ih =>
      by_cases hc : c = '\n' <;> simp [newlineEnds, hc, ih, Nat.add_assoc]

theorem length_newlineEnds (offset : Nat) (t : Text) :
    (newlineEnds offset t).length = t.count '\n' := by
  induction t generalizing offset with
  | nil => rfl
  | cons c t ih => by_cases hc : c = '\n' <;> simp [newlineEnds, hc, ih]

theorem bounds_of_mem_newlineEnds {offset start : Nat} {t : Text}
    (h : start ∈ newlineEnds offset t) : offset < start ∧ start ≤ offset + t.size := by
  induction t generalizing offset with
  | nil => simp [newlineEnds] at h
  | cons c t ih =>
      have hpos := c.utf8Size_pos
      rw [newlineEnds] at h
      split at h
      · rcases List.mem_cons.mp h with rfl | h
        · simp only [size_cons]
          omega
        · have := ih h
          simp only [size_cons]
          omega
      · have := ih h
        simp only [size_cons]
        omega

/-- The offsets at which the lines of a text start. -/
def lineStarts (t : Text) : List Nat := 0 :: newlineEnds 0 t

@[simp] theorem length_lineStarts (t : Text) : t.lineStarts.length = t.count '\n' + 1 := by
  rw [lineStarts, List.length_cons, length_newlineEnds]

theorem lineStarts_append (a b : Text) :
    (a ++ b).lineStarts = a.lineStarts ++ newlineEnds a.size b := by
  simp [lineStarts, newlineEnds_append]

theorem le_size_of_mem_lineStarts {t : Text} {start : Nat} (h : start ∈ t.lineStarts) :
    start ≤ t.size := by
  rcases List.mem_cons.mp h with rfl | h
  · exact Nat.zero_le _
  · simpa using (bounds_of_mem_newlineEnds h).2

/-- The last line of a text starts after the part up to the last `\n`. -/
theorem getLast?_lineStarts (t : Text) : t.lineStarts.getLast? = some t.closedLines.size := by
  induction t using List.reverseRecOn with
  | nil => rfl
  | append_singleton t c ih =>
      rw [lineStarts_append, closedLines_append_singleton]
      by_cases hc : c = '\n'
      · simp [newlineEnds, hc]
      · simpa [newlineEnds, hc] using ih

theorem getElem?_lineStarts_count (t : Text) :
    t.lineStarts[t.count '\n']? = some t.closedLines.size := by
  have h := t.getLast?_lineStarts
  rwa [List.getLast?_eq_getElem?, length_lineStarts, Nat.add_sub_cancel] at h

end Text

namespace LineTable

theorem foldl_addStart (t : Text) (offset : Nat) (starts : Array Nat)
    (hsize : offset + t.size ≤ maxOffset) :
    t.foldl addStart (offset, starts) =
      (offset + t.size, starts ++ (t.newlineEnds offset).toArray) := by
  induction t generalizing offset starts with
  | nil => simp [Text.newlineEnds]
  | cons c t ih =>
      simp only [Text.size_cons] at hsize
      have hnext : min (offset + c.utf8Size) maxOffset = offset + c.utf8Size := by omega
      rw [List.foldl_cons, addStart, ih _ _ (by simpa [Nat.add_assoc] using hsize)]
      by_cases hc : c = '\n'
      · simp [Text.newlineEnds, hc, Nat.add_assoc] at hnext ⊢
        simp [hnext]
      · simp [Text.newlineEnds, hc, Nat.add_assoc]

/-- The table of a text that fits in 32-bit offsets holds its line starts. -/
theorem ofText_eq {t : Text} (hsize : t.size ≤ maxOffset) :
    ofText t = ⟨t.lineStarts.toArray⟩ := by
  rw [ofText, foldl_addStart t 0 #[0] (by simpa using hsize)]
  simp [Text.lineStarts]

/-- The search ends where the entries that are not above the offset end. -/
theorem firstAbove_eq {starts : Array Nat} {offset lo hi cut : Nat} (hsize : hi ≤ starts.size)
    (hlo : lo ≤ cut) (hhi : cut ≤ hi)
    (hbelow : ∀ i (h : i < starts.size), i < cut → starts[i] ≤ offset)
    (habove : ∀ i (h : i < starts.size), cut ≤ i → offset < starts[i]) :
    firstAbove starts offset lo hi hsize = cut := by
  fun_induction firstAbove starts offset lo hi hsize with
  | case1 lo hi hsize hlt mid hle ih =>
      refine ih ?_ hhi
      by_contra hcut
      have := habove mid (by omega) (by omega)
      omega
  | case2 lo hi hsize hlt mid hgt ih =>
      refine ih hlo ?_
      by_contra hcut
      have := hbelow mid (by omega) (by omega)
      omega
  | case3 => omega

theorem firstAbove_append {below above : List Nat} {offset : Nat}
    (hbelow : ∀ start ∈ below, start ≤ offset) (habove : ∀ start ∈ above, offset < start) :
    firstAbove (below ++ above).toArray offset 0 (below ++ above).toArray.size (Nat.le_refl _) =
      below.length := by
  apply firstAbove_eq
  · exact Nat.zero_le _
  · simp
  · intro i hi hcut
    have hget : (below ++ above).toArray[i] = below[i] := List.getElem_append_left hcut
    rw [hget]
    exact hbelow _ (List.getElem_mem hcut)
  · intro i hi hcut
    have hlt : i - below.length < above.length := by
      simp only [List.size_toArray, List.length_append] at hi
      omega
    have hget : (below ++ above).toArray[i] = above[i - below.length] :=
      List.getElem_append_right hcut
    rw [hget]
    exact habove _ (List.getElem_mem hlt)

/-- The line that holds the end of a front part is counted by the `\n` in that part. -/
theorem lineAt_size {a b : Text} (hsize : (a ++ b).size ≤ maxOffset) :
    (ofText (a ++ b)).lineAt a.size = ordinal (a.count '\n') := by
  rw [ofText_eq hsize, Text.lineStarts_append, lineAt, firstAbove_append]
  · simp
  · exact fun start hmem => Text.le_size_of_mem_lineStarts hmem
  · exact fun start hmem => (Text.bounds_of_mem_newlineEnds hmem).1

/-- That line starts after the last `\n` of the front part. -/
theorem lineStart?_count {a b : Text} (hsize : (a ++ b).size ≤ maxOffset) :
    (ofText (a ++ b)).lineStart? (a.count '\n' + 1) = some a.closedLines.size := by
  have hlt : a.count '\n' < a.lineStarts.length := by simp
  rw [ofText_eq hsize, Text.lineStarts_append, lineStart?, if_neg (Nat.succ_ne_zero _),
    Nat.add_sub_cancel, List.getElem?_toArray, List.getElem?_append_left hlt]
  exact a.getElem?_lineStarts_count

end LineTable

end ParseReport
