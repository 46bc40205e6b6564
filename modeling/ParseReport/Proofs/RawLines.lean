import ParseReport.Proofs.Anchors

/-!
# Raw lines

The raw line on which a cut lies is what both sides of the cut have of it, up to but without its
`\n`. A text split at each `\n` gives its raw lines in order (`getElem?_splitOn_count`). A lookup
shows a raw line less one `\r` at its end, so it shows at most one character less.
-/

namespace ParseReport

namespace Text

/-- One `c` is dropped where the text ends in `c`, and nothing otherwise. -/
theorem dropFinal_cases (t : Text) (c : Char) :
    (t.getLast? = some c ∧ t = t.dropFinal c ++ [c]) ∨
      (t.getLast? ≠ some c ∧ t.dropFinal c = t) := by
  by_cases hlast : t.getLast? = some c
  · refine .inl ⟨hlast, ?_⟩
    rw [dropFinal, if_pos hlast]
    exact (List.dropLast_append_getLast? c hlast).symm
  · refine .inr ⟨hlast, ?_⟩
    rw [dropFinal, if_neg hlast]

theorem length_le_length_dropFinal_add_one (t : Text) (c : Char) :
    t.length ≤ (t.dropFinal c).length + 1 := by
  rcases t.dropFinal_cases c with ⟨-, ht⟩ | ⟨-, ht⟩
  · have := congrArg List.length ht
    rw [List.length_append, List.length_singleton] at this
    omega
  · rw [ht]
    exact Nat.le_succ _

theorem eq_dropFinal_append {t : Text} {c : Char} (h : t.length = (t.dropFinal c).length + 1) :
    t = t.dropFinal c ++ [c] := by
  rcases t.dropFinal_cases c with ⟨-, ht⟩ | ⟨-, ht⟩
  · exact ht
  · rw [ht] at h
    omega

/-- A first line is empty but for its `\n` only if the text ends there or begins with `\n`. -/
theorem cases_of_dropFinal_firstLine {t : Text} (h : t.firstLine.dropFinal '\n' = []) :
    t = [] ∨ t.head? = some '\n' := by
  cases t with
  | nil => exact .inl rfl
  | cons c t =>
      refine .inr ?_
      by_contra hc
      have hne : c ≠ '\n' := fun hc' => hc (congrArg some hc')
      rw [dropFinal_firstLine_cons hne] at h
      cases h

theorem closedLines_cases (t : Text) :
    t.closedLines = [] ∨ ∃ before, t.closedLines = before ++ ['\n'] := by
  induction t using List.reverseRecOn with
  | nil => exact .inl rfl
  | append_singleton t c ih =>
      rw [closedLines_append_singleton]
      by_cases hc : c = '\n'
      · rw [if_pos hc]
        exact .inr ⟨t, hc ▸ rfl⟩
      · rw [if_neg hc]
        exact ih

theorem count_newline_closedLines (t : Text) : t.closedLines.count '\n' = t.count '\n' := by
  have h := congrArg (List.count '\n') t.closedLines_append_lastLine
  rwa [List.count_append, List.count_eq_zero.mpr t.newline_not_mem_lastLine, Nat.add_zero] at h

theorem lastLine_closedLines (t : Text) : t.closedLines.lastLine = [] := by
  have h := lastLine_append t.closedLines t.lastLine
  rw [if_neg t.newline_not_mem_lastLine, closedLines_append_lastLine] at h
  exact List.self_eq_append_left.mp h

/-- The line on which a cut lies, without its `\n`. -/
def rawLine (front back : Text) : Text := front.lastLine ++ back.firstLine.dropFinal '\n'

theorem withoutTerminator_cut (front back : Text) :
    (front.lastLine ++ back.firstLine).withoutTerminator = (rawLine front back).dropFinal '\r' := by
  rw [withoutTerminator, dropFinal_append_of_not_mem front.newline_not_mem_lastLine, rawLine]

theorem newline_not_mem_rawLine (front back : Text) : '\n' ∉ rawLine front back := by
  rw [rawLine, List.mem_append, not_or]
  exact ⟨front.newline_not_mem_lastLine, back.newline_not_mem_dropFinal_firstLine⟩

theorem length_rawLine_le (front back : Text) :
    (rawLine front back).length ≤ (front ++ back).length := by
  have hfirst := (dropFinal_prefix_self back.firstLine '\n').length_le
  have hback := congrArg List.length back.firstLine_append_laterLines
  have hfront := front.length_lastLine_le
  rw [List.length_append] at hback
  rw [rawLine, List.length_append, List.length_append]
  omega

/-- Each `\n` brings a raw line. -/
theorem length_splitOn (t : Text) : (t.splitOn '\n').length = t.count '\n' + 1 := by
  induction t with
  | nil => rfl
  | cons c t ih =>
      rw [List.splitOn_cons_eq_if_modifyHead]
      by_cases hc : c = '\n'
      · rw [hc, if_pos (beq_self_eq_true _), List.length_cons, ih, List.count_cons_self]
      · rw [if_neg (by simpa using hc), List.length_modifyHead, ih, List.count_cons_of_ne hc]

theorem head?_splitOn (t : Text) :
    (t.splitOn '\n').head? = some (t.firstLine.dropFinal '\n') := by
  induction t with
  | nil => rfl
  | cons c t ih =>
      rw [List.splitOn_cons_eq_if_modifyHead]
      by_cases hc : c = '\n'
      · rw [hc, if_pos (beq_self_eq_true _)]
        rfl
      · rw [if_neg (by simpa using hc), List.head?_modifyHead, ih, Option.map_some,
          dropFinal_firstLine_cons hc]

/-- The raw lines in front of that of a cut are counted by the `\n` in front of the cut. -/
theorem getElem?_splitOn_count (front back : Text) :
    ((front ++ back).splitOn '\n')[front.count '\n']? = some (rawLine front back) := by
  have hhead : ((front.lastLine ++ back).splitOn '\n')[0]? = some (rawLine front back) := by
    rw [← List.head?_eq_getElem?, head?_splitOn, firstLine_append front.newline_not_mem_lastLine,
      dropFinal_append_of_not_mem front.newline_not_mem_lastLine, rawLine]
  have hsplit := front.closedLines_append_lastLine_append back
  have hcount := front.count_newline_closedLines
  rcases front.closedLines_cases with hnone | ⟨before, hbefore⟩
  · rw [← hsplit, ← hcount, hnone]
    exact hhead
  · have hlength : (before.splitOn '\n').length = front.count '\n' := by
      rw [length_splitOn, ← hcount, hbefore, List.count_append]
      rfl
    rw [← hsplit, hbefore, List.append_assoc, List.singleton_append,
      List.splitOn_append_cons_self, ← hlength, List.getElem?_append_right (Nat.le_refl _),
      Nat.sub_self]
    exact hhead

end Text

end ParseReport
