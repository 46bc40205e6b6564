import ParseReport.Proofs.Locate

/-!
# What an excerpt marks

The excerpt of a location is a whole line, from which only a terminator was cut off. A stretch of
the text that lies within one line and does not end with a terminator is therefore found in the
excerpt at its column, and the marker is as wide as the stretch is long.
-/

namespace ParseReport

namespace Text

theorem dropFinal_append {t : Text} {c : Char} (hlast : t.getLast? ≠ some c) (more : Text) :
    (t ++ more).dropFinal c = t ++ more.dropFinal c := by
  cases more with
  | nil => rw [List.append_nil, dropFinal, if_neg hlast]; exact (List.append_nil t).symm
  | cons d more =>
      have hmore : d :: more ≠ [] := List.cons_ne_nil d more
      rw [dropFinal, dropFinal, List.getLast?_append_of_ne_nil t hmore,
        List.dropLast_append_of_ne_nil hmore]
      split <;> rfl

theorem dropFinal_append_of_not_mem {t : Text} {c : Char} (h : c ∉ t) (more : Text) :
    (t ++ more).dropFinal c = t ++ more.dropFinal c :=
  dropFinal_append (fun hlast => h (List.mem_of_getLast? hlast)) more

theorem firstLine_append {t : Text} (h : '\n' ∉ t) (more : Text) :
    (t ++ more).firstLine = t ++ more.firstLine := by
  induction t with
  | nil => rfl
  | cons c t ih =>
      obtain ⟨hc, ht⟩ := not_or.mp (mt List.mem_cons.mpr h)
      rw [List.cons_append, firstLine, if_neg (Ne.symm hc), ih ht, List.cons_append]

end Text

namespace Location

theorem markerWidth_eq {marked length column : Nat} (hmarked : 1 ≤ marked)
    (hfits : column - 1 + marked ≤ length) (hmax : marked ≤ maxOffset) :
    markerWidth marked length column = marked := by
  unfold markerWidth
  omega

end Location

end ParseReport
