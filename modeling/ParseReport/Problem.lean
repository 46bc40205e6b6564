import ParseReport.Delimiter

/-!
# Problems

A problem holds what was captured where it was met. Its kind tag, its message
and its hint are worked out from that when a report asks for them. A parser adds
problems of its own as `custom` ones.
-/

namespace ParseReport

/-- What can be reported. -/
inductive Problem
  /-- Free text. -/
  | adHoc (message : Text)
  /-- Something was required but not there. -/
  | expected (what : Text) (found : Option Text)
  /-- The input ended within a construct. -/
  | earlyEnd (expecting : Option Text)
  /-- A closing delimiter with nothing left open. -/
  | extraCloser (closer : Char)
  /-- An opening delimiter still open at the end. -/
  | unclosed (opener : Char)
  /-- A closing delimiter that does not fit the innermost open one. -/
  | mismatched (opener found : Char)
  /-- A form of an older dialect. -/
  | obsolete (old replacement : Text)
  /-- A kind that a parser defines. -/
  | custom (tag message : Text) (hint : Option Text)
  deriving DecidableEq, Repr

namespace Problem

/-- The stable tag of the kind. -/
def kind : Problem → Text
  | adHoc _ => "adhoc".toList
  | expected .. => "expected".toList
  | earlyEnd _ => "early-end".toList
  | extraCloser _ => "extra-paren".toList
  | unclosed _ => "unclosed".toList
  | mismatched .. => "mismatched".toList
  | obsolete .. => "obsolete".toList
  | custom tag _ _ => tag

/-- Puts a text between backticks. -/
def ticked (t : Text) : Text := '\x60' :: t ++ ['\x60']

/-- The description of the problem. -/
def message : Problem → Text
  | adHoc message => message
  | expected what none => "expected ".toList ++ what
  | expected what (some found) => "expected ".toList ++ what ++ ", found ".toList ++ found
  | earlyEnd none => "unexpected end of input".toList
  | earlyEnd (some expecting) =>
    "unexpected end of input while looking for ".toList ++ expecting
  | extraCloser closer => "unexpected closing ".toList ++ ticked [closer]
  | unclosed opener => "unclosed ".toList ++ ticked [opener]
  | mismatched opener found =>
    "mismatched closing ".toList ++ ticked [found] ++
      match Delimiter.closing? opener with
      | some closer =>
        "; expected ".toList ++ ticked [closer] ++ " to close ".toList ++ ticked [opener]
      | none => []
  | obsolete old _ => "unsupported use of ".toList ++ ticked old
  | custom _ message _ => message

/-- Advice on a remedy, where the kind has any. -/
def hint : Problem → Option Text
  | adHoc _ | expected .. | earlyEnd none | mismatched .. => none
  | earlyEnd (some _) => some "the input may be truncated".toList
  | extraCloser closer =>
    (Delimiter.opening? closer).map fun opener =>
      "remove it, or add a matching ".toList ++ ticked [opener] ++ " before it".toList
  | unclosed opener =>
    (Delimiter.closing? opener).map fun closer => "add a closing ".toList ++ ticked [closer]
  | obsolete _ replacement => some ("use ".toList ++ ticked replacement ++ " instead".toList)
  | custom _ _ hint => hint

end Problem

end ParseReport
