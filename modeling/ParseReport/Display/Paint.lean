import ParseReport.Severity

/-!
# Painted text

A line of a report is laid out as segments, some of them painted. Colours are
decided when the line is written: each painted segment is put between the code
of its paint and the reset code, or is written as it is.
-/

namespace ParseReport.Display

/-- What a segment is painted as. -/
inductive Paint
  | severity (severity : Severity)
  | hint
  | bold
  | gutter
  deriving DecidableEq, Repr

/-- The terminal code with the given parameters. -/
def code (parameters : String) : Text := '\x1b' :: '[' :: parameters.toList ++ ['m']

/-- The code that ends every paint. -/
def reset : Text := code "0"

/-- The code that starts a paint. -/
def Paint.code : Paint → Text
  | severity .regret => Display.code "1;31"
  | severity .worry => Display.code "1;33"
  | severity .panic => Display.code "1;35"
  | hint => Display.code "1;32"
  | bold => Display.code "1"
  | gutter => Display.code "1;34"

structure Segment where
  paint : Option Paint
  text : Text
  deriving DecidableEq, Repr

/-- A segment in the colour of the surrounding text. -/
def plain (text : Text) : Segment := ⟨none, text⟩

/-- A segment with a paint. -/
def painted (paint : Paint) (text : Text) : Segment := ⟨some paint, text⟩

def Segment.write (colored : Bool) (s : Segment) : Text :=
  match s.paint with
  | some paint => if colored then paint.code ++ s.text ++ reset else s.text
  | none => s.text

/-- A line without its end. -/
abbrev Line := List Segment

def Line.write (colored : Bool) (line : Line) : Text := line.flatMap (Segment.write colored)

@[simp] theorem Segment.write_false (s : Segment) : s.write false = s.text := by
  unfold Segment.write
  split <;> rfl

/-- Without colours a line is the text of its segments. -/
theorem Line.write_false (line : Line) : line.write false = line.flatMap Segment.text :=
  congrArg (List.flatMap · line) (funext Segment.write_false)

end ParseReport.Display
