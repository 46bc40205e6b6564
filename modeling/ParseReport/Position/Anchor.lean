import ParseReport.Position.Location

/-!
# Anchors

An anchor ties a span to the text it was taken from, or, once detached, to the
location that it had there. Detaching keeps the span and the location.
-/

namespace ParseReport

/-- A place in a parsed text. -/
inductive Anchor
  | attached (text : Text) (span : Span)
  | detached (span : Span) (location : Location)
  deriving DecidableEq, Repr

namespace Anchor

/-- The anchor of a single offset. -/
def point (text : Text) (offset : UInt32) : Anchor := .attached text (.point offset)

def span : Anchor → Span
  | .attached _ span => span
  | .detached span _ => span

def isDetached : Anchor → Bool
  | .attached .. => false
  | .detached .. => true

/-- Where the anchor points. -/
def locate : Anchor → Except Fault Location
  | .attached text span => Location.ofSpan text span
  | .detached _ location => .ok location

/-- The same place without the text. -/
def detach (anchor : Anchor) : Except Fault Anchor :=
  anchor.locate.map (.detached anchor.span ·)

end Anchor

end ParseReport
