/-
# Rendition.Tree.Span -- where a node stands in its source

A location counts characters, rows and columns from zero in 64 bits.  The span
from zero to zero is the unknown span: nodes made by hand carry it.
-/
namespace Rendition

set_option autoImplicit false

/-- A place in the source, counted from zero. -/
structure Location where
  offset : UInt64
  row : UInt64
  column : UInt64
  deriving DecidableEq, Inhabited

namespace Location

def origin : Location := ⟨0, 0, 0⟩

/-- Locations in order of offset, then row, then column. -/
def compare (a b : Location) : Ordering :=
  (Ord.compare a.offset b.offset).then
    ((Ord.compare a.row b.row).then (Ord.compare a.column b.column))

end Location

/-- The stretch of source from `start` to `stop`. -/
structure Span where
  start : Location
  stop : Location
  deriving DecidableEq, Inhabited

namespace Span

/-- The span of a node that was not read from a source. -/
def unknown : Span := ⟨.origin, .origin⟩

/-- The columns from `start` to `stop` of one row. -/
def onRow (row start stop : UInt64) : Span := ⟨⟨0, row, start⟩, ⟨0, row, stop⟩⟩

def isUnknown (span : Span) : Bool := span == unknown

/-- The span as a hint: none for the unknown span. -/
def known? (span : Span) : Option Span := if span.isUnknown then none else some span

/-- Row and column of the start, counted from one. -/
def text (span : Span) : String :=
  (span.start.row + 1).toNat.repr ++ ":" ++ (span.start.column + 1).toNat.repr

end Span

end Rendition
