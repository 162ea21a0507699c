/-!
# Places in a document

`Span` is a half-open range of bytes, the coordinate of tree nodes and of
suppressed ranges.  `Position` is a line and a column, both counted from one,
the coordinate that people read.
-/

namespace LintDirectives

/-- The bytes from `start` up to but not including `stop`. -/
structure Span where
  start : Nat
  stop : Nat
deriving DecidableEq, Repr

/-- A line and a column, both counted from one. -/
structure Position where
  line : Nat
  column : Nat
deriving DecidableEq, Repr

namespace Span

/-- The span at `offset` that holds nothing. -/
def empty (offset : Nat) : Span :=
  ⟨offset, offset⟩

/-- The number of bytes, unless the span ends before it starts. -/
def length? (span : Span) : Option Nat :=
  if span.start ≤ span.stop then some (span.stop - span.start) else none

/-- The span starts where it ends. -/
def isEmpty (span : Span) : Bool :=
  span.start == span.stop

/-- The byte at `offset` belongs to the span. -/
def contains (span : Span) (offset : Nat) : Bool :=
  span.start ≤ offset && offset < span.stop

@[simp] theorem contains_eq_true {span : Span} {offset : Nat} :
    span.contains offset = true ↔ span.start ≤ offset ∧ offset < span.stop := by
  simp [contains]

@[simp] theorem contains_empty (offset other : Nat) : (empty offset).contains other = false := by
  refine Bool.eq_false_iff.2 fun h => ?_
  simp only [contains_eq_true, empty] at h
  omega

end Span

end LintDirectives
