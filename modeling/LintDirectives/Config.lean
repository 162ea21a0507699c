import LintDirectives.Text.Blank

/-!
# Configuration

The three keywords that introduce a directive, and what a bare enable directive
(one without rule ids) closes.  A keyword that is blank stands for its default.
-/

namespace LintDirectives

/-- What an enable directive without rule ids closes. -/
inductive BareEnable where
  /-- The ranges that the latest still open disable directive opened. -/
  | trailingRun
  /-- Every open range. -/
  | all
deriving DecidableEq, Repr

/-- The keywords of the directives and the policy for bare enables. -/
structure Config where
  enabling : String := "textlint-enable"
  disabling : String := "textlint-disable"
  expecting : String := "textlint-expect-error"
  bareEnable : BareEnable := .trailingRun
deriving DecidableEq, Repr

namespace Config

/-- The configuration that nobody wrote. -/
def default : Config := {}

/-- `keyword`, or `fallback` when `keyword` is blank. -/
def keywordOr (keyword fallback : String) : String :=
  if Text.allBlank keyword.toList then fallback else keyword

/-- The keyword that enables reporting. -/
def enablingKeyword (config : Config) : String :=
  keywordOr config.enabling default.enabling

/-- The keyword that disables reporting. -/
def disablingKeyword (config : Config) : String :=
  keywordOr config.disabling default.disabling

/-- The keyword that declares an expected error. -/
def expectingKeyword (config : Config) : String :=
  keywordOr config.expecting default.expecting

/-- A keyword in effect is never blank. -/
theorem keywordOr_not_blank {keyword fallback : String}
    (h : Text.allBlank fallback.toList = false) :
    Text.allBlank (keywordOr keyword fallback).toList = false := by
  unfold keywordOr
  split
  · exact h
  · next hk => simpa using hk

end Config

end LintDirectives
