import LintDirectives.Proofs.Directive.CommentBodies
import LintDirectives.Proofs.Directive.SeveralLines
import LintDirectives.Proofs.Inspection.Reading

/-!
# Comment nodes and HTML comments

A body may reach an inspection in two ways: as the value of a comment node, or
between the markers of an HTML node.  HTML is read line by line, a comment node as
a whole.

`htmlDirectives_eq` and `commentDirectives_eq` say what is read in the two ways,
`enterNode_eq` that nothing else about the two nodes matters, and
`commentDirectives_eq_htmlDirectives_iff` for which bodies the two ways agree.
-/

namespace LintDirectives.Inspection

open Directive Text

/-- A comment node and an HTML node that cover the same span and have the same body.  The HTML
node holds this comment and nothing else. -/
structure HaveBody (source : List Char) (body : String) (comment html : Node) : Prop where
  comment_kind : comment.kind = .comment
  comment_value : comment.value = some body
  html_kind : html.kind = .html
  html_text : html.markup? source =
    some (HtmlComment.opening ++ body.toList ++ HtmlComment.closing)
  unclosed : ¬ HtmlComment.closing <:+: body.toList
  span_eq : comment.span = html.span

section Body

variable {source : List Char} {body : String} {comment html : Node}

theorem HaveBody.commentDirectives_eq (h : HaveBody source body comment html) (config : Config) :
    commentDirectives config source comment = (parse? config body.toList).toList := by
  rw [commentDirectives, Node.commentText?, Node.valueText?, h.comment_value]
  rfl

/-- The comment is read line by line.  Blank lines are left out, but they are no directives
anyway. -/
theorem HaveBody.htmlDirectives_eq (h : HaveBody source body comment html) (config : Config) :
    htmlDirectives config source html = (lines body.toList).filterMap (parse? config) := by
  have hbodies : HtmlComment.bodies
      (HtmlComment.opening ++ body.toList ++ HtmlComment.closing) = [body.toList] := by
    have houtside : ¬ HtmlComment.opening <:+: [] := by decide
    have hparts : ∀ part ∈ [(body.toList, ([] : List Char))],
        ¬ HtmlComment.closing <:+: part.1 ∧ ¬ HtmlComment.opening <:+: part.2 := by
      intro part hpart
      obtain rfl := List.mem_singleton.1 hpart
      exact ⟨h.unclosed, houtside⟩
    simpa [HtmlComment.interleave] using HtmlComment.bodies_interleave houtside hparts
  have hblank (line : List Char) :
      (if (!allBlank line) = true then parse? config line else none) = parse? config line := by
    split
    · rfl
    · next hline =>
      exact (parse?_eq_none_iff.2 (not_holdsKeyword_of_allBlank (by simpa using hline))).symm
  rw [htmlDirectives, h.html_text]
  simp only [HtmlComment.commentLines, hbodies, List.flatMap_cons, List.flatMap_nil,
    List.append_nil, List.filterMap_filter, hblank]

/-- Where the same directives are read, entering either node does the same. -/
theorem HaveBody.enterNode_eq (h : HaveBody source body comment html) {config : Config}
    (hsame : commentDirectives config source comment = htmlDirectives config source html)
    (document : Document) (inspection : Inspection) :
    Walk.enterNode (handlers config document source) inspection comment =
      Walk.enterNode (handlers config document source) inspection html := by
  rw [enterNode_handlers, enterNode_handlers, occurrencesIn_of_comment h.comment_kind,
    occurrencesIn_of_html h.html_kind, hsame, h.span_eq]

/-- From a comment node and from HTML with the same body the same directives are taken, exactly if
the body holds no keyword, or if exactly one of its lines does and the body is read as the same
directive as that line.  This is so for every body of one line.  If no keyword can reach over the
end of a line, it is so for every body in which only blank lines follow a line that holds a
keyword. -/
theorem commentDirectives_eq_htmlDirectives_iff (h : HaveBody source body comment html)
    (config : Config) :
    (commentDirectives config source comment = htmlDirectives config source html ↔
        ¬ HoldsKeyword config body.toList ∨
          ∃ line, keywordLines config body.toList = [line] ∧
            parse? config body.toList = parse? config line) ∧
      ('\n' ∉ body.toList →
        commentDirectives config source comment = htmlDirectives config source html) ∧
      (KeywordsFitLines config →
        ((lines body.toList).Pairwise fun line later =>
          HoldsKeyword config line → allBlank later = true) →
        commentDirectives config source comment = htmlDirectives config source html) ∧
      (commentDirectives config source comment = htmlDirectives config source html →
        ∀ document inspection,
          Walk.enterNode (handlers config document source) inspection comment =
            Walk.enterNode (handlers config document source) inspection html) := by
  refine ⟨?_, ?_, ?_, h.enterNode_eq⟩
  · rw [h.commentDirectives_eq, h.htmlDirectives_eq, eq_comm]
    exact filterMap_parse?_eq_iff
  · intro hline
    rw [h.commentDirectives_eq, h.htmlDirectives_eq, filterMap_parse?_of_not_mem hline]
  · intro hfits hblank
    rw [h.commentDirectives_eq, h.htmlDirectives_eq,
      filterMap_parse?_of_pairwise hfits (isLines_iff.2 rfl) hblank]

end Body

/-- A directive between blank lines. -/
def paddedBody : String :=
  "\n textlint-disable ruleA -- why\r\n \t\n"

/-- HTML that holds the comment with `paddedBody`. -/
def paddedText : List Char :=
  HtmlComment.opening ++ paddedBody.toList ++ HtmlComment.closing

theorem paddedBody_read_alike :
    HaveBody paddedText paddedBody ⟨.comment, ⟨0, 43⟩, some paddedBody, []⟩
        ⟨.html, ⟨0, 43⟩, none, []⟩ ∧
      commentDirectives .default paddedText ⟨.comment, ⟨0, 43⟩, some paddedBody, []⟩ =
        [⟨.disable, ["ruleA"], some "why"⟩] ∧
      htmlDirectives .default paddedText ⟨.html, ⟨0, 43⟩, none, []⟩ =
        [⟨.disable, ["ruleA"], some "why"⟩] := by
  have hbody : HaveBody paddedText paddedBody ⟨.comment, ⟨0, 43⟩, some paddedBody, []⟩
      ⟨.html, ⟨0, 43⟩, none, []⟩ :=
    ⟨rfl, rfl, rfl, by decide +kernel, by decide +kernel, rfl⟩
  have hcomment : commentDirectives .default paddedText ⟨.comment, ⟨0, 43⟩, some paddedBody, []⟩ =
      [⟨.disable, ["ruleA"], some "why"⟩] := by decide +kernel
  have hfits : KeywordsFitLines .default := by
    intro kind
    cases kind <;> decide +kernel
  have hblank : (lines paddedBody.toList).Pairwise fun line later =>
      HoldsKeyword .default line → allBlank later = true := by decide +kernel
  obtain ⟨-, -, hsame, -⟩ := commentDirectives_eq_htmlDirectives_iff hbody .default
  exact ⟨hbody, hcomment, (hsame hfits hblank).symm.trans hcomment⟩

/-- A body with a directive on each of its two lines. -/
def twoLinesBody : String :=
  "textlint-disable ruleA\ntextlint-disable ruleB"

/-- Two directives are read from HTML.  A comment node with the same body is one directive, about
a rule that nobody has named. -/
theorem twoLinesBody_read_differently :
    ∃ (source : List Char) (comment html : Node),
      HaveBody source twoLinesBody comment html ∧
        htmlDirectives .default source html =
          [⟨.disable, ["ruleA"], none⟩, ⟨.disable, ["ruleB"], none⟩] ∧
        commentDirectives .default source comment =
          [⟨.disable, ["ruleA\ntextlint-disable ruleB"], none⟩] :=
  ⟨HtmlComment.opening ++ twoLinesBody.toList ++ HtmlComment.closing,
    ⟨.comment, ⟨0, 52⟩, some twoLinesBody, []⟩, ⟨.html, ⟨0, 52⟩, none, []⟩,
    ⟨rfl, rfl, rfl, by decide +kernel, by decide +kernel, rfl⟩, by decide +kernel,
    by decide +kernel⟩

end LintDirectives.Inspection
