import LintDirectives.Proofs.Directive.SeveralLines
import LintDirectives.Proofs.Inspection.Reading
import LintDirectives.Proofs.Suppression.Apply
import LintDirectives.Session

/-!
# Documents without directives

Where no directive is found a session has nothing to do: no range is suppressed
and nothing is expected, so the diagnostics stay what they are, and so does the
store.

There are four groups.

* The inspection.  `IsIdle` is kept by entering a node without directives and by
  leaving any node, so `inspect_of_silent` holds for trees of every shape.
* The session.  `applyTree_of_silent` carries this through suppression and
  check.
* Nodes without directives.  The nodes of a plain text have none
  (`occurrencesIn_of_mem_preorder_parse`), and neither has HTML in a document that
  holds no keyword (`occurrencesIn_eq_nil_of_absent`).
* The result.  `untouched_without_directives` puts them together.
-/

namespace LintDirectives

/-! ## The inspection -/

namespace Inspection

open Suppression

/-- Nothing has been found, and `store` has not been written to. -/
structure IsIdle (store : Expectation.Store) (inspection : Inspection) : Prop where
  records : inspection.tracker.records = []
  pending : inspection.pending = []
  ranges : inspection.ranges = []
  store_eq : inspection.store = store

section Idle

variable {config : Config} {document : Document} {source : List Char} {store : Expectation.Store}
  {node root : Node}

/-- When nothing waits, leaving a document node reports and stores nothing. -/
theorem IsIdle.finish {inspection : Inspection} (h : IsIdle store inspection) :
    IsIdle store (finish document source inspection node) where
  records := rfl
  pending := rfl
  ranges := by simp [Inspection.finish, Tracker.finish, h.ranges, h.records]
  store_eq := by simp [Inspection.finish, h.pending, h.store_eq]

/-- Entering a node without directives finds nothing. -/
theorem keepsAt_isIdle (h : occurrencesIn config source node = []) :
    Walk.KeepsAt (handlers config document source) (IsIdle store) node := by
  intro handler hhandler hevent inspection hidle
  simp only [handlers, List.mem_cons, List.not_mem_nil, or_false] at hhandler
  rcases hhandler with rfl | rfl | rfl
  · have hkind : node.kind = .html := by simpa [eq_comm] using hevent
    rw [occurrencesIn_of_html hkind, List.map_eq_nil_iff] at h
    simpa only [h, List.foldl_nil] using hidle
  · have hkind : node.kind = .comment := by simpa [eq_comm] using hevent
    rw [occurrencesIn_of_comment hkind, List.map_eq_nil_iff] at h
    simpa only [h, List.foldl_nil] using hidle
  · exact hidle.finish

/-- An inspection that meets no directive finds nothing, whatever the shape of the tree. -/
theorem inspect_of_silent
    (h : ∀ node ∈ root.preorder, occurrencesIn config document.text.toList node = []) :
    IsIdle store (LintDirectives.inspect config document store root) :=
  Walk.run_keeps (fun node hnode => keepsAt_isIdle (h node hnode)) ⟨rfl, rfl, rfl, rfl⟩

end Idle

end Inspection

/-! ## The session -/

namespace Session

open Inspection

/-- Without expectations a check changes nothing. -/
theorem verify_of_stored?_eq_none {session : Session} {document : Document}
    (hstore : session.store.stored? document.key = none) (diagnostics : List Diagnostic) :
    session.verify document diagnostics = (diagnostics, session) := by
  have herase := Expectation.Store.erase_eq_self hstore
  simp [verify, take, Expectation.Store.take, Expectation.Store.get_eq, hstore, herase,
    Expectation.verify, Expectation.settle]

theorem applyTree_of_silent {session : Session} {document : Document} {root : Node}
    (hstore : session.store.stored? document.key = none)
    (h : ∀ node ∈ root.preorder,
      occurrencesIn session.config document.text.toList node = [])
    (diagnostics : List Diagnostic) :
    session.applyTree document root diagnostics = (diagnostics, session) := by
  have hidle : IsIdle session.store
      (LintDirectives.inspect session.config document session.store root) := inspect_of_silent h
  have hsession : (session.inspect document root).2 = session := by
    rw [Session.inspect, hidle.store_eq]
  have hkept : SuppressedRange.apply (session.inspect document root).1.ranges
      (.ofText document.text) diagnostics = diagnostics := by
    rw [Session.inspect, hidle.ranges, SuppressedRange.apply_nil]
  have happly : session.applyTree document root diagnostics =
      (session.inspect document root).2.verify document
        (SuppressedRange.apply (session.inspect document root).1.ranges (.ofText document.text)
          diagnostics) := rfl
  rw [happly, hkept, hsession, verify_of_stored?_eq_none hstore]

end Session

/-! ## Nodes without directives -/

namespace Inspection

section Nodes

variable {config : Config} {source : List Char} {node : Node}

/-- Only HTML and comments are searched for directives. -/
theorem occurrencesIn_eq_nil_of_kind (hhtml : node.kind ≠ .html) (hcomment : node.kind ≠ .comment) :
    occurrencesIn config source node = [] := by
  unfold occurrencesIn
  split
  · contradiction
  · contradiction
  · rfl

/-- HTML that covers a part of a document without keywords holds no directive. -/
theorem occurrencesIn_eq_nil_of_absent (hkind : node.kind = .html)
    (hslice : (node.sourceText? source).isSome)
    (habsent : ∀ kind, ¬ (Directive.keyword config kind).toList <:+: source) :
    occurrencesIn config source node = [] := by
  obtain ⟨text, htext⟩ := Option.isSome_iff_exists.1 hslice
  rw [occurrencesIn_of_html hkind, List.map_eq_nil_iff, htmlDirectives, Node.markup?, htext,
    Option.some_or]
  refine List.filterMap_eq_nil_iff.2 fun line hline => ?_
  have hinfix : line <:+: source :=
    (HtmlComment.infix_of_mem_commentLines hline).trans (Text.infix_of_slice? htext)
  refine Directive.parse?_eq_none_iff.2 ?_
  rintro ⟨kind, hkeyword⟩
  exact habsent kind (hkeyword.trans hinfix)

end Nodes

end Inspection

namespace PlainText

theorem kind_of_mem_preorders_toNode {blocks : List Block} {node : Node}
    (h : node ∈ Node.preorders (blocks.map Block.toNode)) :
    node.kind = .paragraph ∨ node.kind = .str := by
  induction blocks with
  | nil => contradiction
  | cons block blocks ih =>
    rw [List.map_cons, Node.preorders, List.mem_append] at h
    rcases h with h | h
    · simp only [Block.toNode, Node.preorder, Node.preorders, List.append_nil, List.mem_cons,
        List.not_mem_nil, or_false] at h
      rcases h with rfl | rfl
      · exact .inl rfl
      · exact .inr rfl
    · exact ih h

/-- The tree of a plain text is a document, its paragraphs and their texts, so no directive is
looked for in it. -/
theorem occurrencesIn_of_mem_preorder_parse {config : Config} {source : List Char} {text : String}
    {node : Node} (h : node ∈ (parse text).preorder) :
    Inspection.occurrencesIn config source node = [] := by
  have hkind : node.kind = .document ∨ node.kind = .paragraph ∨ node.kind = .str := by
    rw [Node.preorder_eq, List.mem_cons] at h
    refine h.imp (fun hroot => ?_) kind_of_mem_preorders_toNode
    rw [hroot]
    rfl
  refine Inspection.occurrencesIn_eq_nil_of_kind ?_ ?_
  · rcases hkind with hkind | hkind | hkind <;> simp [hkind]
  · rcases hkind with hkind | hkind | hkind <;> simp [hkind]

end PlainText

/-! ## The result -/

namespace Session

open Inspection

/-- The two ways in which a document has no directives.  A plain text has none, whatever it
holds.  Markup has none when its HTML is what stands in the text, it has no comments of its
own, and no keyword in effect is part of the text.  Then a session that has stored nothing for
the document gives its diagnostics back as they are, and stays as it is. -/
theorem untouched_without_directives {session : Session} {document : Document}
    (hstore : session.store.stored? document.key = none) (diagnostics : List Diagnostic) :
    (Format.ofPath document.path = .plain →
        session.process document diagnostics = (diagnostics, session) ∧
          (document.text.utf8ByteSize ≤ Format.lastByte →
            session.tryProcess document diagnostics = .ok (diagnostics, session))) ∧
      ∀ (parse : Parser) (root : Node), parse document.text = .ok root →
        (∀ node ∈ root.preorder, node.kind ≠ .comment) →
        (∀ node ∈ root.preorder, node.kind = .html →
          (node.sourceText? document.text.toList).isSome) →
        (∀ kind, ¬ (Directive.keyword session.config kind).toList <:+: document.text.toList) →
        session.processWith parse document diagnostics = .ok (diagnostics, session) := by
  refine ⟨fun hplain => ?_, fun parse root hparse hcomment hhtml habsent => ?_⟩
  · have haccepted : document.text.utf8ByteSize ≤ Format.lastByte →
        session.tryProcess document diagnostics = .ok (diagnostics, session) := by
      intro hsize
      have hparse : Format.plain.parse document.text = .ok (PlainText.parse document.text) := by
        rw [Format.parse, if_neg (Nat.not_lt.2 hsize)]
      rw [tryProcess, hplain, processWith, hparse]
      exact congrArg Except.ok (applyTree_of_silent hstore
        (fun node hnode => PlainText.occurrencesIn_of_mem_preorder_parse hnode) diagnostics)
    refine ⟨?_, haccepted⟩
    by_cases hsize : document.text.utf8ByteSize ≤ Format.lastByte
    · rw [process, haccepted hsize]
    · have hparse : Format.plain.parse document.text =
          .error (.tooLarge document.text.utf8ByteSize) := by
        rw [Format.parse, if_pos (Nat.not_le.1 hsize)]
      rw [process, tryProcess, hplain, processWith, hparse]
  · rw [processWith, hparse]
    refine congrArg Except.ok (applyTree_of_silent hstore (fun node hnode => ?_) diagnostics)
    by_cases hkind : node.kind = .html
    · exact occurrencesIn_eq_nil_of_absent hkind (hhtml node hnode hkind) habsent
    · exact occurrencesIn_eq_nil_of_kind hkind (hcomment node hnode)

/-- A document whose only comment is a remark. -/
def remarkedDocument : Document :=
  ⟨none, "<!-- remark -->\n\nText."⟩

/-- The tree of `remarkedDocument`. -/
def remarkedRoot : Node :=
  ⟨.document, ⟨0, 22⟩, none,
    [⟨.html, ⟨0, 15⟩, some "<!-- remark -->", []⟩,
      ⟨.paragraph, ⟨17, 22⟩, none, [⟨.str, ⟨17, 22⟩, some "Text.", []⟩]⟩]⟩

/-- With blank keywords, beside what is stored for another document. -/
theorem remarkedDocument_untouched :
    let marked : Document := ⟨some ⟨"a.txt"⟩, "<!-- textlint-disable -->\n\nText."⟩
    let session : Session :=
      { config := { enabling := "", disabling := "  ", expecting := "" }
        store := ⟨[(Document.key ⟨none, "Other."⟩, [⟨⟨0, 6⟩, none⟩])]⟩ }
    let diagnostics : List Diagnostic := [{ rule := "ruleA", index := some 18 }, { rule := "ruleA" }]
    session.store.stored? marked.key = none ∧
      session.process marked diagnostics = (diagnostics, session) ∧
      session.tryProcess marked diagnostics = .ok (diagnostics, session) ∧
      session.store.stored? remarkedDocument.key = none ∧
      (∀ node ∈ remarkedRoot.preorder, node.kind ≠ .comment) ∧
      (∀ node ∈ remarkedRoot.preorder, node.kind = .html →
        (node.sourceText? remarkedDocument.text.toList).isSome) ∧
      (∀ kind, ¬ (Directive.keyword session.config kind).toList <:+:
        remarkedDocument.text.toList) ∧
      session.processWith (fun _ => .ok remarkedRoot) remarkedDocument diagnostics =
        .ok (diagnostics, session) := by
  intro marked session diagnostics
  have hmarked : session.store.stored? marked.key = none := by decide +kernel
  have hplain : Format.ofPath marked.path = .plain := by decide +kernel
  have hsize : marked.text.utf8ByteSize ≤ Format.lastByte := by decide +kernel
  have hremarked : session.store.stored? remarkedDocument.key = none := by decide +kernel
  have hcomment : ∀ node ∈ remarkedRoot.preorder, node.kind ≠ .comment := by decide +kernel
  have hhtml : ∀ node ∈ remarkedRoot.preorder, node.kind = .html →
      (node.sourceText? remarkedDocument.text.toList).isSome := by decide +kernel
  have habsent : ∀ kind, ¬ (Directive.keyword session.config kind).toList <:+:
      remarkedDocument.text.toList := by
    intro kind
    cases kind <;> decide +kernel
  obtain ⟨htext, -⟩ := untouched_without_directives hmarked diagnostics
  obtain ⟨-, hmarkup⟩ := untouched_without_directives hremarked diagnostics
  exact ⟨hmarked, (htext hplain).1, (htext hplain).2 hsize, hremarked, hcomment, hhtml, habsent,
    hmarkup _ remarkedRoot rfl hcomment hhtml habsent⟩

end Session

end LintDirectives
