import LintDirectives.Proofs.Session.Phases
import LintDirectives.Proofs.Text.Search
import Mathlib.Data.Finset.Card

/-!
# The store over a history of operations

The store of a session is used through three operations: expectations are put
into it for a document, they are taken out, and they are taken out to be
checked.  What is taken out depends on the history of the operations alone, and
of the history on the latest operation on the same document.

There are four groups.

* The document.  `key_eq_key_iff` says when two documents are the same one for
  the store.  Paths are compared by their components, so different spellings of
  a path may name one document (`components_idle_piece`).
* The history.  `waiting?` reads off a history what waits for a document, and
  `operateAll` performs the operations.
* One operation.  `stored?_operate` and `nodup_keys_operate` are what a step
  does to the entries, and `stored?_operateAll` and `nodup_keys_operateAll` the
  same for a history.
* The result.  `store_answers_by_history` puts them together.
-/

namespace LintDirectives

/-! ## The document -/

namespace FilePath

open Text

/-- The components of a path that does not start with a slash, from its pieces. -/
def relativeComponents : List (List Char) → List PathComponent
  | [] => []
  | piece :: rest =>
    (if piece = ['.'] then some .current else componentOf? piece).toList ++
      rest.filterMap componentOf?

theorem components_of_relative {text : List Char} (hne : text ≠ []) (h : text.head? ≠ some '/') :
    components ⟨String.ofList text⟩ = relativeComponents (pieces '/' text) := by
  rw [components, String.toList_ofList]
  split
  · contradiction
  · simp at h
  · split
    · next heq => simp [heq, relativeComponents]
    · next hdot =>
      obtain ⟨piece, rest, hpieces⟩ :=
        List.exists_cons_of_ne_nil (List.splitOn_ne_nil '/' text)
      rw [pieces_eq_splitOn, hpieces] at hdot ⊢
      have hpiece : piece ≠ ['.'] := fun heq => hdot rest (heq ▸ rfl)
      rw [relativeComponents, if_neg hpiece]
      cases hcomponent : componentOf? piece <;> simp [hcomponent]

/-- What follows a slash adds its own components, whatever stands before. -/
theorem components_append_slash (front back : List Char) :
    components ⟨String.ofList (front ++ '/' :: back)⟩ =
      (if front = [] then [.root] else components ⟨String.ofList front⟩) ++
        (pieces '/' back).filterMap componentOf? := by
  rcases front with _ | ⟨c, cs⟩
  · simp [components]
  · by_cases hslash : c = '/'
    · simp [components, hslash, pieces_append_cons]
    · have hhead : (c :: cs).head? ≠ some '/' := by simpa using hslash
      have hlonger : (c :: cs ++ '/' :: back).head? ≠ some '/' := by simpa using hslash
      obtain ⟨piece, rest, hpieces⟩ :=
        List.exists_cons_of_ne_nil (List.splitOn_ne_nil '/' (c :: cs))
      rw [components_of_relative (by simp) hlonger, if_neg (List.cons_ne_nil c cs),
        components_of_relative (List.cons_ne_nil c cs) hhead, pieces_append_cons,
        pieces_eq_splitOn '/' (c :: cs), hpieces, List.cons_append, relativeComponents,
        relativeComponents, List.filterMap_append, List.append_assoc]

/-- A doubled slash is one slash, and a dot between slashes does not count. -/
theorem components_idle_piece {piece : List Char} (h : piece = [] ∨ piece = ['.'])
    (front back : List Char) :
    components ⟨String.ofList (front ++ '/' :: (piece ++ '/' :: back))⟩ =
      components ⟨String.ofList (front ++ '/' :: back)⟩ := by
  have hpiece : (pieces '/' piece).filterMap componentOf? = [] := by
    rcases h with rfl | rfl <;> rfl
  rw [components_append_slash, components_append_slash, pieces_append_cons,
    List.filterMap_append, hpiece, List.nil_append]

end FilePath

namespace Session

open Expectation

/-- The store tells documents apart by the components of their paths and by their texts. -/
theorem key_eq_key_iff {one other : Document} :
    one.key = other.key ↔
      one.path.map FilePath.components = other.path.map FilePath.components ∧
        one.text = other.text := by
  simp [Document.key, DocumentKey.ofDocument]

/-! ## The history -/

/-- An operation on the store of a session. -/
inductive StoreOperation where
  /-- Stores expectations for a document. -/
  | insert (document : Document) (expectations : List Expectation)
  /-- Takes the expectations of a document out. -/
  | take (document : Document)
  /-- Takes the expectations of a document out and checks them against diagnostics. -/
  | verify (document : Document) (diagnostics : List Diagnostic)

/-- What an operation yields. -/
inductive StoreAnswer where
  | inserted
  | taken (expectations : List Expectation)
  | verified (left : List Diagnostic)

namespace StoreOperation

/-- The document that an operation works on, as the store knows it. -/
def key : StoreOperation → DocumentKey
  | insert document _ => document.key
  | take document => document.key
  | verify document _ => document.key

/-- What an operation leaves for its document. -/
def left? : StoreOperation → Option (List Expectation)
  | insert _ expectations => some expectations
  | take _ => none
  | verify _ _ => none

/-- What an operation yields when `expectations` are taken out. -/
def answer (expectations : List Expectation) : StoreOperation → StoreAnswer
  | insert _ _ => .inserted
  | take _ => .taken expectations
  | verify document diagnostics =>
    .verified (Expectation.verify document.text expectations diagnostics)

end StoreOperation

/-- What waits for a document after a history: what the latest operation on the document has
left. -/
def waiting? (key : DocumentKey) (history : List StoreOperation) : Option (List Expectation) :=
  (history.reverse.find? (·.key = key)).bind StoreOperation.left?

/-- The documents for which something waits, which may be the empty list. -/
def waitingKeys (history : List StoreOperation) : Finset DocumentKey :=
  (history.map StoreOperation.key).toFinset.filter fun key => (waiting? key history).isSome

/-- Performs an operation. -/
def operate (session : Session) : StoreOperation → StoreAnswer × Session
  | .insert document expectations => (.inserted, session.insert document expectations)
  | .take document =>
    let (expectations, after) := session.take document
    (.taken expectations, after)
  | .verify document diagnostics =>
    let (left, after) := session.verify document diagnostics
    (.verified left, after)

/-- Performs operations, one after the other. -/
def operateAll (session : Session) (history : List StoreOperation) : Session :=
  history.foldl (fun session operation => (session.operate operation).2) session

section History

variable (history others : List StoreOperation) (operation : StoreOperation) (key : DocumentKey)

theorem waiting?_append_singleton :
    waiting? key (history ++ [operation]) =
      if operation.key = key then operation.left? else waiting? key history := by
  rw [waiting?, waiting?, List.reverse_append, List.reverse_singleton, List.singleton_append,
    List.find?_cons]
  by_cases h : operation.key = key
  · simp [h]
  · simp [h]

/-- Operations on other documents leave what waits for a document as it is. -/
theorem waiting?_append_cons {operation : StoreOperation} {key : DocumentKey}
    (h : operation.key ≠ key) (history since : List StoreOperation) :
    waiting? key (history ++ operation :: since) = waiting? key (history ++ since) := by
  have hskip : ([operation].find? fun other => decide (other.key = key)) = none := by simp [h]
  simp only [waiting?, List.reverse_append, List.reverse_cons, List.find?_append, hskip,
    Option.or_none]

/-- Something waits only for documents that an operation was about. -/
theorem mem_waitingKeys_iff {history : List StoreOperation} {key : DocumentKey} :
    key ∈ waitingKeys history ↔ (waiting? key history).isSome := by
  rw [waitingKeys, Finset.mem_filter, and_iff_right_iff_imp]
  intro hwaiting
  obtain ⟨expectations, hleft⟩ := Option.isSome_iff_exists.1 hwaiting
  obtain ⟨operation, hfound, -⟩ := Option.bind_eq_some_iff.1 hleft
  have hmem : operation ∈ history := List.mem_reverse.1 (List.mem_of_find?_eq_some hfound)
  have hkey : operation.key = key := by simpa using List.find?_some hfound
  exact List.mem_toFinset.2 (hkey ▸ List.mem_map_of_mem hmem)

theorem operateAll_append (session : Session) :
    session.operateAll (history ++ others) = (session.operateAll history).operateAll others :=
  List.foldl_append

end History

/-! ## One operation -/

section Operation

variable (session : Session) (operation : StoreOperation) (key : DocumentKey)

/-- What an operation yields depends on the store as far as it holds something for the
document. -/
theorem operate_fst :
    (session.operate operation).1 =
      operation.answer ((session.store.stored? operation.key).getD []) := by
  cases operation <;> rfl

/-- An operation writes what it leaves for its document, and nothing for any other. -/
theorem stored?_operate :
    (session.operate operation).2.store.stored? key =
      if operation.key = key then operation.left? else session.store.stored? key := by
  simp only [eq_comm (a := operation.key)]
  cases operation with
  | insert document expectations => exact session.store.stored?_insert document.key key _
  | take document => exact session.store.stored?_erase document.key key
  | verify document diagnostics => exact session.store.stored?_erase document.key key

theorem nodup_keys_operate (h : session.store.keys.Nodup) :
    (session.operate operation).2.store.keys.Nodup := by
  cases operation with
  | insert document expectations => exact Store.nodup_keys_insert h document.key expectations
  | take document => exact Store.nodup_keys_erase h document.key
  | verify document diagnostics => exact Store.nodup_keys_erase h document.key

end Operation

section Run

variable (config : Config) (history : List StoreOperation)

/-- The store holds what waits. -/
theorem stored?_operateAll (key : DocumentKey) :
    (operateAll { config := config } history).store.stored? key = waiting? key history := by
  induction history using List.reverseRecOn with
  | nil => rfl
  | append_singleton history operation ih =>
    rw [operateAll_append, waiting?_append_singleton, ← ih]
    exact stored?_operate _ operation key

theorem nodup_keys_operateAll :
    (operateAll { config := config } history).store.keys.Nodup := by
  induction history using List.reverseRecOn with
  | nil => exact List.nodup_nil
  | append_singleton history operation ih =>
    rw [operateAll_append]
    exact nodup_keys_operate _ operation ih

/-- The store has one entry for each document for which something waits. -/
theorem size_operateAll :
    (operateAll { config := config } history).store.size = (waitingKeys history).card := by
  have hkeys : (operateAll { config := config } history).store.keys.toFinset =
      waitingKeys history := by
    ext key
    rw [List.mem_toFinset, Store.mem_keys_iff, stored?_operateAll, mem_waitingKeys_iff]
  rw [← hkeys, List.toFinset_card_of_nodup (nodup_keys_operateAll config history),
    Store.length_keys]

theorem operate_operateAll_fst (operation : StoreOperation) :
    ((operateAll { config := config } history).operate operation).1 =
      operation.answer ((waiting? operation.key history).getD []) := by
  rw [operate_fst, stored?_operateAll]

end Run

/-! ## The result -/

/-- After any history of operations on an empty store an operation yields the expectations of
the latest insertion for its document, if nothing was taken for it since, and none otherwise.
The store counts the documents for which something waits.  An operation on one document does
not change what any later operation on another one yields. -/
theorem store_answers_by_history (config : Config) (history : List StoreOperation) :
    let session := operateAll { config := config } history
    (∀ operation, (session.operate operation).1 =
        operation.answer ((waiting? operation.key history).getD [])) ∧
      session.store.size = (waitingKeys history).card ∧
      (session.store.isEmpty = true ↔ session.store.size = 0) ∧
      (∀ operation since later, operation.key ≠ later.key →
        (((session.operate operation).2.operateAll since).operate later).1 =
          ((session.operateAll since).operate later).1) ∧
      ∀ one other : Document, one.key = other.key ↔
        one.path.map FilePath.components = other.path.map FilePath.components ∧
          one.text = other.text := by
  intro session
  refine ⟨operate_operateAll_fst config history, size_operateAll config history,
    session.store.isEmpty_iff, fun operation since later hkey => ?_, fun _ _ => key_eq_key_iff⟩
  have hwith : (session.operate operation).2.operateAll since =
      operateAll { config := config } (history ++ operation :: since) :=
    (operateAll_append history (operation :: since) _).symm
  have hwithout : session.operateAll since =
      operateAll { config := config } (history ++ since) :=
    (operateAll_append history since _).symm
  rw [hwith, hwithout, operate_operateAll_fst, operate_operateAll_fst,
    waiting?_append_cons hkey]

/-- A document with something between two slashes of its path. -/
def noteAt (between : List Char) : Document :=
  ⟨some ⟨String.ofList ("notes".toList ++ '/' :: (between ++ '/' :: "a.md".toList))⟩, "Text."⟩

/-- Two spellings of one path, a path that leads elsewhere, and no path at all. -/
theorem store_answers_for_notes :
    let expected : List Expectation := [⟨⟨0, 5⟩, some "ruleA"⟩]
    let history : List StoreOperation :=
      [.insert (noteAt []) expected, .insert (noteAt ['.', '.']) [],
        .insert ⟨none, "Text."⟩ expected, .verify (noteAt ['.']) []]
    let session := operateAll { config := .default } history
    let first : StoreOperation := .take (noteAt [])
    let later : StoreOperation := .take (noteAt ['.', '.'])
    (noteAt []).key = (noteAt ['.']).key ∧ first.key ≠ later.key ∧
      (session.operate first).1 = .taken [] ∧
      (session.operate (.take ⟨none, "Text."⟩)).1 = .taken expected ∧
      session.store.size = 2 ∧
      (((session.operate first).2.operateAll []).operate later).1 =
        ((session.operateAll []).operate later).1 := by
  intro expected history session first later
  have hspelled : (noteAt []).key = (noteAt ['.']).key := by
    refine key_eq_key_iff.2 ⟨congrArg some ?_, rfl⟩
    exact (FilePath.components_idle_piece (.inl rfl) _ _).trans
      (FilePath.components_idle_piece (.inr rfl) _ _).symm
  have hkey : first.key ≠ later.key := by decide +kernel
  have hfirst : waiting? first.key history = none := by decide +kernel
  have hpathless : waiting? (Document.key ⟨none, "Text."⟩) history = some expected := by
    decide +kernel
  have hcard : (waitingKeys history).card = 2 := by decide +kernel
  obtain ⟨hanswers, hsize, -, hothers, -⟩ := store_answers_by_history .default history
  refine ⟨hspelled, hkey, ?_, ?_, hsize.trans hcard, hothers first [] later hkey⟩
  · exact (hanswers first).trans (by rw [hfirst]; rfl)
  · refine (hanswers (.take ⟨none, "Text."⟩)).trans ?_
    exact congrArg (fun found => StoreAnswer.taken (found.getD [])) hpathless

end Session

end LintDirectives
