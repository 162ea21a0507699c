import LintDirectives.Tree.Walk
import Mathlib.Data.List.Forall2

/-!
# The two walks agree

`Walk.run` keeps a list of steps, in which the steps for leaving the open
ancestors wait behind those for what lies below them.  `Walk.visit` is
recursion over the tree.  `run_eq_visit` says that they are the same, for
every tree, every handler and every state.

`visit_eq_foldl` is the form that results about collecting handlers use: when
no handler waits for leaving a node of the tree, the walk is a fold over the
nodes in preorder.

`run_map` compares the walks of two lists of handlers over one tree, whatever
its shape: a translation of states that fits every handler fits the walk.
`run_keeps` is about one walk: what the handlers keep at every node, the walk
keeps.
-/

namespace LintDirectives.Walk

variable {σ : Type} (handlers : List (Handler σ))

/-! ## A list of steps -/

mutual

/-- Entering a tree does everything that the recursive walk does, whatever waits behind. -/
theorem runSteps_enter (node : Node) (rest : List Step) (state : σ) :
    runSteps handlers (.enter node :: rest) state =
      runSteps handlers rest (visit handlers state node) := by
  match node with
  | ⟨kind, span, value, children⟩ =>
    rw [runSteps, runSteps_enters, runSteps, visit]

theorem runSteps_enters (nodes : List Node) (rest : List Step) (state : σ) :
    runSteps handlers (Step.enters nodes ++ rest) state =
      runSteps handlers rest (visitAll handlers state nodes) := by
  match nodes with
  | [] => rfl
  | node :: nodes =>
    rw [Step.enters, List.cons_append, runSteps_enter, runSteps_enters, visitAll]

end

/-- The walk with a list of steps is the walk by recursion. -/
theorem run_eq_visit (state : σ) (root : Node) :
    run handlers state root = visit handlers state root := by
  rw [run, runSteps_enter, runSteps]

/-! ## Walks on which only entering matters -/

/-- An event that no handler waits for changes nothing. -/
theorem fire_eq_self {event : Event} (h : ∀ handler ∈ handlers, handler.event ≠ event)
    (node : Node) (state : σ) : fire handlers event node state = state := by
  have hnone : handlers.filter (·.event = event) = [] :=
    List.filter_eq_nil_iff.2 fun handler hhandler => by simpa using h handler hhandler
  rw [fire, hnone, List.foldl_nil]

/-- Fires the handlers for entering a node. -/
def enterNode (state : σ) (node : Node) : σ :=
  fire handlers (.enter node.kind) node state

/-- No handler waits for leaving a node of this kind. -/
def IgnoresLeaving (kind : NodeKind) : Prop :=
  ∀ handler ∈ handlers, handler.event ≠ .leave kind

mutual

/-- Where no handler waits for leaving a node, the walk is a fold over the nodes. -/
theorem visit_eq_foldl (node : Node)
    (hleave : ∀ other ∈ node.preorder, IgnoresLeaving handlers other.kind) (state : σ) :
    visit handlers state node = node.preorder.foldl (enterNode handlers) state := by
  match node with
  | ⟨kind, span, value, children⟩ =>
    simp only [Node.preorder, List.forall_mem_cons] at hleave
    rw [visit, fire_eq_self handlers hleave.1, visitAll_eq_foldl children hleave.2,
      Node.preorder, List.foldl_cons, enterNode]

theorem visitAll_eq_foldl (nodes : List Node)
    (hleave : ∀ other ∈ Node.preorders nodes, IgnoresLeaving handlers other.kind) (state : σ) :
    visitAll handlers state nodes = (Node.preorders nodes).foldl (enterNode handlers) state := by
  match nodes with
  | [] => rfl
  | node :: nodes =>
    simp only [Node.preorders, List.forall_mem_append] at hleave
    rw [visitAll, visit_eq_foldl node hleave.1, visitAll_eq_foldl nodes hleave.2,
      Node.preorders, List.foldl_append]

end

/-- A walk on which handlers wait for leaving the root alone. -/
theorem run_eq_leave_root (root : Node)
    (hleave : ∀ other ∈ Node.preorders root.children, IgnoresLeaving handlers other.kind)
    (state : σ) :
    run handlers state root =
      fire handlers (.leave root.kind) root (root.preorder.foldl (enterNode handlers) state) := by
  match root with
  | ⟨kind, span, value, children⟩ =>
    rw [run_eq_visit, visit, visitAll_eq_foldl handlers children hleave, Node.preorder,
      List.foldl_cons, enterNode]

/-! ## Two walks over one tree -/

section Map

variable {τ : Type}

/-- Translating the state by `f` turns each handler of one list into the one at the same
place of the other. -/
def Translates (f : σ → τ) (handlers : List (Handler σ)) (others : List (Handler τ)) : Prop :=
  List.Forall₂ (fun handler other => handler.event = other.event ∧
    ∀ state node, f (handler.act state node) = other.act (f state) node) handlers others

variable {f : σ → τ} {handlers} {others : List (Handler τ)}

theorem fire_map (h : Translates f handlers others) (event : Event) (node : Node) (state : σ) :
    f (fire handlers event node state) = fire others event node (f state) := by
  unfold Translates at h
  induction h generalizing state with
  | nil => rfl
  | @cons handler other handlers others hhead _ ih =>
    obtain ⟨hevent, hact⟩ := hhead
    unfold fire at ih ⊢
    by_cases hfires : other.event = event
    · have hfires' : handler.event = event := hevent.trans hfires
      simp only [List.filter_cons, hfires, hfires', decide_true, if_true, List.foldl_cons]
      rw [ih, hact]
    · have hfires' : handler.event ≠ event := fun heq => hfires (hevent.symm.trans heq)
      simp only [List.filter_cons, hfires, hfires', decide_false, Bool.false_eq_true, if_false]
      exact ih state

mutual

theorem visit_map (h : Translates f handlers others) (node : Node) (state : σ) :
    f (visit handlers state node) = visit others (f state) node := by
  match node with
  | ⟨kind, span, value, children⟩ =>
    rw [visit, visit, fire_map h, visitAll_map h children, fire_map h]

theorem visitAll_map (h : Translates f handlers others) (nodes : List Node) (state : σ) :
    f (visitAll handlers state nodes) = visitAll others (f state) nodes := by
  match nodes with
  | [] => rfl
  | node :: nodes => rw [visitAll, visitAll, visitAll_map h nodes, visit_map h node]

end

/-- Where a translation of states fits every handler, it takes one walk to the other. -/
theorem run_map (h : Translates f handlers others) (state : σ) (root : Node) :
    f (run handlers state root) = run others (f state) root := by
  rw [run_eq_visit, run_eq_visit, visit_map h]

end Map

/-! ## What a walk keeps -/

section Keep

variable {P : σ → Prop} {handlers}

/-- No handler that fires at the node takes a state out of `P`. -/
def KeepsAt (handlers : List (Handler σ)) (P : σ → Prop) (node : Node) : Prop :=
  ∀ handler ∈ handlers, handler.event = .enter node.kind ∨ handler.event = .leave node.kind →
    ∀ state, P state → P (handler.act state node)

theorem fire_keeps {node : Node} (h : KeepsAt handlers P node) {event : Event}
    (hevent : event = .enter node.kind ∨ event = .leave node.kind) {state : σ} (hstate : P state) :
    P (fire handlers event node state) := by
  have hfired : ∀ handler ∈ handlers.filter (·.event = event), ∀ state, P state →
      P (handler.act state node) := by
    intro handler hhandler
    rw [List.mem_filter, decide_eq_true_eq] at hhandler
    exact h handler hhandler.1 (hhandler.2 ▸ hevent)
  exact List.foldlRecOn _ _ hstate fun state hstate handler hhandler =>
    hfired handler hhandler state hstate

mutual

theorem visit_keeps (node : Node) (h : ∀ other ∈ node.preorder, KeepsAt handlers P other)
    {state : σ} (hstate : P state) : P (visit handlers state node) := by
  match node with
  | ⟨kind, span, value, children⟩ =>
    simp only [Node.preorder, List.forall_mem_cons] at h
    rw [visit]
    exact fire_keeps h.1 (.inr rfl)
      (visitAll_keeps children h.2 (fire_keeps h.1 (.inl rfl) hstate))

theorem visitAll_keeps (nodes : List Node)
    (h : ∀ other ∈ Node.preorders nodes, KeepsAt handlers P other)
    {state : σ} (hstate : P state) : P (visitAll handlers state nodes) := by
  match nodes with
  | [] => exact hstate
  | node :: nodes =>
    simp only [Node.preorders, List.forall_mem_append] at h
    rw [visitAll]
    exact visitAll_keeps nodes h.2 (visit_keeps node h.1 hstate)

end

/-- What the handlers keep at every node of a tree holds after the walk, if it holds before. -/
theorem run_keeps {root : Node} (h : ∀ node ∈ root.preorder, KeepsAt handlers P node)
    {state : σ} (hstate : P state) : P (run handlers state root) := by
  rw [run_eq_visit]
  exact visit_keeps root h hstate

end Keep

end LintDirectives.Walk
