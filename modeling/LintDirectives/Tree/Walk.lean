import LintDirectives.Tree.Node

/-!
# Walking a tree

A walk goes through a tree in document order and fires handlers: those for
entering a node before anything below it, those for leaving it after everything
below it.  Handlers for one event fire in the order in which they are listed.

* `run` keeps the steps that are still to do in a list.
* `visit` is the same walk by recursion over the tree.
-/

namespace LintDirectives.Walk

/-- What a handler waits for. -/
inductive Event where
  /-- A node of this kind is met, before anything below it. -/
  | enter (kind : NodeKind)
  /-- Everything below a node of this kind has been met. -/
  | leave (kind : NodeKind)
deriving DecidableEq, Repr

/-- An event, and what to do to the state of the walk when it happens. -/
structure Handler (σ : Type) where
  event : Event
  act : σ → Node → σ

/-- Fires the handlers of an event, in order. -/
def fire {σ : Type} (handlers : List (Handler σ)) (event : Event) (node : Node) (state : σ) : σ :=
  (handlers.filter (·.event = event)).foldl (fun state handler => handler.act state node) state

/-! ## The walk with a list of steps -/

/-- Something still to do. -/
inductive Step where
  | enter (node : Node)
  | leave (node : Node)

namespace Step

/-- The number of steps that a step leads to, itself included. -/
def weight : Step → Nat
  | enter node => 2 * node.size
  | leave _ => 1

/-- The number of steps that a list of steps leads to. -/
def weights : List Step → Nat
  | [] => 0
  | step :: steps => step.weight + weights steps

theorem weights_append (xs ys : List Step) : weights (xs ++ ys) = weights xs + weights ys := by
  induction xs with
  | nil => simp [weights]
  | cons x xs ih => simp only [List.cons_append, weights, ih]; omega

/-- Enters trees one after the other. -/
def enters : List Node → List Step
  | [] => []
  | node :: nodes => enter node :: enters nodes

theorem weights_enters (nodes : List Node) : weights (enters nodes) = 2 * Node.sizes nodes := by
  induction nodes with
  | nil => rfl
  | cons n ns ih => simp only [enters, weights, weight, Node.sizes, ih]; omega

end Step

/-- Does the steps of a list, from the first on. -/
def runSteps {σ : Type} (handlers : List (Handler σ)) : List Step → σ → σ
  | [], state => state
  | .enter node :: rest, state =>
    runSteps handlers (Step.enters node.children ++ .leave node :: rest)
      (fire handlers (.enter node.kind) node state)
  | .leave node :: rest, state =>
    runSteps handlers rest (fire handlers (.leave node.kind) node state)
termination_by steps => Step.weights steps
decreasing_by
  · simp only [Step.weights_append, Step.weights_enters, Step.weights, Step.weight,
      Node.size_eq node]
    omega
  · simp only [Step.weights, Step.weight]
    omega

/-- Walks a tree. -/
def run {σ : Type} (handlers : List (Handler σ)) (state : σ) (root : Node) : σ :=
  runSteps handlers [.enter root] state

/-! ## The walk by recursion -/

mutual

/-- Walks a tree. -/
def visit {σ : Type} (handlers : List (Handler σ)) (state : σ) : Node → σ
  | ⟨kind, span, value, children⟩ =>
    let node : Node := ⟨kind, span, value, children⟩
    let entered := fire handlers (.enter kind) node state
    fire handlers (.leave kind) node (visitAll handlers entered children)

/-- Walks several trees, one after the other. -/
def visitAll {σ : Type} (handlers : List (Handler σ)) (state : σ) : List Node → σ
  | [] => state
  | node :: nodes => visitAll handlers (visit handlers state node) nodes

end

end LintDirectives.Walk
