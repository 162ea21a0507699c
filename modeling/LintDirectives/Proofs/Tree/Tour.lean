import LintDirectives.Proofs.Tree.Walk
import Mathlib.Data.List.Count
import Mathlib.Data.List.Induction
import Mathlib.Logic.Function.Iterate

/-!
# The tour of a tree

The walk keeps the steps that are still to do in a list.  Each turn takes the first
of them off and, for entering a node, puts the steps below the node in its place.
This module says which steps that makes, one by one.

There are five groups.

* Turns.  `turn` does one step, and `ahead` is what a list of pending steps leads
  to.  `turn` does the first step of `ahead` and leaves the others
  (`ahead_turn`), so `n` turns do the first `n` of them (`iterate_turn`).
* The whole tour.  A walk is a fold over the tour (`run_eq_foldl_tour`), which enters
  the nodes in preorder (`entered_tour`).
* Registration.  `registered` collects handlers in a table, and firing an event goes
  through its entry of the table.
* Addresses.  Two nodes of a tree may be equal, so a node is named by the way down to
  it (`nodeAt?`).  `route` is the tour with addresses in the place of nodes
  (`map_step?_route`), and holds every address of the tree once for entering and
  once for leaving (`count_route`).
* The result.  `run_meets_each_node_once` puts this together with the walk by
  recursion.
-/

namespace LintDirectives

namespace Walk

variable {σ : Type} (handlers : List (Handler σ))

/-! ## Turns -/

namespace Step

/-- What doing a step does to the state. -/
def act (state : σ) : Step → σ
  | enter node => fire handlers (.enter node.kind) node state
  | leave node => fire handlers (.leave node.kind) node state

end Step

/-- One turn of the walk: the first pending step is done.  Without one nothing happens. -/
def turn : List Step × σ → List Step × σ
  | ([], state) => ([], state)
  | (.enter node :: rest, state) =>
    (Step.enters node.children ++ .leave node :: rest, Step.act handlers state (.enter node))
  | (.leave node :: rest, state) => (rest, Step.act handlers state (.leave node))

mutual

/-- The steps of the walk of a tree, in order. -/
def tour : Node → List Step
  | ⟨kind, span, value, children⟩ =>
    .enter ⟨kind, span, value, children⟩ ::
      (tours children ++ [.leave ⟨kind, span, value, children⟩])

/-- The steps of the walks of several trees, one after the other. -/
def tours : List Node → List Step
  | [] => []
  | node :: nodes => tour node ++ tours nodes

end

/-- The steps that pending steps lead to, themselves included. -/
def ahead (pending : List Step) : List Step :=
  pending.flatMap fun step =>
    match step with
    | .enter node => tour node
    | .leave node => [.leave node]

theorem tour_eq (node : Node) :
    tour node = .enter node :: (tours node.children ++ [.leave node]) := by
  cases node; rw [tour]

theorem ahead_enter (node : Node) (rest : List Step) :
    ahead (.enter node :: rest) = tour node ++ ahead rest := rfl

theorem ahead_leave (node : Node) (rest : List Step) :
    ahead (.leave node :: rest) = .leave node :: ahead rest := rfl

theorem ahead_enters_append (nodes : List Node) (rest : List Step) :
    ahead (Step.enters nodes ++ rest) = tours nodes ++ ahead rest := by
  induction nodes with
  | nil => rfl
  | cons node nodes ih =>
    rw [Step.enters, List.cons_append, ahead_enter, ih, tours, List.append_assoc]

/-- The first pending step is the first of those that are ahead. -/
theorem head?_ahead (pending : List Step) : (ahead pending).head? = pending.head? := by
  cases pending with
  | nil => rfl
  | cons step rest =>
    cases step with
    | enter node => rw [ahead_enter, tour_eq]; rfl
    | leave node => rfl

/-- A turn does the first of the steps that are ahead, and the others stay ahead. -/
theorem ahead_turn (pending : List Step) (state : σ) :
    ahead (turn handlers (pending, state)).1 = (ahead pending).tail ∧
      (turn handlers (pending, state)).2 =
        ((ahead pending).take 1).foldl (Step.act handlers) state := by
  cases pending with
  | nil => exact ⟨rfl, rfl⟩
  | cons step rest =>
    cases step with
    | enter node =>
      rw [turn, ahead_enters_append, ahead_enter, ahead_leave, tour_eq]
      exact ⟨by simp, rfl⟩
    | leave node => exact ⟨rfl, rfl⟩

/-- Several turns do the first of the steps that are ahead, one each. -/
theorem iterate_turn (n : Nat) (pending : List Step) (state : σ) :
    ahead ((turn handlers)^[n] (pending, state)).1 = (ahead pending).drop n ∧
      ((turn handlers)^[n] (pending, state)).2 =
        ((ahead pending).take n).foldl (Step.act handlers) state := by
  induction n generalizing pending state with
  | zero => exact ⟨rfl, rfl⟩
  | succ n ih =>
    obtain ⟨hsteps, hstate⟩ := ahead_turn handlers pending state
    obtain ⟨hrest, hfinal⟩ :=
      ih (turn handlers (pending, state)).1 (turn handlers (pending, state)).2
    rw [Function.iterate_succ_apply]
    refine ⟨?_, ?_⟩
    · rw [hrest, hsteps, List.drop_tail]
    · rw [hfinal, hsteps, hstate, ← List.foldl_append, Nat.add_comm, List.take_add,
        List.drop_one]

/-- A turn has no part in where the walk ends. -/
theorem runSteps_turn (pending : List Step) (state : σ) :
    runSteps handlers (turn handlers (pending, state)).1 (turn handlers (pending, state)).2 =
      runSteps handlers pending state := by
  cases pending with
  | nil => rfl
  | cons step rest =>
    cases step with
    | enter node => rw [runSteps, turn, Step.act]
    | leave node => rw [runSteps, turn, Step.act]

theorem runSteps_iterate_turn (n : Nat) (pending : List Step) (state : σ) :
    runSteps handlers ((turn handlers)^[n] (pending, state)).1
        ((turn handlers)^[n] (pending, state)).2 =
      runSteps handlers pending state := by
  induction n with
  | zero => rfl
  | succ n ih => rw [Function.iterate_succ_apply', runSteps_turn, ih]

mutual

/-- A tree is walked in two steps for each of its nodes. -/
theorem length_tour (node : Node) : (tour node).length = 2 * node.size := by
  match node with
  | ⟨kind, span, value, children⟩ =>
    simp only [tour, List.length_cons, List.length_append, List.length_nil, length_tours children,
      Node.size]
    omega

theorem length_tours (nodes : List Node) : (tours nodes).length = 2 * Node.sizes nodes := by
  match nodes with
  | [] => rfl
  | node :: nodes =>
    rw [tours, List.length_append, length_tour node, length_tours nodes, Node.sizes, Nat.mul_add]

end

/-! ## The whole tour -/

mutual

/-- The walk by recursion does the steps of the tour. -/
theorem visit_eq_foldl_tour (node : Node) (state : σ) :
    visit handlers state node = (tour node).foldl (Step.act handlers) state := by
  match node with
  | ⟨kind, span, value, children⟩ =>
    rw [visit, visitAll_eq_foldl_tours children, tour, List.foldl_cons, List.foldl_concat]
    rfl

theorem visitAll_eq_foldl_tours (nodes : List Node) (state : σ) :
    visitAll handlers state nodes = (tours nodes).foldl (Step.act handlers) state := by
  match nodes with
  | [] => rfl
  | node :: nodes =>
    rw [visitAll, visit_eq_foldl_tour node, visitAll_eq_foldl_tours nodes, tours,
      List.foldl_append]

end

/-- The walk does the steps of the tour. -/
theorem run_eq_foldl_tour (state : σ) (root : Node) :
    run handlers state root = (tour root).foldl (Step.act handlers) state := by
  rw [run_eq_visit, visit_eq_foldl_tour]

/-- The nodes that are entered, in order. -/
def entered : List Step → List Node
  | [] => []
  | .enter node :: rest => node :: entered rest
  | .leave _ :: rest => entered rest

theorem entered_append (steps others : List Step) :
    entered (steps ++ others) = entered steps ++ entered others := by
  induction steps with
  | nil => rfl
  | cons step steps ih =>
    cases step with
    | enter node => exact congrArg (node :: ·) ih
    | leave node => exact ih

mutual

/-- A tour enters the nodes in preorder. -/
theorem entered_tour (node : Node) : entered (tour node) = node.preorder := by
  match node with
  | ⟨kind, span, value, children⟩ =>
    rw [tour, entered, entered_append, entered_tours children, Node.preorder]
    exact congrArg _ (List.append_nil _)

theorem entered_tours (nodes : List Node) : entered (tours nodes) = Node.preorders nodes := by
  match nodes with
  | [] => rfl
  | node :: nodes =>
    rw [tours, entered_append, entered_tour node, entered_tours nodes, Node.preorders]

end

mutual

/-- The nodes that a tour leaves are nodes of the tree. -/
theorem mem_preorder_of_leave_mem_tour {other : Node} (node : Node)
    (h : .leave other ∈ tour node) : other ∈ node.preorder := by
  match node with
  | ⟨kind, span, value, children⟩ =>
    rw [tour] at h
    rw [Node.preorder]
    rcases List.mem_cons.1 h with hroot | hbelow
    · contradiction
    · rcases List.mem_append.1 hbelow with hchildren | hroot
      · exact List.mem_cons_of_mem _ (mem_preorders_of_leave_mem_tours children hchildren)
      · cases List.mem_singleton.1 hroot
        exact List.mem_cons_self

theorem mem_preorders_of_leave_mem_tours {other : Node} (nodes : List Node)
    (h : .leave other ∈ tours nodes) : other ∈ Node.preorders nodes := by
  match nodes with
  | [] => rw [tours] at h; contradiction
  | node :: nodes =>
    rw [tours, List.mem_append] at h
    rw [Node.preorders, List.mem_append]
    rcases h with hhead | htail
    · exact .inl (mem_preorder_of_leave_mem_tour node hhead)
    · exact .inr (mem_preorders_of_leave_mem_tours nodes htail)

end

/-! ## Registration -/

/-- The handlers of each event, in the order in which they are registered. -/
def registered : Event → List (σ → Node → σ) :=
  handlers.foldl
    (fun table handler =>
      Function.update table handler.event (table handler.event ++ [handler.act]))
    fun _ => []

theorem registered_append_singleton (handler : Handler σ) :
    registered (handlers ++ [handler]) =
      Function.update (registered handlers) handler.event
        (registered handlers handler.event ++ [handler.act]) :=
  List.foldl_concat ..

theorem registered_eq (event : Event) :
    registered handlers event = (handlers.filter (·.event = event)).map (·.act) := by
  induction handlers using List.reverseRecOn with
  | nil => rfl
  | append_singleton handlers handler ih =>
    rw [registered_append_singleton, List.filter_append, List.map_append, ← ih]
    by_cases hevent : handler.event = event
    · subst hevent
      simp
    · rw [Function.update_of_ne (Ne.symm hevent)]
      simp [hevent]

/-- Firing an event goes through its handlers as they were registered. -/
theorem fire_eq_foldl_registered (event : Event) (node : Node) (state : σ) :
    fire handlers event node state =
      (registered handlers event).foldl (fun state act => act state node) state := by
  rw [fire, registered_eq, List.foldl_map]

/-! ## Addresses -/

/-- The two times at which a walk meets a node. -/
inductive Side where
  /-- Before everything below the node. -/
  | enter
  /-- After everything below the node. -/
  | leave
deriving DecidableEq

/-- A meeting with the node at an address, the numbers of the children on the way down to it. -/
structure Visit where
  side : Side
  address : List Nat
deriving DecidableEq

/-- The node at an address. -/
def nodeAt? : Node → List Nat → Option Node
  | node, [] => some node
  | node, i :: address => node.children[i]?.bind fun child => nodeAt? child address

namespace Visit

/-- The visit of a node below child `i`, as seen from the parent. -/
def below (i : Nat) (visit : Visit) : Visit :=
  ⟨visit.side, i :: visit.address⟩

/-- The step of the walk of `root` that makes the visit. -/
def step? (root : Node) (visit : Visit) : Option Step :=
  (nodeAt? root visit.address).map fun node =>
    match visit.side with
    | .enter => .enter node
    | .leave => .leave node

theorem below_injective (i : Nat) : Function.Injective (below i) := by
  rintro ⟨side, address⟩ ⟨other, rest⟩ h
  simpa [below] using h

theorem step?_below (root : Node) (i : Nat) (visit : Visit) :
    (visit.below i).step? root = root.children[i]?.bind visit.step? := by
  simp only [step?, below, nodeAt?, Option.map_bind]
  rfl

end Visit

mutual

/-- The visits of the walk of a tree, in order. -/
def route : Node → List Visit
  | ⟨_, _, _, children⟩ => ⟨.enter, []⟩ :: (routes 0 children ++ [⟨.leave, []⟩])

/-- The visits of the walks of children of a node, of which the first is child `i`. -/
def routes (i : Nat) : List Node → List Visit
  | [] => []
  | node :: nodes => (route node).map (Visit.below i) ++ routes (i + 1) nodes

end

mutual

/-- The route is the tour. -/
theorem map_step?_route (node : Node) :
    (route node).map (Visit.step? node) = (tour node).map some := by
  match node with
  | ⟨kind, span, value, children⟩ =>
    simp only [route, tour, List.map_cons, List.map_append, List.map_nil]
    rw [map_step?_routes ⟨kind, span, value, children⟩ 0 children rfl]
    rfl

theorem map_step?_routes (root : Node) (i : Nat) (nodes : List Node)
    (h : root.children.drop i = nodes) :
    (routes i nodes).map (Visit.step? root) = (tours nodes).map some := by
  match nodes with
  | [] => rfl
  | node :: nodes =>
    have hchild : root.children[i]? = some node := by
      rw [← List.head?_drop, h, List.head?_cons]
    have hrest : root.children.drop (i + 1) = nodes := by
      rw [← List.tail_drop, h, List.tail_cons]
    have hbelow : Visit.step? root ∘ Visit.below i = Visit.step? node := by
      funext visit
      rw [Function.comp_apply, Visit.step?_below, hchild, Option.bind_some]
    rw [routes, tours, List.map_append, List.map_append, List.map_map, hbelow,
      map_step?_route node, map_step?_routes root (i + 1) nodes hrest]

end

theorem bind_step?_route (root : Node) (n : Nat) :
    (route root)[n]?.bind (Visit.step? root) = (tour root)[n]? := by
  have hmap : (route root)[n]?.map (Visit.step? root) = (tour root)[n]?.map some := by
    rw [← List.getElem?_map, map_step?_route, List.getElem?_map]
  cases htour : (tour root)[n]? with
  | none =>
    rw [htour] at hmap
    rw [Option.map_eq_none_iff.1 hmap, Option.bind_none]
  | some step =>
    rw [htour] at hmap
    obtain ⟨visit, hvisit, hstep⟩ := Option.map_eq_some_iff.1 hmap
    rw [hvisit, Option.bind_some, hstep]

/-- The visits below children from `i` on go through one of these. -/
theorem exists_of_mem_routes {i : Nat} {nodes : List Node} {visit : Visit}
    (h : visit ∈ routes i nodes) : ∃ j address, visit.address = j :: address ∧ i ≤ j := by
  induction nodes generalizing i with
  | nil => exact absurd h List.not_mem_nil
  | cons node nodes ih =>
    rw [routes, List.mem_append] at h
    rcases h with hfirst | hrest
    · obtain ⟨inner, -, rfl⟩ := List.mem_map.1 hfirst
      exact ⟨i, inner.address, rfl, Nat.le_refl i⟩
    · obtain ⟨j, address, haddress, hle⟩ := ih hrest
      exact ⟨j, address, haddress, Nat.le_of_succ_le hle⟩

mutual

/-- Every address of the tree is visited once on either side. -/
theorem count_route (side : Side) (node : Node) (address : List Nat) :
    (route node).count ⟨side, address⟩ = if (nodeAt? node address).isSome then 1 else 0 := by
  match node, address with
  | ⟨kind, span, value, children⟩, [] =>
    have hbelow : (routes 0 children).count ⟨side, []⟩ = 0 := by
      refine List.count_eq_zero.2 fun hmem => ?_
      obtain ⟨j, address, haddress, -⟩ := exists_of_mem_routes hmem
      cases haddress
    cases side <;> simp [route, hbelow, nodeAt?]
  | ⟨kind, span, value, children⟩, i :: address =>
    have hroute : (route ⟨kind, span, value, children⟩).count ⟨side, i :: address⟩ =
        (routes 0 children).count ⟨side, (0 + i) :: address⟩ := by
      simp [route]
    rw [hroute, count_routes side 0 children i address]
    rfl

theorem count_routes (side : Side) (i : Nat) (nodes : List Node) (j : Nat) (address : List Nat) :
    (routes i nodes).count ⟨side, (i + j) :: address⟩ =
      if (nodes[j]?.bind fun child => nodeAt? child address).isSome then 1 else 0 := by
  match nodes, j with
  | [], j => simp [routes]
  | node :: nodes, 0 =>
    have hfirst : ((route node).map (Visit.below i)).count ⟨side, i :: address⟩ =
        (route node).count ⟨side, address⟩ :=
      List.count_map_of_injective _ _ (Visit.below_injective i) ⟨side, address⟩
    have hrest : (routes (i + 1) nodes).count ⟨side, i :: address⟩ = 0 := by
      refine List.count_eq_zero.2 fun hmem => ?_
      obtain ⟨j, rest, haddress, hle⟩ := exists_of_mem_routes hmem
      obtain ⟨rfl, -⟩ := List.cons.inj haddress
      omega
    rw [routes, List.count_append, Nat.add_zero, hfirst, hrest, count_route side node address]
    rfl
  | node :: nodes, j + 1 =>
    have hfirst : ((route node).map (Visit.below i)).count ⟨side, (i + (j + 1)) :: address⟩ = 0 := by
      refine List.count_eq_zero.2 fun hmem => ?_
      obtain ⟨inner, -, hinner⟩ := List.mem_map.1 hmem
      obtain ⟨hhead, -⟩ := List.cons.inj (congrArg Visit.address hinner)
      omega
    have hrest := count_routes side (i + 1) nodes j address
    rw [Nat.add_right_comm, Nat.add_assoc] at hrest
    rw [routes, List.count_append, hfirst, hrest, Nat.zero_add]
    rfl

end

/-! ## The result -/

/-- The walk with a list of steps does what the walk by recursion does, whatever the handlers
and the state are, and firing an event goes through its handlers as they were registered.  The
walk takes two turns for each node and then stops.  Turn by turn it follows the route, which
meets every node of the tree once for entering and once for leaving. -/
theorem run_meets_each_node_once (state : σ) (root : Node) :
    run handlers state root = visit handlers state root ∧
      (∀ event node reached, fire handlers event node reached =
        (registered handlers event).foldl (fun reached act => act reached node) reached) ∧
      (∀ n, ((turn handlers)^[n] ([.enter root], state)).1 = [] ↔ 2 * root.size ≤ n) ∧
      (turn handlers)^[2 * root.size] ([.enter root], state) = ([], run handlers state root) ∧
      (∀ n, ((turn handlers)^[n] ([.enter root], state)).1.head? =
        (route root)[n]?.bind (Visit.step? root)) ∧
      ∀ side address, (route root).count ⟨side, address⟩ =
        if (nodeAt? root address).isSome then 1 else 0 := by
  have hahead : ahead [.enter root] = tour root := List.append_nil _
  have hpending : ∀ n, ahead ((turn handlers)^[n] ([.enter root], state)).1 =
      (tour root).drop n := by
    intro n
    rw [(iterate_turn handlers n [.enter root] state).1, hahead]
  have hstops : ∀ n, ((turn handlers)^[n] ([.enter root], state)).1 = [] ↔ 2 * root.size ≤ n := by
    intro n
    rw [← List.head?_eq_none_iff, ← head?_ahead, List.head?_eq_none_iff, hpending,
      List.drop_eq_nil_iff, length_tour]
  refine ⟨run_eq_visit handlers state root, fire_eq_foldl_registered handlers, hstops, ?_, ?_,
    fun side address => count_route side root address⟩
  · have hdone := (hstops (2 * root.size)).2 (Nat.le_refl _)
    have hrun := runSteps_iterate_turn handlers (2 * root.size) [.enter root] state
    rw [hdone, runSteps] at hrun
    exact Prod.ext hdone hrun
  · intro n
    rw [← head?_ahead, hpending, List.head?_drop, bind_step?_route]

end Walk

end LintDirectives
