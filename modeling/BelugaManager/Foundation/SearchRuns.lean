import BelugaManager.Foundation.Graph
import Mathlib.Data.List.Chain

/-!
# The searches as call trees

The recursions behind `visit` and `walk` without fuel: a derivation is the tree of the
calls that are made, so that a search with a derivation ends.  Both searches have one on
every graph with a finite region, with cycles or without, and what a search computes is
read off its derivation.
-/

namespace Foundation.Graph

variable {α : Type*} (successors : α → List α)

/-- A closed walk along the edges: its last node stands in it before. -/
def ClosedWalk (walk : List α) : Prop :=
  walk.IsChain (Edge successors) ∧ ∃ front last, walk = front ++ [last] ∧ last ∈ front

/-! ## Collecting the reachable nodes -/

/-- The loop over some nodes, each of which is visited in turn. -/
inductive Traverses : List α → List α → List α → Prop where
  | nil (seen : List α) : Traverses [] seen seen
  | known {node : α} {rest seen result : List α} (again : node ∈ seen)
      (onward : Traverses rest seen result) : Traverses (node :: rest) seen result
  | enter {node : α} {rest seen middle result : List α} (fresh : node ∉ seen)
      (below : Traverses (successors node) (seen ++ [node]) middle)
      (onward : Traverses rest middle result) : Traverses (node :: rest) seen result

variable {successors}

/-- The calls determine the result. -/
theorem Traverses.unique {starts seen result other : List α}
    (first : Traverses successors starts seen result)
    (second : Traverses successors starts seen other) : result = other := by
  induction first generalizing other with
  | nil => cases second; rfl
  | known again _ ih =>
      cases second with
      | known _ onward => exact ih onward
      | enter fresh _ _ => exact absurd again fresh
  | enter fresh _ _ belowIH onwardIH =>
      cases second with
      | known again _ => exact absurd again fresh
      | enter _ below onward =>
          cases belowIH below
          exact onwardIH onward

theorem Traverses.append {node : α} {rest seen middle result : List α}
    (first : Traverses successors [node] seen middle)
    (second : Traverses successors rest middle result) :
    Traverses successors (node :: rest) seen result := by
  cases first with
  | known again onward =>
      cases onward
      exact .known again second
  | enter fresh below onward =>
      cases onward
      exact .enter fresh below second

section Traversal

variable [DecidableEq α]

/-- With more fuel than unseen nodes `visit` makes all its calls. -/
theorem visit_traverses (region : Region successors) (fuel : Nat) (node : α) (seen : List α)
    (inside : node ∈ region.nodes) (enough : unseen successors region seen < fuel) :
    Traverses successors [node] seen (visit successors fuel node seen) := by
  induction fuel generalizing node seen with
  | zero => exact absurd enough (Nat.not_lt_zero _)
  | succ fuel ih =>
      have loop : ∀ (nexts seen : List α), (∀ next ∈ nexts, next ∈ region.nodes) →
          unseen successors region seen < fuel →
          Traverses successors nexts seen
            (nexts.foldl (fun seen next => visit successors fuel next seen) seen) := by
        intro nexts
        induction nexts with
        | nil => exact fun seen _ _ => .nil seen
        | cons next rest loopIH =>
            intro seen inside enough
            have here := inside next List.mem_cons_self
            have visited := visit_visited successors region fuel next seen here enough
            apply (ih next seen here enough).append
            apply loopIH
            · intro other member
              exact inside other (List.mem_cons_of_mem next member)
            · exact Nat.lt_of_le_of_lt (unseen_anti successors region visited.keeps) enough
      rw [visit]
      split
      next known => exact .known known (.nil _)
      next fresh =>
        apply Traverses.enter fresh _ (.nil _)
        apply loop _ _ (region.closed node inside)
        have smaller := unseen_enter successors region inside fresh
        omega

end Traversal

/-! ## Looking for a closed walk -/

section Colouring

variable [DecidableEq α]

variable (successors) in
/-- The loop over some nodes that follow a path, each of which is explored in turn. -/
inductive Searches : List α → List α → Search α → Search α → Prop where
  | nil (path : List α) (search : Search α) : Searches [] path search search
  | stopped {node : α} {rest path : List α} {search result : Search α} (found : search.cycle ≠ none)
      (onward : Searches rest path search result) : Searches (node :: rest) path search result
  | closes {node : α} {rest path : List α} {search result : Search α} (quiet : search.cycle = none)
      (entered : search.mark node = some .visiting)
      (onward : Searches rest path { search with cycle := some (path ++ [node]) } result) :
      Searches (node :: rest) path search result
  | again {node : α} {rest path : List α} {search result : Search α} (quiet : search.cycle = none)
      (finished : search.mark node = some .done) (onward : Searches rest path search result) :
      Searches (node :: rest) path search result
  | enter {node : α} {rest path : List α} {search explored result : Search α}
      (quiet : search.cycle = none) (fresh : search.mark node = none)
      (below : Searches (successors node) (path ++ [node])
        { search with mark := Function.update search.mark node (some .visiting) } explored)
      (onward : Searches rest path
        { explored with mark := Function.update explored.mark node (some .done) } result) :
      Searches (node :: rest) path search result

/-- The calls determine the state. -/
theorem Searches.unique {nexts path : List α} {search result other : Search α}
    (first : Searches successors nexts path search result)
    (second : Searches successors nexts path search other) : result = other := by
  induction first generalizing other with
  | nil => cases second; rfl
  | stopped found _ ih =>
      cases second with
      | stopped _ onward => exact ih onward
      | closes quiet _ _ => exact absurd quiet found
      | again quiet _ _ => exact absurd quiet found
      | enter quiet _ _ _ => exact absurd quiet found
  | closes quiet entered _ ih =>
      cases second with
      | stopped found _ => exact absurd quiet found
      | closes _ _ onward => exact ih onward
      | again _ finished _ => simp [entered] at finished
      | enter _ fresh _ _ => simp [entered] at fresh
  | again quiet finished _ ih =>
      cases second with
      | stopped found _ => exact absurd quiet found
      | closes _ entered _ => simp [entered] at finished
      | again _ _ onward => exact ih onward
      | enter _ fresh _ _ => simp [finished] at fresh
  | enter quiet fresh _ _ belowIH onwardIH =>
      cases second with
      | stopped found _ => exact absurd quiet found
      | closes _ entered _ => simp [entered] at fresh
      | again _ finished _ => simp [finished] at fresh
      | enter _ _ below onward =>
          cases belowIH below
          exact onwardIH onward

theorem Searches.append {node : α} {rest path : List α} {search middle result : Search α}
    (first : Searches successors [node] path search middle)
    (second : Searches successors rest path middle result) :
    Searches successors (node :: rest) path search result := by
  cases first with
  | stopped found onward =>
      cases onward
      exact .stopped found second
  | closes quiet entered onward =>
      cases onward
      exact .closes quiet entered second
  | again quiet finished onward =>
      cases onward
      exact .again quiet finished second
  | enter quiet fresh below onward =>
      cases onward
      exact .enter quiet fresh below second

/-- A node that has a colour keeps one. -/
theorem Searches.marked {nexts path : List α} {search result : Search α}
    (searches : Searches successors nexts path search result) {other : α}
    (coloured : search.mark other ≠ none) : result.mark other ≠ none := by
  induction searches with
  | nil => exact coloured
  | stopped _ _ ih => exact ih coloured
  | closes _ _ _ ih => exact ih coloured
  | again _ _ _ ih => exact ih coloured
  | @enter node _ _ _ _ _ _ fresh _ _ belowIH onwardIH =>
      have different : other ≠ node := by
        intro same
        exact coloured (same ▸ fresh)
      simp only [Function.update_of_ne different] at belowIH onwardIH
      exact onwardIH (belowIH coloured)

theorem Searches.unmarked_le {nexts path : List α} {search result : Search α}
    (searches : Searches successors nexts path search result) (region : Region successors) :
    unmarked successors region result ≤ unmarked successors region search := by
  apply Finset.card_le_card
  intro node member
  rw [Finset.mem_filter] at member ⊢
  refine ⟨member.1, ?_⟩
  by_contra coloured
  exact searches.marked coloured member.2

/-- With more fuel than unmarked nodes `walk` makes all its calls. -/
theorem walk_searches (region : Region successors) (fuel : Nat) (node : α) (path : List α)
    (search : Search α) (inside : node ∈ region.nodes)
    (enough : unmarked successors region search < fuel) :
    Searches successors [node] path search (walk successors fuel node path search) := by
  induction fuel generalizing node path search with
  | zero => exact absurd enough (Nat.not_lt_zero _)
  | succ fuel ih =>
      have loop : ∀ (nexts path : List α) (search : Search α),
          (∀ next ∈ nexts, next ∈ region.nodes) → unmarked successors region search < fuel →
          Searches successors nexts path search
            (nexts.foldl (fun search next => walk successors fuel next path search) search) := by
        intro nexts
        induction nexts with
        | nil => exact fun path search _ _ => .nil path search
        | cons next rest loopIH =>
            intro path search inside enough
            have first := ih next path search (inside next List.mem_cons_self) enough
            apply first.append
            apply loopIH
            · intro other member
              exact inside other (List.mem_cons_of_mem next member)
            · exact Nat.lt_of_le_of_lt (first.unmarked_le region) enough
      rw [walk]
      split
      next found => exact .stopped (Option.isSome_iff_ne_none.mp found) (.nil _ _)
      next quiet =>
        have noCycle : search.cycle = none := by simpa using quiet
        cases mark : search.mark node with
        | some colour =>
            cases colour with
            | visiting => exact .closes noCycle mark (.nil _ _)
            | done => exact .again noCycle mark (.nil _ _)
        | none =>
            apply Searches.enter noCycle mark _ (.nil _ _)
            apply loop _ _ _ (region.closed node inside)
            have smaller := unmarked_enter successors region inside mark
            omega

/-- The sweep over the roots makes all its calls. -/
theorem findCycle_searches (region : Region successors) {fuel : Nat} {roots : List α}
    (inside : ∀ root ∈ roots, root ∈ region.nodes) (enough : region.nodes.card < fuel) :
    ∃ result, Searches successors roots [] .start result ∧
      findCycle successors fuel roots = result.cycle := by
  have sweep : ∀ (roots : List α) (search : Search α),
      (∀ root ∈ roots, root ∈ region.nodes) →
      Searches successors roots [] search
        (roots.foldl (fun search root => walk successors fuel root [] search) search) := by
    intro roots
    induction roots with
    | nil => exact fun search _ => .nil [] search
    | cons root rest ih =>
        intro search inside
        have few : unmarked successors region search < fuel :=
          Nat.lt_of_le_of_lt (Finset.card_filter_le _ _) enough
        have first := walk_searches region fuel root [] search (inside root List.mem_cons_self) few
        apply first.append
        apply ih
        intro other member
        exact inside other (List.mem_cons_of_mem root member)
  exact ⟨_, sweep roots .start inside, rfl⟩

/-- Where the calls stand: the path leads to each next node and holds all nodes that are
being explored, and what was found is a closed walk. -/
structure Underway (successors : α → List α) (path nexts : List α) (search : Search α) :
    Prop where
  leads : ∀ next ∈ nexts, (path ++ [next]).IsChain (Edge successors)
  onPath : ∀ node, search.mark node = some .visiting → node ∈ path
  closed : ∀ walk, search.cycle = some walk → ClosedWalk successors walk

/-- What is found is a closed walk, and no node is left being explored. -/
theorem Searches.sound {nexts path : List α} {search result : Search α}
    (searches : Searches successors nexts path search result)
    (underway : Underway successors path nexts search) :
    (∀ walk, result.cycle = some walk → ClosedWalk successors walk) ∧
      ∀ node, result.mark node = some .visiting → search.mark node = some .visiting := by
  induction searches with
  | nil => exact ⟨underway.closed, fun _ entered => entered⟩
  | stopped _ _ ih =>
      apply ih
      refine { underway with leads := ?_ }
      intro next member
      exact underway.leads next (List.mem_cons_of_mem _ member)
  | @closes node rest path search _ _ entered _ ih =>
      apply ih
      constructor
      · intro next member
        exact underway.leads next (List.mem_cons_of_mem _ member)
      · exact underway.onPath
      · intro walk isFound
        rw [Option.some.injEq] at isFound
        rw [← isFound]
        exact ⟨underway.leads node List.mem_cons_self, path, node, rfl,
          underway.onPath node entered⟩
  | again _ _ _ ih =>
      apply ih
      refine { underway with leads := ?_ }
      intro next member
      exact underway.leads next (List.mem_cons_of_mem _ member)
  | @enter node rest path search explored result quiet fresh _ _ belowIH onwardIH =>
      have entered : Underway successors (path ++ [node]) (successors node)
          { search with mark := Function.update search.mark node (some .visiting) } := by
        constructor
        · intro next edge
          rw [List.append_assoc]
          apply List.isChain_append_cons_cons.mpr
          exact ⟨underway.leads node List.mem_cons_self, edge, List.isChain_singleton next⟩
        · intro other visiting
          by_cases isNode : other = node
          · simp [isNode]
          · simp only [Function.update_of_ne isNode] at visiting
            exact List.mem_append_left _ (underway.onPath other visiting)
        · exact underway.closed
      have below := belowIH entered
      have left : ∀ other, Function.update explored.mark node (some .done) other = some .visiting →
          search.mark other = some .visiting := by
        intro other visiting
        have different : other ≠ node := by
          intro same
          simp [same] at visiting
        rw [Function.update_of_ne different] at visiting
        have earlier := below.2 other visiting
        simpa only [Function.update_of_ne different] using earlier
      have onward := onwardIH {
        leads := fun next member => underway.leads next (List.mem_cons_of_mem _ member)
        onPath := fun other visiting => underway.onPath other (left other visiting)
        closed := below.1 }
      exact ⟨onward.1, fun other visiting => left other (onward.2 other visiting)⟩

/-- What a search from the start finds is a closed walk. -/
theorem Searches.closedWalk {roots : List α} {result : Search α}
    (searches : Searches successors roots [] .start result) {walk : List α}
    (found : result.cycle = some walk) : ClosedWalk successors walk := by
  have underway : Underway successors [] roots .start := by
    constructor
    · intro next _
      exact List.isChain_singleton next
    · intro node visiting
      cases visiting
    · intro walk isFound
      cases isFound
  exact (searches.sound underway).1 walk found

end Colouring

/-- A closed walk contains a cycle. -/
theorem ClosedWalk.exists_cycle {walk : List α} (closed : ClosedWalk successors walk) :
    ∃ node, ProperlyReaches successors node node := by
  rcases closed with ⟨chain, front, last, rfl, member⟩
  rcases List.append_of_mem member with ⟨before, after, rfl⟩
  refine ⟨last, ?_⟩
  rw [List.append_assoc, List.cons_append] at chain
  have loop : (last :: (after ++ [last])).IsChain (Edge successors) := chain.right_of_append
  cases after with
  | nil => exact .single (List.isChain_cons_cons.mp loop).1
  | cons next after =>
      rw [List.cons_append, List.isChain_cons_cons] at loop
      have path : ∀ (middle : List α) (first : α),
          (first :: (middle ++ [last])).IsChain (Edge successors) →
            ProperlyReaches successors first last := by
        intro middle
        induction middle with
        | nil =>
            intro first chain
            exact .single (List.isChain_cons_cons.mp chain).1
        | cons second middle ih =>
            intro first chain
            rw [List.cons_append, List.isChain_cons_cons] at chain
            exact .head chain.1 (ih second chain.2)
      exact .head loop.1 (path after next loop.2)

end Foundation.Graph
