import Mathlib.Data.Finset.Card
import Mathlib.Logic.Relation

/-!
# Depth-first search over a successor function

A graph is given by the successor list of each node.  `visit` collects the nodes
reachable from a start node in one shared list of visited nodes; `walk` colours
the nodes and reports the first closed walk it runs into.

Both searches carry fuel for the depth of the recursion.  A finite set of nodes
that is closed under successors bounds that depth, because every level of either
recursion takes one more node of the set out of the unvisited ones.
-/

namespace Foundation.Graph

variable {α : Type*} (successors : α → List α)

/-- One step along the graph. -/
def Edge (node next : α) : Prop := next ∈ successors node

/-- Any number of steps along the graph. -/
abbrev Reaches : α → α → Prop := Relation.ReflTransGen (Edge successors)

/-- At least one step along the graph. -/
abbrev ProperlyReaches : α → α → Prop := Relation.TransGen (Edge successors)

/-- No node reaches itself in one or more steps. -/
def Acyclic : Prop := ∀ node, ¬ ProperlyReaches successors node node

/-- A finite set of nodes that no edge leaves. -/
structure Region where
  nodes : Finset α
  closed : ∀ node ∈ nodes, ∀ next ∈ successors node, next ∈ nodes

/-- Adding a link closes no cycle when its target does not reach its source. -/
theorem Acyclic.oneMoreEdge {successors larger : α → List α} {source target : α}
    (acyclic : Acyclic successors) (noWayBack : ¬ Reaches successors target source)
    (cases_edge : ∀ node next, Edge larger node next →
      Edge successors node next ∨ node = source ∧ next = target) : Acyclic larger := by
  -- a path in the larger graph either avoids the new link or can be cut at its last use
  have split : ∀ {first last}, ProperlyReaches larger first last →
      ProperlyReaches successors first last ∨
        Reaches successors first source ∧ Reaches successors target last := by
    intro first last path
    induction path with
    | single edge =>
        rcases cases_edge _ _ edge with old | ⟨rfl, rfl⟩
        · exact Or.inl (.single old)
        · exact Or.inr ⟨.refl, .refl⟩
    | tail _ edge ih =>
        rcases cases_edge _ _ edge with old | ⟨rfl, rfl⟩
        · exact ih.imp (fun path => path.tail old) (fun paths => ⟨paths.1, paths.2.tail old⟩)
        · cases ih with
          | inl path => exact Or.inr ⟨path.to_reflTransGen, .refl⟩
          | inr paths => exact absurd paths.2 noWayBack
  intro node circle
  cases split circle with
  | inl old => exact acyclic node old
  | inr paths => exact noWayBack (paths.2.trans paths.1)

/-! ## Graphs that mirror each other -/

section Mirror

variable {β : Type*} {successors} {images : β → List β} {image : α → β} (inside : α → Prop)
  (stays : ∀ node, inside node → ∀ next, Edge successors node next → inside next)
  (mirrors : ∀ node, inside node → ∀ other,
    Edge images (image node) other ↔ ∃ next, Edge successors node next ∧ other = image next)
include stays mirrors

/-- If the edges at the images of some nodes are the images of their edges, the same
holds of paths. -/
theorem reaches_image_iff {node : α} (here : inside node) (other : β) :
    Reaches images (image node) other ↔
      ∃ last, Reaches successors node last ∧ inside last ∧ other = image last := by
  constructor
  · intro path
    induction path with
    | refl => exact ⟨node, .refl, here, rfl⟩
    | tail _ edge ih =>
        rcases ih with ⟨middle, path, insideMiddle, rfl⟩
        rcases (mirrors middle insideMiddle _).mp edge with ⟨last, step, rfl⟩
        exact ⟨last, path.tail step, stays middle insideMiddle last step, rfl⟩
  · intro path
    rcases path with ⟨last, path, _, rfl⟩
    induction path using Relation.ReflTransGen.head_induction_on with
    | refl => exact .refl
    | head edge _ ih =>
        exact .head ((mirrors _ here _).mpr ⟨_, edge, rfl⟩) (ih (stays _ here _ edge))

theorem properlyReaches_image {node : α} (here : inside node) {other : β}
    (path : ProperlyReaches images (image node) other) :
    ∃ last, ProperlyReaches successors node last ∧ inside last ∧ other = image last := by
  rcases Relation.TransGen.head'_iff.mp path with ⟨middle, edge, rest⟩
  rcases (mirrors node here middle).mp edge with ⟨next, step, rfl⟩
  rcases (reaches_image_iff inside stays mirrors (stays node here next step) other).mp rest with
    ⟨last, onward, insideLast, rfl⟩
  exact ⟨last, Relation.TransGen.head' step onward, insideLast, rfl⟩

end Mirror

/-! ## Collecting the reachable nodes -/

/-- What a traversal from `starts` adds to the nodes it has already seen. -/
structure Visited (starts seen result : List α) : Prop where
  keeps : ∀ node ∈ seen, node ∈ result
  covers : ∀ node ∈ starts, node ∈ result
  sound : ∀ node ∈ result, node ∈ seen ∨ ∃ start ∈ starts, Reaches successors start node
  closed : ∀ node ∈ result, node ∉ seen → ∀ next ∈ successors node, next ∈ result
  nodup : seen.Nodup → result.Nodup

namespace Visited

variable {successors}

theorem nothing (seen : List α) : Visited successors [] seen seen where
  keeps _ member := member
  covers _ member := absurd member List.not_mem_nil
  sound _ member := Or.inl member
  closed _ member fresh := absurd member fresh
  nodup unique := unique

/-- A start that was seen before adds nothing. -/
theorem again {node : α} {seen : List α} (known : node ∈ seen) :
    Visited successors [node] seen seen where
  keeps _ member := member
  covers start member := by
    rw [List.mem_singleton.mp member]
    exact known
  sound _ member := Or.inl member
  closed _ member fresh := absurd member fresh
  nodup unique := unique

/-- Traversals run one after the other add what both of them reach. -/
theorem append {node : α} {rest seen middle result : List α}
    (first : Visited successors [node] seen middle)
    (second : Visited successors rest middle result) :
    Visited successors (node :: rest) seen result where
  keeps other member := second.keeps other (first.keeps other member)
  covers other member := by
    rcases List.mem_cons.mp member with rfl | inRest
    · exact second.keeps other (first.covers other (List.mem_singleton_self other))
    · exact second.covers other inRest
  sound other member := by
    rcases second.sound other member with inMiddle | ⟨start, inRest, path⟩
    · rcases first.sound other inMiddle with known | ⟨start, isNode, path⟩
      · exact Or.inl known
      · rw [List.mem_singleton.mp isNode] at path
        exact Or.inr ⟨node, List.mem_cons_self, path⟩
    · exact Or.inr ⟨start, List.mem_cons_of_mem node inRest, path⟩
  closed other member fresh next edge := by
    by_cases inMiddle : other ∈ middle
    · exact second.keeps next (first.closed other inMiddle fresh next edge)
    · exact second.closed other member inMiddle next edge
  nodup unique := second.nodup (first.nodup unique)

/-- Entering a fresh node and then traversing its successors traverses the node. -/
theorem enter {node : α} {seen result : List α} (fresh : node ∉ seen)
    (rest : Visited successors (successors node) (seen ++ [node]) result) :
    Visited successors [node] seen result where
  keeps other member := rest.keeps other (List.mem_append_left [node] member)
  covers other member := by
    rw [List.mem_singleton.mp member]
    exact rest.keeps node (by simp)
  sound other member := by
    rcases rest.sound other member with known | ⟨next, edge, path⟩
    · rcases List.mem_append.mp known with earlier | isNode
      · exact Or.inl earlier
      · rw [List.mem_singleton.mp isNode]
        exact Or.inr ⟨node, List.mem_singleton_self node, .refl⟩
    · exact Or.inr ⟨node, List.mem_singleton_self node, .head edge path⟩
  closed other member unseen next edge := by
    by_cases isNode : other = node
    · subst isNode
      exact rest.covers next edge
    · exact rest.closed other member (by simp [unseen, isNode]) next edge
  nodup unique := by
    refine rest.nodup (List.nodup_append.mpr ⟨unique, List.nodup_singleton node, ?_⟩)
    intro other member last isLast equal
    rw [List.mem_singleton.mp isLast] at equal
    exact fresh (equal ▸ member)

end Visited

section Traversal

variable [DecidableEq α]

/-- Add `node` and everything reachable from it to the visited nodes, in the
order in which a recursive traversal first meets them. -/
def visit : Nat → α → List α → List α
  | 0, _, seen => seen
  | fuel + 1, node, seen =>
      if node ∈ seen then seen
      else
        (successors node).foldl (fun seen next => visit fuel next seen)
          (seen ++ [node])

/-- Nodes of the region that a traversal may still enter. -/
def unseen (region : Region successors) (seen : List α) : Nat :=
  (region.nodes.filter (· ∉ seen)).card

theorem unseen_anti (region : Region successors) {seen result : List α}
    (keeps : ∀ node ∈ seen, node ∈ result) :
    unseen successors region result ≤ unseen successors region seen := by
  apply Finset.card_le_card
  intro node member
  rw [Finset.mem_filter] at member ⊢
  exact ⟨member.1, fun known => member.2 (keeps node known)⟩

theorem unseen_enter (region : Region successors) {seen : List α} {node : α}
    (inside : node ∈ region.nodes) (fresh : node ∉ seen) :
    unseen successors region (seen ++ [node]) < unseen successors region seen := by
  apply Finset.card_lt_card
  refine (Finset.ssubset_iff_of_subset ?_).mpr ⟨node, ?_, ?_⟩
  · intro other member
    rw [Finset.mem_filter] at member ⊢
    exact ⟨member.1, fun known => member.2 (List.mem_append_left [node] known)⟩
  · exact Finset.mem_filter.mpr ⟨inside, fresh⟩
  · simp

/-- With more fuel than unseen nodes, one call of `visit` is a full traversal.
The induction is on the fuel; a nested induction runs the loop over successors. -/
theorem visit_visited (region : Region successors) (fuel : Nat) (node : α)
    (seen : List α) (inside : node ∈ region.nodes)
    (enough : unseen successors region seen < fuel) :
    Visited successors [node] seen (visit successors fuel node seen) := by
  induction fuel generalizing node seen with
  | zero => exact absurd enough (Nat.not_lt_zero _)
  | succ fuel ih =>
      have loop : ∀ (nexts seen : List α), (∀ next ∈ nexts, next ∈ region.nodes) →
          unseen successors region seen < fuel →
          Visited successors nexts seen
            (nexts.foldl (fun seen next => visit successors fuel next seen) seen) := by
        intro nexts
        induction nexts with
        | nil => exact fun seen _ _ => Visited.nothing seen
        | cons next rest loopIH =>
            intro seen inside enough
            have first := ih next seen (inside next List.mem_cons_self) enough
            refine first.append (loopIH _ (fun other member =>
              inside other (List.mem_cons_of_mem next member)) ?_)
            exact Nat.lt_of_le_of_lt (unseen_anti successors region first.keeps) enough
      rw [visit]
      split
      next known => exact Visited.again known
      next fresh =>
        refine Visited.enter fresh (loop _ _ (region.closed node inside) ?_)
        have smaller := unseen_enter successors region inside fresh
        omega

/-- A traversal that starts with nothing seen lists exactly the reachable nodes. -/
theorem mem_visit_iff (region : Region successors) {fuel : Nat} {node : α}
    (inside : node ∈ region.nodes) (enough : region.nodes.card < fuel) (other : α) :
    other ∈ visit successors fuel node [] ↔ Reaches successors node other := by
  have visited : Visited successors [node] [] (visit successors fuel node []) := by
    apply visit_visited successors region fuel node [] inside
    exact Nat.lt_of_le_of_lt (Finset.card_filter_le _ _) enough
  constructor
  · intro member
    rcases visited.sound other member with impossible | ⟨start, isNode, path⟩
    · exact absurd impossible List.not_mem_nil
    · rw [List.mem_singleton.mp isNode] at path
      exact path
  · intro path
    induction path with
    | refl => exact visited.covers node (List.mem_singleton_self node)
    | tail _ edge ih => exact visited.closed _ ih List.not_mem_nil _ edge

theorem visit_nodup (region : Region successors) {fuel : Nat} {node : α}
    (inside : node ∈ region.nodes) (enough : region.nodes.card < fuel) :
    (visit successors fuel node []).Nodup := by
  have visited := visit_visited successors region fuel node [] inside
    (Nat.lt_of_le_of_lt (Finset.card_filter_le _ _) enough)
  exact visited.nodup List.nodup_nil

end Traversal

/-! ## Looking for a closed walk -/

/-- Colour of a node that the cycle search has entered. -/
inductive Mark where
  | visiting
  | done
  deriving DecidableEq, Repr

/-- State shared by all calls of the cycle search. -/
structure Search (α : Type*) where
  mark : α → Option Mark
  cycle : Option (List α)

/-- Nothing entered, no closed walk found. -/
def Search.start : Search α where
  mark _ := none
  cycle := none

/-- Everything below the finished nodes is finished and free of cycles. -/
structure Settled (search : Search α) : Prop where
  closed : ∀ node, search.mark node = some .done →
    ∀ next ∈ successors node, search.mark next = some .done
  acyclic : ∀ node, search.mark node = some .done → ¬ ProperlyReaches successors node node

/-- What a cycle search that found nothing has done to the colours. -/
structure Explored (starts : List α) (before after : Search α) : Prop where
  quiet : before.cycle = none
  finishes : ∀ node ∈ starts, after.mark node = some .done
  done : ∀ node, before.mark node = some .done → after.mark node = some .done
  visiting : ∀ node, after.mark node = some .visiting ↔ before.mark node = some .visiting
  settled : Settled successors before → Settled successors after

namespace Explored

variable {successors}

theorem nothing {search : Search α} (quiet : search.cycle = none) :
    Explored successors [] search search where
  quiet := quiet
  finishes _ member := absurd member List.not_mem_nil
  done _ finished := finished
  visiting _ := Iff.rfl
  settled invariant := invariant

theorem append {node : α} {rest : List α} {before middle after : Search α}
    (first : Explored successors [node] before middle)
    (second : Explored successors rest middle after) :
    Explored successors (node :: rest) before after where
  quiet := first.quiet
  finishes other member := by
    rcases List.mem_cons.mp member with rfl | inRest
    · exact second.done other (first.finishes other (List.mem_singleton_self other))
    · exact second.finishes other inRest
  done other finished := second.done other (first.done other finished)
  visiting other := (second.visiting other).trans (first.visiting other)
  settled invariant := second.settled (first.settled invariant)

/-- A finished node was already done, or nothing is left to do. -/
theorem again {node : α} {search : Search α} (quiet : search.cycle = none)
    (finished : search.mark node = some .done) :
    Explored successors [node] search search where
  quiet := quiet
  finishes other member := by
    rw [List.mem_singleton.mp member]
    exact finished
  done _ earlier := earlier
  visiting _ := Iff.rfl
  settled invariant := invariant

end Explored

/-- Nodes of the region that the cycle search may still enter. -/
def unmarked (region : Region successors) (search : Search α) : Nat :=
  (region.nodes.filter (search.mark · = none)).card

theorem unmarked_explored (region : Region successors) {starts : List α}
    {before after : Search α} (explored : Explored successors starts before after) :
    unmarked successors region after ≤ unmarked successors region before := by
  apply Finset.card_le_card
  intro node member
  rw [Finset.mem_filter] at member ⊢
  refine ⟨member.1, ?_⟩
  cases mark : before.mark node with
  | none => rfl
  | some colour =>
      cases colour with
      | visiting => simp [(explored.visiting node).mpr mark] at member
      | done => simp [explored.done node mark] at member

section Colouring

variable [DecidableEq α]

/-- Explore `node`, reached along `path`. Meeting a node that is still being
explored closes a walk; from then on every call returns at once. -/
def walk : Nat → α → List α → Search α → Search α
  | 0, _, _, search => search
  | fuel + 1, node, path, search =>
      if search.cycle.isSome then search
      else
        match search.mark node with
        | some .visiting => { search with cycle := some (path ++ [node]) }
        | some .done => search
        | none =>
            let entered :=
              { search with mark := Function.update search.mark node (some .visiting) }
            let explored := (successors node).foldl
              (fun search next => walk fuel next (path ++ [node]) search) entered
            { explored with mark := Function.update explored.mark node (some .done) }

/-- Marking `node`, exploring its successors and finishing it explores `node`.
A cycle through the newly finished node would have to leave the finished nodes,
which are closed under successors and did not contain `node` before. -/
theorem Explored.enter {successors : α → List α} {node : α} {before explored : Search α}
    (fresh : before.mark node = none)
    (rest : Explored successors (successors node)
      { before with mark := Function.update before.mark node (some .visiting) } explored) :
    Explored successors [node] before
      { explored with mark := Function.update explored.mark node (some .done) } where
  quiet := rest.quiet
  finishes other member := by
    rw [List.mem_singleton.mp member]
    exact Function.update_self ..
  done other earlier := by
    have different : other ≠ node := by
      rintro rfl
      simp [fresh] at earlier
    have kept := rest.done other
    simp only [Function.update_of_ne different] at kept ⊢
    exact kept earlier
  visiting other := by
    by_cases isNode : other = node
    · subst isNode
      simp [fresh]
    · have same := rest.visiting other
      simp only [Function.update_of_ne isNode] at same ⊢
      exact same
  settled invariant := by
    have unfinished : explored.mark node ≠ some .done := by
      have visiting : explored.mark node = some .visiting :=
        (rest.visiting node).mpr (Function.update_self ..)
      simp [visiting]
    have entered : Settled successors
        { before with mark := Function.update before.mark node (some .visiting) } := by
      have different : ∀ other, Function.update before.mark node (some .visiting) other =
          some .done → other ≠ node := by
        rintro other finished rfl
        simp at finished
      constructor
      · intro other finished next edge
        have earlier := invariant.closed other (by
          simpa [Function.update_of_ne (different other finished)] using finished) next edge
        have nextDifferent : next ≠ node := by
          rintro rfl
          simp [fresh] at earlier
        simpa [Function.update_of_ne nextDifferent] using earlier
      · intro other finished
        exact invariant.acyclic other (by
          simpa [Function.update_of_ne (different other finished)] using finished)
    have settled := rest.settled entered
    have stays : ∀ {start other}, explored.mark start = some .done →
        Reaches successors start other → explored.mark other = some .done := by
      intro start other finished path
      induction path with
      | refl => exact finished
      | tail _ edge ih => exact settled.closed _ ih _ edge
    constructor
    · intro other finished next edge
      by_cases nextIsNode : next = node
      · simp [nextIsNode]
      · by_cases isNode : other = node
        · subst isNode
          simpa [Function.update_of_ne nextIsNode] using rest.finishes next edge
        · simp only [Function.update_of_ne isNode] at finished
          simpa [Function.update_of_ne nextIsNode] using
            settled.closed other finished next edge
    · intro other finished cycle
      by_cases isNode : other = node
      · subst isNode
        obtain ⟨next, edge, path⟩ := Relation.TransGen.head'_iff.mp cycle
        exact unfinished (stays (rest.finishes next edge) path)
      · simp only [Function.update_of_ne isNode] at finished
        exact settled.acyclic other finished cycle

/-- A search that has found a closed walk is never changed again. -/
theorem walk_of_cycle {search : Search α} (found : search.cycle ≠ none) (fuel : Nat)
    (node : α) (path : List α) : walk successors fuel node path search = search := by
  cases fuel with
  | zero => rfl
  | succ fuel =>
      rw [walk, if_pos (Option.isSome_iff_ne_none.mpr found)]

theorem foldl_walk_of_cycle {search : Search α} (found : search.cycle ≠ none) (fuel : Nat)
    (path nexts : List α) :
    nexts.foldl (fun search next => walk successors fuel next path search) search =
      search := by
  induction nexts with
  | nil => rfl
  | cons next rest ih =>
      rw [List.foldl_cons, walk_of_cycle successors found]
      exact ih

theorem unmarked_enter (region : Region successors) {search : Search α} {node : α}
    (inside : node ∈ region.nodes) (fresh : search.mark node = none) :
    unmarked successors region
        { search with mark := Function.update search.mark node (some .visiting) } <
      unmarked successors region search := by
  apply Finset.card_lt_card
  refine (Finset.ssubset_iff_of_subset ?_).mpr ⟨node, ?_, ?_⟩
  · intro other member
    rw [Finset.mem_filter] at member ⊢
    refine ⟨member.1, ?_⟩
    by_cases isNode : other = node
    · rw [isNode]
      exact fresh
    · simpa [Function.update_of_ne isNode] using member.2
  · exact Finset.mem_filter.mpr ⟨inside, fresh⟩
  · simp

/-- With more fuel than unmarked nodes, a call that reports no closed walk has
explored its node completely. The inductions are those of `visit_visited`. -/
theorem walk_explored (region : Region successors) (fuel : Nat) (node : α)
    (path : List α) (search : Search α) (inside : node ∈ region.nodes)
    (enough : unmarked successors region search < fuel)
    (quiet : (walk successors fuel node path search).cycle = none) :
    Explored successors [node] search (walk successors fuel node path search) := by
  induction fuel generalizing node path search with
  | zero => exact absurd enough (Nat.not_lt_zero _)
  | succ fuel ih =>
      have before : search.cycle = none := by
        by_contra found
        rw [walk_of_cycle successors found] at quiet
        exact found quiet
      have loop : ∀ (nexts path : List α) (search : Search α),
          (∀ next ∈ nexts, next ∈ region.nodes) →
          unmarked successors region search < fuel →
          (nexts.foldl (fun search next => walk successors fuel next path search)
            search).cycle = none →
          Explored successors nexts search
            (nexts.foldl (fun search next => walk successors fuel next path search)
              search) := by
        intro nexts
        induction nexts with
        | nil => exact fun _ _ _ _ quiet => Explored.nothing quiet
        | cons next rest loopIH =>
            intro path search inside enough quiet
            rw [List.foldl_cons] at quiet ⊢
            have middle : (walk successors fuel next path search).cycle = none := by
              by_contra found
              rw [foldl_walk_of_cycle successors found] at quiet
              exact found quiet
            have first := ih next path search (inside next List.mem_cons_self) enough middle
            refine first.append (loopIH path _ (fun other member =>
              inside other (List.mem_cons_of_mem next member)) ?_ quiet)
            exact Nat.lt_of_le_of_lt (unmarked_explored successors region first) enough
      rw [walk, if_neg (by simp [before])] at quiet ⊢
      cases mark : search.mark node with
      | some colour =>
          cases colour with
          | visiting => simp [mark] at quiet
          | done => exact Explored.again before mark
      | none =>
          simp only [mark] at quiet ⊢
          refine Explored.enter mark (loop _ _ _ (region.closed node inside) ?_ quiet)
          have smaller := unmarked_enter successors region inside mark
          omega

/-- Run the cycle search from every root in turn. -/
def findCycle (fuel : Nat) (roots : List α) : Option (List α) :=
  (roots.foldl (fun search root => walk successors fuel root [] search) .start).cycle

/-- When the search reports nothing, no root lies on a cycle. -/
theorem findCycle_none (region : Region successors) {fuel : Nat} {roots : List α}
    (inside : ∀ root ∈ roots, root ∈ region.nodes) (enough : region.nodes.card < fuel)
    (quiet : findCycle successors fuel roots = none) :
    ∀ root ∈ roots, ¬ ProperlyReaches successors root root := by
  have sweep : ∀ (roots : List α) (search : Search α),
      (∀ root ∈ roots, root ∈ region.nodes) →
      (roots.foldl (fun search root => walk successors fuel root [] search)
        search).cycle = none →
      Explored successors roots search
        (roots.foldl (fun search root => walk successors fuel root [] search) search) := by
    intro roots
    induction roots with
    | nil => exact fun _ _ quiet => Explored.nothing quiet
    | cons root rest ih =>
        intro search inside quiet
        rw [List.foldl_cons] at quiet ⊢
        have middle : (walk successors fuel root [] search).cycle = none := by
          by_contra found
          rw [foldl_walk_of_cycle successors found] at quiet
          exact found quiet
        have first := walk_explored successors region fuel root [] search
          (inside root List.mem_cons_self)
          (Nat.lt_of_le_of_lt (Finset.card_filter_le _ _) enough) middle
        exact first.append (ih _ (fun other member =>
          inside other (List.mem_cons_of_mem root member)) quiet)
  have explored := sweep roots .start inside quiet
  have settled : Settled successors (Search.start : Search α) :=
    ⟨fun _ finished => by simp [Search.start] at finished,
      fun _ finished => by simp [Search.start] at finished⟩
  exact fun root member =>
    (explored.settled settled).acyclic root (explored.finishes root member)

/-- What a call leaves behind on a graph without cycles: nothing is reported, and the nodes
that are being explored are those of before. -/
structure Uneventful (before after : Search α) : Prop where
  quiet : after.cycle = none
  visiting : ∀ node, after.mark node = some .visiting ↔ before.mark node = some .visiting

omit [DecidableEq α] in
theorem Uneventful.trans {before middle after : Search α} (first : Uneventful before middle)
    (second : Uneventful middle after) : Uneventful before after :=
  ⟨second.quiet, fun node => (second.visiting node).trans (first.visiting node)⟩

/-- The nodes that are being explored lead to the current one, so meeting one of them would
close a cycle. -/
theorem walk_uneventful {successors : α → List α} (acyclic : Acyclic successors) (fuel : Nat)
    (node : α) (path : List α) (search : Search α) (quiet : search.cycle = none)
    (leads : ∀ other, search.mark other = some .visiting → ProperlyReaches successors other node) :
    Uneventful search (walk successors fuel node path search) := by
  induction fuel generalizing node path search with
  | zero => exact ⟨quiet, fun _ => Iff.rfl⟩
  | succ fuel ih =>
      have loop : ∀ (nexts path : List α) (search : Search α), search.cycle = none →
          (∀ next ∈ nexts, ∀ other, search.mark other = some .visiting →
            ProperlyReaches successors other next) →
          Uneventful search
            (nexts.foldl (fun search next => walk successors fuel next path search) search) := by
        intro nexts
        induction nexts with
        | nil => exact fun _ search quiet _ => ⟨quiet, fun _ => Iff.rfl⟩
        | cons next rest loopIH =>
            intro path search quiet leads
            rw [List.foldl_cons]
            have first := ih next path search quiet (leads next List.mem_cons_self)
            apply first.trans (loopIH path _ first.quiet _)
            intro later member other visiting
            exact leads later (List.mem_cons_of_mem next member) other
              ((first.visiting other).mp visiting)
      rw [walk, if_neg (by simp [quiet])]
      cases mark : search.mark node with
      | some colour =>
          cases colour with
          | visiting => exact absurd (leads node mark) (acyclic node)
          | done => exact ⟨quiet, fun _ => Iff.rfl⟩
      | none =>
          have below := loop (successors node) (path ++ [node])
            { search with mark := Function.update search.mark node (some .visiting) } quiet (by
              intro next edge other visiting
              by_cases isNode : other = node
              · rw [isNode]
                exact .single edge
              · simp only [Function.update_of_ne isNode] at visiting
                exact (leads other visiting).tail edge)
          refine ⟨below.quiet, ?_⟩
          intro other
          by_cases isNode : other = node
          · simp [isNode, mark]
          · have same := below.visiting other
            simp only [Function.update_of_ne isNode] at same ⊢
            exact same

/-- The search reports nothing on a graph without cycles, whatever its fuel. -/
theorem findCycle_of_acyclic {successors : α → List α} (acyclic : Acyclic successors) (fuel : Nat)
    (roots : List α) : findCycle successors fuel roots = none := by
  have sweep : ∀ (roots : List α) (search : Search α), search.cycle = none →
      (∀ node, search.mark node ≠ some .visiting) →
      (roots.foldl (fun search root => walk successors fuel root [] search) search).cycle =
        none := by
    intro roots
    induction roots with
    | nil => exact fun _ quiet _ => quiet
    | cons root rest ih =>
        intro search quiet idle
        have first := walk_uneventful acyclic fuel root [] search quiet
          fun other visiting => absurd visiting (idle other)
        exact ih _ first.quiet fun node visiting => idle node ((first.visiting node).mp visiting)
  exact sweep roots .start rfl fun node => by simp [Search.start]

end Colouring

end Foundation.Graph
