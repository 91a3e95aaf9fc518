import BelugaManager.Foundation.Graph
import Mathlib.Algebra.Order.BigOperators.Group.Finset
import Mathlib.Data.List.Chain
import Mathlib.Data.List.Infix

/-!
# Dropping back edges

An iterative depth-first search keeps the links it follows, except those that lead to a
node on its own stack.  What it keeps has no cycle, and every link it drops closes one.

The search reads the links of a node in order, so at any moment it has read a part of
them; the invariants speak about the links that are read.
-/

namespace Foundation.Graph

variable {α : Type*}

section Incoming

variable [DecidableEq α]

/-- Number of links from `nodes` to a node. -/
def incoming (nodes : Finset α) (links : α → List α) (node : α) : ℕ :=
  ∑ source ∈ nodes, (links source).count node

/-- One more link from `source`. -/
def addLink (links : α → List α) (source target : α) : α → List α :=
  Function.update links source (links source ++ [target])

theorem addLink_self (links : α → List α) (source target : α) :
    addLink links source target source = links source ++ [target] :=
  Function.update_self ..

theorem addLink_of_ne (links : α → List α) {source other : α} (target : α)
    (different : other ≠ source) : addLink links source target other = links other :=
  Function.update_of_ne different ..

theorem mem_addLink {links : α → List α} {source target node next : α} :
    next ∈ addLink links source target node ↔
      next ∈ links node ∨ node = source ∧ next = target := by
  by_cases isSource : node = source
  · subst isSource
    rw [addLink_self, List.mem_append, List.mem_singleton]
    simp
  · rw [addLink_of_ne links target isSource]
    simp [isSource]

theorem incoming_addLink {nodes : Finset α} {source : α} (inside : source ∈ nodes)
    (links : α → List α) (target node : α) :
    incoming nodes (addLink links source target) node =
      incoming nodes links node + if node = target then 1 else 0 := by
  unfold incoming
  rw [← Finset.add_sum_erase nodes _ inside, ← Finset.add_sum_erase nodes _ inside]
  have others : ∑ other ∈ nodes.erase source, (addLink links source target other).count node =
      ∑ other ∈ nodes.erase source, (links other).count node := by
    apply Finset.sum_congr rfl
    intro other member
    rw [addLink_of_ne links target (Finset.ne_of_mem_erase member)]
  have last : [target].count node = if node = target then 1 else 0 := by
    by_cases same : node = target
    · rw [if_pos same, same, List.count_singleton_self]
    · rw [if_neg same, List.count_eq_zero, List.mem_singleton]
      exact same
  rw [others, addLink_self, List.count_append, last]
  omega

end Incoming

/-! ## What is kept -/

section Retained

variable [DecidableEq α] (nodes : Finset α)

/-- `dag` and `indeg` after the links of `read` have been sorted into kept and dropped
ones.  All links between the same two nodes share one fate. -/
structure Retained (read dag : α → List α) (indeg : α → ℕ) : Prop where
  kept : ∀ node, dag node = (read node).filter (· ∈ dag node)
  closes : ∀ node, ∀ next ∈ read node, next ∉ dag node → Reaches dag next node
  acyclic : Acyclic dag
  counted : ∀ node, indeg node = incoming nodes dag node

variable {nodes} {read dag : α → List α} {indeg : α → ℕ} {source target : α}

theorem Retained.mem_read (retained : Retained nodes read dag indeg) {node next : α}
    (member : next ∈ dag node) : next ∈ read node := by
  rw [retained.kept node] at member
  exact List.mem_of_mem_filter member

/-- More links reach at least as much. -/
theorem reaches_addLink {first last : α} (path : Reaches dag first last) :
    Reaches (addLink dag source target) first last :=
  Relation.ReflTransGen.mono (fun _ _ edge => mem_addLink.mpr (Or.inl edge)) first last path

/-- A link that no path leads back along closes no cycle. -/
theorem acyclic_addLink (acyclic : Acyclic dag) (noWayBack : ¬ Reaches dag target source) :
    Acyclic (addLink dag source target) :=
  acyclic.oneMoreEdge noWayBack fun _ _ edge => mem_addLink.mp edge

theorem retained_nothing : Retained nodes (fun _ => []) (fun _ => []) fun _ => 0 where
  kept _ := rfl
  closes _ _ member := absurd member List.not_mem_nil
  acyclic node circle := by
    rcases Relation.TransGen.head'_iff.mp circle with ⟨_, edge, _⟩
    exact List.not_mem_nil edge
  counted node := by simp [incoming]

/-- A link is dropped. -/
theorem Retained.drop (retained : Retained nodes read dag indeg)
    (new : target ∉ dag source) (back : Reaches dag target source) :
    Retained nodes (addLink read source target) dag indeg where
  kept node := by
    by_cases isSource : node = source
    · subst isSource
      rw [addLink_self, List.filter_append, ← retained.kept node]
      simp [new]
    · rw [addLink_of_ne read target isSource]
      exact retained.kept node
  closes node next isRead notKept := by
    rcases mem_addLink.mp isRead with earlier | ⟨rfl, rfl⟩
    · exact retained.closes node next earlier notKept
    · exact back
  acyclic := retained.acyclic
  counted := retained.counted

/-- A link is kept. -/
theorem Retained.keep (retained : Retained nodes read dag indeg) (inside : source ∈ nodes)
    (noWayBack : ¬ Reaches dag target source) :
    Retained nodes (addLink read source target) (addLink dag source target)
      (Function.update indeg target (indeg target + 1)) where
  kept node := by
    by_cases isSource : node = source
    · subst isSource
      simp only [addLink_self, List.filter_append]
      -- an earlier link to the same target was not dropped
      have same : (read node).filter (· ∈ dag node ++ [target]) =
          (read node).filter (· ∈ dag node) := by
        apply List.filter_congr
        intro next isRead
        have kept : next = target → next ∈ dag node := by
          intro isTarget
          by_contra notKept
          exact noWayBack (isTarget ▸ retained.closes node next isRead notKept)
        simpa using kept
      rw [same, ← retained.kept node]
      simp
    · simp only [addLink_of_ne _ target isSource]
      exact retained.kept node
  closes node next isRead notKept := by
    have old : next ∉ dag node := fun member => notKept (mem_addLink.mpr (Or.inl member))
    rcases mem_addLink.mp isRead with earlier | added
    · exact reaches_addLink (retained.closes node next earlier old)
    · exact absurd (mem_addLink.mpr (Or.inr added)) notKept
  acyclic := acyclic_addLink retained.acyclic noWayBack
  counted node := by
    rw [incoming_addLink inside, ← retained.counted node]
    by_cases isTarget : node = target
    · subst isTarget
      simp
    · rw [Function.update_of_ne isTarget, if_neg isTarget, Nat.add_zero]

/-- In a graph without cycles nothing is dropped. -/
theorem Retained.keeps_all (retained : Retained nodes read dag indeg)
    (acyclic : Acyclic read) (node : α) : dag node = read node := by
  have all : ∀ next ∈ read node, next ∈ dag node := by
    intro next isRead
    by_contra notKept
    have back : Reaches read next node :=
      Relation.ReflTransGen.mono (fun _ _ edge => retained.mem_read edge) next node
        (retained.closes node next isRead notKept)
    exact acyclic node (Relation.TransGen.head' isRead back)
  rw [retained.kept node]
  exact List.filter_eq_self.mpr fun next isRead => by simpa using all next isRead

end Retained

/-! ## The search -/

inductive Visit where
  | unvisited
  | onStack
  | done
  deriving DecidableEq

/-- A node on the stack and the position of its next link. -/
structure Frame (α : Type*) where
  node : α
  next : ℕ

structure Descent (α : Type*) where
  /-- The topmost frame comes first. -/
  stack : List (Frame α)
  state : α → Visit
  dag : α → List α
  indeg : α → ℕ

namespace Descent

def start : Descent α where
  stack := []
  state _ := .unvisited
  dag _ := []
  indeg _ := 0

/-- The nodes on the stack. -/
def path (search : Descent α) : List α := search.stack.map Frame.node

section Run

variable [DecidableEq α] (out : α → List α)

def keep (search : Descent α) (source target : α) : Descent α where
  stack := search.stack
  state := search.state
  dag := addLink search.dag source target
  indeg := Function.update search.indeg target (search.indeg target + 1)

/-- One round: the topmost node reads its next link or, after its last one, is done. -/
def step (search : Descent α) : Descent α :=
  match search.stack with
  | [] => search
  | frame :: below =>
      match (out frame.node)[frame.next]? with
      | none =>
          { search with
            stack := below
            state := Function.update search.state frame.node .done }
      | some target =>
          let waiting := ⟨frame.node, frame.next + 1⟩ :: below
          match search.state target with
          | .onStack => { search with stack := waiting }
          | .done => { search.keep frame.node target with stack := waiting }
          | .unvisited =>
              { search.keep frame.node target with
                stack := ⟨target, 0⟩ :: waiting
                state := Function.update search.state target .onStack }

/-- Rounds until the stack is empty; `none` when the fuel runs out before that. -/
def run : ℕ → Descent α → Option (Descent α)
  | 0, search => if search.stack.isEmpty then some search else none
  | fuel + 1, search => if search.stack.isEmpty then some search else run fuel (search.step out)

/-- Search from one root. -/
def visitRoot (fuel : ℕ) (search : Descent α) (root : α) : Option (Descent α) :=
  match search.state root with
  | .unvisited =>
      run out fuel { search with
        stack := [⟨root, 0⟩]
        state := Function.update search.state root .onStack }
  | _ => some search

/-- Search from the roots in turn. -/
def sweep (fuel : ℕ) (roots : List α) : Option (Descent α) :=
  roots.foldlM (visitRoot out fuel) start

end Run

end Descent

section Progress

variable (out : α → List α) (nodes : Finset α)

/-- The part of each node's links that a search has read, by the state of the node. -/
structure Progress (stack : List (Frame α)) (state : α → Visit) (read : α → List α) : Prop where
  inside : ∀ node, state node ≠ .unvisited → node ∈ nodes
  distinct : (stack.map Frame.node).Nodup
  onStack : ∀ node, state node = .onStack ↔ node ∈ stack.map Frame.node
  unread : ∀ node, state node = .unvisited → read node = []
  partly : ∀ frame ∈ stack, read frame.node = (out frame.node).take frame.next
  wholly : ∀ node, state node = .done → read node = out node

/-- Number of links not read so far. -/
def unreadLinks (read : α → List α) : ℕ :=
  ∑ node ∈ nodes, ((out node).length - (read node).length)

variable {out} {nodes} {frame : Frame α} {below : List (Frame α)} {state : α → Visit}
  {read : α → List α}

namespace Progress

theorem topOnStack (progress : Progress out nodes (frame :: below) state read) :
    state frame.node = .onStack :=
  (progress.onStack frame.node).mpr List.mem_cons_self

theorem topInside (progress : Progress out nodes (frame :: below) state read) :
    frame.node ∈ nodes :=
  progress.inside frame.node (by simp [progress.topOnStack])

variable [DecidableEq α]

theorem unreadLinks_addLink (progress : Progress out nodes (frame :: below) state read)
    {target : α} (reads : (out frame.node)[frame.next]? = some target) :
    unreadLinks out nodes (addLink read frame.node target) + 1 = unreadLinks out nodes read := by
  have inside : frame.node ∈ nodes := progress.topInside
  have bound : frame.next < (out frame.node).length := by
    by_contra beyond
    rw [List.getElem?_eq_none (not_lt.mp beyond)] at reads
    cases reads
  have others : ∑ node ∈ nodes.erase frame.node,
        ((out node).length - (addLink read frame.node target node).length) =
      ∑ node ∈ nodes.erase frame.node, ((out node).length - (read node).length) := by
    apply Finset.sum_congr rfl
    intro node member
    rw [addLink_of_ne read target (Finset.ne_of_mem_erase member)]
  unfold unreadLinks
  rw [← Finset.add_sum_erase nodes _ inside, ← Finset.add_sum_erase nodes _ inside, others,
    addLink_self, List.length_append, progress.partly frame List.mem_cons_self, List.length_take]
  simp only [List.length_singleton]
  omega

/-- The topmost node reads its next link. -/
theorem advance (progress : Progress out nodes (frame :: below) state read) {target : α}
    (reads : (out frame.node)[frame.next]? = some target) :
    Progress out nodes (⟨frame.node, frame.next + 1⟩ :: below) state
      (addLink read frame.node target) where
  inside := progress.inside
  distinct := progress.distinct
  onStack := progress.onStack
  unread node isUnvisited := by
    have different : node ≠ frame.node := by
      intro isTop
      rw [isTop, progress.topOnStack] at isUnvisited
      cases isUnvisited
    rw [addLink_of_ne read target different]
    exact progress.unread node isUnvisited
  partly other member := by
    rcases List.mem_cons.mp member with rfl | isBelow
    · rw [addLink_self, progress.partly frame List.mem_cons_self, List.take_add_one, reads]
      rfl
    · have different : other.node ≠ frame.node := by
        intro isTop
        have fresh := (List.nodup_cons.mp progress.distinct).1
        exact fresh (isTop ▸ List.mem_map_of_mem isBelow)
      rw [addLink_of_ne read target different]
      exact progress.partly other (List.mem_cons_of_mem frame isBelow)
  wholly node isDone := by
    have different : node ≠ frame.node := by
      intro isTop
      rw [isTop, progress.topOnStack] at isDone
      cases isDone
    rw [addLink_of_ne read target different]
    exact progress.wholly node isDone

/-- An unvisited node comes onto the stack. -/
theorem enter {stack : List (Frame α)} (progress : Progress out nodes stack state read)
    {target : α} (inside : target ∈ nodes) (fresh : state target = .unvisited) :
    Progress out nodes (⟨target, 0⟩ :: stack) (Function.update state target .onStack) read := by
  have notThere : target ∉ stack.map Frame.node := by
    intro member
    rw [(progress.onStack target).mpr member] at fresh
    cases fresh
  constructor
  · intro node visited
    by_cases isTarget : node = target
    · exact isTarget ▸ inside
    · rw [Function.update_of_ne isTarget] at visited
      exact progress.inside node visited
  · exact List.nodup_cons.mpr ⟨notThere, progress.distinct⟩
  · intro node
    rw [List.map_cons, List.mem_cons]
    by_cases isTarget : node = target
    · simp [isTarget]
    · rw [Function.update_of_ne isTarget, progress.onStack]
      simp [isTarget]
  · intro node isUnvisited
    by_cases isTarget : node = target
    · rw [isTarget, Function.update_self] at isUnvisited
      cases isUnvisited
    · rw [Function.update_of_ne isTarget] at isUnvisited
      exact progress.unread node isUnvisited
  · intro frame member
    rcases List.mem_cons.mp member with rfl | old
    · exact progress.unread target fresh
    · exact progress.partly frame old
  · intro node isDone
    by_cases isTarget : node = target
    · rw [isTarget, Function.update_self] at isDone
      cases isDone
    · rw [Function.update_of_ne isTarget] at isDone
      exact progress.wholly node isDone

/-- The topmost node has no link left. -/
theorem finish (progress : Progress out nodes (frame :: below) state read)
    (exhausted : (out frame.node)[frame.next]? = none) :
    Progress out nodes below (Function.update state frame.node .done) read := by
  rcases List.nodup_cons.mp progress.distinct with ⟨fresh, distinct⟩
  constructor
  · intro node visited
    by_cases isTop : node = frame.node
    · exact isTop ▸ progress.topInside
    · rw [Function.update_of_ne isTop] at visited
      exact progress.inside node visited
  · exact distinct
  · intro node
    by_cases isTop : node = frame.node
    · rw [isTop, Function.update_self]
      simp [fresh]
    · rw [Function.update_of_ne isTop, progress.onStack, List.map_cons, List.mem_cons]
      simp [isTop]
  · intro node isUnvisited
    by_cases isTop : node = frame.node
    · rw [isTop, Function.update_self] at isUnvisited
      cases isUnvisited
    · rw [Function.update_of_ne isTop] at isUnvisited
      exact progress.unread node isUnvisited
  · exact fun other member => progress.partly other (List.mem_cons_of_mem frame member)
  · intro node isDone
    by_cases isTop : node = frame.node
    · rw [isTop, progress.partly frame List.mem_cons_self]
      exact List.take_of_length_le (List.getElem?_eq_none_iff.mp exhausted)
    · rw [Function.update_of_ne isTop] at isDone
      exact progress.wholly node isDone

end Progress

end Progress

/-! ### Where the kept links lead -/

section Leads

variable (dag : α → List α)

/-- The stack is a path of kept links, and any other kept link leads to a node that is done. -/
structure Leads (path : List α) (state : α → Visit) : Prop where
  linked : path.IsChain fun above below => above ∈ dag below
  settled : ∀ node, ∀ next ∈ dag node, state next = .done ∨ [next, node] <:+: path

variable {dag} {path : List α} {state : α → Visit} {top : α} {rest : List α}

theorem not_infix_top {next : α} (distinct : (top :: rest).Nodup) :
    ¬ [next, top] <:+: top :: rest := by
  intro inner
  rcases List.infix_cons_iff.mp inner with first | later
  · rcases List.cons_prefix_cons.mp first with ⟨_, second⟩
    have member := second.subset List.mem_cons_self
    exact (List.nodup_cons.mp distinct).1 member
  · have member := later.subset (List.mem_cons_of_mem next List.mem_cons_self)
    exact (List.nodup_cons.mp distinct).1 member

/-- Every node of a path of links reaches the first one. -/
theorem reaches_first {node : α}
    (linked : (top :: rest).IsChain fun above below => above ∈ dag below)
    (member : node ∈ top :: rest) : Reaches dag node top := by
  induction rest generalizing top with
  | nil =>
      rw [List.mem_singleton.mp member]
  | cons next rest ih =>
      rw [List.isChain_cons_cons] at linked
      rcases List.mem_cons.mp member with rfl | later
      · exact .refl
      · exact (ih linked.2 later).tail linked.1

namespace Leads

variable (leads : Leads dag (top :: rest) state)
include leads

/-- What the topmost node links to is done. -/
theorem done_of_top (distinct : (top :: rest).Nodup) {next : α} (kept : next ∈ dag top) :
    state next = .done :=
  (leads.settled top next kept).resolve_right (not_infix_top distinct)

/-- The topmost node is done. -/
theorem finish [DecidableEq α] : Leads dag rest (Function.update state top .done) := by
  constructor
  · exact leads.linked.tail
  · intro node next kept
    by_cases isTop : next = top
    · rw [isTop, Function.update_self]
      exact Or.inl rfl
    · rw [Function.update_of_ne isTop]
      apply (leads.settled node next kept).imp_right
      intro inner
      rcases List.infix_cons_iff.mp inner with first | later
      · exact absurd (List.cons_prefix_cons.mp first).1 isTop
      · exact later

variable {target : α}

/-- The topmost node keeps a link to a node that is done. -/
theorem keep [DecidableEq α] (isDone : state target = .done) :
    Leads (addLink dag top target) (top :: rest) state := by
  constructor
  · exact leads.linked.imp fun _ _ edge => mem_addLink.mpr (Or.inl edge)
  · intro node next kept
    rcases mem_addLink.mp kept with old | ⟨_, rfl⟩
    · exact leads.settled node next old
    · exact Or.inl isDone

/-- The topmost node keeps a link to an unvisited node, which comes onto the stack. -/
theorem enter [DecidableEq α] (fresh : state target = .unvisited) :
    Leads (addLink dag top target) (target :: top :: rest)
      (Function.update state target .onStack) := by
  constructor
  · rw [List.isChain_cons_cons]
    refine ⟨mem_addLink.mpr (Or.inr ⟨rfl, rfl⟩), ?_⟩
    exact leads.linked.imp fun _ _ edge => mem_addLink.mpr (Or.inl edge)
  · intro node next kept
    rcases mem_addLink.mp kept with old | ⟨rfl, rfl⟩
    · cases leads.settled node next old with
      | inl isDone =>
          have different : next ≠ target := by
            intro same
            rw [same, fresh] at isDone
            cases isDone
          rw [Function.update_of_ne different]
          exact Or.inl isDone
      | inr inner => exact Or.inr (List.infix_cons_iff.mpr (Or.inr inner))
    · exact Or.inr ⟨[], rest, rfl⟩

end Leads

/-- From a node that is done only nodes that are done are reached. -/
theorem done_of_reaches {state : α → Visit} {path : List α} (leads : Leads dag path state)
    (offStack : ∀ node ∈ path, state node ≠ .done) {first last : α} (isDone : state first = .done)
    (way : Reaches dag first last) : state last = .done := by
  induction way with
  | refl => exact isDone
  | tail _ edge ih =>
      cases leads.settled _ _ edge with
      | inl nextDone => exact nextDone
      | inr inner =>
          have member := inner.subset (List.mem_cons_of_mem _ List.mem_cons_self)
          exact absurd ih (offStack _ member)

end Leads

/-! ### Runs -/

section Descending

variable (out : α → List α) (nodes : Finset α) [DecidableEq α]

/-- The invariant of the search. -/
structure Descending (search : Descent α) (read : α → List α) : Prop where
  progress : Progress out nodes search.stack search.state read
  leads : Leads search.dag search.path search.state
  retained : Retained nodes read search.dag search.indeg

/-- Bound on the rounds ahead: two for each link, one for each node on the stack. -/
def roundsLeft (search : Descent α) (read : α → List α) : ℕ :=
  2 * unreadLinks out nodes read + search.stack.length

variable {out} {nodes} {search : Descent α} {read : α → List α}

/-- No kept path leads from a node that is not on the stack to one that is. -/
theorem Descending.noWayBack (descending : Descending out nodes search read) {top target : α}
    (onStack : search.state top = .onStack) (offStack : search.state target ≠ .onStack) :
    ¬ Reaches search.dag target top := by
  intro way
  cases isTarget : search.state target with
  | onStack => exact offStack isTarget
  | done =>
      have notDone : ∀ node ∈ search.path, search.state node ≠ .done := by
        intro node member isDone
        rw [(descending.progress.onStack node).mpr member] at isDone
        cases isDone
      have isDone := done_of_reaches descending.leads notDone isTarget way
      rw [onStack] at isDone
      cases isDone
  | unvisited =>
      -- an unvisited node has no kept link
      rcases Relation.ReflTransGen.cases_head way with same | ⟨next, edge, _⟩
      · exact offStack (same ▸ onStack)
      · have isRead := descending.retained.mem_read edge
        rw [descending.progress.unread target isTarget] at isRead
        exact List.not_mem_nil isRead

theorem descending_start : Descending out nodes Descent.start fun _ => [] where
  progress := {
    inside := fun _ visited => absurd rfl visited
    distinct := List.nodup_nil
    onStack := fun _ => by simp [Descent.start]
    unread := fun _ _ => rfl
    partly := fun _ member => absurd member List.not_mem_nil
    wholly := fun _ isDone => by cases isDone }
  leads := {
    linked := List.isChain_nil
    settled := fun _ _ member => absurd member List.not_mem_nil }
  retained := retained_nothing

/-- A round keeps the invariant and brings the search closer to its end. -/
theorem Descending.step (closed : ∀ node ∈ nodes, ∀ next ∈ out node, next ∈ nodes)
    (descending : Descending out nodes search read) (busy : search.stack ≠ []) :
    ∃ further, Descending out nodes (search.step out) further ∧
      roundsLeft out nodes (search.step out) further < roundsLeft out nodes search read := by
  rcases search with ⟨stack, state, dag, indeg⟩
  cases stack with
  | nil => exact absurd rfl busy
  | cons frame below =>
      have progress : Progress out nodes (frame :: below) state read := descending.progress
      have leads : Leads dag (frame.node :: below.map Frame.node) state := descending.leads
      have retained : Retained nodes read dag indeg := descending.retained
      have inside : frame.node ∈ nodes := progress.topInside
      cases reads : (out frame.node)[frame.next]? with
      | none =>
          refine ⟨read, ?_⟩
          simp only [Descent.step, reads]
          refine ⟨⟨progress.finish reads, leads.finish, retained⟩, ?_⟩
          simp [roundsLeft]
      | some target =>
          refine ⟨addLink read frame.node target, ?_⟩
          have further := progress.advance reads
          have fewer := progress.unreadLinks_addLink reads
          have isInside : target ∈ nodes :=
            closed frame.node inside target (List.mem_of_getElem? reads)
          cases visited : state target with
          | onStack =>
              simp only [Descent.step, reads, visited]
              have back : Reaches dag target frame.node :=
                reaches_first leads.linked ((progress.onStack target).mp visited)
              have new : target ∉ dag frame.node := by
                intro kept
                have isDone := leads.done_of_top progress.distinct kept
                rw [visited] at isDone
                cases isDone
              refine ⟨⟨further, leads, retained.drop new back⟩, ?_⟩
              simp only [roundsLeft, List.length_cons]
              omega
          | done =>
              simp only [Descent.step, reads, visited]
              have noWayBack : ¬ Reaches dag target frame.node :=
                descending.noWayBack progress.topOnStack (by simp [visited])
              refine ⟨⟨further, leads.keep visited, retained.keep inside noWayBack⟩, ?_⟩
              simp only [roundsLeft, List.length_cons]
              omega
          | unvisited =>
              simp only [Descent.step, reads, visited]
              have noWayBack : ¬ Reaches dag target frame.node :=
                descending.noWayBack progress.topOnStack (by simp [visited])
              refine ⟨⟨further.enter isInside visited, leads.enter visited,
                retained.keep inside noWayBack⟩, ?_⟩
              simp only [roundsLeft, List.length_cons]
              omega

/-- A round forgets no node it has visited. -/
theorem step_visited {node : α} (visited : search.state node ≠ .unvisited) :
    (search.step out).state node ≠ .unvisited := by
  have update : ∀ (other : α) (mark : Visit), mark ≠ .unvisited →
      Function.update search.state other mark node ≠ .unvisited := by
    intro other mark known
    by_cases same : node = other
    · rw [same, Function.update_self]
      exact known
    · rw [Function.update_of_ne same]
      exact visited
  unfold Descent.step
  split
  · exact visited
  · split
    · exact update _ .done (by simp)
    · dsimp only
      split
      · exact visited
      · exact visited
      · exact update _ .onStack (by simp)

/-- With enough fuel the search runs until its stack is empty. -/
theorem Descending.run (closed : ∀ node ∈ nodes, ∀ next ∈ out node, next ∈ nodes) {fuel : ℕ}
    (descending : Descending out nodes search read)
    (enough : roundsLeft out nodes search read ≤ fuel) :
    ∃ result further, Descent.run out fuel search = some result ∧ result.stack = [] ∧
      Descending out nodes result further ∧
        ∀ node, search.state node ≠ .unvisited → result.state node ≠ .unvisited := by
  induction fuel generalizing search read with
  | zero =>
      have empty : search.stack = [] := by
        apply List.eq_nil_of_length_eq_zero
        simp only [roundsLeft] at enough
        omega
      have runs : Descent.run out 0 search = some search := by simp [Descent.run, empty]
      exact ⟨search, read, runs, empty, descending, fun _ visited => visited⟩
  | succ fuel ih =>
      by_cases empty : search.stack = []
      · have runs : Descent.run out (fuel + 1) search = some search := by
          simp [Descent.run, empty]
        exact ⟨search, read, runs, empty, descending, fun _ visited => visited⟩
      · rcases descending.step closed empty with ⟨further, after, fewer⟩
        rcases ih after (by omega) with ⟨result, last, runs, done, final, keeps⟩
        refine ⟨result, last, ?_, done, final, ?_⟩
        · rw [Descent.run, if_neg (by simp [empty]), runs]
        · exact fun node visited => keeps node (step_visited visited)

/-- Fuel that is enough for the search from each root. -/
def descentFuel (out : α → List α) (nodes : Finset α) : ℕ :=
  2 * ∑ node ∈ nodes, (out node).length + 1

theorem Descending.visitRoot (closed : ∀ node ∈ nodes, ∀ next ∈ out node, next ∈ nodes) {fuel : ℕ}
    (enough : descentFuel out nodes ≤ fuel) (descending : Descending out nodes search read)
    (idle : search.stack = []) {root : α} (inside : root ∈ nodes) :
    ∃ result further, search.visitRoot out fuel root = some result ∧ result.stack = [] ∧
      Descending out nodes result further ∧ result.state root ≠ .unvisited ∧
        ∀ node, search.state node ≠ .unvisited → result.state node ≠ .unvisited := by
  by_cases fresh : search.state root = .unvisited
  · have entered : Descending out nodes { search with
        stack := [⟨root, 0⟩]
        state := Function.update search.state root .onStack } read := by
      have progress := descending.progress
      rw [idle] at progress
      have quiet : search.path = [] := by rw [Descent.path, idle, List.map_nil]
      have leads := descending.leads
      rw [quiet] at leads
      refine ⟨progress.enter inside fresh, ⟨List.isChain_singleton root, ?_⟩, descending.retained⟩
      intro node next kept
      have isDone : search.state next = .done :=
        (leads.settled node next kept).resolve_right fun inner => by simp at inner
      have different : next ≠ root := by
        intro same
        rw [same, fresh] at isDone
        cases isDone
      dsimp only
      rw [Function.update_of_ne different]
      exact Or.inl isDone
    have rounds : roundsLeft out nodes { search with
        stack := [⟨root, 0⟩]
        state := Function.update search.state root .onStack } read ≤ fuel := by
      have fewer : unreadLinks out nodes read ≤ ∑ node ∈ nodes, (out node).length :=
        Finset.sum_le_sum fun node _ => Nat.sub_le _ _
      simp only [descentFuel] at enough
      simp only [roundsLeft, List.length_singleton]
      omega
    rcases entered.run closed rounds with ⟨result, further, runs, done, final, keeps⟩
    refine ⟨result, further, ?_, done, final, ?_, ?_⟩
    · rw [Descent.visitRoot, fresh]
      exact runs
    · exact keeps root (by simp)
    · intro node visited
      apply keeps node
      by_cases isRoot : node = root
      · simp [isRoot]
      · dsimp only
        rw [Function.update_of_ne isRoot]
        exact visited
  · refine ⟨search, read, ?_, idle, descending, fresh, fun _ visited => visited⟩
    unfold Descent.visitRoot
    split
    · contradiction
    · rfl

/-! ### The whole search -/

/-- What a finished search has kept of a graph. -/
structure Unlooped (out dag : α → List α) (indeg : α → ℕ) (nodes : Finset α) : Prop where
  kept : ∀ node ∈ nodes, dag node = (out node).filter (· ∈ dag node)
  outside : ∀ node ∉ nodes, dag node = []
  closes : ∀ node ∈ nodes, ∀ next ∈ out node, next ∉ dag node → Reaches dag next node
  acyclic : Acyclic dag
  counted : ∀ node, indeg node = incoming nodes dag node
  complete : Acyclic out → ∀ node ∈ nodes, dag node = out node

theorem Descending.foldlM (closed : ∀ node ∈ nodes, ∀ next ∈ out node, next ∈ nodes) {fuel : ℕ}
    (enough : descentFuel out nodes ≤ fuel) {roots : List α} (inside : ∀ root ∈ roots, root ∈ nodes)
    (descending : Descending out nodes search read) (idle : search.stack = []) :
    ∃ result further, roots.foldlM (Descent.visitRoot out fuel) search = some result ∧
      result.stack = [] ∧ Descending out nodes result further ∧
        (∀ root ∈ roots, result.state root ≠ .unvisited) ∧
          ∀ node, search.state node ≠ .unvisited → result.state node ≠ .unvisited := by
  induction roots generalizing search read with
  | nil =>
      exact ⟨search, read, rfl, idle, descending, fun _ member => absurd member List.not_mem_nil,
        fun _ visited => visited⟩
  | cons root roots ih =>
      rcases descending.visitRoot closed enough idle (inside root List.mem_cons_self) with
        ⟨middle, between, visits, quiet, after, isVisited, keeps⟩
      rcases ih (fun other member => inside other (List.mem_cons_of_mem root member)) after quiet
        with ⟨result, further, runs, done, final, all, keepsLater⟩
      refine ⟨result, further, ?_, done, final, ?_, ?_⟩
      · rw [List.foldlM_cons, visits]
        exact runs
      · intro other member
        rcases List.mem_cons.mp member with rfl | later
        · exact keepsLater other isVisited
        · exact all other later
      · exact fun node visited => keepsLater node (keeps node visited)

/-- More fuel changes nothing once there is enough. -/
theorem run_mono {fuel more : ℕ} {result : Descent α} (atMost : fuel ≤ more)
    (runs : Descent.run out fuel search = some result) :
    Descent.run out more search = some result := by
  induction fuel generalizing search more with
  | zero =>
      rw [Descent.run] at runs
      split at runs
      · next empty =>
          cases more with
          | zero => rw [Descent.run, if_pos empty, runs]
          | succ more => rw [Descent.run, if_pos empty, runs]
      · cases runs
  | succ fuel ih =>
      cases more with
      | zero => exact absurd atMost (by omega)
      | succ more =>
          rw [Descent.run] at runs ⊢
          split at runs
          · next empty => rw [if_pos empty, runs]
          · next busy => rw [if_neg busy, ih (Nat.le_of_succ_le_succ atMost) runs]

theorem sweep_mono {fuel more : ℕ} (atMost : fuel ≤ more) {roots : List α} {result : Descent α}
    (sweeps : roots.foldlM (Descent.visitRoot out fuel) search = some result) :
    roots.foldlM (Descent.visitRoot out more) search = some result := by
  induction roots generalizing search with
  | nil => exact sweeps
  | cons root roots ih =>
      rw [List.foldlM_cons] at sweeps ⊢
      rcases Option.bind_eq_some_iff.mp sweeps with ⟨middle, visits, rest⟩
      have same : search.visitRoot out more root = some middle := by
        unfold Descent.visitRoot at visits ⊢
        split at visits
        · next fresh => exact run_mono atMost visits
        · next seen => exact visits
      rw [same]
      exact ih rest

/-- The search ends, and it has dropped only links that close a cycle. -/
theorem sweep_unlooped (closed : ∀ node ∈ nodes, ∀ next ∈ out node, next ∈ nodes)
    {roots : List α} (covers : ∀ node, node ∈ roots ↔ node ∈ nodes) :
    ∃ result : Descent α, (∀ fuel, descentFuel out nodes ≤ fuel →
        Descent.sweep out fuel roots = some result) ∧
      Unlooped out result.dag result.indeg nodes := by
  rcases descending_start.foldlM closed (le_refl _) (fun root => (covers root).mp) rfl with
    ⟨result, read, sweeps, idle, descending, visited, _⟩
  refine ⟨result, fun fuel enough => sweep_mono enough sweeps, ?_⟩
  have progress := descending.progress
  have retained := descending.retained
  have wholly : ∀ node ∈ nodes, read node = out node := by
    intro node inside
    apply progress.wholly node
    cases isVisited : result.state node with
    | unvisited => exact absurd isVisited (visited node ((covers node).mpr inside))
    | onStack =>
        have member := (progress.onStack node).mp isVisited
        rw [idle] at member
        exact absurd member List.not_mem_nil
    | done => rfl
  have nothing : ∀ node, node ∉ nodes → read node = [] := by
    intro node outside
    apply progress.unread node
    by_contra isVisited
    exact outside (progress.inside node isVisited)
  constructor
  · intro node inside
    rw [← wholly node inside]
    exact retained.kept node
  · intro node outside
    rw [retained.kept node, nothing node outside]
    rfl
  · intro node inside next isLink notKept
    rw [← wholly node inside] at isLink
    exact retained.closes node next isLink notKept
  · exact retained.acyclic
  · exact retained.counted
  · intro acyclic node inside
    rw [← wholly node inside]
    apply retained.keeps_all
    have smaller : ∀ source next, Edge read source next → Edge out source next := by
      intro source next edge
      by_cases known : source ∈ nodes
      · rw [Edge, ← wholly source known]
        exact edge
      · rw [Edge, nothing source known] at edge
        exact absurd edge List.not_mem_nil
    intro start circle
    exact acyclic start (Relation.TransGen.mono smaller start start circle)

end Descending

end Foundation.Graph
