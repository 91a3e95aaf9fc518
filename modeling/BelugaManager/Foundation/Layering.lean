import BelugaManager.Foundation.BackEdges
import Mathlib.Data.Fintype.EquivFin
import Mathlib.Order.WellFounded

/-!
# Layers of a graph without cycles

Nodes are taken from a queue once all links to them have been followed.  The layer of a
node is then the length of the longest path that ends there.
-/

namespace Foundation.Graph

variable {α : Type*}

/-- Lengths of the paths that end at a node. -/
def pathsTo (links : α → List α) (node : α) : Set ℕ :=
  {length | ∃ path : List α, path.length = length ∧ (path ++ [node]).IsChain (Edge links)}

theorem mem_pathsTo_succ {links : α → List α} {node : α} {length : ℕ} :
    length + 1 ∈ pathsTo links node ↔
      ∃ source, node ∈ links source ∧ length ∈ pathsTo links source := by
  constructor
  · rintro ⟨path, hasLength, chain⟩
    rcases List.eq_nil_or_concat path with rfl | ⟨front, source, rfl⟩
    · cases hasLength
    · rw [List.concat_eq_append] at hasLength chain
      rw [List.append_assoc, List.singleton_append, List.isChain_append_cons_cons] at chain
      refine ⟨source, chain.2.1, front, ?_, chain.1⟩
      simpa using hasLength
  · rintro ⟨source, edge, front, hasLength, chain⟩
    refine ⟨front ++ [source], by simp [hasLength], ?_⟩
    rw [List.append_assoc, List.singleton_append, List.isChain_append_cons_cons]
    exact ⟨chain, edge, List.isChain_singleton node⟩

/-- Layers that rise along every link, and by no more than they must. -/
theorem isGreatest_layer {links : α → List α} {layer : α → ℕ}
    (rises : ∀ node, ∀ next ∈ links node, layer node < layer next)
    (attained : ∀ node, layer node = 0 ∨
      ∃ source, node ∈ links source ∧ layer node = layer source + 1) (node : α) :
    IsGreatest (pathsTo links node) (layer node) := by
  constructor
  · induction height : layer node generalizing node with
    | zero => exact ⟨[], rfl, List.isChain_singleton node⟩
    | succ height' ih =>
        rcases attained node with bottom | ⟨source, edge, above⟩
        · omega
        · exact mem_pathsTo_succ.mpr ⟨source, edge, ih source (by omega)⟩
  · intro length path
    induction length generalizing node with
    | zero => exact Nat.zero_le _
    | succ length ih =>
        rcases mem_pathsTo_succ.mp path with ⟨source, edge, shorter⟩
        have below := ih source shorter
        have above := rises source node edge
        omega

/-- In a finite graph without cycles a property that every node inherits from its
predecessors holds everywhere. -/
theorem Acyclic.induction {links : α → List α} (acyclic : Acyclic links) (nodes : Finset α)
    {holds : α → Prop}
    (inherit : ∀ node ∈ nodes,
      (∀ source ∈ nodes, node ∈ links source → holds source) → holds node)
    {node : α} (member : node ∈ nodes) : holds node := by
  let before : nodes → nodes → Prop := fun first last => ProperlyReaches links first last
  have : IsTrans nodes before := ⟨fun _ _ _ early late => early.trans late⟩
  have : Std.Irrefl before := ⟨fun first circle => acyclic first circle⟩
  have wellFounded : WellFounded before := Finite.wellFounded_of_trans_of_irrefl before
  have all : ∀ inner : nodes, holds inner := by
    intro inner
    induction inner using wellFounded.induction with
    | _ inner ih =>
        apply inherit inner inner.property
        intro source inside edge
        exact ih ⟨source, inside⟩ (.single edge)
  exact all ⟨node, member⟩

/-- In a graph without cycles one of finitely many nodes reaches none of the others. -/
theorem Acyclic.exists_last {links : α → List α} (acyclic : Acyclic links) {nodes : Finset α}
    (nonempty : nodes.Nonempty) :
    ∃ last ∈ nodes, ∀ other ∈ nodes, Reaches links last other → other = last := by
  let after : nodes → nodes → Prop := fun first last => ProperlyReaches links last first
  have : IsTrans nodes after := ⟨fun _ _ _ late early => early.trans late⟩
  have : Std.Irrefl after := ⟨fun first circle => acyclic first circle⟩
  have wellFounded : WellFounded after := Finite.wellFounded_of_trans_of_irrefl after
  rcases nonempty with ⟨node, member⟩
  rcases wellFounded.has_min Set.univ ⟨⟨node, member⟩, trivial⟩ with ⟨last, _, minimal⟩
  refine ⟨last, last.property, ?_⟩
  intro other inside path
  rcases Relation.reflTransGen_iff_eq_or_transGen.mp path with isLast | proper
  · exact isLast
  · exact absurd proper (minimal ⟨other, inside⟩ trivial)

/-! ## The queue -/

structure Layering (α : Type*) where
  queue : List α
  /-- Position of the next node to take. -/
  head : ℕ
  layer : α → ℕ
  indeg : α → ℕ

namespace Layering

section Run

variable [DecidableEq α]

/-- Nodes without incoming links are in the queue from the start. -/
def start (order : List α) (indeg : α → ℕ) : Layering α where
  queue := order.filter (indeg · = 0)
  head := 0
  layer _ := 0
  indeg := indeg

/-- Follow one link of the current node. -/
def relax (current : α) (layering : Layering α) (next : α) : Layering α :=
  let indeg := Function.update layering.indeg next (layering.indeg next - 1)
  { queue := if indeg next = 0 then layering.queue ++ [next] else layering.queue
    head := layering.head
    layer := Function.update layering.layer next
      (max (layering.layer next) (layering.layer current + 1))
    indeg := indeg }

/-- Take nodes until the queue has none left; `none` when the fuel runs out before that. -/
def run (dag : α → List α) : ℕ → Layering α → Option (Layering α)
  | 0, layering => if layering.queue.length ≤ layering.head then some layering else none
  | fuel + 1, layering =>
      match layering.queue[layering.head]? with
      | none => some layering
      | some current =>
          let followed := (dag current).foldl (relax current) layering
          run dag fuel { followed with head := layering.head + 1 }

end Run

/-! ### The invariant -/

section Invariant

variable [DecidableEq α] (dag : α → List α) (nodes : Finset α)

/-- `used` are the links followed so far; a node is queued when all links to it are. -/
structure Follows (layering : Layering α) (used : α → List α) : Prop where
  inside : ∀ node ∈ layering.queue, node ∈ nodes
  distinct : layering.queue.Nodup
  queued : ∀ node ∈ nodes, node ∈ layering.queue ↔ layering.indeg node = 0
  part : ∀ node, used node <+: dag node
  active : ∀ node, used node ≠ [] → node ∈ layering.queue
  counted : ∀ node, layering.indeg node + incoming nodes used node = incoming nodes dag node
  rises : ∀ node, ∀ next ∈ used node, layering.layer node < layering.layer next
  attained : ∀ node, layering.layer node = 0 ∨
    ∃ source, node ∈ used source ∧ layering.layer node = layering.layer source + 1

variable {dag} {nodes} {layering : Layering α} {used : α → List α}

theorem incoming_le {fewer more : α → List α} (part : ∀ node, fewer node <+: more node)
    (node : α) : incoming nodes fewer node ≤ incoming nodes more node :=
  Finset.sum_le_sum fun source _ => (part source).sublist.count_le node

namespace Follows

variable {current next : α} {rest : List α}

theorem part_addLink (follows : Follows dag nodes layering used)
    (ahead : dag current = used current ++ next :: rest) (node : α) :
    addLink used current next node <+: dag node := by
  by_cases isCurrent : node = current
  · subst isCurrent
    rw [addLink_self, ahead]
    exact ⟨rest, by simp⟩
  · rw [addLink_of_ne used next isCurrent]
    exact follows.part node

/-- A node with a link still to follow is not queued, and none of its own links was
followed. -/
theorem waiting (closed : ∀ node, ∀ next ∈ dag node, next ∈ nodes)
    (follows : Follows dag nodes layering used) (isQueued : current ∈ layering.queue)
    (ahead : dag current = used current ++ next :: rest) :
    next ∈ nodes ∧ next ∉ layering.queue ∧ 0 < layering.indeg next ∧ used next = [] := by
  have inside : next ∈ nodes := closed current next (by simp [ahead])
  have counted := follows.counted next
  have larger : incoming nodes (addLink used current next) next ≤ incoming nodes dag next :=
    incoming_le (follows.part_addLink ahead) next
  rw [incoming_addLink (follows.inside current isQueued), if_pos rfl] at larger
  have positive : 0 < layering.indeg next := by omega
  have notQueued : next ∉ layering.queue := by
    intro member
    have zero := (follows.queued next inside).mp member
    omega
  refine ⟨inside, notQueued, positive, ?_⟩
  by_contra started
  exact notQueued (follows.active next started)

theorem mem_queue_relax {node : α} : node ∈ (layering.relax current next).queue ↔
    node ∈ layering.queue ∨ layering.indeg next - 1 = 0 ∧ node = next := by
  simp only [Layering.relax, Function.update_self]
  split
  · next zero => simp [zero]
  · next more => simp [more]

theorem layer_relax_of_ne {node : α} (different : node ≠ next) :
    (layering.relax current next).layer node = layering.layer node :=
  Function.update_of_ne different ..

theorem layer_relax_self : (layering.relax current next).layer next =
    max (layering.layer next) (layering.layer current + 1) :=
  Function.update_self ..

/-- One more link is followed. -/
theorem relax (closed : ∀ node, ∀ next ∈ dag node, next ∈ nodes)
    (follows : Follows dag nodes layering used) (isQueued : current ∈ layering.queue)
    (ahead : dag current = used current ++ next :: rest) :
    Follows dag nodes (layering.relax current next) (addLink used current next) := by
  rcases follows.waiting closed isQueued ahead with ⟨inside, notQueued, positive, unused⟩
  have different : current ≠ next := fun same => notQueued (same ▸ isQueued)
  constructor
  · intro node member
    rcases mem_queue_relax.mp member with old | ⟨_, rfl⟩
    · exact follows.inside node old
    · exact inside
  · simp only [Layering.relax]
    split
    · refine List.nodup_append.mpr ⟨follows.distinct, List.nodup_singleton next, ?_⟩
      intro node member other isNext same
      rw [List.mem_singleton.mp isNext] at same
      exact notQueued (same ▸ member)
    · exact follows.distinct
  · intro node known
    rw [mem_queue_relax]
    by_cases isNext : node = next
    · subst isNext
      simp [Layering.relax, notQueued]
    · have same : (layering.relax current next).indeg node = layering.indeg node :=
        Function.update_of_ne isNext ..
      rw [same, ← follows.queued node known]
      simp [isNext]
  · exact follows.part_addLink ahead
  · intro node started
    apply mem_queue_relax.mpr
    by_cases isCurrent : node = current
    · exact Or.inl (isCurrent ▸ isQueued)
    · rw [addLink_of_ne used next isCurrent] at started
      exact Or.inl (follows.active node started)
  · intro node
    rw [incoming_addLink (follows.inside current isQueued), ← follows.counted node]
    by_cases isNext : node = next
    · subst isNext
      rw [if_pos rfl]
      simp only [Layering.relax, Function.update_self]
      omega
    · rw [if_neg isNext]
      simp only [Layering.relax, Function.update_of_ne isNext]
      omega
  · intro node other isUsed
    rcases mem_addLink.mp isUsed with old | ⟨rfl, rfl⟩
    · have notNext : node ≠ next := by
        intro same
        rw [same, unused] at old
        exact List.not_mem_nil old
      have above := follows.rises node other old
      rw [layer_relax_of_ne notNext]
      by_cases isNext : other = next
      · subst isNext
        rw [layer_relax_self]
        omega
      · rw [layer_relax_of_ne isNext]
        exact above
    · rw [layer_relax_of_ne different, layer_relax_self]
      omega
  · intro node
    have older : layering.layer node = 0 ∨ ∃ source, source ≠ next ∧
        node ∈ addLink used current next source ∧
          layering.layer node = layering.layer source + 1 := by
      rcases follows.attained node with bottom | ⟨source, isUsed, above⟩
      · exact Or.inl bottom
      · refine Or.inr ⟨source, ?_, mem_addLink.mpr (Or.inl isUsed), above⟩
        intro same
        rw [same, unused] at isUsed
        exact List.not_mem_nil isUsed
    by_cases isNext : node = next
    · subst isNext
      rw [layer_relax_self]
      by_cases higher : layering.layer node ≤ layering.layer current + 1
      · refine Or.inr ⟨current, mem_addLink.mpr (Or.inr ⟨rfl, rfl⟩), ?_⟩
        rw [layer_relax_of_ne different]
        omega
      · rw [max_eq_left (by omega)]
        apply older.imp_right
        rintro ⟨source, notNode, isUsed, above⟩
        exact ⟨source, isUsed, by rw [layer_relax_of_ne notNode, above]⟩
    · rw [layer_relax_of_ne isNext]
      apply older.imp_right
      rintro ⟨source, notNext, isUsed, above⟩
      exact ⟨source, isUsed, by rw [layer_relax_of_ne notNext, above]⟩

/-- All remaining links of the current node are followed. -/
theorem relaxAll (closed : ∀ node, ∀ next ∈ dag node, next ∈ nodes)
    (follows : Follows dag nodes layering used) (isQueued : current ∈ layering.queue)
    (ahead : dag current = used current ++ rest) :
    ∃ further, Follows dag nodes (rest.foldl (Layering.relax current) layering) further ∧
      layering.queue <+: (rest.foldl (Layering.relax current) layering).queue ∧
      (rest.foldl (Layering.relax current) layering).head = layering.head ∧
      further current = dag current ∧ ∀ node, node ≠ current → further node = used node := by
  induction rest generalizing layering used with
  | nil =>
      refine ⟨used, follows, List.prefix_rfl, rfl, ?_, fun _ _ => rfl⟩
      rw [ahead, List.append_nil]
  | cons next rest ih =>
      have stillQueued : current ∈ (layering.relax current next).queue :=
        mem_queue_relax.mpr (Or.inl isQueued)
      have stillAhead : dag current = addLink used current next current ++ rest := by
        rw [addLink_self, List.append_assoc, List.singleton_append, ahead]
      rcases ih (follows.relax closed isQueued ahead) stillQueued stillAhead with
        ⟨further, after, longer, sameHead, all, others⟩
      have grows : layering.queue <+: (layering.relax current next).queue := by
        simp only [Layering.relax]
        split
        · exact List.prefix_append ..
        · exact List.prefix_rfl
      refine ⟨further, after, grows.trans longer, sameHead, all, ?_⟩
      intro node different
      rw [others node different, addLink_of_ne used next different]

end Follows

/-- Between two rounds the links of the nodes taken so far are followed, and no others. -/
structure Between (dag : α → List α) (nodes : Finset α) (layering : Layering α)
    (used : α → List α) : Prop where
  follows : Follows dag nodes layering used
  bound : layering.head ≤ layering.queue.length
  taken : ∀ node ∈ layering.queue.take layering.head, used node = dag node
  untaken : ∀ node ∉ layering.queue.take layering.head, used node = []

namespace Between

/-- The next node is taken. -/
theorem take (closed : ∀ node, ∀ next ∈ dag node, next ∈ nodes)
    (between : Between dag nodes layering used) {current : α}
    (isNext : layering.queue[layering.head]? = some current) :
    ∃ further, Between dag nodes { (dag current).foldl (Layering.relax current) layering with
      head := layering.head + 1 } further := by
  have isQueued : current ∈ layering.queue := List.mem_of_getElem? isNext
  have inBounds : layering.head < layering.queue.length := by
    by_contra beyond
    rw [List.getElem?_eq_none (not_lt.mp beyond)] at isNext
    cases isNext
  have front : layering.queue.take (layering.head + 1) =
      layering.queue.take layering.head ++ [current] := by
    rw [List.take_add_one, isNext]
    rfl
  have untaken : current ∉ layering.queue.take layering.head := by
    have distinct := between.follows.distinct.sublist
      (List.take_sublist (layering.head + 1) layering.queue)
    rw [front, List.nodup_append] at distinct
    intro member
    exact distinct.2.2 current member current (List.mem_singleton_self current) rfl
  have ahead : dag current = used current ++ dag current := by
    rw [between.untaken current untaken, List.nil_append]
  rcases between.follows.relaxAll closed isQueued ahead with
    ⟨further, after, longer, _, all, others⟩
  have after_front : ((dag current).foldl (Layering.relax current) layering).queue.take
      (layering.head + 1) = layering.queue.take layering.head ++ [current] := by
    rcases longer with ⟨more, whole⟩
    rw [← whole, List.take_append_of_le_length inBounds, front]
  refine ⟨further, ⟨after.inside, after.distinct, after.queued, after.part, after.active,
    after.counted, after.rises, after.attained⟩, ?_, ?_, ?_⟩
  · exact le_trans inBounds longer.length_le
  · intro node member
    rw [after_front, List.mem_append, List.mem_singleton] at member
    by_cases isCurrent : node = current
    · rw [isCurrent, all]
    · rw [others node isCurrent]
      exact between.taken node (member.resolve_right isCurrent)
  · intro node notTaken
    rw [after_front, List.mem_append, List.mem_singleton, not_or] at notTaken
    rw [others node notTaken.2]
    exact between.untaken node notTaken.1

/-- When the queue is used up, every node of a graph without cycles has been taken. -/
theorem finished (between : Between dag nodes layering used) (acyclic : Acyclic dag)
    (outside : ∀ node ∉ nodes, dag node = []) (usedUp : layering.queue.length ≤ layering.head) :
    used = dag := by
  have whole : layering.queue.take layering.head = layering.queue :=
    List.take_of_length_le usedUp
  have all : ∀ node ∈ nodes, node ∈ layering.queue := by
    intro node member
    refine acyclic.induction nodes ?_ member
    intro node known sources
    rw [between.follows.queued node known]
    have counted := between.follows.counted node
    have same : incoming nodes used node = incoming nodes dag node := by
      apply Finset.sum_congr rfl
      intro source inside
      by_cases edge : node ∈ dag source
      · have taken := sources source inside edge
        rw [← whole] at taken
        rw [between.taken source taken]
      · have unused : node ∉ used source := fun isUsed =>
          edge ((between.follows.part source).subset isUsed)
        rw [List.count_eq_zero_of_not_mem edge, List.count_eq_zero_of_not_mem unused]
    omega
  funext node
  by_cases known : node ∈ nodes
  · apply between.taken node
    rw [whole]
    exact all node known
  · have part := between.follows.part node
    rw [outside node known] at part ⊢
    exact List.prefix_nil.mp part

theorem start {order : List α} (unique : order.Nodup) (covers : ∀ node, node ∈ order ↔ node ∈ nodes)
    {indeg : α → ℕ} (counts : ∀ node, indeg node = incoming nodes dag node) :
    Between dag nodes (Layering.start order indeg) fun _ => [] where
  follows := {
    inside := fun node member => (covers node).mp (List.mem_of_mem_filter member)
    distinct := unique.filter _
    queued := fun node known => by
      simp [Layering.start, (covers node).mpr known]
    part := fun _ => List.nil_prefix
    active := fun _ started => absurd rfl started
    counted := fun node => by simp [Layering.start, counts, incoming]
    rises := fun _ _ member => absurd member List.not_mem_nil
    attained := fun _ => Or.inl rfl }
  bound := Nat.zero_le _
  taken _ member := absurd member List.not_mem_nil
  untaken _ _ := rfl

/-- With enough fuel the queue is used up. -/
theorem run (closed : ∀ node, ∀ next ∈ dag node, next ∈ nodes) {fuel : ℕ}
    (between : Between dag nodes layering used) (enough : nodes.card ≤ layering.head + fuel) :
    ∃ result further, Layering.run dag fuel layering = some result ∧
      Between dag nodes result further ∧ result.queue.length ≤ result.head := by
  induction fuel generalizing layering used with
  | zero =>
      have few : layering.queue.length ≤ nodes.card := by
        rw [← List.toFinset_card_of_nodup between.follows.distinct]
        apply Finset.card_le_card
        intro node member
        exact between.follows.inside node (List.mem_toFinset.mp member)
      have usedUp : layering.queue.length ≤ layering.head := by omega
      exact ⟨layering, used, by rw [Layering.run, if_pos usedUp], between, usedUp⟩
  | succ fuel ih =>
      cases isNext : layering.queue[layering.head]? with
      | none =>
          refine ⟨layering, used, ?_, between, List.getElem?_eq_none_iff.mp isNext⟩
          rw [Layering.run, isNext]
      | some current =>
          rcases between.take closed isNext with ⟨further, after⟩
          have closer : nodes.card ≤ layering.head + 1 + fuel := by omega
          rcases ih after closer with ⟨result, last, runs, final, usedUp⟩
          refine ⟨result, last, ?_, final, usedUp⟩
          rw [Layering.run, isNext]
          exact runs

end Between

/-- More fuel changes nothing once there is enough. -/
theorem run_mono {fuel more : ℕ} {result : Layering α} (atMost : fuel ≤ more)
    (runs : Layering.run dag fuel layering = some result) :
    Layering.run dag more layering = some result := by
  induction fuel generalizing layering more with
  | zero =>
      rw [Layering.run] at runs
      split at runs
      · next usedUp =>
          cases more with
          | zero => rw [Layering.run, if_pos usedUp, runs]
          | succ more => rw [Layering.run, List.getElem?_eq_none usedUp, runs]
      · cases runs
  | succ fuel ih =>
      cases more with
      | zero => exact absurd atMost (by omega)
      | succ more =>
          rw [Layering.run] at runs ⊢
          cases isNext : layering.queue[layering.head]? with
          | none =>
              rw [isNext] at runs
              exact runs
          | some current =>
              rw [isNext] at runs
              exact ih (Nat.le_of_succ_le_succ atMost) runs

/-- The queue is used up in the end, and every layer is the length of a longest path. -/
theorem run_longest (acyclic : Acyclic dag) (closed : ∀ node, ∀ next ∈ dag node, next ∈ nodes)
    (outside : ∀ node ∉ nodes, dag node = []) {order : List α} (unique : order.Nodup)
    (covers : ∀ node, node ∈ order ↔ node ∈ nodes) {indeg : α → ℕ}
    (counts : ∀ node, indeg node = incoming nodes dag node) :
    ∃ result : Layering α, (∀ fuel, nodes.card ≤ fuel →
        Layering.run dag fuel (Layering.start order indeg) = some result) ∧
      (∀ node, ∀ next ∈ dag node, result.layer node < result.layer next) ∧
      ∀ node, IsGreatest (pathsTo dag node) (result.layer node) := by
  have between := Between.start unique covers counts
  have enough : nodes.card ≤ (Layering.start order indeg).head + nodes.card :=
    Nat.le_add_left ..
  rcases between.run closed enough with ⟨result, used, runs, final, usedUp⟩
  have all := final.finished acyclic outside usedUp
  have follows := final.follows
  rw [all] at follows
  exact ⟨result, fun fuel more => run_mono more runs, follows.rises,
    isGreatest_layer follows.rises follows.attained⟩

end Invariant

end Layering

end Foundation.Graph
