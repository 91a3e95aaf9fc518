import BelugaManager.Foundation.CodeUnits
import BelugaManager.Foundation.JsNumber
import BelugaManager.Foundation.Layering
import BelugaManager.Foundation.OrderedMap

/-!
# The layout of a topology graph

`components/graph/layout.ts`: nodes with a position keep it, all others are placed in
columns by the length of the longest path that leads to them.  Links that close a cycle
are dropped before the columns are computed.

The arrays over node indices are functions of the index.
-/

namespace BelugaManager.Web

open Foundation Foundation.Graph

structure Position where
  x : JsNumber
  y : JsNumber
  deriving DecidableEq

structure TopologyGraphNode where
  id : JsString
  position : Option Position

structure TopologyGraphEdge where
  source : JsString
  target : JsString

def GRAPH_NODE_WIDTH : ℕ := 220
def GRAPH_NODE_HEIGHT : ℕ := 100
def GRAPH_GAP_X : ℕ := 90
def GRAPH_GAP_Y : ℕ := 24

/-- The first node of each id, and where it stands. -/
structure Indexed where
  unique : List TopologyGraphNode
  index : OrderedMap JsString ℕ

def indexNode (found : Indexed) (n : TopologyGraphNode) : Indexed :=
  if (found.index.get? n.id).isSome then found
  else
    { unique := found.unique ++ [n]
      index := found.index.set n.id found.unique.length }

def indexNodes (nodes : List TopologyGraphNode) : Indexed :=
  nodes.foldl indexNode ⟨[], .empty⟩

structure Links where
  out : ℕ → List ℕ
  indeg : ℕ → ℕ

/-- Self links and edges to missing nodes are ignored. -/
def linkEdge (index : OrderedMap JsString ℕ) (links : Links) (e : TopologyGraphEdge) : Links :=
  match index.get? e.source, index.get? e.target with
  | some s, some t =>
      if s = t then links
      else
        { out := addLink links.out s t
          indeg := Function.update links.indeg t (links.indeg t + 1) }
  | _, _ => links

def linkEdges (index : OrderedMap JsString ℕ) (edges : List TopologyGraphEdge) : Links :=
  edges.foldl (linkEdge index) ⟨fun _ => [], fun _ => 0⟩

/-- The search starts at the nodes without incoming links. -/
def roots (count : ℕ) (indeg : ℕ → ℕ) : List ℕ :=
  (List.range count).filter (indeg · = 0) ++ (List.range count).filter (indeg · ≠ 0)

/-- The links that are retained, and the layers they give. -/
structure Layers where
  dag : ℕ → List ℕ
  layer : ℕ → ℕ

def layerNodes (fuel count : ℕ) (links : Links) : Option Layers := do
  let search ← Descent.sweep links.out fuel (roots count links.indeg)
  let layering ← Layering.run search.dag fuel (.start (List.range count) search.indeg)
  return ⟨search.dag, layering.layer⟩

structure Placement where
  rowInLayer : ℕ → ℕ
  positions : OrderedMap JsString Position

/-- Where a node stands in a column. -/
def gridPosition (l row : ℕ) : Position where
  x := .ofNat (l * (GRAPH_NODE_WIDTH + GRAPH_GAP_X))
  y := .ofNat (row * (GRAPH_NODE_HEIGHT + GRAPH_GAP_Y))

def placeNode (layer : ℕ → ℕ) (placed : Placement) (entry : TopologyGraphNode × ℕ) : Placement :=
  match entry.1.position with
  | some position => { placed with positions := placed.positions.set entry.1.id position }
  | none =>
      let l := layer entry.2
      let row := placed.rowInLayer l
      { rowInLayer := Function.update placed.rowInLayer l (row + 1)
        positions := placed.positions.set entry.1.id (gridPosition l row) }

def placeNodes (layer : ℕ → ℕ) (unique : List TopologyGraphNode) : Placement :=
  unique.zipIdx.foldl (placeNode layer) ⟨fun _ => 0, .empty⟩

def keepPosition (positions : OrderedMap JsString Position) (n : TopologyGraphNode) :
    OrderedMap JsString Position :=
  match n.position with
  | some position => positions.set n.id position
  | none => positions

/-- `none` when the fuel for the loops runs out. -/
def computeGraphLayout (fuel : ℕ) (nodes : List TopologyGraphNode)
    (edges : List TopologyGraphEdge) : Option (OrderedMap JsString Position) :=
  if nodes.isEmpty then some .empty
  else
    let found := indexNodes nodes
    if found.unique.all (·.position.isSome) then
      some (found.unique.foldl keepPosition .empty)
    else do
      let layers ← layerNodes fuel found.unique.length (linkEdges found.index edges)
      return (placeNodes layers.layer found.unique).positions

/-! ## Numbering the nodes -/

/-- The nodes found are the first of their ids, and the index leads back to them. -/
structure Numbers (seen : List TopologyGraphNode) (found : Indexed) : Prop where
  numbered : ∀ id i, found.index.get? id = some i ↔ found.unique[i]?.map (·.id) = some id
  distinct : (found.unique.map (·.id)).Nodup
  first : ∀ id, found.unique.find? (·.id = id) = seen.find? (·.id = id)

namespace Numbers

variable {seen : List TopologyGraphNode} {found : Indexed}

theorem mem_ids (numbers : Numbers seen found) {id : JsString} :
    id ∈ found.unique.map (·.id) ↔ (found.index.get? id).isSome := by
  constructor
  · intro member
    rcases List.mem_map.mp member with ⟨node, isUnique, rfl⟩
    rcases List.mem_iff_getElem?.mp isUnique with ⟨i, atIndex⟩
    rw [(numbers.numbered node.id i).mpr (by rw [atIndex, Option.map_some])]
    rfl
  · intro known
    rcases Option.isSome_iff_exists.mp known with ⟨i, indexed⟩
    rcases Option.map_eq_some_iff.mp ((numbers.numbered id i).mp indexed) with
      ⟨node, atIndex, rfl⟩
    exact List.mem_map_of_mem (List.mem_of_getElem? atIndex)

theorem again (numbers : Numbers seen found) {n : TopologyGraphNode}
    (known : n.id ∈ found.unique.map (·.id)) : Numbers (seen ++ [n]) found where
  numbered := numbers.numbered
  distinct := numbers.distinct
  first id := by
    rw [List.find?_append, ← numbers.first id]
    by_cases same : n.id = id
    · rcases List.mem_map.mp known with ⟨node, isUnique, sameId⟩
      have isFound : (found.unique.find? (·.id = id)).isSome := by
        rw [List.find?_isSome]
        exact ⟨node, isUnique, by simp [sameId, same]⟩
      rcases Option.isSome_iff_exists.mp isFound with ⟨earlier, isEarlier⟩
      rw [isEarlier, Option.some_or]
    · simp [same]

theorem push (numbers : Numbers seen found) {n : TopologyGraphNode}
    (fresh : n.id ∉ found.unique.map (·.id)) :
    Numbers (seen ++ [n])
      { unique := found.unique ++ [n]
        index := found.index.set n.id found.unique.length } where
  numbered id i := by
    by_cases isNew : id = n.id
    · subst isNew
      rw [OrderedMap.get?_set_self, Option.some_inj]
      constructor
      · intro last
        rw [← last, List.getElem?_concat_length, Option.map_some]
      · intro atIndex
        by_contra different
        apply fresh
        rcases Option.map_eq_some_iff.mp atIndex with ⟨node, isThere, sameId⟩
        rw [List.getElem?_append] at isThere
        split at isThere
        · exact sameId ▸ List.mem_map_of_mem (List.mem_of_getElem? isThere)
        · next beyond =>
            rw [List.getElem?_eq_none (by rw [List.length_singleton]; omega)] at isThere
            cases isThere
    · rw [OrderedMap.get?_set_of_ne _ _ isNew, numbers.numbered id i, List.getElem?_append]
      split
      · rfl
      · next beyond =>
          rw [List.getElem?_eq_none (not_lt.mp beyond), List.getElem?_singleton]
          split
          · simp [Ne.symm isNew]
          · rfl
  distinct := by
    rw [List.map_append, List.nodup_append]
    refine ⟨numbers.distinct, List.nodup_singleton _, ?_⟩
    intro id member other isNew same
    rw [List.map_singleton, List.mem_singleton] at isNew
    exact fresh (by rwa [← isNew, ← same])
  first id := by
    rw [List.find?_append, List.find?_append, numbers.first id]

theorem indexNode (numbers : Numbers seen found) (n : TopologyGraphNode) :
    Numbers (seen ++ [n]) (indexNode found n) := by
  unfold Web.indexNode
  split
  · next known => exact numbers.again (numbers.mem_ids.mpr known)
  · next fresh => exact numbers.push fun member => fresh (numbers.mem_ids.mp member)

theorem foldl (numbers : Numbers seen found) (nodes : List TopologyGraphNode) :
    Numbers (seen ++ nodes) (nodes.foldl Web.indexNode found) := by
  induction nodes generalizing seen found with
  | nil => rwa [List.append_nil]
  | cons n nodes ih =>
      have further := ih (numbers.indexNode n)
      rwa [List.append_assoc, List.singleton_append] at further

end Numbers

theorem indexNodes_numbers (nodes : List TopologyGraphNode) :
    Numbers nodes (indexNodes nodes) := by
  have nothing : Numbers [] ⟨[], .empty⟩ := by
    constructor
    · intro id i
      simp
    · exact List.nodup_nil
    · intro id
      rfl
  exact nothing.foldl nodes

/-! ## Links between known nodes -/

theorem mem_out_foldl {index : OrderedMap JsString ℕ} {edges : List TopologyGraphEdge}
    {links : Links} {s t : ℕ} :
    t ∈ (edges.foldl (linkEdge index) links).out s ↔ t ∈ links.out s ∨
      ∃ e ∈ edges, index.get? e.source = some s ∧ index.get? e.target = some t ∧ s ≠ t := by
  induction edges generalizing links with
  | nil => simp
  | cons e edges ih =>
      have one : t ∈ (linkEdge index links e).out s ↔ t ∈ links.out s ∨
          index.get? e.source = some s ∧ index.get? e.target = some t ∧ s ≠ t := by
        unfold linkEdge
        split
        · next first last isFirst isLast =>
            rw [isFirst, isLast, Option.some_inj, Option.some_inj]
            split
            · next same =>
                constructor
                · exact Or.inl
                · intro found
                  cases found with
                  | inl old => exact old
                  | inr new => exact absurd (new.1.symm.trans (same.trans new.2.1)) new.2.2
            · next different =>
                rw [mem_addLink]
                apply or_congr_right
                constructor
                · intro new
                  rw [new.1, new.2]
                  exact ⟨rfl, rfl, different⟩
                · intro new
                  exact ⟨new.1.symm, new.2.1.symm⟩
        · next unknown =>
            constructor
            · exact Or.inl
            · intro found
              cases found with
              | inl old => exact old
              | inr new => exact absurd new.2.1 (unknown s t new.1)
      rw [List.foldl_cons, ih, one, or_assoc]
      simp only [List.mem_cons, exists_eq_or_imp]

/-- Links join the ends of edges that are known and different. -/
theorem mem_out {index : OrderedMap JsString ℕ} {edges : List TopologyGraphEdge} {s t : ℕ} :
    t ∈ (linkEdges index edges).out s ↔
      ∃ e ∈ edges, index.get? e.source = some s ∧ index.get? e.target = some t ∧ s ≠ t := by
  unfold linkEdges
  rw [mem_out_foldl]
  simp

/-- Where an edge from a node leads, unless it is a self link or an end is missing. -/
def linkTarget (index : OrderedMap JsString ℕ) (s : ℕ) (e : TopologyGraphEdge) : Option ℕ :=
  if index.get? e.source = some s then (index.get? e.target).filter (· ≠ s) else none

/-- The links from a node are those of its edges, in the order of the edges. -/
theorem out_eq (index : OrderedMap JsString ℕ) (edges : List TopologyGraphEdge) (s : ℕ) :
    (linkEdges index edges).out s = edges.filterMap (linkTarget index s) := by
  induction edges using List.reverseRecOn with
  | nil => rfl
  | append_singleton edges e ih =>
      have step : linkEdges index (edges ++ [e]) = linkEdge index (linkEdges index edges) e := by
        rw [linkEdges, List.foldl_append]
        rfl
      rw [step, List.filterMap_append, ← ih, linkEdge]
      split
      · next first last isFirst isLast =>
          split
          · next same =>
              have nowhere : linkTarget index s e = none := by
                simp only [linkTarget, isFirst, isLast, Option.some_inj, same]
                split
                · next isNode => simp [isNode]
                · rfl
              rw [List.filterMap_cons_none nowhere, List.filterMap_nil, List.append_nil]
          · next different =>
              by_cases isNode : first = s
              · subst isNode
                have there : linkTarget index first e = some last := by
                  simp [linkTarget, isFirst, isLast, Ne.symm different]
                rw [List.filterMap_cons_some there, List.filterMap_nil]
                exact addLink_self _ _ _
              · have nowhere : linkTarget index s e = none := by
                  simp [linkTarget, isFirst, isNode]
                rw [List.filterMap_cons_none nowhere, List.filterMap_nil, List.append_nil]
                exact Function.update_of_ne (Ne.symm isNode) _ _
      · next unknown =>
          have nowhere : linkTarget index s e = none := by
            rw [linkTarget]
            split
            · next isFirst =>
                cases isLast : index.get? e.target with
                | none => rfl
                | some last => exact absurd isLast (unknown s last isFirst)
            · rfl
          rw [List.filterMap_cons_none nowhere, List.filterMap_nil, List.append_nil]

/-! ## Retained links -/

/-- What the layering of some links has to achieve. -/
structure Layered (links : Links) (layers : Layers) : Prop where
  acyclic : Acyclic layers.dag
  retained : ∀ u, layers.dag u = (links.out u).filter (· ∈ layers.dag u)
  rises : ∀ u, ∀ v ∈ layers.dag u, layers.layer u + 1 ≤ layers.layer v
  longest : ∀ v, IsGreatest (pathsTo layers.dag v) (layers.layer v)
  /-- A dropped link leads back to where retained links come from. -/
  dropped : ∀ u, ∀ v ∈ links.out u, v ∉ layers.dag u → Reaches layers.dag v u
  complete : Acyclic links.out → layers.dag = links.out

/-- Below every layer there is the next one. -/
theorem Layered.predecessor {links : Links} {layers : Layers} (layered : Layered links layers)
    {v l : ℕ} (isLayer : layers.layer v = l + 1) :
    ∃ u, v ∈ links.out u ∧ layers.layer u = l := by
  have longest := (layered.longest v).1
  rw [isLayer] at longest
  rcases mem_pathsTo_succ.mp longest with ⟨u, edge, path⟩
  have atLeast := (layered.longest u).2 path
  have below := layered.rises u v edge
  refine ⟨u, ?_, by omega⟩
  rw [layered.retained u] at edge
  exact List.mem_of_mem_filter edge

/-- There are no more layers than nodes. -/
theorem Layered.layer_lt {links : Links} {layers : Layers} (layered : Layered links layers)
    {count : ℕ} (bounded : ∀ u, ∀ v ∈ links.out u, u < count ∧ v < count) {v : ℕ}
    (inside : v < count) : layers.layer v < count := by
  have attained : ∀ l ≤ layers.layer v, l ∈ (Finset.range count).image layers.layer := by
    induction height : layers.layer v generalizing v with
    | zero =>
        intro l atMost
        rw [Finset.mem_image]
        exact ⟨v, Finset.mem_range.mpr inside, by omega⟩
    | succ height' ih =>
        intro l atMost
        rcases layered.predecessor height with ⟨u, edge, isBelow⟩
        by_cases isTop : l = height' + 1
        · rw [Finset.mem_image]
          exact ⟨v, Finset.mem_range.mpr inside, by omega⟩
        · exact ih (bounded u v edge).1 isBelow l (by omega)
  have covered : Finset.range (layers.layer v + 1) ⊆ (Finset.range count).image layers.layer :=
    fun l member => attained l (Nat.lt_succ_iff.mp (Finset.mem_range.mp member))
  have cards := le_trans (Finset.card_le_card covered) Finset.card_image_le
  rw [Finset.card_range, Finset.card_range] at cards
  exact cards

theorem mem_roots {count : ℕ} {indeg : ℕ → ℕ} {i : ℕ} : i ∈ roots count indeg ↔ i < count := by
  unfold roots
  rw [List.mem_append, List.mem_filter, List.mem_filter, List.mem_range, ← and_or_left]
  simp [em]

theorem layerNodes_layered {count : ℕ} {links : Links}
    (bounded : ∀ u, ∀ v ∈ links.out u, u < count ∧ v < count) :
    ∃ enough layers, (∀ fuel, enough ≤ fuel → layerNodes fuel count links = some layers) ∧
      Layered links layers := by
  have closed : ∀ u ∈ Finset.range count, ∀ v ∈ links.out u, v ∈ Finset.range count :=
    fun u _ v edge => Finset.mem_range.mpr (bounded u v edge).2
  have covers : ∀ u, u ∈ roots count links.indeg ↔ u ∈ Finset.range count := by
    intro u
    rw [mem_roots, Finset.mem_range]
  rcases sweep_unlooped closed covers with ⟨search, sweeps, unlooped⟩
  have noLinks : ∀ u ∉ Finset.range count, links.out u = [] := by
    intro u outside
    apply List.eq_nil_iff_forall_not_mem.mpr
    intro v edge
    exact outside (Finset.mem_range.mpr (bounded u v edge).1)
  have retained : ∀ u, search.dag u = (links.out u).filter (· ∈ search.dag u) := by
    intro u
    by_cases inside : u ∈ Finset.range count
    · exact unlooped.kept u inside
    · rw [unlooped.outside u inside, noLinks u inside]
      rfl
  have stays : ∀ u, ∀ v ∈ search.dag u, v ∈ Finset.range count := by
    intro u v edge
    rw [retained u] at edge
    exact Finset.mem_range.mpr (bounded u v (List.mem_of_mem_filter edge)).2
  rcases Layering.run_longest unlooped.acyclic stays unlooped.outside List.nodup_range
    (fun u => by rw [List.mem_range, Finset.mem_range]) unlooped.counted with
    ⟨layering, runs, rises, longest⟩
  refine ⟨max (descentFuel links.out (Finset.range count)) (Finset.range count).card,
    ⟨search.dag, layering.layer⟩, ?_, unlooped.acyclic, retained, rises, longest, ?_, ?_⟩
  · intro fuel enough
    unfold layerNodes
    rw [sweeps fuel (le_trans (le_max_left _ _) enough), Option.bind_eq_bind, Option.bind_some,
      runs fuel (le_trans (le_max_right _ _) enough)]
    rfl
  · intro u v edge notKept
    exact unlooped.closes u (Finset.mem_range.mpr (bounded u v edge).1) v edge notKept
  · intro acyclic
    funext u
    by_cases inside : u ∈ Finset.range count
    · exact unlooped.complete acyclic u inside
    · rw [noLinks u inside]
      exact unlooped.outside u inside

/-! ## Columns and rows -/

/-- A node that is placed in a column. -/
def inColumn (layer : ℕ → ℕ) (l : ℕ) (entry : TopologyGraphNode × ℕ) : Bool :=
  entry.1.position.isNone && layer entry.2 == l

/-- The position of a node that comes after others. -/
def assigned (layer : ℕ → ℕ) (before : List (TopologyGraphNode × ℕ))
    (entry : TopologyGraphNode × ℕ) : Position :=
  entry.1.position.getD
    (gridPosition (layer entry.2) (before.countP (inColumn layer (layer entry.2))))

/-- Rows count the nodes above, and every node has its position. -/
structure Places (layer : ℕ → ℕ) (items : List (TopologyGraphNode × ℕ)) (placed : Placement) :
    Prop where
  rows : ∀ l, placed.rowInLayer l = items.countP (inColumn layer l)
  keys : ∀ id, (placed.positions.get? id).isSome ↔ id ∈ items.map (·.1.id)
  positions : ∀ before entry after, items = before ++ entry :: after →
    placed.positions.get? entry.1.id = some (assigned layer before entry)

namespace Places

variable {layer : ℕ → ℕ} {items : List (TopologyGraphNode × ℕ)} {placed : Placement}
  {entry : TopologyGraphNode × ℕ}

/-- Placing a node sets its position and counts it where it is placed. -/
theorem placeNode_eq (places : Places layer items placed) (entry : TopologyGraphNode × ℕ) :
    (placeNode layer placed entry).positions =
        placed.positions.set entry.1.id (assigned layer items entry) ∧
      ∀ l, (placeNode layer placed entry).rowInLayer l =
        placed.rowInLayer l + if inColumn layer l entry then 1 else 0 := by
  unfold placeNode assigned
  cases isPlaced : entry.1.position with
  | some position => simp [inColumn, isPlaced]
  | none =>
      constructor
      · rw [Option.getD_none, ← places.rows]
      · intro l
        simp only [inColumn, isPlaced, Option.isNone_none, Bool.true_and]
        by_cases isColumn : l = layer entry.2
        · simp [isColumn]
        · simp [Function.update_of_ne isColumn, Ne.symm isColumn]

theorem step (places : Places layer items placed) (fresh : entry.1.id ∉ items.map (·.1.id)) :
    Places layer (items ++ [entry]) (placeNode layer placed entry) := by
  rcases places.placeNode_eq entry with ⟨positions, rows⟩
  constructor
  · intro l
    rw [rows, places.rows, List.countP_append, List.countP_singleton]
  · intro id
    rw [positions, List.map_append, List.mem_append, List.map_singleton, List.mem_singleton]
    by_cases isEntry : id = entry.1.id
    · simp [isEntry]
    · rw [OrderedMap.get?_set_of_ne _ _ isEntry, places.keys]
      simp [isEntry]
  · intro before other after split
    rw [positions]
    rcases List.eq_nil_or_concat after with rfl | ⟨between, last, rfl⟩
    · rcases List.append_inj' split rfl with ⟨rfl, same⟩
      rw [List.cons.injEq] at same
      rw [← same.1, OrderedMap.get?_set_self]
    · rw [List.concat_eq_append, ← List.cons_append, ← List.append_assoc] at split
      rcases List.append_inj' split rfl with ⟨earlier, _⟩
      have different : other.1.id ≠ entry.1.id := by
        intro same
        apply fresh
        rw [← same, earlier]
        simp
      rw [OrderedMap.get?_set_of_ne _ _ different]
      exact places.positions before other between earlier

end Places

theorem foldl_places (layer : ℕ → ℕ) (items : List (TopologyGraphNode × ℕ))
    (distinct : (items.map (·.1.id)).Nodup) :
    Places layer items (items.foldl (placeNode layer) ⟨fun _ => 0, .empty⟩) := by
  induction items using List.reverseRecOn with
  | nil =>
      constructor
      · intro l
        rfl
      · intro id
        simp
      · intro before entry after split
        exact absurd split.symm (List.append_ne_nil_of_right_ne_nil before (List.cons_ne_nil _ _))
  | append_singleton items entry ih =>
      rw [List.map_append, List.nodup_append, List.map_singleton] at distinct
      rw [List.foldl_append]
      apply (ih distinct.1).step
      intro member
      exact distinct.2.2 entry.1.id member entry.1.id (List.mem_singleton_self _) rfl

theorem zipIdx_ids (unique : List TopologyGraphNode) :
    unique.zipIdx.map (·.1.id) = unique.map (·.id) := by
  have nodes : unique.zipIdx.map Prod.fst = unique := List.zipIdx_map_fst 0 unique
  calc unique.zipIdx.map (·.1.id)
      = (unique.zipIdx.map Prod.fst).map (·.id) := by rw [List.map_map]; rfl
    _ = unique.map (·.id) := by rw [nodes]

theorem placeNodes_places (layer : ℕ → ℕ) {unique : List TopologyGraphNode}
    (distinct : (unique.map (·.id)).Nodup) :
    Places layer unique.zipIdx (placeNodes layer unique) := by
  apply foldl_places
  rwa [zipIdx_ids]

/-- Targets of the edges from a node, without self links and missing nodes. -/
def edgeTargets (nodes : List TopologyGraphNode) (edges : List TopologyGraphEdge)
    (id : JsString) : List JsString :=
  (edges.filter fun e => e.source = id ∧ e.target ≠ id ∧
    nodes.any (·.id = id) ∧ nodes.any (·.id = e.target)).map (·.target)

/-- One position for each id: that of its first node, or one of its own. -/
structure LaidOut (nodes : List TopologyGraphNode) (positions : OrderedMap JsString Position) :
    Prop where
  ids : ∀ id, id ∈ positions.keys ↔ id ∈ nodes.map (·.id)
  explicit : ∀ node position, nodes.find? (·.id = node.id) = some node →
    node.position = some position → positions.get? node.id = some position
  apart : ∀ first second, nodes.find? (·.id = first.id) = some first → first.position = none →
    nodes.find? (·.id = second.id) = some second → second.position = none →
      first.id ≠ second.id → positions.get? first.id ≠ positions.get? second.id

theorem gridPosition_injective {l l' row row' : ℕ}
    (same : gridPosition l row = gridPosition l' row') : l = l' ∧ row = row' := by
  simp only [gridPosition, JsNumber.ofNat, Position.mk.injEq, JsNumber.finite.injEq,
    Nat.cast_inj] at same
  exact ⟨Nat.eq_of_mul_eq_mul_right (by decide) same.1,
    Nat.eq_of_mul_eq_mul_right (by decide) same.2⟩

section Found

variable {nodes : List TopologyGraphNode} {found : Indexed} (numbers : Numbers nodes found)

section Unique

include numbers

/-- The first node of an id stands in the list of nodes found. -/
theorem Numbers.mem_unique_iff {node : TopologyGraphNode} :
    node ∈ found.unique ↔ nodes.find? (·.id = node.id) = some node := by
  rw [← numbers.first]
  constructor
  · intro member
    have isFound : (found.unique.find? (·.id = node.id)).isSome := by
      rw [List.find?_isSome]
      exact ⟨node, member, by simp⟩
    rcases Option.isSome_iff_exists.mp isFound with ⟨other, isOther⟩
    have sameId : other.id = node.id := by simpa using List.find?_some isOther
    have same := List.inj_on_of_nodup_map numbers.distinct (List.mem_of_find?_eq_some isOther)
      member sameId
    rw [isOther, same]
  · exact List.mem_of_find?_eq_some

theorem Numbers.mem_ids_iff {id : JsString} :
    id ∈ found.unique.map (·.id) ↔ id ∈ nodes.map (·.id) := by
  have inList : ∀ list : List TopologyGraphNode,
      id ∈ list.map (·.id) ↔ (list.find? (·.id = id)).isSome := by
    intro list
    rw [List.find?_isSome, List.mem_map]
    simp
  rw [inList, inList, numbers.first]

end Unique

/-! ### Where a node comes to stand -/

variable {layer : ℕ → ℕ} {placed : Placement} {i j : ℕ} {node : TopologyGraphNode}

theorem zipIdx_split {unique : List TopologyGraphNode} (atIndex : unique[i]? = some node) :
    unique.zipIdx = unique.zipIdx.take i ++ (node, i) :: unique.zipIdx.drop (i + 1) := by
  have inBounds : i < unique.zipIdx.length := by
    rw [List.length_zipIdx]
    exact (List.getElem?_eq_some_iff.mp atIndex).1
  have entry : unique.zipIdx[i] = (node, i) := by
    rw [List.getElem_zipIdx, (List.getElem?_eq_some_iff.mp atIndex).2, Nat.zero_add]
  rw [← entry, ← List.drop_eq_getElem_cons inBounds, List.take_append_drop]

/-- The row of a node counts the earlier nodes of its column. -/
def rowOf (layer : ℕ → ℕ) (unique : List TopologyGraphNode) (i : ℕ) : ℕ :=
  (unique.zipIdx.take i).countP (inColumn layer (layer i))

/-- Later nodes of a column stand in later rows. -/
theorem rowOf_lt {unique : List TopologyGraphNode} (atIndex : unique[i]? = some node)
    (noPosition : node.position = none) (sameLayer : layer i = layer j) (before : i < j) :
    rowOf layer unique i < rowOf layer unique j := by
  have taken : unique.zipIdx.take (i + 1) = unique.zipIdx.take i ++ [(node, i)] := by
    rw [List.take_add_one, List.getElem?_zipIdx, atIndex, Option.map_some, Nat.zero_add]
    rfl
  have counted : inColumn layer (layer i) (node, i) = true := by simp [inColumn, noPosition]
  have more := (List.take_sublist_take_left (l := unique.zipIdx) before).countP_le
    (p := inColumn layer (layer i))
  rw [taken, List.countP_append, List.countP_singleton, if_pos counted] at more
  unfold rowOf
  rw [← sameLayer]
  exact more

/-- Where the last of some items was counted. -/
theorem exists_last_counted {ι : Type*} {counts : ι → Bool} {items : List ι} {count : ℕ}
    (total : items.countP counts = count + 1) :
    ∃ before last after, items = before ++ last :: after ∧ counts last = true ∧
      before.countP counts = count := by
  induction items using List.reverseRecOn with
  | nil => cases total
  | append_singleton items item ih =>
      rw [List.countP_append, List.countP_singleton] at total
      by_cases counted : counts item = true
      · rw [if_pos counted] at total
        exact ⟨items, item, [], rfl, counted, Nat.succ.inj total⟩
      · rw [if_neg counted, Nat.add_zero] at total
        rcases ih total with ⟨before, last, after, split, isCounted, rest⟩
        refine ⟨before, last, after ++ [item], ?_, isCounted, rest⟩
        rw [split, List.append_assoc, List.cons_append]

/-- The earlier nodes of a column fill its rows from the top. -/
theorem rowOf_succ {unique : List TopologyGraphNode} {row : ℕ}
    (isRow : rowOf layer unique i = row + 1) :
    ∃ j node, unique[j]? = some node ∧ layer j = layer i ∧ rowOf layer unique j = row := by
  rcases exists_last_counted isRow with ⟨before, ⟨node, j⟩, after, split, isCounted, rest⟩
  have whole : before ++ (node, j) :: (after ++ unique.zipIdx.drop i) = unique.zipIdx := by
    rw [← List.cons_append, ← List.append_assoc, ← split, List.take_append_drop]
  have entry : unique.zipIdx[before.length]? = some (node, j) := by
    rw [← whole, List.getElem?_append_right le_rfl, Nat.sub_self]
    rfl
  rw [List.getElem?_zipIdx, Option.map_eq_some_iff] at entry
  rcases entry with ⟨first, atIndex, same⟩
  rw [Prod.mk.injEq, Nat.zero_add] at same
  rcases same with ⟨rfl, rfl⟩
  have sameLayer : layer before.length = layer i := by
    simp only [inColumn, Bool.and_eq_true, beq_iff_eq] at isCounted
    exact isCounted.2
  refine ⟨before.length, first, atIndex, sameLayer, ?_⟩
  rw [rowOf, sameLayer, ← whole, List.take_left' rfl]
  exact rest

/-- Nodes with different ids are all kept. -/
theorem indexNodes_unique {nodes : List TopologyGraphNode} (distinct : (nodes.map (·.id)).Nodup) :
    (indexNodes nodes).unique = nodes := by
  induction nodes using List.reverseRecOn with
  | nil => rfl
  | append_singleton nodes n ih =>
      rw [List.map_append, List.nodup_append, List.map_singleton] at distinct
      have numbers := indexNodes_numbers nodes
      have fresh : ¬ ((indexNodes nodes).index.get? n.id).isSome := by
        rw [← numbers.mem_ids, numbers.mem_ids_iff]
        intro member
        exact distinct.2.2 n.id member n.id (List.mem_singleton_self _) rfl
      have last : indexNodes (nodes ++ [n]) = indexNode (indexNodes nodes) n := by
        unfold indexNodes
        rw [List.foldl_append]
        rfl
      rw [last, indexNode, if_neg fresh, ih distinct.1]

/-- A node without a position stands in the column of its layer. -/
theorem Places.column {unique : List TopologyGraphNode} (places : Places layer unique.zipIdx placed)
    (atIndex : unique[i]? = some node) (noPosition : node.position = none) :
    placed.positions.get? node.id = some (gridPosition (layer i) (rowOf layer unique i)) := by
  rw [places.positions _ _ _ (zipIdx_split atIndex), assigned, noPosition, Option.getD_none]
  rfl

include numbers in
theorem Places.laidOut (places : Places layer found.unique.zipIdx placed) :
    LaidOut nodes placed.positions where
  ids id := by
    rw [OrderedMap.mem_keys_iff, ← Option.isSome_iff_exists, places.keys, zipIdx_ids,
      numbers.mem_ids_iff]
  explicit node position isFirst hasPosition := by
    rcases List.mem_iff_getElem?.mp (numbers.mem_unique_iff.mpr isFirst) with ⟨i, atIndex⟩
    rw [places.positions _ _ _ (zipIdx_split atIndex), assigned, hasPosition, Option.getD_some]
  apart first second isFirst firstFree isSecond secondFree different same := by
    rcases List.mem_iff_getElem?.mp (numbers.mem_unique_iff.mpr isFirst) with ⟨i, atFirst⟩
    rcases List.mem_iff_getElem?.mp (numbers.mem_unique_iff.mpr isSecond) with ⟨j, atSecond⟩
    rw [places.column atFirst firstFree, places.column atSecond secondFree, Option.some_inj] at same
    rcases gridPosition_injective same with ⟨sameLayer, sameRow⟩
    rcases lt_trichotomy i j with before | rfl | after
    · exact absurd sameRow (rowOf_lt atFirst firstFree sameLayer before).ne
    · rw [atFirst, Option.some_inj] at atSecond
      exact different (congrArg TopologyGraphNode.id atSecond)
    · exact absurd sameRow (rowOf_lt atSecond secondFree sameLayer.symm after).ne'

end Found

/-- The layout when every node has a position places no node in a column. -/
theorem foldl_keepPosition (layer : ℕ → ℕ) {unique : List TopologyGraphNode}
    (all : ∀ node ∈ unique, node.position.isSome) (offset : ℕ) (placed : Placement) :
    ((unique.zipIdx offset).foldl (placeNode layer) placed).positions =
      unique.foldl keepPosition placed.positions := by
  induction unique generalizing offset placed with
  | nil => rfl
  | cons node unique ih =>
      rcases Option.isSome_iff_exists.mp (all node List.mem_cons_self) with ⟨position, hasPosition⟩
      rw [List.zipIdx_cons, List.foldl_cons, List.foldl_cons,
        ih fun other member => all other (List.mem_cons_of_mem node member)]
      simp only [placeNode, keepPosition, hasPosition]

section Numbered

variable {nodes : List TopologyGraphNode} {found : Indexed} (numbers : Numbers nodes found)
  (edges : List TopologyGraphEdge)
include numbers

theorem Numbers.lt_length {id : JsString} {i : ℕ} (indexed : found.index.get? id = some i) :
    i < found.unique.length := by
  by_contra beyond
  have missing := (numbers.numbered id i).mp indexed
  rw [List.getElem?_eq_none (not_lt.mp beyond)] at missing
  cases missing

theorem Numbers.bounded (u v : ℕ) (edge : v ∈ (linkEdges found.index edges).out u) :
    u < found.unique.length ∧ v < found.unique.length := by
  rcases mem_out.mp edge with ⟨e, _, isSource, isTarget, _⟩
  exact ⟨numbers.lt_length isSource, numbers.lt_length isTarget⟩

/-- The links have no cycle if the edges have none. -/
theorem Numbers.acyclic_out (acyclic : Acyclic (edgeTargets nodes edges)) :
    Acyclic (linkEdges found.index edges).out := by
  let idOf : ℕ → JsString := fun i => (found.unique[i]?.map (·.id)).getD []
  have ofIndex : ∀ {id i}, found.index.get? id = some i → idOf i = id := by
    intro id i indexed
    simp only [idOf, (numbers.numbered id i).mp indexed, Option.getD_some]
  have known : ∀ {id i}, found.index.get? id = some i → nodes.any (·.id = id) = true := by
    intro id i indexed
    have member := numbers.mem_ids_iff.mp (numbers.mem_ids.mpr (by rw [indexed]; rfl))
    simpa [List.any_eq_true] using member
  have lifts : ∀ u v, Edge (linkEdges found.index edges).out u v →
      Edge (edgeTargets nodes edges) (idOf u) (idOf v) := by
    intro u v edge
    rcases mem_out.mp edge with ⟨e, member, isSource, isTarget, different⟩
    rw [ofIndex isSource, ofIndex isTarget]
    apply List.mem_map.mpr
    refine ⟨e, List.mem_filter.mpr ⟨member, ?_⟩, rfl⟩
    have notSelf : e.target ≠ e.source := by
      intro same
      rw [same, isSource, Option.some_inj] at isTarget
      exact different isTarget
    simp [notSelf, known isSource, known isTarget]
  intro u circle
  exact acyclic (idOf u) (circle.lift idOf lifts)

end Numbered

/-- With enough fuel the layout is that of the layers. -/
theorem computeGraphLayout_eq (nodes : List TopologyGraphNode) (edges : List TopologyGraphEdge) :
    ∃ enough layers, (∀ fuel, enough ≤ fuel →
        layerNodes fuel (indexNodes nodes).unique.length
            (linkEdges (indexNodes nodes).index edges) = some layers ∧
          computeGraphLayout fuel nodes edges =
            some (placeNodes layers.layer (indexNodes nodes).unique).positions) ∧
      Layered (linkEdges (indexNodes nodes).index edges) layers := by
  have numbers := indexNodes_numbers nodes
  rcases layerNodes_layered (numbers.bounded edges) with ⟨enough, layers, runs, layered⟩
  refine ⟨enough, layers, fun fuel more => ⟨runs fuel more, ?_⟩, layered⟩
  unfold computeGraphLayout
  split
  · next isEmpty =>
      rw [List.isEmpty_iff.mp isEmpty]
      rfl
  · dsimp only
    split
    · next all =>
        rw [placeNodes, foldl_keepPosition]
        intro node member
        exact List.all_eq_true.mp all node member
    · rw [runs fuel more]
      rfl

/-- The layout ends and gives every id one position.  Unless all nodes have positions, there is
a link for every edge between different nodes, parallel ones included, the links retained for
the columns have no cycle, the column of a node is the length of the longest retained path to
it, and every dropped link closes a cycle. -/
theorem computeGraphLayout_laidOut (nodes : List TopologyGraphNode)
    (edges : List TopologyGraphEdge) :
    ∃ enough positions, (∀ fuel, enough ≤ fuel →
        computeGraphLayout fuel nodes edges = some positions) ∧
      LaidOut nodes positions ∧
      ((∃ node, nodes.find? (·.id = node.id) = some node ∧ node.position = none) →
        ∃ layers, (∀ fuel, enough ≤ fuel →
            layerNodes fuel (indexNodes nodes).unique.length
              (linkEdges (indexNodes nodes).index edges) = some layers) ∧
          Layered (linkEdges (indexNodes nodes).index edges) layers ∧
          (∀ s t, t ∈ (linkEdges (indexNodes nodes).index edges).out s ↔
            ∃ e ∈ edges, (indexNodes nodes).index.get? e.source = some s ∧
              (indexNodes nodes).index.get? e.target = some t ∧ s ≠ t) ∧
          (∀ s, (linkEdges (indexNodes nodes).index edges).out s =
            edges.filterMap (linkTarget (indexNodes nodes).index s)) ∧
          (∀ id i, (indexNodes nodes).index.get? id = some i ↔
            (indexNodes nodes).unique[i]?.map (·.id) = some id) ∧
          (∀ i node, (indexNodes nodes).unique[i]? = some node → node.position = none →
            ∃ row, positions.get? node.id = some (gridPosition (layers.layer i) row)) ∧
          (Acyclic (edgeTargets nodes edges) →
            layers.dag = (linkEdges (indexNodes nodes).index edges).out)) := by
  have numbers := indexNodes_numbers nodes
  rcases computeGraphLayout_eq nodes edges with ⟨enough, layers, computed, layered⟩
  have places := placeNodes_places layers.layer numbers.distinct
  refine ⟨enough, (placeNodes layers.layer (indexNodes nodes).unique).positions,
    fun fuel more => (computed fuel more).2, places.laidOut numbers, ?_⟩
  intro _
  refine ⟨layers, fun fuel more => (computed fuel more).1, layered, fun _ _ => mem_out,
    out_eq _ edges, numbers.numbered, ?_, ?_⟩
  · intro i node atIndex noPosition
    exact ⟨_, places.column atIndex noPosition⟩
  · intro acyclic
    exact layered.complete (numbers.acyclic_out edges acyclic)

/-- Three nodes without positions. -/
def ringNodes : List TopologyGraphNode :=
  ["a", "b", "c"].map fun id => ⟨JsString.ofString id, none⟩

/-- A cycle with an edge that is given twice, a self link and an edge to a missing node. -/
def ringEdges : List TopologyGraphEdge :=
  [("a", "b"), ("a", "b"), ("b", "c"), ("c", "a"), ("a", "a"), ("a", "x")].map
    fun (source, target) => ⟨JsString.ofString source, JsString.ofString target⟩

/-- The edge that is given twice gives two links. -/
theorem computeGraphLayout_ring :
    ∃ enough positions, (∀ fuel, enough ≤ fuel →
        computeGraphLayout fuel ringNodes ringEdges = some positions) ∧
      ∃ layers, Layered (linkEdges (indexNodes ringNodes).index ringEdges) layers ∧
        (linkEdges (indexNodes ringNodes).index ringEdges).out 0 = [1, 1] := by
  rcases computeGraphLayout_laidOut ringNodes ringEdges with
    ⟨enough, positions, computed, _, unplaced⟩
  rcases unplaced ⟨⟨JsString.ofString "a", none⟩, rfl, rfl⟩ with ⟨layers, _, layered, _, listed, _⟩
  refine ⟨enough, positions, computed, layers, layered, ?_⟩
  rw [listed]
  decide +kernel

/-- The link back to the start of the cycle takes no part in the columns. -/
example : (computeGraphLayout 20 ringNodes ringEdges).map (fun positions =>
    positions.entries.map Prod.snd) =
      some [gridPosition 0 0, gridPosition 1 0, gridPosition 2 0] := by
  decide +kernel

end BelugaManager.Web
