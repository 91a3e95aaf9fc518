import BelugaManager.Web.GraphNavigation
import BelugaManager.Web.GraphSanitize
import Mathlib.Data.Finset.Max

/-!
# The topology graph view

`components/graph/TopologyGraph.tsx` draws what is left of its nodes and edges after sanitizing
them, and arrow keys lead from one drawn node to another.  Nodes on shelves, columns that are
filled from the top, are all reached, also if there are columns without nodes between them.
-/

namespace BelugaManager.Web

open Foundation

namespace Shelves

variable {items : List (JsString × Cell)} {size : ℕ} (shelves : Shelves items size)
  {r : Rounding} (keeps : r.Keeps (2000 * size))
include shelves keeps

/-- Right and left lead between the first nodes of two columns that have none between them. -/
theorem leads_across {left right : JsString × Cell} (isLeft : left ∈ items)
    (isRight : right ∈ items) {l m : ℕ} (leftCell : left.2 = (l, 0)) (rightCell : right.2 = (m, 0))
    (before : l < m) (between : ∀ other ∈ items, other.2.1 ≤ l ∨ m ≤ other.2.1) :
    Leads r (gridPoints items) left.1 right.1 ∧ Leads r (gridPoints items) right.1 left.1 := by
  have positive : (0 : ℤ) < 310 * (m - l) := by omega
  constructor
  · apply shelves.leads_next isLeft isRight keeps .ArrowRight positive
    · simp [distanceAlong, DIRECTIONS, leftCell, rightCell]
    · simp [distanceAcross, DIRECTIONS, leftCell, rightCell]
    · intro other isOther ahead
      have aside := between other isOther
      simp only [distanceAlong, DIRECTIONS, leftCell] at ahead ⊢
      omega
    · intro other sameAlong sameAcross
      simp only [distanceAlong, distanceAcross, DIRECTIONS, leftCell, abs_eq_zero] at *
      rw [rightCell]
      ext
      · change other.1 = m
        omega
      · change other.2 = 0
        omega
  · apply shelves.leads_next isRight isLeft keeps .ArrowLeft positive
    · simp only [distanceAlong, DIRECTIONS, leftCell, rightCell]
      omega
    · simp [distanceAcross, DIRECTIONS, leftCell, rightCell]
    · intro other isOther ahead
      have aside := between other isOther
      simp only [distanceAlong, DIRECTIONS, rightCell] at ahead ⊢
      omega
    · intro other sameAlong sameAcross
      simp only [distanceAlong, distanceAcross, DIRECTIONS, rightCell, abs_eq_zero] at *
      rw [leftCell]
      ext
      · change other.1 = l
        omega
      · change other.2 = 0
        omega

/-- The first node of a column is linked to that of the first column that has nodes. -/
theorem leftmost {top : JsString × Cell} (isTop : top ∈ items) {l : ℕ} (cell : top.2 = (l, 0)) :
    ∃ first ∈ items, first.2.2 = 0 ∧ (∀ other ∈ items, first.2.1 ≤ other.2.1) ∧
      LeadsOn r (gridPoints items) top.1 first.1 ∧ LeadsOn r (gridPoints items) first.1 top.1 := by
  induction l using Nat.strong_induction_on generalizing top with
  | _ l ih =>
      by_cases isFirst : ∀ other ∈ items, l ≤ other.2.1
      · exact ⟨top, isTop, by rw [cell], by rwa [cell], .refl, .refl⟩
      · -- the nearest column on the left
        let earlier := (items.map (·.2.1)).toFinset.filter (· < l)
        have mem_earlier : ∀ column, column ∈ earlier ↔ (∃ other ∈ items, other.2.1 = column) ∧
            column < l := by
          intro column
          simp [earlier]
        have nonempty : earlier.Nonempty := by
          push Not at isFirst
          rcases isFirst with ⟨other, isOther, before⟩
          exact ⟨other.2.1, (mem_earlier _).mpr ⟨⟨other, isOther, rfl⟩, before⟩⟩
        rcases earlier.exists_max_image id nonempty with ⟨column, isEarlier, largest⟩
        rcases (mem_earlier column).mp isEarlier with ⟨⟨other, isOther, rfl⟩, before⟩
        rcases shelves.top_of_column keeps isOther with ⟨next, isNext, nextCell, _, _⟩
        have between : ∀ item ∈ items, item.2.1 ≤ other.2.1 ∨ l ≤ item.2.1 := by
          intro item isItem
          by_cases left : item.2.1 < l
          · exact Or.inl (largest _ ((mem_earlier _).mpr ⟨⟨item, isItem, rfl⟩, left⟩))
          · exact Or.inr (not_lt.mp left)
        have across := shelves.leads_across keeps isNext isTop nextCell cell before between
        rcases ih other.2.1 before isNext nextCell with ⟨first, inItems, row, least, forth, back⟩
        exact ⟨first, inItems, row, least, .head across.2 forth, back.tail across.1⟩

/-- On shelves every node leads to every other. -/
theorem leadsOn {here there : JsString × Cell} (isHere : here ∈ items) (isThere : there ∈ items) :
    LeadsOn r (gridPoints items) here.1 there.1 := by
  have toFirst : ∀ item ∈ items, ∃ first ∈ items, first.2.2 = 0 ∧
      (∀ other ∈ items, first.2.1 ≤ other.2.1) ∧
        LeadsOn r (gridPoints items) item.1 first.1 ∧
          LeadsOn r (gridPoints items) first.1 item.1 := by
    intro item member
    rcases shelves.top_of_column keeps member with ⟨top, isTop, cell, forth, back⟩
    rcases shelves.leftmost keeps isTop cell with ⟨first, isFirst, row, least, onward, homeward⟩
    exact ⟨first, isFirst, row, least, forth.trans onward, homeward.trans back⟩
  rcases toFirst here isHere with ⟨first, isFirst, row, least, forth, _⟩
  rcases toFirst there isThere with ⟨other, isOther, otherRow, otherLeast, _, back⟩
  have sameColumn := le_antisymm (otherLeast first isFirst) (least other isOther)
  have same : other = first := List.inj_on_of_nodup_map shelves.cells isOther isFirst
    (Prod.ext sameColumn (otherRow.trans row.symm))
  rw [same] at back
  exact forth.trans back

end Shelves

/-! ## What the view draws -/

/-- The points of the view: where the nodes that were kept stand. -/
def shownPoints (fuel : ℕ) (rawNodes : List TopologyGraphNode) (rawEdges : List GraphEdge) :
    Option (List NavigablePoint) := do
  let sanitized := sanitizeGraph rawNodes rawEdges
  let positions ← computeGraphLayout fuel sanitized.nodes
    (sanitized.edges.map (·.toTopologyGraphEdge))
  return navigablePoints sanitized.nodes positions

/-- The view shows one point for every id and the arrow keys lead from each to all others. -/
structure Navigable (ids : List JsString) (points : List NavigablePoint) : Prop where
  shown : ∀ id, id ∈ points.map (·.id) ↔ id ∈ ids
  once : (points.map (·.id)).Nodup
  reached : ∀ here ∈ ids, ∀ there ∈ ids, LeadsOn .lossless points here there
  /-- Rounding plays no part in graphs that fit into an array. -/
  rounded : points.length < 2 ^ 32 → ∀ r : Rounding, ∀ here ∈ ids, ∀ there ∈ ids,
    LeadsOn r points here there

/-- The view ends up with some points that can be navigated. -/
def Draws (rawNodes : List TopologyGraphNode) (rawEdges : List GraphEdge) : Prop :=
  ∃ enough points, (∀ fuel, enough ≤ fuel → shownPoints fuel rawNodes rawEdges = some points) ∧
    Navigable (rawNodes.map (·.id)) points

/-- The view ends up with the nodes in given cells, where they can be navigated. -/
def DrawsAt (rawNodes : List TopologyGraphNode) (rawEdges : List GraphEdge)
    (items : List (JsString × Cell)) : Prop :=
  ∃ enough, (∀ fuel, enough ≤ fuel →
      shownPoints fuel rawNodes rawEdges = some (gridPoints items)) ∧
    Navigable (rawNodes.map (·.id)) (gridPoints items)

theorem DrawsAt.draws {rawNodes : List TopologyGraphNode} {rawEdges : List GraphEdge}
    {items : List (JsString × Cell)} (drawsAt : DrawsAt rawNodes rawEdges items) :
    Draws rawNodes rawEdges := by
  rcases drawsAt with ⟨enough, computed, navigable⟩
  exact ⟨enough, gridPoints items, computed, navigable⟩

theorem Shelves.navigable {items : List (JsString × Cell)} {size : ℕ}
    (shelves : Shelves items size) (small : size ≤ items.length + 2 ^ 32) {ids : List JsString}
    (sameIds : ∀ id, id ∈ items.map Prod.fst ↔ id ∈ ids) : Navigable ids (gridPoints items) := by
  have points : (gridPoints items).map (·.id) = items.map Prod.fst := by
    rw [gridPoints, List.map_map]
    rfl
  have reaches : ∀ r : Rounding, r.Keeps (2000 * size) → ∀ here ∈ ids, ∀ there ∈ ids,
      LeadsOn r (gridPoints items) here there := by
    intro r keeps here isHere there isThere
    rcases List.mem_map.mp ((sameIds here).mpr isHere) with ⟨hereItem, inItems, rfl⟩
    rcases List.mem_map.mp ((sameIds there).mpr isThere) with ⟨thereItem, thereInItems, rfl⟩
    exact shelves.leadsOn keeps inItems thereInItems
  constructor
  · intro id
    rw [points, sameIds]
  · rw [points]
    exact shelves.ids
  · exact reaches .lossless (Rounding.keeps_lossless _)
  · intro array r
    rw [gridPoints, List.length_map] at array
    exact reaches r (r.keeps_of_le (by omega))

section View

variable (rawNodes : List TopologyGraphNode) (rawEdges : List GraphEdge)

theorem mem_ids_sanitizeGraph {id : JsString} :
    id ∈ (sanitizeGraph rawNodes rawEdges).nodes.map (·.id) ↔ id ∈ rawNodes.map (·.id) := by
  rw [sanitizeGraph_nodes]
  exact mem_keys_firsts TopologyGraphNode.id

/-- The view is drawn on shelves if the layout puts the nodes there. -/
theorem draws_of_shelves {items : List (JsString × Cell)} {size : ℕ}
    (shelves : Shelves items size) (small : size ≤ items.length + 2 ^ 32)
    (isItems : items.map Prod.fst = (sanitizeGraph rawNodes rawEdges).nodes.map (·.id))
    {enough : ℕ} {positions : OrderedMap JsString Position}
    (computed : ∀ fuel, enough ≤ fuel → computeGraphLayout fuel
      (sanitizeGraph rawNodes rawEdges).nodes
      ((sanitizeGraph rawNodes rawEdges).edges.map (·.toTopologyGraphEdge)) = some positions)
    (points : navigablePoints (sanitizeGraph rawNodes rawEdges).nodes positions =
      gridPoints items) :
    DrawsAt rawNodes rawEdges items := by
  refine ⟨enough, ?_, ?_⟩
  · intro fuel more
    rw [shownPoints, computed fuel more, ← points]
    rfl
  · apply shelves.navigable small
    intro id
    rw [isItems, mem_ids_sanitizeGraph]

/-- Nodes without positions are drawn, whatever the edges are. -/
theorem draws_of_free (free : ∀ node ∈ rawNodes, node.position = none) :
    Draws rawNodes rawEdges := by
  have result := sanitized rawNodes rawEdges
  have keptFree : ∀ node ∈ (sanitizeGraph rawNodes rawEdges).nodes, node.position = none :=
    fun node member => free node (result.nodesInOrder.subset member)
  rcases computeGraphLayout_eq (sanitizeGraph rawNodes rawEdges).nodes
    ((sanitizeGraph rawNodes rawEdges).edges.map (·.toTopologyGraphEdge)) with
    ⟨enough, layers, computed, layered⟩
  have places := placeNodes_places layers.layer
    (indexNodes_numbers (sanitizeGraph rawNodes rawEdges).nodes).distinct
  rw [indexNodes_unique result.nodeIds] at places
  have grid := grid_cellsOf result.nodeIds keptFree layered
  have ids : (cellsOf layers.layer (sanitizeGraph rawNodes rawEdges).nodes).map Prod.fst =
      (sanitizeGraph rawNodes rawEdges).nodes.map (·.id) := by
    rw [← zipIdx_ids, cellsOf, List.map_map]
    rfl
  have size : (sanitizeGraph rawNodes rawEdges).nodes.length =
      (cellsOf layers.layer (sanitizeGraph rawNodes rawEdges).nodes).length := by
    have lengths := congrArg List.length ids
    rwa [List.length_map, List.length_map, eq_comm] at lengths
  rw [indexNodes_unique result.nodeIds] at computed
  exact (draws_of_shelves rawNodes rawEdges grid.shelves (by omega) ids
    (fun fuel more => (computed fuel more).2) (navigablePoints_eq keptFree places)).draws

end View

/-- A node that comes with the position of a cell. -/
def placedNode (item : JsString × Cell) : TopologyGraphNode where
  id := item.1
  position := some (gridPosition item.2.1 item.2.2)

/-- Nodes that come with the positions of shelves are drawn there. -/
theorem draws_of_placed {items : List (JsString × Cell)} (rawEdges : List GraphEdge) {size : ℕ}
    (shelves : Shelves (firsts Prod.fst items) size)
    (small : size ≤ (firsts Prod.fst items).length + 2 ^ 32) :
    DrawsAt (items.map placedNode) rawEdges (firsts Prod.fst items) := by
  have result := sanitized (items.map placedNode) rawEdges
  have kept : (sanitizeGraph (items.map placedNode) rawEdges).nodes =
      (firsts Prod.fst items).map placedNode := by
    rw [sanitizeGraph_nodes, firsts_map]
    rfl
  rcases computeGraphLayout_eq (sanitizeGraph (items.map placedNode) rawEdges).nodes
    ((sanitizeGraph (items.map placedNode) rawEdges).edges.map (·.toTopologyGraphEdge)) with
    ⟨enough, layers, computed, _⟩
  have numbers := indexNodes_numbers (sanitizeGraph (items.map placedNode) rawEdges).nodes
  have laidOut := (placeNodes_places layers.layer numbers.distinct).laidOut numbers
  apply draws_of_shelves _ _ shelves small _ fun fuel more => (computed fuel more).2
  · rw [navigablePoints, gridPoints, kept, List.map_map]
    apply List.map_congr_left
    intro item member
    have isUnique : placedNode item ∈
        (indexNodes (sanitizeGraph (items.map placedNode) rawEdges).nodes).unique := by
      rw [indexNodes_unique result.nodeIds, kept]
      exact List.mem_map_of_mem member
    have isFirst := numbers.mem_unique_iff.mp isUnique
    rw [← kept, Function.comp_apply, laidOut.explicit (placedNode item) _ isFirst rfl]
    rfl
  · rw [kept, List.map_map]
    rfl

end BelugaManager.Web
