import BelugaManager.Foundation.Text
import BelugaManager.Web.GraphLayout

/-!
# Arrow keys in a topology graph

`components/graph/navigation.ts`: an arrow key leads to the node with the best score among
those that lie in its direction.  On the grid of the layout the four keys together lead
from every node to every other one.
-/

namespace BelugaManager.Web

open Foundation Foundation.Graph

inductive ArrowKey where
  | ArrowUp
  | ArrowDown
  | ArrowLeft
  | ArrowRight

inductive NavigationKey where
  | arrow (key : ArrowKey)
  | Home
  | End

structure NavigablePoint where
  id : JsString
  x : JsNumber
  y : JsNumber

structure Direction where
  x : ℤ
  y : ℤ

def DIRECTIONS : ArrowKey → Direction
  | .ArrowUp => ⟨0, -1⟩
  | .ArrowDown => ⟨0, 1⟩
  | .ArrowLeft => ⟨-1, 0⟩
  | .ArrowRight => ⟨1, 0⟩

def PERPENDICULAR_WEIGHT : ℕ := 2

/-- The points of a graph, as `TopologyGraph.tsx` hands them over. -/
def navigablePoints (nodes : List TopologyGraphNode) (positions : OrderedMap JsString Position) :
    List NavigablePoint :=
  nodes.map fun n =>
    let p := (positions.get? n.id).getD (n.position.getD ⟨.ofNat 0, .ofNat 0⟩)
    ⟨n.id, p.x, p.y⟩

section Find

variable (r : Rounding)

/-- `a.y - b.y || a.x - b.x` -/
def readingOrder (a b : NavigablePoint) : ℤ :=
  let dy := r.sub a.y b.y
  if dy.sign ≠ 0 then dy.sign else (r.sub a.x b.x).sign

/-- The score of a point that is not the current one and lies in the pressed direction. -/
def scoreOf (dir : Direction) (current p : NavigablePoint) : Option JsNumber :=
  let cx := r.add current.x (.finite (GRAPH_NODE_WIDTH / 2))
  let cy := r.add current.y (.finite (GRAPH_NODE_HEIGHT / 2))
  if p.id = current.id then none
  else
    let dx := r.sub (r.add p.x (.finite (GRAPH_NODE_WIDTH / 2))) cx
    let dy := r.sub (r.add p.y (.finite (GRAPH_NODE_HEIGHT / 2))) cy
    let along := r.add (r.mul dx (.finite dir.x)) (r.mul dy (.finite dir.y))
    if JsNumber.atMost along (.ofNat 0) then none
    else
      let across := (r.add (r.mul dx (.finite dir.y)) (r.mul dy (.finite dir.x))).abs
      some (r.add along (r.mul (.ofNat PERPENDICULAR_WEIGHT) across))

/-- Of two points with the same score the earlier one stays. -/
def better (dir : Direction) (current : NavigablePoint) (best : Option (JsString × JsNumber))
    (p : NavigablePoint) : Option (JsString × JsNumber) :=
  match scoreOf r dir current p, best with
  | none, _ => best
  | some score, none => some (p.id, score)
  | some score, some (id, lowest) =>
      if JsNumber.less score lowest then some (p.id, score) else some (id, lowest)

/-- `none` means that the focus stays. -/
def findNextNodeId (points : List NavigablePoint) (currentId : JsString) (key : NavigationKey) :
    Option JsString :=
  let points := points.filter fun p => p.x.isFinite && p.y.isFinite
  let sorted := Text.sortBy (readingOrder r) points
  match key with
  | .Home => sorted.head?.map (·.id)
  | .End => sorted.getLast?.map (·.id)
  | .arrow key =>
      match points.find? (·.id = currentId) with
      | none => none
      | some current => (points.foldl (better r (DIRECTIONS key) current) none).map (·.1)

/-- An arrow key leads from one node to another. -/
def Leads (points : List NavigablePoint) (here there : JsString) : Prop :=
  ∃ key : ArrowKey, findNextNodeId r points here (.arrow key) = some there

/-- Some sequence of arrow keys leads from one node to another. -/
def LeadsOn (points : List NavigablePoint) : JsString → JsString → Prop :=
  Relation.ReflTransGen (Leads r points)

end Find

section Best

variable {r : Rounding} {dir : Direction} {current target : NavigablePoint} {score : JsNumber}

theorem foldl_better_of_lowest {points : List NavigablePoint}
    (noBetter : ∀ p ∈ points, ∀ other, scoreOf r dir current p = some other →
      JsNumber.less other score = false) :
    points.foldl (better r dir current) (some (target.id, score)) = some (target.id, score) := by
  induction points with
  | nil => rfl
  | cons p points ih =>
      have stays : better r dir current (some (target.id, score)) p = some (target.id, score) := by
        unfold better
        cases isScore : scoreOf r dir current p with
        | none => rfl
        | some other => simp [noBetter p List.mem_cons_self other isScore]
      rw [List.foldl_cons, stays]
      exact ih fun other member => noBetter other (List.mem_cons_of_mem p member)

theorem scoreOf_current {p : NavigablePoint} (isCurrent : p.id = current.id) :
    scoreOf r dir current p = none := by
  unfold scoreOf
  rw [if_pos isCurrent]

/-- The point whose score is below all others is found. -/
theorem foldl_better {points : List NavigablePoint} (member : target ∈ points)
    (hasScore : scoreOf r dir current target = some score)
    (lowest : ∀ p ∈ points, p ≠ target → ∀ other, scoreOf r dir current p = some other →
      JsNumber.less score other = true)
    {best : Option (JsString × JsNumber)}
    (above : ∀ id other, best = some (id, other) → JsNumber.less score other = true) :
    points.foldl (better r dir current) best = some (target.id, score) := by
  induction points generalizing best with
  | nil => exact absurd member List.not_mem_nil
  | cons p points ih =>
      have rest := fun other inRest => lowest other (List.mem_cons_of_mem p inRest)
      rw [List.foldl_cons]
      by_cases isTarget : p = target
      · subst isTarget
        have taken : better r dir current best p = some (p.id, score) := by
          unfold better
          rw [hasScore]
          cases best with
          | none => rfl
          | some pair => simp [above pair.1 pair.2 rfl]
        rw [taken]
        apply foldl_better_of_lowest
        intro other inRest value isScore
        by_cases same : other = p
        · rw [same, hasScore, Option.some_inj] at isScore
          rw [isScore]
          exact JsNumber.less_irrefl value
        · exact JsNumber.less_asymm (rest other inRest same value isScore)
      · have inRest : target ∈ points := (List.mem_cons.mp member).resolve_left (Ne.symm isTarget)
        apply ih inRest rest
        intro id other isBest
        unfold better at isBest
        split at isBest
        · exact above id other isBest
        · next isScore =>
            rw [Option.some_inj, Prod.mk.injEq] at isBest
            exact lowest p List.mem_cons_self isTarget other (isBest.2 ▸ isScore)
        · next isScore =>
            split at isBest
            · rw [Option.some_inj, Prod.mk.injEq] at isBest
              exact lowest p List.mem_cons_self isTarget other (isBest.2 ▸ isScore)
            · exact above id other isBest

end Best

/-! ## Scores on the grid -/

/-- The place of a point: its column and its row. -/
abbrev Cell := ℕ × ℕ

def cellPoint (id : JsString) (cell : Cell) : NavigablePoint where
  id := id
  x := (gridPosition cell.1 cell.2).x
  y := (gridPosition cell.1 cell.2).y

/-- Distance from one cell to another along a direction. -/
def distanceAlong (dir : Direction) (here there : Cell) : ℤ :=
  310 * (there.1 - here.1 : ℤ) * dir.x + 124 * (there.2 - here.2 : ℤ) * dir.y

/-- Distance from one cell to another across a direction. -/
def distanceAcross (dir : Direction) (here there : Cell) : ℤ :=
  |310 * (there.1 - here.1 : ℤ) * dir.y + 124 * (there.2 - here.2 : ℤ) * dir.x|

section Scores

variable {r : Rounding} {size : ℕ} (keeps : r.Keeps (2000 * size))
include keeps

/-- The distance between the centres of two places of a row or a column. -/
theorem centres_apart {unit width half here there : ℕ} (isHalf : width = 2 * half)
    (small : unit + half ≤ 500) (isHere : here < size) (isThere : there < size) :
    r.sub (r.add (.ofNat (there * unit)) (.finite (width / 2)))
        (r.add (.ofNat (here * unit)) (.finite (width / 2))) =
      .finite ((unit * (there - here) : ℤ) : ℚ) := by
  have whole : (width / 2 : ℚ) = ((half : ℤ) : ℚ) := by
    rw [isHalf]
    push_cast
    ring
  have bound : ∀ {place : ℕ}, place < size → place * unit + half ≤ 500 * size := by
    intro place inside
    have first : place * unit ≤ (size - 1) * unit := Nat.mul_le_mul_right unit (by omega)
    have second : (size - 1) * (unit + half) ≤ (size - 1) * 500 := Nat.mul_le_mul_left _ small
    nlinarith
  have centre : ∀ {place : ℕ}, place < size →
      r.add (.ofNat (place * unit)) (.finite (width / 2)) =
        .finite ((place * unit + half : ℤ) : ℚ) := by
    intro place inside
    have corner : JsNumber.ofNat (place * unit) = .finite ((place * unit : ℤ) : ℚ) := by
      simp [JsNumber.ofNat]
    rw [corner, whole]
    apply keeps.add
    have inBounds := bound inside
    rw [abs_of_nonneg (by positivity)]
    exact_mod_cast (by omega : place * unit + half ≤ 2000 * size)
  have difference : (there * unit + half : ℤ) - (here * unit + half) = unit * (there - here) := by
    ring
  rw [centre isHere, centre isThere, ← difference]
  apply keeps.sub
  have hereBound : (here * unit + half : ℤ) ≤ 2000 * size := by
    exact_mod_cast le_trans (bound isHere) (by omega)
  have thereBound : (there * unit + half : ℤ) ≤ 2000 * size := by
    exact_mod_cast le_trans (bound isThere) (by omega)
  push_cast
  exact abs_sub_le_of_nonneg_of_le (by positivity) thereBound (by positivity) hereBound

omit keeps in
theorem stretch_le {unit here there : ℕ} (isHere : here < size) (isThere : there < size) {d : ℤ}
    (isUnit : |d| ≤ 1) : |(unit * (there - here) * d : ℤ)| ≤ unit * size := by
  have apart : |(there - here : ℤ)| ≤ size :=
    abs_sub_le_of_nonneg_of_le (by omega) (by omega) (by omega) (by omega)
  calc |(unit * (there - here) * d : ℤ)|
      = unit * |(there - here : ℤ)| * |d| := by rw [abs_mul, abs_mul, Nat.abs_cast]
    _ ≤ unit * size * 1 := by gcongr
    _ = unit * size := mul_one _

/-- The score of a point on the grid is computed exactly. -/
theorem scoreOf_cells {dir : Direction} (unitX : |dir.x| ≤ 1) (unitY : |dir.y| ≤ 1)
    {id other : JsString} (different : other ≠ id) {here there : Cell}
    (isHere : here.1 < size ∧ here.2 < size) (isThere : there.1 < size ∧ there.2 < size) :
    scoreOf r dir (cellPoint id here) (cellPoint other there) =
      if distanceAlong dir here there ≤ 0 then none
      else some (.finite
        ((distanceAlong dir here there + 2 * distanceAcross dir here there : ℤ) : ℚ)) := by
  have dx : r.sub (r.add (gridPosition there.1 there.2).x (.finite (GRAPH_NODE_WIDTH / 2)))
      (r.add (gridPosition here.1 here.2).x (.finite (GRAPH_NODE_WIDTH / 2))) =
        .finite ((310 * (there.1 - here.1) : ℤ) : ℚ) :=
    @centres_apart r size keeps 310 220 110 _ _ rfl (by norm_num) isHere.1 isThere.1
  have dy : r.sub (r.add (gridPosition there.1 there.2).y (.finite (GRAPH_NODE_HEIGHT / 2)))
      (r.add (gridPosition here.1 here.2).y (.finite (GRAPH_NODE_HEIGHT / 2))) =
        .finite ((124 * (there.2 - here.2) : ℤ) : ℚ) :=
    @centres_apart r size keeps 124 100 50 _ _ rfl (by norm_num) isHere.2 isThere.2
  have stretchX : ∀ {d : ℤ}, |d| ≤ 1 → |(310 * (there.1 - here.1) * d : ℤ)| ≤ 310 * size :=
    fun isUnit => @stretch_le size 310 _ _ isHere.1 isThere.1 _ isUnit
  have stretchY : ∀ {d : ℤ}, |d| ≤ 1 → |(124 * (there.2 - here.2) * d : ℤ)| ≤ 124 * size :=
    fun isUnit => @stretch_le size 124 _ _ isHere.2 isThere.2 _ isUnit
  have along : |distanceAlong dir here there| ≤ 434 * size :=
    le_trans (abs_add_le _ _) (by linarith [stretchX unitX, stretchY unitY])
  have across : distanceAcross dir here there ≤ 434 * size :=
    le_trans (abs_add_le _ _) (by linarith [stretchX unitY, stretchY unitX])
  have acrossNonneg : 0 ≤ distanceAcross dir here there := abs_nonneg _
  have inside : ∀ {n : ℤ}, |n| ≤ 2000 * size → |n| ≤ (2000 * size : ℕ) := by
    intro n small
    push_cast
    exact small
  have mulX : ∀ {d : ℤ}, |d| ≤ 1 → r.mul (.finite ((310 * (there.1 - here.1) : ℤ) : ℚ))
      (.finite d) = .finite ((310 * (there.1 - here.1) * d : ℤ) : ℚ) :=
    fun isUnit => keeps.mul (inside (by linarith [stretchX isUnit]))
  have mulY : ∀ {d : ℤ}, |d| ≤ 1 → r.mul (.finite ((124 * (there.2 - here.2) : ℤ) : ℚ))
      (.finite d) = .finite ((124 * (there.2 - here.2) * d : ℤ) : ℚ) :=
    fun isUnit => keeps.mul (inside (by linarith [stretchY isUnit]))
  have alongSum : r.add (.finite ((310 * (there.1 - here.1) * dir.x : ℤ) : ℚ))
      (.finite ((124 * (there.2 - here.2) * dir.y : ℤ) : ℚ)) =
        .finite ((distanceAlong dir here there : ℤ) : ℚ) :=
    keeps.add (inside (le_trans along (by linarith)))
  have acrossSum : (r.add (.finite ((310 * (there.1 - here.1) * dir.y : ℤ) : ℚ))
      (.finite ((124 * (there.2 - here.2) * dir.x : ℤ) : ℚ))).abs =
        .finite ((distanceAcross dir here there : ℤ) : ℚ) := by
    rw [keeps.add (inside (le_trans across (by linarith))), JsNumber.abs, distanceAcross,
      Int.cast_abs]
  have weighted : r.mul (.ofNat PERPENDICULAR_WEIGHT)
      (.finite ((distanceAcross dir here there : ℤ) : ℚ)) =
        .finite ((2 * distanceAcross dir here there : ℤ) : ℚ) := by
    have weight : JsNumber.ofNat PERPENDICULAR_WEIGHT = .finite ((2 : ℤ) : ℚ) := by
      simp [JsNumber.ofNat, PERPENDICULAR_WEIGHT]
    rw [weight]
    apply keeps.mul
    apply inside
    rw [abs_of_nonneg (by linarith)]
    linarith
  have total : |distanceAlong dir here there + 2 * distanceAcross dir here there| ≤
      2000 * size := by
    have nonneg : 0 ≤ 2 * distanceAcross dir here there := by linarith
    refine le_trans (abs_add_le _ _) ?_
    rw [abs_of_nonneg nonneg]
    linarith
  have notCurrent : ¬ (cellPoint other there).id = (cellPoint id here).id := different
  unfold scoreOf
  rw [if_neg notCurrent]
  dsimp only [cellPoint]
  rw [dx, dy, mulX unitX, mulY unitY, mulX unitY, mulY unitX, alongSum, acrossSum, weighted,
    keeps.add (inside total)]
  apply if_congr _ rfl rfl
  have zero : JsNumber.ofNat 0 = .finite ((0 : ℤ) : ℚ) := by simp [JsNumber.ofNat]
  rw [zero, JsNumber.atMost_finite, Int.cast_le]

end Scores

/-! ## Grids without gaps -/

/-- Nodes in different cells. -/
structure Cells (items : List (JsString × Cell)) (size : ℕ) : Prop where
  ids : (items.map Prod.fst).Nodup
  cells : (items.map Prod.snd).Nodup
  bound : ∀ item ∈ items, item.2.1 < size ∧ item.2.2 < size

/-- Nodes in different cells such that no row of a column is skipped. -/
structure Shelves (items : List (JsString × Cell)) (size : ℕ) : Prop extends Cells items size where
  rows : ∀ item ∈ items, ∀ row, item.2.2 = row + 1 →
    ∃ other ∈ items, other.2 = (item.2.1, row)

/-- Nodes in different cells such that no column is skipped and no row of a column. -/
structure Grid (items : List (JsString × Cell)) (size : ℕ) : Prop where
  ids : (items.map Prod.fst).Nodup
  cells : (items.map Prod.snd).Nodup
  columns : ∀ item ∈ items, ∀ l, item.2.1 = l + 1 → ∃ other ∈ items, other.2.1 = l
  rows : ∀ item ∈ items, ∀ row, item.2.2 = row + 1 →
    ∃ other ∈ items, other.2 = (item.2.1, row)
  bound : ∀ item ∈ items, item.2.1 < size ∧ item.2.2 < size

theorem Grid.shelves {items : List (JsString × Cell)} {size : ℕ} (grid : Grid items size) :
    Shelves items size where
  ids := grid.ids
  cells := grid.cells
  bound := grid.bound
  rows := grid.rows

def gridPoints (items : List (JsString × Cell)) : List NavigablePoint :=
  items.map fun item => cellPoint item.1 item.2

namespace Cells

variable {items : List (JsString × Cell)} {size : ℕ} (apart : Cells items size)
  {here there : JsString × Cell} (isHere : here ∈ items) (isThere : there ∈ items)
include apart isHere

theorem sameId (other : JsString × Cell) (member : other ∈ items) (same : other.1 = here.1) :
    other = here :=
  List.inj_on_of_nodup_map apart.ids member isHere same

theorem find_here : (gridPoints items).find? (·.id = here.1) = some (cellPoint here.1 here.2) := by
  have isFound : ((gridPoints items).find? (·.id = here.1)).isSome := by
    rw [List.find?_isSome]
    exact ⟨cellPoint here.1 here.2, List.mem_map_of_mem isHere, by simp [cellPoint]⟩
  rcases Option.isSome_iff_exists.mp isFound with ⟨p, isP⟩
  rcases List.mem_map.mp (List.mem_of_find?_eq_some isP) with ⟨item, member, rfl⟩
  have accepted := List.find?_some isP
  have sameId : item.1 = here.1 := of_decide_eq_true accepted
  rw [isP, apart.sameId isHere item member sameId]

include isThere

/-- A key leads to the node that has the lowest score in its direction. -/
theorem leads {r : Rounding} (keeps : r.Keeps (2000 * size)) (key : ArrowKey)
    (ahead : 0 < distanceAlong (DIRECTIONS key) here.2 there.2)
    (lowest : ∀ other ∈ items, other.2 ≠ there.2 →
      0 < distanceAlong (DIRECTIONS key) here.2 other.2 →
        distanceAlong (DIRECTIONS key) here.2 there.2 +
            2 * distanceAcross (DIRECTIONS key) here.2 there.2 <
          distanceAlong (DIRECTIONS key) here.2 other.2 +
            2 * distanceAcross (DIRECTIONS key) here.2 other.2) :
    Leads r (gridPoints items) here.1 there.1 := by
  have unitX : |(DIRECTIONS key).x| ≤ 1 := by cases key <;> decide
  have unitY : |(DIRECTIONS key).y| ≤ 1 := by cases key <;> decide
  have score : ∀ item ∈ items, item.1 ≠ here.1 →
      scoreOf r (DIRECTIONS key) (cellPoint here.1 here.2) (cellPoint item.1 item.2) =
        if distanceAlong (DIRECTIONS key) here.2 item.2 ≤ 0 then none
        else some (.finite ((distanceAlong (DIRECTIONS key) here.2 item.2 +
          2 * distanceAcross (DIRECTIONS key) here.2 item.2 : ℤ) : ℚ)) := by
    intro item member different
    exact scoreOf_cells keeps unitX unitY different (apart.bound here isHere)
      (apart.bound item member)
  have notHere : there.1 ≠ here.1 := by
    intro same
    have isSame := apart.sameId isHere there isThere same
    rw [isSame, distanceAlong] at ahead
    simp at ahead
  have target := score there isThere notHere
  rw [if_neg (not_le.mpr ahead)] at target
  have allFinite : (gridPoints items).filter (fun p => p.x.isFinite && p.y.isFinite) =
      gridPoints items := by
    apply List.filter_eq_self.mpr
    intro p member
    rcases List.mem_map.mp member with ⟨item, _, rfl⟩
    rfl
  refine ⟨key, ?_⟩
  simp only [findNextNodeId, allFinite, apart.find_here isHere]
  have member : cellPoint there.1 there.2 ∈ gridPoints items := List.mem_map_of_mem isThere
  rw [foldl_better member target]
  · rfl
  · intro p isPoint different other isScore
    rcases List.mem_map.mp isPoint with ⟨item, isItem, rfl⟩
    by_cases isCurrent : item.1 = here.1
    · rw [scoreOf_current isCurrent] at isScore
      cases isScore
    · rw [score item isItem isCurrent] at isScore
      split at isScore
      · cases isScore
      · next positive =>
          have otherCell : item.2 ≠ there.2 := by
            intro sameCell
            apply different
            rw [List.inj_on_of_nodup_map apart.cells isItem isThere sameCell]
          have farther := lowest item isItem otherCell (not_le.mp positive)
          rw [← Option.some_inj.mp isScore, JsNumber.less, decide_eq_true_iff, Int.cast_lt]
          exact farther
  · intro id other isBest
    cases isBest

variable {r : Rounding} (keeps : r.Keeps (2000 * size)) {l row : ℕ}
include keeps

/-- A key leads to the next cell of a row or a column: no cell ahead is closer, and this
one alone lies straight ahead. -/
theorem leads_next (key : ArrowKey) {step : ℤ} (positive : 0 < step)
    (along : distanceAlong (DIRECTIONS key) here.2 there.2 = step)
    (across : distanceAcross (DIRECTIONS key) here.2 there.2 = 0)
    (nearest : ∀ other ∈ items, 0 < distanceAlong (DIRECTIONS key) here.2 other.2 →
      step ≤ distanceAlong (DIRECTIONS key) here.2 other.2)
    (straight : ∀ other, distanceAlong (DIRECTIONS key) here.2 other = step →
      distanceAcross (DIRECTIONS key) here.2 other = 0 → other = there.2) :
    Leads r (gridPoints items) here.1 there.1 := by
  apply apart.leads isHere isThere keeps key (by omega)
  intro other isOther different ahead
  have nonneg : 0 ≤ distanceAcross (DIRECTIONS key) here.2 other.2 := abs_nonneg _
  have farther := nearest other isOther ahead
  by_cases sameAlong : distanceAlong (DIRECTIONS key) here.2 other.2 = step
  · have aside : distanceAcross (DIRECTIONS key) here.2 other.2 ≠ 0 := fun sameAcross =>
      different (straight other.2 sameAlong sameAcross)
    omega
  · omega

/-- Each key leads to the next cell in its direction if there is a node. -/
theorem leads_neighbour (key : ArrowKey)
    (column : (there.2.1 : ℤ) = here.2.1 + (DIRECTIONS key).x)
    (row : (there.2.2 : ℤ) = here.2.2 + (DIRECTIONS key).y) :
    Leads r (gridPoints items) here.1 there.1 := by
  -- what the scores see of the cells ahead is the same for all keys, up to the two units
  have along : distanceAlong (DIRECTIONS key) here.2 there.2 =
      310 * |(DIRECTIONS key).x| + 124 * |(DIRECTIONS key).y| := by
    simp only [distanceAlong, column, row]
    cases key <;> simp [DIRECTIONS]
  have across : distanceAcross (DIRECTIONS key) here.2 there.2 = 0 := by
    simp only [distanceAcross, column, row]
    cases key <;> simp [DIRECTIONS]
  refine apart.leads_next isHere isThere keeps key ?_ along across ?_ ?_
  · cases key <;> simp [DIRECTIONS]
  · intro other _ ahead
    simp only [distanceAlong] at ahead ⊢
    cases key <;> simp only [DIRECTIONS] at ahead ⊢ <;> norm_num at ahead ⊢ <;> omega
  · intro other sameAlong sameAcross
    simp only [distanceAlong, distanceAcross, abs_eq_zero] at sameAlong sameAcross
    ext
    · cases key <;> simp only [DIRECTIONS] at column sameAlong sameAcross <;>
        norm_num at column sameAlong sameAcross <;> omega
    · cases key <;> simp only [DIRECTIONS] at row sameAlong sameAcross <;>
        norm_num at row sameAlong sameAcross <;> omega

end Cells

/-! ## Every node is reached -/

section Reached

variable {items : List (JsString × Cell)} {size : ℕ} {r : Rounding}
  (keeps : r.Keeps (2000 * size))
include keeps

/-- Up and down lead from a node to the first of its column and back. -/
theorem Shelves.top_of_column (shelves : Shelves items size) {item : JsString × Cell}
    (member : item ∈ items) :
    ∃ top ∈ items, top.2 = (item.2.1, 0) ∧ LeadsOn r (gridPoints items) item.1 top.1 ∧
      LeadsOn r (gridPoints items) top.1 item.1 := by
  induction place : item.2.2 generalizing item with
  | zero => exact ⟨item, member, Prod.ext rfl place, .refl, .refl⟩
  | succ row ih =>
      rcases shelves.rows item member row place with ⟨above, isAbove, cell⟩
      have up : Leads r (gridPoints items) item.1 above.1 := by
        apply shelves.leads_neighbour member isAbove keeps .ArrowUp
        · simp [cell, DIRECTIONS]
        · simp [cell, place, DIRECTIONS]
      have down : Leads r (gridPoints items) above.1 item.1 := by
        apply shelves.leads_neighbour isAbove member keeps .ArrowDown
        · simp [cell, DIRECTIONS]
        · simp [cell, place, DIRECTIONS]
      rcases ih isAbove (by rw [cell]) with ⟨top, isTop, topCell, forth, back⟩
      rw [cell] at topCell
      exact ⟨top, isTop, topCell, .head up forth, back.tail down⟩

namespace Grid

variable (grid : Grid items size)
include grid

/-- Left and right lead from the first node of a column to that of the first column. -/
theorem origin {item : JsString × Cell} (member : item ∈ items) (isTop : item.2.2 = 0) :
    ∃ origin ∈ items, origin.2 = (0, 0) ∧ LeadsOn r (gridPoints items) item.1 origin.1 ∧
      LeadsOn r (gridPoints items) origin.1 item.1 := by
  induction place : item.2.1 generalizing item with
  | zero => exact ⟨item, member, Prod.ext place isTop, .refl, .refl⟩
  | succ l ih =>
      rcases grid.columns item member l place with ⟨other, isOther, column⟩
      rcases grid.shelves.top_of_column keeps isOther with ⟨top, topMember, cell, _, _⟩
      rw [column] at cell
      have left : Leads r (gridPoints items) item.1 top.1 := by
        apply grid.shelves.leads_neighbour member topMember keeps .ArrowLeft
        · simp [cell, place, DIRECTIONS]
        · simp [cell, isTop, DIRECTIONS]
      have right : Leads r (gridPoints items) top.1 item.1 := by
        apply grid.shelves.leads_neighbour topMember member keeps .ArrowRight
        · simp [cell, place, DIRECTIONS]
        · simp [cell, isTop, DIRECTIONS]
      rcases ih topMember (by rw [cell]) (by rw [cell]) with
        ⟨origin, isOrigin, originCell, forth, back⟩
      exact ⟨origin, isOrigin, originCell, .head left forth, back.tail right⟩

/-- On a grid without gaps every node leads to every other. -/
theorem leadsOn {here there : JsString × Cell} (isHere : here ∈ items) (isThere : there ∈ items) :
    LeadsOn r (gridPoints items) here.1 there.1 := by
  have toOrigin : ∀ item ∈ items, ∃ origin ∈ items, origin.2 = (0, 0) ∧
      LeadsOn r (gridPoints items) item.1 origin.1 ∧
        LeadsOn r (gridPoints items) origin.1 item.1 := by
    intro item member
    rcases grid.shelves.top_of_column keeps member with ⟨top, topMember, cell, forth, back⟩
    rcases grid.origin keeps topMember (by rw [cell]) with
      ⟨origin, isOrigin, originCell, onward, homeward⟩
    exact ⟨origin, isOrigin, originCell, forth.trans onward, homeward.trans back⟩
  rcases toOrigin here isHere with ⟨origin, isOrigin, cell, forth, _⟩
  rcases toOrigin there isThere with ⟨other, isOther, otherCell, _, back⟩
  have same : other = origin :=
    List.inj_on_of_nodup_map grid.cells isOther isOrigin (by rw [cell, otherCell])
  rw [same] at back
  exact forth.trans back

end Grid

end Reached

/-! ## The layout is a grid -/

/-- The cells in which the layout puts nodes without positions. -/
def cellsOf (layer : ℕ → ℕ) (nodes : List TopologyGraphNode) : List (JsString × Cell) :=
  nodes.zipIdx.map fun entry => (entry.1.id, layer entry.2, rowOf layer nodes entry.2)

section Layout

variable {nodes : List TopologyGraphNode} (distinct : (nodes.map (·.id)).Nodup)
  (noPositions : ∀ node ∈ nodes, node.position = none) {layer : ℕ → ℕ}

theorem mem_cellsOf {item : JsString × Cell} : item ∈ cellsOf layer nodes ↔
    ∃ i node, nodes[i]? = some node ∧ item = (node.id, layer i, rowOf layer nodes i) := by
  unfold cellsOf
  rw [List.mem_map]
  constructor
  · intro member
    rcases member with ⟨⟨node, i⟩, entry, rfl⟩
    exact ⟨i, node, List.mem_zipIdx_iff_getElem?.mp entry, rfl⟩
  · intro placed
    rcases placed with ⟨i, node, atIndex, rfl⟩
    exact ⟨(node, i), List.mem_zipIdx_iff_getElem?.mpr atIndex, rfl⟩

include noPositions

theorem navigablePoints_eq {placed : Placement} (places : Places layer nodes.zipIdx placed) :
    navigablePoints nodes placed.positions = gridPoints (cellsOf layer nodes) := by
  have entries : nodes.zipIdx.map Prod.fst = nodes := List.zipIdx_map_fst 0 nodes
  have points : navigablePoints (nodes.zipIdx.map Prod.fst) placed.positions =
      gridPoints (cellsOf layer nodes) := by
    unfold navigablePoints gridPoints cellsOf
    rw [List.map_map, List.map_map]
    apply List.map_congr_left
    intro entry member
    have atIndex := List.mem_zipIdx_iff_getElem?.mp member
    have free := noPositions entry.1 (List.mem_of_getElem? atIndex)
    simp only [Function.comp_apply, places.column atIndex free, Option.getD_some]
    rfl
  rwa [entries] at points

include distinct

theorem cells_nodup : ((cellsOf layer nodes).map Prod.snd).Nodup := by
  have entries : nodes.zipIdx.Nodup := by
    apply List.Nodup.of_map (fun entry => entry.1.id)
    rwa [zipIdx_ids]
  unfold cellsOf
  rw [List.map_map]
  apply List.Nodup.map_on _ entries
  intro first isFirst second isSecond same
  have atFirst := List.mem_zipIdx_iff_getElem?.mp isFirst
  have atSecond := List.mem_zipIdx_iff_getElem?.mp isSecond
  rcases Prod.mk.inj same with ⟨sameLayer, sameRow⟩
  have sameIndex : first.2 = second.2 := by
    rcases lt_trichotomy first.2 second.2 with before | isSame | after
    · have free := noPositions first.1 (List.mem_of_getElem? atFirst)
      exact absurd sameRow (rowOf_lt atFirst free sameLayer before).ne
    · exact isSame
    · have free := noPositions second.1 (List.mem_of_getElem? atSecond)
      exact absurd sameRow (rowOf_lt atSecond free sameLayer.symm after).ne'
  rw [sameIndex, atSecond, Option.some_inj] at atFirst
  exact Prod.ext atFirst.symm sameIndex

theorem grid_cellsOf {edges : List TopologyGraphEdge} {layers : Layers}
    (layered : Layered (linkEdges (indexNodes nodes).index edges) layers) :
    Grid (cellsOf layers.layer nodes) nodes.length := by
  have bounded := (indexNodes_numbers nodes).bounded edges
  rw [indexNodes_unique distinct] at bounded
  constructor
  · have ids : (cellsOf layers.layer nodes).map Prod.fst = nodes.map (·.id) := by
      rw [← zipIdx_ids, cellsOf, List.map_map]
      rfl
    rwa [ids]
  · exact cells_nodup distinct noPositions
  · intro item member l column
    rcases mem_cellsOf.mp member with ⟨i, node, _, rfl⟩
    rcases layered.predecessor column with ⟨u, edge, isBelow⟩
    have inside := (bounded u i edge).1
    refine ⟨_, mem_cellsOf.mpr ⟨u, nodes[u], List.getElem?_eq_getElem inside, rfl⟩, isBelow⟩
  · intro item member row isRow
    rcases mem_cellsOf.mp member with ⟨i, node, _, rfl⟩
    rcases rowOf_succ isRow with ⟨j, other, atIndex, sameLayer, isAbove⟩
    exact ⟨_, mem_cellsOf.mpr ⟨j, other, atIndex, rfl⟩, Prod.ext sameLayer isAbove⟩
  · intro item member
    rcases mem_cellsOf.mp member with ⟨i, node, atIndex, rfl⟩
    have inside : i < nodes.length := (List.getElem?_eq_some_iff.mp atIndex).1
    refine ⟨layered.layer_lt bounded inside, ?_⟩
    calc rowOf layers.layer nodes i
        ≤ (nodes.zipIdx.take i).length := List.countP_le_length
      _ ≤ i := List.length_take_le _ _
      _ < nodes.length := inside

end Layout

/-- From every node of a layout without positions the arrow keys lead to every other node.
Rounding plays no part in graphs that fit into an array. -/
theorem arrowKeys_leadOn (nodes : List TopologyGraphNode) (edges : List TopologyGraphEdge)
    (distinct : (nodes.map (·.id)).Nodup) (noPositions : ∀ node ∈ nodes, node.position = none) :
    ∃ enough positions, (∀ fuel, enough ≤ fuel →
        computeGraphLayout fuel nodes edges = some positions) ∧
      ∀ here ∈ nodes, ∀ there ∈ nodes,
        LeadsOn .lossless (navigablePoints nodes positions) here.id there.id ∧
        (nodes.length < 2 ^ 32 → ∀ r : Rounding,
          LeadsOn r (navigablePoints nodes positions) here.id there.id) := by
  rcases computeGraphLayout_eq nodes edges with ⟨enough, layers, computed, layered⟩
  have places := placeNodes_places layers.layer (indexNodes_numbers nodes).distinct
  rw [indexNodes_unique distinct] at places
  refine ⟨enough, (placeNodes layers.layer nodes).positions, ?_, ?_⟩
  · intro fuel more
    have isLayout := (computed fuel more).2
    rwa [indexNodes_unique distinct] at isLayout
  · intro here isHere there isThere
    have grid := grid_cellsOf distinct noPositions layered
    have cellOf : ∀ node ∈ nodes, ∃ cell, (node.id, cell) ∈ cellsOf layers.layer nodes := by
      intro node member
      rcases List.mem_iff_getElem?.mp member with ⟨i, atIndex⟩
      exact ⟨_, mem_cellsOf.mpr ⟨i, node, atIndex, rfl⟩⟩
    rcases cellOf here isHere with ⟨hereCell, hereItem⟩
    rcases cellOf there isThere with ⟨thereCell, thereItem⟩
    rw [navigablePoints_eq noPositions places]
    constructor
    · exact grid.leadsOn (Rounding.keeps_lossless _) hereItem thereItem
    · intro array r
      exact grid.leadsOn (r.keeps_of_le (by omega)) hereItem thereItem

theorem arrowKeys_leadOn_pair : ∃ enough positions, (∀ fuel, enough ≤ fuel →
      computeGraphLayout fuel [⟨[97], none⟩, ⟨[98], none⟩] [⟨[97], [98]⟩] = some positions) ∧
    LeadsOn .lossless (navigablePoints [⟨[97], none⟩, ⟨[98], none⟩] positions) [98] [97] := by
  rcases arrowKeys_leadOn [⟨[97], none⟩, ⟨[98], none⟩] [⟨[97], [98]⟩] (by decide) (by simp) with
    ⟨enough, positions, computed, leadsOn⟩
  exact ⟨enough, positions, computed, (leadsOn ⟨[98], none⟩ (by simp) ⟨[97], none⟩ (by simp)).1⟩

end BelugaManager.Web
