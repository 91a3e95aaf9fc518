import BelugaManager.DomainApi.FlinkSnapshots

/-!
# The workers of `mapLimited`

`mapLimited` of `flink/adapter.ts` with its workers one by one.  A call of the function
ends at some moment, its worker goes on at a later one, and the other workers may do
anything in between; the cursor, the result array and the logs are shared.  The logs are
not part of the source.
-/

namespace BelugaManager.DomainApi

open Foundation

/-- Where a worker stands in its loop. -/
inductive Worker (Result : Type) where
  /-- The call for an item has not ended. -/
  | awaiting (i : ℕ)
  /-- The call has ended and the worker has not gone on. -/
  | settled (i : ℕ) (result : Result)
  /-- The loop is left. -/
  | returned

/-- The state that the workers share, and the workers. The logs list the latest entry
first. -/
structure WorkerRun (Item Result : Type) where
  next : ℕ
  out : List (Option Result)
  workers : List (Worker Result)
  resolved : Option (List (Option Result))
  calls : List (ℕ × Item)
  settlements : List (ℕ × Result)

inductive WorkerEvent (Result : Type) where
  /-- The call of a worker ends with a result. -/
  | settle (w : ℕ) (result : Result)
  /-- A worker goes on after its call. -/
  | resume (w : ℕ)
  /-- `Promise.all` is resolved and the array is returned. -/
  | resolve

/-- The length that an array-like object with this `length` has. -/
def toLength : JsNumber → ℕ
  | .finite value => min ⌊value⌋.toNat (2 ^ 53 - 1)
  | .infinity => 2 ^ 53 - 1
  | _ => 0

/-- How many workers are started. -/
def workerCount (limit : JsNumber) (items : ℕ) : ℕ :=
  toLength (JsNumber.min limit (.ofNat items))

namespace WorkerRun

variable {Item Result : Type}

/-- The head of the loop: a worker takes the next item and calls the function, or
returns. -/
def loopHead (items : List Item) (run : WorkerRun Item Result) :
    WorkerRun Item Result × Worker Result :=
  if inside : run.next < items.length then
    ({ run with next := run.next + 1, calls := (run.next, items[run.next]) :: run.calls },
      .awaiting run.next)
  else (run, .returned)

/-- One more worker runs until its first call. -/
def spawn (items : List Item) (run : WorkerRun Item Result) : WorkerRun Item Result :=
  { (run.loopHead items).1 with workers := run.workers ++ [(run.loopHead items).2] }

/-- An array of holes and no worker. -/
def blank (items : List Item) : WorkerRun Item Result where
  next := 0
  out := List.replicate items.length none
  workers := []
  resolved := none
  calls := []
  settlements := []

/-- All workers are started before any of them goes on. -/
def start (items : List Item) (limit : JsNumber) : WorkerRun Item Result :=
  (spawn items)^[workerCount limit items.length] (blank items)

/-- A worker stores the result of its call and goes back to the head of the loop. -/
def goOn (items : List Item) (run : WorkerRun Item Result) (w i : ℕ) (result : Result) :
    WorkerRun Item Result :=
  let stored := { run with out := run.out.set i (some result) }
  { (stored.loopHead items).1 with workers := run.workers.set w (stored.loopHead items).2 }

def isReturned : Worker Result → Bool
  | .returned => true
  | _ => false

def step (items : List Item) (run : WorkerRun Item Result) :
    WorkerEvent Result → Option (WorkerRun Item Result)
  | .settle w result =>
      match run.workers[w]? with
      | some (.awaiting i) =>
          some { run with
            workers := run.workers.set w (.settled i result)
            settlements := (i, result) :: run.settlements }
      | _ => none
  | .resume w =>
      match run.workers[w]? with
      | some (.settled i result) => some (run.goOn items w i result)
      | _ => none
  | .resolve =>
      if run.resolved.isNone && run.workers.all isReturned then
        some { run with resolved := some run.out }
      else none

/-- `mapLimited` on a list of items; the results of the calls and the order in which they
end are up to the events. -/
def machine (items : List Item) (limit : JsNumber) :
    Machine (WorkerRun Item Result) (WorkerEvent Result) where
  init := start items limit
  step := step items

/-- The indices whose calls have begun and not ended. -/
def outstanding (run : WorkerRun Item Result) : List ℕ :=
  (run.calls.map Prod.fst).filter fun i => run.settlements.all (·.1 ≠ i)

/-! ## What the workers keep -/

/-- The place that a worker is about to fill. -/
def place? : Worker Result → Option ℕ
  | .awaiting i => some i
  | .settled i _ => some i
  | .returned => none

/-- The places of all workers, split at one of them. -/
theorem filterMap_place? (before after : List (Worker Result)) (worker : Worker Result) :
    (before ++ worker :: after).filterMap place? =
      before.filterMap place? ++ ((place? worker).toList ++ after.filterMap place?) := by
  rw [List.filterMap_append, List.filterMap_cons]
  cases place? worker with
  | none => rfl
  | some i => rfl

/-- The items up to the cursor have been taken one after the other, the places below it
that are not filled belong to one worker each, and every result comes from the call at its
place. -/
structure Kept (items : List Item) (run : WorkerRun Item Result) : Prop where
  size : run.out.length = items.length
  cursor : run.next ≤ items.length
  taken : run.calls.map Prod.fst = (List.range run.next).reverse
  onItem : ∀ call ∈ run.calls, items[call.1]? = some call.2
  places : (run.workers.filterMap place?).Nodup
  busy : ∀ i, i ∈ run.workers.filterMap place? ↔ i < run.next ∧ run.out[i]? = some none
  ahead : ∀ i result, run.out[i]? = some (some result) → i < run.next
  once : (run.settlements.map Prod.fst).Nodup
  settled : ∀ i result, (i, result) ∈ run.settlements ↔
    run.out[i]? = some (some result) ∨ Worker.settled i result ∈ run.workers
  through : Worker.returned ∈ run.workers → run.next = items.length
  final : ∀ values, run.resolved = some values →
    values = run.out ∧ ∀ worker ∈ run.workers, worker = .returned

theorem kept_blank (items : List Item) : Kept items (blank items : WorkerRun Item Result) where
  size := List.length_replicate
  cursor := Nat.zero_le _
  taken := rfl
  onItem _ member := absurd member List.not_mem_nil
  places := List.nodup_nil
  busy i := by simp [blank]
  ahead i result found := by
    have hole := List.eq_of_mem_replicate (List.mem_of_getElem? found)
    cases hole
  once := List.nodup_nil
  settled i result := by
    constructor
    · intro member
      exact absurd member List.not_mem_nil
    · intro found
      cases found with
      | inl filled =>
          have hole := List.eq_of_mem_replicate (List.mem_of_getElem? filled)
          cases hole
      | inr member => exact absurd member List.not_mem_nil
  through member := absurd member List.not_mem_nil
  final values isResolved := by cases isResolved

/-- The place that is taken next is not filled. -/
theorem Kept.hole {items : List Item} {run : WorkerRun Item Result} (kept : Kept items run)
    (inside : run.next < items.length) : run.out[run.next]? = some none := by
  cases found : run.out[run.next]? with
  | none =>
      rw [List.getElem?_eq_none_iff, kept.size] at found
      exact absurd inside (not_lt.mpr found)
  | some cell =>
      cases cell with
      | none => rfl
      | some result => exact absurd (kept.ahead _ result found) (lt_irrefl _)

/-- A worker at the head of the loop joins the others. -/
theorem Kept.loopHead {items : List Item} {run : WorkerRun Item Result}
    {before after : List (Worker Result)}
    (kept : Kept items { run with workers := before ++ after })
    (unresolved : run.resolved = none) :
    Kept items { (run.loopHead items).1 with
      workers := before ++ (run.loopHead items).2 :: after } := by
  have kind : ∀ worker other : Worker Result, worker ≠ other →
      (worker ∈ before ++ other :: after ↔ worker ∈ before ++ after) := by
    intro worker other different
    simp [different]
  rw [WorkerRun.loopHead]
  split
  next inside =>
    have hole : run.out[run.next]? = some none := kept.hole inside
    have fresh : run.next ∉ (before ++ after).filterMap place? := by
      intro member
      exact absurd ((kept.busy _).mp member).1 (lt_irrefl _)
    have moved : ((before ++ Worker.awaiting run.next :: after).filterMap place?).Perm
        (run.next :: (before ++ after).filterMap place?) := by
      rw [filterMap_place?, List.filterMap_append]
      exact List.perm_middle
    constructor
    · exact kept.size
    · exact inside
    · rw [List.map_cons, kept.taken, List.range_succ, List.reverse_append]
      rfl
    · intro call member
      cases List.mem_cons.mp member with
      | inl isNew =>
          rw [isNew]
          exact List.getElem?_eq_getElem inside
      | inr earlier => exact kept.onItem call earlier
    · exact moved.nodup_iff.mpr (List.nodup_cons.mpr ⟨fresh, kept.places⟩)
    · intro i
      rw [moved.mem_iff, List.mem_cons, kept.busy i]
      constructor
      · intro member
        cases member with
        | inl isNext =>
            rw [isNext]
            exact ⟨Nat.lt_succ_self _, hole⟩
        | inr earlier => exact ⟨Nat.lt_succ_of_lt earlier.1, earlier.2⟩
      · intro member
        cases Nat.lt_succ_iff_lt_or_eq.mp member.1 with
        | inl earlier => exact Or.inr ⟨earlier, member.2⟩
        | inr isNext => exact Or.inl isNext
    · intro i result found
      exact Nat.lt_succ_of_lt (kept.ahead i result found)
    · exact kept.once
    · intro i result
      rw [kind _ _ (by simp)]
      exact kept.settled i result
    · intro member
      rw [kind _ _ (by simp)] at member
      exact absurd (kept.through member) (ne_of_lt inside)
    · intro values isResolved
      exact absurd (unresolved.symm.trans isResolved) (by simp)
  next outside =>
    have moved : (before ++ Worker.returned :: after).filterMap place? =
        (before ++ after).filterMap place? := by
      rw [filterMap_place?, List.filterMap_append]
      rfl
    constructor
    · exact kept.size
    · exact kept.cursor
    · exact kept.taken
    · exact kept.onItem
    · rw [moved]
      exact kept.places
    · intro i
      rw [moved]
      exact kept.busy i
    · exact kept.ahead
    · exact kept.once
    · intro i result
      rw [kind _ _ (by simp)]
      exact kept.settled i result
    · intro _
      exact le_antisymm kept.cursor (not_lt.mp outside)
    · intro values isResolved
      exact absurd (unresolved.symm.trans isResolved) (by simp)

theorem loopHead_resolved (items : List Item) (run : WorkerRun Item Result) :
    (run.loopHead items).1.resolved = run.resolved := by
  rw [loopHead]
  split
  next => rfl
  next => rfl

theorem kept_spawned (items : List Item) (count : ℕ) :
    Kept items ((spawn items)^[count] (blank items) : WorkerRun Item Result) ∧
      ((spawn items)^[count] (blank items) : WorkerRun Item Result).resolved = none := by
  induction count with
  | zero => exact ⟨kept_blank items, rfl⟩
  | succ count ih =>
      rw [Function.iterate_succ_apply']
      constructor
      · apply Kept.loopHead _ ih.2
        rw [List.append_nil]
        exact ih.1
      · exact (loopHead_resolved items _).trans ih.2

theorem kept_start (items : List Item) (limit : JsNumber) :
    Kept items (start items limit : WorkerRun Item Result) :=
  (kept_spawned items (workerCount limit items.length)).1

/-! ## One event -/

/-- The workers around one of them. -/
theorem exists_around {workers : List (Worker Result)} {w : ℕ} {worker : Worker Result}
    (found : workers[w]? = some worker) : ∃ before after, workers = before ++ worker :: after ∧
      ∀ other, workers.set w other = before ++ other :: after := by
  rcases List.getElem?_eq_some_iff.mp found with ⟨inside, rfl⟩
  refine ⟨workers.take w, workers.drop (w + 1), ?_, ?_⟩
  · rw [List.cons_getElem_drop_succ, List.take_append_drop]
  · intro other
    exact List.set_eq_take_append_cons_drop.trans (if_pos inside)

section Around

variable {items : List Item} {run : WorkerRun Item Result} {before after : List (Worker Result)}

/-- While some worker has not returned nothing is resolved. -/
theorem Kept.unresolved (kept : Kept items run) {worker : Worker Result}
    (member : worker ∈ run.workers) (busy : worker ≠ .returned) : run.resolved = none := by
  cases isResolved : run.resolved with
  | none => rfl
  | some values => exact absurd ((kept.final values isResolved).2 worker member) busy

/-- A call that has not ended has no settlement. -/
theorem Kept.notMem_settlements (kept : Kept items run) {i : ℕ}
    (around : run.workers = before ++ .awaiting i :: after) (result : Result) :
    (i, result) ∉ run.settlements := by
  intro member
  have mine : i ∈ run.workers.filterMap place? := by
    rw [around, filterMap_place?]
    simp [place?]
  cases (kept.settled i result).mp member with
  | inl filled => exact absurd (((kept.busy i).mp mine).2.symm.trans filled) (by simp)
  | inr twin =>
      have places := kept.places
      rw [around] at twin
      rw [around, filterMap_place?] at places
      have elsewhere : i ∈ before.filterMap place? ++ after.filterMap place? := by
        rw [← List.filterMap_append, List.mem_filterMap]
        refine ⟨.settled i result, ?_, rfl⟩
        simpa using twin
      exact (List.nodup_cons.mp (List.nodup_middle.mp places)).1 elsewhere

theorem Kept.settle (kept : Kept items run) {i : ℕ}
    (around : run.workers = before ++ .awaiting i :: after) (result : Result) :
    Kept items { run with
      workers := before ++ .settled i result :: after
      settlements := (i, result) :: run.settlements } := by
  have moved : (before ++ Worker.settled i result :: after).filterMap place? =
      run.workers.filterMap place? := by
    rw [around, filterMap_place?, filterMap_place?]
    rfl
  have member : Worker.awaiting i ∈ run.workers := by simp [around]
  have unresolved : run.resolved = none := kept.unresolved member (by simp)
  constructor
  · exact kept.size
  · exact kept.cursor
  · exact kept.taken
  · exact kept.onItem
  · rw [moved]
    exact kept.places
  · intro j
    rw [moved]
    exact kept.busy j
  · exact kept.ahead
  · rw [List.map_cons, List.nodup_cons]
    refine ⟨?_, kept.once⟩
    intro member
    rcases List.mem_map.mp member with ⟨settlement, listed, rfl⟩
    exact kept.notMem_settlements around settlement.2 listed
  · intro j other
    rw [List.mem_cons, kept.settled j other, around]
    simp only [List.mem_append, List.mem_cons, Prod.mk.injEq, Worker.settled.injEq, reduceCtorEq,
      false_or]
    tauto
  · intro member
    apply kept.through
    rw [around]
    simpa using member
  · intro values isResolved
    exact absurd (unresolved.symm.trans isResolved) (by simp)

/-- Storing a result gives up the place of the worker. -/
theorem Kept.store (kept : Kept items run) {i : ℕ} {result : Result}
    (around : run.workers = before ++ .settled i result :: after) :
    Kept items { run with
      out := run.out.set i (some result)
      workers := before ++ after } := by
  have member : Worker.settled i result ∈ run.workers := by simp [around]
  have unresolved : run.resolved = none := kept.unresolved member (by simp)
  have moved : (run.workers.filterMap place?).Perm
      (i :: (before ++ after).filterMap place?) := by
    rw [around, filterMap_place?, List.filterMap_append]
    exact List.perm_middle
  have places := List.nodup_cons.mp (moved.nodup_iff.mp kept.places)
  have mine : i < run.next ∧ run.out[i]? = some none := by
    rw [← kept.busy i, moved.mem_iff]
    exact List.mem_cons_self
  have inside : i < run.out.length := (List.getElem?_eq_some_iff.mp mine.2).1
  constructor
  · rw [List.length_set]
    exact kept.size
  · exact kept.cursor
  · exact kept.taken
  · exact kept.onItem
  · exact places.2
  · intro j
    rcases eq_or_ne i j with rfl | different
    · rw [List.getElem?_set_self inside]
      constructor
      · intro member
        exact absurd member places.1
      · intro filled
        exact absurd filled.2 (by simp)
    · rw [List.getElem?_set_ne different, ← kept.busy j, moved.mem_iff, List.mem_cons]
      simp [different.symm]
  · intro j other found
    rcases eq_or_ne i j with rfl | different
    · exact mine.1
    · rw [List.getElem?_set_ne different] at found
      exact kept.ahead j other found
  · exact kept.once
  · intro j other
    rw [kept.settled j other, around]
    rcases eq_or_ne i j with rfl | different
    · have gone : Worker.settled i other ∉ before ++ after := by
        intro member
        exact places.1 (List.mem_filterMap.mpr ⟨_, member, rfl⟩)
      rw [List.getElem?_set_self inside, mine.2]
      simp only [List.mem_append, List.mem_cons, Worker.settled.injEq, true_and] at gone ⊢
      simp only [Option.some.injEq, reduceCtorEq, false_or]
      tauto
    · rw [List.getElem?_set_ne different]
      simp [different.symm]
  · intro member
    apply kept.through
    rw [around]
    simp only [List.mem_append, List.mem_cons] at member ⊢
    tauto
  · intro values isResolved
    exact absurd (unresolved.symm.trans isResolved) (by simp)

end Around

theorem Kept.step {items : List Item} {run changed : WorkerRun Item Result}
    {event : WorkerEvent Result} (kept : Kept items run)
    (stepped : step items run event = some changed) : Kept items changed := by
  cases event with
  | settle w result =>
      cases found : run.workers[w]? with
      | none => simp [WorkerRun.step, found] at stepped
      | some worker =>
          rcases exists_around found with ⟨before, after, around, replaced⟩
          cases worker with
          | awaiting i =>
              simp only [WorkerRun.step, found, replaced, Option.some.injEq] at stepped
              rw [← stepped]
              exact kept.settle around result
          | settled i earlier => simp [WorkerRun.step, found] at stepped
          | returned => simp [WorkerRun.step, found] at stepped
  | resume w =>
      cases found : run.workers[w]? with
      | none => simp [WorkerRun.step, found] at stepped
      | some worker =>
          rcases exists_around found with ⟨before, after, around, replaced⟩
          cases worker with
          | awaiting i => simp [WorkerRun.step, found] at stepped
          | settled i result =>
              simp only [WorkerRun.step, found, goOn, replaced, Option.some.injEq] at stepped
              rw [← stepped]
              have unresolved : run.resolved = none :=
                kept.unresolved (List.mem_of_getElem? found) (by simp)
              have unchanged : ({ run with out := run.out.set i (some result) } :
                  WorkerRun Item Result).resolved = none := unresolved
              exact Kept.loopHead (kept.store around) unchanged
          | returned => simp [WorkerRun.step, found] at stepped
  | resolve =>
      rw [WorkerRun.step] at stepped
      split at stepped
      next isOver =>
        rw [Bool.and_eq_true, List.all_eq_true] at isOver
        rw [Option.some.injEq] at stepped
        rw [← stepped]
        refine { kept with final := ?_ }
        intro values isResolved
        rw [Option.some.injEq] at isResolved
        refine ⟨isResolved.symm, ?_⟩
        intro worker member
        cases worker with
        | returned => rfl
        | awaiting i => exact absurd (isOver.2 _ member) (by simp [isReturned])
        | settled i result => exact absurd (isOver.2 _ member) (by simp [isReturned])
      next => exact absurd stepped (by simp)

/-! ## How many workers -/

theorem toLength_ofNat (n : ℕ) : toLength (.ofNat n) = min n (2 ^ 53 - 1) := by
  rw [JsNumber.ofNat, toLength, Int.floor_natCast, Int.toNat_natCast]

theorem workerCount_ofNat (limit : ℕ) {items : ℕ} (small : items ≤ 2 ^ 53 - 1) :
    workerCount (.ofNat limit) items = min limit items := by
  rw [workerCount, JsNumber.min, if_neg (by simp [JsNumber.ofNat])]
  split
  next less =>
    have below := (JsNumber.less_ofNat items limit).mp less
    rw [toLength_ofNat]
    omega
  next notLess =>
    rw [JsNumber.less_ofNat] at notLess
    rw [toLength_ofNat]
    omega

/-- A limit from one on is not exceeded by the number of workers. -/
theorem not_less_of_le_workerCount {limit : JsNumber} {items n : ℕ}
    (atLeastOne : JsNumber.atMost (.ofNat 1) limit = true) (few : n ≤ workerCount limit items) :
    JsNumber.less limit (.ofNat n) = false := by
  cases limit with
  | nan => rfl
  | infinity => rfl
  | negInfinity => exact absurd atLeastOne (by decide)
  | finite value =>
      have floorBound : toLength (JsNumber.finite value) ≤ ⌊value⌋.toNat := min_le_left _ _
      rw [workerCount, JsNumber.min, if_neg (by simp [JsNumber.ofNat])] at few
      simp only [JsNumber.less, JsNumber.ofNat, decide_eq_true_eq, decide_eq_false_iff_not,
        not_lt] at few ⊢
      have positive : 1 ≤ value := by
        simpa [JsNumber.atMost, JsNumber.less, JsNumber.ofNat, le_iff_lt_or_eq] using atLeastOne
      split at few
      next below =>
        have small : n ≤ items := by
          have bound := few.trans (toLength_ofNat items).le
          exact bound.trans (min_le_left _ _)
        exact (Nat.cast_le.mpr small).trans below.le
      next =>
        have floor : (1 : ℤ) ≤ ⌊value⌋ := Int.le_floor.mpr (by exact_mod_cast positive)
        have small : (n : ℤ) ≤ ⌊value⌋ := by
          have bound := few.trans floorBound
          omega
        exact_mod_cast Int.le_floor.mp small

/-- Where there are items there is a worker. -/
theorem workerCount_pos {limit : JsNumber} {items : ℕ}
    (atLeastOne : JsNumber.atMost (.ofNat 1) limit = true) (some : 0 < items) :
    0 < workerCount limit items := by
  have positive : 0 < toLength (.ofNat items) := by
    rw [toLength_ofNat]
    omega
  rw [workerCount, JsNumber.min]
  split
  next isNan =>
    cases isNan with
    | inl isNan =>
        rw [isNan] at atLeastOne
        exact absurd atLeastOne (by decide)
    | inr isNan => exact absurd isNan (by simp [JsNumber.ofNat])
  next =>
    split
    next => exact positive
    next notLess =>
      cases limit with
      | nan => exact absurd atLeastOne (by decide)
      | negInfinity => exact absurd atLeastOne (by decide)
      | infinity => exact absurd rfl notLess
      | finite value =>
          have large : 1 ≤ value := by
            simpa [JsNumber.atMost, JsNumber.less, JsNumber.ofNat, le_iff_lt_or_eq]
              using atLeastOne
          have floor : (1 : ℤ) ≤ ⌊value⌋ := Int.le_floor.mpr (by exact_mod_cast large)
          rw [toLength]
          omega

theorem step_workers_length {items : List Item} {run changed : WorkerRun Item Result}
    {event : WorkerEvent Result} (stepped : step items run event = some changed) :
    changed.workers.length = run.workers.length := by
  cases event with
  | settle w result =>
      rw [step] at stepped
      split at stepped
      next =>
        cases stepped
        exact List.length_set
      next => cases stepped
  | resume w =>
      rw [step] at stepped
      split at stepped
      next =>
        cases stepped
        exact List.length_set
      next => cases stepped
  | resolve =>
      rw [step] at stepped
      split at stepped
      next =>
        cases stepped
        rfl
      next => cases stepped

theorem start_workers_length (items : List Item) (limit : JsNumber) :
    (start items limit : WorkerRun Item Result).workers.length =
      workerCount limit items.length := by
  rw [start]
  induction workerCount limit items.length with
  | zero => rfl
  | succ count ih =>
      rw [Function.iterate_succ_apply', spawn, List.length_append, ih]
      rfl

/-- How often a worker has still to be served before it is at the head of its loop. -/
def ahead : Worker Result → ℕ
  | .awaiting _ => 2
  | .settled _ _ => 1
  | .returned => 0

/-- How many events can still happen. -/
def remaining (items : List Item) (run : WorkerRun Item Result) : ℕ :=
  2 * (items.length - run.next) + (run.workers.map ahead).sum +
  (if run.resolved.isNone then 1 else 0)

theorem sum_ahead (before after : List (Worker Result)) (worker : Worker Result) :
    ((before ++ worker :: after).map ahead).sum =
      ahead worker + ((before ++ after).map ahead).sum := by
  simp only [List.map_append, List.map_cons, List.sum_append, List.sum_cons]
  omega

/-- Taking an item costs what the item cost before. -/
theorem remaining_loopHead (items : List Item) (run : WorkerRun Item Result)
    (before after : List (Worker Result)) :
    remaining items { (run.loopHead items).1 with
        workers := before ++ (run.loopHead items).2 :: after } =
      remaining items { run with workers := before ++ after } := by
  rw [loopHead]
  split
  next inside =>
    simp only [remaining, sum_ahead, ahead]
    omega
  next => simp only [remaining, sum_ahead, ahead, Nat.zero_add]

theorem remaining_step {items : List Item} {run changed : WorkerRun Item Result}
    {event : WorkerEvent Result} (stepped : step items run event = some changed) :
    remaining items changed < remaining items run := by
  cases event with
  | settle w result =>
      cases found : run.workers[w]? with
      | none => simp [step, found] at stepped
      | some worker =>
          rcases exists_around found with ⟨before, after, around, replaced⟩
          cases worker with
          | awaiting i =>
              simp only [step, found, replaced, Option.some.injEq] at stepped
              rw [← stepped]
              simp only [remaining, around, sum_ahead, ahead]
              omega
          | settled i earlier => simp [step, found] at stepped
          | returned => simp [step, found] at stepped
  | resume w =>
      cases found : run.workers[w]? with
      | none => simp [step, found] at stepped
      | some worker =>
          rcases exists_around found with ⟨before, after, around, replaced⟩
          cases worker with
          | awaiting i => simp [step, found] at stepped
          | settled i result =>
              simp only [step, found, goOn, replaced, Option.some.injEq] at stepped
              rw [← stepped]
              have unchanged := remaining_loopHead items
                { run with out := run.out.set i (some result) } before after
              rw [unchanged]
              simp only [remaining, around, sum_ahead, ahead]
              omega
          | returned => simp [step, found] at stepped
  | resolve =>
      rw [step] at stepped
      split at stepped
      next isOver =>
        rw [Bool.and_eq_true] at isOver
        rw [Option.some.injEq] at stepped
        rw [← stepped]
        simp [remaining, isOver.1]
      next => exact absurd stepped (by simp)

/-! ## What is promised -/

/-- The calls that have not ended are those that workers wait for. -/
theorem Kept.mem_outstanding {items : List Item} {run : WorkerRun Item Result}
    (kept : Kept items run) (i : ℕ) : i ∈ run.outstanding ↔ Worker.awaiting i ∈ run.workers := by
  have unsettled : (run.settlements.all (·.1 ≠ i)) = true ↔
      ∀ result, (i, result) ∉ run.settlements := by
    rw [List.all_eq_true]
    constructor
    · intro none result member
      simpa using none _ member
    · intro none settlement member
      rw [decide_eq_true_eq]
      intro same
      exact none settlement.2 (same ▸ member)
  rw [outstanding, List.mem_filter, unsettled, kept.taken, List.mem_reverse, List.mem_range]
  constructor
  · intro pending
    have hole : run.out[i]? = some none := by
      cases found : run.out[i]? with
      | none =>
          rw [List.getElem?_eq_none_iff, kept.size] at found
          exact absurd pending.1 (not_lt.mpr (kept.cursor.trans found))
      | some cell =>
          cases cell with
          | none => rfl
          | some result =>
              exact absurd ((kept.settled i result).mpr (Or.inl found)) (pending.2 result)
    rcases List.mem_filterMap.mp ((kept.busy i).mpr ⟨pending.1, hole⟩) with ⟨worker, member, place⟩
    cases worker with
    | awaiting j =>
        rw [← Option.some.inj place]
        exact member
    | settled j result =>
        rw [Option.some.inj place] at member
        exact absurd ((kept.settled i result).mpr (Or.inr member)) (pending.2 result)
    | returned => cases place
  · intro member
    have place : i ∈ run.workers.filterMap place? := List.mem_filterMap.mpr ⟨_, member, rfl⟩
    refine ⟨((kept.busy i).mp place).1, ?_⟩
    intro result
    rcases List.append_of_mem member with ⟨before, after, around⟩
    exact kept.notMem_settlements around result

theorem Kept.outstanding_length {items : List Item} {run : WorkerRun Item Result}
    (kept : Kept items run) : run.outstanding.length ≤ run.workers.length := by
  have distinct : run.outstanding.Nodup := by
    rw [outstanding, kept.taken]
    exact (List.nodup_reverse.mpr List.nodup_range).filter _
  have inside : run.outstanding ⊆ run.workers.filterMap place? := by
    intro i member
    exact List.mem_filterMap.mpr ⟨_, (kept.mem_outstanding i).mp member, rfl⟩
  exact (distinct.subperm inside).length_le.trans (List.length_filterMap_le _ _)

/-- When no call is outstanding and nothing is resolved, the run goes on by itself. -/
theorem Kept.goesOn {items : List Item} {run : WorkerRun Item Result} (kept : Kept items run)
    (unresolved : run.resolved = none) (quiet : run.outstanding = []) :
    ∃ changed, WorkerRun.step items run .resolve = some changed ∨
      ∃ w, WorkerRun.step items run (.resume w) = some changed := by
  by_cases allReturned : run.workers.all isReturned = true
  · refine ⟨{ run with resolved := some run.out }, Or.inl ?_⟩
    rw [WorkerRun.step, allReturned, unresolved]
    rfl
  · rw [List.all_eq_true, not_forall] at allReturned
    rcases allReturned with ⟨worker, busy⟩
    rw [Classical.not_imp] at busy
    rcases List.mem_iff_getElem?.mp busy.1 with ⟨w, found⟩
    cases worker with
    | awaiting i =>
        have waiting := (kept.mem_outstanding i).mpr busy.1
        rw [quiet] at waiting
        exact absurd waiting List.not_mem_nil
    | settled i result =>
        refine ⟨run.goOn items w i result, Or.inr ⟨w, ?_⟩⟩
        simp only [WorkerRun.step, found]
    | returned => exact absurd rfl busy.2

/-- What `mapLimited` promises in every state of a run. -/
structure MapsOnce (items : List Item) (limit : JsNumber) (run : WorkerRun Item Result) :
    Prop where
  /-- No index is called twice. -/
  calledOnce : (run.calls.map Prod.fst).Nodup
  onItem : ∀ call ∈ run.calls, items[call.1]? = some call.2
  /-- The calls that have not ended do not exceed the limit. -/
  limited : JsNumber.less limit (.ofNat run.outstanding.length) = false
  /-- It resolves only after every call has been made and has ended, with the results in
  their places. -/
  complete : ∀ values, run.resolved = some values →
    run.outstanding = [] ∧ values.length = items.length ∧ ∀ i < items.length,
      i ∈ run.calls.map Prod.fst ∧ ∃ result, values[i]? = some (some result) ∧
        ∀ other, (i, other) ∈ run.settlements ↔ other = result
  /-- It resolves once every call that was made has ended. -/
  goesOn : run.resolved = none → run.outstanding = [] →
    ∃ changed, step items run .resolve = some changed ∨
      ∃ w, step items run (.resume w) = some changed
  ends : ∀ event changed, step items run event = some changed →
    remaining items changed < remaining items run

theorem Kept.complete {items : List Item} {limit : JsNumber} {run : WorkerRun Item Result}
    (kept : Kept items run) (atLeastOne : JsNumber.atMost (.ofNat 1) limit = true)
    (workers : run.workers.length = workerCount limit items.length)
    {values : List (Option Result)} (isResolved : run.resolved = some values) :
    run.outstanding = [] ∧ values.length = items.length ∧ ∀ i < items.length,
      i ∈ run.calls.map Prod.fst ∧ ∃ result, values[i]? = some (some result) ∧
        ∀ other, (i, other) ∈ run.settlements ↔ other = result := by
  have final := kept.final values isResolved
  have idle : ∀ i, i ∉ run.workers.filterMap place? := by
    intro i member
    rcases List.mem_filterMap.mp member with ⟨worker, listed, place⟩
    rw [final.2 worker listed] at place
    cases place
  rw [final.1]
  refine ⟨?_, kept.size, ?_⟩
  · rw [List.eq_nil_iff_forall_not_mem]
    intro i member
    have waiting := (kept.mem_outstanding i).mp member
    exact absurd (final.2 _ waiting) (by simp)
  · intro i inside
    -- Some worker was started, and it has returned.
    have through : run.next = items.length := by
      have positive : 0 < run.workers.length := by
        rw [workers]
        exact workerCount_pos atLeastOne (Nat.zero_lt_of_lt inside)
      rcases List.exists_mem_of_length_pos positive with ⟨worker, listed⟩
      exact kept.through (final.2 worker listed ▸ listed)
    have reached : i < run.next := by rwa [through]
    refine ⟨?_, ?_⟩
    · rw [kept.taken, List.mem_reverse, List.mem_range]
      exact reached
    · cases found : run.out[i]? with
      | none =>
          rw [List.getElem?_eq_none_iff, kept.size] at found
          exact absurd inside (not_lt.mpr found)
      | some cell =>
          cases cell with
          | none => exact absurd ((kept.busy i).mpr ⟨reached, found⟩) (idle i)
          | some result =>
              refine ⟨result, rfl, ?_⟩
              intro other
              rw [kept.settled i other, found]
              constructor
              · intro settled
                cases settled with
                | inl filled => exact (Option.some.inj (Option.some.inj filled)).symm
                | inr member => exact absurd (final.2 _ member) (by simp)
              · intro same
                rw [same]
                exact Or.inl rfl

/-- For every limit from one on, whatever the order in which the calls end and the workers
go on. -/
theorem mapLimited_mapsOnce (items : List Item) {limit : JsNumber}
    (atLeastOne : JsNumber.atMost (.ofNat 1) limit = true) {run : WorkerRun Item Result}
    (reached : (machine items limit).Reachable (fun _ _ => True) run) :
    MapsOnce items limit run := by
  have both : Kept items run ∧ run.workers.length = workerCount limit items.length := by
    apply reached.invariant fun state =>
      Kept items state ∧ state.workers.length = workerCount limit items.length
    · exact ⟨kept_start items limit, start_workers_length items limit⟩
    · intro state event changed holds _ stepped
      exact ⟨holds.1.step stepped, (step_workers_length stepped).trans holds.2⟩
  have kept := both.1
  constructor
  · rw [kept.taken]
    exact List.nodup_reverse.mpr List.nodup_range
  · exact kept.onItem
  · apply not_less_of_le_workerCount atLeastOne
    rw [← both.2]
    exact kept.outstanding_length
  · intro values isResolved
    exact kept.complete atLeastOne both.2 isResolved
  · exact kept.goesOn
  · intro event changed stepped
    exact remaining_step stepped

/-- Three items and two workers; the second call ends first. -/
theorem mapLimited_mapsOnce_outOfOrder :
    ∃ run : WorkerRun Char ℕ,
      run.resolved = some [some 10, some 11, some 12] ∧
      MapsOnce ['a', 'b', 'c'] (.ofNat 2) run := by
  have atLeastOne : JsNumber.atMost (.ofNat 1) (.ofNat 2) = true := by
    norm_num [JsNumber.atMost, JsNumber.less, JsNumber.ofNat]
  have two : workerCount (.ofNat 2) 3 = 2 := workerCount_ofNat 2 (by decide)
  have events : (machine ['a', 'b', 'c'] (.ofNat 2)).run (fun _ _ => True)
      (start ['a', 'b', 'c'] (.ofNat 2))
      [.settle 1 11, .resume 1, .settle 0 10, .settle 1 12, .resume 1, .resume 0, .resolve] =
        some ⟨3, [some 10, some 11, some 12], [.returned, .returned],
          some [some 10, some 11, some 12], [(2, 'c'), (1, 'b'), (0, 'a')],
          [(2, 12), (0, 10), (1, 11)]⟩ := by
    rw [start, List.length_cons, List.length_cons, List.length_cons, List.length_nil, two]
    rfl
  exact ⟨_, rfl, mapLimited_mapsOnce _ atLeastOne (Machine.reachable_of_run events)⟩

/-! ## The coarser steps of the snapshot builder -/

/-- A place as the snapshot builder sees it. -/
def cellOf {Call : Type} (call : ℕ → Call) (taken : ℕ) (i : ℕ) : Option Result → Cell Call Result
  | some result => .settled result
  | none => if i < taken then .running (call i) else .waiting

/-- A run without its workers: a call lasts until its worker goes on. -/
def coarse {Call : Type} (call : ℕ → Call) (run : WorkerRun Item Result) :
    MapLimited Call Result where
  next := run.next
  out := run.out.mapIdx (cellOf call run.next)

section Coarse

variable {Call : Type} (call : ℕ → Call) {items : List Item} {run : WorkerRun Item Result}

/-- The head of the loop takes the next item of the coarse run. -/
theorem coarse_loopHead (run : WorkerRun Item Result) (others : List (Worker Result))
    (kept : Kept items { run with workers := others }) :
    coarse call (run.loopHead items).1 = (coarse call run).take call := by
  have size : (coarse call run).out.length = items.length := by
    rw [coarse, List.length_mapIdx, kept.size]
  have cursor : (coarse call run).next = run.next := rfl
  rw [loopHead, MapLimited.take, size, cursor]
  by_cases inside : run.next < items.length
  · rw [dif_pos inside, if_pos inside, coarse, MapLimited.mk.injEq]
    refine ⟨rfl, ?_⟩
    apply List.ext_getElem?
    intro i
    rw [List.getElem?_mapIdx]
    rcases eq_or_ne run.next i with rfl | different
    · rw [kept.hole inside, coarse, List.getElem?_set_self (by rwa [← coarse, size])]
      simp [cellOf]
    · rw [coarse, List.getElem?_set_ne different, List.getElem?_mapIdx]
      cases run.out[i]? with
      | none => rfl
      | some cell =>
          cases cell with
          | none =>
              have same : i < run.next + 1 ↔ i < run.next := by omega
              simp only [Option.map_some, cellOf, same]
          | some result => rfl
  · rw [dif_neg inside, if_neg inside]

theorem coarse_blank (items : List Item) :
    coarse call (blank items : WorkerRun Item Result) =
      ⟨0, List.replicate items.length .waiting⟩ := by
  rw [coarse, MapLimited.mk.injEq]
  refine ⟨rfl, ?_⟩
  apply List.ext_getElem?
  intro i
  rw [List.getElem?_mapIdx, blank, List.getElem?_replicate, List.getElem?_replicate]
  split
  next => rfl
  next => rfl

/-- Both runs start alike. -/
theorem coarse_start (items : List Item) (limit : ℕ) (small : items.length ≤ 2 ^ 53 - 1) :
    coarse call (start items (.ofNat limit) : WorkerRun Item Result) =
      MapLimited.start call items.length limit := by
  rw [start, workerCount_ofNat limit small, MapLimited.start]
  generalize min limit items.length = workers
  have both : ∀ count : ℕ,
      Kept items ((spawn items)^[count] (blank items) : WorkerRun Item Result) ∧
      coarse call ((spawn items)^[count] (blank items) : WorkerRun Item Result) =
        (MapLimited.take call)^[count] ⟨0, List.replicate items.length .waiting⟩ := by
    intro count
    induction count with
    | zero => exact ⟨kept_blank items, coarse_blank call items⟩
    | succ count ih =>
        refine ⟨(kept_spawned items (count + 1)).1, ?_⟩
        rw [Function.iterate_succ_apply', Function.iterate_succ_apply', ← ih.2]
        exact coarse_loopHead call _ _ ih.1
  exact (both workers).2

/-- An event leaves the coarse run alone or ends a call in it. -/
theorem coarse_step (kept : Kept items run) {event : WorkerEvent Result}
    {changed : WorkerRun Item Result} (stepped : step items run event = some changed) :
    coarse call changed = coarse call run ∨ ∃ i result,
      (coarse call run).out[i]? = some (.running (call i)) ∧
        coarse call changed = (coarse call run).settle call i result := by
  cases event with
  | settle w result =>
      rw [step] at stepped
      split at stepped
      next =>
        cases stepped
        exact Or.inl rfl
      next => cases stepped
  | resolve =>
      rw [step] at stepped
      split at stepped
      next =>
        cases stepped
        exact Or.inl rfl
      next => cases stepped
  | resume w =>
      cases found : run.workers[w]? with
      | none => simp [step, found] at stepped
      | some worker =>
          rcases exists_around found with ⟨before, after, around, replaced⟩
          cases worker with
          | awaiting i => simp [step, found] at stepped
          | settled i result =>
              simp only [step, found, goOn, Option.some.injEq] at stepped
              have mine : i < run.next ∧ run.out[i]? = some none := by
                rw [← kept.busy i, around, filterMap_place?]
                simp [place?]
              refine Or.inr ⟨i, result, ?_, ?_⟩
              · simp [coarse, cellOf, mine.1, mine.2]
              · rw [← stepped]
                have stored : coarse call { run with out := run.out.set i (some result) } =
                    { coarse call run with
                      out := (coarse call run).out.set i (.settled result) } := by
                  simp [coarse, List.mapIdx_set, cellOf]
                rw [MapLimited.settle, ← stored]
                exact coarse_loopHead call { run with out := run.out.set i (some result) } _
                  (kept.store around)
          | returned => simp [step, found] at stepped

/-- The workers have all returned when nothing runs in the coarse run. -/
theorem ended_coarse_iff (kept : Kept items run) :
    (coarse call run).ended = true ↔ run.workers.all isReturned = true := by
  have idle : run.workers.all isReturned = true ↔ run.workers.filterMap place? = [] := by
    rw [List.all_eq_true, List.filterMap_eq_nil_iff]
    constructor
    · intro all worker member
      cases worker with
      | returned => rfl
      | awaiting i => exact absurd (all _ member) (by simp [isReturned])
      | settled i result => exact absurd (all _ member) (by simp [isReturned])
    · intro all worker member
      cases worker with
      | returned => rfl
      | awaiting i => exact absurd (all _ member) (by simp [place?])
      | settled i result => exact absurd (all _ member) (by simp [place?])
  rw [idle, List.eq_nil_iff_forall_not_mem, MapLimited.ended, List.all_eq_true]
  constructor
  · intro all i member
    have place := (kept.busy i).mp member
    have running : (coarse call run).out[i]? = some (.running (call i)) := by
      simp [coarse, cellOf, place.1, place.2]
    exact absurd (all _ (List.mem_of_getElem? running)) (by simp [MapLimited.isRunning])
  · intro none cell member
    rcases List.mem_iff_getElem?.mp member with ⟨i, found⟩
    rw [coarse, List.getElem?_mapIdx] at found
    cases stored : run.out[i]? with
    | none => simp [stored] at found
    | some place =>
        rw [stored, Option.map_some, Option.some.injEq] at found
        rw [← found]
        cases place with
        | some result => rfl
        | none =>
            have outside : ¬i < run.next := fun inside =>
              none i ((kept.busy i).mpr ⟨inside, stored⟩)
            simp [cellOf, outside, MapLimited.isRunning]

/-- When the array is returned the coarse run has ended, with the same results. -/
theorem coarse_resolved (kept : Kept items run) {values : List (Option Result)}
    (isResolved : run.resolved = some values) : (coarse call run).ended = true ∧
      ∀ i result, (coarse call run).Filled i result ↔ values[i]? = some (some result) := by
  have final := kept.final values isResolved
  constructor
  · rw [ended_coarse_iff call kept, List.all_eq_true]
    intro worker listed
    rw [final.2 worker listed]
    rfl
  · intro i result
    rw [final.1, MapLimited.Filled, coarse, List.getElem?_mapIdx]
    cases found : run.out[i]? with
    | none => simp
    | some cell =>
        cases cell with
        | some other => simp [cellOf]
        | none =>
            by_cases taken : i < run.next
            · simp [cellOf, taken]
            · simp [cellOf, taken]

end Coarse

end WorkerRun

/-! ## Workers in a build -/

namespace FlinkAdapter

/-- A call of the client ends with any outcome. -/
theorem exists_reply (outcome : Except FlinkFailure Unit) :
    ∃ reply, classify false reply = outcome := by
  cases outcome with
  | ok value => exact ⟨.value value, rfl⟩
  | error failure =>
      cases failure with
      | other => exact ⟨.unexpected, rfl⟩
      | client kind =>
          cases kind with
          | unreachable => exact ⟨.transport false, rfl⟩
          | timeout => exact ⟨.cancelled, rfl⟩
          | httpError => exact ⟨.httpError, rfl⟩
          | invalidResponse => exact ⟨.invalid, rfl⟩
          | overloaded => exact ⟨.queueFull, rfl⟩

/-- Whatever the workers do between a listed overview and the returned array is a run of the
build. A call that is refused ends like one that is cancelled, so that the time budget need
not run out for it. -/
theorem exists_build_of_workers {Item : Type} {r : Rounding} {config : FlinkAdapterConfig}
    {adapter : FlinkAdapter} {b jobs : ℕ} {log : List BuildOccurrence}
    (before : (machine r config).Reachable Steady adapter)
    (current : adapter.builds b = some ⟨.overview, false, log⟩)
    {items : List Item} (selected : items.length = min jobs MAX_JOBS)
    {run : WorkerRun Item (Except FlinkFailure Unit)}
    (reached : (WorkerRun.machine items (.ofNat config.maxConcurrency)).Reachable
      (fun _ _ => True) run) :
    (∃ after noted, (machine r config).Reachable Steady after ∧
      after.builds b = some ⟨.jobs (run.coarse (jobCall false)), false, noted⟩) ∧
    ∀ values, run.resolved = some values → (run.coarse (jobCall false)).ended = true ∧
      ∀ i outcome, (run.coarse (jobCall false)).Filled i outcome ↔
        values[i]? = some (some outcome) := by
  have both : WorkerRun.Kept items run ∧ ∃ after noted,
      (machine r config).Reachable Steady after ∧
        after.builds b = some ⟨.jobs (run.coarse (jobCall false)), false, noted⟩ := by
    apply reached.invariant fun state => WorkerRun.Kept items state ∧ ∃ after noted,
      (machine r config).Reachable Steady after ∧
        after.builds b = some ⟨.jobs (state.coarse (jobCall false)), false, noted⟩
    · refine ⟨WorkerRun.kept_start items _, ?_⟩
      have small : items.length ≤ 2 ^ 53 - 1 := by
        rw [selected]
        exact (min_le_right jobs MAX_JOBS).trans (by decide)
      have begun : (WorkerRun.start items (.ofNat config.maxConcurrency)).coarse (jobCall false) =
          (MapLimited.start (jobCall false) items.length config.maxConcurrency : JobReads) :=
        WorkerRun.coarse_start (jobCall false) items config.maxConcurrency small
      have always : adapter.Steady (.overviewRead b (.value jobs)) := trivial
      have stepped : step r config adapter (.overviewRead b (.value jobs)) = some
          (adapter.setBuild b (overviewRead config false log (.ok jobs))) := by
        simp only [step, current, classify]
      refine ⟨_, log, before.step always stepped, ?_⟩
      rw [Tracked.builds_setBuild_self, overviewRead, WorkerRun.machine, begun, selected]
    · intro state event changed holds _ stepped
      rcases holds with ⟨kept, after, noted, reachable, shown⟩
      refine ⟨kept.step stepped, ?_⟩
      cases WorkerRun.coarse_step (jobCall false) kept stepped with
      | inl same =>
          rw [same]
          exact ⟨after, noted, reachable, shown⟩
      | inr ended =>
          rcases ended with ⟨i, outcome, running, settled⟩
          rcases exists_reply outcome with ⟨reply, answered⟩
          have always : after.Steady (.jobRead b i reply) := trivial
          have read : step r config after (.jobRead b i reply) = some (after.setBuild b
              (jobRead false noted (state.coarse (jobCall false)) i outcome)) := by
            simp only [step, shown, running]
            rw [jobCall, if_neg Bool.false_ne_true, jobOutcome, answered]
          refine ⟨_, (jobRead false noted (state.coarse (jobCall false)) i outcome).log,
            reachable.step always read, ?_⟩
          rw [Tracked.builds_setBuild_self, settled]
          rfl
  refine ⟨both.2, ?_⟩
  intro values isResolved
  exact WorkerRun.coarse_resolved (jobCall false) both.1 isResolved

end FlinkAdapter

end BelugaManager.DomainApi
