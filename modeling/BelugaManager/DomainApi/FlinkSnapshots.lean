import BelugaManager.DomainApi.RequestSlots
import BelugaManager.DomainApi.MemoHistory
import BelugaManager.Foundation.Regex

/-!
# Snapshots of the Flink adapter

`listPipelines` of `flink/adapter.ts` as a machine: builds read the overview and the
details of up to a hundred jobs, and a cache shares the build that is in flight and keeps
its result as long as the verdict about the reads allows.  The history is not part of the
source.  Of a snapshot only the build it comes from matters here.
-/

namespace BelugaManager.DomainApi

open Foundation

/-- A place of the result array: not reached, waiting for a call, or filled. -/
inductive Cell (Call Outcome : Type) where
  | waiting
  | running (call : Call)
  | settled (outcome : Outcome)

/-- `mapLimited` while it runs. A call tells what the function does with its item. -/
structure MapLimited (Call Outcome : Type) where
  next : ℕ
  out : List (Cell Call Outcome)

namespace MapLimited

variable {Call Outcome : Type}

/-- A worker takes the next item, if there is one. -/
def take (call : ℕ → Call) (run : MapLimited Call Outcome) : MapLimited Call Outcome :=
  if run.next < run.out.length then
    { next := run.next + 1
      out := run.out.set run.next (.running (call run.next)) }
  else run

/-- All workers start. -/
def start (call : ℕ → Call) (items limit : ℕ) : MapLimited Call Outcome :=
  (take call)^[min limit items] ⟨0, List.replicate items .waiting⟩

/-- A call ends and its worker goes on. -/
def settle (call : ℕ → Call) (run : MapLimited Call Outcome) (i : ℕ) (outcome : Outcome) :
    MapLimited Call Outcome :=
  take call { run with out := run.out.set i (.settled outcome) }

/-- The place of an item holds an outcome. -/
def Filled (run : MapLimited Call Outcome) (i : ℕ) (outcome : Outcome) : Prop :=
  run.out[i]? = some (.settled outcome)

/-- Places that no worker has reached are waiting. -/
def Untouched (run : MapLimited Call Outcome) : Prop :=
  ∀ i cell, run.next ≤ i → run.out[i]? = some cell → cell = .waiting

theorem Untouched.take {run : MapLimited Call Outcome} (untouched : run.Untouched)
    (call : ℕ → Call) : (run.take call).Untouched := by
  rw [MapLimited.take]
  split
  next inside =>
    intro i cell later found
    have different : run.next ≠ i := by
      intro same
      rw [← same] at later
      exact absurd later (Nat.not_succ_le_self _)
    rw [List.getElem?_set_ne different] at found
    exact untouched i cell (le_trans (Nat.le_succ _) later) found
  next => exact untouched

/-- Taking an item fills no place. -/
theorem Untouched.filled_take {run : MapLimited Call Outcome} (untouched : run.Untouched)
    (call : ℕ → Call) (i : ℕ) (outcome : Outcome) :
    (run.take call).Filled i outcome ↔ run.Filled i outcome := by
  rw [MapLimited.take, Filled, Filled]
  split
  next inside =>
    rcases eq_or_ne run.next i with rfl | different
    · rw [List.getElem?_set_self inside]
      constructor
      · intro found
        cases found
      · intro found
        cases untouched run.next _ le_rfl found
    · rw [List.getElem?_set_ne different]
  next => exact Iff.rfl

theorem untouched_start (call : ℕ → Call) (items limit : ℕ) :
    (start call items limit : MapLimited Call Outcome).Untouched ∧
      ∀ i outcome, ¬ (start call items limit : MapLimited Call Outcome).Filled i outcome := by
  rw [start]
  generalize min limit items = workers
  induction workers with
  | zero =>
      have all : ∀ (i : ℕ) (cell : Cell Call Outcome),
          (List.replicate items (Cell.waiting : Cell Call Outcome))[i]? = some cell →
            cell = .waiting := by
        intro i cell found
        exact List.eq_of_mem_replicate (List.mem_of_getElem? found)
      refine ⟨fun i cell _ found => all i cell found, ?_⟩
      intro i outcome found
      cases all i _ found
  | succ workers ih =>
      rw [Function.iterate_succ_apply']
      refine ⟨ih.1.take call, ?_⟩
      intro i outcome found
      exact ih.2 i outcome ((ih.1.filled_take call i outcome).mp found)

section Settle

variable {run : MapLimited Call Outcome} {i : ℕ} {current : Call}

theorem Untouched.set (untouched : run.Untouched) (running : run.out[i]? = some (.running current))
    (outcome : Outcome) :
    ({ run with out := run.out.set i (.settled outcome) } : MapLimited Call Outcome).Untouched := by
  intro j cell later found
  rcases eq_or_ne i j with rfl | different
  · cases untouched i _ later running
  · rw [List.getElem?_set_ne different] at found
    exact untouched j cell later found

theorem Untouched.settle (untouched : run.Untouched)
    (running : run.out[i]? = some (.running current)) (call : ℕ → Call) (outcome : Outcome) :
    (run.settle call i outcome).Untouched := (untouched.set running outcome).take call

/-- The end of a call fills its place. -/
theorem Untouched.filled_settle (untouched : run.Untouched)
    (running : run.out[i]? = some (.running current)) (call : ℕ → Call) (outcome : Outcome)
    (j : ℕ) (other : Outcome) :
    (run.settle call i outcome).Filled j other ↔ j = i ∧ other = outcome ∨ run.Filled j other := by
  rw [MapLimited.settle, (untouched.set running outcome).filled_take call, Filled, Filled]
  have inside : i < run.out.length := (List.getElem?_eq_some_iff.mp running).1
  rcases eq_or_ne i j with rfl | different
  · rw [List.getElem?_set_self inside, running]
    simp [eq_comm]
  · rw [List.getElem?_set_ne different]
    simp [different.symm]

end Settle

def isRunning : Cell Call Outcome → Bool
  | .running _ => true
  | _ => false

/-- Every worker has ended. -/
def ended (run : MapLimited Call Outcome) : Bool := run.out.all (!isRunning ·)

end MapLimited

/-- What a read fails with. -/
inductive FlinkFailure where
  | client (kind : FlinkErrorKind)
  | other
  deriving DecidableEq, Repr

/-- How a read through the client ends: without a slot, at the transport, with a response
that is refused, or with a value. -/
inductive FlinkReply (Value : Type) where
  | queueFull
  | cancelled
  | transport (timedOut : Bool)
  | httpError
  | invalid
  | unexpected
  | value (value : Value)

/-- What the client makes of it. `aborted` is set if the time budget of the snapshot is
used up, which aborts its reads. -/
def classify {Value : Type} (aborted : Bool) : FlinkReply Value → Except FlinkFailure Value
  | .queueFull => .error (.client .overloaded)
  | .cancelled => .error (.client .timeout)
  | .transport timedOut =>
      .error (.client (if timedOut || aborted then .timeout else .unreachable))
  | .httpError => .error (.client .httpError)
  | .invalid => .error (.client .invalidResponse)
  | .unexpected => .error .other
  | .value value => .ok value

def TRANSIENT_KINDS : List FlinkErrorKind := [.overloaded, .timeout, .unreachable]

def NEGATIVE_TTL_CAP_MS : ℕ := 1000

def MAX_JOBS : ℕ := 100

/-- What a build has noted about its reads. -/
structure Verdict where
  transient : Bool
  genuine : Bool

namespace Verdict

def empty : Verdict := ⟨false, false⟩

def note (verdict : Verdict) : FlinkFailure → Verdict
  | .client kind =>
      if kind ∈ TRANSIENT_KINDS then { verdict with transient := true }
      else { verdict with genuine := true }
  | .other => { verdict with transient := true }

/-- Jobs that could not be mapped. -/
def noteSkipped (verdict : Verdict) (skipped : ℕ) : Verdict :=
  if skipped > 0 then { verdict with genuine := true } else verdict

/-- How long a snapshot may be kept. -/
def ttlMs (verdict : Verdict) (cacheTtlMs : JsNumber) : JsNumber :=
  if verdict.transient then .ofNat 0
  else if verdict.genuine then JsNumber.min cacheTtlMs (.ofNat NEGATIVE_TTL_CAP_MS)
  else cacheTtlMs

end Verdict

/-! ## Builds -/

/-- A call of `getJob`, or its refusal because the time budget was used up before. -/
inductive JobRead where
  | reading
  | refused

abbrev JobReads := MapLimited JobRead (Except FlinkFailure Unit)

inductive BuildPhase where
  | overview
  | jobs (run : JobReads)
  | returned (ttlMs : JsNumber)
  | stored
  | rejected
  | cleared

inductive BuildOccurrence where
  | failed (failure : FlinkFailure)
  | mapped (skipped : ℕ)
  | completed (time : ℤ)
  | rejected
  deriving DecidableEq, Repr

/-- A call of `buildSnapshot`. The log is not part of the source. -/
structure Build where
  phase : BuildPhase
  aborted : Bool
  log : List BuildOccurrence

/-- The error noted for a place of the result array, if any. -/
def failureOf : Cell JobRead (Except FlinkFailure Unit) → Option FlinkFailure
  | .settled (.error failure) => some failure
  | _ => none

def isSettled : Cell JobRead (Except FlinkFailure Unit) → Bool
  | .settled _ => true
  | _ => false

/-- What is noted once all details are there; a place that was never filled throws. -/
def verdictOf (run : JobReads) : Option Verdict :=
  if run.out.all isSettled then
    some ((run.out.filterMap failureOf).foldl Verdict.note Verdict.empty)
  else none

structure FlinkAdapterConfig where
  cacheTtlMs : JsNumber
  maxConcurrency : ℕ

/-- The cache of snapshots. A number stands for the build and for its promise. -/
structure SingleFlightCache where
  entry : Option (ℕ × JsNumber)
  inflight : Option ℕ

/-- A call receives the snapshot of a build, either its promise or its value. -/
inductive SnapshotOccurrence where
  | cleared (build : ℕ)
  | received (build : ℕ) (time : ℤ)
  deriving DecidableEq, Repr

structure FlinkAdapter where
  now : ℤ
  cache : SingleFlightCache
  builds : ℕ → Option Build
  nextBuild : ℕ
  history : List SnapshotOccurrence

/-- What happens next. Listed jobs are counted; `skipped` is missing if the mapping throws. -/
inductive FlinkAdapterEvent where
  | tick (time : ℤ)
  | listPipelines
  | getPipeline (id : String)
  | overviewRead (build : ℕ) (reply : FlinkReply ℕ)
  | jobRead (build i : ℕ) (reply : FlinkReply Unit)
  | budgetExpired (build : ℕ)
  | mapped (build : ℕ) (skipped : Option ℕ)
  | store (build : ℕ)
  | clear (build : ℕ)

def isHex (c : Char) : Bool := c.isDigit || ('a' ≤ c && c ≤ 'f')

/-- `/^pl-flink-([0-9a-f]{32})$/` -/
def PIPELINE_ID_PATTERN : Regex :=
  Regex.all ("pl-flink-".toList.map Regex.char ++ List.replicate 32 (.chars isHex))

namespace FlinkAdapter

/-- The earliest time a date can have. -/
def MIN_DATE : ℤ := -8640000000000000

def MAX_DATE : ℤ := 8640000000000000

def init : FlinkAdapter where
  now := MIN_DATE
  cache := ⟨none, none⟩
  builds := fun _ => none
  nextBuild := 0
  history := []

def setBuild (adapter : FlinkAdapter) (b : ℕ) (build : Build) : FlinkAdapter :=
  { adapter with builds := Function.update adapter.builds b (some build) }

def record (adapter : FlinkAdapter) (occurrence : SnapshotOccurrence) : FlinkAdapter :=
  { adapter with history := occurrence :: adapter.history }

/-- The load of the cache is started: it runs up to the read of the overview. -/
def load (adapter : FlinkAdapter) : FlinkAdapter :=
  { adapter.setBuild adapter.nextBuild ⟨.overview, false, []⟩ with
    cache := { adapter.cache with inflight := some adapter.nextBuild }
    nextBuild := adapter.nextBuild + 1 }

/-- Whether the cache has a fresh entry. -/
def fresh (adapter : FlinkAdapter) : Option ℕ :=
  adapter.cache.entry.bind fun (b, expiresAt) =>
    if JsNumber.less (.finite adapter.now) expiresAt then some b else none

/-- A call of `get`: a fresh entry, the promise in flight or that of a new load. -/
def get (adapter : FlinkAdapter) : FlinkAdapter :=
  match adapter.fresh with
  | some b => adapter.record (.received b adapter.now)
  | none =>
      match adapter.cache.inflight with
      | some b => adapter.record (.received b adapter.now)
      | none => adapter.load.record (.received adapter.nextBuild adapter.now)

/-- What a call of `fn` does with its job. -/
def jobCall (aborted : Bool) (_ : ℕ) : JobRead := if aborted then .refused else .reading

/-- How a call of `fn` ends. -/
def jobOutcome (aborted : Bool) (reply : FlinkReply Unit) : JobRead → Except FlinkFailure Unit
  | .refused => .error (.client .timeout)
  | .reading => classify aborted reply

/-- The overview has been read. -/
def overviewRead (config : FlinkAdapterConfig) (aborted : Bool) (log : List BuildOccurrence) :
    Except FlinkFailure ℕ → Build
  | .error failure =>
      { phase := .returned ((Verdict.empty.note failure).ttlMs config.cacheTtlMs)
        aborted := aborted
        log := .failed failure :: log }
  | .ok jobs =>
      { phase := .jobs (MapLimited.start (jobCall aborted) (min jobs MAX_JOBS)
          config.maxConcurrency)
        aborted := aborted
        log := log }

/-- The details of a job have been read, or not. -/
def jobRead (aborted : Bool) (log : List BuildOccurrence) (run : JobReads) (i : ℕ)
    (outcome : Except FlinkFailure Unit) : Build where
  phase := .jobs (run.settle (jobCall aborted) i outcome)
  aborted := aborted
  log := match outcome with
    | .error failure => .failed failure :: log
    | .ok _ => log

/-- All details are there and the jobs are mapped. -/
def mapped (config : FlinkAdapterConfig) (aborted : Bool) (log : List BuildOccurrence)
    (run : JobReads) (skipped : Option ℕ) : Build :=
  match verdictOf run, skipped with
  | some verdict, some count =>
      { phase := .returned ((verdict.noteSkipped count).ttlMs config.cacheTtlMs)
        aborted := aborted
        log := .mapped count :: log }
  | _, _ => { phase := .rejected, aborted := aborted, log := .rejected :: log }

/-- The callback of the load puts its value into the cache. -/
def store (r : Rounding) (adapter : FlinkAdapter) (b : ℕ) (build : Build) (ttlMs : JsNumber) :
    FlinkAdapter :=
  { adapter.setBuild b { build with
      phase := .stored, log := .completed adapter.now :: build.log } with
    cache := { adapter.cache with entry := some (b, r.add (.finite adapter.now) ttlMs) } }

def clear (adapter : FlinkAdapter) (b : ℕ) (build : Build) : FlinkAdapter :=
  { (adapter.setBuild b { build with phase := .cleared }).record (.cleared b) with
    cache := { adapter.cache with
      inflight := if adapter.cache.inflight = some b then none else adapter.cache.inflight } }

def step (r : Rounding) (config : FlinkAdapterConfig) (adapter : FlinkAdapter) :
    FlinkAdapterEvent → Option FlinkAdapter
  | .tick time => some { adapter with now := time }
  | .listPipelines => some adapter.get
  | .getPipeline id => some (if PIPELINE_ID_PATTERN.test id then adapter.get else adapter)
  | .overviewRead b reply =>
      match adapter.builds b with
      | some ⟨.overview, aborted, log⟩ =>
          some (adapter.setBuild b (overviewRead config aborted log (classify aborted reply)))
      | _ => none
  | .jobRead b i reply =>
      match adapter.builds b with
      | some ⟨.jobs run, aborted, log⟩ =>
          match run.out[i]? with
          | some (.running call) =>
              some (adapter.setBuild b
                (jobRead aborted log run i (jobOutcome aborted reply call)))
          | _ => none
      | _ => none
  | .budgetExpired b =>
      match adapter.builds b with
      | some ⟨.overview, _, log⟩ => some (adapter.setBuild b ⟨.overview, true, log⟩)
      | some ⟨.jobs run, _, log⟩ => some (adapter.setBuild b ⟨.jobs run, true, log⟩)
      | _ => none
  | .mapped b skipped =>
      match adapter.builds b with
      | some ⟨.jobs run, aborted, log⟩ =>
          if run.ended then some (adapter.setBuild b (mapped config aborted log run skipped))
          else none
      | _ => none
  | .store b =>
      match adapter.builds b with
      | some ⟨.returned ttlMs, aborted, log⟩ =>
          some (adapter.store r b ⟨.returned ttlMs, aborted, log⟩ ttlMs)
      | _ => none
  | .clear b =>
      match adapter.builds b with
      | some ⟨.stored, aborted, log⟩ => some (adapter.clear b ⟨.stored, aborted, log⟩)
      | some ⟨.rejected, aborted, log⟩ => some (adapter.clear b ⟨.rejected, aborted, log⟩)
      | _ => none

/-- The adapter with a clock that never goes back. -/
def machine (r : Rounding) (config : FlinkAdapterConfig) :
    Machine FlinkAdapter FlinkAdapterEvent where
  init := init
  step := step r config

def Steady (adapter : FlinkAdapter) : FlinkAdapterEvent → Prop
  | .tick time => adapter.now ≤ time ∧ time ≤ MAX_DATE
  | _ => True

instance (adapter : FlinkAdapter) (event : FlinkAdapterEvent) : Decidable (adapter.Steady event) :=
  match event with
  | .tick time => inferInstanceAs (Decidable (adapter.now ≤ time ∧ time ≤ MAX_DATE))
  | .listPipelines | .getPipeline _ | .overviewRead _ _ | .jobRead _ _ _ | .budgetExpired _
  | .mapped _ _ | .store _ | .clear _ => isTrue trivial

end FlinkAdapter

namespace FlinkFailure

/-- A failure that says nothing about the upstream. -/
def isTransient : FlinkFailure → Bool
  | .client kind => kind ∈ TRANSIENT_KINDS
  | .other => true

theorem answer_of_not_transient {failure : FlinkFailure} (answered : failure.isTransient = false) :
    failure = .client .httpError ∨ failure = .client .invalidResponse := by
  cases failure with
  | client kind =>
      cases kind with
      | httpError => exact Or.inl rfl
      | invalidResponse => exact Or.inr rfl
      | unreachable => cases answered
      | timeout => cases answered
      | overloaded => cases answered
  | other => cases answered

end FlinkFailure

namespace Verdict

theorem note_transient (verdict : Verdict) (failure : FlinkFailure) :
    (verdict.note failure).transient = (verdict.transient || failure.isTransient) := by
  cases failure with
  | client kind =>
      rw [note]
      split
      next member => simp [FlinkFailure.isTransient, member]
      next absent => simp [FlinkFailure.isTransient, absent]
  | other => simp [note, FlinkFailure.isTransient]

theorem note_genuine (verdict : Verdict) (failure : FlinkFailure) :
    (verdict.note failure).genuine = (verdict.genuine || !failure.isTransient) := by
  cases failure with
  | client kind =>
      rw [note]
      split
      next member => simp [FlinkFailure.isTransient, member]
      next absent => simp [FlinkFailure.isTransient, absent]
  | other => simp [note, FlinkFailure.isTransient]

theorem foldl_note (failures : List FlinkFailure) (verdict : Verdict) :
    (failures.foldl note verdict).transient =
        (verdict.transient || failures.any (·.isTransient)) ∧
      (failures.foldl note verdict).genuine =
        (verdict.genuine || failures.any (!·.isTransient)) := by
  induction failures generalizing verdict with
  | nil => simp
  | cons failure rest ih =>
      rw [List.foldl_cons, (ih _).1, (ih _).2, note_transient, note_genuine, List.any_cons,
        List.any_cons, Bool.or_assoc, Bool.or_assoc]
      exact ⟨rfl, rfl⟩

/-- A verdict about exactly the failures and unmapped jobs of a log. -/
structure Backed (log : List BuildOccurrence) (verdict : Verdict) : Prop where
  transient : verdict.transient = true ↔
    ∃ failure, .failed failure ∈ log ∧ failure.isTransient = true
  genuine : verdict.genuine = true ↔
    (∃ failure, .failed failure ∈ log ∧ failure.isTransient = false) ∨
      ∃ skipped, .mapped skipped ∈ log ∧ 0 < skipped

end Verdict

/-! ## What a build keeps -/

/-- The reads of a run that have failed. -/
def Fails (run : JobReads) (failure : FlinkFailure) : Prop :=
  ∃ i, run.Filled i (.error failure)

theorem mem_failures_iff (run : JobReads) (failure : FlinkFailure) :
    failure ∈ run.out.filterMap failureOf ↔ Fails run failure := by
  rw [List.mem_filterMap]
  constructor
  · intro ⟨cell, member, isFailure⟩
    rcases List.getElem?_of_mem member with ⟨i, found⟩
    cases cell with
    | waiting => cases isFailure
    | running call => cases isFailure
    | settled outcome =>
        cases outcome with
        | ok value => cases isFailure
        | error failure =>
            cases isFailure
            exact ⟨i, found⟩
  · intro ⟨i, found⟩
    exact ⟨_, List.mem_of_getElem? found, rfl⟩

/-- A read of the build failed or a job could not be mapped. -/
def Build.Troubled (build : Build) : Prop :=
  (∃ failure, .failed failure ∈ build.log) ∨ ∃ skipped, .mapped skipped ∈ build.log ∧ 0 < skipped

/-- The log fits the phase of a build. -/
def Build.Kept (cacheTtlMs : JsNumber) (build : Build) : Prop :=
  match build.phase with
  | .overview => build.log = []
  | .jobs run => run.Untouched ∧
      (∀ occurrence ∈ build.log, ∃ failure, occurrence = .failed failure) ∧
      ∀ failure, .failed failure ∈ build.log ↔ Fails run failure
  | .returned ttlMs => (∃ verdict : Verdict, Verdict.Backed build.log verdict ∧
      ttlMs = verdict.ttlMs cacheTtlMs) ∧ (∀ time, .completed time ∉ build.log) ∧
        .rejected ∉ build.log
  | .stored => .rejected ∉ build.log
  | .rejected => ∀ time, .completed time ∉ build.log
  | .cleared => .rejected ∈ build.log → ∀ time, .completed time ∉ build.log

namespace FlinkAdapter

theorem overviewRead_kept (config : FlinkAdapterConfig) (aborted : Bool)
    (outcome : Except FlinkFailure ℕ) :
    (overviewRead config aborted [] outcome).Kept config.cacheTtlMs := by
  cases outcome with
  | error failure =>
      refine ⟨⟨Verdict.empty.note failure, ?_, rfl⟩, by simp [overviewRead], by simp [overviewRead]⟩
      constructor
      · simp [overviewRead, Verdict.note_transient, Verdict.empty]
      · simp [overviewRead, Verdict.note_genuine, Verdict.empty]
  | ok jobs =>
      rcases @MapLimited.untouched_start JobRead (Except FlinkFailure Unit) (jobCall aborted)
        (min jobs MAX_JOBS) config.maxConcurrency with ⟨untouched, none⟩
      refine ⟨untouched, fun _ absent => absurd absent List.not_mem_nil, ?_⟩
      intro failure
      constructor
      · exact fun absent => absurd absent List.not_mem_nil
      · intro ⟨i, found⟩
        exact absurd found (none i _)

theorem jobRead_kept {cacheTtlMs : JsNumber} {aborted : Bool} {log : List BuildOccurrence}
    {run : JobReads} (kept : Build.Kept cacheTtlMs ⟨.jobs run, aborted, log⟩) {i : ℕ}
    {call : JobRead} (running : run.out[i]? = some (.running call))
    (outcome : Except FlinkFailure Unit) :
    (jobRead aborted log run i outcome).Kept cacheTtlMs := by
  rcases kept with ⟨untouched, onlyFailures, failures⟩
  have filled := untouched.filled_settle running (jobCall aborted) outcome
  refine ⟨untouched.settle running _ outcome, ?_, ?_⟩
  · cases outcome with
    | ok value => exact onlyFailures
    | error failure =>
        intro occurrence member
        rcases List.mem_cons.mp member with rfl | before
        · exact ⟨failure, rfl⟩
        · exact onlyFailures occurrence before
  · intro failure
    have fails : Fails (run.settle (jobCall aborted) i outcome) failure ↔
        outcome = .error failure ∨ Fails run failure := by
      constructor
      · intro ⟨j, found⟩
        rcases (filled j _).mp found with ⟨_, same⟩ | before
        · exact Or.inl same.symm
        · exact Or.inr ⟨j, before⟩
      · intro either
        rcases either with same | ⟨j, before⟩
        · exact ⟨i, (filled i _).mpr (Or.inl ⟨rfl, same.symm⟩)⟩
        · exact ⟨j, (filled j _).mpr (Or.inr before)⟩
    have logged := failures failure
    change _ ↔ Fails (run.settle (jobCall aborted) i outcome) failure
    rw [fails]
    cases outcome with
    | ok value =>
        simp only [reduceCtorEq, false_or]
        exact logged
    | error latest =>
        rw [Except.error.injEq, ← logged]
        simp [jobRead, eq_comm]

theorem mapped_kept {config : FlinkAdapterConfig} {aborted : Bool} {log : List BuildOccurrence}
    {run : JobReads} (kept : Build.Kept config.cacheTtlMs ⟨.jobs run, aborted, log⟩)
    (skipped : Option ℕ) : (mapped config aborted log run skipped).Kept config.cacheTtlMs := by
  rcases kept with ⟨_, onlyFailures, failures⟩
  have noCompleted : ∀ time, .completed time ∉ log := by
    intro time member
    rcases onlyFailures _ member with ⟨failure, same⟩
    cases same
  have noRejected : .rejected ∉ log := by
    intro member
    rcases onlyFailures _ member with ⟨failure, same⟩
    cases same
  have noMapped : ∀ count, .mapped count ∉ log := by
    intro count member
    rcases onlyFailures _ member with ⟨failure, same⟩
    cases same
  unfold mapped
  split
  next verdict count isVerdict =>
    rw [verdictOf] at isVerdict
    split at isVerdict
    next =>
      cases isVerdict
      refine ⟨⟨_, ?_, rfl⟩, by simp [noCompleted], by simp [noRejected]⟩
      have noted := Verdict.foldl_note (run.out.filterMap failureOf) Verdict.empty
      have member : ∀ failure, failure ∈ run.out.filterMap failureOf ↔ .failed failure ∈ log :=
        fun failure => (mem_failures_iff run failure).trans (failures failure).symm
      have transient : ((run.out.filterMap failureOf).foldl Verdict.note
          Verdict.empty).transient = true ↔
            ∃ failure, .failed failure ∈ log ∧ failure.isTransient = true := by
        rw [noted.1, Verdict.empty, Bool.false_or, List.any_eq_true]
        simp only [member]
      have genuine : ((run.out.filterMap failureOf).foldl Verdict.note
          Verdict.empty).genuine = true ↔
            ∃ failure, .failed failure ∈ log ∧ failure.isTransient = false := by
        rw [noted.2, Verdict.empty, Bool.false_or, List.any_eq_true]
        simp only [member, Bool.not_eq_true']
      constructor
      · rw [Verdict.noteSkipped]
        split <;> simp [transient]
      · rw [Verdict.noteSkipped]
        split
        next positive => simp [noMapped, positive]
        next zero => simp [genuine, noMapped, Nat.eq_zero_of_not_pos zero]
    next => cases isVerdict
  next => exact fun time => by simp [noCompleted]

/-! ### The cache -/

/-- What the cache knows about the build of its entry. -/
structure EntryKept (r : Rounding) (config : FlinkAdapterConfig) (adapter : FlinkAdapter) (b : ℕ)
    (expiresAt : JsNumber) (build : Build) (time : ℤ) (verdict : Verdict) : Prop where
  current : adapter.builds b = some build
  closed : build.phase = .stored ∨ build.phase = .cleared
  completed : ∀ other, .completed other ∈ build.log ↔ other = time
  notRejected : .rejected ∉ build.log
  inRange : MIN_DATE ≤ time ∧ time ≤ adapter.now
  backed : verdict.Backed build.log
  expires : expiresAt = r.add (.finite time) (verdict.ttlMs config.cacheTtlMs)

/-- What a call may receive once a build has been cleared. -/
structure Delivered (r : Rounding) (config : FlinkAdapterConfig) (build : Build) (now : ℤ)
    (time : ℤ) : Prop where
  completed : ∀ other, .completed other ∈ build.log ↔ other = time
  notRejected : .rejected ∉ build.log
  answered : ∀ failure, .failed failure ∈ build.log →
    failure = .client .httpError ∨ failure = .client .invalidResponse
  troubled : build.Troubled → Before r (.finite now) (.finite time)
    (JsNumber.min config.cacheTtlMs (.ofNat NEGATIVE_TTL_CAP_MS))
  faultless : ¬ build.Troubled → Before r (.finite now) (.finite time) config.cacheTtlMs

/-- A time is a number, so that nothing is lost by adding nothing to it. -/
theorem add_zero_of_date (r : Rounding) {time : ℤ} (early : MIN_DATE ≤ time)
    (late : time ≤ MAX_DATE) : r.add (.finite time) (.ofNat 0) = .finite time := by
  have small : |time + 0| ≤ 2 ^ 53 := by
    rw [add_zero, abs_le]
    exact ⟨le_trans (by decide) early, le_trans late (by decide)⟩
  have added := r.add_int small
  rw [add_zero, Int.cast_zero] at added
  rw [JsNumber.ofNat, Nat.cast_zero]
  exact added

/-- A fresh entry comes from a build whose failures are all answers of the upstream. -/
theorem EntryKept.delivered {r : Rounding} {config : FlinkAdapterConfig} {adapter : FlinkAdapter}
    {b : ℕ} {expiresAt : JsNumber} {build : Build} {time : ℤ} {verdict : Verdict}
    (kept : EntryKept r config adapter b expiresAt build time verdict)
    (inTime : adapter.now ≤ MAX_DATE)
    (fresh : JsNumber.less (.finite adapter.now) expiresAt = true) :
    Delivered r config build adapter.now time := by
  have before := before_of_less (kept.expires ▸ fresh)
  have lasting : verdict.transient = false := by
    by_contra transient
    rw [Bool.not_eq_false] at transient
    have less := before.1
    rw [Verdict.ttlMs, if_pos transient,
      add_zero_of_date r kept.inRange.1 (le_trans kept.inRange.2 inTime)] at less
    simp only [JsNumber.less, decide_eq_true_eq, Int.cast_lt] at less
    exact absurd kept.inRange.2 (not_le.mpr less)
  have notTransient : ∀ failure, .failed failure ∈ build.log → failure.isTransient = false := by
    intro failure failed
    by_contra transient
    rw [Bool.not_eq_false] at transient
    have noted := kept.backed.transient.mpr ⟨failure, failed, transient⟩
    rw [lasting] at noted
    cases noted
  rw [Verdict.ttlMs, if_neg (by simp [lasting])] at before
  have genuine : verdict.genuine = true ↔ build.Troubled := by
    rw [kept.backed.genuine, Build.Troubled]
    constructor
    · intro either
      rcases either with ⟨failure, failed, _⟩ | unmapped
      · exact Or.inl ⟨failure, failed⟩
      · exact Or.inr unmapped
    · intro either
      rcases either with ⟨failure, failed⟩ | unmapped
      · exact Or.inl ⟨failure, failed, notTransient failure failed⟩
      · exact Or.inr unmapped
  constructor
  · exact kept.completed
  · exact kept.notRejected
  · exact fun failure failed => FlinkFailure.answer_of_not_transient (notTransient failure failed)
  · intro troubled
    rwa [if_pos (genuine.mpr troubled)] at before
  · intro faultless
    rwa [if_neg fun noted => faultless (genuine.mp noted)] at before

/-! ### Runs -/

structure Tracked (r : Rounding) (config : FlinkAdapterConfig) (adapter : FlinkAdapter) :
    Prop where
  inTime : MIN_DATE ≤ adapter.now ∧ adapter.now ≤ MAX_DATE
  unused : ∀ b, adapter.nextBuild ≤ b → adapter.builds b = none
  kept : ∀ b build, adapter.builds b = some build → build.Kept config.cacheTtlMs
  inflight : ∀ b, adapter.cache.inflight = some b ↔
    ∃ build, adapter.builds b = some build ∧ build.phase ≠ .cleared
  cleared : ∀ b, .cleared b ∈ adapter.history →
    ∃ build, adapter.builds b = some build ∧ build.phase = .cleared
  entry : ∀ b expiresAt, adapter.cache.entry = some (b, expiresAt) →
    ∃ build time verdict, EntryKept r config adapter b expiresAt build time verdict
  received : ∀ later b now earlier, adapter.history = later ++ .received b now :: earlier →
    .cleared b ∈ earlier → ∃ build time, adapter.builds b = some build ∧
      build.phase = .cleared ∧ Delivered r config build now time

theorem tracked_init (r : Rounding) (config : FlinkAdapterConfig) : Tracked r config init where
  inTime := ⟨le_rfl, by decide⟩
  unused := fun _ _ => rfl
  kept := fun _ _ absent => nomatch absent
  inflight := by
    intro b
    constructor
    · intro absent
      cases absent
    · intro ⟨build, absent, _⟩
      cases absent
  cleared := fun _ absent => absurd absent List.not_mem_nil
  entry := fun _ _ absent => nomatch absent
  received := fun later _ _ _ empty => absurd empty.symm (by simp [init])

namespace Tracked

variable {r : Rounding} {config : FlinkAdapterConfig} {adapter : FlinkAdapter} {b : ℕ}
  {build new : Build}

theorem builds_setBuild_self : (adapter.setBuild b new).builds b = some new :=
  Function.update_self b _ _

theorem builds_setBuild_of_ne {other : ℕ} (different : other ≠ b) :
    (adapter.setBuild b new).builds other = adapter.builds other :=
  Function.update_of_ne different _ _

/-- A build that is neither stored nor cleared may change. -/
theorem setBuild (tracked : Tracked r config adapter) (current : adapter.builds b = some build)
    (isOpen : build.phase ≠ .stored ∧ build.phase ≠ .cleared) (stillOpen : new.phase ≠ .cleared)
    (newKept : new.Kept config.cacheTtlMs) : Tracked r config (adapter.setBuild b new) := by
  have used : b < adapter.nextBuild := by
    by_contra notUsed
    rw [tracked.unused b (not_lt.mp notUsed)] at current
    cases current
  have elsewhere : ∀ other found, adapter.builds other = some found →
      found.phase = .stored ∨ found.phase = .cleared →
      (adapter.setBuild b new).builds other = some found := by
    intro other found isFound closed
    rw [builds_setBuild_of_ne, isFound]
    intro same
    rw [same, current, Option.some.injEq] at isFound
    rw [← isFound] at closed
    exact closed.elim isOpen.1 isOpen.2
  constructor
  case inTime => exact tracked.inTime
  case unused =>
    intro other later
    rw [builds_setBuild_of_ne]
    · exact tracked.unused other later
    · intro same
      exact absurd used (not_lt.mpr (same ▸ later))
  case kept =>
    intro other found isFound
    rcases eq_or_ne other b with rfl | different
    · rw [builds_setBuild_self, Option.some.injEq] at isFound
      exact isFound ▸ newKept
    · rw [builds_setBuild_of_ne different] at isFound
      exact tracked.kept other found isFound
  case inflight =>
    intro other
    rcases eq_or_ne other b with rfl | different
    · have flying := (tracked.inflight other).mpr ⟨build, current, isOpen.2⟩
      exact ⟨fun _ => ⟨new, builds_setBuild_self, stillOpen⟩, fun _ => flying⟩
    · rw [builds_setBuild_of_ne different]
      exact tracked.inflight other
  case cleared =>
    intro other member
    rcases tracked.cleared other member with ⟨found, isFound, isCleared⟩
    exact ⟨found, elsewhere other found isFound (Or.inr isCleared), isCleared⟩
  case entry =>
    intro other expiresAt stored
    rcases tracked.entry other expiresAt stored with ⟨found, time, verdict, kept⟩
    exact ⟨found, time, verdict,
      { kept with current := elsewhere other found kept.current kept.closed }⟩
  case received =>
    intro later other now earlier split member
    rcases tracked.received later other now earlier split member with
      ⟨found, time, isFound, isCleared, delivered⟩
    exact ⟨found, time, elsewhere other found isFound (Or.inr isCleared), isCleared, delivered⟩

/-- Storing the value of a build makes it the entry. -/
theorem store (tracked : Tracked r config adapter) {ttlMs : JsNumber} {aborted : Bool}
    {log : List BuildOccurrence}
    (current : adapter.builds b = some ⟨.returned ttlMs, aborted, log⟩) :
    Tracked r config (adapter.store r b ⟨.returned ttlMs, aborted, log⟩ ttlMs) := by
  rcases tracked.kept b _ current with ⟨⟨verdict, backed, isTtl⟩, notCompleted, notRejected⟩
  have changed : Tracked r config
      (adapter.setBuild b ⟨.stored, aborted, .completed adapter.now :: log⟩) :=
    tracked.setBuild current (by simp) (by simp) (by simpa [Build.Kept] using notRejected)
  refine { changed with entry := ?_ }
  intro other expiresAt stored
  cases stored
  refine ⟨⟨.stored, aborted, .completed adapter.now :: log⟩, adapter.now, verdict, ?_⟩
  constructor
  case current => exact builds_setBuild_self
  case closed => exact Or.inl rfl
  case completed =>
    intro time
    rw [List.mem_cons, BuildOccurrence.completed.injEq]
    exact or_iff_left (notCompleted time)
  case notRejected => simpa using notRejected
  case inRange => exact ⟨tracked.inTime.1, le_rfl⟩
  case backed =>
    have same := backed
    constructor
    · simpa using same.transient
    · simpa using same.genuine
  case expires => rw [isTtl]

theorem clear (tracked : Tracked r config adapter) (current : adapter.builds b = some build)
    (closing : build.phase = .stored ∨ build.phase = .rejected) :
    Tracked r config (adapter.clear b build) := by
  have uncleared : build.phase ≠ .cleared := by
    rcases closing with isPhase | isPhase <;> simp [isPhase]
  have flying : adapter.cache.inflight = some b :=
    (tracked.inflight b).mpr ⟨build, current, uncleared⟩
  have landed : (adapter.clear b build).cache.inflight = none := by
    simp [FlinkAdapter.clear, flying]
  have self : (adapter.clear b build).builds b = some { build with phase := .cleared } :=
    builds_setBuild_self
  have elsewhere : ∀ other, other ≠ b →
      (adapter.clear b build).builds other = adapter.builds other :=
    fun other different => builds_setBuild_of_ne different
  constructor
  case inTime => exact tracked.inTime
  case unused =>
    intro other later
    rw [elsewhere]
    · exact tracked.unused other later
    · intro same
      rw [← same, tracked.unused other later] at current
      cases current
  case kept =>
    intro other found isFound
    rcases eq_or_ne other b with rfl | different
    · rw [self, Option.some.injEq] at isFound
      rw [← isFound]
      have kept := tracked.kept other build current
      intro rejected
      rw [Build.Kept] at kept
      rcases closing with isPhase | isPhase <;> rw [isPhase] at kept
      · exact absurd rejected kept
      · exact kept
    · rw [elsewhere other different] at isFound
      exact tracked.kept other found isFound
  case inflight =>
    intro other
    rw [landed]
    constructor
    · intro absent
      cases absent
    · intro ⟨found, isFound, isOpen⟩
      rcases eq_or_ne other b with rfl | different
      · rw [self, Option.some.injEq] at isFound
        rw [← isFound] at isOpen
        exact absurd rfl isOpen
      · rw [elsewhere other different] at isFound
        have alsoFlying := (tracked.inflight other).mpr ⟨found, isFound, isOpen⟩
        rw [flying, Option.some.injEq] at alsoFlying
        exact absurd alsoFlying.symm different
  case cleared =>
    intro other member
    rcases eq_or_ne other b with rfl | different
    · exact ⟨_, self, rfl⟩
    · rw [elsewhere other different]
      apply tracked.cleared other
      rcases List.mem_cons.mp member with same | before
      · cases same
        exact absurd rfl different
      · exact before
  case entry =>
    intro other expiresAt stored
    rcases tracked.entry other expiresAt stored with ⟨found, time, verdict, kept⟩
    rcases eq_or_ne other b with rfl | different
    · have same := kept.current
      rw [current, Option.some.injEq] at same
      subst same
      exact ⟨{ build with phase := .cleared }, time, verdict,
        { kept with current := self, closed := Or.inr rfl }⟩
    · exact ⟨found, time, verdict,
        { kept with current := (elsewhere other different).trans kept.current }⟩
  case received =>
    intro later other now earlier split member
    cases later with
    | nil =>
        rw [List.nil_append] at split
        cases split
    | cons newest later =>
        rw [List.cons_append, FlinkAdapter.clear, record, List.cons.injEq] at split
        rcases tracked.received later other now earlier split.2 member with
          ⟨found, time, isFound, isCleared, delivered⟩
        rcases eq_or_ne other b with rfl | different
        · rw [current, Option.some.injEq] at isFound
          rw [← isFound] at isCleared
          exact absurd isCleared uncleared
        · exact ⟨found, time, (elsewhere other different).trans isFound, isCleared, delivered⟩

/-- A call receives a build of which this may be said. -/
theorem record (tracked : Tracked r config adapter)
    (served : .cleared b ∈ adapter.history → ∃ build time, adapter.builds b = some build ∧
      build.phase = .cleared ∧ Delivered r config build adapter.now time) :
    Tracked r config (adapter.record (.received b adapter.now)) := by
  refine { tracked with cleared := ?_, entry := ?_, received := ?_ }
  · intro other member
    rcases List.mem_cons.mp member with same | before
    · cases same
    · exact tracked.cleared other before
  · intro other expiresAt stored
    rcases tracked.entry other expiresAt stored with ⟨found, time, verdict, kept⟩
    exact ⟨found, time, verdict, { kept with }⟩
  · intro later other now earlier split member
    cases later with
    | nil =>
        rw [List.nil_append, FlinkAdapter.record, List.cons.injEq] at split
        rcases split with ⟨same, rfl⟩
        cases same
        exact served member
    | cons newest later =>
        rw [List.cons_append, FlinkAdapter.record, List.cons.injEq] at split
        exact tracked.received later other now earlier split.2 member

theorem load (tracked : Tracked r config adapter) (idle : adapter.cache.inflight = none) :
    Tracked r config adapter.load := by
  have new := tracked.unused adapter.nextBuild le_rfl
  have different : ∀ other found, adapter.builds other = some found →
      other ≠ adapter.nextBuild := by
    intro other found isFound same
    rw [same, new] at isFound
    cases isFound
  have self : adapter.load.builds adapter.nextBuild = some ⟨.overview, false, []⟩ :=
    builds_setBuild_self
  have elsewhere : ∀ other, other ≠ adapter.nextBuild →
      adapter.load.builds other = adapter.builds other :=
    fun other different => builds_setBuild_of_ne different
  constructor
  case inTime => exact tracked.inTime
  case unused =>
    intro other later
    have after : adapter.nextBuild < other := later
    rw [elsewhere other (ne_of_gt after)]
    exact tracked.unused other (le_of_lt after)
  case kept =>
    intro other found isFound
    rcases eq_or_ne other adapter.nextBuild with rfl | isOther
    · rw [self, Option.some.injEq] at isFound
      rw [← isFound]
      rfl
    · rw [elsewhere other isOther] at isFound
      exact tracked.kept other found isFound
  case inflight =>
    intro other
    rcases eq_or_ne other adapter.nextBuild with rfl | isOther
    · exact ⟨fun _ => ⟨_, self, by simp⟩, fun _ => rfl⟩
    · rw [elsewhere other isOther, ← tracked.inflight other, idle]
      simp [FlinkAdapter.load, isOther.symm]
  case cleared =>
    intro other member
    rcases tracked.cleared other member with ⟨found, isFound, isCleared⟩
    exact ⟨found, (elsewhere other (different other found isFound)).trans isFound, isCleared⟩
  case entry =>
    intro other expiresAt stored
    rcases tracked.entry other expiresAt stored with ⟨found, time, verdict, kept⟩
    exact ⟨found, time, verdict, { kept with
      current := (elsewhere other (different other found kept.current)).trans kept.current }⟩
  case received =>
    intro later other now earlier split member
    rcases tracked.received later other now earlier split member with
      ⟨found, time, isFound, isCleared, delivered⟩
    exact ⟨found, time, (elsewhere other (different other found isFound)).trans isFound,
      isCleared, delivered⟩

theorem get (tracked : Tracked r config adapter) : Tracked r config adapter.get := by
  rw [FlinkAdapter.get]
  split
  next b isFresh =>
    apply tracked.record
    intro member
    rw [fresh, Option.bind_eq_some_iff] at isFresh
    rcases isFresh with ⟨⟨entry, expiresAt⟩, stored, less⟩
    dsimp only at less
    split_ifs at less with isLess
    cases less
    rcases tracked.entry b expiresAt stored with ⟨build, time, verdict, kept⟩
    rcases tracked.cleared b member with ⟨found, isFound, isCleared⟩
    rw [kept.current, Option.some.injEq] at isFound
    exact ⟨build, time, kept.current, isFound ▸ isCleared, kept.delivered tracked.inTime.2 isLess⟩
  next =>
    split
    next b flying =>
      apply tracked.record
      intro member
      rcases (tracked.inflight b).mp flying with ⟨build, current, uncleared⟩
      rcases tracked.cleared b member with ⟨found, isFound, isCleared⟩
      rw [current, Option.some.injEq] at isFound
      exact absurd (isFound ▸ isCleared) uncleared
    next idle =>
      apply (tracked.load idle).record
      intro member
      rcases tracked.cleared adapter.nextBuild member with ⟨found, isFound, _⟩
      rw [tracked.unused adapter.nextBuild le_rfl] at isFound
      cases isFound

theorem step (tracked : Tracked r config adapter) {event : FlinkAdapterEvent}
    {next : FlinkAdapter} (steady : Steady adapter event)
    (result : step r config adapter event = some next) : Tracked r config next := by
  cases event with
  | tick time =>
      cases result
      refine { tracked with inTime := ?_, entry := ?_ }
      · exact ⟨le_trans tracked.inTime.1 steady.1, steady.2⟩
      · intro b expiresAt stored
        rcases tracked.entry b expiresAt stored with ⟨build, start, verdict, kept⟩
        exact ⟨build, start, verdict,
          { kept with inRange := ⟨kept.inRange.1, le_trans kept.inRange.2 steady.1⟩ }⟩
  | listPipelines =>
      cases result
      exact tracked.get
  | getPipeline id =>
      cases result
      split
      next => exact tracked.get
      next => exact tracked
  | overviewRead b reply =>
      rw [FlinkAdapter.step] at result
      split at result
      next aborted log current =>
        cases result
        have empty : log = [] := tracked.kept b _ current
        subst empty
        apply tracked.setBuild current (by simp) _ (overviewRead_kept config aborted _)
        cases classify aborted reply <;> simp [overviewRead]
      next => cases result
  | jobRead b i reply =>
      rw [FlinkAdapter.step] at result
      split at result
      next run aborted log current =>
        split at result
        next call running =>
          cases result
          exact tracked.setBuild current (by simp) (by simp [jobRead])
            (jobRead_kept (tracked.kept b _ current) running _)
        next => cases result
      next => cases result
  | budgetExpired b =>
      rw [FlinkAdapter.step] at result
      split at result
      next aborted log current =>
        cases result
        have kept := tracked.kept b _ current
        exact tracked.setBuild current (by simp) (by simp) kept
      next run aborted log current =>
        cases result
        have kept := tracked.kept b _ current
        exact tracked.setBuild current (by simp) (by simp) kept
      next => cases result
  | mapped b skipped =>
      rw [FlinkAdapter.step] at result
      split at result
      next run aborted log current =>
        split_ifs at result
        cases result
        apply tracked.setBuild current (by simp) _ (mapped_kept (tracked.kept b _ current) skipped)
        unfold mapped
        split <;> simp
      next => cases result
  | store b =>
      rw [FlinkAdapter.step] at result
      split at result
      next ttlMs aborted log current =>
        cases result
        exact tracked.store current
      next => cases result
  | clear b =>
      rw [FlinkAdapter.step] at result
      split at result
      next aborted log current =>
        cases result
        exact tracked.clear current (Or.inl rfl)
      next aborted log current =>
        cases result
        exact tracked.clear current (Or.inr rfl)
      next => cases result

end Tracked

end FlinkAdapter

/-! ## The callers -/

/-- What the callers of an adapter can rely on after a run. -/
structure SnapshotsServed (r : Rounding) (config : FlinkAdapterConfig) (adapter : FlinkAdapter) :
    Prop where
  /-- At most one build has been started and not been cleared. -/
  single : ∀ b other build another, adapter.builds b = some build → build.phase ≠ .cleared →
    adapter.builds other = some another → another.phase ≠ .cleared → b = other
  /-- A call that starts after a build has been cleared receives its snapshot only if all its
  reads succeeded or were answered, and only for some time after it was completed. -/
  received : ∀ later b now earlier, adapter.history = later ++ .received b now :: earlier →
    .cleared b ∈ earlier → ∃ build time, adapter.builds b = some build ∧
      FlinkAdapter.Delivered r config build now time
  /-- A rejected build is not in the cache. -/
  notCached : ∀ b expiresAt build, adapter.cache.entry = some (b, expiresAt) →
    adapter.builds b = some build → .rejected ∉ build.log

/-- Whatever the upstream answers and whenever the time budget is used up. -/
theorem snapshots_served {r : Rounding} {config : FlinkAdapterConfig} {adapter : FlinkAdapter}
    (reached : (FlinkAdapter.machine r config).Reachable FlinkAdapter.Steady adapter) :
    SnapshotsServed r config adapter := by
  have tracked : FlinkAdapter.Tracked r config adapter :=
    reached.invariant (FlinkAdapter.Tracked r config) (FlinkAdapter.tracked_init r config)
      fun _ _ _ before steady result => before.step steady result
  constructor
  · intro b other build another current isOpen otherCurrent otherOpen
    have flying := (tracked.inflight b).mpr ⟨build, current, isOpen⟩
    have otherFlying := (tracked.inflight other).mpr ⟨another, otherCurrent, otherOpen⟩
    rw [flying, Option.some.injEq] at otherFlying
    exact otherFlying
  · intro later b now earlier split member
    rcases tracked.received later b now earlier split member with
      ⟨build, time, current, _, delivered⟩
    exact ⟨build, time, current, delivered⟩
  · intro b expiresAt build stored current
    rcases tracked.entry b expiresAt stored with ⟨found, time, verdict, kept⟩
    have same := kept.current
    rw [current, Option.some.injEq] at same
    exact same ▸ kept.notRejected

/-- The snapshot of a build with an answered failure is received for less than a second. -/
theorem snapshots_served_answered :
    ∃ adapter : FlinkAdapter,
      adapter.history = [.received 1 1000, .received 0 999, .cleared 0, .received 0 0] ∧
      SnapshotsServed .lossless ⟨.ofNat 5000, 8⟩ adapter := by
  have history : ((FlinkAdapter.machine .lossless ⟨.ofNat 5000, 8⟩).run FlinkAdapter.Steady
      (FlinkAdapter.machine .lossless ⟨.ofNat 5000, 8⟩).init
      [.tick 0, .listPipelines, .overviewRead 0 (.value 2), .jobRead 0 1 .httpError,
        .jobRead 0 0 (.value ()), .mapped 0 (some 0), .store 0, .clear 0, .tick 999,
        .listPipelines, .tick 1000, .listPipelines]).map (·.history) =
      some [.received 1 1000, .received 0 999, .cleared 0, .received 0 0] := by
    decide +kernel
  rcases Option.map_eq_some_iff.mp history with ⟨adapter, ran, isHistory⟩
  exact ⟨adapter, isHistory, snapshots_served (Machine.reachable_of_run ran)⟩

end BelugaManager.DomainApi
