import BelugaManager.DomainApi.Memo
import BelugaManager.Foundation.SlotPool

/-!
# Concurrency limits of the upstream clients

`UpstreamHttpClient` of `upstream/httpClient.ts` and `FlinkRestClient` of
`flink/client.ts` as machines.  Both refine a pool of slots with a queue; the log is not
part of the source.  What a request answers is irrelevant to its slot, so that an outcome
keeps only the kind of an error.
-/

namespace BelugaManager.DomainApi

open Foundation

/-- How far a request is. One that is preparing has not called `acquire`; a queued one waits
for its promise, a granted one is about to be resumed with a slot and a turned away one
with an error. -/
inductive RequestStage (Error : Type) where
  | preparing
  | queued
  | granted
  | turnedAway (error : Error)
  | running
  | answered (outcome : Except Error Unit)

namespace RequestStage

variable {Error : Type}

/-- Only a pending promise can be settled. -/
def resolve : RequestStage Error → RequestStage Error
  | .queued => .granted
  | stage => stage

def reject (error : Error) : RequestStage Error → RequestStage Error
  | .queued => .turnedAway error
  | stage => stage

def standing : RequestStage Error → Standing
  | .preparing => .outside
  | .queued => .waiting
  | .granted | .running => .owner
  | .turnedAway _ => .refused
  | .answered _ => .finished

theorem resolve_ne_queued (stage : RequestStage Error) : stage.resolve ≠ .queued := by
  cases stage <;> simp [resolve]

theorem reject_ne_queued (error : Error) (stage : RequestStage Error) :
    stage.reject error ≠ .queued := by
  cases stage <;> simp [reject]

theorem standing_eq_waiting_iff (stage : RequestStage Error) :
    stage.standing = .waiting ↔ stage = .queued := by
  cases stage <;> simp [standing]

end RequestStage

/-! ## The upstream HTTP client -/

structure UpstreamHttpClientOptions where
  hasTokenProvider : Bool
  maxConcurrent : Option ℤ
  maxQueued : Option ℤ

def DEFAULT_MAX_CONCURRENT : ℤ := 8

def DEFAULT_MAX_QUEUED : ℤ := 64

namespace UpstreamHttpClientOptions

def concurrencyLimit (options : UpstreamHttpClientOptions) : ℤ :=
  max 1 (options.maxConcurrent.getD DEFAULT_MAX_CONCURRENT)

def queueLimit (options : UpstreamHttpClientOptions) : ℤ :=
  max 0 (options.maxQueued.getD DEFAULT_MAX_QUEUED)

end UpstreamHttpClientOptions

/-- A call of `getJson`; `timer` tells whether the timer of `acquire` is set. -/
structure HttpCall where
  stage : RequestStage LoadError
  timer : Bool

structure UpstreamHttpClient where
  inFlight : ℤ
  waiters : List ℕ
  calls : ℕ → Option HttpCall
  log : SlotLog ℕ

namespace UpstreamHttpClient

def init : UpstreamHttpClient := ⟨0, [], fun _ => none, ⟨[], [], [], []⟩⟩

def setCall (client : UpstreamHttpClient) (id : ℕ) (call : HttpCall) : UpstreamHttpClient :=
  { client with calls := Function.update client.calls id (some call) }

def acquire (options : UpstreamHttpClientOptions) (client : UpstreamHttpClient) (id : ℕ) :
    UpstreamHttpClient :=
  let arrived := client.log.arrived ++ [id]
  if client.inFlight < options.concurrencyLimit then
    { client.setCall id ⟨.granted, false⟩ with
      inFlight := client.inFlight + 1
      log := { client.log with arrived := arrived, granted := client.log.granted ++ [id] } }
  else if client.waiters.length ≥ options.queueLimit then
    { client.setCall id ⟨.turnedAway (.upstream .overloaded), false⟩ with
      log := { client.log with arrived := arrived, refused := client.log.refused ++ [id] } }
  else
    { client.setCall id ⟨.queued, true⟩ with
      waiters := client.waiters ++ [id]
      log := { client.log with arrived := arrived } }

/-- The timer of a queued call fires. -/
def expire (client : UpstreamHttpClient) (id : ℕ) (call : HttpCall) : UpstreamHttpClient :=
  { client.setCall id ⟨call.stage.reject (.upstream .timeout), false⟩ with
    waiters := client.waiters.erase id
    log := { client.log with refused := client.log.refused ++ [id] } }

/-- The function that a queued call has put into the queue. -/
def grant (client : UpstreamHttpClient) (id : ℕ) : UpstreamHttpClient :=
  match client.calls id with
  | none => client
  | some call =>
      { client.setCall id ⟨call.stage.resolve, false⟩ with
        log := { client.log with granted := client.log.granted ++ [id] } }

/-- Call `id` gives its slot back. -/
def release (client : UpstreamHttpClient) (id : ℕ) : UpstreamHttpClient :=
  let logged := { client with
    log := { client.log with released := client.log.released ++ [id] } }
  match client.waiters with
  | [] => { logged with inFlight := client.inFlight - 1 }
  | next :: rest => { logged with waiters := rest }.grant next

end UpstreamHttpClient

/-- What happens next to a client. A call brings its budget and whether the parser keeps
its path; a token is present or empty. -/
inductive HttpEvent where
  | getJson (id : ℕ) (budget : JsNumber) (pathKept : Bool)
  | token (id : ℕ) (present : Bool)
  | tokenFailed (id : ℕ) (error : LoadError)
  | timeout (id : ℕ)
  | resume (id : ℕ)
  | sent (id : ℕ) (outcome : Except LoadError Unit)

namespace UpstreamHttpClient

def step (options : UpstreamHttpClientOptions) (client : UpstreamHttpClient) :
    HttpEvent → Option UpstreamHttpClient
  | .getJson id budget pathKept =>
      match client.calls id with
      | some _ => none
      | none =>
          if JsNumber.atMost budget (.ofNat 0) then
            some (client.setCall id ⟨.answered (.error (.upstream .timeout)), false⟩)
          else if !pathKept then
            some (client.setCall id ⟨.answered (.error (.upstream .malformed)), false⟩)
          else if options.hasTokenProvider then some (client.setCall id ⟨.preparing, false⟩)
          else some (client.acquire options id)
  | .token id present =>
      match client.calls id with
      | some ⟨.preparing, _⟩ =>
          if present then some (client.acquire options id)
          else some (client.setCall id ⟨.answered (.error (.upstream .unauthenticated)), false⟩)
      | _ => none
  | .tokenFailed id error =>
      match client.calls id with
      | some ⟨.preparing, _⟩ => some (client.setCall id ⟨.answered (.error error), false⟩)
      | _ => none
  | .timeout id =>
      match client.calls id with
      | some ⟨stage, true⟩ => some (client.expire id ⟨stage, true⟩)
      | _ => none
  | .resume id =>
      match client.calls id with
      | some ⟨.granted, timer⟩ => some (client.setCall id ⟨.running, timer⟩)
      | some ⟨.turnedAway error, timer⟩ =>
          some (client.setCall id ⟨.answered (.error error), timer⟩)
      | _ => none
  | .sent id outcome =>
      match client.calls id with
      | some ⟨.running, timer⟩ =>
          some ((client.setCall id ⟨.answered outcome, timer⟩).release id)
      | _ => none

def machine (options : UpstreamHttpClientOptions) : Machine UpstreamHttpClient HttpEvent where
  init := init
  step := step options

/-! ### Refinement of the pool -/

def pool (client : UpstreamHttpClient) : SlotPool ℕ where
  inUse := client.inFlight
  waiters := client.waiters
  standing := fun id => (client.calls id).elim .outside (·.stage.standing)
  log := client.log

theorem standing_of_call {client : UpstreamHttpClient} {id : ℕ} {call : HttpCall}
    (current : client.calls id = some call) : client.pool.standing id = call.stage.standing := by
  simp [pool, current]

theorem standing_update (client : UpstreamHttpClient) (id : ℕ) (call : HttpCall) :
    (fun other => (Function.update client.calls id (some call) other).elim Standing.outside
      (·.stage.standing)) = Function.update client.pool.standing id call.stage.standing := by
  funext other
  rcases eq_or_ne other id with rfl | different
  · simp
  · simp [different, pool]

@[simp] theorem calls_setCall_self (client : UpstreamHttpClient) (id : ℕ) (call : HttpCall) :
    (client.setCall id call).calls id = some call := Function.update_self id _ _

theorem calls_setCall_of_ne {client : UpstreamHttpClient} {id other : ℕ} {call : HttpCall}
    (different : other ≠ id) : (client.setCall id call).calls other = client.calls other :=
  Function.update_of_ne different _ _

/-- Exactly the queued calls have a timer. -/
def TimersKept (client : UpstreamHttpClient) : Prop :=
  ∀ id call, client.calls id = some call → (call.timer = true ↔ call.stage = .queued)

theorem TimersKept.setCall {client : UpstreamHttpClient} (kept : client.TimersKept) (id : ℕ)
    {call : HttpCall} (isKept : call.timer = true ↔ call.stage = .queued) :
    (client.setCall id call).TimersKept := by
  intro other found current
  rcases eq_or_ne other id with rfl | different
  · rw [calls_setCall_self, Option.some.injEq] at current
    exact current ▸ isKept
  · rw [calls_setCall_of_ne different] at current
    exact kept other found current

variable {options : UpstreamHttpClientOptions} {client next : UpstreamHttpClient} {id : ℕ}
  {limit queueLimit : ℤ}

/-- A call whose standing does not change leaves the pool as it is. -/
theorem pool_setCall_same {call : HttpCall}
    (same : client.pool.standing id = call.stage.standing) :
    (client.setCall id call).pool = client.pool := by
  rw [pool, setCall, standing_update, ← same, Function.update_eq_self]
  rfl

theorem pool_setCall_answered {outcome : Except LoadError Unit} {timer : Bool} :
    (client.setCall id ⟨.answered outcome, timer⟩).pool = client.pool.dismiss id := by
  rw [pool, setCall, standing_update]
  rfl

theorem acquire_step (new : client.pool.standing id = .outside) :
    SlotPool.Step options.concurrencyLimit options.queueLimit client.pool
      (client.acquire options id).pool := by
  rw [acquire]
  split
  next free =>
    convert SlotPool.Step.take id new free
    rw [pool, setCall, standing_update]
    rfl
  next busy =>
    split
    next =>
      convert SlotPool.Step.refuse id new
      rw [pool, setCall, standing_update]
      rfl
    next room =>
      convert SlotPool.Step.enqueue id new busy (not_le.mp room)
      rw [pool, setCall, standing_update]
      rfl

theorem TimersKept.acquire (kept : client.TimersKept) : (client.acquire options id).TimersKept := by
  rw [UpstreamHttpClient.acquire]
  split
  next => exact kept.setCall id (by simp)
  next =>
    split
    next => exact kept.setCall id (by simp)
    next => exact kept.setCall id (by simp)

theorem exists_queued (orderly : client.pool.Orderly limit queueLimit)
    (waiting : id ∈ client.waiters) : ∃ timer, client.calls id = some ⟨.queued, timer⟩ := by
  have stands := (orderly.manned.waiting id).mpr waiting
  cases current : client.calls id with
  | none =>
      simp [pool, current] at stands
  | some call =>
      rw [standing_of_call current, RequestStage.standing_eq_waiting_iff] at stands
      rcases call with ⟨stage, timer⟩
      cases stands
      exact ⟨timer, rfl⟩

theorem pool_grant {timer : Bool} (current : client.calls id = some ⟨.queued, timer⟩) :
    (client.grant id).pool = { client.pool with
      standing := Function.update client.pool.standing id .owner
      log := { client.log with granted := client.log.granted ++ [id] } } := by
  have granted : client.grant id = { client.setCall id ⟨.granted, false⟩ with
      log := { client.log with granted := client.log.granted ++ [id] } } := by
    rw [grant, current]
    rfl
  rw [granted, pool, setCall, standing_update]
  rfl

/-- The answer of a call that runs gives its slot back. -/
theorem release_step (orderly : client.pool.Orderly limit queueLimit)
    (owner : client.pool.standing id = .owner) {outcome : Except LoadError Unit} {timer : Bool} :
    SlotPool.Step limit queueLimit client.pool
      ((client.setCall id ⟨.answered outcome, timer⟩).release id).pool := by
  convert SlotPool.Step.release id owner
  have answered : (client.setCall id ⟨.answered outcome, timer⟩).pool.standing =
      Function.update client.pool.standing id .finished := standing_update client id _
  have sameWaiters : (client.setCall id ⟨.answered outcome, timer⟩).waiters = client.waiters := rfl
  have poolWaiters : client.pool.waiters = client.waiters := rfl
  rw [release, SlotPool.release, sameWaiters, poolWaiters, ← answered]
  cases queue : client.waiters with
  | nil => rw [pool]; rfl
  | cons next rest =>
      have waiting : next ∈ client.waiters := queue ▸ List.mem_cons_self
      rcases exists_queued orderly waiting with ⟨timer, current⟩
      have different : next ≠ id := by
        intro same
        rw [same] at current
        rw [standing_of_call current] at owner
        cases owner
      rw [← calls_setCall_of_ne different] at current
      exact pool_grant current

theorem TimersKept.grant (kept : client.TimersKept) : (client.grant id).TimersKept := by
  rw [UpstreamHttpClient.grant]
  split
  next => exact kept
  next call _ => exact kept.setCall id (by simp [RequestStage.resolve_ne_queued])

theorem TimersKept.release (kept : client.TimersKept) : (client.release id).TimersKept := by
  rw [UpstreamHttpClient.release]
  split
  next => exact kept
  next next rest _ =>
    apply TimersKept.grant
    exact kept

theorem TimersKept.expire (kept : client.TimersKept) (call : HttpCall) :
    (client.expire id call).TimersKept :=
  kept.setCall id (by simp [RequestStage.reject_ne_queued])

theorem expire_step (waiting : client.pool.standing id = .waiting) {call : HttpCall}
    (queued : call.stage = .queued) :
    SlotPool.Step limit queueLimit client.pool (client.expire id call).pool := by
  convert SlotPool.Step.withdraw id waiting
  rw [expire, pool, setCall, standing_update, queued]
  rfl

/-- What a client does is a step of its pool. -/
theorem step_pool (kept : client.TimersKept)
    (orderly : client.pool.Orderly options.concurrencyLimit options.queueLimit)
    {event : HttpEvent} (result : step options client event = some next) :
    SlotPool.Step options.concurrencyLimit options.queueLimit client.pool next.pool ∧
      next.TimersKept := by
  cases event with
  | getJson id budget pathKept =>
      rw [step] at result
      split at result
      next => cases result
      next unknown =>
        have new : client.pool.standing id = .outside := by simp [pool, unknown]
        split_ifs at result
        · cases result
          rw [pool_setCall_answered]
          exact ⟨.dismiss id (Or.inl new), kept.setCall id (by simp)⟩
        · cases result
          rw [pool_setCall_answered]
          exact ⟨.dismiss id (Or.inl new), kept.setCall id (by simp)⟩
        · cases result
          rw [pool_setCall_same new]
          exact ⟨.stay, kept.setCall id (by simp)⟩
        · cases result
          exact ⟨acquire_step new, kept.acquire⟩
  | token id present =>
      rw [step] at result
      split at result
      next current =>
        have new := standing_of_call current
        split_ifs at result
        · cases result
          exact ⟨acquire_step new, kept.acquire⟩
        · cases result
          rw [pool_setCall_answered]
          exact ⟨.dismiss id (Or.inl new), kept.setCall id (by simp)⟩
      next => cases result
  | tokenFailed id error =>
      rw [step] at result
      split at result
      next current =>
        cases result
        rw [pool_setCall_answered]
        exact ⟨.dismiss id (Or.inl (standing_of_call current)), kept.setCall id (by simp)⟩
      next => cases result
  | timeout id =>
      rw [step] at result
      split at result
      next stage current =>
        cases result
        have queued : stage = .queued := (kept id _ current).mp rfl
        have waiting : client.pool.standing id = .waiting := by
          rw [standing_of_call current, queued]
          rfl
        exact ⟨expire_step waiting queued, kept.expire _⟩
      next => cases result
  | resume id =>
      rw [step] at result
      split at result
      next timer current =>
        cases result
        have same : client.pool.standing id = Standing.owner := standing_of_call current
        rw [pool_setCall_same same]
        have timerOff := kept id _ current
        exact ⟨.stay, kept.setCall id (by simpa using timerOff)⟩
      next error timer current =>
        cases result
        rw [pool_setCall_answered]
        have timerOff := kept id _ current
        exact ⟨.dismiss id (Or.inr (standing_of_call current)),
          kept.setCall id (by simpa using timerOff)⟩
      next => cases result
  | sent id outcome =>
      rw [step] at result
      split at result
      next timer current =>
        cases result
        have timerOff := kept id _ current
        exact ⟨release_step orderly (standing_of_call current),
          (kept.setCall id (by simpa using timerOff)).release⟩
      next => cases result

/-- Every state of a client is orderly. -/
theorem reachable_orderly (reached : (machine options).Reachable (fun _ _ => True) client) :
    client.TimersKept ∧ client.pool.Orderly options.concurrencyLimit options.queueLimit := by
  refine reached.invariant
    (fun client => client.TimersKept ∧
      client.pool.Orderly options.concurrencyLimit options.queueLimit) ?_ ?_
  · constructor
    · intro id call current
      cases current
    · exact .empty (le_trans zero_le_one (le_max_left _ _)) (le_max_left _ _)
  · intro client event next ⟨kept, orderly⟩ _ result
    have ⟨stepped, stillKept⟩ := step_pool kept orderly result
    exact ⟨stillKept, orderly.step stepped⟩

end UpstreamHttpClient

/-! ## The Flink client -/

inductive FlinkErrorKind where
  | unreachable
  | timeout
  | httpError
  | invalidResponse
  | overloaded
  deriving DecidableEq, Repr

structure FlinkClientOptions where
  maxConcurrency : Option ℤ
  maxQueue : Option ℤ

def DEFAULT_MAX_CONCURRENCY : ℤ := 8

def DEFAULT_MAX_QUEUE : ℤ := 64

namespace FlinkClientOptions

def concurrencyLimit (options : FlinkClientOptions) : ℤ :=
  options.maxConcurrency.getD DEFAULT_MAX_CONCURRENCY

def queueLimit (options : FlinkClientOptions) : ℤ := options.maxQueue.getD DEFAULT_MAX_QUEUE

end FlinkClientOptions

/-- A call of `get`: whether its controller is aborted, and whether the timer, the listener
of the external signal and the listener of `acquire` are set. -/
structure FlinkRequest where
  stage : RequestStage FlinkErrorKind
  aborted : Bool
  timer : Bool
  onExternal : Bool
  onAbort : Bool

/-- Exactly a queued request listens to its signal, and its signal is not aborted. -/
structure FlinkRequest.Listens (request : FlinkRequest) : Prop where
  onAbort : request.onAbort = true ↔ request.stage = .queued
  notAborted : request.stage = .queued → request.aborted = false

structure FlinkRestClient where
  active : ℤ
  waiters : List ℕ
  requests : ℕ → Option FlinkRequest
  log : SlotLog ℕ

namespace FlinkRestClient

def init : FlinkRestClient := ⟨0, [], fun _ => none, ⟨[], [], [], []⟩⟩

def setRequest (client : FlinkRestClient) (id : ℕ) (request : FlinkRequest) : FlinkRestClient :=
  { client with requests := Function.update client.requests id (some request) }

/-- `request` says how its signal, timer and listeners are set when `acquire` is called. -/
def acquire (options : FlinkClientOptions) (client : FlinkRestClient) (id : ℕ)
    (request : FlinkRequest) : FlinkRestClient :=
  let arrived := client.log.arrived ++ [id]
  if request.aborted then
    { client.setRequest id { request with stage := .turnedAway .timeout } with
      log := { client.log with arrived := arrived, refused := client.log.refused ++ [id] } }
  else if client.active < options.concurrencyLimit then
    { client.setRequest id { request with stage := .granted } with
      active := client.active + 1
      log := { client.log with arrived := arrived, granted := client.log.granted ++ [id] } }
  else if client.waiters.length ≥ options.queueLimit then
    { client.setRequest id { request with stage := .turnedAway .overloaded } with
      log := { client.log with arrived := arrived, refused := client.log.refused ++ [id] } }
  else
    { client.setRequest id { request with stage := .queued, onAbort := true } with
      waiters := client.waiters ++ [id]
      log := { client.log with arrived := arrived } }

/-- `controller.abort()`: the first time it tells the listener of `acquire`, if there is one. -/
def abort (client : FlinkRestClient) (id : ℕ) (request : FlinkRequest) : FlinkRestClient :=
  if request.aborted then client.setRequest id request
  else if request.onAbort then
    { client.setRequest id { request with
        stage := request.stage.reject .timeout, aborted := true, onAbort := false } with
      waiters := client.waiters.erase id
      log := { client.log with refused := client.log.refused ++ [id] } }
  else client.setRequest id { request with aborted := true }

/-- The function that a queued request has put into the queue. -/
def grant (client : FlinkRestClient) (id : ℕ) : FlinkRestClient :=
  match client.requests id with
  | none => client
  | some request =>
      { client.setRequest id { request with
          stage := request.stage.resolve, onAbort := false } with
        log := { client.log with granted := client.log.granted ++ [id] } }

/-- Request `id` gives its slot back. -/
def release (client : FlinkRestClient) (id : ℕ) : FlinkRestClient :=
  let logged := { client with
    log := { client.log with released := client.log.released ++ [id] } }
  match client.waiters with
  | [] => { logged with active := client.active - 1 }
  | next :: rest => { logged with waiters := rest }.grant next

/-- The block that ends `get`. -/
def finish (client : FlinkRestClient) (id : ℕ) (request : FlinkRequest) (acquired : Bool)
    (outcome : Except FlinkErrorKind Unit) : FlinkRestClient :=
  let finished := client.setRequest id { request with
    stage := .answered outcome, timer := false, onExternal := false }
  if acquired then finished.release id else finished

end FlinkRestClient

/-- What happens next to a client. A request may bring an external signal that is aborted
or not. -/
inductive FlinkEvent where
  | get (id : ℕ) (externalAborted : Option Bool)
  | timeout (id : ℕ)
  | externalAbort (id : ℕ)
  | resume (id : ℕ)
  | fetched (id : ℕ) (outcome : Except FlinkErrorKind Unit)

namespace FlinkRestClient

def step (options : FlinkClientOptions) (client : FlinkRestClient) :
    FlinkEvent → Option FlinkRestClient
  | .get id externalAborted =>
      match client.requests id with
      | some _ => none
      | none => some (client.acquire options id {
          stage := .preparing
          aborted := externalAborted == some true
          timer := true
          onExternal := externalAborted == some false
          onAbort := false })
  | .timeout id =>
      match client.requests id with
      | none => none
      | some request =>
          if request.timer then some (client.abort id { request with timer := false }) else none
  | .externalAbort id =>
      match client.requests id with
      | none => none
      | some request =>
          if request.onExternal then some (client.abort id { request with onExternal := false })
          else none
  | .resume id =>
      match client.requests id with
      | none => none
      | some request =>
          match request.stage with
          | .granted => some (client.setRequest id { request with stage := .running })
          | .turnedAway error => some (client.finish id request false (.error error))
          | _ => none
  | .fetched id outcome =>
      match client.requests id with
      | none => none
      | some request =>
          match request.stage with
          | .running => some (client.finish id request true outcome)
          | _ => none

def machine (options : FlinkClientOptions) : Machine FlinkRestClient FlinkEvent where
  init := init
  step := step options

/-! ### Refinement of the pool -/

def pool (client : FlinkRestClient) : SlotPool ℕ where
  inUse := client.active
  waiters := client.waiters
  standing := fun id => (client.requests id).elim .outside (·.stage.standing)
  log := client.log

theorem standing_of_request {client : FlinkRestClient} {id : ℕ} {request : FlinkRequest}
    (current : client.requests id = some request) :
    client.pool.standing id = request.stage.standing := by
  simp [pool, current]

theorem standing_update (client : FlinkRestClient) (id : ℕ) (request : FlinkRequest) :
    (fun other => (Function.update client.requests id (some request) other).elim Standing.outside
      (·.stage.standing)) = Function.update client.pool.standing id request.stage.standing := by
  funext other
  rcases eq_or_ne other id with rfl | different
  · simp
  · simp [different, pool]

@[simp] theorem requests_setRequest_self (client : FlinkRestClient) (id : ℕ)
    (request : FlinkRequest) : (client.setRequest id request).requests id = some request :=
  Function.update_self id _ _

theorem requests_setRequest_of_ne {client : FlinkRestClient} {id other : ℕ}
    {request : FlinkRequest} (different : other ≠ id) :
    (client.setRequest id request).requests other = client.requests other :=
  Function.update_of_ne different _ _

def ListenersKept (client : FlinkRestClient) : Prop :=
  ∀ id request, client.requests id = some request → request.Listens

theorem ListenersKept.setRequest {client : FlinkRestClient} (kept : client.ListenersKept) (id : ℕ)
    {request : FlinkRequest} (listens : request.Listens) :
    (client.setRequest id request).ListenersKept := by
  intro other found current
  rcases eq_or_ne other id with rfl | different
  · rw [requests_setRequest_self, Option.some.injEq] at current
    exact current ▸ listens
  · rw [requests_setRequest_of_ne different] at current
    exact kept other found current

variable {options : FlinkClientOptions} {client next : FlinkRestClient} {id : ℕ}
  {request : FlinkRequest} {limit queueLimit : ℤ}

/-- A request whose standing does not change leaves the pool as it is. -/
theorem pool_setRequest_same (same : client.pool.standing id = request.stage.standing) :
    (client.setRequest id request).pool = client.pool := by
  rw [pool, setRequest, standing_update, ← same, Function.update_eq_self]
  rfl

theorem acquire_step (new : client.pool.standing id = .outside) :
    SlotPool.Step options.concurrencyLimit options.queueLimit client.pool
      (client.acquire options id request).pool := by
  rw [acquire]
  split
  next =>
    convert SlotPool.Step.refuse id new
    rw [pool, setRequest, standing_update]
    rfl
  next =>
    split
    next free =>
      convert SlotPool.Step.take id new free
      rw [pool, setRequest, standing_update]
      rfl
    next busy =>
      split
      next =>
        convert SlotPool.Step.refuse id new
        rw [pool, setRequest, standing_update]
        rfl
      next room =>
        convert SlotPool.Step.enqueue id new busy (not_le.mp room)
        rw [pool, setRequest, standing_update]
        rfl

theorem ListenersKept.acquire (kept : client.ListenersKept) (silent : request.onAbort = false) :
    (client.acquire options id request).ListenersKept := by
  rw [FlinkRestClient.acquire]
  split
  next => exact kept.setRequest id ⟨by simp [silent], by simp⟩
  next alive =>
    split
    next => exact kept.setRequest id ⟨by simp [silent], by simp⟩
    next =>
      split
      next => exact kept.setRequest id ⟨by simp [silent], by simp⟩
      next => exact kept.setRequest id ⟨by simp, by simpa using alive⟩

theorem abort_step (stands : client.pool.standing id = request.stage.standing)
    (listens : request.Listens) :
    SlotPool.Step limit queueLimit client.pool (client.abort id request).pool := by
  rw [abort]
  split
  next => exact pool_setRequest_same stands ▸ .stay
  next =>
    split
    next listening =>
      have queued := listens.onAbort.mp listening
      rw [queued] at stands
      convert SlotPool.Step.withdraw id stands
      rw [pool, setRequest, standing_update, queued]
      rfl
    next =>
      have same : (client.setRequest id { request with aborted := true }).pool = client.pool :=
        pool_setRequest_same stands
      exact same ▸ .stay

theorem ListenersKept.abort (kept : client.ListenersKept) (listens : request.Listens) :
    (client.abort id request).ListenersKept := by
  rw [FlinkRestClient.abort]
  split
  next => exact kept.setRequest id listens
  next =>
    split
    next =>
      exact kept.setRequest id ⟨by simp [RequestStage.reject_ne_queued],
        fun queued => absurd queued (RequestStage.reject_ne_queued _ _)⟩
    next deaf =>
      have notQueued : request.stage ≠ .queued := fun queued => deaf (listens.onAbort.mpr queued)
      exact kept.setRequest id ⟨listens.onAbort, fun queued => absurd queued notQueued⟩

theorem exists_queued (orderly : client.pool.Orderly limit queueLimit)
    (waiting : id ∈ client.waiters) :
    ∃ request, client.requests id = some request ∧ request.stage = .queued := by
  have stands := (orderly.manned.waiting id).mpr waiting
  cases current : client.requests id with
  | none => simp [pool, current] at stands
  | some request =>
      rw [standing_of_request current, RequestStage.standing_eq_waiting_iff] at stands
      exact ⟨request, rfl, stands⟩

theorem pool_grant (current : client.requests id = some request)
    (queued : request.stage = .queued) :
    (client.grant id).pool = { client.pool with
      standing := Function.update client.pool.standing id .owner
      log := { client.log with granted := client.log.granted ++ [id] } } := by
  have granted : client.grant id =
      { client.setRequest id { request with stage := .granted, onAbort := false } with
        log := { client.log with granted := client.log.granted ++ [id] } } := by
    rw [grant, current]
    simp only [queued]
    rfl
  rw [granted, pool, setRequest, standing_update]
  rfl

/-- The end of a request that owns a slot gives the slot back. -/
theorem finish_step (orderly : client.pool.Orderly limit queueLimit)
    (owner : client.pool.standing id = .owner) {outcome : Except FlinkErrorKind Unit} :
    SlotPool.Step limit queueLimit client.pool (client.finish id request true outcome).pool := by
  convert SlotPool.Step.release id owner
  let answered := client.setRequest id
    { request with stage := .answered outcome, timer := false, onExternal := false }
  have standing : answered.pool.standing =
      Function.update client.pool.standing id .finished := standing_update client id _
  have sameWaiters : answered.waiters = client.waiters := rfl
  have poolWaiters : client.pool.waiters = client.waiters := rfl
  rw [finish, if_pos rfl, release, SlotPool.release, sameWaiters, poolWaiters, ← standing]
  cases queue : client.waiters with
  | nil => rw [pool]; rfl
  | cons next rest =>
      have waiting : next ∈ client.waiters := queue ▸ List.mem_cons_self
      rcases exists_queued orderly waiting with ⟨waiter, current, queued⟩
      have different : next ≠ id := by
        intro same
        rw [same] at current
        rw [standing_of_request current, queued] at owner
        cases owner
      have still : answered.requests next = some waiter := by
        rw [requests_setRequest_of_ne different, current]
      exact pool_grant still queued

theorem ListenersKept.release (kept : client.ListenersKept) :
    (client.release id).ListenersKept := by
  rw [FlinkRestClient.release]
  split
  next => exact kept
  next next rest _ =>
    rw [FlinkRestClient.grant]
    split
    next => exact kept
    next request _ =>
      have settled := request.stage.resolve_ne_queued
      exact ListenersKept.setRequest kept next
        ⟨by simp [settled], fun queued => absurd queued settled⟩

theorem ListenersKept.finish (kept : client.ListenersKept) (silent : request.onAbort = false)
    (acquired : Bool) (outcome : Except FlinkErrorKind Unit) :
    (client.finish id request acquired outcome).ListenersKept := by
  have answered : (client.setRequest id { request with
      stage := .answered outcome, timer := false, onExternal := false }).ListenersKept :=
    kept.setRequest id ⟨by simp [silent], by simp⟩
  rw [FlinkRestClient.finish]
  cases acquired with
  | false => exact answered
  | true => exact answered.release

/-- What a client does is a step of its pool. -/
theorem step_pool (kept : client.ListenersKept)
    (orderly : client.pool.Orderly options.concurrencyLimit options.queueLimit)
    {event : FlinkEvent} (result : step options client event = some next) :
    SlotPool.Step options.concurrencyLimit options.queueLimit client.pool next.pool ∧
      next.ListenersKept := by
  cases event with
  | get id externalAborted =>
      rw [step] at result
      split at result
      next => cases result
      next unknown =>
        cases result
        exact ⟨acquire_step (by simp [pool, unknown]), kept.acquire rfl⟩
  | timeout id =>
      rw [step] at result
      split at result
      next => cases result
      next request current =>
        split_ifs at result
        cases result
        have listens := kept id request current
        have stands : client.pool.standing id = request.stage.standing :=
          standing_of_request current
        have fired : FlinkRequest.Listens { request with timer := false } :=
          ⟨listens.onAbort, listens.notAborted⟩
        exact ⟨abort_step stands fired, kept.abort fired⟩
  | externalAbort id =>
      rw [step] at result
      split at result
      next => cases result
      next request current =>
        split_ifs at result
        cases result
        have listens := kept id request current
        have stands : client.pool.standing id = request.stage.standing :=
          standing_of_request current
        have heard : FlinkRequest.Listens { request with onExternal := false } :=
          ⟨listens.onAbort, listens.notAborted⟩
        exact ⟨abort_step stands heard, kept.abort heard⟩
  | resume id =>
      rw [step] at result
      split at result
      next => cases result
      next request current =>
        have stands := standing_of_request current
        have listens := kept id request current
        split at result
        next granted =>
          cases result
          rw [granted] at stands
          have silent : request.onAbort = false := by
            simpa [granted] using listens.onAbort
          have same : (client.setRequest id { request with stage := .running }).pool =
              client.pool := pool_setRequest_same stands
          rw [same]
          exact ⟨.stay, kept.setRequest id ⟨by simp [silent], by simp⟩⟩
        next error away =>
          cases result
          rw [away] at stands
          have silent : request.onAbort = false := by
            simpa [away] using listens.onAbort
          have dismissed : (client.finish id request false (.error error)).pool =
              client.pool.dismiss id := by
            rw [finish, if_neg Bool.false_ne_true, pool, setRequest, standing_update]
            rfl
          rw [dismissed]
          exact ⟨.dismiss id (Or.inr stands), kept.finish silent _ _⟩
        next => cases result
  | fetched id outcome =>
      rw [step] at result
      split at result
      next => cases result
      next request current =>
        have stands := standing_of_request current
        split at result
        next running =>
          cases result
          rw [running] at stands
          have silent : request.onAbort = false := by
            simpa [running] using (kept id request current).onAbort
          exact ⟨finish_step orderly stands, kept.finish silent _ _⟩
        next => cases result

/-- Every state of a client is orderly. -/
theorem reachable_orderly (slots : 0 ≤ options.concurrencyLimit) (queue : 0 ≤ options.queueLimit)
    (reached : (machine options).Reachable (fun _ _ => True) client) :
    client.ListenersKept ∧ client.pool.Orderly options.concurrencyLimit options.queueLimit := by
  refine reached.invariant
    (fun client => client.ListenersKept ∧
      client.pool.Orderly options.concurrencyLimit options.queueLimit) ?_ ?_
  · constructor
    · intro id request current
      cases current
    · exact .empty slots queue
  · intro client event next ⟨kept, orderly⟩ _ result
    have ⟨stepped, stillKept⟩ := step_pool kept orderly result
    exact ⟨stillKept, orderly.step stepped⟩

end FlinkRestClient

/-! ## Accounting of slots -/

/-- What the limits of a client promise. -/
structure SlotsAccounted (limit queueLimit : ℤ) (pool : SlotPool ℕ) : Prop where
  /-- The counter is the number of requests that own a slot. -/
  counter : ∃ owners : List ℕ, owners.Nodup ∧ (∀ id, id ∈ owners ↔ pool.standing id = .owner) ∧
    pool.inUse = owners.length
  withinLimit : pool.inUse ≤ limit
  withinQueue : pool.waiters.length ≤ queueLimit
  /-- An owner has been granted exactly one slot. -/
  owned : ∀ id, pool.standing id = .owner → id ∈ pool.log.granted
  grantedOnce : pool.log.granted.Nodup
  /-- An owner that ends has given its slot back exactly once. -/
  returned : ∀ id ∈ pool.log.granted, pool.standing id = .finished → id ∈ pool.log.released
  releasedOnce : pool.log.released.Nodup
  releasedOwn : ∀ id ∈ pool.log.released, id ∈ pool.log.granted
  /-- Who was refused a slot, also while waiting, never gets one. -/
  turnedAway : ∀ id, pool.standing id = .refused → id ∈ pool.log.refused
  refusedApart : ∀ id ∈ pool.log.refused, id ∉ pool.log.granted ∧ id ∉ pool.waiters
  /-- Slots go to those who have arrived in their order, and next to the waiters in theirs. -/
  inOrder : pool.log.arrived.Nodup ∧ (pool.log.granted ++ pool.waiters).Sublist pool.log.arrived
  busy : pool.waiters ≠ [] → pool.inUse = limit

theorem slotsAccounted_of_orderly {limit queueLimit : ℤ} {pool : SlotPool ℕ}
    (orderly : pool.Orderly limit queueLimit) : SlotsAccounted limit queueLimit pool where
  counter :=
    ⟨pool.owners, orderly.grantedOnce.filter _, fun id => (orderly.manned.owning id).symm,
      orderly.inUse_eq⟩
  withinLimit := orderly.withinLimit
  withinQueue := orderly.withinQueue
  owned := fun id owner => (SlotPool.mem_owners.mp ((orderly.manned.owning id).mp owner)).1
  grantedOnce := orderly.grantedOnce
  returned := by
    intro id granted finished
    by_contra kept
    have owner := (orderly.manned.owning id).mpr (SlotPool.mem_owners.mpr ⟨granted, kept⟩)
    rw [finished] at owner
    cases owner
  releasedOnce := orderly.releasedOnce
  releasedOwn := orderly.releasedOwn
  turnedAway := orderly.manned.refusing
  refusedApart := orderly.refusedApart
  inOrder := ⟨orderly.arrivedOnce, orderly.inOrder⟩
  busy := orderly.busy

/-- In whatever order requests arrive, time out, are aborted, are resumed and end, slots are
accounted for, and nobody waits whose time is up or whose signal is aborted. -/
theorem slots_accounted :
    (∀ (options : UpstreamHttpClientOptions) (client : UpstreamHttpClient),
      (UpstreamHttpClient.machine options).Reachable (fun _ _ => True) client →
        SlotsAccounted options.concurrencyLimit options.queueLimit client.pool ∧
        ∀ id ∈ client.waiters, client.calls id = some ⟨.queued, true⟩) ∧
    ∀ (options : FlinkClientOptions) (client : FlinkRestClient),
      1 ≤ options.concurrencyLimit → 0 ≤ options.queueLimit →
      (FlinkRestClient.machine options).Reachable (fun _ _ => True) client →
        SlotsAccounted options.concurrencyLimit options.queueLimit client.pool ∧
        ∀ id ∈ client.waiters, ∃ request, client.requests id = some request ∧
          request.stage = .queued ∧ request.aborted = false := by
  constructor
  · intro options client reached
    rcases UpstreamHttpClient.reachable_orderly reached with ⟨kept, orderly⟩
    refine ⟨slotsAccounted_of_orderly orderly, ?_⟩
    intro id waiting
    rcases UpstreamHttpClient.exists_queued orderly waiting with ⟨timer, current⟩
    have timerOn : timer = true := (kept id _ current).mpr rfl
    rw [current, timerOn]
  · intro options client slots queue reached
    rcases FlinkRestClient.reachable_orderly (le_trans zero_le_one slots) queue reached with
      ⟨kept, orderly⟩
    refine ⟨slotsAccounted_of_orderly orderly, ?_⟩
    intro id waiting
    rcases FlinkRestClient.exists_queued orderly waiting with ⟨request, current, queued⟩
    exact ⟨request, current, queued, (kept id request current).notAborted queued⟩

/-- A waiter whose timer fires is passed by; one that is aborted between its grant and its
resumption keeps its slot until it ends. -/
theorem slots_accounted_late :
    (∃ client : UpstreamHttpClient, client.log.granted = [0, 2] ∧ client.log.refused = [1] ∧
      SlotsAccounted 1 2 client.pool) ∧
    ∃ client : FlinkRestClient, client.log.granted = [0, 1] ∧ client.log.released = [0, 1] ∧
      SlotsAccounted 1 1 client.pool := by
  constructor
  · have log : ((UpstreamHttpClient.machine ⟨false, some 1, some 2⟩).run (fun _ _ => True)
        (UpstreamHttpClient.machine ⟨false, some 1, some 2⟩).init
        [.getJson 0 (.ofNat 80) true, .getJson 1 (.ofNat 80) true, .getJson 2 (.ofNat 80) true,
          .timeout 1, .resume 0, .sent 0 (.ok ())]).map
          (fun client => (client.log.granted, client.log.refused)) = some ([0, 2], [1]) := by
      decide +kernel
    rcases Option.map_eq_some_iff.mp log with ⟨client, ran, isLog⟩
    rw [Prod.mk.injEq] at isLog
    exact ⟨client, isLog.1, isLog.2,
      (slots_accounted.1 _ client (Machine.reachable_of_run ran)).1⟩
  · have log : ((FlinkRestClient.machine ⟨some 1, some 1⟩).run (fun _ _ => True)
        (FlinkRestClient.machine ⟨some 1, some 1⟩).init
        [.get 0 none, .get 1 (some false), .resume 0, .fetched 0 (.ok ()), .externalAbort 1,
          .resume 1, .fetched 1 (.error .timeout)]).map
          (fun client => (client.log.granted, client.log.released)) = some ([0, 1], [0, 1]) := by
      decide +kernel
    rcases Option.map_eq_some_iff.mp log with ⟨client, ran, isLog⟩
    rw [Prod.mk.injEq] at isLog
    exact ⟨client, isLog.1, isLog.2,
      (slots_accounted.2 _ client (by decide) (by decide) (Machine.reachable_of_run ran)).1⟩

end BelugaManager.DomainApi
