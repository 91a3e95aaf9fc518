import BelugaManager.DomainApi.RequestSlots

/-!
# Requests and what they send

A client whose requests take slots runs something for each request that has one.  What it runs only
goes on while its request owns the slot, so that all of it together is as limited as the slots are.
-/

namespace BelugaManager.DomainApi

open Foundation

deriving instance DecidableEq for RequestStage

/-! ## Moves of a request -/

/-- What an event means for the request that it is about. -/
inductive RequestAct (Error : Type) where
  | resumed
  | answered (outcome : Except Error Unit)

/-- The act that an event is for this request, if it is one. -/
def actOn {Error : Type} (act : Option (ℕ × RequestAct Error)) (id : ℕ) :
    Option (RequestAct Error) :=
  act.bind fun act => if act.1 = id then some act.2 else none

theorem actOn_self {Error : Type} (id : ℕ) (act : RequestAct Error) :
    actOn (some (id, act)) id = some act := if_pos rfl

theorem actOn_of_ne {Error : Type} {id other : ℕ} (act : RequestAct Error)
    (different : other ≠ id) : actOn (some (id, act)) other = none := if_neg different.symm

namespace RequestStage

variable {Error : Type}

/-- A request that has neither been sent nor answered. -/
inductive Unsent : Option (RequestStage Error) → Prop where
  | unknown : Unsent none
  | preparing : Unsent (some .preparing)
  | queued : Unsent (some .queued)
  | granted : Unsent (some .granted)
  | turnedAway (error : Error) : Unsent (some (.turnedAway error))

/-- What a step does to a request, by what it means for this request. -/
inductive Move : Option (RequestAct Error) → Option (RequestStage Error) →
    Option (RequestStage Error) → Prop where
  | still (stage : Option (RequestStage Error)) : Move none stage stage
  | unsent {old new : Option (RequestStage Error)} (before : Unsent old) (after : Unsent new) :
      Move none old new
  | refused {old : Option (RequestStage Error)} (before : Unsent old) (error : Error) :
      Move none old (some (.answered (.error error)))
  | sent : Move (some .resumed) (some .granted) (some .running)
  | turnedAway (error : Error) :
      Move (some .resumed) (some (.turnedAway error)) (some (.answered (.error error)))
  | answered (outcome : Except Error Unit) :
      Move (some (.answered outcome)) (some .running) (some (.answered outcome))

theorem move_resolve (stage : RequestStage Error) :
    Move none (some stage) (some stage.resolve) := by
  cases stage with
  | queued => exact .unsent .queued .granted
  | _ => exact .still _

theorem move_reject (error : Error) (stage : RequestStage Error) :
    Move none (some stage) (some (stage.reject error)) := by
  cases stage with
  | queued => exact .unsent .queued (.turnedAway error)
  | _ => exact .still _

/-- An answer stays. -/
theorem Move.of_answered {outcome : Except Error Unit} {new : Option (RequestStage Error)}
    (moved : Move none (some (.answered outcome)) new) : new = some (.answered outcome) := by
  cases moved with
  | still => rfl
  | unsent before => cases before
  | refused before => cases before

end RequestStage

/-! ## Clients that send -/

/-- A client with slots, and what its requests run. -/
structure SendingClient (Client Event Error Sending SendingEvent : Type) where
  machine : Machine Client Event
  stage : Client → ℕ → Option (RequestStage Error)
  act : Event → Option (ℕ × RequestAct Error)
  start : Sending
  advance : Client → ℕ → Sending → SendingEvent → Option Sending
  result? : Sending → Option (Except Error Unit)

structure Traffic (Client Sending : Type) where
  client : Client
  sends : ℕ → Option Sending

inductive TrafficEvent (Event SendingEvent : Type) where
  | client (event : Event)
  | send (id : ℕ) (event : SendingEvent)

/-- A request that runs. -/
def RequestStage.isRunning {Error : Type} : Option (RequestStage Error) → Bool
  | some .running => true
  | _ => false

namespace SendingClient

variable {Client Event Error Sending SendingEvent : Type}
  (sending : SendingClient Client Event Error Sending SendingEvent)

/-- A request that has been resumed with a slot runs. -/
def resume (traffic : Traffic Client Sending) (id : ℕ) (next : Client) :
    Traffic Client Sending where
  client := next
  sends :=
    if RequestStage.isRunning (sending.stage next id) then
      Function.update traffic.sends id (some sending.start)
    else traffic.sends

/-- A request starts when it is resumed, and is answered with what it has run. -/
def step [DecidableEq Error] (traffic : Traffic Client Sending) :
    TrafficEvent Event SendingEvent → Option (Traffic Client Sending)
  | .client event =>
      match sending.act event with
      | none =>
          (sending.machine.step traffic.client event).map fun next =>
            { traffic with client := next }
      | some (id, .resumed) =>
          (sending.machine.step traffic.client event).map (sending.resume traffic id)
      | some (id, .answered outcome) =>
          if (traffic.sends id).bind sending.result? = some outcome then
            (sending.machine.step traffic.client event).map fun next =>
              { traffic with client := next }
          else none
  | .send id event =>
      (traffic.sends id).bind fun send =>
        (sending.advance traffic.client id send event).map fun next =>
          { traffic with sends := Function.update traffic.sends id (some next) }

def traffic [DecidableEq Error] :
    Machine (Traffic Client Sending) (TrafficEvent Event SendingEvent) where
  init := ⟨sending.machine.init, fun _ => none⟩
  step := sending.step

/-- What the slots of a client and its sends promise. -/
structure Lawful (limit queueLimit : ℤ) (pool : Client → SlotPool ℕ) : Prop where
  fresh : ∀ id, sending.stage sending.machine.init id = none
  orderly : ∀ client, sending.machine.Reachable (fun _ _ => True) client →
    (pool client).Orderly limit queueLimit
  stands : ∀ client id,
    (pool client).standing id = (sending.stage client id).elim .outside (·.standing)
  moves : ∀ client event next, sending.machine.Reachable (fun _ _ => True) client →
    sending.machine.step client event = some next →
      ∀ id, RequestStage.Move (actOn (sending.act event) id) (sending.stage client id)
        (sending.stage next id)
  overStays : ∀ client id send event, (sending.result? send).isSome →
    sending.advance client id send event = none

/-- A request has run something exactly when it was sent, and is answered with what came of it. -/
inductive Attended : Option (RequestStage Error) → Option Sending → Prop where
  | unsent {stage : Option (RequestStage Error)} (unsent : RequestStage.Unsent stage) :
      Attended stage none
  | refused (error : Error) : Attended (some (.answered (.error error))) none
  | running (send : Sending) : Attended (some .running) (some send)
  | answered {send : Sending} {outcome : Except Error Unit}
      (isOver : sending.result? send = some outcome) :
      Attended (some (.answered outcome)) (some send)

variable {sending} {limit queueLimit : ℤ} {pool : Client → SlotPool ℕ}

theorem Attended.idle {old new : Option (RequestStage Error)} {send : Option Sending}
    (attended : sending.Attended old send) (moved : RequestStage.Move none old new) :
    sending.Attended new send := by
  cases moved with
  | still => exact attended
  | unsent before after =>
      cases attended with
      | unsent => exact .unsent after
      | _ => cases before
  | refused before error =>
      cases attended with
      | unsent => exact .refused error
      | _ => cases before

theorem Attended.resumed {old new : Option (RequestStage Error)} {send : Option Sending}
    (attended : sending.Attended old send)
    (moved : RequestStage.Move (some .resumed) old new) :
    sending.Attended new (if RequestStage.isRunning new then some sending.start else send) := by
  cases moved with
  | sent => exact .running _
  | turnedAway error =>
      cases attended with
      | unsent => exact .refused error

theorem Attended.answer {outcome : Except Error Unit} {old new : Option (RequestStage Error)}
    {send : Option Sending} (attended : sending.Attended old send)
    (moved : RequestStage.Move (some (.answered outcome)) old new)
    (isOver : send.bind sending.result? = some outcome) : sending.Attended new send := by
  cases moved with
  | answered =>
      cases attended with
      | running send => exact .answered isOver
      | unsent before => cases before

theorem sends_resume (traffic : Traffic Client Sending) (id other : ℕ) (next : Client) :
    (sending.resume traffic id next).sends other =
      if other = id then
        if RequestStage.isRunning (sending.stage next id) then some sending.start
        else traffic.sends id
      else traffic.sends other := by
  rw [resume]
  by_cases same : other = id
  · rw [same, if_pos rfl]
    split
    next => exact Function.update_self id _ _
    next => rfl
  · rw [if_neg same]
    split
    next => exact Function.update_of_ne same _ _
    next => rfl

/-- Every request is attended. -/
def AllAttended (sending : SendingClient Client Event Error Sending SendingEvent)
    (traffic : Traffic Client Sending) : Prop :=
  ∀ id, sending.Attended (sending.stage traffic.client id) (traffic.sends id)

/-- A send that is not over belongs to the owner of a slot. -/
theorem Lawful.owner (lawful : sending.Lawful limit queueLimit pool)
    {state : Traffic Client Sending} (attended : sending.AllAttended state) {id : ℕ}
    {send : Sending} (current : state.sends id = some send) (goesOn : sending.result? send = none) :
    (pool state.client).standing id = .owner := by
  have here := attended id
  rw [current] at here
  rw [lawful.stands]
  cases stage : sending.stage state.client id with
  | none =>
      rw [stage] at here
      cases here
  | some now =>
      rw [stage] at here
      cases here with
      | running => rfl
      | answered isOver =>
          rw [goesOn] at isOver
          cases isOver

variable [DecidableEq Error]

theorem AllAttended.step {traffic next : Traffic Client Sending}
    {event : TrafficEvent Event SendingEvent} (lawful : sending.Lawful limit queueLimit pool)
    (reached : sending.machine.Reachable (fun _ _ => True) traffic.client)
    (attended : sending.AllAttended traffic) (result : sending.step traffic event = some next) :
    sending.machine.Reachable (fun _ _ => True) next.client ∧ sending.AllAttended next := by
  cases event with
  | client event =>
      rw [SendingClient.step] at result
      split at result
      next idle =>
        rcases Option.map_eq_some_iff.mp result with ⟨client, stepped, rfl⟩
        refine ⟨reached.step trivial stepped, ?_⟩
        intro id
        have moved := lawful.moves _ _ _ reached stepped id
        rw [idle] at moved
        exact (attended id).idle moved
      next id about =>
        rcases Option.map_eq_some_iff.mp result with ⟨client, stepped, rfl⟩
        refine ⟨reached.step trivial stepped, ?_⟩
        intro other
        have moved := lawful.moves _ _ _ reached stepped other
        by_cases same : other = id
        · rw [same, about, actOn_self] at moved
          rw [same, sends_resume, if_pos rfl]
          exact (attended id).resumed moved
        · rw [about, actOn_of_ne _ same] at moved
          rw [sends_resume, if_neg same]
          exact (attended other).idle moved
      next id outcome about =>
        split at result
        next isOver =>
          rcases Option.map_eq_some_iff.mp result with ⟨client, stepped, rfl⟩
          refine ⟨reached.step trivial stepped, ?_⟩
          intro other
          have moved := lawful.moves _ _ _ reached stepped other
          by_cases same : other = id
          · rw [same, about, actOn_self] at moved
            rw [same]
            exact (attended id).answer moved isOver
          · rw [about, actOn_of_ne _ same] at moved
            exact (attended other).idle moved
        next => cases result
  | send id event =>
      rcases Option.bind_eq_some_iff.mp result with ⟨send, current, advanced⟩
      rcases Option.map_eq_some_iff.mp advanced with ⟨later, isLater, rfl⟩
      refine ⟨reached, ?_⟩
      intro other
      by_cases same : other = id
      · have before := attended id
        rw [current] at before
        rw [same]
        change sending.Attended _ (Function.update traffic.sends id (some later) id)
        rw [Function.update_self]
        change sending.Attended (sending.stage traffic.client id) _
        cases stage : sending.stage traffic.client id with
        | none =>
            rw [stage] at before
            cases before
        | some now =>
            rw [stage] at before
            cases before with
            | running => exact .running later
            | answered isOver =>
                rw [lawful.overStays _ _ _ _ (Option.isSome_of_eq_some isOver)] at isLater
                cases isLater
      · change sending.Attended _ (Function.update traffic.sends id (some later) other)
        rw [Function.update_of_ne same]
        exact attended other

/-- The client below the traffic only does what it can do by itself, and every request is
attended. -/
theorem Lawful.attended (lawful : sending.Lawful limit queueLimit pool)
    {state : Traffic Client Sending}
    (reached : sending.traffic.Reachable (fun _ _ => True) state) :
    sending.machine.Reachable (fun _ _ => True) state.client ∧ sending.AllAttended state := by
  refine reached.invariant (fun state => sending.machine.Reachable (fun _ _ => True) state.client ∧
    sending.AllAttended state) ?_ ?_
  · refine ⟨.init, fun id => .unsent ?_⟩
    rw [show sending.traffic.init.client = sending.machine.init from rfl, lawful.fresh id]
    exact .unknown
  · intro state event next holds _ result
    exact holds.2.step lawful holds.1 result

/-- What starts with a property of all sends and keeps it has it in every state. -/
theorem every_send {holds : Sending → Prop} (start : holds sending.start)
    (kept : ∀ client id send event next, holds send →
      sending.advance client id send event = some next → holds next)
    {state : Traffic Client Sending}
    (reached : sending.traffic.Reachable (fun _ _ => True) state) {id : ℕ} {send : Sending}
    (current : state.sends id = some send) : holds send := by
  have all : ∀ id send, state.sends id = some send → holds send := by
    refine reached.invariant (fun state => ∀ id send, state.sends id = some send → holds send)
      (by simp [SendingClient.traffic]) ?_
    intro state event next every _ result other send current
    cases event with
    | client event =>
        change sending.step state (.client event) = some next at result
        rw [SendingClient.step] at result
        split at result
        next =>
          rcases Option.map_eq_some_iff.mp result with ⟨client, _, rfl⟩
          exact every other send current
        next id _ =>
          rcases Option.map_eq_some_iff.mp result with ⟨client, _, rfl⟩
          rw [sends_resume] at current
          split_ifs at current with same running
          · cases current
            exact start
          · exact every id send current
          · exact every other send current
        next =>
          split at result
          next =>
            rcases Option.map_eq_some_iff.mp result with ⟨client, _, rfl⟩
            exact every other send current
          next => cases result
    | send id event =>
        rcases Option.bind_eq_some_iff.mp result with ⟨before, isBefore, advanced⟩
        rcases Option.map_eq_some_iff.mp advanced with ⟨later, isLater, rfl⟩
        change Function.update state.sends id (some later) other = some send at current
        by_cases same : other = id
        · rw [same, Function.update_self] at current
          cases current
          exact kept _ _ _ _ _ (every id before isBefore) isLater
        · rw [Function.update_of_ne same] at current
          exact every other send current
  exact all id send current

end SendingClient

/-! ## Moves of the two clients -/

namespace UpstreamHttpClient

def stage (client : UpstreamHttpClient) (id : ℕ) : Option (RequestStage LoadError) :=
  (client.calls id).map (·.stage)

def act : HttpEvent → Option (ℕ × RequestAct LoadError)
  | .resume id => some (id, .resumed)
  | .sent id outcome => some (id, .answered outcome)
  | _ => none

variable {options : UpstreamHttpClientOptions} {client next : UpstreamHttpClient} {id : ℕ}

theorem stage_setCall (client : UpstreamHttpClient) (id : ℕ) (call : HttpCall) (other : ℕ) :
    (client.setCall id call).stage other =
      if other = id then some call.stage else client.stage other := by
  change (Function.update client.calls id (some call) other).map (·.stage) = _
  rw [Function.update_apply]
  split
  next => rfl
  next => rfl

/-- A call that is set moves as its stage does. -/
theorem move_setCall {acts : ℕ → Option (RequestAct LoadError)} {call : HttpCall}
    (moved : RequestStage.Move (acts id) (client.stage id) (some call.stage))
    (quiet : ∀ other ≠ id, acts other = none) (other : ℕ) :
    RequestStage.Move (acts other) (client.stage other) ((client.setCall id call).stage other) := by
  rw [stage_setCall]
  split
  next same =>
    rw [same]
    exact moved
  next different =>
    rw [quiet other different]
    exact .still _

theorem move_grant {before : UpstreamHttpClient} (sameCalls : client.calls = before.calls)
    (other : ℕ) : RequestStage.Move none (before.stage other) ((client.grant id).stage other) := by
  have sameStage : before.stage other = client.stage other := by rw [stage, stage, sameCalls]
  rw [sameStage, grant]
  split
  next => exact .still _
  next call current =>
    change RequestStage.Move none (client.stage other)
      ((client.setCall id ⟨call.stage.resolve, false⟩).stage other)
    refine move_setCall ?_ (fun _ _ => rfl) other
    rw [stage, current]
    exact RequestStage.move_resolve call.stage

theorem move_release (client : UpstreamHttpClient) (id other : ℕ) :
    RequestStage.Move none (client.stage other) ((client.release id).stage other) := by
  rw [release]
  split
  next => exact .still _
  next =>
    refine move_grant ?_ other
    rfl

theorem move_expire {stage : RequestStage LoadError} {timer : Bool}
    (current : client.calls id = some ⟨stage, timer⟩) (other : ℕ) :
    RequestStage.Move none (client.stage other)
      ((client.expire id ⟨stage, timer⟩).stage other) := by
  change RequestStage.Move none (client.stage other)
    ((client.setCall id ⟨stage.reject (.upstream .timeout), false⟩).stage other)
  refine move_setCall ?_ (fun _ _ => rfl) other
  rw [UpstreamHttpClient.stage, current]
  exact RequestStage.move_reject _ stage

theorem move_acquire (before : RequestStage.Unsent (client.stage id)) (other : ℕ) :
    RequestStage.Move none (client.stage other) ((client.acquire options id).stage other) := by
  have set : ∀ call : HttpCall, RequestStage.Unsent (some call.stage) →
      RequestStage.Move none (client.stage other) ((client.setCall id call).stage other) := by
    intro call after
    exact move_setCall (.unsent before after) (fun _ _ => rfl) other
  rw [acquire]
  split
  next => exact set ⟨.granted, false⟩ .granted
  next =>
    split
    next => exact set ⟨.turnedAway (.upstream .overloaded), false⟩ (.turnedAway _)
    next => exact set ⟨.queued, true⟩ .queued

theorem step_moves {event : HttpEvent} (result : step options client event = some next)
    (other : ℕ) :
    RequestStage.Move (actOn (act event) other) (client.stage other) (next.stage other) := by
  cases event with
  | getJson id budget pathKept =>
      rw [step] at result
      split at result
      next => cases result
      next unknown =>
        have new : client.stage id = none := by rw [stage, unknown]; rfl
        have unsent : RequestStage.Unsent (client.stage id) := new ▸ .unknown
        split_ifs at result
        · cases result
          exact move_setCall (.refused unsent _) (fun _ _ => rfl) other
        · cases result
          exact move_setCall (.refused unsent _) (fun _ _ => rfl) other
        · cases result
          exact move_setCall (.unsent unsent .preparing) (fun _ _ => rfl) other
        · cases result
          exact move_acquire unsent other
  | token id present =>
      rw [step] at result
      split at result
      next current =>
        have unsent : RequestStage.Unsent (client.stage id) := by
          rw [stage, current]
          exact .preparing
        split_ifs at result
        · cases result
          exact move_acquire unsent other
        · cases result
          exact move_setCall (.refused unsent _) (fun _ _ => rfl) other
      next => cases result
  | tokenFailed id error =>
      rw [step] at result
      split at result
      next current =>
        cases result
        refine move_setCall ?_ (fun _ _ => rfl) other
        rw [stage, current]
        exact .refused .preparing error
      next => cases result
  | timeout id =>
      rw [step] at result
      split at result
      next stage current =>
        cases result
        exact move_expire current other
      next => cases result
  | resume id =>
      rw [step] at result
      split at result
      next timer current =>
        cases result
        refine move_setCall ?_ (fun other different => actOn_of_ne _ different) other
        rw [actOn_self, stage, current]
        exact .sent
      next error timer current =>
        cases result
        refine move_setCall ?_ (fun other different => actOn_of_ne _ different) other
        rw [actOn_self, stage, current]
        exact .turnedAway error
      next => cases result
  | sent id outcome =>
      rw [step] at result
      split at result
      next timer current =>
        cases result
        have released := move_release (client.setCall id ⟨.answered outcome, timer⟩) id other
        rw [stage_setCall] at released
        rw [act]
        by_cases same : other = id
        · rw [if_pos same] at released
          rw [released.of_answered, same, actOn_self, stage, current]
          exact .answered outcome
        · rw [if_neg same] at released
          rw [actOn_of_ne _ same]
          exact released
      next => cases result

end UpstreamHttpClient

namespace FlinkRestClient

def stage (client : FlinkRestClient) (id : ℕ) : Option (RequestStage FlinkErrorKind) :=
  (client.requests id).map (·.stage)

def act : FlinkEvent → Option (ℕ × RequestAct FlinkErrorKind)
  | .resume id => some (id, .resumed)
  | .fetched id outcome => some (id, .answered outcome)
  | _ => none

variable {options : FlinkClientOptions} {client next : FlinkRestClient} {id : ℕ}

theorem stage_setRequest (client : FlinkRestClient) (id : ℕ) (request : FlinkRequest)
    (other : ℕ) :
    (client.setRequest id request).stage other =
      if other = id then some request.stage else client.stage other := by
  change (Function.update client.requests id (some request) other).map (·.stage) = _
  rw [Function.update_apply]
  split
  next => rfl
  next => rfl

/-- A request that is set moves as its stage does. -/
theorem move_setRequest {acts : ℕ → Option (RequestAct FlinkErrorKind)} {request : FlinkRequest}
    (moved : RequestStage.Move (acts id) (client.stage id) (some request.stage))
    (quiet : ∀ other ≠ id, acts other = none) (other : ℕ) :
    RequestStage.Move (acts other) (client.stage other)
      ((client.setRequest id request).stage other) := by
  rw [stage_setRequest]
  split
  next same =>
    rw [same]
    exact moved
  next different =>
    rw [quiet other different]
    exact .still _

theorem move_acquire (unknown : client.stage id = none) (request : FlinkRequest) (other : ℕ) :
    RequestStage.Move none (client.stage other)
      ((client.acquire options id request).stage other) := by
  have set : ∀ request : FlinkRequest, RequestStage.Unsent (some request.stage) →
      RequestStage.Move none (client.stage other)
        ((client.setRequest id request).stage other) := by
    intro request after
    refine move_setRequest ?_ (fun _ _ => rfl) other
    rw [unknown]
    exact .unsent .unknown after
  rw [acquire]
  split
  next => exact set { request with stage := .turnedAway .timeout } (.turnedAway _)
  next =>
    split
    next => exact set { request with stage := .granted } .granted
    next =>
      split
      next => exact set { request with stage := .turnedAway .overloaded } (.turnedAway _)
      next => exact set { request with stage := .queued, onAbort := true } .queued

theorem move_abort {request : FlinkRequest} (current : client.stage id = some request.stage)
    (other : ℕ) :
    RequestStage.Move none (client.stage other) ((client.abort id request).stage other) := by
  have set : ∀ later : FlinkRequest,
      RequestStage.Move none (some request.stage) (some later.stage) →
        RequestStage.Move none (client.stage other)
          ((client.setRequest id later).stage other) := by
    intro later moved
    refine move_setRequest ?_ (fun _ _ => rfl) other
    rw [current]
    exact moved
  rw [abort]
  split
  next => exact set request (.still _)
  next =>
    split
    next =>
      exact set { request with
        stage := request.stage.reject .timeout, aborted := true, onAbort := false }
        (RequestStage.move_reject _ _)
    next => exact set { request with aborted := true } (.still _)

theorem move_grant {before : FlinkRestClient} (sameRequests : client.requests = before.requests)
    (other : ℕ) : RequestStage.Move none (before.stage other) ((client.grant id).stage other) := by
  have sameStage : before.stage other = client.stage other := by rw [stage, stage, sameRequests]
  rw [sameStage, grant]
  split
  next => exact .still _
  next request current =>
    change RequestStage.Move none (client.stage other)
      ((client.setRequest id { request with
        stage := request.stage.resolve, onAbort := false }).stage other)
    refine move_setRequest ?_ (fun _ _ => rfl) other
    rw [stage, current]
    exact RequestStage.move_resolve request.stage

theorem move_release (client : FlinkRestClient) (id other : ℕ) :
    RequestStage.Move none (client.stage other) ((client.release id).stage other) := by
  rw [release]
  split
  next => exact .still _
  next =>
    refine move_grant ?_ other
    rfl

theorem step_moves {event : FlinkEvent} (result : step options client event = some next)
    (other : ℕ) :
    RequestStage.Move (actOn (act event) other) (client.stage other) (next.stage other) := by
  cases event with
  | get id externalAborted =>
      rw [step] at result
      split at result
      next => cases result
      next unknown =>
        cases result
        refine move_acquire ?_ _ other
        rw [stage, unknown]
        rfl
  | timeout id =>
      rw [step] at result
      split at result
      next => cases result
      next request current =>
        split at result
        next =>
          cases result
          refine move_abort ?_ other
          rw [stage, current]
          rfl
        next => cases result
  | externalAbort id =>
      rw [step] at result
      split at result
      next => cases result
      next request current =>
        split at result
        next =>
          cases result
          refine move_abort ?_ other
          rw [stage, current]
          rfl
        next => cases result
  | resume id =>
      rw [step] at result
      split at result
      next => cases result
      next request current =>
        split at result
        next granted =>
          cases result
          refine move_setRequest ?_ (fun other different => actOn_of_ne _ different) other
          rw [actOn_self, stage, current, Option.map_some, granted]
          exact .sent
        next error turnedAway =>
          cases result
          refine move_setRequest ?_ (fun other different => actOn_of_ne _ different) other
          rw [actOn_self, stage, current, Option.map_some, turnedAway]
          exact .turnedAway error
        next => cases result
  | fetched id outcome =>
      rw [step] at result
      split at result
      next => cases result
      next request current =>
        split at result
        next running =>
          cases result
          have released := move_release (client.setRequest id { request with
            stage := .answered outcome, timer := false, onExternal := false }) id other
          rw [stage_setRequest] at released
          rw [act, finish, if_pos rfl]
          by_cases same : other = id
          · rw [if_pos same] at released
            rw [released.of_answered, same, actOn_self, stage, current, Option.map_some, running]
            exact .answered outcome
          · rw [if_neg same] at released
            rw [actOn_of_ne _ same]
            exact released
        next => cases result

end FlinkRestClient

end BelugaManager.DomainApi
