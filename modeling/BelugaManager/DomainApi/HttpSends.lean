import BelugaManager.DomainApi.RequestTraffic
import BelugaManager.Foundation.CappedStream

/-!
# Responses to the upstream clients

What a request does once it has a slot: `send` of `upstream/httpClient.ts` and the body of `get` in
`flink/client.ts`, from `fetch` to the value of the response.  What `JSON.parse` makes of the bytes
of a body is a parameter; the logs are not part of the source.  Both run on top of the machines of
the slots.
-/

namespace BelugaManager.DomainApi

open Foundation

/-- A response before its body is read.  The length is what `Number` makes of the header. -/
structure ResponseHead where
  status : ℕ
  contentLength : Option JsNumber
  hasBody : Bool

def ResponseHead.ok (head : ResponseHead) : Bool := decide (200 ≤ head.status ∧ head.status ≤ 299)

/-- The length that a response declares, zero where it declares none. -/
def ResponseHead.declared (head : ResponseHead) : JsNumber := head.contentLength.getD (.ofNat 0)

/-- Where the stream of a body is; an unread one keeps its connection. -/
inductive BodyState where
  | absent
  | unread
  | ended
  | cancelled
  deriving DecidableEq

def BodyState.cancel : BodyState → BodyState
  | .unread => .cancelled
  | state => state

def ResponseHead.body (head : ResponseHead) : BodyState := if head.hasBody then .unread else .absent

theorem BodyState.cancel_ne_unread (state : BodyState) : state.cancel ≠ .unread := by
  cases state <;> simp [cancel]

/-! ## Sending -/

/-- How a client reads responses: what it refuses, what becomes of a body, what it fails with, and
whether it waits for the cancellation of a body. -/
structure ResponseRules (Failure Value : Type) where
  maxBodyBytes : ℤ
  refusal? : ResponseHead → Option Failure
  parsed : ResponseHead → List UInt8 → Except Failure Value
  tooLarge : ResponseHead → Failure
  transport : Bool → Failure
  awaitsCancel : Bool

/-- What happens to a request that was sent.  Failures tell whether they are aborts. -/
inductive SendEvent where
  | fetchFailed (isAbort : Bool)
  | responded (head : ResponseHead)
  | read (event : StreamEvent UInt8 Bool)
  | discarded

inductive SendStage (Failure Value : Type) where
  | fetching
  | reading (head : ResponseHead) (reader : ChunkReader UInt8)
  | discarding (failure : Failure)
  | finished (outcome : Except Failure Value)

structure Send (Failure Value : Type) where
  stage : SendStage Failure Value
  body : BodyState
  log : List SendEvent

namespace Send

variable {Failure Value : Type} (rules : ResponseRules Failure Value)

def start : Send Failure Value := ⟨.fetching, .absent, []⟩

/-- A body is cancelled because of a failure. -/
def discard (failure : Failure) (body : BodyState) : SendStage Failure Value × BodyState :=
  (if rules.awaitsCancel then .discarding failure else .finished (.error failure), body.cancel)

def respond (head : ResponseHead) : SendStage Failure Value × BodyState :=
  match rules.refusal? head with
  | some failure => discard rules failure head.body
  | none =>
      if head.hasBody then (.reading head .empty, head.body)
      else (.finished (rules.parsed head []), head.body)

/-- What `readCapped` does after a read. -/
def readCapped (head : ResponseHead) : CappedRead UInt8 Bool → SendStage Failure Value × BodyState
  | .reading reader => (.reading head reader, .unread)
  | .complete bytes => (.finished (rules.parsed head bytes), .ended)
  | .tooLarge => discard rules (rules.tooLarge head) .unread
  | .failed isAbort => discard rules (rules.transport isAbort) .ended

def advance (send : Send Failure Value) :
    SendEvent → Option (SendStage Failure Value × BodyState)
  | .fetchFailed isAbort =>
      match send.stage with
      | .fetching => some (.finished (.error (rules.transport isAbort)), send.body)
      | _ => none
  | .responded head =>
      match send.stage with
      | .fetching => some (respond rules head)
      | _ => none
  | .read event =>
      match send.stage with
      | .reading head reader => some (readCapped rules head (reader.next rules.maxBodyBytes event))
      | _ => none
  | .discarded =>
      match send.stage with
      | .discarding failure => some (.finished (.error failure), send.body)
      | _ => none

def step (send : Send Failure Value) (event : SendEvent) : Option (Send Failure Value) :=
  (send.advance rules event).map fun next => ⟨next.1, next.2, send.log ++ [event]⟩

/-- What is kept of a body while it is read. -/
def kept (send : Send Failure Value) : ℕ :=
  match send.stage with
  | .reading _ reader => reader.total
  | _ => 0

/-- The outcome of a send that is over. -/
def outcome? (send : Send Failure Value) : Option (Except Failure Value) :=
  match send.stage with
  | .finished outcome => some outcome
  | _ => none

/-- The response is read. -/
structure Accepted (head : ResponseHead) : Prop where
  fine : rules.refusal? head = none
  hasBody : head.hasBody = true

/-- The events of a response of which these chunks were read. -/
def readLog (head : ResponseHead) (chunks : List (List UInt8)) : List SendEvent :=
  .responded head :: chunks.map fun bytes => .read (.chunk bytes)

/-- The chunks are within the limit. -/
def Within (chunks : List (List UInt8)) : Prop :=
  chunks ≠ [] → (chunks.flatten.length : ℤ) ≤ rules.maxBodyBytes

/-- A body is cancelled, and the client waits for that if it does. -/
def discardLog : List SendEvent := if rules.awaitsCancel then [.discarded] else []

/-- The outcome of a send by what happened to it. -/
inductive Comes : List SendEvent → Except Failure Value → Prop where
  | unanswered (isAbort : Bool) : Comes [.fetchFailed isAbort] (.error (rules.transport isAbort))
  | refused {head : ResponseHead} {failure : Failure} (why : rules.refusal? head = some failure) :
      Comes (.responded head :: discardLog rules) (.error failure)
  | bodyless {head : ResponseHead} (fine : rules.refusal? head = none)
      (noBody : head.hasBody = false) : Comes [.responded head] (rules.parsed head [])
  | whole {head : ResponseHead} {chunks : List (List UInt8)} (accepted : Accepted rules head)
      (within : Within rules chunks) :
      Comes (readLog head chunks ++ [.read .done]) (rules.parsed head chunks.flatten)
  | tooLarge {head : ResponseHead} {chunks : List (List UInt8)} {last : List UInt8}
      (accepted : Accepted rules head) (within : Within rules chunks)
      (exceeds : rules.maxBodyBytes < (chunks ++ [last]).flatten.length) :
      Comes (readLog head (chunks ++ [last]) ++ discardLog rules) (.error (rules.tooLarge head))
  | broken {head : ResponseHead} {chunks : List (List UInt8)} {isAbort : Bool}
      (accepted : Accepted rules head) (within : Within rules chunks) :
      Comes (readLog head chunks ++ [.read (.failed isAbort)] ++ discardLog rules)
        (.error (rules.transport isAbort))

/-- The stage and the body of a send are what its log says. -/
inductive Traced : Send Failure Value → Prop where
  | fetching : Traced start
  | reading {head : ResponseHead} {chunks : List (List UInt8)} {reader : ChunkReader UInt8}
      (accepted : Accepted rules head) (holds : reader.Holds rules.maxBodyBytes chunks) :
      Traced ⟨.reading head reader, .unread, readLog head chunks⟩
  | discarding {failure : Failure} {body : BodyState} {log : List SendEvent}
      (comes : Comes rules (log ++ [.discarded]) (.error failure)) (released : body ≠ .unread) :
      Traced ⟨.discarding failure, body, log⟩
  | finished {outcome : Except Failure Value} {body : BodyState} {log : List SendEvent}
      (comes : Comes rules log outcome) (released : body ≠ .unread) :
      Traced ⟨.finished outcome, body, log⟩

variable {rules} {send next : Send Failure Value}

theorem readLog_concat (head : ResponseHead) (chunks : List (List UInt8)) (bytes : List UInt8) :
    readLog head chunks ++ [.read (.chunk bytes)] = readLog head (chunks ++ [bytes]) := by
  rw [readLog, readLog, List.map_append]
  rfl

theorem traced_discard {failure : Failure} {log : List SendEvent} (body : BodyState)
    (comes : Comes rules (log ++ discardLog rules) (.error failure)) :
    Traced rules ⟨(discard rules failure body).1, (discard rules failure body).2, log⟩ := by
  rw [discardLog] at comes
  rw [discard]
  by_cases waits : rules.awaitsCancel = true
  · rw [if_pos waits] at comes ⊢
    exact .discarding comes body.cancel_ne_unread
  · rw [if_neg waits] at comes ⊢
    rw [List.append_nil] at comes
    exact .finished comes body.cancel_ne_unread

theorem traced_respond (head : ResponseHead) :
    Traced rules ⟨(respond rules head).1, (respond rules head).2, [.responded head]⟩ := by
  rw [respond]
  cases refused : rules.refusal? head with
  | some failure => exact traced_discard _ (.refused refused)
  | none =>
      cases hasBody : head.hasBody with
      | true =>
          have unread : head.body = .unread := if_pos hasBody
          rw [unread]
          exact .reading ⟨refused, hasBody⟩ .empty
      | false =>
          have absent : head.body = .absent := if_neg (by simp [hasBody])
          rw [absent]
          exact .finished (.bodyless refused hasBody) (BodyState.cancel_ne_unread .absent)

theorem traced_readCapped {head : ResponseHead} {chunks : List (List UInt8)}
    {reader : ChunkReader UInt8} (accepted : Accepted rules head)
    (holds : reader.Holds rules.maxBodyBytes chunks) (event : StreamEvent UInt8 Bool) :
    Traced rules
      ⟨(readCapped rules head (reader.next rules.maxBodyBytes event)).1,
        (readCapped rules head (reader.next rules.maxBodyBytes event)).2,
        readLog head chunks ++ [.read event]⟩ := by
  cases event with
  | chunk bytes =>
      rw [readLog_concat]
      rcases @ChunkReader.Holds.chunk _ Bool _ _ _ holds bytes with
        ⟨_, longer, stillHolds, goesOn⟩ | ⟨exceeds, stops⟩
      · rw [goesOn]
        exact .reading accepted stillHolds
      · rw [stops]
        exact traced_discard .unread (.tooLarge accepted holds.within exceeds)
  | done =>
      rw [holds.next_done]
      exact .finished (.whole accepted holds.within) (BodyState.cancel_ne_unread .ended)
  | failed isAbort => exact traced_discard .ended (.broken accepted holds.within)

/-- Every step follows the log. -/
theorem Traced.step (traced : Traced rules send) {event : SendEvent}
    (result : send.step rules event = some next) : Traced rules next := by
  rcases Option.map_eq_some_iff.mp result with ⟨after, advanced, rfl⟩
  cases traced with
  | fetching =>
      cases event with
      | fetchFailed isAbort =>
          cases advanced
          exact .finished (.unanswered isAbort) (BodyState.cancel_ne_unread .absent)
      | responded head =>
          cases advanced
          exact traced_respond head
      | read event => cases advanced
      | discarded => cases advanced
  | reading accepted holds =>
      cases event with
      | read event =>
          cases advanced
          exact traced_readCapped accepted holds event
      | fetchFailed isAbort => cases advanced
      | responded head => cases advanced
      | discarded => cases advanced
  | discarding comes released =>
      cases event with
      | discarded =>
          cases advanced
          exact .finished comes released
      | fetchFailed isAbort => cases advanced
      | responded head => cases advanced
      | read event => cases advanced
  | finished comes released => cases event <;> cases advanced

theorem Traced.kept_le (traced : Traced rules send) :
    send.kept ≤ (max 0 rules.maxBodyBytes).toNat := by
  cases traced with
  | reading accepted holds =>
      exact (Int.le_toNat (le_max_left 0 rules.maxBodyBytes)).mpr holds.total_le
  | _ => exact Nat.zero_le _

/-- A send that is over has come to its outcome, and has nothing to read. -/
theorem Traced.concluded (traced : Traced rules send) {outcome : Except Failure Value}
    (isOver : send.outcome? = some outcome) :
    Comes rules send.log outcome ∧ send.kept = 0 ∧ send.body ≠ .unread := by
  cases traced with
  | finished comes released =>
      cases isOver
      exact ⟨comes, rfl, released⟩
  | _ => cases isOver

theorem step_of_over (isOver : send.outcome?.isSome) (event : SendEvent) :
    send.step rules event = none := by
  rcases send with ⟨stage, body, log⟩
  cases stage with
  | finished outcome => cases event <;> rfl
  | _ => cases isOver

end Send

/-! ## Accounting of sends -/

section Accounting

variable {Client Event Error Failure Value : Type}

/-- What the sends of a client promise. -/
structure SendsAccounted (rules : ResponseRules Failure Value) (limit : ℤ)
    (told : Except Failure Value → Except Error Unit) (stage : ℕ → Option (RequestStage Error))
    (sends : ℕ → Option (Send Failure Value)) : Prop where
  /-- There are no more unread bodies than slots. -/
  connections : ∀ ids : Finset ℕ,
    (∀ id ∈ ids, ∃ send, sends id = some send ∧ send.body = .unread) → (ids.card : ℤ) ≤ limit
  /-- All that is kept of bodies is within the limit for each slot. -/
  memory : ∀ ids : Finset ℕ,
    ((ids.sum fun id => (sends id).elim 0 Send.kept : ℕ) : ℤ) ≤ limit * max 0 rules.maxBodyBytes
  /-- An answer is the outcome of the send, which is what its events have come to, and the body is
  released; a request that was never sent is answered with an error. -/
  answers : ∀ id answer, stage id = some (.answered answer) →
    (∃ send outcome, sends id = some send ∧ send.outcome? = some outcome ∧
      Send.Comes rules send.log outcome ∧ answer = told outcome ∧ send.body ≠ .unread) ∨
    sends id = none ∧ ∃ error, answer = .error error

/-- A client that sends by these rules. -/
structure SendsBy (rules : ResponseRules Failure Value)
    (told : Except Failure Value → Except Error Unit)
    (sending : SendingClient Client Event Error (Send Failure Value) SendEvent) : Prop where
  start : sending.start = .start
  result : ∀ send, sending.result? send = send.outcome?.map told
  advance : ∀ client id send event, ∃ noted,
    sending.advance client id send event = send.step rules noted

variable {rules : ResponseRules Failure Value} {told : Except Failure Value → Except Error Unit}
  {sending : SendingClient Client Event Error (Send Failure Value) SendEvent}
  {limit queueLimit : ℤ} {pool : Client → SlotPool ℕ}

theorem SendsBy.overStays (sendsBy : SendsBy rules told sending) (client : Client) (id : ℕ)
    (send : Send Failure Value) (event : SendEvent) (isOver : (sending.result? send).isSome) :
    sending.advance client id send event = none := by
  rw [sendsBy.result, Option.isSome_map] at isOver
  rcases sendsBy.advance client id send event with ⟨noted, advance⟩
  rw [advance]
  exact Send.step_of_over isOver noted

variable [DecidableEq Error]

theorem SendsBy.traced (sendsBy : SendsBy rules told sending)
    {state : Traffic Client (Send Failure Value)}
    (reached : sending.traffic.Reachable (fun _ _ => True) state) {id : ℕ}
    {send : Send Failure Value} (current : state.sends id = some send) : send.Traced rules := by
  refine SendingClient.every_send ?_ ?_ reached current
  · rw [sendsBy.start]
    exact .fetching
  · intro client id send event next traced advanced
    rcases sendsBy.advance client id send event with ⟨noted, advance⟩
    exact traced.step (advance ▸ advanced)

/-- A send that is going on belongs to the owner of a slot. -/
theorem SendsBy.owner (sendsBy : SendsBy rules told sending)
    (lawful : sending.Lawful limit queueLimit pool) {state : Traffic Client (Send Failure Value)}
    (reached : sending.traffic.Reachable (fun _ _ => True) state) {id : ℕ}
    {send : Send Failure Value} (current : state.sends id = some send)
    (goesOn : send.kept ≠ 0 ∨ send.body = .unread) : (pool state.client).standing id = .owner := by
  refine lawful.owner (lawful.attended reached).2 current ?_
  rw [sendsBy.result]
  cases isOver : send.outcome? with
  | none => rfl
  | some outcome =>
      have released := ((sendsBy.traced reached current).concluded isOver).2
      rcases goesOn with keeps | unread
      · exact absurd released.1 keeps
      · exact absurd unread released.2

theorem SendsBy.accounted (sendsBy : SendsBy rules told sending)
    (lawful : sending.Lawful limit queueLimit pool) {state : Traffic Client (Send Failure Value)}
    (reached : sending.traffic.Reachable (fun _ _ => True) state) :
    SendsAccounted rules limit told (sending.stage state.client) state.sends := by
  have ⟨reachable, attended⟩ := lawful.attended reached
  have orderly := lawful.orderly _ reachable
  constructor
  · intro ids unread
    apply orderly.card_le
    intro id member
    rcases unread id member with ⟨send, current, isUnread⟩
    exact sendsBy.owner lawful reached current (Or.inr isUnread)
  · intro ids
    rw [← Int.toNat_of_nonneg (le_max_left 0 rules.maxBodyBytes)]
    apply orderly.sum_le
    · intro id
      cases current : state.sends id with
      | none => exact Nat.zero_le _
      | some send => exact (sendsBy.traced reached current).kept_le
    · intro id keeps
      cases current : state.sends id with
      | none =>
          rw [current] at keeps
          exact absurd rfl keeps
      | some send =>
          rw [current] at keeps
          exact sendsBy.owner lawful reached current (Or.inl keeps)
  · intro id answer answered
    have here := attended id
    rw [answered] at here
    cases current : state.sends id with
    | none =>
        rw [current] at here
        cases here with
        | unsent unsent => cases unsent
        | refused error => exact Or.inr ⟨rfl, error, rfl⟩
    | some send =>
        rw [current] at here
        cases here with
        | answered isOver =>
            rw [sendsBy.result] at isOver
            rcases Option.map_eq_some_iff.mp isOver with ⟨outcome, isOutcome, tells⟩
            have concluded := (sendsBy.traced reached current).concluded isOutcome
            exact Or.inl ⟨send, outcome, rfl, isOutcome, concluded.1, tells.symm, concluded.2.2⟩

end Accounting

/-! ## The upstream HTTP client -/

structure UpstreamError where
  kind : UpstreamErrorKind
  status : Option ℕ

def UpstreamErrorKind.text : UpstreamErrorKind → String
  | .unreachable => "unreachable"
  | .timeout => "timeout"
  | .unauthenticated => "unauthenticated"
  | .forbidden => "forbidden"
  | .notFound => "not_found"
  | .upstreamError => "upstream_error"
  | .overloaded => "overloaded"
  | .malformed => "malformed"

/-- The message of an error carries nothing of the response but its status. -/
def UpstreamError.message (upstream : String) (error : UpstreamError) : String :=
  "Upstream '" ++ upstream ++ "' request failed: " ++ error.kind.text ++
    error.status.elim "" fun status => " (HTTP " ++ toString status ++ ")"

structure HttpClientOptions extends UpstreamHttpClientOptions where
  maxBodyBytes : Option ℤ

def UPSTREAM_MAX_BODY_BYTES : ℤ := 5 * 1024 * 1024

namespace UpstreamHttpClient

variable {Value : Type}

def statusKind? (head : ResponseHead) : Option UpstreamErrorKind :=
  if head.status = 401 then some .unauthenticated
  else if head.status = 403 then some .forbidden
  else if head.status = 404 then some .notFound
  else if !head.ok then some .upstreamError
  else none

/-- How `send` reads a response. -/
def rules (maxBodyBytes : ℤ) (parse : List UInt8 → Option Value) :
    ResponseRules UpstreamError Value where
  maxBodyBytes := maxBodyBytes
  refusal? head :=
    match statusKind? head with
    | some kind => some ⟨kind, some head.status⟩
    | none =>
        if JsNumber.less (.finite maxBodyBytes) head.declared then
          some ⟨.malformed, some head.status⟩
        else none
  parsed head bytes := (parse bytes).elim (.error ⟨.malformed, some head.status⟩) .ok
  tooLarge head := ⟨.malformed, some head.status⟩
  transport isAbort := ⟨if isAbort then .timeout else .unreachable, none⟩
  awaitsCancel := true

def told : Except UpstreamError Value → Except LoadError Unit
  | .ok _ => .ok ()
  | .error error => .error (.upstream error.kind)

def sending (options : HttpClientOptions) (parse : List UInt8 → Option Value) :
    SendingClient UpstreamHttpClient HttpEvent LoadError (Send UpstreamError Value) SendEvent where
  machine := machine options.toUpstreamHttpClientOptions
  stage := stage
  act := act
  start := .start
  advance _ _ send event :=
    send.step (rules (options.maxBodyBytes.getD UPSTREAM_MAX_BODY_BYTES) parse) event
  result? send := send.outcome?.map told

theorem sendsBy (options : HttpClientOptions) (parse : List UInt8 → Option Value) :
    SendsBy (rules (options.maxBodyBytes.getD UPSTREAM_MAX_BODY_BYTES) parse) told
      (sending options parse) where
  start := rfl
  result := fun _ => rfl
  advance := fun _ _ _ event => ⟨event, rfl⟩

theorem lawful (options : HttpClientOptions) (parse : List UInt8 → Option Value) :
    (sending options parse).Lawful options.concurrencyLimit options.queueLimit pool where
  fresh := fun _ => rfl
  orderly := fun _ reached => (reachable_orderly reached).2
  stands := by
    intro client id
    change (client.calls id).elim _ _ = ((client.calls id).map _).elim _ _
    cases client.calls id <;> rfl
  moves := fun _ _ _ _ result => step_moves result
  overStays := (sendsBy options parse).overStays

end UpstreamHttpClient

/-! ## The Flink client -/

/-- What `get` fails with once it has a slot. -/
inductive FetchFailure where
  | aborted
  | unreachable
  | http (status : ℕ)
  | tooLarge
  | malformedJson
  | unexpectedShape

namespace FetchFailure

def kind : FetchFailure → FlinkErrorKind
  | .aborted => .timeout
  | .unreachable => .unreachable
  | .http _ => .httpError
  | .tooLarge => .invalidResponse
  | .malformedJson => .invalidResponse
  | .unexpectedShape => .invalidResponse

def message (path : String) (timeoutMs maxBodyBytes : ℤ) : FetchFailure → String
  | .aborted => "Flink REST did not respond within " ++ toString timeoutMs ++ "ms"
  | .unreachable => "Flink REST is unreachable"
  | .http status => "Flink REST " ++ path ++ " returned HTTP " ++ toString status
  | .tooLarge =>
      "Flink REST " ++ path ++ " response exceeds " ++ toString maxBodyBytes ++ " bytes"
  | .malformedJson => "Flink REST " ++ path ++ " returned malformed JSON"
  | .unexpectedShape => "Flink REST " ++ path ++ " returned an unexpected shape"

end FetchFailure

structure FlinkRestOptions extends FlinkClientOptions where
  maxBodyBytes : Option ℤ

def FLINK_MAX_BODY_BYTES : ℤ := 2 * 1024 * 1024

/-- Whether a failure is an abort is up to the signal, not to the error that is thrown. -/
def SendEvent.classified (aborted : Bool) : SendEvent → SendEvent
  | .fetchFailed _ => .fetchFailed aborted
  | .read (.failed _) => .read (.failed aborted)
  | event => event

namespace FlinkRestClient

variable {Document Value : Type}

/-- How `get` reads a response. -/
def rules (maxBodyBytes : ℤ) (parse : List UInt8 → Option Document)
    (safeParse : Document → Option Value) : ResponseRules FetchFailure Value where
  maxBodyBytes := maxBodyBytes
  refusal? head :=
    if !head.ok then some (.http head.status)
    else if head.declared.isFinite && JsNumber.less (.finite maxBodyBytes) head.declared then
      some .tooLarge
    else none
  parsed _ bytes :=
    match parse bytes with
    | none => .error .malformedJson
    | some json => (safeParse json).elim (.error .unexpectedShape) .ok
  tooLarge _ := .tooLarge
  transport aborted := if aborted then .aborted else .unreachable
  awaitsCancel := false

def told : Except FetchFailure Value → Except FlinkErrorKind Unit
  | .ok _ => .ok ()
  | .error failure => .error failure.kind

def isAborted (client : FlinkRestClient) (id : ℕ) : Bool :=
  (client.requests id).any (·.aborted)

def sending (options : FlinkRestOptions) (parse : List UInt8 → Option Document)
    (safeParse : Document → Option Value) :
    SendingClient FlinkRestClient FlinkEvent FlinkErrorKind (Send FetchFailure Value)
      SendEvent where
  machine := machine options.toFlinkClientOptions
  stage := stage
  act := act
  start := .start
  advance client id send event :=
    send.step (rules (options.maxBodyBytes.getD FLINK_MAX_BODY_BYTES) parse safeParse)
      (event.classified (client.isAborted id))
  result? send := send.outcome?.map told

theorem sendsBy (options : FlinkRestOptions) (parse : List UInt8 → Option Document)
    (safeParse : Document → Option Value) :
    SendsBy (rules (options.maxBodyBytes.getD FLINK_MAX_BODY_BYTES) parse safeParse) told
      (sending options parse safeParse) where
  start := rfl
  result := fun _ => rfl
  advance := fun client id _ event => ⟨event.classified (client.isAborted id), rfl⟩

theorem lawful {options : FlinkRestOptions} (slots : 0 ≤ options.concurrencyLimit)
    (queue : 0 ≤ options.queueLimit) (parse : List UInt8 → Option Document)
    (safeParse : Document → Option Value) :
    (sending options parse safeParse).Lawful options.concurrencyLimit options.queueLimit
      pool where
  fresh := fun _ => rfl
  orderly := fun _ reached => (reachable_orderly slots queue reached).2
  stands := by
    intro client id
    change (client.requests id).elim _ _ = ((client.requests id).map _).elim _ _
    cases client.requests id <;> rfl
  moves := fun _ _ _ _ result => step_moves result
  overStays := (sendsBy options parse safeParse).overStays

end FlinkRestClient

/-- In whatever order requests arrive, wait, are resumed, time out and are aborted, and responses
come, are read, fail and are cancelled, the bodies that are read are as few as the slots and hold no
more than the limit each, and every answer is what the response of its request has come to. -/
theorem sends_accounted :
    (∀ (Value : Type) (options : HttpClientOptions) (parse : List UInt8 → Option Value)
      (state : Traffic UpstreamHttpClient (Send UpstreamError Value)),
      (UpstreamHttpClient.sending options parse).traffic.Reachable (fun _ _ => True) state →
        (UpstreamHttpClient.machine options.toUpstreamHttpClientOptions).Reachable
          (fun _ _ => True) state.client ∧
        SendsAccounted
          (UpstreamHttpClient.rules (options.maxBodyBytes.getD UPSTREAM_MAX_BODY_BYTES) parse)
          options.concurrencyLimit UpstreamHttpClient.told state.client.stage state.sends) ∧
    ∀ (Document Value : Type) (options : FlinkRestOptions)
      (parse : List UInt8 → Option Document) (safeParse : Document → Option Value)
      (state : Traffic FlinkRestClient (Send FetchFailure Value)),
      0 ≤ options.concurrencyLimit → 0 ≤ options.queueLimit →
      (FlinkRestClient.sending options parse safeParse).traffic.Reachable
        (fun _ _ => True) state →
        (FlinkRestClient.machine options.toFlinkClientOptions).Reachable
          (fun _ _ => True) state.client ∧
        SendsAccounted
          (FlinkRestClient.rules (options.maxBodyBytes.getD FLINK_MAX_BODY_BYTES) parse safeParse)
          options.concurrencyLimit FlinkRestClient.told state.client.stage state.sends := by
  constructor
  · intro Value options parse state reached
    have lawful := UpstreamHttpClient.lawful options parse
    exact ⟨(lawful.attended reached).1,
      (UpstreamHttpClient.sendsBy options parse).accounted lawful reached⟩
  · intro Document Value options parse safeParse state slots queue reached
    have lawful := FlinkRestClient.lawful slots queue parse safeParse
    exact ⟨(lawful.attended reached).1,
      (FlinkRestClient.sendsBy options parse safeParse).accounted lawful reached⟩

/-- One body is too large, another one fails after its request was aborted. -/
theorem sends_accounted_failing :
    (∃ state : Traffic UpstreamHttpClient (Send UpstreamError ℕ),
      (state.sends 0).map Send.kept = some 0 ∧ (state.sends 1).map Send.kept = some 3 ∧
      ∃ rules, SendsAccounted rules 2 UpstreamHttpClient.told state.client.stage state.sends) ∧
    ∃ state : Traffic FlinkRestClient (Send FetchFailure ℕ),
      state.client.stage 0 = some (.answered (.error .timeout)) ∧
      ∃ rules, SendsAccounted rules 1 FlinkRestClient.told state.client.stage state.sends := by
  constructor
  · have run : ((UpstreamHttpClient.sending ⟨⟨false, some 2, some 1⟩, some 4⟩
        fun bytes : List UInt8 => some bytes.length).traffic.run (fun _ _ => True)
        (UpstreamHttpClient.sending ⟨⟨false, some 2, some 1⟩, some 4⟩
          fun bytes : List UInt8 => some bytes.length).traffic.init
        [.client (.getJson 0 (.ofNat 80) true), .client (.getJson 1 (.ofNat 80) true),
          .client (.resume 1), .client (.resume 0), .send 0 (.responded ⟨200, none, true⟩),
          .send 1 (.responded ⟨200, some (.ofNat 3), true⟩), .send 0 (.read (.chunk [1, 2])),
          .send 1 (.read (.chunk [1, 2, 3])), .send 0 (.read (.chunk [3, 4, 5])),
          .send 0 .discarded, .client (.sent 0 (.error (.upstream .malformed)))]).map
          (fun state => ((state.sends 0).map Send.kept, (state.sends 1).map Send.kept)) =
        some (some 0, some 3) := by
      decide +kernel
    rcases Option.map_eq_some_iff.mp run with ⟨state, ran, isRun⟩
    rw [Prod.mk.injEq] at isRun
    exact ⟨state, isRun.1, isRun.2, _,
      (sends_accounted.1 _ _ _ state (Machine.reachable_of_run ran)).2⟩
  · have run : ((FlinkRestClient.sending ⟨⟨some 1, some 0⟩, none⟩
        (fun bytes : List UInt8 => some bytes.length) some).traffic.run (fun _ _ => True)
        (FlinkRestClient.sending ⟨⟨some 1, some 0⟩, none⟩
          (fun bytes : List UInt8 => some bytes.length) some).traffic.init
        [.client (.get 0 (some false)), .client (.resume 0),
          .send 0 (.responded ⟨200, none, true⟩), .send 0 (.read (.chunk [1, 2])),
          .client (.externalAbort 0), .send 0 (.read (.failed false)),
          .client (.fetched 0 (.error .timeout))]).map
          (fun state => decide (state.client.stage 0 = some (.answered (.error .timeout)))) =
        some true := by
      decide +kernel
    rcases Option.map_eq_some_iff.mp run with ⟨state, ran, isRun⟩
    exact ⟨state, of_decide_eq_true isRun, _,
      (sends_accounted.2 _ _ _ _ _ state (by decide) (by decide)
        (Machine.reachable_of_run ran)).2⟩

end BelugaManager.DomainApi
