import BelugaManager.DomainApi.LakekeeperListing
import BelugaManager.Foundation.Races

/-!
# The registry of service adapters

`adapters/registry.ts` keeps one adapter for each id and lists their services.  The three calls to
an adapter race a deadline, and whatever one adapter does, it is only its own service that is
unknown.  `routes/services.ts` filters the listing and pages it.
-/

namespace BelugaManager.DomainApi

open Foundation Foundation.JsString

inductive CapabilityCategory where
  | streaming
  | processing
  | lakehouse
  | query
  | bi
  | orchestration
  | storage
  | observability
  deriving DecidableEq, Repr

structure ServiceKeyMetric where
  name : JsString
  value : JsString
  unit : Option JsString
  deriving DecidableEq

structure AdapterMetadata where
  endpoint : Option JsString
  capabilities : List JsString
  capabilityCategories : List CapabilityCategory
  namespaceName : Option JsString
  workloadRef : Option JsString
  keyMetrics : List ServiceKeyMetric
  dependencies : List JsString
  deriving DecidableEq

structure AdapterHealth where
  status : HealthStatus
  lastCheckedAt : JsString
  staleAfterMs : JsNumber
  deriving DecidableEq

/-- What is fixed when an adapter is registered. -/
structure ServiceIdentity where
  id : String
  name : JsString
  type : ServiceType
  deriving DecidableEq

structure RegisteredService extends ServiceIdentity, AdapterMetadata, AdapterHealth where
  version : Option JsString
  deriving DecidableEq

/-- An adapter, of which the calls are events. -/
structure ServiceAdapter extends ServiceIdentity where
  contractVersion : ℤ
  deriving DecidableEq

def SUPPORTED_ADAPTER_CONTRACT_VERSIONS : List ℤ := [1]

/-! ## Registration -/

inductive RegistrationError where
  | UnsupportedAdapterVersionError (adapterId : String) (contractVersion : ℤ)
  | DuplicateAdapterError (adapterId : String)
  deriving DecidableEq

abbrev ServiceAdapterRegistry := OrderedMap String ServiceIdentity

def register (registry : ServiceAdapterRegistry) (adapter : ServiceAdapter) :
    Except RegistrationError ServiceAdapterRegistry :=
  if adapter.contractVersion ∉ SUPPORTED_ADAPTER_CONTRACT_VERSIONS then
    .error (.UnsupportedAdapterVersionError adapter.id adapter.contractVersion)
  else if (registry.get? adapter.id).isSome then .error (.DuplicateAdapterError adapter.id)
  else .ok (registry.set adapter.id adapter.toServiceIdentity)

/-- The constructor registers its adapters one after the other. -/
def newRegistry (adapters : List ServiceAdapter) :
    Except RegistrationError ServiceAdapterRegistry :=
  adapters.foldlM register .empty

/-- An adapter has a contract that is supported. -/
def ServiceAdapter.Supported (adapter : ServiceAdapter) : Prop :=
  adapter.contractVersion ∈ SUPPORTED_ADAPTER_CONTRACT_VERSIONS

/-- What is wrong with an adapter that comes after others. -/
def registrationError? (before : List ServiceAdapter) (adapter : ServiceAdapter) :
    Option RegistrationError :=
  if adapter.contractVersion ∉ SUPPORTED_ADAPTER_CONTRACT_VERSIONS then
    some (.UnsupportedAdapterVersionError adapter.id adapter.contractVersion)
  else if before.any (·.id = adapter.id) then some (.DuplicateAdapterError adapter.id)
  else none

/-- The registry holds the adapters in order. -/
def Registers (registry : ServiceAdapterRegistry) (adapters : List ServiceAdapter) : Prop :=
  registry.entries = adapters.map fun adapter => (adapter.id, adapter.toServiceIdentity)

theorem Registers.register {registry : ServiceAdapterRegistry} {before : List ServiceAdapter}
    (registers : Registers registry before) (adapter : ServiceAdapter) :
    (∃ error, registrationError? before adapter = some error ∧
      DomainApi.register registry adapter = .error error) ∨
    registrationError? before adapter = none ∧
      ∃ next, DomainApi.register registry adapter = .ok next ∧
        Registers next (before ++ [adapter]) := by
  have known : (registry.get? adapter.id).isSome = true ↔
      before.any (·.id = adapter.id) = true := by
    rw [Option.isSome_iff_exists, ← OrderedMap.mem_keys_iff, OrderedMap.keys, registers,
      List.map_map, List.any_eq_true]
    simp [Function.comp_def]
  unfold DomainApi.register registrationError?
  by_cases unsupported : adapter.contractVersion ∉ SUPPORTED_ADAPTER_CONTRACT_VERSIONS
  · rw [if_pos unsupported, if_pos unsupported]
    exact Or.inl ⟨_, rfl, rfl⟩
  · rw [if_neg unsupported, if_neg unsupported]
    by_cases taken : before.any (·.id = adapter.id) = true
    · rw [if_pos taken, if_pos (known.mpr taken)]
      exact Or.inl ⟨_, rfl, rfl⟩
    · rw [if_neg taken, if_neg (fun isKnown => taken (known.mp isKnown))]
      have absent : registry.get? adapter.id = none := by
        rw [← Option.not_isSome_iff_eq_none, known]
        exact taken
      refine Or.inr ⟨rfl, _, rfl, ?_⟩
      rw [Registers, OrderedMap.entries_set_of_absent _ _ absent, registers, List.map_append]
      rfl

/-- All adapters can be registered. -/
structure Registrable (adapters : List ServiceAdapter) : Prop where
  supported : ∀ adapter ∈ adapters, adapter.Supported
  distinct : (adapters.map (·.id)).Nodup

theorem registrationError?_eq_none_iff (before : List ServiceAdapter) (adapter : ServiceAdapter) :
    registrationError? before adapter = none ↔
      adapter.Supported ∧ adapter.id ∉ before.map (·.id) := by
  have known : before.any (·.id = adapter.id) = true ↔ adapter.id ∈ before.map (·.id) := by
    simp
  rw [registrationError?, ServiceAdapter.Supported]
  by_cases supported : adapter.contractVersion ∈ SUPPORTED_ADAPTER_CONTRACT_VERSIONS
  · rw [if_neg (not_not_intro supported), ← known]
    by_cases taken : before.any (·.id = adapter.id) = true
    · simp [taken]
    · simp [taken, supported]
  · rw [if_pos supported]
    simp [supported]

theorem Registrable.concat {before : List ServiceAdapter} (registrable : Registrable before)
    {adapter : ServiceAdapter} (fine : registrationError? before adapter = none) :
    Registrable (before ++ [adapter]) := by
  rcases (registrationError?_eq_none_iff before adapter).mp fine with ⟨supported, fresh⟩
  constructor
  · intro other member
    rcases List.mem_append.mp member with earlier | last
    · exact registrable.supported other earlier
    · rw [List.mem_singleton.mp last]
      exact supported
  · rw [List.map_append, List.map_singleton, List.nodup_append_comm]
    exact List.nodup_cons.mpr ⟨fresh, registrable.distinct⟩

/-- The constructor fails. -/
structure Rejects (adapters : List ServiceAdapter) (error : RegistrationError) : Prop where
  result : newRegistry adapters = .error error
  first : ∃ before adapter after, adapters = before ++ adapter :: after ∧ Registrable before ∧
    registrationError? before adapter = some error

/-- The constructor stops at the first adapter with which something is wrong, or else all of them
are registered. -/
theorem newRegistry_cases (adapters : List ServiceAdapter) :
    (∃ error, Rejects adapters error) ∨
      Registrable adapters ∧
        ∃ registry, newRegistry adapters = .ok registry ∧ Registers registry adapters := by
  induction adapters using List.reverseRecOn with
  | nil =>
      exact Or.inr ⟨⟨fun _ member => absurd member List.not_mem_nil, List.nodup_nil⟩, _, rfl, rfl⟩
  | append_singleton adapters adapter ih =>
      have unfolded : newRegistry (adapters ++ [adapter]) =
          (newRegistry adapters).bind (register · adapter) := by
        rw [newRegistry, List.foldlM_append]
        simp only [List.foldlM_cons, List.foldlM_nil, bind_pure]
        rfl
      rcases ih with ⟨error, rejects⟩ | ⟨registrable, registry, built, registers⟩
      · rcases rejects.first with ⟨before, offender, after, rfl, fine, wrong⟩
        refine Or.inl ⟨error, ?_, before, offender, after ++ [adapter], ?_, fine, wrong⟩
        · rw [unfolded, rejects.result]
          rfl
        · rw [List.append_assoc, List.cons_append]
      · rw [built, Except.bind] at unfolded
        rcases registers.register adapter with ⟨error, wrong, failed⟩ | ⟨fine, next, added, holds⟩
        · exact Or.inl ⟨error, unfolded.trans failed, adapters, adapter, [], rfl, registrable,
            wrong⟩
        · exact Or.inr ⟨registrable.concat fine, next, unfolded.trans added, holds⟩

/-! ## The race of an adapter -/

structure Answers where
  metadata : Option AdapterMetadata
  version : Option (Option JsString)
  health : Option AdapterHealth

/-- What happens to the calls for one service.  A call that throws is a call that is rejected. -/
inductive AdapterEvent where
  | metadata (value : AdapterMetadata)
  | version (value : Option JsString)
  | health (value : AdapterHealth)
  | rejected
  | deadline

/-- A promise is fulfilled once. -/
def Answers.absorb (answers : Answers) : AdapterEvent → Answers
  | .metadata value => { answers with metadata := answers.metadata.or (some value) }
  | .version value => { answers with version := answers.version.or (some value) }
  | .health value => { answers with health := answers.health.or (some value) }
  | .rejected => answers
  | .deadline => answers

/-- What an adapter reports when all three calls have been answered. -/
structure Report where
  metadata : AdapterMetadata
  version : Option JsString
  health : AdapterHealth
  deriving DecidableEq

def Answers.report? (answers : Answers) : Option Report := do
  return {
    metadata := ← answers.metadata
    version := ← answers.version
    health := ← answers.health }

def AdapterEvent.isSetback : AdapterEvent → Bool
  | .rejected => true
  | .deadline => true
  | _ => false

/-- `Promise.race` of the three calls and the deadline; without a report the service is degraded. -/
def resolving : Race Answers AdapterEvent (Option Report) where
  absorb := Answers.absorb
  complete? answers := answers.report?.map some
  setback? event := if event.isSetback then some none else none

def Answers.none : Answers := ⟨.none, .none, .none⟩

def NEVER_CHECKED_AT : JsString := ofString "1970-01-01T00:00:00.000Z"

def reportedService (identity : ServiceIdentity) (report : Report) : RegisteredService where
  toServiceIdentity := identity
  version := report.version
  toAdapterMetadata := report.metadata
  toAdapterHealth := report.health

def unknownService (identity : ServiceIdentity) : RegisteredService where
  toServiceIdentity := identity
  version := none
  status := .unknown
  endpoint := none
  capabilities := []
  capabilityCategories := []
  namespaceName := none
  workloadRef := none
  keyMetrics := []
  dependencies := []
  lastCheckedAt := NEVER_CHECKED_AT
  staleAfterMs := .ofNat 0

/-- The service of an adapter once the race is over. -/
def resolve (identity : ServiceIdentity) : Racing Answers (Option Report) → Option RegisteredService
  | .waiting _ => none
  | .settled report => some (report.elim (unknownService identity) (reportedService identity))

def selectEntries (registry : ServiceAdapterRegistry) (type : Option ServiceType) :
    List ServiceIdentity :=
  (registry.entries.map Prod.snd).filter fun identity => type.all (identity.type = ·)

/-- The listing, as far as the events of a log have it come; the adapters are those that were
selected. -/
def listServices (registry : ServiceAdapterRegistry) (type : Option ServiceType)
    (log : List (ℕ × AdapterEvent)) : Option (List RegisteredService) :=
  let entries := selectEntries registry type
  let racing := interleave resolving.step (entries.map fun _ => .waiting .none) log
  (entries.zip racing).mapM fun entry => resolve entry.1 entry.2

/-- One service, as far as the events of its adapter have it come. -/
def getService (registry : ServiceAdapterRegistry) (id : String) (events : List AdapterEvent) :
    Option (Option RegisteredService) :=
  (registry.get? id).map fun identity =>
    resolve identity (events.foldl resolving.step (.waiting .none))

/-! ## How a race ends -/

def AdapterEvent.metadata? : AdapterEvent → Option AdapterMetadata
  | .metadata value => some value
  | _ => none

def AdapterEvent.version? : AdapterEvent → Option (Option JsString)
  | .version value => some value
  | _ => none

def AdapterEvent.health? : AdapterEvent → Option AdapterHealth
  | .health value => some value
  | _ => none

/-- The events before the first setback. -/
def calmEvents (events : List AdapterEvent) : List AdapterEvent :=
  events.takeWhile fun event => !event.isSetback

/-- The first answer to each call, if all calls are answered before the first setback. -/
def reportOf (events : List AdapterEvent) : Option Report := do
  let calm := calmEvents events
  return {
    metadata := ← calm.findSome? AdapterEvent.metadata?
    version := ← calm.findSome? AdapterEvent.version?
    health := ← calm.findSome? AdapterEvent.health? }

theorem foldl_absorb (events : List AdapterEvent) (answers : Answers) :
    events.foldl Answers.absorb answers =
      ⟨answers.metadata.or (events.findSome? AdapterEvent.metadata?),
        answers.version.or (events.findSome? AdapterEvent.version?),
        answers.health.or (events.findSome? AdapterEvent.health?)⟩ := by
  induction events generalizing answers with
  | nil => simp
  | cons event events ih =>
      rw [List.foldl_cons, ih]
      cases event <;>
        simp [Answers.absorb, AdapterEvent.metadata?, AdapterEvent.version?, AdapterEvent.health?,
          List.findSome?_cons]

theorem report?_eq_some_iff {answers : Answers} {report : Report} :
    answers.report? = some report ↔
      answers = ⟨some report.metadata, some report.version, some report.health⟩ := by
  rcases answers with ⟨metadata, version, health⟩
  rcases report with ⟨metadata', version', health'⟩
  cases metadata <;> cases version <;> cases health <;>
    simp [Answers.report?]

theorem resolving_stable : resolving.Stable := by
  intro answers event found complete
  rcases Option.map_eq_some_iff.mp complete with ⟨report, isReport, rfl⟩
  rw [report?_eq_some_iff] at isReport
  apply Option.map_eq_some_iff.mpr
  refine ⟨report, report?_eq_some_iff.mpr ?_, rfl⟩
  rw [isReport]
  cases event <;> rfl

/-- Where the events of an adapter take its race. -/
theorem outcome_resolving (events : List AdapterEvent) :
    (events.foldl resolving.step (.waiting .none) = .settled (reportOf events) ∧
      ((reportOf events).isSome ∨ ∃ event ∈ events, event.isSetback = true)) ∨
    ∃ answers, events.foldl resolving.step (.waiting .none) = .waiting answers ∧
      reportOf events = none ∧ ∀ event ∈ events, event.isSetback = false := by
  have calm : resolving.calm events = calmEvents events := by
    unfold Race.calm calmEvents
    congr 1
    funext event
    cases event <;> rfl
  have complete : resolving.complete? ((resolving.calm events).foldl resolving.absorb .none) =
      (reportOf events).map some := by
    rw [calm]
    exact congrArg (fun answers : Answers => answers.report?.map some)
      ((foldl_absorb (calmEvents events) .none).trans rfl)
  have setback : ∀ event, resolving.setback? event = if event.isSetback then some none else none :=
    fun _ => rfl
  rw [Race.foldl_step resolving_stable rfl, Race.outcome, complete]
  cases reported : reportOf events with
  | some report => exact Or.inl ⟨rfl, Or.inl rfl⟩
  | none =>
      by_cases quiet : ∀ event ∈ events, event.isSetback = false
      · have nothing : events.findSome? resolving.setback? = none := by
          rw [List.findSome?_eq_none_iff]
          intro event member
          rw [setback, quiet event member]
          rfl
        rw [nothing]
        exact Or.inr ⟨_, rfl, rfl, quiet⟩
      · push Not at quiet
        rcases quiet with ⟨event, member, isSetback⟩
        rw [ne_eq, Bool.not_eq_false] at isSetback
        have ended : events.findSome? resolving.setback? = some none := by
          cases found : events.findSome? resolving.setback? with
          | none =>
              rw [List.findSome?_eq_none_iff] at found
              have never := found event member
              rw [setback, isSetback] at never
              cases never
          | some result =>
              rcases List.exists_of_findSome?_eq_some found with ⟨other, _, isResult⟩
              rw [setback] at isResult
              split at isResult
              · rw [← isResult]
              · cases isResult
        rw [ended]
        exact Or.inl ⟨rfl, Or.inr ⟨event, member, isSetback⟩⟩

/-- The events of an adapter settle what is said about its service. -/
def Concluded (events : List AdapterEvent) : Prop :=
  (reportOf events).isSome ∨ ∃ event ∈ events, event.isSetback = true

/-- The service of an adapter to which all this happened. -/
def serviceOf (identity : ServiceIdentity) (events : List AdapterEvent) : RegisteredService :=
  (reportOf events).elim (unknownService identity) (reportedService identity)

theorem resolve_eq_some_iff (identity : ServiceIdentity) (events : List AdapterEvent)
    (service : RegisteredService) :
    resolve identity (events.foldl resolving.step (.waiting .none)) = some service ↔
      Concluded events ∧ service = serviceOf identity events := by
  rcases outcome_resolving events with ⟨settled, decided⟩ | ⟨answers, waiting, nothing, quiet⟩
  · rw [settled, resolve, Option.some_inj, eq_comm]
    exact (and_iff_right decided).symm
  · rw [waiting]
    constructor
    · intro resolved
      cases resolved
    · intro both
      rcases both.1 with reported | ⟨event, member, isSetback⟩
      · rw [nothing] at reported
        cases reported
      · rw [quiet event member] at isSetback
        cases isSetback

/-- What happens after a race makes no difference. -/
theorem resolve_append {identity : ServiceIdentity} {events : List AdapterEvent}
    {service : RegisteredService}
    (resolved : resolve identity (events.foldl resolving.step (.waiting .none)) = some service)
    (later : List AdapterEvent) :
    resolve identity ((events ++ later).foldl resolving.step (.waiting .none)) = some service := by
  rw [List.foldl_append]
  cases racing : events.foldl resolving.step (.waiting .none) with
  | waiting answers =>
      rw [racing] at resolved
      cases resolved
  | settled report =>
      rw [racing] at resolved
      rw [Race.foldl_settled]
      exact resolved

theorem mapIdx_map {α β γ : Type} (f : ℕ → β → γ) (g : α → β) (items : List α) :
    (items.map g).mapIdx f = items.mapIdx fun i item => f i (g item) := by
  rw [List.mapIdx_eq_iff]
  intro i
  rw [List.getElem?_mapIdx, List.getElem?_map, Option.map_map]
  rfl

theorem mapM_eq_some_iff {α β : Type} (f : α → Option β) (items : List α) (results : List β) :
    items.mapM f = some results ↔ items.map f = results.map some := by
  induction items generalizing results with
  | nil => cases results <;> simp
  | cons item items ih =>
      rw [List.mapM_cons, Option.bind_eq_bind, Option.bind_eq_some_iff]
      constructor
      · intro made
        rcases made with ⟨first, isFirst, made⟩
        rcases Option.bind_eq_some_iff.mp made with ⟨rest, isRest, same⟩
        cases same
        rw [List.map_cons, List.map_cons, isFirst, (ih rest).mp isRest]
      · intro same
        cases results with
        | nil => cases same
        | cons first rest =>
            rw [List.map_cons, List.map_cons, List.cons.injEq] at same
            exact ⟨first, same.1, Option.bind_eq_some_iff.mpr ⟨rest, (ih rest).mpr same.2, rfl⟩⟩

/-- A listing is there when everything about each of its services is decided. -/
theorem listServices_eq_some_iff (registry : ServiceAdapterRegistry) (type : Option ServiceType)
    (log : List (ℕ × AdapterEvent)) (services : List RegisteredService) :
    listServices registry type log = some services ↔
      (∀ i < (selectEntries registry type).length, Concluded (ownEvents i log)) ∧
        services = (selectEntries registry type).mapIdx fun i identity =>
          serviceOf identity (ownEvents i log) := by
  have parties : ((selectEntries registry type).zip (interleave resolving.step
      ((selectEntries registry type).map fun _ => .waiting .none) log)).map
        (fun entry => resolve entry.1 entry.2) =
      (selectEntries registry type).mapIdx fun i identity =>
        resolve identity ((ownEvents i log).foldl resolving.step (.waiting .none)) := by
    apply List.ext_getElem?
    intro i
    rw [List.getElem?_map, List.zip_eq_zipWith, List.getElem?_zipWith, getElem?_interleave,
      List.getElem?_map, List.getElem?_mapIdx]
    cases (selectEntries registry type)[i]? <;> rfl
  rw [listServices, mapM_eq_some_iff, parties]
  constructor
  · intro same
    have each : ∀ i identity, (selectEntries registry type)[i]? = some identity →
        ∃ service, services[i]? = some service ∧ Concluded (ownEvents i log) ∧
          service = serviceOf identity (ownEvents i log) := by
      intro i identity atIndex
      have resolved := congrArg (·[i]?) same
      rw [List.getElem?_mapIdx, atIndex, List.getElem?_map, Option.map_some, eq_comm,
        Option.map_eq_some_iff] at resolved
      rcases resolved with ⟨service, atService, isResolved⟩
      exact ⟨service, atService, (resolve_eq_some_iff identity _ service).mp isResolved.symm⟩
    have lengths := congrArg List.length same
    rw [List.length_mapIdx, List.length_map] at lengths
    constructor
    · intro i inside
      rcases each i _ (List.getElem?_eq_getElem inside) with ⟨_, _, decided, _⟩
      exact decided
    · apply List.ext_getElem?
      intro i
      rw [List.getElem?_mapIdx]
      cases atIndex : (selectEntries registry type)[i]? with
      | none =>
          rw [List.getElem?_eq_none_iff] at atIndex
          rw [Option.map_none, List.getElem?_eq_none_iff]
          omega
      | some identity =>
          rcases each i identity atIndex with ⟨service, atService, _, rfl⟩
          exact atService
  · intro listing
    rw [listing.2]
    apply List.ext_getElem?
    intro i
    rw [List.getElem?_mapIdx, List.getElem?_map, List.getElem?_mapIdx]
    cases atIndex : (selectEntries registry type)[i]? with
    | none => rfl
    | some identity =>
        have inside := (List.getElem?_eq_some_iff.mp atIndex).1
        have resolved := (resolve_eq_some_iff identity (ownEvents i log) _).mpr
          ⟨listing.1 i inside, rfl⟩
        exact congrArg some resolved

/-- The adapters that are asked for services of a type. -/
def chosen (adapters : List ServiceAdapter) (type : Option ServiceType) : List ServiceAdapter :=
  adapters.filter fun adapter => type.all (adapter.type = ·)

/-- What is known of the chosen adapters after a log, each judged by its own events. -/
def servicesAfter (adapters : List ServiceAdapter) (type : Option ServiceType)
    (log : List (ℕ × AdapterEvent)) : List RegisteredService :=
  (chosen adapters type).mapIdx fun i adapter =>
    serviceOf adapter.toServiceIdentity (ownEvents i log)

/-- Something is decided about every chosen adapter. -/
def AllConcluded (adapters : List ServiceAdapter) (type : Option ServiceType)
    (log : List (ℕ × AdapterEvent)) : Prop :=
  ∀ i < (chosen adapters type).length, Concluded (ownEvents i log)

instance (events : List AdapterEvent) : Decidable (Concluded events) :=
  inferInstanceAs (Decidable (_ ∨ _))

instance (adapters : List ServiceAdapter) (type : Option ServiceType)
    (log : List (ℕ × AdapterEvent)) : Decidable (AllConcluded adapters type log) :=
  inferInstanceAs (Decidable (∀ i < _, _))

theorem Registers.selectEntries_eq {registry : ServiceAdapterRegistry}
    {adapters : List ServiceAdapter} (registers : Registers registry adapters)
    (type : Option ServiceType) :
    selectEntries registry type = (chosen adapters type).map (·.toServiceIdentity) := by
  rw [selectEntries, registers, List.map_map, chosen, List.filter_map]
  rfl

theorem Registers.get? {registry : ServiceAdapterRegistry} {adapters : List ServiceAdapter}
    (registers : Registers registry adapters) {adapter : ServiceAdapter}
    (member : adapter ∈ adapters) : registry.get? adapter.id = some adapter.toServiceIdentity := by
  rw [OrderedMap.get?_eq_some_iff, registers]
  exact List.mem_map_of_mem member

theorem Registers.listServices_eq_some_iff {registry : ServiceAdapterRegistry}
    {adapters : List ServiceAdapter} (registers : Registers registry adapters)
    (type : Option ServiceType) (log : List (ℕ × AdapterEvent))
    (services : List RegisteredService) :
    listServices registry type log = some services ↔
      AllConcluded adapters type log ∧ services = servicesAfter adapters type log := by
  rw [DomainApi.listServices_eq_some_iff, registers.selectEntries_eq, List.length_map, mapIdx_map]
  rfl

/-- Events that come after the decision leave a service as it is. -/
theorem serviceOf_append {identity : ServiceIdentity} {events : List AdapterEvent}
    (decided : Concluded events) (later : List AdapterEvent) :
    Concluded (events ++ later) ∧
      serviceOf identity (events ++ later) = serviceOf identity events := by
  have settled := (resolve_eq_some_iff identity _ _).mpr ⟨decided, rfl⟩
  have stays := (resolve_eq_some_iff identity _ _).mp (resolve_append settled later)
  exact ⟨stays.1, stays.2.symm⟩

/-- Either the first adapter that is wrong stops the registration, or the registry lists one service
for each chosen adapter, in order: what the adapter reported before anything went wrong with it, or
an unknown service, whatever other adapters do and in whatever order.  A listing waits for nothing
else, later events do not change it, and single services are those of the listing. -/
theorem adapters_listed (adapters : List ServiceAdapter) :
    (∃ error, Rejects adapters error) ∨
      Registrable adapters ∧ ∃ registry, newRegistry adapters = .ok registry ∧
        ∀ type log,
          (∀ services, listServices registry type log = some services ↔
            AllConcluded adapters type log ∧ services = servicesAfter adapters type log) ∧
          (∀ services, listServices registry type log = some services →
            ∀ later, listServices registry type (log ++ later) = some services) ∧
          ∀ services i adapter, listServices registry type log = some services →
            (chosen adapters type)[i]? = some adapter →
              getService registry adapter.id (ownEvents i log) = some services[i]? := by
  rcases newRegistry_cases adapters with rejects | ⟨registrable, registry, built, registers⟩
  · exact Or.inl rejects
  · refine Or.inr ⟨registrable, registry, built, ?_⟩
    intro type log
    refine ⟨registers.listServices_eq_some_iff type log, ?_, ?_⟩
    · intro services listed later
      rw [registers.listServices_eq_some_iff] at listed ⊢
      have unchanged : ∀ i < (chosen adapters type).length, ∀ identity,
          Concluded (ownEvents i (log ++ later)) ∧
            serviceOf identity (ownEvents i (log ++ later)) =
              serviceOf identity (ownEvents i log) := by
        intro i inside identity
        rw [ownEvents_append]
        exact serviceOf_append (listed.1 i inside) _
      constructor
      · intro i inside
        exact (unchanged i inside ⟨"", [], .kafka⟩).1
      · rw [listed.2, servicesAfter, servicesAfter, List.mapIdx_eq_mapIdx_iff]
        intro i inside
        exact (unchanged i inside _).2.symm
    · intro services i adapter listed atIndex
      rw [registers.listServices_eq_some_iff] at listed
      have inside := (List.getElem?_eq_some_iff.mp atIndex).1
      have member : adapter ∈ adapters := (List.mem_filter.mp (List.mem_of_getElem? atIndex)).1
      rw [getService, registers.get? member, Option.map_some, listed.2, servicesAfter,
        List.getElem?_mapIdx, atIndex, Option.map_some]
      exact congrArg some ((resolve_eq_some_iff _ _ _).mpr ⟨listed.1 i inside, rfl⟩)

/-! ## The list route -/

def HealthStatus.text : HealthStatus → String
  | .healthy => "healthy"
  | .degraded => "degraded"
  | .stale => "stale"
  | .unknown => "unknown"
  | .unavailable => "unavailable"

def healthWarning (status : HealthStatus) (label : JsString) (serviceId : Option String) :
    Option ListWarning :=
  if status = .healthy then none
  else
    some {
      code := Text.upperAscii status.text
      message := label ++ ofString " status is " ++ ofString status.text
      serviceId := serviceId }

structure ServiceListQuery where
  page : ℕ
  pageSize : ℕ
  type : Option ServiceType
  status : Option HealthStatus

structure ServiceListEnvelope where
  data : List RegisteredService
  listMeta : ListMeta
  warnings : Option (List ListWarning)
  deriving DecidableEq

/-- The services of a status, of which a page is shown. -/
def withStatus (status : Option HealthStatus) (services : List RegisteredService) :
    List RegisteredService :=
  services.filter fun service => status.all (service.status = ·)

/-- The page of a listing. -/
def servicesPage (services : List RegisteredService) (query : ServiceListQuery) :
    ServiceListEnvelope :=
  let filtered := withStatus query.status services
  let (pageItems, total) := paginate filtered query.page query.pageSize
  let warnings := pageItems.filterMap fun service =>
    healthWarning service.status service.name (some service.id)
  ⟨pageItems, ⟨total, query.page, query.pageSize⟩, if warnings = [] then none else some warnings⟩

/-- The response to a query, as far as the events of a log have it come. -/
def listRouteOfServices (registry : ServiceAdapterRegistry) (query : ServiceListQuery)
    (log : List (ℕ × AdapterEvent)) : Option ServiceListEnvelope :=
  (listServices registry query.type log).map (servicesPage · query)

/-- The warnings of a page are about its services that are not healthy, in order. -/
theorem warned_services (services : List RegisteredService) (query : ServiceListQuery) :
    ((servicesPage services query).warnings.getD []).map (·.serviceId) =
      ((servicesPage services query).data.filter (·.status ≠ .healthy)).map fun service =>
        some service.id := by
  have warned : ∀ items : List RegisteredService,
      (items.filterMap fun service =>
        healthWarning service.status service.name (some service.id)).map (·.serviceId) =
      (items.filter (·.status ≠ .healthy)).map fun service => some service.id := by
    intro items
    induction items with
    | nil => rfl
    | cons service items ih =>
        by_cases healthy : service.status = .healthy
        · simpa [healthWarning, healthy] using ih
        · simpa [healthWarning, healthy] using ih
  have getD : ∀ warnings : List ListWarning,
      (if warnings = [] then none else some warnings).getD [] = warnings := by
    intro warnings
    split
    next empty => exact empty.symm
    next => rfl
  exact (congrArg _ (getD _)).trans (warned _)

/-- The pages show every service of the status once, each with the same total. -/
theorem pages_of_services (services : List RegisteredService) (type : Option ServiceType)
    (status : Option HealthStatus) {pageSize : ℕ} (positive : 0 < pageSize) :
    (List.range (((withStatus status services).length + pageSize - 1) / pageSize)).flatMap
        (fun i => (servicesPage services ⟨i + 1, pageSize, type, status⟩).data) =
      withStatus status services :=
  flatMap_pages (withStatus status services) positive

/-- In every run in which something is decided about every adapter, the route responds, and its
pages show what is known of each adapter once, with a warning for each service on the page that is
not healthy and for no other. -/
theorem services_paged (adapters : List ServiceAdapter) (registry : ServiceAdapterRegistry)
    (built : newRegistry adapters = .ok registry) (type : Option ServiceType)
    (status : Option HealthStatus) (log : List (ℕ × AdapterEvent))
    (decided : AllConcluded adapters type log) {pageSize : ℕ} (positive : 0 < pageSize) :
    ∃ pages : ℕ → ServiceListEnvelope,
      (∀ page, listRouteOfServices registry ⟨page + 1, pageSize, type, status⟩ log =
        some (pages page)) ∧
      (List.range (((withStatus status (servicesAfter adapters type log)).length + pageSize - 1) /
          pageSize)).flatMap (fun page => (pages page).data) =
        withStatus status (servicesAfter adapters type log) ∧
      ∀ page, (pages page).listMeta.total =
          (withStatus status (servicesAfter adapters type log)).length ∧
        ((pages page).warnings.getD []).map (·.serviceId) =
          ((pages page).data.filter (·.status ≠ .healthy)).map fun service => some service.id := by
  rcases newRegistry_cases adapters with ⟨error, rejects⟩ | ⟨_, other, otherBuilt, registers⟩
  · rw [rejects.result] at built
    cases built
  · rw [otherBuilt] at built
    cases built
    have listed := (registers.listServices_eq_some_iff type log _).mpr ⟨decided, rfl⟩
    refine ⟨fun page => servicesPage (servicesAfter adapters type log)
      ⟨page + 1, pageSize, type, status⟩, ?_, ?_, ?_⟩
    · intro page
      rw [listRouteOfServices, listed]
      rfl
    · exact pages_of_services _ type status positive
    · exact fun page => ⟨rfl, warned_services _ _⟩

/-- One adapter answers, the other does not. -/
def oneSilent : List ServiceAdapter :=
  [⟨⟨"svc-kafka", ofString "Kafka", .kafka⟩, 1⟩, ⟨⟨"svc-flink", ofString "Flink", .flink⟩, 1⟩]

def kafkaMetadata : AdapterMetadata := ⟨none, [], [.streaming], none, none, [], []⟩

def oneSilentLog : List (ℕ × AdapterEvent) :=
  [(1, .version none), (0, .health ⟨.healthy, ofString "2026-09-21T00:00:00.000Z", .ofNat 60000⟩),
    (0, .metadata kafkaMetadata), (1, .deadline), (0, .version (some (ofString "4.0"))),
    (1, .metadata kafkaMetadata)]

theorem services_paged_oneSilent :
    ∃ registry, newRegistry oneSilent = .ok registry ∧
      (servicesAfter oneSilent none oneSilentLog).map (·.status) = [.healthy, .unknown] ∧
      ∃ pages : ℕ → ServiceListEnvelope,
        ∀ page, listRouteOfServices registry ⟨page + 1, 1, none, none⟩ oneSilentLog =
          some (pages page) := by
  refine ⟨_, rfl, by decide, ?_⟩
  rcases services_paged oneSilent _ rfl none none oneSilentLog (by decide) one_pos with
    ⟨pages, responds, _⟩
  exact ⟨pages, responds⟩

end BelugaManager.DomainApi
