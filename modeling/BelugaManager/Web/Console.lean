import BelugaManager.DomainApi.AdapterRegistry
import BelugaManager.DomainApi.FlinkMapping
import BelugaManager.DomainApi.LakekeeperCatalog
import BelugaManager.Foundation.FirstOccurrences
import BelugaManager.Foundation.Machine
import BelugaManager.Web.InfraTopology

/-!
# The tabs of the console

`App.tsx` shows the view of one tab and keeps the target of the last link that was followed.  A view
keeps its own state until React replaces it, which it does when the tab or the key of the view
changes; the view of operations also reacts to the target itself.
-/

namespace BelugaManager.Web

open Foundation Foundation.JsString DomainApi

inductive TargetTab where
  | services
  | pipelines
  | operations
  deriving DecidableEq, Repr

/-- Where a link leads.  The name of a pipeline is text of its button. -/
structure EventNavigationTarget where
  tab : TargetTab
  id : JsString
  resource : Bool
  event : Bool
  deriving DecidableEq

def serviceTarget (id : JsString) : EventNavigationTarget := ⟨.services, id, false, false⟩

def pipelineTarget (id : JsString) : EventNavigationTarget := ⟨.pipelines, id, false, false⟩

def resourceTarget (id : JsString) : EventNavigationTarget := ⟨.operations, id, true, false⟩

def createEventFocusTarget (eventId : JsString) : EventNavigationTarget :=
  ⟨.operations, eventId, false, true⟩

structure Event where
  id : JsString
  /-- The parsed timestamp, if it is one. -/
  time : Option ℤ
  relatedServiceId : Option JsString
  relatedPipelineId : Option JsString
  relatedResourceId : Option JsString

/-- A resource with what it is related to. -/
structure LinkedResource extends Resource where
  relatedServiceId : Option JsString
  relatedPipelineId : Option JsString
  relatedEventIds : List JsString

structure DecisionRecord where
  id : JsString
  relatedServiceId : Option JsString
  relatedPipelineId : Option JsString
  relatedResourceId : Option JsString

/-- The target of an optional id; an empty id counts as none. -/
def targetOf (target : JsString → EventNavigationTarget) (id : Option JsString) :
    List EventNavigationTarget :=
  ((id.filter (· ≠ [])).map target).toList

def getResourceNavigationTargets (resource : LinkedResource) : List EventNavigationTarget :=
  targetOf serviceTarget resource.relatedServiceId ++
    targetOf pipelineTarget resource.relatedPipelineId ++
      resource.relatedEventIds.map createEventFocusTarget

def getEventNavigationTargets (event : Event) : List EventNavigationTarget :=
  targetOf serviceTarget event.relatedServiceId ++
    targetOf pipelineTarget event.relatedPipelineId ++
      targetOf resourceTarget event.relatedResourceId

def getDecisionNavigationTargets (record : DecisionRecord) : List EventNavigationTarget :=
  targetOf resourceTarget record.relatedResourceId ++
    targetOf serviceTarget record.relatedServiceId ++
      targetOf pipelineTarget record.relatedPipelineId

def getInfraResourceTarget (resource : LinkedResource) : EventNavigationTarget :=
  resourceTarget resource.id

def getStageNavigationTargets (serviceId : JsString) (serviceIds : List JsString)
    (pipelines : List PipelineCandidate) (preferredPipelineId : Option JsString) :
    List EventNavigationTarget :=
  let matchedPipelines := pipelines.filter (·.stages.any (·.serviceId = serviceId))
  let orderedPipelines := match preferredPipelineId.filter (· ≠ []) with
    | some id => matchedPipelines.filter (·.id = id) ++ matchedPipelines.filter (·.id ≠ id)
    | none => matchedPipelines
  (if serviceIds.any (· = serviceId) then [serviceTarget serviceId] else []) ++
    (firsts PipelineCandidate.id orderedPipelines).map (pipelineTarget ·.id)

/-- The newest first; what has no time comes last. -/
def compareNewest (a b : Event) : ℤ :=
  match a.time, b.time with
  | some timeA, some timeB => timeB - timeA
  | some _, none => -1
  | none, some _ => 1
  | none, none => 0

def sortEventsByTimestampDesc (events : List Event) : List Event := Text.sortBy compareNewest events

def selectRecentEvents (events : List Event) (limit : ℤ) : List Event :=
  (sortEventsByTimestampDesc events).take (max 0 limit).toNat

/-! ## Views and their state -/

inductive Tab where
  | overview
  | services
  | pipelines
  | architecture
  | operations
  | catalog
  | query
  | policy
  deriving DecidableEq, Repr

def TargetTab.tab : TargetTab → Tab
  | .services => .services
  | .pipelines => .pipelines
  | .operations => .operations

structure ServicesState where
  searchTerm : JsString
  /-- None for all types. -/
  selectedType : Option ServiceType

structure PipelinesState where
  selectedPipelineId : Option JsString

inductive OperationsSection where
  | events
  | resources
  | decisions
  deriving DecidableEq, Repr

structure OperationsState where
  shownSection : OperationsSection
  kindFilter : Option ResourceKind
  eventFocusId : Option JsString

structure QueryState where
  selectedAssetId : Option JsString

/-- The view that is shown, with its state; that of the other views plays no part here. -/
inductive View where
  | overview
  | services (state : ServicesState)
  | pipelines (state : PipelinesState)
  | architecture
  | operations (state : OperationsState)
  | catalog
  | query (state : QueryState)
  | policy

def View.tab : View → Tab
  | .overview => .overview
  | .services _ => .services
  | .pipelines _ => .pipelines
  | .architecture => .architecture
  | .operations _ => .operations
  | .catalog => .catalog
  | .query _ => .query
  | .policy => .policy

/-- The state of the application. -/
structure AppState where
  currentTab : Tab
  eventTarget : Option EventNavigationTarget
  queryTarget : Option JsString

namespace AppState

variable (app : AppState)

def initialServiceId : Option JsString := (app.eventTarget.filter (·.tab = .services)).map (·.id)

def initialPipelineId : Option JsString := (app.eventTarget.filter (·.tab = .pipelines)).map (·.id)

def initialResourceId : Option JsString := (app.eventTarget.filter (·.resource)).map (·.id)

def initialEventId : Option JsString := (app.eventTarget.filter (·.event)).map (·.id)

/-- The key of the view of the current tab. -/
def key : JsString :=
  match app.currentTab with
  | .services | .pipelines | .operations => (app.eventTarget.map (·.id)).getD []
  | .query => app.queryTarget.getD (ofString "preset")
  | _ => []

end AppState

/-- The effect of the view of operations. -/
def OperationsState.focus (state : OperationsState) (app : AppState) : OperationsState :=
  let shown := if (app.initialResourceId.filter (· ≠ [])).isSome then
      { state with shownSection := .resources }
    else state
  match app.initialEventId.filter (· ≠ []) with
  | some id => { shown with eventFocusId := some id, shownSection := .events }
  | none => shown

def OperationsState.start (app : AppState) : OperationsState where
  shownSection :=
    if (app.initialResourceId.filter (· ≠ [])).isSome then .resources else .events
  kindFilter := none
  eventFocusId := app.initialEventId

/-- A new view, after its effects. -/
def AppState.start (app : AppState) : View :=
  match app.currentTab with
  | .overview => .overview
  | .services => .services ⟨app.initialServiceId.getD [], none⟩
  | .pipelines => .pipelines ⟨app.initialPipelineId⟩
  | .architecture => .architecture
  | .operations => .operations ((OperationsState.start app).focus app)
  | .catalog => .catalog
  | .query => .query ⟨app.queryTarget⟩
  | .policy => .policy

/-- A view that stays runs its effect if what that depends on has changed. -/
def View.rerun (view : View) (before app : AppState) : View :=
  match view with
  | .operations state =>
      if before.initialResourceId = app.initialResourceId ∧
          before.initialEventId = app.initialEventId then view
      else .operations (state.focus app)
  | _ => view

/-- The view after the application has changed its state. -/
def View.render (view : View) (before app : AppState) : View :=
  if before.currentTab = app.currentTab ∧ before.key = app.key then view.rerun before app
  else app.start

/-- The items that the queries of the console have. -/
structure ConsoleData where
  services : List RegisteredService
  pipelines : List PipelineCandidate
  events : List Event
  resources : List LinkedResource
  decisions : List DecisionRecord
  assets : List DataAsset

/-- No item has an empty id, nor is related to one. -/
structure ConsoleData.Named (data : ConsoleData) : Prop where
  pipelines : ∀ pipeline ∈ data.pipelines, pipeline.id ≠ []
  services : ∀ service ∈ data.services, ofString service.id ≠ []
  events : ∀ event ∈ data.events, event.id ≠ []
  related : ∀ resource ∈ data.resources, ∀ id ∈ resource.relatedEventIds, id ≠ []

structure Console where
  app : AppState
  data : ConsoleData
  view : View

/-- What a person does in the view that is shown. -/
inductive ViewEvent where
  | setSearchTerm (term : JsString)
  | setSelectedType (type : Option ServiceType)
  | setSelectedPipelineId (id : JsString)
  | showEvents
  | showResources
  | showDecisions
  | setKindFilter (kind : Option ResourceKind)
  | setSelectedAssetId (id : JsString)

inductive ConsoleEvent where
  | navigateToTab (tab : Tab)
  | navigateToEventTarget (target : EventNavigationTarget)
  | navigateToCatalogQuery (assetId : JsString)
  | refresh (data : ConsoleData)
  | act (event : ViewEvent)

/-- The view after an event that it has a control for. -/
def View.act : View → ViewEvent → Option View
  | .services state, .setSearchTerm term => some (.services { state with searchTerm := term })
  | .services state, .setSelectedType type => some (.services { state with selectedType := type })
  | .pipelines _, .setSelectedPipelineId id => some (.pipelines ⟨some id⟩)
  | .operations state, .showEvents =>
      some (.operations { state with eventFocusId := none, shownSection := .events })
  | .operations state, .showResources =>
      some (.operations { state with shownSection := .resources })
  | .operations state, .showDecisions =>
      some (.operations { state with shownSection := .decisions })
  | .operations state, .setKindFilter kind => some (.operations { state with kindFilter := kind })
  | .query _, .setSelectedAssetId id => some (.query ⟨some id⟩)
  | _, _ => none

namespace Console

variable (console : Console)

/-- The console after the application has changed its state. -/
def become (app : AppState) : Console :=
  { console with app := app, view := console.view.render console.app app }

def step : ConsoleEvent → Option Console
  | .navigateToTab tab => some (console.become ⟨tab, none, none⟩)
  | .navigateToEventTarget target =>
      some (console.become
        { console.app with eventTarget := some target, currentTab := target.tab.tab })
  | .navigateToCatalogQuery assetId =>
      some (console.become { console.app with queryTarget := some assetId, currentTab := .query })
  | .refresh data => some { console with data := data }
  | .act event => (console.view.act event).map fun view => { console with view := view }

end Console

/-! ### What is on the screen -/

section Screen

variable (toLowerCase : JsString → JsString)

def matchesSearch (searchTerm : JsString) (service : RegisteredService) : Bool :=
  let search := toLowerCase searchTerm
  let found (text : JsString) : Bool := search <:+: toLowerCase text
  found service.name || found (ofString service.id) || service.endpoint.any found ||
    service.capabilities.any found

def ServicesState.filteredServices (state : ServicesState) (services : List RegisteredService) :
    List RegisteredService :=
  services.filter fun service =>
    matchesSearch toLowerCase state.searchTerm service &&
      state.selectedType.all (service.type = ·)

def PipelinesState.selectedPipeline (state : PipelinesState) (pipelines : List PipelineCandidate) :
    Option PipelineCandidate :=
  match state.selectedPipelineId with
  | none => pipelines.head?
  | some id => pipelines.find? (·.id = id)

/-- The events of the view of operations, in any order. -/
def OperationsState.events (state : OperationsState) (events : List Event) : List Event :=
  events.filter fun event => (state.eventFocusId.filter (· ≠ [])).all (event.id = ·)

def OperationsState.resources (state : OperationsState) (resources : List LinkedResource) :
    List LinkedResource :=
  resources.filter fun resource => state.kindFilter.all (resource.kind = ·)

/-- The asset whose context the query workspace asks for. -/
def QueryState.activeAssetId (state : QueryState) (assets : List DataAsset) : Option JsString :=
  let tableAssets := assets.filter (·.kind = .table)
  let isKnown (id : JsString) : Bool := tableAssets.any (·.id = id)
  if state.selectedAssetId.any isKnown then state.selectedAssetId
  else tableAssets.head?.map (·.id)

/-- The links on the screen.  The architecture keeps stages and resources that it has shown. -/
inductive Offers (console : Console) : EventNavigationTarget → Prop where
  | recent {event : Event} (isShown : console.view = .overview)
      (listed : event ∈ selectRecentEvents console.data.events 5) :
      Offers console (createEventFocusTarget event.id)
  | stage {target : EventNavigationTarget} (isShown : console.view = .architecture)
      (serviceId : JsString) (preferred : Option JsString)
      (listed : target ∈ getStageNavigationTargets serviceId
        (console.data.services.map (ofString ·.id)) console.data.pipelines preferred) :
      Offers console target
  | infrastructure (isShown : console.view = .architecture) (resource : LinkedResource)
      (named : resource.id ≠ []) : Offers console (getInfraResourceTarget resource)
  | event {state : OperationsState} {event : Event} {target : EventNavigationTarget}
      (isShown : console.view = .operations state) (isSection : state.shownSection = .events)
      (listed : event ∈ state.events console.data.events)
      (offered : target ∈ getEventNavigationTargets event) : Offers console target
  | resource {state : OperationsState} {resource : LinkedResource} {target : EventNavigationTarget}
      (isShown : console.view = .operations state) (isSection : state.shownSection = .resources)
      (listed : resource ∈ state.resources console.data.resources)
      (offered : target ∈ getResourceNavigationTargets resource) : Offers console target
  | decision {state : OperationsState} {record : DecisionRecord} {target : EventNavigationTarget}
      (isShown : console.view = .operations state) (isSection : state.shownSection = .decisions)
      (listed : record ∈ console.data.decisions)
      (offered : target ∈ getDecisionNavigationTargets record) : Offers console target

/-- Where a link leads is on the screen: the service among those that are listed, the pipeline or
that there is none, the events with the id, or the resources with the id, marked. -/
def Console.Shows (console : Console) (target : EventNavigationTarget) : Prop :=
  match target.tab with
  | .services => ∃ state, console.view = .services state ∧ ∀ service ∈ console.data.services,
      ofString service.id = target.id →
        service ∈ state.filteredServices toLowerCase console.data.services
  | .pipelines => ∃ state, console.view = .pipelines state ∧
      state.selectedPipeline console.data.pipelines =
        console.data.pipelines.find? (·.id = target.id)
  | .operations => ∃ state, console.view = .operations state ∧
      if target.event then state.shownSection = .events ∧
        state.events console.data.events = console.data.events.filter (·.id = target.id)
      else state.shownSection = .resources ∧ console.app.initialResourceId = some target.id ∧
        ∀ resource ∈ console.data.resources, resource.id = target.id →
          resource ∈ state.resources console.data.resources

end Screen

namespace Console

/-- What can happen: links on the screen are followed, the catalog hands over assets, and data comes
as its schemas have it. -/
def Allowed (console : Console) : ConsoleEvent → Prop
  | .navigateToEventTarget target => Offers console target
  | .navigateToCatalogQuery _ => console.view = .catalog
  | .refresh data => data.Named
  | _ => True

/-- The console as it is opened, before its queries have anything. -/
def machine : Machine Console ConsoleEvent where
  init := ⟨⟨.overview, none, none⟩, ⟨[], [], [], [], [], []⟩, .overview⟩
  step := step

end Console

/-! ## Targets of links -/

/-- The targets that links have. -/
inductive Aimed : EventNavigationTarget → Prop where
  | service {id : JsString} (named : id ≠ []) : Aimed (serviceTarget id)
  | pipeline {id : JsString} (named : id ≠ []) : Aimed (pipelineTarget id)
  | resource {id : JsString} (named : id ≠ []) : Aimed (resourceTarget id)
  | event {id : JsString} (named : id ≠ []) : Aimed (createEventFocusTarget id)

theorem Aimed.named {target : EventNavigationTarget} (aimed : Aimed target) : target.id ≠ [] := by
  cases aimed with
  | service named => exact named
  | pipeline named => exact named
  | resource named => exact named
  | event named => exact named

theorem mem_targetOf {aim : JsString → EventNavigationTarget} {id : Option JsString}
    {target : EventNavigationTarget} :
    target ∈ targetOf aim id ↔ ∃ named, id = some named ∧ named ≠ [] ∧ aim named = target := by
  simp only [targetOf, Option.mem_toList, Option.map_eq_some_iff, Option.filter_eq_some_iff,
    decide_eq_true_eq, and_assoc]

theorem aimed_of_mem_targetOf {aim : JsString → EventNavigationTarget} {id : Option JsString}
    {target : EventNavigationTarget} (aims : ∀ named, named ≠ [] → Aimed (aim named))
    (listed : target ∈ targetOf aim id) : Aimed target := by
  rcases mem_targetOf.mp listed with ⟨named, _, nonempty, rfl⟩
  exact aims named nonempty

theorem aimed_of_stage {serviceId : JsString} {data : ConsoleData} (named : data.Named)
    {preferred : Option JsString} {target : EventNavigationTarget}
    (listed : target ∈ getStageNavigationTargets serviceId (data.services.map (ofString ·.id))
      data.pipelines preferred) : Aimed target := by
  rcases List.mem_append.mp listed with isService | isPipeline
  · split_ifs at isService with known
    · rcases List.any_eq_true.mp known with ⟨id, listed, same⟩
      rcases List.mem_map.mp listed with ⟨service, member, rfl⟩
      rw [List.mem_singleton.mp isService, ← of_decide_eq_true same]
      exact .service (named.services service member)
    · exact absurd isService List.not_mem_nil
  · rcases List.mem_map.mp isPipeline with ⟨pipeline, first, rfl⟩
    have ordered := (firsts_sublist _ _).subset first
    have member : pipeline ∈ data.pipelines := by
      cases isPreferred : preferred.filter (· ≠ []) with
      | none =>
          simp only [isPreferred] at ordered
          exact List.mem_of_mem_filter ordered
      | some id =>
          simp only [isPreferred] at ordered
          rcases List.mem_append.mp ordered with isPreferred | other
          · exact List.mem_of_mem_filter (List.mem_of_mem_filter isPreferred)
          · exact List.mem_of_mem_filter (List.mem_of_mem_filter other)
    exact .pipeline (named.pipelines pipeline member)

theorem Offers.aimed {console : Console} (named : console.data.Named)
    {target : EventNavigationTarget} (offers : Offers console target) : Aimed target := by
  cases offers with
  | @recent event _ listed =>
      have member := List.mem_of_mem_take listed
      rw [sortEventsByTimestampDesc, Text.mem_sortBy] at member
      exact .event (named.events event member)
  | stage _ serviceId preferred listed => exact aimed_of_stage named listed
  | infrastructure _ resource filled => exact .resource filled
  | event _ _ _ offered =>
      rcases List.mem_append.mp offered with first | isResource
      · rcases List.mem_append.mp first with isService | isPipeline
        · exact aimed_of_mem_targetOf (fun _ => .service) isService
        · exact aimed_of_mem_targetOf (fun _ => .pipeline) isPipeline
      · exact aimed_of_mem_targetOf (fun _ => .resource) isResource
  | @resource _ resource _ _ _ listed offered =>
      rcases List.mem_append.mp offered with first | isEvent
      · rcases List.mem_append.mp first with isService | isPipeline
        · exact aimed_of_mem_targetOf (fun _ => .service) isService
        · exact aimed_of_mem_targetOf (fun _ => .pipeline) isPipeline
      · rcases List.mem_map.mp isEvent with ⟨id, related, rfl⟩
        exact .event (named.related resource (List.mem_of_mem_filter listed) id related)
  | decision _ _ _ offered =>
      rcases List.mem_append.mp offered with first | isPipeline
      · rcases List.mem_append.mp first with isResource | isService
        · exact aimed_of_mem_targetOf (fun _ => .resource) isResource
        · exact aimed_of_mem_targetOf (fun _ => .service) isService
      · exact aimed_of_mem_targetOf (fun _ => .pipeline) isPipeline

/-- Views with links are those of the overview, the architecture and operations. -/
theorem Offers.tab {console : Console} {target : EventNavigationTarget}
    (offers : Offers console target) : console.view.tab = .overview ∨
      console.view.tab = .architecture ∨ console.view.tab = .operations := by
  cases offers with
  | recent isShown => exact .inl (congrArg View.tab isShown)
  | stage isShown => exact .inr (.inl (congrArg View.tab isShown))
  | infrastructure isShown => exact .inr (.inl (congrArg View.tab isShown))
  | event isShown => exact .inr (.inr (congrArg View.tab isShown))
  | resource isShown => exact .inr (.inr (congrArg View.tab isShown))
  | decision isShown => exact .inr (.inr (congrArg View.tab isShown))

/-! ## What holds in every run -/

/-- The view is that of the current tab, and a target is kept only while its tab is open. -/
structure Console.Steady (console : Console) : Prop where
  named : console.data.Named
  shown : console.view.tab = console.app.currentTab
  aimed : ∀ target, console.app.eventTarget = some target →
    Aimed target ∧ console.app.currentTab = target.tab.tab
  handed : ∀ id, console.app.queryTarget = some id → console.app.currentTab = .query

theorem AppState.start_tab (app : AppState) : app.start.tab = app.currentTab := by
  rw [AppState.start]
  cases app.currentTab <;> rfl

theorem View.render_tab {view : View} {before : AppState} (shown : view.tab = before.currentTab)
    (app : AppState) : (view.render before app).tab = app.currentTab := by
  rw [View.render]
  split_ifs with stays
  · rw [← stays.1, ← shown]
    cases view with
    | operations state =>
        rw [View.rerun]
        split_ifs <;> rfl
    | _ => rfl
  · exact app.start_tab

theorem View.act_tab {view next : View} {event : ViewEvent} (acted : view.act event = some next) :
    next.tab = view.tab := by
  unfold View.act at acted
  split at acted
  all_goals cases acted
  all_goals rfl

namespace Console

theorem Steady.become {console : Console} (steady : console.Steady) (app : AppState)
    (aimed : ∀ target, app.eventTarget = some target →
      Aimed target ∧ app.currentTab = target.tab.tab)
    (handed : ∀ id, app.queryTarget = some id → app.currentTab = .query) :
    (console.become app).Steady :=
  ⟨steady.named, View.render_tab steady.shown app, aimed, handed⟩

theorem Steady.step {console next : Console} {event : ConsoleEvent} (steady : console.Steady)
    (allowed : console.Allowed event) (stepped : console.step event = some next) :
    next.Steady := by
  cases event with
  | navigateToTab tab =>
      cases stepped
      apply steady.become
      · exact fun _ kept => absurd kept.symm (Option.some_ne_none _)
      · exact fun _ kept => absurd kept.symm (Option.some_ne_none _)
  | navigateToEventTarget target =>
      cases stepped
      apply steady.become
      · rintro other same
        cases same
        exact ⟨Offers.aimed steady.named allowed, rfl⟩
      · -- links are on other views than that of a query
        intro id kept
        have queried := steady.shown.trans (steady.handed id kept)
        rcases Offers.tab allowed with isTab | isTab | isTab
        · exact absurd (isTab.symm.trans queried) (by decide)
        · exact absurd (isTab.symm.trans queried) (by decide)
        · exact absurd (isTab.symm.trans queried) (by decide)
  | navigateToCatalogQuery assetId =>
      cases stepped
      have view : console.view = .catalog := allowed
      apply steady.become
      · intro target kept
        have atTarget := steady.shown.trans (steady.aimed target kept).2
        rw [view] at atTarget
        exact absurd atTarget (by cases target.tab <;> decide)
      · exact fun _ _ => rfl
  | refresh data =>
      cases stepped
      exact ⟨allowed, steady.shown, steady.aimed, steady.handed⟩
  | act event =>
      rcases Option.map_eq_some_iff.mp stepped with ⟨view, acted, rfl⟩
      exact ⟨steady.named, (View.act_tab acted).trans steady.shown, steady.aimed, steady.handed⟩

theorem steady_of_reachable {console : Console}
    (reached : machine.Reachable Allowed console) : console.Steady := by
  refine reached.invariant Steady ?_ fun _ _ _ steady allowed stepped => steady.step allowed stepped
  refine ⟨⟨?_, ?_, ?_, ?_⟩, rfl, ?_, ?_⟩
  · exact List.forall_mem_nil _
  · exact List.forall_mem_nil _
  · exact List.forall_mem_nil _
  · exact List.forall_mem_nil _
  · exact fun _ kept => absurd kept.symm (Option.some_ne_none _)
  · exact fun _ kept => absurd kept.symm (Option.some_ne_none _)

end Console

/-! ## Following a link -/

section Follow

variable (toLowerCase : JsString → JsString)

theorem matchesSearch_id {service : RegisteredService} {id : JsString}
    (same : ofString service.id = id) : matchesSearch toLowerCase id service = true := by
  have found : toLowerCase id <:+: toLowerCase (ofString service.id) := by
    rw [same]
  simp [matchesSearch, found]

theorem OperationsState.events_focused {state : OperationsState} {id : JsString} (named : id ≠ [])
    (focused : state.eventFocusId = some id) (events : List Event) :
    state.events events = events.filter (·.id = id) := by
  simp [OperationsState.events, focused, named]

theorem filter_filled {id : JsString} (named : id ≠ []) : (some id).filter (· ≠ []) = some id := by
  simp [Option.filter, named]

theorem OperationsState.focus_event {state : OperationsState} {id : JsString} (named : id ≠ [])
    {tab : Tab} {query : Option JsString} :
    state.focus ⟨tab, some (createEventFocusTarget id), query⟩ =
      { state with eventFocusId := some id, shownSection := .events } := by
  have noResource : (⟨tab, some (createEventFocusTarget id), query⟩ : AppState).initialResourceId =
      none := rfl
  have isEvent : (⟨tab, some (createEventFocusTarget id), query⟩ : AppState).initialEventId =
      some id := rfl
  simp only [OperationsState.focus, noResource, isEvent, filter_filled named]
  rfl

theorem OperationsState.focus_resource {state : OperationsState} {id : JsString} (named : id ≠ [])
    {tab : Tab} {query : Option JsString} :
    state.focus ⟨tab, some (resourceTarget id), query⟩ =
      { state with shownSection := .resources } := by
  have isResource : (⟨tab, some (resourceTarget id), query⟩ : AppState).initialResourceId =
      some id := rfl
  have noEvent : (⟨tab, some (resourceTarget id), query⟩ : AppState).initialEventId = none := rfl
  simp only [OperationsState.focus, isResource, noEvent, filter_filled named]
  rfl

/-- A view that is opened for a target shows it. -/
theorem shows_start {target : EventNavigationTarget} (aimed : Aimed target)
    (query : Option JsString) (data : ConsoleData) :
    (⟨⟨target.tab.tab, some target, query⟩, data,
      (⟨target.tab.tab, some target, query⟩ : AppState).start⟩ : Console).Shows
        toLowerCase target := by
  cases aimed with
  | @service id =>
      refine ⟨⟨id, none⟩, rfl, ?_⟩
      intro service member same
      have found : matchesSearch toLowerCase id service = true := matchesSearch_id toLowerCase same
      exact List.mem_filter.mpr ⟨member, by simp [found]⟩
  | @pipeline id => exact ⟨⟨some id⟩, rfl, rfl⟩
  | @resource id named =>
      refine ⟨_, rfl, ?_⟩
      rw [OperationsState.focus_resource named]
      refine ⟨rfl, rfl, ?_⟩
      intro resource member _
      simp [OperationsState.resources, OperationsState.start, member]
  | @event id named =>
      refine ⟨_, rfl, ?_⟩
      rw [OperationsState.focus_event named]
      exact ⟨rfl, OperationsState.events_focused named rfl data.events⟩

/-- The view of a link is open already, for a target with the same id. -/
def Console.Revisits (console : Console) (target : EventNavigationTarget) : Prop :=
  console.app.currentTab = target.tab.tab ∧
    console.app.eventTarget.map (·.id) = some target.id

/-- What a view that is open for the id of a link shows once the link is followed: nothing new if it
was opened by that link, and resources as far as its filter has them. -/
def Console.Reopens (console : Console) (target : EventNavigationTarget) : Prop :=
  if console.app.eventTarget = some target then console.Shows toLowerCase target
  else target.resource = true → ∀ state, console.view = .operations state →
    ∀ resource ∈ console.data.resources, resource.id = target.id →
      resource ∈ state.resources console.data.resources

/-- On the tab of a target the key of the view is the id of the target that is kept. -/
theorem AppState.key_of_tab {app : AppState} {tab : TargetTab} (isTab : app.currentTab = tab.tab) :
    app.key = (app.eventTarget.map (·.id)).getD [] := by
  rw [AppState.key, isTab]
  cases tab <;> rfl

/-- A view that was not open for the id of a target is replaced. -/
theorem render_start {console : Console} {target : EventNavigationTarget}
    (named : target.id ≠ []) (other : ¬console.Revisits target) (query : Option JsString) :
    console.view.render console.app ⟨target.tab.tab, some target, query⟩ =
      (⟨target.tab.tab, some target, query⟩ : AppState).start := by
  refine if_neg ?_
  rintro ⟨sameTab, sameKey⟩
  have isTab : console.app.currentTab = target.tab.tab := sameTab
  rw [AppState.key_of_tab isTab, @AppState.key_of_tab _ target.tab rfl] at sameKey
  cases last : console.app.eventTarget with
  | none =>
      rw [last] at sameKey
      exact named sameKey.symm
  | some earlier =>
      rw [last] at sameKey
      exact other ⟨isTab, by rw [last]; exact congrArg some sameKey⟩

theorem render_rerun {console : Console} {target : EventNavigationTarget}
    (again : console.Revisits target) (query : Option JsString) :
    console.view.render console.app ⟨target.tab.tab, some target, query⟩ =
      console.view.rerun console.app ⟨target.tab.tab, some target, query⟩ := by
  refine if_pos ⟨again.1, ?_⟩
  rw [AppState.key_of_tab again.1, @AppState.key_of_tab _ target.tab rfl, again.2]
  rfl

theorem TargetTab.eq_operations {tab : TargetTab} (same : tab.tab = .operations) :
    tab = .operations := by
  cases tab with
  | operations => rfl
  | services => exact Tab.noConfusion same
  | pipelines => exact Tab.noConfusion same

/-- Links that lead to the tab they are on are links of the view of operations. -/
theorem Offers.operations {console : Console} (steady : console.Steady)
    {target : EventNavigationTarget} (offers : Offers console target)
    (again : console.Revisits target) :
    target.tab = .operations ∧ ∃ state, console.view = .operations state := by
  have isTab := steady.shown.trans again.1
  rcases offers.tab with other | other | operations
  · exact absurd (other.symm.trans isTab) (by cases target.tab <;> decide)
  · exact absurd (other.symm.trans isTab) (by cases target.tab <;> decide)
  · refine ⟨TargetTab.eq_operations (isTab.symm.trans operations), ?_⟩
    cases view : console.view with
    | operations state => exact ⟨state, rfl⟩
    | _ =>
        rw [view] at operations
        exact Tab.noConfusion operations

theorem View.rerun_self (view : View) (app : AppState) : view.rerun app app = view := by
  cases view with
  | operations state => exact if_pos ⟨rfl, rfl⟩
  | _ => rfl

/-- A view of operations that was open for the event with the id turns to the resource. -/
theorem rerun_resource {state : OperationsState} {id : JsString} (named : id ≠ []) {tab : Tab}
    {before query : Option JsString} :
    (View.operations state).rerun ⟨tab, some (createEventFocusTarget id), before⟩
        ⟨tab, some (resourceTarget id), query⟩ =
      .operations { state with shownSection := .resources } := by
  rw [View.rerun, if_neg fun same => absurd same.1.symm (Option.some_ne_none id),
    OperationsState.focus_resource named]

theorem rerun_event {state : OperationsState} {id : JsString} (named : id ≠ []) {tab : Tab}
    {before query : Option JsString} :
    (View.operations state).rerun ⟨tab, some (resourceTarget id), before⟩
        ⟨tab, some (createEventFocusTarget id), query⟩ =
      .operations { state with eventFocusId := some id, shownSection := .events } := by
  rw [View.rerun, if_neg fun same => absurd same.1 (Option.some_ne_none id),
    OperationsState.focus_event named]

/-- In a view of operations that is open for the id of a link. -/
theorem shows_rerun {target last : EventNavigationTarget} (aimed : Aimed target)
    (lastAimed : Aimed last) (atOperations : target.tab = .operations)
    (fromOperations : last.tab = .operations) (sameId : last.id = target.id)
    (query : Option JsString) (data : ConsoleData) (state : OperationsState) :
    (⟨⟨.operations, some target, query⟩, data, (View.operations state).rerun
        ⟨.operations, some last, query⟩ ⟨.operations, some target, query⟩⟩ : Console).Shows
          toLowerCase target ↔
      (⟨⟨.operations, some last, query⟩, data, .operations state⟩ : Console).Reopens
        toLowerCase target := by
  rw [Console.Reopens]
  split_ifs with same
  · cases same
    rw [View.rerun_self]
  · cases aimed with
    | service => cases atOperations
    | pipeline => cases atOperations
    | @resource id named =>
        cases lastAimed with
        | service => cases fromOperations
        | pipeline => cases fromOperations
        | resource => exact absurd (congrArg (fun id => some (resourceTarget id)) sameId) same
        | event =>
            cases sameId
            rw [rerun_resource named]
            constructor
            · rintro ⟨_, isView, shows⟩ _ other isOther
              cases isView
              cases isOther
              exact shows.2.2
            · intro filtered
              exact ⟨_, rfl, rfl, rfl, filtered rfl state rfl⟩
    | @event id named =>
        cases lastAimed with
        | service => cases fromOperations
        | pipeline => cases fromOperations
        | event =>
            exact absurd (congrArg (fun id => some (createEventFocusTarget id)) sameId) same
        | resource =>
            cases sameId
            rw [rerun_event named]
            refine iff_of_true ?_ fun isResource => absurd isResource Bool.false_ne_true
            exact ⟨_, rfl, rfl, OperationsState.events_focused named rfl data.events⟩

/-- Following a link shows its target if the view was not open for its id, and otherwise if what is
open does. -/
theorem shows_iff {console next : Console} (steady : console.Steady)
    {target : EventNavigationTarget} (offers : Offers console target)
    (stepped : console.step (.navigateToEventTarget target) = some next) :
    next.Shows toLowerCase target ↔
      (console.Revisits target → console.Reopens toLowerCase target) := by
  cases stepped
  have aimed := offers.aimed steady.named
  by_cases again : console.Revisits target
  · rw [imp_iff_right again, Console.become, render_rerun again]
    rcases offers.operations steady again with ⟨atOperations, state, isView⟩
    rcases Option.map_eq_some_iff.mp again.2 with ⟨last, isLast, sameId⟩
    rcases steady.aimed last isLast with ⟨lastAimed, lastTab⟩
    have isTab : console.app.currentTab = .operations := by
      rw [again.1, atOperations]
      rfl
    have fromOperations := TargetTab.eq_operations (lastTab.symm.trans isTab)
    rcases console with ⟨⟨currentTab, eventTarget, queryTarget⟩, data, view⟩
    cases isView
    cases isLast
    cases isTab
    have tab : target.tab.tab = .operations := congrArg TargetTab.tab atOperations
    rw [tab]
    exact shows_rerun toLowerCase aimed lastAimed atOperations fromOperations sameId queryTarget
      data state
  · rw [Console.become, render_start aimed.named again]
    exact iff_of_true (shows_start toLowerCase aimed _ _) fun revisited => absurd revisited again

/-- The query workspace asks for the context of a table that is listed if it is to, and
otherwise for that of the first one. -/
theorem activeAssetId_eq_iff {assets : List DataAsset} {id : JsString} :
    (⟨some id⟩ : QueryState).activeAssetId assets = some id ↔
      ∃ asset ∈ assets, asset.kind = .table ∧ asset.id = id := by
  have known : ((assets.filter (·.kind = .table)).any (·.id = id) = true) ↔
      ∃ asset ∈ assets, asset.kind = .table ∧ asset.id = id := by
    simp
  rw [QueryState.activeAssetId, Option.any_some]
  split_ifs with isKnown
  · exact iff_of_true rfl (known.mp isKnown)
  · refine ⟨?_, fun listed => absurd (known.mpr listed) isKnown⟩
    intro isFirst
    rcases Option.map_eq_some_iff.mp isFirst with ⟨asset, first, same⟩
    have member := List.mem_filter.mp (List.mem_of_head? first)
    exact ⟨asset, member.1, of_decide_eq_true member.2, same⟩

theorem handed_over {console next : Console} (steady : console.Steady)
    (view : console.view = .catalog) {assetId : JsString}
    (stepped : console.step (.navigateToCatalogQuery assetId) = some next) :
    next.data = console.data ∧ next.view = .query ⟨some assetId⟩ := by
  cases stepped
  refine ⟨rfl, if_neg ?_⟩
  rintro ⟨sameTab, _⟩
  have isTab := steady.shown.trans sameTab
  rw [view] at isTab
  exact Tab.noConfusion isTab

/-- The view is that of the current tab; what the application keeps is kept for that tab; links show
their targets, but for those to an id that the view of operations is open for; and the query
workspace opens with an asset that it was handed if that is a listed table. -/
structure Console.Follows (console : Console) : Prop where
  view : console.view.tab = console.app.currentTab
  target : ∀ target, console.app.eventTarget = some target →
    target.id ≠ [] ∧ console.app.currentTab = target.tab.tab
  asset : ∀ id, console.app.queryTarget = some id → console.app.currentTab = .query
  links : ∀ target next, Offers console target →
    console.step (.navigateToEventTarget target) = some next →
      (next.Shows toLowerCase target ↔
        (console.Revisits target → console.Reopens toLowerCase target))
  workspace : console.view = .catalog → ∀ assetId next,
    console.step (.navigateToCatalogQuery assetId) = some next →
      ∃ state, next.view = .query state ∧
        (state.activeAssetId next.data.assets = some assetId ↔
          ∃ asset ∈ console.data.assets, asset.kind = .table ∧ asset.id = assetId)

/-- In every run of the console, whatever its data become, links are followed. -/
theorem links_followed {console : Console}
    (reached : Console.machine.Reachable Console.Allowed console) :
    console.Follows toLowerCase := by
  have steady := Console.steady_of_reachable reached
  constructor
  · exact steady.shown
  · intro target kept
    rcases steady.aimed target kept with ⟨aimed, isTab⟩
    exact ⟨aimed.named, isTab⟩
  · exact steady.handed
  · intro target next offers stepped
    exact shows_iff toLowerCase steady offers stepped
  · intro view assetId next stepped
    rcases handed_over steady view stepped with ⟨sameData, isQuery⟩
    rw [sameData]
    exact ⟨_, isQuery, activeAssetId_eq_iff⟩

def failedEvent : Event := ⟨ofString "e", none, none, none, none⟩

def failedPod : LinkedResource where
  id := ofString "p"
  kind := .Pod
  name := ofString "pod"
  namespaceName := none
  status := .degraded
  relatedServiceId := none
  relatedPipelineId := none
  relatedEventIds := [ofString "e"]

/-- An event and the resource that it is related to. -/
def failedData : ConsoleData := ⟨[], [], [failedEvent], [failedPod], [], []⟩

theorem failedData_named : failedData.Named where
  pipelines := List.forall_mem_nil _
  services := List.forall_mem_nil _
  events := List.forall_mem_singleton.mpr (by decide)
  related := List.forall_mem_singleton.mpr (List.forall_mem_singleton.mpr (by decide))

/-- The console after the event was opened from the overview and the resources were turned to. -/
def turnedAway : Console where
  app := ⟨.operations, some (createEventFocusTarget (ofString "e")), none⟩
  data := failedData
  view := .operations ⟨.resources, none, some (ofString "e")⟩

theorem turnedAway_reachable : Console.machine.Reachable Console.Allowed turnedAway := by
  have loaded : Console.machine.Reachable Console.Allowed
      ⟨⟨.overview, none, none⟩, failedData, .overview⟩ :=
    @Machine.Reachable.step _ _ _ _ _ _ (.refresh failedData) .init failedData_named rfl
  have offered : Offers ⟨⟨.overview, none, none⟩, failedData, .overview⟩
      (createEventFocusTarget failedEvent.id) :=
    .recent rfl (List.mem_singleton.mpr rfl)
  have opened : Console.machine.Reachable Console.Allowed
      ⟨⟨.operations, some (createEventFocusTarget (ofString "e")), none⟩, failedData,
        .operations ⟨.events, none, some (ofString "e")⟩⟩ :=
    @Machine.Reachable.step _ _ _ _ _ _
      (.navigateToEventTarget (createEventFocusTarget failedEvent.id)) loaded offered rfl
  exact @Machine.Reachable.step _ _ _ _ _ _ (.act .showResources) opened trivial rfl

/-- The link from the resource to the event, which is open already, does nothing. -/
theorem links_followed_turnedAway :
    Offers turnedAway (createEventFocusTarget (ofString "e")) ∧
      ¬turnedAway.Shows id (createEventFocusTarget (ofString "e")) := by
  have offered : Offers turnedAway (createEventFocusTarget (ofString "e")) :=
    .resource rfl rfl (List.mem_singleton.mpr rfl) (List.mem_singleton.mpr rfl)
  have follows := links_followed id turnedAway_reachable
  refine ⟨offered, ?_⟩
  have dead := (follows.links _ turnedAway offered rfl).not.mpr
  apply dead
  intro reopens
  rcases reopens ⟨rfl, rfl⟩ with ⟨_, isView, isEvents, _⟩
  cases isView
  exact OperationsSection.noConfusion isEvents

end Follow

end BelugaManager.Web
