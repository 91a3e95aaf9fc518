import BelugaManager.Foundation.Machine
import Mathlib.Data.List.Basic
import Mathlib.Logic.Function.Basic

/-!
# Loaders that can be tried again

The body of a SQL editor is a lazy component: React imports it when it reads the component for the
first time, and keeps what became of that import.  A loader therefore makes a new component for
every retry, and only after a failure.  All editors of a page share one loader until they retry.
The runs of the page are those in which React keeps to this.
-/

namespace BelugaManager.Web

open Foundation

inductive LoadStatus where
  | new
  | loading
  | ok
  | failed
  deriving DecidableEq, Repr

/-- What became of the import that a lazy component starts. -/
inductive LazyState where
  | uninitialized
  | pending
  | resolved
  | rejected
  deriving DecidableEq, Repr

/-- A lazy component, with the attempt number that its import gets. -/
structure LazyComponent where
  attempt : ℕ
  state : LazyState
  deriving DecidableEq, Repr

/-- A loader.  A component is its place among those that were made, and `imports` lists the calls
of the import function. -/
structure RetryableLoader where
  attempt : ℕ
  importCalls : ℕ
  status : LoadStatus
  current : ℕ
  components : List LazyComponent
  imports : List ℕ
  deriving DecidableEq, Repr

namespace RetryableLoader

def make (loader : RetryableLoader) : RetryableLoader :=
  { loader with
    status := .new
    current := loader.components.length
    components := loader.components ++ [⟨loader.attempt, .uninitialized⟩] }

/-- `createRetryableLoader`. -/
def create : RetryableLoader :=
  make ⟨0, 0, .new, 0, [], []⟩

def load (loader : RetryableLoader) (n : ℕ) : RetryableLoader :=
  { loader with
    importCalls := loader.importCalls + 1
    status := .loading
    imports := loader.imports ++ [n] }

def retry (loader : RetryableLoader) : Bool × RetryableLoader :=
  if loader.status ≠ .failed then (false, loader)
  else (true, make { loader with attempt := loader.attempt + 1 })

/-- React reads a component, and may call the function that has it imported. -/
def read (loader : RetryableLoader) (component : ℕ) (imports : Bool) : Option RetryableLoader :=
  match loader.components[component]? with
  | none => none
  | some ⟨n, _⟩ =>
      if imports then
        some { loader.load n with components := loader.components.set component ⟨n, .pending⟩ }
      else some loader

/-- A component is imported when it is read for the first time, and only then. -/
def ImportsOnce (loader : RetryableLoader) (component : ℕ) (imports : Bool) : Prop :=
  ∀ made ∈ loader.components[component]?, imports = true ↔ made.state = .uninitialized

instance (loader : RetryableLoader) (component : ℕ) (imports : Bool) :
    Decidable (loader.ImportsOnce component imports) :=
  inferInstanceAs (Decidable (∀ made ∈ loader.components[component]?,
    imports = true ↔ made.state = .uninitialized))

/-- The import of a component succeeds or fails. -/
def settle (loader : RetryableLoader) (component : ℕ) (success : Bool) : Option RetryableLoader :=
  match loader.components[component]? with
  | some ⟨n, .pending⟩ =>
      some { loader with
        status := if success then .ok else .failed
        components := loader.components.set component
          ⟨n, if success then .resolved else .rejected⟩ }
  | _ => none

end RetryableLoader

/-! ## Editors -/

structure SqlEditor where
  ownLoader : Option RetryableLoader
  /-- The key of the boundary that catches a failed import. -/
  attempt : ℕ
  deriving DecidableEq, Repr

namespace SqlEditor

def mounted : SqlEditor := ⟨none, 0⟩

def onRetry (editor : SqlEditor) : SqlEditor :=
  match editor.ownLoader with
  | none => ⟨some .create, editor.attempt + 1⟩
  | some loader =>
      match loader.retry with
      | (false, loader) => { editor with ownLoader := some loader }
      | (true, loader) => ⟨some loader, editor.attempt + 1⟩

end SqlEditor

inductive LoaderOwner where
  | shared
  | editor (id : ℕ)
  deriving DecidableEq, Repr

structure EditorPage where
  sharedBodyLoader : RetryableLoader
  editors : ℕ → SqlEditor

inductive EditorEvent where
  | read (owner : LoaderOwner) (component : ℕ) (imports : Bool)
  | settled (owner : LoaderOwner) (component : ℕ) (success : Bool)
  | retryClicked (id : ℕ)
  deriving DecidableEq, Repr

namespace EditorPage

def loader (page : EditorPage) : LoaderOwner → Option RetryableLoader
  | .shared => some page.sharedBodyLoader
  | .editor id => (page.editors id).ownLoader

def setLoader (page : EditorPage) (owner : LoaderOwner) (loader : RetryableLoader) : EditorPage :=
  match owner with
  | .shared => { page with sharedBodyLoader := loader }
  | .editor id =>
      { page with
        editors := Function.update page.editors id
          { page.editors id with ownLoader := some loader } }

/-- The `LoadedBody` of an editor: a loader and the place of its current component. -/
def loadedBody (page : EditorPage) (id : ℕ) : LoaderOwner × ℕ :=
  match (page.editors id).ownLoader with
  | none => (.shared, page.sharedBodyLoader.current)
  | some loader => (.editor id, loader.current)

/-- What became of the import of the body that an editor shows. -/
def bodyState (page : EditorPage) (id : ℕ) : Option LazyState :=
  (page.loader (page.loadedBody id).1).bind fun loader =>
    loader.components[(page.loadedBody id).2]?.map (·.state)

def click (page : EditorPage) (id : ℕ) : EditorPage :=
  { page with editors := Function.update page.editors id (page.editors id).onRetry }

def step (page : EditorPage) : EditorEvent → Option EditorPage
  | .read owner component imports =>
      ((page.loader owner).bind (·.read component imports)).map (page.setLoader owner)
  | .settled owner component success =>
      ((page.loader owner).bind (·.settle component success)).map (page.setLoader owner)
  | .retryClicked id => some (page.click id)

def machine : Machine EditorPage EditorEvent where
  init := ⟨.create, fun _ => .mounted⟩
  step := step

/-- What `React.lazy` promises of its components. -/
def LazyImportsOnce (page : EditorPage) : EditorEvent → Prop
  | .read owner component imports =>
      ∀ loader ∈ page.loader owner, loader.ImportsOnce component imports
  | _ => True

instance : ∀ (page : EditorPage) (event : EditorEvent), Decidable (page.LazyImportsOnce event)
  | page, .read owner component imports =>
      inferInstanceAs (Decidable (∀ loader ∈ page.loader owner,
        loader.ImportsOnce component imports))
  | _, .settled _ _ _ => inferInstanceAs (Decidable True)
  | _, .retryClicked _ => inferInstanceAs (Decidable True)

/-- An editor takes a click of its button, unless its own loader refuses to retry. -/
def accepts (page : EditorPage) (id : ℕ) : Bool :=
  (page.editors id).ownLoader.all (·.retry.1)

/-- The clicks of a run that an editor takes. -/
def acceptedClicks (id : ℕ) : EditorPage → List EditorEvent → ℕ
  | _, [] => 0
  | page, event :: events =>
      (if event = .retryClicked id ∧ page.accepts id then 1 else 0) +
        ((page.step event).elim 0 (acceptedClicks id · events))

end EditorPage

/-! ## Loaders as one attempt after the other -/

namespace LazyState

def status : LazyState → LoadStatus
  | uninitialized => .new
  | pending => .loading
  | resolved => .ok
  | rejected => .failed

/-- The number of imports that a component in this state has started. -/
def started : LazyState → ℕ
  | uninitialized => 0
  | _ => 1

theorem started_le (state : LazyState) : state.started ≤ 1 := by
  cases state <;> decide

theorem status_eq_failed {state : LazyState} : state.status = .failed ↔ state = .rejected := by
  cases state <;> decide

theorem status_eq_ok {state : LazyState} : state.status = .ok ↔ state = .resolved := by
  cases state <;> decide

end LazyState

namespace RetryableLoader

/-- The components before an attempt, all of which have failed. -/
def failedBefore (n : ℕ) : List LazyComponent :=
  (List.range n).map (⟨·, .rejected⟩)

/-- The loader whose current component is this one. -/
def of (last : LazyComponent) : RetryableLoader where
  attempt := last.attempt
  importCalls := last.attempt + last.state.started
  status := last.state.status
  current := last.attempt
  components := failedBefore last.attempt ++ [last]
  imports := List.range (last.attempt + last.state.started)

theorem length_failedBefore (n : ℕ) : (failedBefore n).length = n := by
  rw [failedBefore, List.length_map, List.length_range]

theorem failedBefore_succ (n : ℕ) :
    failedBefore (n + 1) = failedBefore n ++ [⟨n, .rejected⟩] := by
  rw [failedBefore, List.range_succ, List.map_append]
  rfl

theorem components_of (last : LazyComponent) :
    (of last).components = failedBefore last.attempt ++ [last] := rfl

variable {last : LazyComponent} {component : ℕ} {next : RetryableLoader}

theorem retry_of_rejected (n : ℕ) :
    (of ⟨n, .rejected⟩).retry = (true, of ⟨n + 1, .uninitialized⟩) := by
  have failed : ¬(of ⟨n, .rejected⟩).status ≠ .failed := not_not.mpr rfl
  rw [retry, if_neg failed]
  simp only [make, of, failedBefore_succ, List.length_append, length_failedBefore, LazyState.status,
    LazyState.started, List.length_singleton, Nat.add_zero]

theorem retry_of_ne (unfailed : last.state ≠ .rejected) : (of last).retry = (false, of last) :=
  if_pos (mt LazyState.status_eq_failed.mp unfailed)

/-- A retry is accepted exactly when the import of the current component failed. -/
theorem retry_of_fst : (of last).retry.1 = true ↔ last.state = .rejected := by
  by_cases failed : last.state = .rejected
  · rcases last with ⟨n, state⟩
    cases failed
    rw [retry_of_rejected]
    exact ⟨fun _ => rfl, fun _ => rfl⟩
  · rw [retry_of_ne failed]
    exact ⟨fun accepted => absurd accepted Bool.false_ne_true,
      fun is_failed => absurd is_failed failed⟩

theorem getElem?_of_last (last : LazyComponent) :
    (of last).components[last.attempt]? = some last := by
  rw [components_of, List.getElem?_append_right (Nat.le_of_eq (length_failedBefore _)),
    length_failedBefore, Nat.sub_self]
  rfl

/-- What stands at a place: an attempt that failed, or the current component. -/
theorem getElem?_of {made : LazyComponent} (found : (of last).components[component]? = some made) :
    made.state = .rejected ∨ (component = last.attempt ∧ made = last) := by
  rw [components_of] at found
  by_cases earlier : component < last.attempt
  · rw [List.getElem?_append_left (by rwa [length_failedBefore])] at found
    rcases List.mem_map.mp (List.mem_of_getElem? found) with ⟨n, _, rfl⟩
    exact .inl rfl
  · have later : (failedBefore last.attempt).length ≤ component := by
      rw [length_failedBefore]
      exact Nat.not_lt.mp earlier
    rw [List.getElem?_append_right later, List.getElem?_singleton] at found
    split at found
    next first =>
      rw [length_failedBefore] at first
      cases found
      exact .inr ⟨by omega, rfl⟩
    next => exact absurd found (by simp)

theorem set_of_last (last : LazyComponent) (state : LazyState) :
    (of last).components.set last.attempt ⟨last.attempt, state⟩ =
      failedBefore last.attempt ++ [⟨last.attempt, state⟩] := by
  rw [components_of, List.set_append_right _ _ (Nat.le_of_eq (length_failedBefore _)),
    length_failedBefore, Nat.sub_self]
  rfl

theorem read_of_uninitialized (n : ℕ) :
    (of ⟨n, .uninitialized⟩).read n true = some (of ⟨n, .pending⟩) := by
  rw [read, getElem?_of_last ⟨n, .uninitialized⟩]
  simp only [set_of_last ⟨n, .uninitialized⟩, if_true]
  simp only [load, of, LazyState.started, LazyState.status, Nat.add_zero, List.range_succ]

theorem settle_of_pending (n : ℕ) (success : Bool) :
    (of ⟨n, .pending⟩).settle n success =
      some (of ⟨n, if success then .resolved else .rejected⟩) := by
  rw [settle, getElem?_of_last ⟨n, .pending⟩]
  simp only [set_of_last ⟨n, .pending⟩]
  cases success <;> rfl

/-- What a read or the end of an import makes of a component. -/
inductive Advance : LazyState → LazyState → Prop where
  | same (state : LazyState) : Advance state state
  | started : Advance .uninitialized .pending
  | settled (success : Bool) : Advance .pending (if success then .resolved else .rejected)

theorem Advance.of_resolved {state : LazyState} (advanced : Advance .resolved state) :
    state = .resolved := by
  cases advanced
  rfl

theorem read_of {imports : Bool} (once : (of last).ImportsOnce component imports)
    (result : (of last).read component imports = some next) :
    ∃ state, Advance last.state state ∧ next = of ⟨last.attempt, state⟩ := by
  cases found : (of last).components[component]? with
  | none =>
      rw [read, found] at result
      exact absurd result (by simp)
  | some made =>
      have imported := once made found
      by_cases fresh : made.state = .uninitialized
      · rcases getElem?_of found with failed | ⟨rfl, rfl⟩
        · exact absurd (fresh.symm.trans failed) (by decide)
        · rcases made with ⟨n, state⟩
          cases fresh
          rw [imported.mpr rfl, read_of_uninitialized] at result
          cases result
          exact ⟨.pending, .started, rfl⟩
      · rw [read, found, Bool.eq_false_iff.mpr (mt imported.mp fresh)] at result
        cases result
        exact ⟨last.state, .same _, rfl⟩

theorem settle_of {success : Bool} (result : (of last).settle component success = some next) :
    ∃ state, Advance last.state state ∧ next = of ⟨last.attempt, state⟩ := by
  cases found : (of last).components[component]? with
  | none =>
      rw [settle, found] at result
      exact absurd result (by simp)
  | some made =>
      rcases getElem?_of found with failed | ⟨rfl, rfl⟩
      · rw [settle, found] at result
        rcases made with ⟨n, state⟩
        cases failed
        exact absurd result (by simp)
      · rcases made with ⟨n, state⟩
        cases state with
        | pending =>
            rw [settle_of_pending] at result
            cases result
            exact ⟨_, .settled success, rfl⟩
        | _ =>
            rw [settle, found] at result
            exact absurd result (by simp)

/-- Only the current component can wait for its import. -/
theorem pending_of :
    ((of last).components.filter (fun made => made.state = .pending)).length ≤ 1 := by
  have earlier : (failedBefore last.attempt).filter (fun made => made.state = .pending) = [] := by
    rw [List.filter_eq_nil_iff]
    intro made member
    rcases List.mem_map.mp member with ⟨n, _, rfl⟩
    exact fun pending => LazyState.noConfusion (of_decide_eq_true pending)
  rw [components_of, List.filter_append, earlier, List.nil_append]
  exact List.length_filter_le _ _

/-- What every loader keeps, whatever its components went through. -/
structure Guarded (loader : RetryableLoader) : Prop where
  imports_eq : loader.imports = List.range loader.importCalls
  importCalls_le : loader.importCalls ≤ loader.attempt + 1
  attempt_le : loader.attempt ≤ loader.importCalls
  pending_le : (loader.components.filter (fun made => made.state = .pending)).length ≤ 1
  accepted_iff : loader.retry.1 = true ↔
    loader.components[loader.current]?.map (·.state) = some .rejected

theorem guarded_of (last : LazyComponent) : (of last).Guarded where
  imports_eq := rfl
  importCalls_le := Nat.add_le_add_left last.state.started_le last.attempt
  attempt_le := Nat.le_add_right _ _
  pending_le := pending_of
  accepted_iff := by
    have shown : (of last).components[(of last).current]? = some last := getElem?_of_last last
    rw [retry_of_fst, shown, Option.map_some, Option.some.injEq]

end RetryableLoader

namespace SqlEditor

open RetryableLoader

/-- The key of an editor counts the loads that it asked for. -/
inductive Sound : SqlEditor → Prop where
  | mounted : Sound .mounted
  | retried (last : LazyComponent) : Sound ⟨some (.of last), last.attempt + 1⟩

variable {editor : SqlEditor}

theorem Sound.attempt_eq (sound : editor.Sound) {last : LazyComponent}
    (own : editor.ownLoader = some (.of last)) : editor.attempt = last.attempt + 1 := by
  cases sound with
  | mounted => exact absurd own (Option.some_ne_none _).symm
  | retried other =>
      have same : RetryableLoader.of other = .of last := Option.some.inj own
      exact congrArg (·.attempt + 1) same

/-- The key goes up exactly by a retry that is accepted. -/
theorem onRetry_attempt (editor : SqlEditor) :
    editor.onRetry.attempt =
      editor.attempt + if editor.ownLoader.all (·.retry.1) then 1 else 0 := by
  cases own : editor.ownLoader with
  | none =>
      simp only [onRetry, own]
      rfl
  | some loader =>
      rw [Option.all_some, retry]
      by_cases unfailed : loader.status ≠ .failed
      · simp only [onRetry, own, retry, if_pos unfailed]
        rfl
      · simp only [onRetry, own, retry, if_neg unfailed]
        rfl

theorem Sound.onRetry (sound : editor.Sound) : editor.onRetry.Sound := by
  cases sound with
  | mounted => exact .retried ⟨0, .uninitialized⟩
  | retried last =>
      by_cases failed : last.state = .rejected
      · rcases last with ⟨n, state⟩
        cases failed
        simp only [SqlEditor.onRetry, retry_of_rejected]
        exact .retried ⟨n + 1, .uninitialized⟩
      · simp only [SqlEditor.onRetry, retry_of_ne failed]
        exact .retried last

/-- A retry of a failed editor gives it a component that was not imported yet. -/
theorem Sound.onRetry_new (sound : editor.Sound)
    (failed : ∀ loader, editor.ownLoader = some loader → loader.status = .failed) :
    ∃ n, editor.onRetry.ownLoader = some (.of ⟨n, .uninitialized⟩) := by
  cases sound with
  | mounted => exact ⟨0, rfl⟩
  | retried last =>
      have rejected : last.state = .rejected := LazyState.status_eq_failed.mp (failed _ rfl)
      rcases last with ⟨n, state⟩
      cases rejected
      simp only [SqlEditor.onRetry, retry_of_rejected]
      exact ⟨n + 1, rfl⟩

theorem Sound.onRetry_loaded (sound : editor.Sound) {loader : RetryableLoader}
    (own : editor.ownLoader = some loader) (loaded : loader.status = .ok) :
    editor.onRetry = editor := by
  cases sound with
  | mounted => exact absurd own (Option.some_ne_none loader).symm
  | retried last =>
      cases own
      have resolved : last.state = .resolved := LazyState.status_eq_ok.mp loaded
      have unfailed : last.state ≠ .rejected := by
        rw [resolved]
        decide
      simp only [SqlEditor.onRetry, retry_of_ne unfailed]

end SqlEditor

namespace EditorPage

open RetryableLoader

structure Sound (page : EditorPage) : Prop where
  shared : ∃ state, page.sharedBodyLoader = .of ⟨0, state⟩
  editors : ∀ id, (page.editors id).Sound

variable {page next : EditorPage} {id : ℕ}

theorem Sound.loader_eq (sound : page.Sound) (owner : LoaderOwner) {loader : RetryableLoader}
    (owned : page.loader owner = some loader) : ∃ last, loader = .of last := by
  cases owner with
  | shared =>
      rcases sound.shared with ⟨state, is_shared⟩
      cases owned
      exact ⟨_, is_shared⟩
  | editor id =>
      have is_editor := sound.editors id
      rw [EditorPage.loader] at owned
      generalize page.editors id = editor at is_editor owned
      cases is_editor with
      | mounted => exact absurd owned (Option.some_ne_none loader).symm
      | retried last =>
          cases owned
          exact ⟨last, rfl⟩

/-- What a step does: one component advances, or one editor retries. -/
theorem Sound.step_cases (sound : page.Sound) {event : EditorEvent}
    (once : page.LazyImportsOnce event) (stepped : page.step event = some next) :
    (∃ owner last state, page.loader owner = some (.of last) ∧ Advance last.state state ∧
        next = page.setLoader owner (.of ⟨last.attempt, state⟩) ∧
        ∀ id, event ≠ .retryClicked id) ∨
      ∃ id, event = .retryClicked id ∧ next = page.click id := by
  cases event with
  | read owner component imports =>
      rcases Option.map_eq_some_iff.mp stepped with ⟨moved, result, rfl⟩
      rcases Option.bind_eq_some_iff.mp result with ⟨loader, owned, result⟩
      rcases sound.loader_eq _ owned with ⟨last, rfl⟩
      rcases read_of (once _ owned) result with ⟨state, advanced, rfl⟩
      exact .inl ⟨owner, last, state, owned, advanced, rfl, fun _ => EditorEvent.noConfusion⟩
  | settled owner component success =>
      rcases Option.map_eq_some_iff.mp stepped with ⟨moved, result, rfl⟩
      rcases Option.bind_eq_some_iff.mp result with ⟨loader, owned, result⟩
      rcases sound.loader_eq _ owned with ⟨last, rfl⟩
      rcases settle_of result with ⟨state, advanced, rfl⟩
      exact .inl ⟨owner, last, state, owned, advanced, rfl, fun _ => EditorEvent.noConfusion⟩
  | retryClicked id =>
      cases stepped
      exact .inr ⟨id, rfl, rfl⟩

theorem Sound.shared_attempt (sound : page.Sound) {last : LazyComponent}
    (shared : page.sharedBodyLoader = .of last) : last.attempt = 0 := by
  rcases sound.shared with ⟨state, is_shared⟩
  have same : RetryableLoader.of last = .of ⟨0, state⟩ := shared.symm.trans is_shared
  exact congrArg (·.attempt) same

theorem Sound.setLoader (sound : page.Sound) {owner : LoaderOwner} {last : LazyComponent}
    (owned : page.loader owner = some (.of last)) (state : LazyState) :
    (page.setLoader owner (.of ⟨last.attempt, state⟩)).Sound := by
  cases owner with
  | shared =>
      rw [sound.shared_attempt (Option.some.inj owned)]
      exact ⟨⟨state, rfl⟩, sound.editors⟩
  | editor id =>
      refine ⟨sound.shared, ?_⟩
      intro other
      by_cases same : other = id
      · cases same
        simp only [EditorPage.setLoader, Function.update_self]
        rw [(sound.editors id).attempt_eq owned]
        exact .retried ⟨last.attempt, state⟩
      · simp only [EditorPage.setLoader, Function.update_of_ne same]
        exact sound.editors other

theorem Sound.click (sound : page.Sound) (id : ℕ) : (page.click id).Sound where
  shared := sound.shared
  editors := by
    intro other
    by_cases same : other = id
    · cases same
      simp only [EditorPage.click, Function.update_self]
      exact (sound.editors id).onRetry
    · simp only [EditorPage.click, Function.update_of_ne same]
      exact sound.editors other

theorem Sound.step (sound : page.Sound) {event : EditorEvent}
    (once : page.LazyImportsOnce event) (stepped : page.step event = some next) :
    next.Sound := by
  rcases sound.step_cases once stepped with
    ⟨owner, last, state, owned, _, rfl, _⟩ | ⟨id, _, rfl⟩
  · exact sound.setLoader owned state
  · exact sound.click id

theorem sound_init : machine.init.Sound where
  shared := ⟨.uninitialized, rfl⟩
  editors := fun _ => .mounted

theorem sound_of_reachable (reached : machine.Reachable LazyImportsOnce page) : page.Sound :=
  reached.invariant EditorPage.Sound sound_init
    (fun _ _ _ sound once stepped => sound.step once stepped)

theorem attempt_setLoader (page : EditorPage) (owner : LoaderOwner) (loader : RetryableLoader)
    (id : ℕ) : ((page.setLoader owner loader).editors id).attempt = (page.editors id).attempt := by
  cases owner with
  | shared => rfl
  | editor other =>
      by_cases same : id = other
      · cases same
        simp only [EditorPage.setLoader, Function.update_self]
      · simp only [EditorPage.setLoader, Function.update_of_ne same]

theorem Sound.attempt_step (sound : page.Sound) {event : EditorEvent}
    (once : page.LazyImportsOnce event) (stepped : page.step event = some next) (id : ℕ) :
    (next.editors id).attempt = (page.editors id).attempt +
      if event = .retryClicked id ∧ page.accepts id then 1 else 0 := by
  rcases sound.step_cases once stepped with
    ⟨owner, last, state, _, _, rfl, unclicked⟩ | ⟨clicked, rfl, rfl⟩
  · rw [attempt_setLoader, if_neg (fun click => unclicked id click.1), Nat.add_zero]
  · by_cases same : id = clicked
    · cases same
      simp only [EditorPage.click, Function.update_self, true_and, accepts]
      exact SqlEditor.onRetry_attempt _
    · have other : EditorEvent.retryClicked clicked ≠ .retryClicked id := by
        intro is_click
        exact same (EditorEvent.retryClicked.inj is_click).symm
      simp only [EditorPage.click, Function.update_of_ne same, other, false_and, if_false,
        Nat.add_zero]

/-- The key of an editor counts the clicks that it takes. -/
theorem Sound.attempt_run (sound : page.Sound) {events : List EditorEvent} {later : EditorPage}
    (ran : machine.run LazyImportsOnce page events = some later) (id : ℕ) :
    (later.editors id).attempt =
      (page.editors id).attempt + acceptedClicks id page events := by
  induction events generalizing page with
  | nil =>
      cases ran
      rfl
  | cons event events ih =>
      rw [Machine.run] at ran
      split at ran
      next once =>
        rcases Option.bind_eq_some_iff.mp ran with ⟨next, stepped, rest⟩
        have is_step : page.step event = some next := stepped
        rw [ih (sound.step once stepped) rest, sound.attempt_step once stepped id,
          acceptedClicks, is_step, Option.elim_some, Nat.add_assoc]
      next => exact absurd ran (by simp)

/-- In every run, whichever editors are read, retried and answered in which order, each loader
imports its attempts once and in order, has at most one import under way, and accepts a retry
exactly when the import of its current component failed.  The shared loader is never retried, and
the boundary of an editor is keyed by the loads that this editor asked for, which are the clicks
that it took. -/
theorem loaders_guarded (reached : machine.Reachable LazyImportsOnce page) :
    (∀ owner loader, page.loader owner = some loader → loader.Guarded) ∧
      page.sharedBodyLoader.attempt = 0 ∧
      (∀ id, (page.editors id).attempt =
        ((page.editors id).ownLoader.map (·.attempt + 1)).getD 0) ∧
      ∀ events, machine.run LazyImportsOnce machine.init events = some page →
        ∀ id, (page.editors id).attempt = acceptedClicks id machine.init events := by
  have sound := sound_of_reachable reached
  refine ⟨?_, ?_, ?_, ?_⟩
  · intro owner loader owned
    rcases sound.loader_eq _ owned with ⟨last, rfl⟩
    exact guarded_of last
  · rcases sound.shared with ⟨state, is_shared⟩
    rw [is_shared]
    rfl
  · intro id
    have is_editor := sound.editors id
    generalize page.editors id = editor at is_editor
    cases is_editor with
    | mounted => rfl
    | retried last => rfl
  · intro events ran id
    exact (sound_init.attempt_run ran id).trans (Nat.zero_add _)

/-- An editor whose import fails twice, with a click in between that is refused. -/
def failedTwice : List EditorEvent :=
  [.read .shared 0 true, .read .shared 0 false, .settled .shared 0 false, .retryClicked 0,
    .retryClicked 0, .read (.editor 0) 0 true, .settled (.editor 0) 0 false, .retryClicked 0,
    .read (.editor 0) 1 true]

theorem loaders_guarded_failing :
    ∃ page loader, machine.run LazyImportsOnce machine.init failedTwice = some page ∧
      page.loader (.editor 0) = some loader ∧ loader.imports = [0, 1] ∧ loader.Guarded ∧
      (page.editors 0).attempt = 2 ∧ acceptedClicks 0 machine.init failedTwice = 2 := by
  have ran : machine.run LazyImportsOnce machine.init failedTwice = some _ := rfl
  have all := loaders_guarded (Machine.reachable_of_run ran)
  exact ⟨_, _, ran, rfl, rfl, all.1 (.editor 0) _ rfl, rfl, (all.2.2.2 _ ran 0).symm⟩

/-! ### What an editor shows from then on -/

theorem loadedBody_setLoader {owner : LoaderOwner} {last : LazyComponent}
    (owned : page.loader owner = some (.of last)) (state : LazyState)
    (id : ℕ) :
    (page.setLoader owner (.of ⟨last.attempt, state⟩)).loadedBody id = page.loadedBody id ∧
      ((page.setLoader owner (.of ⟨last.attempt, state⟩)).editors id).attempt =
        (page.editors id).attempt := by
  refine ⟨?_, attempt_setLoader page owner _ id⟩
  cases owner with
  | shared =>
      have shared : page.sharedBodyLoader = .of last := Option.some.inj owned
      simp only [loadedBody, EditorPage.setLoader, shared]
      rfl
  | editor other =>
      by_cases same : id = other
      · cases same
        have own : (page.editors id).ownLoader = some (.of last) := owned
        simp only [loadedBody, EditorPage.setLoader, Function.update_self, own]
        rfl
      · simp only [loadedBody, EditorPage.setLoader, Function.update_of_ne same]

/-- An editor whose own button is not clicked keeps its component. -/
theorem Sound.kept_unclicked (sound : page.Sound) {event : EditorEvent}
    (once : page.LazyImportsOnce event) (other : event ≠ .retryClicked id)
    (stepped : page.step event = some next) :
    next.loadedBody id = page.loadedBody id ∧
      (next.editors id).attempt = (page.editors id).attempt := by
  rcases sound.step_cases once stepped with
    ⟨owner, last, state, owned, _, rfl, _⟩ | ⟨clicked, is_click, rfl⟩
  · exact loadedBody_setLoader owned state id
  · have different : id ≠ clicked := by
      rintro rfl
      exact other is_click
    constructor
    · simp only [loadedBody, EditorPage.click, Function.update_of_ne different]
    · simp only [EditorPage.click, Function.update_of_ne different]

/-- An editor whose own loader has the component loaded stays as it is. -/
theorem Sound.kept_loaded (sound : page.Sound) {loader : RetryableLoader}
    (own : (page.editors id).ownLoader = some loader) (loaded : loader.status = .ok)
    {event : EditorEvent} (once : page.LazyImportsOnce event)
    (stepped : page.step event = some next) : next.editors id = page.editors id := by
  rcases sound.step_cases once stepped with
    ⟨owner, last, state, owned, advanced, rfl, _⟩ | ⟨clicked, _, rfl⟩
  · cases owner with
    | shared => rfl
    | editor other =>
        by_cases same : id = other
        · cases same
          have is_last : loader = .of last := Option.some.inj (own.symm.trans owned)
          rcases last with ⟨n, before⟩
          cases is_last
          have resolved : before = .resolved := LazyState.status_eq_ok.mp loaded
          cases resolved
          rw [advanced.of_resolved]
          simp only [EditorPage.setLoader, Function.update_self]
          rw [← owned]
          rfl
        · simp only [EditorPage.setLoader, Function.update_of_ne same]
  · by_cases same : id = clicked
    · cases same
      simp only [EditorPage.click, Function.update_self]
      exact (sound.editors id).onRetry_loaded own loaded
    · simp only [EditorPage.click, Function.update_of_ne same]

theorem bodyState_eq {loader : RetryableLoader}
    (own : (page.editors id).ownLoader = some loader) :
    page.bodyState id = loader.components[loader.current]?.map (·.state) := by
  simp only [bodyState, loadedBody, EditorPage.loader, own, Option.bind_some]

theorem own_setLoader (page : EditorPage) (id : ℕ) (loader : RetryableLoader) :
    ((page.setLoader (.editor id) loader).editors id).ownLoader = some loader := by
  simp only [EditorPage.setLoader, Function.update_self]

theorem step_read {loader moved : RetryableLoader} {component : ℕ} {imports : Bool}
    (own : (page.editors id).ownLoader = some loader)
    (result : loader.read component imports = some moved) :
    page.step (.read (.editor id) component imports) =
      some (page.setLoader (.editor id) moved) := by
  rw [EditorPage.step, EditorPage.loader, own, Option.bind_some, result, Option.map_some]

theorem step_settled {loader moved : RetryableLoader} {component : ℕ} {success : Bool}
    (own : (page.editors id).ownLoader = some loader)
    (result : loader.settle component success = some moved) :
    page.step (.settled (.editor id) component success) =
      some (page.setLoader (.editor id) moved) := by
  rw [EditorPage.step, EditorPage.loader, own, Option.bind_some, result, Option.map_some]

/-- A component that was not imported yet is loaded by one import that succeeds. -/
theorem loads_of_uninitialized {n : ℕ}
    (own : (page.editors id).ownLoader = some (.of ⟨n, .uninitialized⟩)) :
    ∃ later, machine.run LazyImportsOnce page
        [.read (.editor id) n true, .settled (.editor id) n true] = some later ∧
      later.loadedBody id = (.editor id, n) ∧ later.bodyState id = some .resolved := by
  have once : page.LazyImportsOnce (.read (.editor id) n true) := by
    intro loader owned made found
    cases owned.symm.trans own
    cases found.symm.trans (getElem?_of_last ⟨n, .uninitialized⟩)
    exact iff_of_true rfl rfl
  have reading := step_read own (read_of_uninitialized n)
  have read_own := own_setLoader page id (.of ⟨n, .pending⟩)
  have loading := step_settled read_own (settle_of_pending n true)
  refine ⟨_, (if_pos once).trans (Option.bind_eq_some_iff.mpr ⟨_, reading,
    Option.bind_eq_some_iff.mpr ⟨_, loading, rfl⟩⟩), ?_, ?_⟩
  · rw [loadedBody, own_setLoader]
    rfl
  · rw [bodyState_eq (own_setLoader _ _ _)]
    exact congrArg (Option.map (·.state)) (getElem?_of_last _)

/-- An editor whose component could not be imported gets one that can, by one click; the
boundary of an editor whose button is not clicked is never remounted, whatever happens to the
others; and an editor whose own component is loaded keeps it for good. -/
theorem editors_recover (reached : machine.Reachable LazyImportsOnce page) (id : ℕ) :
    (page.bodyState id = some .rejected →
      ∃ component later, machine.run LazyImportsOnce page
          [.retryClicked id, .read (.editor id) component true,
            .settled (.editor id) component true] = some later ∧
        later.loadedBody id = (.editor id, component) ∧
        later.bodyState id = some .resolved) ∧
      (∀ events later,
        machine.run (fun other event => other.LazyImportsOnce event ∧ event ≠ .retryClicked id)
            page events = some later →
        later.loadedBody id = page.loadedBody id ∧
          (later.editors id).attempt = (page.editors id).attempt) ∧
      ∀ loader, (page.editors id).ownLoader = some loader → loader.status = .ok →
        ∀ events later, machine.run LazyImportsOnce page events = some later →
          later.editors id = page.editors id := by
  have sound := sound_of_reachable reached
  refine ⟨?_, ?_, ?_⟩
  · intro failed
    have own_failed : ∀ loader, (page.editors id).ownLoader = some loader →
        loader.status = .failed := by
      intro loader own
      rcases sound.loader_eq (.editor id) own with ⟨last, rfl⟩
      rw [bodyState_eq own] at failed
      have last_failed : (some last).map LazyComponent.state = some .rejected :=
        (congrArg (Option.map (·.state)) (getElem?_of_last last)).symm.trans failed
      exact LazyState.status_eq_failed.mpr (Option.some.inj last_failed)
    rcases (sound.editors id).onRetry_new own_failed with ⟨n, own⟩
    have clicked_own : ((page.click id).editors id).ownLoader =
        some (.of ⟨n, .uninitialized⟩) := by
      simp only [click, Function.update_self]
      exact own
    rcases loads_of_uninitialized clicked_own with ⟨later, ran, body, state⟩
    exact ⟨n, later, ran, body, state⟩
  · intro events later ran
    have kept := Machine.run_invariant (fun other => other.Sound ∧
        other.loadedBody id = page.loadedBody id ∧
          (other.editors id).attempt = (page.editors id).attempt)
      (fun other event next holds unclicked stepped => by
        rcases holds with ⟨other_sound, body, key⟩
        rcases other_sound.kept_unclicked unclicked.1 unclicked.2 stepped with
          ⟨same_body, same_key⟩
        exact ⟨other_sound.step unclicked.1 stepped, same_body.trans body,
          same_key.trans key⟩)
      ⟨sound, rfl, rfl⟩ ran
    exact kept.2
  · intro loader own loaded events later ran
    have kept := Machine.run_invariant (fun other => other.Sound ∧
        other.editors id = page.editors id)
      (fun other event next holds once stepped => by
        rcases holds with ⟨other_sound, same⟩
        have own_still : (other.editors id).ownLoader = some loader := by rw [same, own]
        exact ⟨other_sound.step once stepped,
          (other_sound.kept_loaded own_still loaded once stepped).trans same⟩)
      ⟨sound, rfl⟩ ran
    exact kept.2

/-- One editor still shows the shared component, which failed, and another has its own. -/
def oneRetried : List EditorEvent :=
  [.read .shared 0 true, .settled .shared 0 false, .retryClicked 1, .read (.editor 1) 0 true,
    .settled (.editor 1) 0 true]

theorem editors_recover_failed :
    ∃ page, machine.run LazyImportsOnce machine.init oneRetried = some page ∧
      page.bodyState 0 = some .rejected ∧
      (∃ component later, machine.run LazyImportsOnce page
          [.retryClicked 0, .read (.editor 0) component true,
            .settled (.editor 0) component true] = some later ∧
        later.bodyState 0 = some .resolved ∧ later.editors 1 = page.editors 1) := by
  have run : machine.run LazyImportsOnce machine.init oneRetried = some _ := rfl
  have recover := editors_recover (Machine.reachable_of_run run)
  rcases (recover 0).1 rfl with ⟨component, later, ran, _, state⟩
  exact ⟨_, run, rfl, component, later, ran, state, (recover 1).2.2 _ rfl rfl _ later ran⟩

end EditorPage

end BelugaManager.Web
