import BelugaManager.Foundation.JsNumber
import BelugaManager.Foundation.Machine
import BelugaManager.Foundation.OrderedMap

/-!
# The memo of upstream loads

`createMemo` of `upstream/memo.ts` as a machine.  Load and weight functions are foreign
code that runs in the middle of an operation and may call the memo again; a stack of
frames holds what they interrupted.  Promises react when no such code runs.  The history
is not part of the source: it lists what callers and entries experience.
-/

namespace BelugaManager.DomainApi

open Foundation

structure MemoOptions where
  ttlMs : JsNumber
  negativeTtlMs : JsNumber
  maxEntries : JsNumber
  maxWeight : JsNumber

/-- An entry of the cache. The number stands for the object and for its promise. -/
structure Entry where
  id : ℕ
  pending : Bool
  expires : JsNumber
  weight : JsNumber

/-- The entry of a load that has just been started. -/
def pendingEntry (id : ℕ) : Entry where
  id := id
  pending := true
  expires := .ofNat 0
  weight := .ofNat 1

inductive UpstreamErrorKind where
  | unreachable
  | timeout
  | unauthenticated
  | forbidden
  | notFound
  | upstreamError
  | overloaded
  | malformed
  deriving DecidableEq, Repr

/-- What a load is rejected with. -/
inductive LoadError where
  | upstream (kind : UpstreamErrorKind)
  | other
  deriving DecidableEq, Repr

def cacheable : LoadError → Bool
  | .upstream kind => kind ≠ .timeout && kind ≠ .overloaded
  | .other => false

/-- What a weight function returns; only numbers are told apart. -/
inductive JsValue where
  | nullish
  | number (value : JsNumber)
  | other

def normalizeWeight : JsValue → JsNumber
  | .number weight =>
      if weight = .nan ∨ JsNumber.less weight (.ofNat 1) then .ofNat 1
      else if weight.isFinite then weight.ceil else .infinity
  | _ => .ofNat 1

/-- The weight of a value: one where there is no weight function or where it throws. -/
def settledWeight : Option JsValue → JsNumber
  | none => .ofNat 1
  | some .nullish => normalizeWeight (.number (.ofNat 1))
  | some value => normalizeWeight value

/-- A normalized weight is a positive integer or infinite. -/
theorem settledWeight_cases (result : Option JsValue) :
    settledWeight result = .infinity ∨ ∃ n : ℕ, settledWeight result = .ofNat n := by
  have normalized : ∀ value : JsValue,
      normalizeWeight value = .infinity ∨ ∃ n : ℕ, normalizeWeight value = .ofNat n := by
    intro value
    cases value with
    | nullish => exact Or.inr ⟨1, rfl⟩
    | other => exact Or.inr ⟨1, rfl⟩
    | number weight =>
        rw [normalizeWeight]
        split
        next => exact Or.inr ⟨1, rfl⟩
        next large =>
          split
          next isFinite =>
            cases weight with
            | nan => exact absurd isFinite Bool.false_ne_true
            | negInfinity => exact absurd isFinite Bool.false_ne_true
            | infinity => exact absurd isFinite Bool.false_ne_true
            | finite value =>
                simp only [JsNumber.ofNat, JsNumber.less, reduceCtorEq, false_or,
                  decide_eq_true_eq, not_lt, Nat.cast_one] at large
                refine Or.inr ⟨⌈value⌉.toNat, ?_⟩
                have positive : 0 ≤ ⌈value⌉ := Int.ceil_nonneg (le_trans zero_le_one large)
                have same : ((⌈value⌉.toNat : ℤ) : ℚ) = ⌈value⌉ := by
                  rw [Int.toNat_of_nonneg positive]
                rw [JsNumber.ceil, JsNumber.ofNat, ← same, Int.cast_natCast]
          next => exact Or.inl rfl
  cases result with
  | none => exact Or.inr ⟨1, rfl⟩
  | some value =>
      cases value with
      | nullish => exact normalized (.number (.ofNat 1))
      | number weight => exact normalized (.number weight)
      | other => exact normalized .other

/-- Why an entry left the cache. -/
inductive Removal where
  | evicted
  | invalidated
  /-- its time was over at a call -/
  | expired (now : JsNumber)
  /-- its value is not kept -/
  | uncached (weight : JsNumber)
  /-- its rejection is not kept -/
  | unkept
  /-- another entry took its key -/
  | replaced
  deriving DecidableEq

inductive Occurrence where
  /-- a call has its load function called -/
  | started (key : String) (id : ℕ)
  /-- the load function throws -/
  | threw (id : ℕ)
  | linked (key : String) (id : ℕ)
  /-- a call receives the promise of an entry -/
  | received (key : String) (id : ℕ) (now : JsNumber)
  /-- a promise reacts to its value or rejection -/
  | settled (id : ℕ)
  /-- a value is handled -/
  | succeeded (id : ℕ) (time ttl : JsNumber)
  /-- a rejection is handled -/
  | failed (id : ℕ) (error : LoadError) (time : JsNumber)
  | removed (id : ℕ) (reason : Removal)
  deriving DecidableEq

/-! ## The cache -/

structure Memo where
  cache : OrderedMap String Entry
  totalWeight : JsNumber
  history : List Occurrence

namespace Memo

variable (r : Rounding) (options : MemoOptions)

def note (m : Memo) (occurrence : Occurrence) : Memo :=
  { m with history := occurrence :: m.history }

/-- The entry under a key, if it is the given one. -/
def live? (m : Memo) (key : String) (id : ℕ) : Option Entry :=
  (m.cache.get? key).filter (·.id = id)

def isLive (m : Memo) (key : String) (id : ℕ) : Bool := (m.live? key id).isSome

/-- The history when an entry is about to be set under a key. -/
def noteReplaced (m : Memo) (key : String) : List Occurrence :=
  match m.cache.get? key with
  | some old => .removed old.id .replaced :: m.history
  | none => m.history

def link (m : Memo) (key : String) (entry : Entry) : Memo where
  cache := m.cache.set key entry
  totalWeight := r.add m.totalWeight entry.weight
  history := .linked key entry.id :: m.noteReplaced key

def unlink (m : Memo) (key : String) (id : ℕ) (reason : Removal) : Memo :=
  match m.live? key id with
  | none => m
  | some entry =>
      { cache := m.cache.delete key
        totalWeight := r.sub m.totalWeight entry.weight
        history := .removed id reason :: m.history }

def reweigh (m : Memo) (key : String) (id : ℕ) (weight : JsNumber) : Memo :=
  match m.live? key id with
  | none => m
  | some entry =>
      { m with
        cache := m.cache.set key { entry with weight := weight }
        totalWeight := r.add m.totalWeight (r.sub weight entry.weight) }

/-- Assign to fields of an entry. Nobody reads an entry that is not live. -/
def assign (m : Memo) (key : String) (id : ℕ) (change : Entry → Entry) : Memo :=
  match m.live? key id with
  | none => m
  | some entry => { m with cache := m.cache.set key (change entry) }

/-- The loop of `evict`, for a number of rounds. -/
def evictLoop : ℕ → Memo → Option Memo
  | 0, _ => none
  | rounds + 1, m =>
      if JsNumber.less options.maxEntries (.ofNat m.cache.entries.length) ∨
          JsNumber.less options.maxWeight m.totalWeight then
        match m.cache.entries with
        | [] => some m
        | oldest :: _ => evictLoop rounds (m.unlink r oldest.1 oldest.2.id .evicted)
      else some m

/-- One round more than there are entries. -/
def evict (m : Memo) : Option Memo := evictLoop r options (m.cache.entries.length + 1) m

/-- Delete a key and set it again. -/
def touch (m : Memo) (key : String) (hit : Entry) (now : JsNumber) : Memo :=
  { m with
    cache := (m.cache.delete key).set key hit
    history := .received key hit.id now :: m.history }

/-- The diagnostic view, whose sum is computed from the entries. -/
structure MemoStats where
  size : ℕ
  totalWeight : JsNumber
  sum : JsNumber

def stats (m : Memo) : MemoStats where
  size := m.cache.entries.length
  totalWeight := m.totalWeight
  sum := m.cache.entries.foldl (fun sum entry => r.add sum entry.2.weight) (.ofNat 0)

/-! ### What the operations do to a key -/

theorem live?_eq_some_iff {m : Memo} {key : String} {id : ℕ} {entry : Entry} :
    m.live? key id = some entry ↔ m.cache.get? key = some entry ∧ entry.id = id := by
  rw [live?, Option.filter_eq_some_iff, decide_eq_true_eq]

theorem live?_eq_none_iff {m : Memo} {key : String} {id : ℕ} :
    m.live? key id = none ↔ ∀ entry, m.cache.get? key = some entry → entry.id ≠ id := by
  simp [live?, Option.filter_eq_none_iff]

variable {m : Memo} {key : String} {id : ℕ}

theorem get?_assign (change : Entry → Entry) (other : String) :
    (m.assign key id change).cache.get? other = (m.cache.get? other).map fun entry =>
      if other = key ∧ entry.id = id then change entry else entry := by
  rw [assign]
  cases isLive : m.live? key id with
  | none =>
      cases stored : m.cache.get? other with
      | none => rfl
      | some entry =>
          rw [Option.map_some, if_neg]
          rintro ⟨rfl, same⟩
          exact live?_eq_none_iff.mp isLive entry stored same
  | some entry =>
      rcases live?_eq_some_iff.mp isLive with ⟨stored, same⟩
      by_cases isKey : other = key
      · rw [isKey, OrderedMap.get?_set_self, stored, Option.map_some, if_pos ⟨rfl, same⟩]
      · simp [OrderedMap.get?_set_of_ne _ _ isKey, isKey]

theorem get?_reweigh (weight : JsNumber) (other : String) :
    (m.reweigh r key id weight).cache.get? other = (m.cache.get? other).map fun entry =>
      if other = key ∧ entry.id = id then { entry with weight := weight } else entry := by
  rw [← get?_assign, reweigh, assign]
  cases m.live? key id with
  | none => rfl
  | some entry => rfl

theorem get?_unlink (reason : Removal) (other : String) :
    (m.unlink r key id reason).cache.get? other = (m.cache.get? other).filter fun entry =>
      ¬(other = key ∧ entry.id = id) := by
  rw [unlink]
  cases isLive : m.live? key id with
  | none =>
      cases stored : m.cache.get? other with
      | none => rfl
      | some entry =>
          rw [Option.filter_some, if_pos]
          rw [decide_eq_true_eq]
          rintro ⟨rfl, same⟩
          exact live?_eq_none_iff.mp isLive entry stored same
  | some entry =>
      rcases live?_eq_some_iff.mp isLive with ⟨stored, same⟩
      by_cases isKey : other = key
      · rw [isKey, OrderedMap.get?_delete_self, stored, Option.filter_some, if_neg]
        simp [same]
      · rw [OrderedMap.get?_delete_of_ne _ isKey]
        cases m.cache.get? other with
        | none => rfl
        | some entry => simp [isKey, Option.filter_some]

theorem get?_link (entry : Entry) (other : String) :
    (m.link r key entry).cache.get? other =
      if other = key then some entry else m.cache.get? other := by
  rw [link]
  split
  next isKey => rw [isKey, OrderedMap.get?_set_self]
  next isOther => rw [OrderedMap.get?_set_of_ne _ _ isOther]

theorem get?_touch {hit : Entry} (stored : m.cache.get? key = some hit) (now : JsNumber)
    (other : String) : (m.touch key hit now).cache.get? other = m.cache.get? other := by
  rw [touch]
  by_cases isKey : other = key
  · rw [isKey, OrderedMap.get?_set_self, stored]
  · rw [OrderedMap.get?_set_of_ne _ _ isKey, OrderedMap.get?_delete_of_ne _ isKey]

@[simp] theorem history_assign (change : Entry → Entry) :
    (m.assign key id change).history = m.history := by
  rw [assign]
  cases m.live? key id with
  | none => rfl
  | some entry => rfl

@[simp] theorem history_reweigh (weight : JsNumber) :
    (m.reweigh r key id weight).history = m.history := by
  rw [reweigh]
  cases m.live? key id with
  | none => rfl
  | some entry => rfl

/-- Unlinking changes nothing or takes a live entry out. -/
theorem unlink_cases (reason : Removal) :
    m.unlink r key id reason = m ∧ m.live? key id = none ∨
      ∃ entry, m.live? key id = some entry ∧ m.unlink r key id reason =
        { cache := m.cache.delete key, totalWeight := r.sub m.totalWeight entry.weight
          history := .removed id reason :: m.history } := by
  rw [unlink]
  cases m.live? key id with
  | none => exact Or.inl ⟨rfl, rfl⟩
  | some entry => exact Or.inr ⟨entry, rfl, rfl⟩

theorem history_unlink (reason : Removal) :
    (m.unlink r key id reason).history = m.history ∨
      (m.unlink r key id reason).history = .removed id reason :: m.history := by
  rcases m.unlink_cases r reason with ⟨same, _⟩ | ⟨entry, _, taken⟩
  · exact Or.inl (by rw [same])
  · exact Or.inr (by rw [taken])

/-- The first entry in the order of the map is found under its key. -/
theorem live?_oldest {oldest : String × Entry} {rest : List (String × Entry)}
    (isOldest : m.cache.entries = oldest :: rest) :
    m.live? oldest.1 oldest.2.id = some oldest.2 := by
  apply live?_eq_some_iff.mpr
  refine ⟨(OrderedMap.get?_eq_some_iff _ _ _).mpr ?_, rfl⟩
  rw [isOldest]
  exact List.mem_cons_self

/-- Taking out the first entry leaves the others in their order. -/
theorem entries_unlink_oldest {oldest : String × Entry} {rest : List (String × Entry)}
    (isOldest : m.cache.entries = oldest :: rest) (reason : Removal) :
    (m.unlink r oldest.1 oldest.2.id reason).cache.entries = rest := by
  rw [unlink, live?_oldest isOldest]
  exact OrderedMap.entries_delete_of_cons isOldest

/-- Entries or weights are over a limit. -/
def IsOver (m : Memo) : Prop :=
  JsNumber.less options.maxEntries (.ofNat m.cache.entries.length) = true ∨
    JsNumber.less options.maxWeight m.totalWeight = true

/-- What the removal of the oldest entry keeps, eviction keeps; it ends within the limits
or without entries. -/
theorem evictLoop_rule (holds : Memo → Prop)
    (kept : ∀ m oldest rest, holds m → m.IsOver options → m.cache.entries = oldest :: rest →
      holds (m.unlink r oldest.1 oldest.2.id .evicted))
    {rounds : ℕ} {m ended : Memo} (start : holds m)
    (result : evictLoop r options rounds m = some ended) :
    holds ended ∧ (ended.IsOver options → ended.cache.entries = []) := by
  induction rounds generalizing m with
  | zero => exact absurd result (by simp [evictLoop])
  | succ rounds ih =>
      rw [evictLoop] at result
      split at result
      next exceeds =>
        split at result
        next isEmpty =>
          cases result
          exact ⟨start, fun _ => isEmpty⟩
        next oldest rest isOldest => exact ih (kept m oldest rest start exceeds isOldest) result
      next within =>
        cases result
        exact ⟨start, fun exceeds => absurd exceeds within⟩

theorem evict_rule (holds : Memo → Prop)
    (kept : ∀ m oldest rest, holds m → m.IsOver options → m.cache.entries = oldest :: rest →
      holds (m.unlink r oldest.1 oldest.2.id .evicted))
    {m ended : Memo} (start : holds m) (result : m.evict r options = some ended) :
    holds ended ∧ (ended.IsOver options → ended.cache.entries = []) :=
  evictLoop_rule r options holds kept start result

/-- The loop ends: every round takes an entry out. -/
theorem exists_evict (m : Memo) : ∃ ended, m.evict r options = some ended := by
  have loop : ∀ (rounds : ℕ) (m : Memo), m.cache.entries.length < rounds →
      ∃ ended, evictLoop r options rounds m = some ended := by
    intro rounds
    induction rounds with
    | zero => exact fun m few => absurd few (Nat.not_lt_zero _)
    | succ rounds ih =>
        intro m few
        rw [evictLoop]
        split
        next exceeds =>
          split
          next isEmpty => exact ⟨m, rfl⟩
          next oldest rest isOldest =>
            apply ih
            rw [entries_unlink_oldest r isOldest]
            rw [isOldest, List.length_cons] at few
            exact Nat.lt_of_succ_lt_succ few
        next within => exact ⟨m, rfl⟩
  exact loop _ m (Nat.lt_succ_self _)

end Memo

/-! ## The machine -/

/-- Foreign code that runs, and what follows it. -/
inductive Frame where
  | loading (key : String) (id : ℕ) (ttlMs : Option JsNumber)
  | weighing (key : String) (id : ℕ) (ttl : JsNumber)

/-- A promise that has not reacted yet. -/
structure Load where
  key : String
  id : ℕ
  ttlMs : Option JsNumber

structure MemoState where
  memo : Memo
  frames : List Frame
  loads : List Load
  nextId : ℕ

inductive MemoEvent where
  | call (key : String) (ttlMs : Option JsNumber) (now : JsNumber)
  | loadReturned
  | loadThrew
  | fulfilled (id : ℕ) (now : JsNumber)
  | weighed (result : Option JsValue) (now : JsNumber)
  | rejected (id : ℕ) (error : LoadError) (now : JsNumber)
  | invalidate (key : String)

namespace MemoState

variable (r : Rounding) (options : MemoOptions)

/-- Call the load function with the cache as given. -/
def startLoad (s : MemoState) (memo : Memo) (key : String) (ttlMs : Option JsNumber) : MemoState :=
  { s with
    memo := memo.note (.started key s.nextId)
    frames := .loading key s.nextId ttlMs :: s.frames
    nextId := s.nextId + 1 }

/-- `memo`, until the load function is called. -/
def call (s : MemoState) (key : String) (ttlMs : Option JsNumber) (now : JsNumber) : MemoState :=
  match s.memo.cache.get? key with
  | some hit =>
      if hit.pending ∨ JsNumber.less now hit.expires then
        { s with memo := s.memo.touch key hit now }
      else s.startLoad (s.memo.unlink r key hit.id (.expired now)) key ttlMs
  | none => s.startLoad s.memo key ttlMs

/-- `memo`, from where the load function has returned a promise. -/
def loadReturned (s : MemoState) : Option MemoState :=
  match s.frames with
  | .loading key id ttlMs :: rest =>
      ((s.memo.link r key (pendingEntry id)).evict r options).map fun memo =>
        { s with memo := memo, frames := rest, loads := ⟨key, id, ttlMs⟩ :: s.loads }
  | _ => none

/-- `memo`, from where the load function throws. -/
def loadThrew (s : MemoState) : Option MemoState :=
  match s.frames with
  | .loading _ id _ :: rest => some { s with memo := s.memo.note (.threw id), frames := rest }
  | _ => none

/-- The promise of an entry reacts, when nothing else runs. -/
def react (s : MemoState) (id : ℕ) : Option (Load × MemoState) :=
  match s.frames with
  | [] =>
      (s.loads.find? (·.id = id)).map fun load =>
        (load, { s with
          memo := (s.memo.assign load.key id ({ · with pending := false })).note (.settled id)
          loads := s.loads.filter (·.id ≠ id) })
  | _ => none

/-- The reaction to a value, until the weight function is called. -/
def fulfilled (s : MemoState) (id : ℕ) (now : JsNumber) : Option MemoState :=
  (s.react id).map fun (load, s) =>
    let ttl := load.ttlMs.getD options.ttlMs
    if s.memo.isLive load.key id then { s with frames := [.weighing load.key id ttl] }
    else { s with memo := s.memo.note (.succeeded id now ttl) }

/-- The reaction to a value, from where the weight function returns or throws. -/
def weighed (s : MemoState) (result : Option JsValue) (now : JsNumber) : Option MemoState :=
  match s.frames with
  | .weighing key id ttl :: rest =>
      let weight := settledWeight result
      let memo := s.memo.note (.succeeded id now ttl)
      if JsNumber.atMost ttl (.ofNat 0) ∨ JsNumber.less options.maxWeight weight then
        some { s with memo := memo.unlink r key id (.uncached weight), frames := rest }
      else
        let kept := (memo.reweigh r key id weight).assign key id
          ({ · with expires := r.add now ttl })
        (kept.evict r options).map fun memo => { s with memo := memo, frames := rest }
  | _ => none

/-- The reaction to a rejection. -/
def rejected (s : MemoState) (id : ℕ) (error : LoadError) (now : JsNumber) : Option MemoState :=
  (s.react id).map fun (load, s) =>
    let memo := s.memo.note (.failed id error now)
    if JsNumber.less (.ofNat 0) options.negativeTtlMs ∧ cacheable error then
      { s with memo := memo.assign load.key id
                ({ · with expires := r.add now options.negativeTtlMs }) }
    else { s with memo := memo.unlink r load.key id .unkept }

def invalidate (s : MemoState) (key : String) : MemoState :=
  match s.memo.cache.get? key with
  | some entry => { s with memo := s.memo.unlink r key entry.id .invalidated }
  | none => s

def step (s : MemoState) : MemoEvent → Option MemoState
  | .call key ttlMs now => some (s.call r key ttlMs now)
  | .loadReturned => s.loadReturned r options
  | .loadThrew => s.loadThrew
  | .fulfilled id now => s.fulfilled options id now
  | .weighed result now => s.weighed r options result now
  | .rejected id error now => s.rejected r options id error now
  | .invalidate key => some (s.invalidate r key)

/-- A load function calls the memo for its own key. -/
def reenters (s : MemoState) : MemoEvent → Bool
  | .call key _ _ => s.frames.any fun
      | .loading other _ _ => other = key
      | .weighing _ _ _ => false
  | _ => false

end MemoState

def createMemo (r : Rounding) (options : MemoOptions) : Machine MemoState MemoEvent where
  init :=
    { memo := { cache := .empty, totalWeight := .ofNat 0, history := [] }
      frames := [], loads := [], nextId := 0 }
  step := MemoState.step r options

end BelugaManager.DomainApi
