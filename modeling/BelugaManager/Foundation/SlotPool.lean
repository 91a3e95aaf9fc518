import Mathlib.Algebra.Order.BigOperators.Group.Finset
import Mathlib.Algebra.Order.Ring.Int
import Mathlib.Data.List.Nodup
import Mathlib.Logic.Function.Basic

/-!
# Pools of slots with a queue

A pool hands out a limited number of slots, keeps a bounded queue of those who wait and
passes a released slot on to the first of them.  The log lists who arrived, who was
granted a slot, who gave it back and who was refused one, each in order.
-/

namespace Foundation

/-- Where a request stands with the pool. -/
inductive Standing where
  | outside
  | waiting
  | owner
  | refused
  | finished
  deriving DecidableEq, Repr

structure SlotLog (Request : Type*) where
  arrived : List Request
  granted : List Request
  released : List Request
  refused : List Request

structure SlotPool (Request : Type*) where
  inUse : ℤ
  waiters : List Request
  standing : Request → Standing
  log : SlotLog Request

namespace SlotPool

variable {Request : Type*}

def empty : SlotPool Request where
  inUse := 0
  waiters := []
  standing := fun _ => .outside
  log := ⟨[], [], [], []⟩

variable [DecidableEq Request]

/-- A free slot is taken on arrival. -/
def take (pool : SlotPool Request) (r : Request) : SlotPool Request where
  inUse := pool.inUse + 1
  waiters := pool.waiters
  standing := Function.update pool.standing r .owner
  log := { pool.log with arrived := pool.log.arrived ++ [r], granted := pool.log.granted ++ [r] }

def enqueue (pool : SlotPool Request) (r : Request) : SlotPool Request where
  inUse := pool.inUse
  waiters := pool.waiters ++ [r]
  standing := Function.update pool.standing r .waiting
  log := { pool.log with arrived := pool.log.arrived ++ [r] }

/-- An arrival is turned away. -/
def refuse (pool : SlotPool Request) (r : Request) : SlotPool Request where
  inUse := pool.inUse
  waiters := pool.waiters
  standing := Function.update pool.standing r .refused
  log := { pool.log with arrived := pool.log.arrived ++ [r], refused := pool.log.refused ++ [r] }

/-- Someone stops waiting. -/
def withdraw (pool : SlotPool Request) (r : Request) : SlotPool Request where
  inUse := pool.inUse
  waiters := pool.waiters.erase r
  standing := Function.update pool.standing r .refused
  log := { pool.log with refused := pool.log.refused ++ [r] }

/-- A slot that is given back goes to the first in the queue. -/
def release (pool : SlotPool Request) (r : Request) : SlotPool Request :=
  match pool.waiters with
  | [] =>
      { inUse := pool.inUse - 1
        waiters := []
        standing := Function.update pool.standing r .finished
        log := { pool.log with released := pool.log.released ++ [r] } }
  | next :: rest =>
      { inUse := pool.inUse
        waiters := rest
        standing := Function.update (Function.update pool.standing r .finished) next .owner
        log := { pool.log with
          released := pool.log.released ++ [r], granted := pool.log.granted ++ [next] } }

/-- A request that owns nothing and waits for nothing ends. -/
def dismiss (pool : SlotPool Request) (r : Request) : SlotPool Request :=
  { pool with standing := Function.update pool.standing r .finished }

/-- Who was granted a slot and has not given it back. -/
def owners (pool : SlotPool Request) : List Request :=
  pool.log.granted.filter (· ∉ pool.log.released)

theorem mem_owners {pool : SlotPool Request} {r : Request} :
    r ∈ pool.owners ↔ r ∈ pool.log.granted ∧ r ∉ pool.log.released := by
  rw [owners, List.mem_filter, decide_eq_true_eq]

/-- What may happen to a pool with these limits. -/
inductive Step (limit queueLimit : ℤ) (pool : SlotPool Request) : SlotPool Request → Prop where
  | stay : Step limit queueLimit pool pool
  | take (r : Request) (new : pool.standing r = .outside) (free : pool.inUse < limit) :
      Step limit queueLimit pool (pool.take r)
  | enqueue (r : Request) (new : pool.standing r = .outside) (busy : ¬ pool.inUse < limit)
      (room : pool.waiters.length < queueLimit) : Step limit queueLimit pool (pool.enqueue r)
  | refuse (r : Request) (new : pool.standing r = .outside) :
      Step limit queueLimit pool (pool.refuse r)
  | withdraw (r : Request) (waiting : pool.standing r = .waiting) :
      Step limit queueLimit pool (pool.withdraw r)
  | release (r : Request) (owner : pool.standing r = .owner) :
      Step limit queueLimit pool (pool.release r)
  | dismiss (r : Request) (idle : pool.standing r = .outside ∨ pool.standing r = .refused) :
      Step limit queueLimit pool (pool.dismiss r)

/-- Every request stands where the log says. -/
structure Manned (pool : SlotPool Request) : Prop where
  outside : ∀ r, pool.standing r = .outside → r ∉ pool.log.arrived
  waiting : ∀ r, pool.standing r = .waiting ↔ r ∈ pool.waiters
  owning : ∀ r, pool.standing r = .owner ↔ r ∈ pool.owners
  refusing : ∀ r, pool.standing r = .refused → r ∈ pool.log.refused

/-- Slots are counted, bounded and passed on in the order of arrival. -/
structure Orderly (limit queueLimit : ℤ) (pool : SlotPool Request) : Prop where
  counted : pool.inUse = pool.log.granted.length - pool.log.released.length
  withinLimit : pool.inUse ≤ limit
  withinQueue : pool.waiters.length ≤ queueLimit
  busy : pool.waiters ≠ [] → pool.inUse = limit
  arrivedOnce : pool.log.arrived.Nodup
  inOrder : (pool.log.granted ++ pool.waiters).Sublist pool.log.arrived
  releasedOnce : pool.log.released.Nodup
  releasedOwn : ∀ r ∈ pool.log.released, r ∈ pool.log.granted
  refusedArrived : ∀ r ∈ pool.log.refused, r ∈ pool.log.arrived
  refusedApart : ∀ r ∈ pool.log.refused, r ∉ pool.log.granted ∧ r ∉ pool.waiters
  manned : pool.Manned

namespace Orderly

variable {limit queueLimit : ℤ} {pool : SlotPool Request}

theorem empty (slots : 0 ≤ limit) (queue : 0 ≤ queueLimit) :
    (SlotPool.empty : SlotPool Request).Orderly limit queueLimit := by
  constructor
  case manned => constructor <;> simp [SlotPool.empty, owners]
  all_goals simp [SlotPool.empty, slots, queue]

theorem nodup (orderly : pool.Orderly limit queueLimit) :
    (pool.log.granted ++ pool.waiters).Nodup := orderly.inOrder.nodup orderly.arrivedOnce

/-- Nobody is granted two slots. -/
theorem grantedOnce (orderly : pool.Orderly limit queueLimit) : pool.log.granted.Nodup :=
  (List.nodup_append.mp orderly.nodup).1

theorem waitersOnce (orderly : pool.Orderly limit queueLimit) : pool.waiters.Nodup :=
  (List.nodup_append.mp orderly.nodup).2.1

theorem notMem_granted (orderly : pool.Orderly limit queueLimit) {r : Request}
    (waiting : r ∈ pool.waiters) : r ∉ pool.log.granted := by
  intro granted
  exact (List.nodup_append.mp orderly.nodup).2.2 r granted r waiting rfl

theorem arrived_of_granted (orderly : pool.Orderly limit queueLimit) {r : Request}
    (granted : r ∈ pool.log.granted) : r ∈ pool.log.arrived :=
  orderly.inOrder.subset (List.mem_append_left _ granted)

theorem arrived_of_waiting (orderly : pool.Orderly limit queueLimit) {r : Request}
    (waiting : r ∈ pool.waiters) : r ∈ pool.log.arrived :=
  orderly.inOrder.subset (List.mem_append_right _ waiting)

/-- The counter is the number of owners. -/
theorem inUse_eq (orderly : pool.Orderly limit queueLimit) : pool.inUse = pool.owners.length := by
  have back : (pool.log.granted.filter (· ∈ pool.log.released)).Perm pool.log.released := by
    apply (List.perm_ext_iff_of_nodup (orderly.grantedOnce.filter _) orderly.releasedOnce).mpr
    intro r
    rw [List.mem_filter, decide_eq_true_eq, and_iff_right_iff_imp]
    exact orderly.releasedOwn r
  have parts := List.length_eq_length_filter_add (l := pool.log.granted) (· ∈ pool.log.released)
  have sameOwners :
      pool.owners = pool.log.granted.filter (fun r => !decide (r ∈ pool.log.released)) := by
    rw [owners]
    apply List.filter_congr
    intro r _
    exact decide_not
  rw [orderly.counted, sameOwners, parts, back.length_eq]
  simp

/-! ### Steps -/

/-- A request that has not arrived yet is nowhere. -/
theorem absent (orderly : pool.Orderly limit queueLimit) {r : Request}
    (new : pool.standing r = .outside) : r ∉ pool.log.arrived ∧ r ∉ pool.log.granted ∧
      r ∉ pool.log.released ∧ r ∉ pool.log.refused ∧ r ∉ pool.waiters := by
  have missing := orderly.manned.outside r new
  exact ⟨missing, fun granted => missing (orderly.arrived_of_granted granted),
    fun released => missing (orderly.arrived_of_granted (orderly.releasedOwn r released)),
    fun refused => missing (orderly.refusedArrived r refused),
    fun waiting => missing (orderly.arrived_of_waiting waiting)⟩

theorem arrivedOnce_append (orderly : pool.Orderly limit queueLimit) {r : Request}
    (new : pool.standing r = .outside) : (pool.log.arrived ++ [r]).Nodup := by
  apply orderly.arrivedOnce.append (List.nodup_singleton r)
  rw [List.disjoint_singleton]
  exact (orderly.absent new).1

theorem take (orderly : pool.Orderly limit queueLimit) {r : Request}
    (new : pool.standing r = .outside) (free : pool.inUse < limit) :
    (pool.take r).Orderly limit queueLimit := by
  have noWaiters : pool.waiters = [] := by
    by_contra waiting
    exact absurd (orderly.busy waiting) (ne_of_lt free)
  rcases orderly.absent new with ⟨notArrived, notGranted, notReleased, notRefused, _⟩
  constructor
  case counted =>
    simp only [SlotPool.take, List.length_append, List.length_singleton, orderly.counted]
    omega
  case withinLimit => exact free
  case withinQueue => exact orderly.withinQueue
  case busy => exact fun waiting => absurd noWaiters waiting
  case arrivedOnce => exact orderly.arrivedOnce_append new
  case inOrder =>
    have order := orderly.inOrder
    rw [noWaiters, List.append_nil] at order
    simp only [SlotPool.take, noWaiters, List.append_nil]
    exact order.append (List.Sublist.refl [r])
  case releasedOnce => exact orderly.releasedOnce
  case releasedOwn => exact fun other back =>
    List.mem_append_left _ (orderly.releasedOwn other back)
  case refusedArrived =>
    exact fun other away => List.mem_append_left _ (orderly.refusedArrived other away)
  case refusedApart =>
    intro other away
    have different : other ≠ r := fun same => notRefused (same ▸ away)
    simp [SlotPool.take, different, orderly.refusedApart other away]
  case manned =>
    constructor <;> intro other <;> rcases eq_or_ne other r with rfl | different
    · simp [SlotPool.take]
    · simpa [SlotPool.take, different] using orderly.manned.outside other
    · simp [SlotPool.take, noWaiters]
    · simpa [SlotPool.take, different] using orderly.manned.waiting other
    · simp [SlotPool.take, mem_owners, notReleased]
    · simpa [SlotPool.take, mem_owners, different] using orderly.manned.owning other
    · simp [SlotPool.take]
    · simpa [SlotPool.take, different] using orderly.manned.refusing other

theorem enqueue (orderly : pool.Orderly limit queueLimit) {r : Request}
    (new : pool.standing r = .outside) (busy : ¬ pool.inUse < limit)
    (room : pool.waiters.length < queueLimit) : (pool.enqueue r).Orderly limit queueLimit := by
  rcases orderly.absent new with ⟨notArrived, notGranted, notReleased, notRefused, notWaiting⟩
  constructor
  case counted => exact orderly.counted
  case withinLimit => exact orderly.withinLimit
  case withinQueue =>
    simp only [SlotPool.enqueue, List.length_append, List.length_singleton]
    omega
  case busy => exact fun _ => le_antisymm orderly.withinLimit (not_lt.mp busy)
  case arrivedOnce => exact orderly.arrivedOnce_append new
  case inOrder =>
    simp only [SlotPool.enqueue]
    rw [← List.append_assoc]
    exact orderly.inOrder.append (List.Sublist.refl [r])
  case releasedOnce => exact orderly.releasedOnce
  case releasedOwn => exact orderly.releasedOwn
  case refusedArrived =>
    exact fun other away => List.mem_append_left _ (orderly.refusedArrived other away)
  case refusedApart =>
    intro other away
    have different : other ≠ r := fun same => notRefused (same ▸ away)
    simp [SlotPool.enqueue, different, orderly.refusedApart other away]
  case manned =>
    constructor <;> intro other <;> rcases eq_or_ne other r with rfl | different
    · simp [SlotPool.enqueue]
    · simpa [SlotPool.enqueue, different] using orderly.manned.outside other
    · simp [SlotPool.enqueue]
    · simpa [SlotPool.enqueue, different] using orderly.manned.waiting other
    · simp [SlotPool.enqueue, mem_owners, notGranted]
    · simpa [SlotPool.enqueue, mem_owners, different] using orderly.manned.owning other
    · simp [SlotPool.enqueue]
    · simpa [SlotPool.enqueue, different] using orderly.manned.refusing other

theorem refuse (orderly : pool.Orderly limit queueLimit) {r : Request}
    (new : pool.standing r = .outside) : (pool.refuse r).Orderly limit queueLimit := by
  rcases orderly.absent new with ⟨notArrived, notGranted, notReleased, notRefused, notWaiting⟩
  constructor
  case counted => exact orderly.counted
  case withinLimit => exact orderly.withinLimit
  case withinQueue => exact orderly.withinQueue
  case busy => exact orderly.busy
  case arrivedOnce => exact orderly.arrivedOnce_append new
  case inOrder => exact orderly.inOrder.trans (List.sublist_append_left _ _)
  case releasedOnce => exact orderly.releasedOnce
  case releasedOwn => exact orderly.releasedOwn
  case refusedArrived =>
    intro other away
    rcases List.mem_append.mp away with before | now
    · exact List.mem_append_left _ (orderly.refusedArrived other before)
    · exact List.mem_append_right _ now
  case refusedApart =>
    intro other away
    rcases List.mem_append.mp away with before | now
    · exact orderly.refusedApart other before
    · rw [List.mem_singleton] at now
      subst now
      exact ⟨notGranted, notWaiting⟩
  case manned =>
    constructor <;> intro other <;> rcases eq_or_ne other r with rfl | different
    · simp [SlotPool.refuse]
    · simpa [SlotPool.refuse, different] using orderly.manned.outside other
    · simp [SlotPool.refuse, notWaiting]
    · simpa [SlotPool.refuse, different] using orderly.manned.waiting other
    · simp [SlotPool.refuse, mem_owners, notGranted]
    · simpa [SlotPool.refuse, mem_owners, different] using orderly.manned.owning other
    · simp [SlotPool.refuse]
    · simpa [SlotPool.refuse, different] using orderly.manned.refusing other

theorem withdraw (orderly : pool.Orderly limit queueLimit) {r : Request}
    (isWaiting : pool.standing r = .waiting) : (pool.withdraw r).Orderly limit queueLimit := by
  have waiting := (orderly.manned.waiting r).mp isWaiting
  have notGranted := orderly.notMem_granted waiting
  have fewer : (pool.waiters.erase r).Sublist pool.waiters := List.erase_sublist
  have gone : r ∉ pool.waiters.erase r := orderly.waitersOnce.not_mem_erase
  constructor
  case counted => exact orderly.counted
  case withinLimit => exact orderly.withinLimit
  case withinQueue => exact le_trans (Int.ofNat_le.mpr fewer.length_le) orderly.withinQueue
  case busy => exact fun _ => orderly.busy (List.ne_nil_of_mem waiting)
  case arrivedOnce => exact orderly.arrivedOnce
  case inOrder => exact ((List.Sublist.refl _).append fewer).trans orderly.inOrder
  case releasedOnce => exact orderly.releasedOnce
  case releasedOwn => exact orderly.releasedOwn
  case refusedArrived =>
    intro other away
    rcases List.mem_append.mp away with before | now
    · exact orderly.refusedArrived other before
    · rw [List.mem_singleton] at now
      subst now
      exact orderly.arrived_of_waiting waiting
  case refusedApart =>
    intro other away
    rcases List.mem_append.mp away with before | now
    · exact ⟨(orderly.refusedApart other before).1,
        fun still => (orderly.refusedApart other before).2 (fewer.subset still)⟩
    · rw [List.mem_singleton] at now
      subst now
      exact ⟨notGranted, gone⟩
  case manned =>
    constructor <;> intro other <;> rcases eq_or_ne other r with rfl | different
    · simp [SlotPool.withdraw]
    · simpa [SlotPool.withdraw, different] using orderly.manned.outside other
    · simpa [SlotPool.withdraw] using gone
    · simpa [SlotPool.withdraw, different, List.mem_erase_of_ne different] using
        orderly.manned.waiting other
    · simp [SlotPool.withdraw, mem_owners, notGranted]
    · simpa [SlotPool.withdraw, mem_owners, different] using orderly.manned.owning other
    · simp [SlotPool.withdraw]
    · simpa [SlotPool.withdraw, different] using orderly.manned.refusing other

theorem dismiss (orderly : pool.Orderly limit queueLimit) {r : Request}
    (idle : pool.standing r = .outside ∨ pool.standing r = .refused) :
    (pool.dismiss r).Orderly limit queueLimit := by
  have notWaiting : r ∉ pool.waiters := by
    rw [← orderly.manned.waiting r]
    rcases idle with same | same <;> simp [same]
  have notOwner : r ∉ pool.owners := by
    rw [← orderly.manned.owning r]
    rcases idle with same | same <;> simp [same]
  refine { orderly with manned := ?_ }
  constructor <;> intro other <;> rcases eq_or_ne other r with rfl | different
  · simp [SlotPool.dismiss]
  · simpa [SlotPool.dismiss, different] using orderly.manned.outside other
  · simpa [SlotPool.dismiss] using notWaiting
  · simpa [SlotPool.dismiss, different] using orderly.manned.waiting other
  · simpa [SlotPool.dismiss, mem_owners] using notOwner
  · simpa [SlotPool.dismiss, mem_owners, different] using orderly.manned.owning other
  · simp [SlotPool.dismiss]
  · simpa [SlotPool.dismiss, different] using orderly.manned.refusing other

theorem release (orderly : pool.Orderly limit queueLimit) {r : Request}
    (isOwner : pool.standing r = .owner) : (pool.release r).Orderly limit queueLimit := by
  rcases mem_owners.mp ((orderly.manned.owning r).mp isOwner) with ⟨granted, held⟩
  have once : (pool.log.released ++ [r]).Nodup := by
    apply orderly.releasedOnce.append (List.nodup_singleton r)
    rwa [List.disjoint_singleton]
  have own : ∀ other ∈ pool.log.released ++ [r], other ∈ pool.log.granted := by
    intro other back
    rcases List.mem_append.mp back with before | now
    · exact orderly.releasedOwn other before
    · exact List.mem_singleton.mp now ▸ granted
  have notWaiting : r ∉ pool.waiters := fun waiting => orderly.notMem_granted waiting granted
  rcases pool with ⟨inUse, waiters, standing, log⟩
  have counted : inUse = log.granted.length - log.released.length := orderly.counted
  cases waiters with
  | nil =>
      constructor
      case counted =>
        simp only [SlotPool.release, List.length_append, List.length_singleton]
        omega
      case withinLimit => exact le_trans (sub_le_self _ zero_le_one) orderly.withinLimit
      case withinQueue => exact orderly.withinQueue
      case busy => exact fun waiting => absurd rfl waiting
      case arrivedOnce => exact orderly.arrivedOnce
      case inOrder => exact orderly.inOrder
      case releasedOnce => exact once
      case releasedOwn => exact own
      case refusedArrived => exact orderly.refusedArrived
      case refusedApart => exact orderly.refusedApart
      case manned =>
        constructor <;> intro other <;> rcases eq_or_ne other r with rfl | different
        · simp [SlotPool.release]
        · simpa [SlotPool.release, different] using orderly.manned.outside other
        · simp [SlotPool.release]
        · simpa [SlotPool.release, different] using orderly.manned.waiting other
        · simp [SlotPool.release, mem_owners]
        · simpa [SlotPool.release, mem_owners, different] using orderly.manned.owning other
        · simp [SlotPool.release]
        · simpa [SlotPool.release, different] using orderly.manned.refusing other
  | cons next rest =>
      have nextGranted : next ∉ log.granted := orderly.notMem_granted List.mem_cons_self
      have nextReleased : next ∉ log.released :=
        fun released => nextGranted (orderly.releasedOwn next released)
      have nextRest : next ∉ rest := (List.nodup_cons.mp orderly.waitersOnce).1
      have nextArrived : next ∈ log.arrived := orderly.arrived_of_waiting List.mem_cons_self
      rw [List.mem_cons, not_or] at notWaiting
      constructor
      case counted =>
        simp only [SlotPool.release, List.length_append, List.length_singleton]
        omega
      case withinLimit => exact orderly.withinLimit
      case withinQueue =>
        exact le_trans (Int.ofNat_le.mpr (Nat.le_succ rest.length)) orderly.withinQueue
      case busy => exact fun _ => orderly.busy (List.cons_ne_nil next rest)
      case arrivedOnce => exact orderly.arrivedOnce
      case inOrder =>
        simp only [SlotPool.release, List.append_assoc, List.singleton_append]
        exact orderly.inOrder
      case releasedOnce => exact once
      case releasedOwn => exact fun other back => List.mem_append_left _ (own other back)
      case refusedArrived => exact orderly.refusedArrived
      case refusedApart =>
        intro other away
        have apart := orderly.refusedApart other away
        rw [List.mem_cons, not_or] at apart
        simp [SlotPool.release, apart]
      case manned =>
        have places : ∀ other, other = next ∨ other = r ∧ other ≠ next ∨
            other ≠ r ∧ other ≠ next := by
          intro other
          by_cases isNext : other = next
          · exact Or.inl isNext
          · by_cases same : other = r
            · exact Or.inr (Or.inl ⟨same, isNext⟩)
            · exact Or.inr (Or.inr ⟨same, isNext⟩)
        constructor <;> intro other <;>
          rcases places other with rfl | ⟨rfl, notNext⟩ | ⟨different, notNext⟩
        · simp [SlotPool.release]
        · simp [SlotPool.release, notNext]
        · simpa [SlotPool.release, notNext, different] using orderly.manned.outside other
        · simpa [SlotPool.release] using nextRest
        · simpa [SlotPool.release, notNext] using notWaiting.2
        · simpa [SlotPool.release, notNext, different] using orderly.manned.waiting other
        · simp [SlotPool.release, mem_owners, nextReleased, Ne.symm notWaiting.1]
        · simp [SlotPool.release, mem_owners, notNext]
        · simpa [SlotPool.release, mem_owners, notNext, different] using
            orderly.manned.owning other
        · simp [SlotPool.release]
        · simp [SlotPool.release, notNext]
        · simpa [SlotPool.release, notNext, different] using orderly.manned.refusing other

/-- Every step keeps a pool orderly. -/
theorem step (orderly : pool.Orderly limit queueLimit) {next : SlotPool Request}
    (stepped : Step limit queueLimit pool next) : next.Orderly limit queueLimit := by
  cases stepped with
  | stay => exact orderly
  | take r new free => exact orderly.take new free
  | enqueue r new busy room => exact orderly.enqueue new busy room
  | refuse r new => exact orderly.refuse new
  | withdraw r waiting => exact orderly.withdraw waiting
  | release r owner => exact orderly.release owner
  | dismiss r idle => exact orderly.dismiss idle

/-! ### What owners hold -/

/-- There are no more owners than slots. -/
theorem card_le (orderly : pool.Orderly limit queueLimit) (requests : Finset Request)
    (owning : ∀ r ∈ requests, pool.standing r = .owner) : (requests.card : ℤ) ≤ limit := by
  have owned : requests ⊆ pool.owners.toFinset := by
    intro r member
    exact List.mem_toFinset.mpr ((orderly.manned.owning r).mp (owning r member))
  have few := (Finset.card_le_card owned).trans pool.owners.toFinset_card_le
  have counted := orderly.inUse_eq
  have within := orderly.withinLimit
  omega

/-- Where only owners hold anything, and none more than its share, all of them together hold no more
than a share for each slot. -/
theorem sum_le (orderly : pool.Orderly limit queueLimit) {held : Request → ℕ} {share : ℕ}
    (fair : ∀ r, held r ≤ share) (owned : ∀ r, held r ≠ 0 → pool.standing r = .owner)
    (requests : Finset Request) : ((requests.sum held : ℕ) : ℤ) ≤ limit * share := by
  have few := orderly.card_le (requests.filter (held · ≠ 0)) fun r member =>
    owned r (Finset.mem_filter.mp member).2
  have total : requests.sum held ≤ (requests.filter (held · ≠ 0)).card * share := by
    rw [← Finset.sum_filter_ne_zero]
    refine (Finset.sum_le_card_nsmul _ held share fun r _ => fair r).trans_eq ?_
    rw [nsmul_eq_mul, Nat.cast_id]
  calc ((requests.sum held : ℕ) : ℤ)
      ≤ (requests.filter (held · ≠ 0)).card * share := by exact_mod_cast total
    _ ≤ limit * share := mul_le_mul_of_nonneg_right few (Int.natCast_nonneg share)

end Orderly

end SlotPool

end Foundation
