import BelugaManager.DomainApi.MemoHistory

/-!
# The accounts of a memo

As long as no load function calls the memo for its own key, the running total is the sum
of the weights in the cache, both limits hold after every step, and what is evicted is
what was used least recently.
-/

namespace BelugaManager.DomainApi

open Foundation

/-! ## Weights -/

/-- The weight of an entry as a natural number. -/
def Entry.units (entry : Entry) : ℕ :=
  match entry.weight with
  | .finite value => ⌊value⌋.toNat
  | _ => 0

def sumUnits (entries : List (String × Entry)) : ℕ := (entries.map (·.2.units)).sum

theorem units_of_weight {entry : Entry} {n : ℕ} (weight : entry.weight = .ofNat n) :
    entry.units = n := by
  rw [Entry.units, weight, JsNumber.ofNat]
  simp

theorem sumUnits_perm {left right : List (String × Entry)} (perm : left.Perm right) :
    sumUnits left = sumUnits right := (perm.map _).sum_eq

@[simp] theorem sumUnits_cons (entry : String × Entry) (rest : List (String × Entry)) :
    sumUnits (entry :: rest) = entry.2.units + sumUnits rest := by
  rw [sumUnits, List.map_cons, List.sum_cons, sumUnits]

/-- Every weight is a natural number and the total is their sum, which is small enough for
exact arithmetic. -/
structure Accounted (m : Memo) : Prop where
  whole : ∀ entry ∈ m.cache.entries, entry.2.weight = .ofNat entry.2.units
  total : m.totalWeight = .ofNat (sumUnits m.cache.entries)
  small : sumUnits m.cache.entries ≤ 2 ^ 53

section

variable (r : Rounding) {m : Memo} {key : String} {id : ℕ}

theorem add_ofNat {a b : ℕ} (small : a + b ≤ 2 ^ 53) :
    r.add (.ofNat a) (.ofNat b) = .ofNat (a + b) := by
  have exact := r.add_int (a := a) (b := b) (by rw [abs_of_nonneg (by omega)]; omega)
  simpa [JsNumber.ofNat] using exact

theorem sub_ofNat {a b : ℕ} (fewer : b ≤ a) (small : a ≤ 2 ^ 53) :
    r.sub (.ofNat a) (.ofNat b) = .ofNat (a - b) := by
  have exact := r.sub_int (a := a) (b := b) (by rw [abs_of_nonneg (by omega)]; omega)
  rw [← Nat.cast_sub fewer] at exact
  simpa [JsNumber.ofNat] using exact

/-- The total after an entry is taken out. -/
theorem Accounted.unlink (accounted : Accounted m) (reason : Removal) :
    Accounted (m.unlink r key id reason) := by
  rcases m.unlink_cases r reason with ⟨same, _⟩ | ⟨entry, isLive, taken⟩
  · rw [same]
    exact accounted
  · have stored := (Memo.live?_eq_some_iff.mp isLive).1
    have perm := OrderedMap.entries_perm_delete stored
    have sum := sumUnits_perm perm
    rw [sumUnits_cons] at sum
    have small := accounted.small
    rw [taken]
    refine ⟨?_, ?_, ?_⟩
    · intro other member
      exact accounted.whole other (perm.mem_iff.mpr (List.mem_cons_of_mem _ member))
    · have weight := accounted.whole (key, entry) (perm.mem_iff.mpr List.mem_cons_self)
      dsimp only at sum weight ⊢
      rw [accounted.total, weight, sub_ofNat r (by omega) small]
      congr 1
      omega
    · dsimp only at sum ⊢
      omega

/-- Assigning to fields other than the weight changes neither the number of entries nor
the sum. -/
theorem sumUnits_assign {change : Entry → Entry}
    (sameWeight : ∀ entry, (change entry).weight = entry.weight) :
    (m.assign key id change).cache.entries.length = m.cache.entries.length ∧
      sumUnits (m.assign key id change).cache.entries = sumUnits m.cache.entries := by
  rw [Memo.assign]
  cases isLive : m.live? key id with
  | none => exact ⟨rfl, rfl⟩
  | some entry =>
      have stored := (Memo.live?_eq_some_iff.mp isLive).1
      have before := OrderedMap.entries_perm_delete stored
      have after := OrderedMap.entries_perm_set m.cache key (change entry)
      have sameUnits : (change entry).units = entry.units := by
        rw [Entry.units, sameWeight, Entry.units]
      constructor
      · exact after.length_eq.trans before.length_eq.symm
      · rw [sumUnits_perm after, sumUnits_perm before, sumUnits_cons, sumUnits_cons, sameUnits]

theorem Accounted.assign (accounted : Accounted m) {change : Entry → Entry}
    (sameWeight : ∀ entry, (change entry).weight = entry.weight) :
    Accounted (m.assign key id change) := by
  have sameSum : sumUnits (m.assign key id change).cache.entries = sumUnits m.cache.entries :=
    (sumUnits_assign sameWeight).2
  have sameTotal : (m.assign key id change).totalWeight = m.totalWeight := by
    rw [Memo.assign]
    cases m.live? key id with
    | none => rfl
    | some entry => rfl
  refine ⟨?_, by rw [sameTotal, sameSum]; exact accounted.total,
    by rw [sameSum]; exact accounted.small⟩
  rw [Memo.assign]
  cases isLive : m.live? key id with
  | none => exact accounted.whole
  | some entry =>
      have stored := (Memo.live?_eq_some_iff.mp isLive).1
      have before := OrderedMap.entries_perm_delete stored
      have after := OrderedMap.entries_perm_set m.cache key (change entry)
      have sameUnits : (change entry).units = entry.units := by
        rw [Entry.units, sameWeight, Entry.units]
      intro other member
      rcases List.mem_cons.mp (after.mem_iff.mp member) with rfl | inOthers
      · have weight := accounted.whole (key, entry) (before.mem_iff.mpr List.mem_cons_self)
        dsimp only at weight ⊢
        rw [sameWeight, sameUnits, weight]
      · exact accounted.whole other (before.mem_iff.mpr (List.mem_cons_of_mem _ inOthers))

/-- The total after an entry is weighed again. -/
theorem Accounted.reweigh (accounted : Accounted m) {n : ℕ}
    (small : sumUnits m.cache.entries + n ≤ 2 ^ 53) :
    Accounted (m.reweigh r key id (.ofNat n)) ∧
      sumUnits (m.reweigh r key id (.ofNat n)).cache.entries ≤ sumUnits m.cache.entries + n := by
  rw [Memo.reweigh]
  cases isLive : m.live? key id with
  | none => exact ⟨accounted, Nat.le_add_right _ _⟩
  | some entry =>
      have stored := (Memo.live?_eq_some_iff.mp isLive).1
      have before := OrderedMap.entries_perm_delete stored
      have after := OrderedMap.entries_perm_set m.cache key { entry with weight := .ofNat n }
      have units : Entry.units { entry with weight := .ofNat n } = n := units_of_weight rfl
      have sumBefore := sumUnits_perm before
      have sumAfter := sumUnits_perm after
      have weight := accounted.whole (key, entry) (before.mem_iff.mpr List.mem_cons_self)
      rw [sumUnits_cons] at sumBefore sumAfter
      dsimp only at sumBefore sumAfter weight ⊢
      rw [units] at sumAfter
      have exact : r.add m.totalWeight (r.sub (.ofNat n) entry.weight) =
          .ofNat (n + sumUnits (m.cache.delete key).entries) := by
        have difference := r.sub_int (a := n) (b := entry.units) (by rw [abs_le]; omega)
        have sum := r.add_int (a := sumUnits m.cache.entries) (b := n - entry.units)
          (by rw [abs_le]; omega)
        have same : (sumUnits m.cache.entries : ℤ) + (n - entry.units) =
            (n + sumUnits (m.cache.delete key).entries : ℕ) := by omega
        rw [same] at sum
        rw [accounted.total, weight]
        simp only [JsNumber.ofNat, Int.cast_natCast] at difference sum ⊢
        rw [difference, sum]
      refine ⟨⟨?_, exact.trans (congrArg JsNumber.ofNat sumAfter.symm), sumAfter.trans_le ?_⟩,
        sumAfter.trans_le ?_⟩
      · intro other member
        rcases List.mem_cons.mp (after.mem_iff.mp member) with rfl | inOthers
        · exact congrArg JsNumber.ofNat units.symm
        · exact accounted.whole other (before.mem_iff.mpr (List.mem_cons_of_mem _ inOthers))
      · omega
      · omega

/-- The total after a new entry is linked under a free key. -/
theorem Accounted.link (accounted : Accounted m) (absent : m.cache.get? key = none)
    (small : sumUnits m.cache.entries + 1 ≤ 2 ^ 53) (id : ℕ) :
    Accounted (m.link r key (pendingEntry id)) ∧
      sumUnits (m.link r key (pendingEntry id)).cache.entries = sumUnits m.cache.entries + 1 := by
  have units : (pendingEntry id).units = 1 := units_of_weight rfl
  have entries : (m.link r key (pendingEntry id)).cache.entries =
      m.cache.entries ++ [(key, pendingEntry id)] := OrderedMap.entries_set_of_absent _ _ absent
  have sum : sumUnits (m.link r key (pendingEntry id)).cache.entries =
      sumUnits m.cache.entries + 1 := by
    rw [entries, sumUnits, List.map_append, List.sum_append, sumUnits]
    simp [units]
  refine ⟨⟨?_, ?_, sum.trans_le small⟩, sum⟩
  · intro other member
    rw [entries] at member
    rcases List.mem_append.mp member with earlier | isNew
    · exact accounted.whole other earlier
    · rw [List.mem_singleton.mp isNew]
      exact congrArg JsNumber.ofNat units.symm
  · rw [sum]
    have added := add_ofNat r (a := sumUnits m.cache.entries) (b := 1) small
    rw [← accounted.total] at added
    exact added

theorem Accounted.touch (accounted : Accounted m) {hit : Entry}
    (stored : m.cache.get? key = some hit) (now : JsNumber) : Accounted (m.touch key hit now) := by
  have before := OrderedMap.entries_perm_delete stored
  have after : (m.touch key hit now).cache.entries =
      (m.cache.delete key).entries ++ [(key, hit)] :=
    OrderedMap.entries_set_of_absent _ _ (OrderedMap.get?_delete_self _ _)
  have perm : (m.touch key hit now).cache.entries.Perm m.cache.entries := by
    rw [after]
    exact (List.perm_append_singleton _ _).trans before.symm
  refine ⟨?_, ?_, ?_⟩
  · exact fun other member => accounted.whole other (perm.mem_iff.mp member)
  · rw [sumUnits_perm perm]
    exact accounted.total
  · rw [sumUnits_perm perm]
    exact accounted.small

/-! ## Limits -/

/-- Both limits hold. -/
def WithinLimits (maxEntries maxWeight : ℕ) (m : Memo) : Prop :=
  m.cache.entries.length ≤ maxEntries ∧ sumUnits m.cache.entries ≤ maxWeight

variable {options : MemoOptions} {maxEntries maxWeight : ℕ}
  (entryLimit : options.maxEntries = .ofNat maxEntries)
  (weightLimit : options.maxWeight = .ofNat maxWeight)

theorem length_unlink_le (reason : Removal) :
    (m.unlink r key id reason).cache.entries.length ≤ m.cache.entries.length ∧
      sumUnits (m.unlink r key id reason).cache.entries ≤ sumUnits m.cache.entries := by
  rcases m.unlink_cases r reason with ⟨same, _⟩ | ⟨entry, isLive, taken⟩
  · rw [same]
    exact ⟨Nat.le_refl _, Nat.le_refl _⟩
  · have perm := OrderedMap.entries_perm_delete (Memo.live?_eq_some_iff.mp isLive).1
    have length := perm.length_eq
    have sum := sumUnits_perm perm
    rw [sumUnits_cons] at sum
    rw [List.length_cons] at length
    rw [taken]
    dsimp only at sum ⊢
    exact ⟨by omega, by omega⟩

include entryLimit weightLimit

/-- Eviction restores the limits. -/
theorem Accounted.evict {ended : Memo} (accounted : Accounted m)
    (result : m.evict r options = some ended) :
    Accounted ended ∧ WithinLimits maxEntries maxWeight ended := by
  rcases Memo.evict_rule r options Accounted (fun _ _ _ before _ _ => before.unlink r .evicted)
    accounted result with ⟨after, empty⟩
  refine ⟨after, ?_⟩
  by_cases exceeds : ended.IsOver options
  · rw [WithinLimits, empty exceeds]
    exact ⟨Nat.zero_le _, Nat.zero_le _⟩
  · rw [Memo.IsOver, entryLimit, weightLimit, after.total, JsNumber.less_ofNat,
      JsNumber.less_ofNat, not_or, not_lt, not_lt] at exceeds
    exact exceeds

end

/-! ## Recency -/

/-- The entry that a call receives or that is inserted. -/
def Occurrence.uses : Occurrence → Option ℕ
  | .linked _ id => some id
  | .received _ id _ => some id
  | _ => none

/-- When an entry was received or inserted last. -/
def lastUse : List Occurrence → ℕ → ℕ
  | [], _ => 0
  | latest :: earlier, id =>
      if latest.uses = some id then earlier.length + 1 else lastUse earlier id

theorem lastUse_le (history : List Occurrence) (id : ℕ) : lastUse history id ≤ history.length := by
  induction history with
  | nil => exact Nat.le_refl _
  | cons latest earlier ih =>
      rw [lastUse, List.length_cons]
      split
      next => exact Nat.le_refl _
      next => exact Nat.le_succ_of_le ih

theorem lastUse_cons_of_ne {latest : Occurrence} {id : ℕ} (other : latest.uses ≠ some id)
    (history : List Occurrence) : lastUse (latest :: history) id = lastUse history id :=
  if_neg other

/-- Whatever is evicted was used before everything else in the cache. -/
def LeastRecent : Occurrence → List Occurrence → Prop
  | .removed id .evicted, earlier =>
      ∀ key other, LiveIn earlier key other → other ≠ id →
        lastUse earlier id < lastUse earlier other
  | _, _ => True

/-- The numbers of the entries in the order of the map. -/
def Memo.order (m : Memo) : List ℕ := m.cache.entries.map (·.2.id)

/-- The map is in the order of the last uses, and evictions respected it. -/
structure Aged (m : Memo) : Prop where
  ordered : m.order.Pairwise fun older newer => lastUse m.history older < lastUse m.history newer
  recent : Throughout LeastRecent m.history

theorem Aged.order_nodup {m : Memo} (aged : Aged m) : m.order.Nodup := by
  apply aged.ordered.imp
  intro older newer less same
  rw [same] at less
  exact Nat.lt_irrefl _ less

section

variable {r : Rounding} {options : MemoOptions} {m next : Memo} {key : String} {id : ℕ}

/-- A use of an entry that is no longer in the order puts it at the end. -/
theorem Aged.append {order : List ℕ} {history : List Occurrence} {latest : Occurrence}
    (ordered : order.Pairwise fun older newer => lastUse history older < lastUse history newer)
    (recent : Throughout LeastRecent history) (absent : id ∉ order) (uses : latest.uses = some id)
    (nextOrder : next.order = order ++ [id]) (nextHistory : next.history = latest :: history) :
    Aged next := by
  have quiet : LeastRecent latest history := by
    cases latest with
    | linked => trivial
    | received => trivial
    | started => trivial
    | threw => trivial
    | settled => trivial
    | succeeded => trivial
    | failed => trivial
    | removed => exact absurd uses (by simp [Occurrence.uses])
  have same : ∀ other ∈ order, lastUse (latest :: history) other = lastUse history other := by
    intro other member
    apply lastUse_cons_of_ne
    rw [uses, Ne, Option.some.injEq]
    rintro rfl
    exact absent member
  constructor
  · rw [nextOrder, nextHistory, List.pairwise_append]
    refine ⟨?_, List.pairwise_singleton _ _, ?_⟩
    · apply ordered.imp_of_mem
      intro older newer inOlder inNewer less
      rwa [same older inOlder, same newer inNewer]
    · intro other member last isLast
      rw [List.mem_singleton.mp isLast, same other member, lastUse, if_pos uses]
      exact Nat.lt_succ_of_le (lastUse_le history other)
  · rw [nextHistory, throughout_cons]
    exact ⟨quiet, recent⟩

/-- Occurrences that use no entry and evict none leave the order. -/
theorem Aged.of_unused (aged : Aged m) {latest : Occurrence} (unused : latest.uses = none)
    (recent : LeastRecent latest m.history) (order : next.order.Sublist m.order)
    (history : next.history = latest :: m.history) : Aged next := by
  constructor
  · rw [history]
    refine (aged.ordered.sublist order).imp ?_
    intro older newer less
    rwa [lastUse_cons_of_ne (by simp [unused]), lastUse_cons_of_ne (by simp [unused])]
  · rw [history, throughout_cons]
    exact ⟨recent, aged.recent⟩

theorem order_assign {change : Entry → Entry} (sameId : ∀ entry, (change entry).id = entry.id) :
    (m.assign key id change).order = m.order := by
  rw [Memo.assign]
  cases isLive : m.live? key id with
  | none => rfl
  | some entry =>
      rcases Memo.live?_eq_some_iff.mp isLive with ⟨stored, _⟩
      have present : key ∈ m.cache.entries.map Prod.fst :=
        (OrderedMap.mem_keys_iff _ _).mpr ⟨entry, stored⟩
      simp only [Memo.order, OrderedMap.set, OrderedMap.setEntries, if_pos present, List.map_map]
      apply List.map_congr_left
      intro other member
      rw [Function.comp_apply]
      split
      next isKey =>
        have found : m.cache.get? key = some other.2 :=
          (OrderedMap.get?_eq_some_iff _ _ _).mpr (isKey ▸ member)
        have same : entry = other.2 := Option.some.inj (stored.symm.trans found)
        rw [sameId, same]
      next => rfl

theorem order_reweigh (weight : JsNumber) : (m.reweigh r key id weight).order = m.order := by
  have sameId : ∀ entry : Entry, ({ entry with weight := weight } : Entry).id = entry.id :=
    fun _ => rfl
  have same : (m.reweigh r key id weight).order =
      (m.assign key id ({ · with weight := weight })).order := by
    rw [Memo.reweigh, Memo.assign]
    cases m.live? key id with
    | none => rfl
    | some entry => rfl
  rw [same, order_assign sameId]

theorem Aged.assign (aged : Aged m) {change : Entry → Entry}
    (sameId : ∀ entry, (change entry).id = entry.id) : Aged (m.assign key id change) := by
  constructor
  · rw [order_assign sameId, Memo.history_assign]
    exact aged.ordered
  · rw [Memo.history_assign]
    exact aged.recent

theorem Aged.reweigh (aged : Aged m) (weight : JsNumber) : Aged (m.reweigh r key id weight) := by
  constructor
  · rw [order_reweigh, Memo.history_reweigh]
    exact aged.ordered
  · rw [Memo.history_reweigh]
    exact aged.recent

theorem Aged.note (aged : Aged m) {latest : Occurrence} (unused : latest.uses = none)
    (recent : LeastRecent latest m.history) : Aged (m.note latest) :=
  aged.of_unused unused recent (List.Sublist.refl _) rfl

theorem Aged.unlink (aged : Aged m) {reason : Removal}
    (recent : LeastRecent (.removed id reason) m.history) : Aged (m.unlink r key id reason) := by
  rcases m.unlink_cases r reason with ⟨same, _⟩ | ⟨entry, _, taken⟩
  · rw [same]
    exact aged
  · rw [taken]
    exact aged.of_unused rfl recent (List.filter_sublist.map _) rfl

theorem Aged.evict (aged : Aged m) (recorded : Recorded r options m)
    (result : m.evict r options = some next) : Aged next := by
  refine (Memo.evict_rule r options (fun current => Recorded r options current ∧ Aged current) ?_
    ⟨recorded, aged⟩ result).1.2
  rintro current oldest rest ⟨before, ordered⟩ _ isOldest
  refine ⟨before.unlink fun _ _ => trivial, ordered.unlink ?_⟩
  intro other found live different
  rcases Memo.ids_eq_some_iff.mp ((before.live_iff other found).mpr live) with ⟨entry, isLive⟩
  rcases Memo.live?_eq_some_iff.mp isLive with ⟨stored, sameId⟩
  have member := (OrderedMap.get?_eq_some_iff _ _ _).mp stored
  have order := ordered.ordered
  rw [isOldest] at member
  rw [Memo.order, isOldest, List.map_cons, List.pairwise_cons] at order
  rcases List.mem_cons.mp member with isFirst | inRest
  · rw [← isFirst] at different
    exact absurd sameId.symm different
  · rw [← sameId]
    exact order.1 entry.id (List.mem_map_of_mem inRest)

theorem Aged.link (aged : Aged m) (absent : m.cache.get? key = none) (isNew : id ∉ m.order) :
    Aged (m.link r key (pendingEntry id)) := by
  have uses : (Occurrence.linked key id).uses = some id := rfl
  refine Aged.append aged.ordered aged.recent isNew uses ?_ ?_
  · rw [Memo.order, Memo.link, OrderedMap.entries_set_of_absent _ _ absent, List.map_append,
      Memo.order]
    rfl
  · rw [Memo.link, Memo.noteReplaced, absent]
    rfl

theorem Aged.touch (aged : Aged m) {hit : Entry} (stored : m.cache.get? key = some hit)
    (now : JsNumber) : Aged (m.touch key hit now) := by
  have shorter : ((m.cache.delete key).entries.map (·.2.id)).Sublist m.order :=
    List.filter_sublist.map _
  refine Aged.append (aged.ordered.sublist shorter) aged.recent ?_ rfl ?_ rfl
  · intro member
    rcases List.mem_map.mp member with ⟨entry, inOthers, sameId⟩
    have isOther := List.mem_filter.mp inOthers
    have isHit := (OrderedMap.get?_eq_some_iff _ _ _).mp stored
    have same := List.inj_on_of_nodup_map aged.order_nodup isOther.1 isHit sameId
    simp [same] at isOther
  · rw [Memo.order, Memo.touch,
      OrderedMap.entries_set_of_absent _ _ (OrderedMap.get?_delete_self _ _), List.map_append]
    rfl

end

/-! ## Steps -/

theorem Accounted.note {m : Memo} (accounted : Accounted m) (occurrence : Occurrence) :
    Accounted (m.note occurrence) := ⟨accounted.whole, accounted.total, accounted.small⟩

/-- What holds between the steps of runs without calls for the own key. -/
structure Bookkept (maxEntries maxWeight : ℕ) (s : MemoState) : Prop where
  accounted : Accounted s.memo
  within : WithinLimits maxEntries maxWeight s.memo
  aged : Aged s.memo
  free : ∀ key id ttlMs, .loading key id ttlMs ∈ s.frames → s.memo.ids key = none
  single : s.frames.Pairwise fun upper lower => ∀ key id ttlMs other otherTtl,
    upper = .loading key id ttlMs → lower ≠ .loading key other otherTtl

section

variable {r : Rounding} {options : MemoOptions} {maxEntries maxWeight : ℕ} {s : MemoState}

/-- An operation that ends some of what runs and takes no key. -/
theorem Bookkept.of_memo {next : MemoState} (bookkept : Bookkept maxEntries maxWeight s)
    (accounted : Accounted next.memo) (within : WithinLimits maxEntries maxWeight next.memo)
    (aged : Aged next.memo) (frames : next.frames.Sublist s.frames)
    (ids : ∀ key, s.memo.ids key = none → next.memo.ids key = none) :
    Bookkept maxEntries maxWeight next where
  accounted := accounted
  within := within
  aged := aged
  free := fun key id ttlMs member => ids key (bookkept.free key id ttlMs (frames.subset member))
  single := bookkept.single.sublist frames

theorem ids_unlink_none {m : Memo} {key : String} {id : ℕ} (reason : Removal) (other : String)
    (absent : m.ids other = none) : (m.unlink r key id reason).ids other = none := by
  rw [ids_unlink, absent]
  rfl

theorem WithinLimits.unlink {m : Memo} {key : String} {id : ℕ}
    (within : WithinLimits maxEntries maxWeight m) (reason : Removal) :
    WithinLimits maxEntries maxWeight (m.unlink r key id reason) :=
  ⟨(length_unlink_le r reason).1.trans within.1, (length_unlink_le r reason).2.trans within.2⟩

theorem Bookkept.unlink (bookkept : Bookkept maxEntries maxWeight s) {key : String} {id : ℕ}
    {reason : Removal} (recent : LeastRecent (.removed id reason) s.memo.history) :
    Bookkept maxEntries maxWeight { s with memo := s.memo.unlink r key id reason } :=
  bookkept.of_memo (bookkept.accounted.unlink r reason) (bookkept.within.unlink reason)
    (bookkept.aged.unlink recent) (List.Sublist.refl _) (ids_unlink_none reason)

theorem Bookkept.startLoad (bookkept : Bookkept maxEntries maxWeight s) {key : String}
    (absent : s.memo.ids key = none)
    (notRunning : ∀ id ttlMs, Frame.loading key id ttlMs ∉ s.frames) (ttlMs : Option JsNumber) :
    Bookkept maxEntries maxWeight (s.startLoad s.memo key ttlMs) where
  accounted := bookkept.accounted.note _
  within := bookkept.within
  aged := bookkept.aged.note rfl trivial
  free := by
    intro other id otherTtl member
    rcases List.mem_cons.mp member with equal | earlier
    · rw [Frame.loading.injEq] at equal
      rw [equal.1]
      exact absent
    · exact bookkept.free other id otherTtl earlier
  single := by
    apply List.pairwise_cons.mpr
    refine ⟨?_, bookkept.single⟩
    rintro lower member other id first outer second isUpper rfl
    rw [Frame.loading.injEq] at isUpper
    rw [← isUpper.1] at member
    exact notRunning outer second member

theorem Bookkept.call (bookkept : Bookkept maxEntries maxWeight s) {key : String}
    {ttlMs : Option JsNumber} {now : JsNumber}
    (noReentry : s.reenters (.call key ttlMs now) = false) :
    Bookkept maxEntries maxWeight (s.call r key ttlMs now) := by
  have notRunning : ∀ id ttlMs, Frame.loading key id ttlMs ∉ s.frames := by
    intro id otherTtl member
    rw [MemoState.reenters, List.any_eq_false] at noReentry
    exact noReentry _ member (decide_eq_true rfl)
  rw [MemoState.call]
  split
  next hit stored =>
    split
    next =>
      have perm : (s.memo.touch key hit now).cache.entries.Perm s.memo.cache.entries := by
        have after : (s.memo.touch key hit now).cache.entries =
            (s.memo.cache.delete key).entries ++ [(key, hit)] :=
          OrderedMap.entries_set_of_absent _ _ (OrderedMap.get?_delete_self _ _)
        rw [after]
        exact (List.perm_append_singleton _ _).trans (OrderedMap.entries_perm_delete stored).symm
      refine bookkept.of_memo (bookkept.accounted.touch stored now) ?_
        (bookkept.aged.touch stored now)
        (List.Sublist.refl _) ?_
      · rw [WithinLimits, perm.length_eq, sumUnits_perm perm]
        exact bookkept.within
      · intro other absent
        rw [Memo.ids, Memo.get?_touch stored]
        exact absent
    next =>
      have unlinked : Bookkept maxEntries maxWeight
          { s with memo := s.memo.unlink r key hit.id (.expired now) } := bookkept.unlink trivial
      refine unlinked.startLoad ?_ notRunning ttlMs
      rw [ids_unlink, Memo.ids, stored, Option.map_some, Option.filter_some, if_neg (by simp)]
  next absent =>
    refine bookkept.startLoad ?_ notRunning ttlMs
    rw [Memo.ids, absent, Option.map_none]

theorem Bookkept.invalidate (bookkept : Bookkept maxEntries maxWeight s) (key : String) :
    Bookkept maxEntries maxWeight (s.invalidate r key) := by
  rw [MemoState.invalidate]
  split
  next => exact bookkept.unlink trivial
  next => exact bookkept

theorem Bookkept.loadThrew {next : MemoState} (bookkept : Bookkept maxEntries maxWeight s)
    (result : s.loadThrew = some next) : Bookkept maxEntries maxWeight next := by
  rw [MemoState.loadThrew] at result
  split at result
  next key id ttlMs rest isFrames =>
    cases result
    refine bookkept.of_memo (bookkept.accounted.note _) bookkept.within
      (bookkept.aged.note rfl trivial)
      ?_ (fun _ absent => absent)
    rw [isFrames]
    exact List.sublist_cons_self _ _
  next => exact absurd result (by simp)

/-- Assigning to fields of an entry other than its number and weight. -/
theorem Bookkept.assign (bookkept : Bookkept maxEntries maxWeight s) {key : String} {id : ℕ}
    {change : Entry → Entry} (sameId : ∀ entry, (change entry).id = entry.id)
    (sameWeight : ∀ entry, (change entry).weight = entry.weight) :
    Bookkept maxEntries maxWeight { s with memo := s.memo.assign key id change } := by
  refine bookkept.of_memo (bookkept.accounted.assign sameWeight) ?_ (bookkept.aged.assign sameId)
    (List.Sublist.refl _) ?_
  · rw [WithinLimits, (sumUnits_assign sameWeight).1, (sumUnits_assign sameWeight).2]
    exact bookkept.within
  · intro other absent
    rw [ids_assign sameId]
    exact absent

theorem Bookkept.note (bookkept : Bookkept maxEntries maxWeight s) {occurrence : Occurrence}
    (unused : occurrence.uses = none) (recent : LeastRecent occurrence s.memo.history) :
    Bookkept maxEntries maxWeight { s with memo := s.memo.note occurrence } :=
  bookkept.of_memo (bookkept.accounted.note _) bookkept.within (bookkept.aged.note unused recent)
    (List.Sublist.refl _) (fun _ absent => absent)

theorem Bookkept.react {id : ℕ} {load : Load} {next : MemoState}
    (bookkept : Bookkept maxEntries maxWeight s) (result : s.react id = some (load, next)) :
    Bookkept maxEntries maxWeight next := by
  rw [MemoState.react] at result
  split at result
  next =>
    rcases Option.map_eq_some_iff.mp result with ⟨found, _, equal⟩
    rw [Prod.mk.injEq] at equal
    rcases equal with ⟨rfl, rfl⟩
    have assigned : Bookkept maxEntries maxWeight
        { s with memo := s.memo.assign found.key id ({ · with pending := false }) } :=
      bookkept.assign (fun _ => rfl) (fun _ => rfl)
    have settled : Bookkept maxEntries maxWeight
        { s with
          memo := (s.memo.assign found.key id ({ · with pending := false })).note (.settled id) } :=
      assigned.note rfl trivial
    exact ⟨settled.accounted, settled.within, settled.aged, settled.free, settled.single⟩
  next => exact absurd result (by simp)

theorem Bookkept.fulfilled {id : ℕ} {now : JsNumber} {next : MemoState}
    (bookkept : Bookkept maxEntries maxWeight s)
    (result : s.fulfilled options id now = some next) : Bookkept maxEntries maxWeight next := by
  rcases Option.map_eq_some_iff.mp result with ⟨⟨load, reacted⟩, isReaction, rfl⟩
  have after := bookkept.react isReaction
  dsimp only
  split
  next =>
    refine ⟨after.accounted, after.within, after.aged, ?_, List.pairwise_singleton _ _⟩
    intro key found ttlMs member
    exact absurd (List.mem_singleton.mp member) (by simp)
  next => exact after.note rfl trivial

theorem Bookkept.rejected {id : ℕ} {error : LoadError} {now : JsNumber} {next : MemoState}
    (bookkept : Bookkept maxEntries maxWeight s)
    (result : s.rejected r options id error now = some next) :
    Bookkept maxEntries maxWeight next := by
  rcases Option.map_eq_some_iff.mp result with ⟨⟨load, reacted⟩, isReaction, rfl⟩
  have after : Bookkept maxEntries maxWeight
      { reacted with memo := reacted.memo.note (.failed id error now) } :=
    (bookkept.react isReaction).note rfl trivial
  dsimp only
  split
  next => exact after.assign (fun _ => rfl) (fun _ => rfl)
  next => exact after.unlink trivial

variable (entryLimit : options.maxEntries = .ofNat maxEntries)
  (weightLimit : options.maxWeight = .ofNat maxWeight) (small : maxWeight ≤ 2 ^ 52)
  (experienced : Experienced r options s) (bookkept : Bookkept maxEntries maxWeight s)
include entryLimit weightLimit small experienced bookkept

theorem Bookkept.loadReturned {next : MemoState}
    (result : s.loadReturned r options = some next) : Bookkept maxEntries maxWeight next := by
  rw [MemoState.loadReturned] at result
  split at result
  next key id ttlMs rest isFrames =>
    rcases Option.map_eq_some_iff.mp result with ⟨memo, evicted, rfl⟩
    have onTop : .loading key id ttlMs ∈ s.frames := by
      rw [isFrames]
      exact List.mem_cons_self
    have absentId := bookkept.free key id ttlMs onTop
    have absent : s.memo.cache.get? key = none := Option.map_eq_none_iff.mp absentId
    have unlinked := (experienced.tracked.loading key id ttlMs onTop).1.2.1
    have single := bookkept.single
    rw [isFrames, List.pairwise_cons] at single
    have isNew : id ∉ s.memo.order := by
      intro member
      rcases List.mem_map.mp member with ⟨entry, inEntries, rfl⟩
      have stored := (OrderedMap.get?_eq_some_iff _ _ _).mpr inEntries
      exact unlinked entry.1 (experienced.linked_of_stored stored)
    have within := bookkept.within
    rcases bookkept.accounted.link r absent (by rw [WithinLimits] at within; omega) id with
      ⟨accounted, _⟩
    have recorded : Recorded r options (s.memo.link r key (pendingEntry id)) :=
      experienced.recorded.link unlinked fun present => absurd absentId present
    rcases accounted.evict r entryLimit weightLimit evicted with ⟨accountedAfter, withinAfter⟩
    refine ⟨accountedAfter, withinAfter, (bookkept.aged.link absent isNew).evict recorded evicted,
      ?_,
      single.2⟩
    intro other found otherTtl member
    by_contra present
    have before := evict_ids evicted other present
    have different : other ≠ key := by
      rintro rfl
      exact single.1 _ member other id ttlMs found otherTtl rfl rfl
    rw [ids_link, if_neg different] at before
    refine before (bookkept.free other found otherTtl ?_)
    rw [isFrames]
    exact List.mem_cons_of_mem _ member
  next => exact absurd result (by simp)

theorem Bookkept.weighed {answer : Option JsValue} {now : JsNumber} {next : MemoState}
    (result : s.weighed r options answer now = some next) : Bookkept maxEntries maxWeight next := by
  rw [MemoState.weighed] at result
  split at result
  next key id ttl rest isFrames =>
    have fewer : rest.Sublist s.frames := by
      rw [isFrames]
      exact List.sublist_cons_self _ _
    have onTop : .weighing key id ttl ∈ s.frames := by
      rw [isFrames]
      exact List.mem_cons_self
    have noted : Bookkept maxEntries maxWeight
        { s with memo := s.memo.note (.succeeded id now ttl) } := bookkept.note rfl trivial
    dsimp only at result
    split at result
    next =>
      cases result
      have dropped : Bookkept maxEntries maxWeight
          { s with
            memo := (s.memo.note (.succeeded id now ttl)).unlink r key id
              (.uncached (settledWeight answer)) } :=
        noted.unlink trivial
      exact bookkept.of_memo dropped.accounted dropped.within dropped.aged fewer
        fun other absent => ids_unlink_none _ other absent
    next isKept =>
      rcases Option.map_eq_some_iff.mp result with ⟨memo, evicted, rfl⟩
      have fits : ∃ n : ℕ, settledWeight answer = .ofNat n ∧ n ≤ maxWeight := by
        rw [not_or, weightLimit] at isKept
        rcases settledWeight_cases answer with infinite | ⟨n, isNat⟩
        · rw [infinite] at isKept
          exact absurd rfl isKept.2
        · rw [isNat, JsNumber.less_ofNat] at isKept
          exact ⟨n, isNat, not_lt.mp isKept.2⟩
      rcases fits with ⟨n, isNat, light⟩
      rw [isNat] at evicted
      have sameId : ∀ entry : Entry,
          ({ entry with expires := r.add now ttl } : Entry).id = entry.id := fun _ => rfl
      have sameWeight : ∀ entry : Entry,
          ({ entry with expires := r.add now ttl } : Entry).weight = entry.weight := fun _ => rfl
      have settled := (experienced.tracked.weighing key id ttl onTop).2.1
      have recorded : Recorded r options (s.memo.note (.succeeded id now ttl)) :=
        experienced.recorded.handle settled rfl rfl trivial
      have within := noted.within
      have accounted : Accounted
          ((s.memo.note (.succeeded id now ttl)).reweigh r key id (.ofNat n)) :=
        (noted.accounted.reweigh r (by rw [WithinLimits] at within; omega)).1
      rcases (accounted.assign sameWeight).evict r entryLimit weightLimit evicted with
        ⟨accountedAfter, withinAfter⟩
      refine bookkept.of_memo accountedAfter withinAfter
        (((noted.aged.reweigh _).assign sameId).evict ((recorded.reweigh _).assign sameId) evicted)
        fewer ?_
      intro other absent
      by_contra present
      have before := evict_ids evicted other present
      rw [ids_assign sameId, ids_reweigh] at before
      exact before absent
  next => exact absurd result (by simp)

theorem Bookkept.step {event : MemoEvent} {next : MemoState}
    (noReentry : s.reenters event = false)
    (result : MemoState.step r options s event = some next) :
    Bookkept maxEntries maxWeight next := by
  cases event with
  | call key ttlMs now =>
      cases result
      exact bookkept.call noReentry
  | loadReturned =>
      exact Bookkept.loadReturned entryLimit weightLimit small experienced bookkept result
  | loadThrew => exact bookkept.loadThrew result
  | fulfilled id now => exact bookkept.fulfilled result
  | weighed answer now =>
      exact Bookkept.weighed entryLimit weightLimit small experienced bookkept result
  | rejected id error now => exact bookkept.rejected result
  | invalidate key =>
      cases result
      exact bookkept.invalidate key

end

theorem bookkept_init (r : Rounding) (options : MemoOptions) (maxEntries maxWeight : ℕ) :
    Bookkept maxEntries maxWeight (createMemo r options).init where
  accounted :=
    { whole := fun _ member => absurd member List.not_mem_nil
      total := rfl
      small := Nat.zero_le _ }
  within := ⟨Nat.zero_le _, Nat.zero_le _⟩
  aged := ⟨List.Pairwise.nil, throughout_nil⟩
  free := fun _ _ _ member => absurd member List.not_mem_nil
  single := List.Pairwise.nil

/-- The diagnostic sum is the running total. -/
theorem Accounted.stats (r : Rounding) {m : Memo} (accounted : Accounted m) :
    (m.stats r).sum = m.totalWeight := by
  have partialSums : ∀ (entries : List (String × Entry)) (before : ℕ),
      (∀ entry ∈ entries, entry.2.weight = .ofNat entry.2.units) →
        before + sumUnits entries ≤ 2 ^ 53 →
          entries.foldl (fun sum entry => r.add sum entry.2.weight) (.ofNat before) =
            .ofNat (before + sumUnits entries) := by
    intro entries
    induction entries with
    | nil => exact fun before _ _ => rfl
    | cons entry rest ih =>
        intro before whole small
        rw [sumUnits_cons] at small ⊢
        rw [List.foldl_cons, whole entry List.mem_cons_self, add_ofNat r (by omega),
          ih _ (fun other member => whole other (List.mem_cons_of_mem _ member)) (by omega),
          Nat.add_assoc]
  have sum := partialSums m.cache.entries 0 accounted.whole (by simpa using accounted.small)
  rw [Nat.zero_add] at sum
  rw [accounted.total]
  exact sum

/-- The accounts of a memo after a run. -/
structure InOrder (r : Rounding) (options : MemoOptions) (maxEntries maxWeight : ℕ)
    (s : MemoState) : Prop where
  /-- Every weight is a natural number. -/
  whole : ∀ entry ∈ s.memo.cache.entries, entry.2.weight = .ofNat entry.2.units
  /-- The running total is the sum of the weights, as the diagnostic view computes it too. -/
  total : s.memo.totalWeight = .ofNat (sumUnits s.memo.cache.entries) ∧
    (s.memo.stats r).sum = s.memo.totalWeight
  within : s.memo.cache.entries.length ≤ maxEntries ∧ sumUnits s.memo.cache.entries ≤ maxWeight
  /-- The cache holds the entries that were linked and not removed. -/
  live : ∀ key id, s.memo.ids key = some id ↔ LiveIn s.memo.history key id
  /-- An entry that was evicted had been used before all others in the cache. -/
  recent : ∀ later id earlier, s.memo.history = later ++ .removed id .evicted :: earlier →
    ∀ key other, LiveIn earlier key other → other ≠ id → lastUse earlier id < lastUse earlier other

/-- In every run without calls for the own key, the accounts of the memo are in order, and
eviction ends in whatever state it begins. -/
theorem memo_accounts_in_order {r : Rounding} {options : MemoOptions} {maxEntries maxWeight : ℕ}
    (entryLimit : options.maxEntries = .ofNat maxEntries)
    (weightLimit : options.maxWeight = .ofNat maxWeight) (small : maxWeight ≤ 2 ^ 52)
    {s : MemoState}
    (reached : (createMemo r options).Reachable (fun s event => s.reenters event = false) s) :
    InOrder r options maxEntries maxWeight s ∧
      ∀ m : Memo, ∃ ended, m.evict r options = some ended := by
  have both : Experienced r options s ∧ Bookkept maxEntries maxWeight s := by
    refine reached.invariant
      (fun state => Experienced r options state ∧ Bookkept maxEntries maxWeight state) ?_ ?_
    · exact ⟨experienced_init r options, bookkept_init r options _ _⟩
    · rintro state event next ⟨experienced, bookkept⟩ noReentry result
      exact ⟨experienced.step result,
        Bookkept.step entryLimit weightLimit small experienced bookkept noReentry result⟩
  rcases both with ⟨experienced, bookkept⟩
  refine ⟨⟨bookkept.accounted.whole, ⟨bookkept.accounted.total, bookkept.accounted.stats r⟩,
    bookkept.within, experienced.recorded.live_iff, ?_⟩, Memo.exists_evict r options⟩
  exact fun later id earlier split => bookkept.aged.recent later _ earlier split

/-- The third list to be loaded evicts the one that was not asked for again. -/
theorem memo_accounts_in_order_evicted :
    ∃ s, s.memo.order = [0, 2] ∧ InOrder .lossless sampleOptions 2 10 s ∧
      ∀ m : Memo, ∃ ended, m.evict .lossless sampleOptions = some ended := by
  have order : ((createMemo .lossless sampleOptions).run (fun s event => s.reenters event = false)
      (createMemo .lossless sampleOptions).init
      [.call "list:a" none (.ofNat 0), .loadReturned, .call "list:b" none (.ofNat 0), .loadReturned,
        .call "list:a" none (.ofNat 1), .call "list:c" none (.ofNat 2), .loadReturned]).map
        (·.memo.order) = some [0, 2] := by
    decide +kernel
  rcases Option.map_eq_some_iff.mp order with ⟨s, ran, isOrder⟩
  exact ⟨s, isOrder, memo_accounts_in_order rfl rfl (by decide) (Machine.reachable_of_run ran)⟩

end BelugaManager.DomainApi
