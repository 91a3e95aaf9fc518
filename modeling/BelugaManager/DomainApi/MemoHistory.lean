import BelugaManager.DomainApi.MemoRecord

/-!
# What callers of the memo experience

Loads of one key do not overlap, no call receives a result whose time is over or that
must not be kept, and no call receives the promise of an entry that left the cache.
-/

namespace BelugaManager.DomainApi

open Foundation

/-! ## Running code and waiting loads -/

def Frame.id : Frame → ℕ
  | .loading _ id _ => id
  | .weighing _ id _ => id

/-- The loads whose reaction is not over. -/
def MemoState.outstanding (s : MemoState) : List ℕ := s.frames.map Frame.id ++ s.loads.map Load.id

/-- What runs and what waits is as recorded. -/
structure Tracked (s : MemoState) : Prop where
  known : ∀ occurrence ∈ s.memo.history, ∀ id, occurrence.advances = some id → id < s.nextId
  nodup : s.outstanding.Nodup
  loading : ∀ key id ttlMs, .loading key id ttlMs ∈ s.frames →
    Running s.memo.history key id ∧ .settled id ∉ s.memo.history
  weighing : ∀ key id ttl, .weighing key id ttl ∈ s.frames → .linked key id ∈ s.memo.history ∧
    .settled id ∈ s.memo.history ∧ ¬Handled s.memo.history id
  waiting : ∀ load ∈ s.loads, .linked load.key load.id ∈ s.memo.history ∧
    .settled load.id ∉ s.memo.history
  /-- Two load functions for one key run at a time only after a call of one for its key. -/
  nested : s.frames.Pairwise fun upper lower => ∀ key id ttlMs other otherTtl,
    upper = .loading key id ttlMs → lower = .loading key other otherTtl →
      Reentered s.memo.history key
  /-- The key of a load function that runs is free unless it called the memo for it. -/
  free : ∀ key id ttlMs, .loading key id ttlMs ∈ s.frames → s.memo.ids key ≠ none →
    Reentered s.memo.history key

/-- An operation that ends some of what runs and waits. -/
theorem Tracked.of_sublists {s next : MemoState} (tracked : Tracked s)
    (frames : next.frames.Sublist s.frames) (loads : next.loads.Sublist s.loads)
    (sameNextId : next.nextId = s.nextId) (grown : s.memo.history <:+ next.memo.history)
    (untouched : ∀ id, id ∈ next.outstanding ∨ s.nextId ≤ id →
      Untouched s.memo.history next.memo.history id)
    (free : ∀ key id ttlMs, .loading key id ttlMs ∈ next.frames → next.memo.ids key ≠ none →
      s.memo.ids key ≠ none ∨ Reentered s.memo.history key) : Tracked next := by
  have inFrames : ∀ frame ∈ next.frames, frame.id ∈ next.outstanding := fun frame member =>
    List.mem_append_left _ (List.mem_map_of_mem member)
  have inLoads : ∀ load ∈ next.loads, load.id ∈ next.outstanding := fun load member =>
    List.mem_append_right _ (List.mem_map_of_mem member)
  constructor
  · intro occurrence member id about
    rw [sameNextId]
    by_contra notKnown
    have earlier := (untouched id (Or.inr (Nat.le_of_not_lt notKnown)) occurrence about).mp member
    exact notKnown (tracked.known occurrence earlier id about)
  · exact tracked.nodup.sublist ((frames.map Frame.id).append (loads.map Load.id))
  · intro key id ttlMs member
    rcases tracked.loading key id ttlMs (frames.subset member) with ⟨running, unsettled⟩
    have same := untouched id (Or.inl (inFrames _ member))
    exact ⟨same.running running, fun settled => unsettled ((same _ rfl).mp settled)⟩
  · intro key id ttl member
    rcases tracked.weighing key id ttl (frames.subset member) with ⟨linked, settled, unhandled⟩
    have same := untouched id (Or.inl (inFrames _ member))
    exact ⟨(same _ rfl).mpr linked, (same _ rfl).mpr settled,
      fun handled => unhandled (same.handled_iff.mp handled)⟩
  · intro load member
    rcases tracked.waiting load (loads.subset member) with ⟨linked, unsettled⟩
    have same := untouched load.id (Or.inl (inLoads load member))
    exact ⟨(same _ rfl).mpr linked, fun settled => unsettled ((same _ rfl).mp settled)⟩
  · refine (tracked.nested.sublist frames).imp ?_
    intro upper lower reentered key id ttlMs other otherTtl isUpper isLower
    exact (reentered key id ttlMs other otherTtl isUpper isLower).mono grown
  · intro key id ttlMs member present
    rcases free key id ttlMs member present with before | reentered
    · exact (tracked.free key id ttlMs (frames.subset member) before).mono grown
    · exact reentered.mono grown

/-- An operation that advances one load, which then neither runs nor waits. -/
theorem Tracked.of_progress {s next : MemoState} (tracked : Tracked s)
    (frames : next.frames.Sublist s.frames) (loads : next.loads.Sublist s.loads)
    (sameNextId : next.nextId = s.nextId) (grown : s.memo.history <:+ next.memo.history)
    {id : ℕ} (known : id < s.nextId) (ended : id ∉ next.outstanding)
    (untouched : ∀ found, found ≠ id → Untouched s.memo.history next.memo.history found)
    (free : ∀ key, next.memo.ids key ≠ none → s.memo.ids key ≠ none) : Tracked next := by
  apply tracked.of_sublists frames loads sameNextId grown
  · intro found isOther
    apply untouched
    rintro rfl
    rcases isOther with outstanding | unknown
    · exact ended outstanding
    · exact absurd known (Nat.not_lt_of_le unknown)
  · exact fun key _ _ _ present => Or.inl (free key present)

theorem Tracked.addLoad {s : MemoState} (tracked : Tracked s) {load : Load}
    (isNew : load.id ∉ s.outstanding) (linked : .linked load.key load.id ∈ s.memo.history)
    (unsettled : .settled load.id ∉ s.memo.history) :
    Tracked { s with loads := load :: s.loads } where
  known := tracked.known
  nodup := by
    have reordered : (MemoState.outstanding { s with loads := load :: s.loads }).Perm
        (load.id :: s.outstanding) := List.perm_middle
    rw [reordered.nodup_iff, List.nodup_cons]
    exact ⟨isNew, tracked.nodup⟩
  loading := tracked.loading
  weighing := tracked.weighing
  waiting := by
    intro other member
    rcases List.mem_cons.mp member with rfl | earlier
    · exact ⟨linked, unsettled⟩
    · exact tracked.waiting other earlier
  nested := tracked.nested
  free := tracked.free

/-- Everything that holds in every reachable state. -/
structure Experienced (r : Rounding) (options : MemoOptions) (s : MemoState) : Prop where
  recorded : Recorded r options s.memo
  kept : AllKept r options s.memo
  tracked : Tracked s

/-! ## Steps -/

section

variable {r : Rounding} {options : MemoOptions} {s : MemoState}
  (experienced : Experienced r options s)
include experienced

/-- An entry of the cache has been linked. -/
theorem Experienced.linked_of_stored {key : String} {entry : Entry}
    (stored : s.memo.cache.get? key = some entry) : .linked key entry.id ∈ s.memo.history := by
  have present : s.memo.ids key = some entry.id := by rw [Memo.ids, stored, Option.map_some]
  exact ((experienced.recorded.live_iff key entry.id).mp present).1

theorem Experienced.touch {key : String} {hit : Entry}
    (stored : s.memo.cache.get? key = some hit) {now : JsNumber}
    (valid : hit.pending = true ∨ JsNumber.less now hit.expires = true) :
    Experienced r options { s with memo := s.memo.touch key hit now } := by
  rcases experienced with ⟨recorded, kept, tracked⟩
  have present : s.memo.ids key = some hit.id := by rw [Memo.ids, stored, Option.map_some]
  have sameIds : ∀ other, (s.memo.touch key hit now).ids other = s.memo.ids other := by
    intro other
    rw [Memo.ids, Memo.get?_touch stored, Memo.ids]
  have notOver : Handled s.memo.history hit.id → JsNumber.less now hit.expires = true := by
    intro handled
    rcases valid with isPending | inTime
    · exact absurd (recorded.handledSettled _ handled) ((kept key hit stored).pending.mp isPending)
    · exact inTime
  have fresh : Fresh r options s.memo.history hit.id now := by
    constructor
    · intro time ttl member
      rw [← (kept key hit stored).success time ttl member]
      exact notOver (Or.inl ⟨time, ttl, member⟩)
    · intro error time member
      rcases (kept key hit stored).failure error time member with ⟨isCacheable, expires⟩
      rw [← expires]
      exact ⟨isCacheable, notOver (Or.inr ⟨error, time, member⟩)⟩
  refine ⟨?_, kept.touch stored now, ?_⟩
  · exact recorded.of_quiet (.received key hit.id now) sameIds rfl rfl
      (fun _ ends => absurd ends (by simp [Occurrence.handles]))
      ⟨(recorded.live_iff key hit.id).mp present, fresh⟩
  · refine tracked.of_sublists (List.Sublist.refl _) (List.Sublist.refl _) rfl
      (List.suffix_cons _ _) ?_ ?_
    · exact fun _ _ => untouched_cons (by simp [Occurrence.advances])
    · exact fun other _ _ _ other_present => Or.inl (by rwa [sameIds] at other_present)

theorem Experienced.unlink {key : String} {id : ℕ} {reason : Removal}
    (fits : ∀ entry, s.memo.live? key id = some entry → reason.Fits r options s.memo.history id) :
    Experienced r options { s with memo := s.memo.unlink r key id reason } := by
  rcases experienced with ⟨recorded, kept, tracked⟩
  refine ⟨recorded.unlink fits, kept.unlink reason, ?_⟩
  refine tracked.of_sublists (List.Sublist.refl _) (List.Sublist.refl _) rfl
    (suffix_unlink reason) ?_ ?_
  · exact fun found _ => untouched_unlink reason found
  · intro other _ _ _ present
    left
    intro absent
    rw [ids_unlink, absent] at present
    exact present rfl

/-- Loads that run or wait are known. -/
theorem Experienced.known_of_outstanding {id : ℕ} (member : id ∈ s.outstanding) :
    id < s.nextId := by
  rcases List.mem_append.mp member with inFrames | inLoads
  · rcases List.mem_map.mp inFrames with ⟨frame, isFrame, rfl⟩
    cases frame with
    | loading key id ttlMs =>
        exact experienced.tracked.known _ (experienced.tracked.loading _ _ _ isFrame).1.1 _ rfl
    | weighing key id ttl =>
        exact experienced.tracked.known _ (experienced.tracked.weighing _ _ _ isFrame).1 _ rfl
  · rcases List.mem_map.mp inLoads with ⟨load, isLoad, rfl⟩
    exact experienced.tracked.known _ (experienced.tracked.waiting load isLoad).1 _ rfl

theorem Experienced.startLoad {key : String} (absent : s.memo.ids key = none)
    (ttlMs : Option JsNumber) : Experienced r options (s.startLoad s.memo key ttlMs) := by
  have isNew : ∀ occurrence ∈ s.memo.history, occurrence.advances ≠ some s.nextId := by
    intro occurrence member about
    exact Nat.lt_irrefl _ (experienced.tracked.known occurrence member _ about)
  have untouched : ∀ id ∈ s.outstanding,
      Untouched s.memo.history (.started key s.nextId :: s.memo.history) id := by
    intro id member
    apply untouched_cons
    rw [Occurrence.advances, Ne, Option.some.injEq]
    exact Ne.symm (Nat.ne_of_lt (experienced.known_of_outstanding member))
  have unoccupied : ∀ id, .linked key id ∈ s.memo.history → ∃ reason,
      .removed id reason ∈ s.memo.history := by
    intro id linked
    by_contra kept
    have live := (experienced.recorded.live_iff key id).mpr
      ⟨linked, fun reason member => kept ⟨reason, member⟩⟩
    rw [absent] at live
    exact absurd live (by simp)
  have inFrames : ∀ frame ∈ s.frames, frame.id ∈ s.outstanding := fun frame member =>
    List.mem_append_left _ (List.mem_map_of_mem member)
  rcases experienced with ⟨recorded, kept, tracked⟩
  refine ⟨?_, ?_, ?_⟩
  · exact recorded.of_quiet (.started key s.nextId) (fun _ => rfl) rfl rfl
      (fun _ ends => absurd ends (by simp [Occurrence.handles])) unoccupied
  · apply kept.note
    intro other entry stored sameId
    have present : s.memo.ids other = some entry.id := by rw [Memo.ids, stored, Option.map_some]
    exact isNew _ ((recorded.live_iff _ _).mp present).1 sameId.symm
  · constructor
    · intro occurrence member id about
      rcases List.mem_cons.mp member with rfl | earlier
      · cases about
        exact Nat.lt_succ_self _
      · exact Nat.lt_succ_of_lt (tracked.known occurrence earlier id about)
    · apply List.nodup_cons.mpr
      refine ⟨?_, tracked.nodup⟩
      intro member
      exact Nat.lt_irrefl _ (Experienced.known_of_outstanding ⟨recorded, kept, tracked⟩ member)
    · intro other id otherTtl member
      rcases List.mem_cons.mp member with equal | earlier
      · rw [Frame.loading.injEq] at equal
        rcases equal with ⟨rfl, rfl, _⟩
        refine ⟨⟨List.mem_cons_self, ?_, ?_⟩, ?_⟩
        · exact fun third linked => isNew _ ((List.mem_cons.mp linked).resolve_left (by simp)) rfl
        · exact fun threw => isNew _ ((List.mem_cons.mp threw).resolve_left (by simp)) rfl
        · exact fun settled => isNew _ ((List.mem_cons.mp settled).resolve_left (by simp)) rfl
      · rcases tracked.loading other id otherTtl earlier with ⟨running, unsettled⟩
        have same := untouched id (inFrames _ earlier)
        exact ⟨same.running running, fun settled => unsettled ((same _ rfl).mp settled)⟩
    · intro other id ttl member
      have earlier : .weighing other id ttl ∈ s.frames :=
        (List.mem_cons.mp member).resolve_left (by simp)
      rcases tracked.weighing other id ttl earlier with ⟨linked, settled, unhandled⟩
      have same := untouched id (inFrames _ earlier)
      exact ⟨(same _ rfl).mpr linked, (same _ rfl).mpr settled,
        fun handled => unhandled (same.handled_iff.mp handled)⟩
    · intro load member
      rcases tracked.waiting load member with ⟨linked, unsettled⟩
      have same := untouched load.id (List.mem_append_right _ (List.mem_map_of_mem member))
      exact ⟨(same _ rfl).mpr linked, fun settled => unsettled ((same _ rfl).mp settled)⟩
    · apply List.pairwise_cons.mpr
      constructor
      · intro lower member other id first outer second isUpper isLower
        rw [Frame.loading.injEq] at isUpper
        rcases isUpper with ⟨rfl, rfl, _⟩
        exact ⟨[], s.nextId, s.memo.history, rfl, outer,
          (tracked.loading key outer second (isLower ▸ member)).1⟩
      · refine tracked.nested.imp ?_
        intro upper lower reentered other id first outer second isUpper isLower
        exact (reentered other id first outer second isUpper isLower).mono (List.suffix_cons _ _)
    · intro other id otherTtl member present
      rcases List.mem_cons.mp member with equal | earlier
      · rw [Frame.loading.injEq] at equal
        rw [equal.1] at present
        exact absurd absent present
      · exact (tracked.free other id otherTtl earlier present).mono (List.suffix_cons _ _)

theorem Experienced.call (key : String) (ttlMs : Option JsNumber) (now : JsNumber) :
    Experienced r options (s.call r key ttlMs now) := by
  rw [MemoState.call]
  split
  next hit stored =>
    split
    next valid => exact experienced.touch stored valid
    next ended =>
      have isOver : hit.pending = false ∧ JsNumber.less now hit.expires = false := by
        simpa using ended
      have stale : Stale r options s.memo.history hit.id now := by
        have keptHit := experienced.kept key hit stored
        refine ⟨?_, ?_, ?_⟩
        · by_contra unsettled
          rw [keptHit.pending.mpr unsettled] at isOver
          exact absurd isOver.1 (by simp)
        · intro time ttl member
          rw [← keptHit.success time ttl member]
          exact isOver.2
        · intro error time member
          rw [← (keptHit.failure error time member).2]
          exact isOver.2
      have unlinked : Experienced r options
          { s with memo := s.memo.unlink r key hit.id (.expired now) } :=
        experienced.unlink fun _ _ => stale
      apply unlinked.startLoad
      rw [ids_unlink, Memo.ids, stored, Option.map_some, Option.filter_some, if_neg (by simp)]
  next absent =>
    apply experienced.startLoad
    rw [Memo.ids, absent, Option.map_none]

theorem Experienced.invalidate (key : String) : Experienced r options (s.invalidate r key) := by
  rw [MemoState.invalidate]
  split
  next => exact experienced.unlink fun _ _ => trivial
  next => exact experienced

theorem Experienced.loadReturned {next : MemoState}
    (result : s.loadReturned r options = some next) : Experienced r options next := by
  rw [MemoState.loadReturned] at result
  split at result
  next key id ttlMs rest isFrames =>
    rcases Option.map_eq_some_iff.mp result with ⟨memo, evicted, rfl⟩
    have onTop : .loading key id ttlMs ∈ s.frames := by
      rw [isFrames]
      exact List.mem_cons_self
    rcases experienced.tracked.loading key id ttlMs onTop with ⟨⟨started, unlinked, _⟩, unsettled⟩
    have known := experienced.tracked.known _ started _ rfl
    have isOver : id ∉ rest.map Frame.id ++ s.loads.map Load.id := by
      have distinct := experienced.tracked.nodup
      rw [MemoState.outstanding, isFrames] at distinct
      exact (List.nodup_cons.mp distinct).1
    have nested := experienced.tracked.nested
    rw [isFrames, List.pairwise_cons] at nested
    rcases experienced with ⟨recorded, kept, tracked⟩
    have recordedLink : Recorded r options (s.memo.link r key (pendingEntry id)) :=
      recorded.link unlinked (tracked.free key id ttlMs onTop)
    have keptLink : AllKept r options (s.memo.link r key (pendingEntry id)) :=
      kept.link recorded rfl unsettled unlinked
    rcases evict_history evicted with ⟨evictGrown, evictUntouched⟩
    have ended : Tracked { s with memo := memo, frames := rest } := by
      refine tracked.of_sublists ?_ (List.Sublist.refl _) rfl ?_ ?_ ?_
      · rw [isFrames]
        exact List.sublist_cons_self _ _
      · exact (suffix_noteReplaced s.memo key).trans ((List.suffix_cons _ _).trans evictGrown)
      · intro found isOther
        apply (untouched_link _).trans (evictUntouched found)
        rintro rfl
        rcases isOther with outstanding | unknown
        · exact isOver outstanding
        · exact absurd known (Nat.not_lt_of_le unknown)
      · intro other found otherTtl member present
        have before := evict_ids evicted other present
        rw [ids_link] at before
        split at before
        next isKey =>
          rw [isKey]
          exact Or.inr (nested.1 _ (isKey ▸ member) key id ttlMs found otherTtl rfl rfl)
        next => exact Or.inl before
    refine ⟨recordedLink.evict evicted, keptLink.evict evicted, ?_⟩
    refine ended.addLoad isOver ((evictUntouched id _ rfl).mpr List.mem_cons_self) ?_
    intro settled
    have before := (evictUntouched id _ rfl).mp settled
    rw [Memo.link, Memo.noteReplaced] at before
    split at before
    next => exact unsettled (by simpa using before)
    next => exact unsettled (by simpa using before)
  next => exact absurd result (by simp)

theorem Experienced.loadThrew {next : MemoState} (result : s.loadThrew = some next) :
    Experienced r options next := by
  rw [MemoState.loadThrew] at result
  split at result
  next key id ttlMs rest isFrames =>
    cases result
    have onTop : .loading key id ttlMs ∈ s.frames := by
      rw [isFrames]
      exact List.mem_cons_self
    rcases experienced.tracked.loading key id ttlMs onTop with ⟨⟨started, unlinked, _⟩, _⟩
    have isOver : id ∉ rest.map Frame.id ++ s.loads.map Load.id := by
      have distinct := experienced.tracked.nodup
      rw [MemoState.outstanding, isFrames] at distinct
      exact (List.nodup_cons.mp distinct).1
    refine ⟨?_, ?_, ?_⟩
    · exact experienced.recorded.of_quiet (.threw id) (fun _ => rfl) rfl rfl
        (fun _ ends => absurd ends (by simp [Occurrence.handles])) trivial
    · apply experienced.kept.note
      intro other entry stored sameId
      rw [Occurrence.advances, Option.some.injEq] at sameId
      exact unlinked other (sameId ▸ experienced.linked_of_stored stored)
    · refine experienced.tracked.of_progress ?_ (List.Sublist.refl _) rfl (List.suffix_cons _ _)
        (experienced.tracked.known _ started _ rfl) isOver ?_ (fun _ present => present)
      · rw [isFrames]
        exact List.sublist_cons_self _ _
      · intro found different
        exact untouched_cons (by simpa [Occurrence.advances] using Ne.symm different)
  next => exact absurd result (by simp)

/-- What is known when a promise has begun to react. -/
structure Reacting (s : MemoState) (load : Load) : Prop where
  idle : s.frames = []
  linked : .linked load.key load.id ∈ s.memo.history
  settled : .settled load.id ∈ s.memo.history
  unhandled : ¬Handled s.memo.history load.id
  ended : load.id ∉ s.outstanding

theorem Experienced.react {id : ℕ} {load : Load} {next : MemoState}
    (result : s.react id = some (load, next)) :
    Experienced r options next ∧ load.id = id ∧ Reacting next load := by
  rw [MemoState.react] at result
  split at result
  next idle =>
    rcases Option.map_eq_some_iff.mp result with ⟨found, isFound, equal⟩
    rw [Prod.mk.injEq] at equal
    rcases equal with ⟨rfl, rfl⟩
    have member := List.mem_of_find?_eq_some isFound
    obtain rfl : found.id = id := by simpa using List.find?_some isFound
    rcases experienced.tracked.waiting found member with ⟨linked, unsettled⟩
    have unhandled : ¬Handled s.memo.history found.id := fun handled =>
      unsettled (experienced.recorded.handledSettled _ handled)
    have sameId : ∀ entry : Entry, ({ entry with pending := false } : Entry).id = entry.id :=
      fun _ => rfl
    have isOver : found.id ∉ (s.loads.filter (·.id ≠ found.id)).map Load.id := by simp
    have history : ((s.memo.assign found.key found.id ({ · with pending := false })).note
        (.settled found.id)).history = .settled found.id :: s.memo.history := by
      rw [Memo.note, Memo.history_assign]
    have reacting : Tracked { s with
        memo := (s.memo.assign found.key found.id ({ · with pending := false })).note
          (.settled found.id)
        loads := s.loads.filter (·.id ≠ found.id) } := by
      refine experienced.tracked.of_progress (List.Sublist.refl _) List.filter_sublist rfl ?_
        (experienced.tracked.known _ linked _ rfl) ?_ ?_ ?_
      · rw [history]
        exact List.suffix_cons _ _
      · rw [MemoState.outstanding, idle]
        exact isOver
      · intro other different
        rw [history]
        exact untouched_cons (by simpa [Occurrence.advances] using Ne.symm different)
      · intro other present
        rwa [← ids_assign sameId]
    refine ⟨⟨?_, ?_, reacting⟩, rfl, ⟨idle, ?_, ?_, ?_, ?_⟩⟩
    · exact experienced.recorded.of_quiet (.settled found.id) (ids_assign sameId) history rfl
        (fun _ ends => absurd ends (by simp [Occurrence.handles])) trivial
    · exact experienced.kept.settle experienced.recorded linked
    · rw [history]
      exact List.mem_cons_of_mem _ linked
    · rw [history]
      exact List.mem_cons_self
    · rw [history]
      intro handled
      rcases handled_cons handled with ends | earlier
      · exact absurd ends (by simp [Occurrence.handles])
      · exact unhandled earlier
    · rw [MemoState.outstanding, idle]
      exact isOver
  next => exact absurd result (by simp)

/-- The entry of a reacting load is under its key or nowhere. -/
theorem Experienced.id_ne_of_not_live {key other : String} {id : ℕ} {entry : Entry}
    (linked : .linked key id ∈ s.memo.history) (notLive : s.memo.isLive key id = false)
    (stored : s.memo.cache.get? other = some entry) : entry.id ≠ id := by
  intro sameId
  rw [experienced.recorded.key_of_id linked stored sameId] at stored
  have found : s.memo.live? key id = some entry := Memo.live?_eq_some_iff.mpr ⟨stored, sameId⟩
  rw [Memo.isLive, found] at notLive
  exact absurd notLive (by simp)

theorem Experienced.fulfilled {id : ℕ} {now : JsNumber} {next : MemoState}
    (result : s.fulfilled options id now = some next) : Experienced r options next := by
  rcases Option.map_eq_some_iff.mp result with ⟨⟨load, reacted⟩, isReaction, rfl⟩
  rcases experienced.react isReaction with ⟨after, sameId, reacting⟩
  rw [← sameId]
  dsimp only
  split
  next isLive =>
    refine ⟨after.recorded, after.kept, ?_⟩
    rcases after.tracked with ⟨known, nodup, loading, weighing, waiting, nested, free⟩
    have onlyLoads : reacted.outstanding = reacted.loads.map Load.id := by
      rw [MemoState.outstanding, reacting.idle, List.map_nil, List.nil_append]
    refine ⟨known, ?_, ?_, ?_, waiting, List.pairwise_singleton _ _, ?_⟩
    · apply List.nodup_cons.mpr
      rw [← onlyLoads]
      exact ⟨reacting.ended, nodup⟩
    · intro key found ttlMs member
      exact absurd (List.mem_singleton.mp member) (by simp)
    · intro key found ttl member
      have equal := List.mem_singleton.mp member
      rw [Frame.weighing.injEq] at equal
      rw [equal.1, equal.2.1]
      exact ⟨reacting.linked, reacting.settled, reacting.unhandled⟩
    · intro key found ttlMs member
      exact absurd (List.mem_singleton.mp member) (by simp)
  next notLive =>
    rw [Bool.not_eq_true] at notLive
    refine ⟨?_, ?_, ?_⟩
    · exact after.recorded.handle reacting.settled rfl rfl trivial
    · apply after.kept.note
      intro other entry stored sameEntry
      rw [Occurrence.advances, Option.some.injEq] at sameEntry
      exact after.id_ne_of_not_live reacting.linked notLive stored sameEntry.symm
    · refine after.tracked.of_progress (List.Sublist.refl _) (List.Sublist.refl _) rfl
        (List.suffix_cons _ _) (after.tracked.known _ reacting.linked _ rfl) reacting.ended ?_
        (fun _ present => present)
      intro found different
      exact untouched_cons (by simpa [Occurrence.advances] using Ne.symm different)

/-- A reaction that ends without its entry. -/
theorem Experienced.drop {key : String} {id : ℕ} {occurrence : Occurrence} {reason : Removal}
    {frames : List Frame} (linked : .linked key id ∈ s.memo.history)
    (settled : .settled id ∈ s.memo.history) (handles : occurrence.handles = some id)
    (quiet : occurrence.isQuiet = true)
    (admissible : Admissible r options occurrence s.memo.history)
    (about : occurrence.advances = some id)
    (fits : reason.Fits r options (occurrence :: s.memo.history) id)
    (fewer : frames.Sublist s.frames) (ended : id ∉ frames.map Frame.id ++ s.loads.map Load.id) :
    Experienced r options
      { s with memo := (s.memo.note occurrence).unlink r key id reason, frames := frames } := by
  have noted : Recorded r options (s.memo.note occurrence) :=
    experienced.recorded.handle settled handles quiet admissible
  refine ⟨noted.unlink fun _ _ => fits,
    experienced.kept.drop experienced.recorded linked about reason,
    ?_⟩
  refine experienced.tracked.of_progress fewer (List.Sublist.refl _) rfl ?_
    (experienced.tracked.known _ linked _ rfl) ended ?_ ?_
  · have grown : (s.memo.note occurrence).history <:+
        ((s.memo.note occurrence).unlink r key id reason).history := suffix_unlink reason
    exact (List.suffix_cons _ _).trans grown
  · intro found different
    refine (untouched_cons ?_).trans (untouched_unlink reason found)
    rw [about, Ne, Option.some.injEq]
    exact Ne.symm different
  · intro other present absent
    have after : (s.memo.note occurrence).ids other = none := absent
    rw [ids_unlink, after] at present
    exact present rfl

theorem Experienced.weighed {answer : Option JsValue} {now : JsNumber} {next : MemoState}
    (result : s.weighed r options answer now = some next) : Experienced r options next := by
  rw [MemoState.weighed] at result
  split at result
  next key id ttl rest isFrames =>
    have onTop : .weighing key id ttl ∈ s.frames := by
      rw [isFrames]
      exact List.mem_cons_self
    have fewer : rest.Sublist s.frames := by
      rw [isFrames]
      exact List.sublist_cons_self _ _
    have isOver : id ∉ rest.map Frame.id ++ s.loads.map Load.id := by
      have distinct := experienced.tracked.nodup
      rw [MemoState.outstanding, isFrames] at distinct
      exact (List.nodup_cons.mp distinct).1
    rcases experienced.tracked.weighing key id ttl onTop with ⟨linked, settled, unhandled⟩
    dsimp only at result
    split at result
    next notKept =>
      cases result
      exact experienced.drop linked settled rfl rfl trivial rfl
        ⟨now, ttl, List.mem_cons_self, notKept⟩ fewer isOver
    next =>
      rcases Option.map_eq_some_iff.mp result with ⟨memo, evicted, rfl⟩
      have sameId : ∀ entry : Entry,
          ({ entry with expires := r.add now ttl } : Entry).id = entry.id := fun _ => rfl
      have noted : Recorded r options (s.memo.note (.succeeded id now ttl)) :=
        experienced.recorded.handle settled rfl rfl trivial
      have keptChanged : AllKept r options
          (((s.memo.note (.succeeded id now ttl)).reweigh r key id
            (settledWeight answer)).assign key
            id ({ · with expires := r.add now ttl })) := by
        refine experienced.kept.keep experienced.recorded linked unhandled
          (.succeeded id now ttl) rfl (r.add now ttl) ?_ (by simp) (by simp [Memo.note]) ?_
        · rintro time ttl ⟨⟩
          rfl
        · intro other entry stored
          rw [Memo.get?_assign, Option.map_eq_some_iff] at stored
          rcases stored with ⟨middle, storedMiddle, rfl⟩
          rw [Memo.get?_reweigh, Option.map_eq_some_iff] at storedMiddle
          rcases storedMiddle with ⟨before, storedBefore, rfl⟩
          refine ⟨before, storedBefore, ?_⟩
          by_cases changed : other = key ∧ before.id = id
          · simp [changed]
          · simp [changed]
      rcases evict_history evicted with ⟨evictGrown, evictUntouched⟩
      rw [Memo.history_assign, Memo.history_reweigh] at evictGrown
      simp only [Memo.history_assign, Memo.history_reweigh] at evictUntouched
      refine ⟨((noted.reweigh _).assign sameId).evict evicted, keptChanged.evict evicted, ?_⟩
      refine experienced.tracked.of_progress fewer (List.Sublist.refl _) rfl
        ((List.suffix_cons _ _).trans evictGrown) (experienced.tracked.known _ linked _ rfl)
        isOver ?_ ?_
      · intro found different
        refine (untouched_cons ?_).trans (evictUntouched found)
        simpa [Occurrence.advances] using Ne.symm different
      · intro other present
        have before := evict_ids evicted other present
        rwa [ids_assign sameId, ids_reweigh] at before
  next => exact absurd result (by simp)

theorem Experienced.rejected {id : ℕ} {error : LoadError} {now : JsNumber} {next : MemoState}
    (result : s.rejected r options id error now = some next) : Experienced r options next := by
  rcases Option.map_eq_some_iff.mp result with ⟨⟨load, reacted⟩, isReaction, rfl⟩
  rcases experienced.react isReaction with ⟨after, sameId, reacting⟩
  rw [← sameId]
  dsimp only
  split
  next isKept =>
    have sameEntry : ∀ entry : Entry,
        ({ entry with expires := r.add now options.negativeTtlMs } : Entry).id = entry.id :=
      fun _ => rfl
    have noted : Recorded r options (reacted.memo.note (.failed load.id error now)) :=
      after.recorded.handle reacting.settled rfl rfl trivial
    refine ⟨noted.assign sameEntry, ?_, ?_⟩
    · refine after.kept.keep after.recorded reacting.linked reacting.unhandled
        (.failed load.id error now) rfl (r.add now options.negativeTtlMs) (by simp) ?_
        (by simp [Memo.note]) ?_
      · rintro cause time ⟨⟩
        exact ⟨isKept.2, rfl⟩
      · intro other entry stored
        rw [Memo.get?_assign, Option.map_eq_some_iff] at stored
        rcases stored with ⟨before, storedBefore, rfl⟩
        refine ⟨before, storedBefore, ?_⟩
        by_cases changed : other = load.key ∧ before.id = load.id
        · simp [changed]
        · simp [changed]
    · refine after.tracked.of_progress (List.Sublist.refl _) (List.Sublist.refl _) rfl ?_
        (after.tracked.known _ reacting.linked _ rfl) reacting.ended ?_ ?_
      · rw [Memo.history_assign]
        exact List.suffix_cons _ _
      · intro found different
        rw [Memo.history_assign]
        exact untouched_cons (by simpa [Occurrence.advances] using Ne.symm different)
      · intro other present
        rwa [ids_assign sameEntry] at present
  next notKept =>
    exact after.drop reacting.linked reacting.settled rfl rfl trivial rfl
      ⟨error, now, List.mem_cons_self, notKept⟩ (List.Sublist.refl _) reacting.ended

theorem Experienced.step {event : MemoEvent} {next : MemoState}
    (result : MemoState.step r options s event = some next) : Experienced r options next := by
  cases event with
  | call key ttlMs now =>
      cases result
      exact experienced.call key ttlMs now
  | loadReturned => exact experienced.loadReturned result
  | loadThrew => exact experienced.loadThrew result
  | fulfilled id now => exact experienced.fulfilled result
  | weighed answer now => exact experienced.weighed result
  | rejected id error now => exact experienced.rejected result
  | invalidate key =>
      cases result
      exact experienced.invalidate key

end

theorem experienced_init (r : Rounding) (options : MemoOptions) :
    Experienced r options (createMemo r options).init where
  recorded :=
    { live_iff := fun key id => by simp [createMemo, Memo.ids, LiveIn]
      linkedOnce := fun _ _ _ member => absurd member List.not_mem_nil
      removedLinked := fun _ _ member => absurd member List.not_mem_nil
      handledSettled := fun _ handled => by simp [createMemo, Handled] at handled
      admissible := throughout_nil }
  kept := fun _ _ stored => by simp [createMemo] at stored
  tracked :=
    { known := fun _ member => absurd member List.not_mem_nil
      nodup := List.nodup_nil
      loading := fun _ _ _ member => absurd member List.not_mem_nil
      weighing := fun _ _ _ member => absurd member List.not_mem_nil
      waiting := fun _ member => absurd member List.not_mem_nil
      nested := List.Pairwise.nil
      free := fun _ _ _ member => absurd member List.not_mem_nil }

theorem experienced_of_reachable {r : Rounding} {options : MemoOptions} {s : MemoState}
    (reached : (createMemo r options).Reachable (fun _ _ => True) s) : Experienced r options s :=
  reached.invariant (Experienced r options) (experienced_init r options)
    fun _ _ _ before _ result => before.step result

/-! ## The callers -/

/-- A time lies before the end of a period, as it is computed and exactly. -/
def Before (r : Rounding) (now start period : JsNumber) : Prop :=
  JsNumber.less now (r.add start period) = true ∧ ∀ number a b : ℚ, now = .finite number →
    r.round number = .finite number → start = .finite a → period = .finite b → number < a + b

theorem before_of_less {r : Rounding} {now start period : JsNumber}
    (less : JsNumber.less now (r.add start period) = true) : Before r now start period := by
  refine ⟨less, ?_⟩
  rintro number a b rfl isNumber rfl rfl
  exact r.lt_of_less_add isNumber less

/-- What callers can rely on after a run. -/
structure CallersServed (r : Rounding) (options : MemoOptions) (s : MemoState) : Prop where
  /-- A call joins the pending entry of its key and starts no load. -/
  joined : ∀ key hit ttlMs now, s.memo.cache.get? key = some hit → hit.pending = true →
    s.step r options (.call key ttlMs now) = some { s with memo := s.memo.touch key hit now }
  /-- Before a key is loaded, every earlier entry of it has left the cache, for a reason that
  fits what had happened to it. -/
  apart : ∀ later key id earlier, s.memo.history = later ++ .started key id :: earlier →
    ∀ first, .linked key first ∈ earlier → ∃ between reason before,
      earlier = between ++ .removed first reason :: before ∧ reason.Fits r options before first
  /-- A value is received only before the end of its time. -/
  success : ∀ later key id now earlier, s.memo.history = later ++ .received key id now :: earlier →
    ∀ time ttl, .succeeded id time ttl ∈ earlier → Before r now time ttl
  /-- A rejection is received only if the upstream is to blame, and before the end of its
  time. -/
  failure : ∀ later key id now earlier, s.memo.history = later ++ .received key id now :: earlier →
    ∀ error time, .failed id error time ∈ earlier →
      (∃ kind, error = .upstream kind ∧ kind ≠ .timeout ∧ kind ≠ .overloaded) ∧
        Before r now time options.negativeTtlMs
  /-- What is received is in the cache, under the key of the call. -/
  visible : ∀ later key id now earlier, s.memo.history = later ++ .received key id now :: earlier →
    LiveIn earlier key id

theorem exists_kind_of_cacheable {error : LoadError} (isCacheable : cacheable error = true) :
    ∃ kind, error = .upstream kind ∧ kind ≠ .timeout ∧ kind ≠ .overloaded := by
  cases error with
  | upstream kind => exact ⟨kind, rfl, by simpa [cacheable] using isCacheable⟩
  | other => exact absurd isCacheable Bool.false_ne_true

/-- Whatever is called, settles and is invalidated in whatever order, callers are served. -/
theorem memo_serves_callers {r : Rounding} {options : MemoOptions} {s : MemoState}
    (reached : (createMemo r options).Reachable (fun _ _ => True) s) :
    CallersServed r options s := by
  have admissible := (experienced_of_reachable reached).recorded.admissible
  constructor
  · intro key hit ttlMs now stored isPending
    rw [MemoState.step, MemoState.call, stored]
    simp only [isPending, true_or, ↓reduceIte]
  · intro later key id earlier split first linked
    rcases admissible later _ earlier split first linked with ⟨reason, removed⟩
    rcases List.append_of_mem removed with ⟨between, before, cut⟩
    refine ⟨between, reason, before, cut, ?_⟩
    rw [cut] at split
    have whole : s.memo.history =
        (later ++ .started key id :: between) ++ .removed first reason :: before := by
      rw [split]
      simp
    exact (admissible _ _ before whole).2
  · intro later key id now earlier split time ttl member
    exact before_of_less ((admissible later _ earlier split).2.success time ttl member)
  · intro later key id now earlier split error time member
    rcases (admissible later _ earlier split).2.failure error time member with ⟨isCacheable, less⟩
    exact ⟨exists_kind_of_cacheable isCacheable, before_of_less less⟩
  · exact fun later key id now earlier split => (admissible later _ earlier split).1

/-- A small memo. -/
def sampleOptions : MemoOptions where
  ttlMs := .ofNat 5000
  negativeTtlMs := .ofNat 2000
  maxEntries := .ofNat 2
  maxWeight := .ofNat 10

/-- The second call joins the load of the first. -/
theorem memo_serves_callers_joined :
    ∃ s, s.memo.history = [.received "list:" 0 (.ofNat 1), .linked "list:" 0, .started "list:" 0] ∧
      CallersServed .lossless sampleOptions s := by
  have history : ((createMemo .lossless sampleOptions).run (fun _ _ => True)
      (createMemo .lossless sampleOptions).init
      [.call "list:" none (.ofNat 0), .loadReturned, .call "list:" none (.ofNat 1)]).map
        (·.memo.history) =
      some [.received "list:" 0 (.ofNat 1), .linked "list:" 0, .started "list:" 0] := by
    decide +kernel
  rcases Option.map_eq_some_iff.mp history with ⟨s, ran, isHistory⟩
  exact ⟨s, isHistory, memo_serves_callers (Machine.reachable_of_run ran)⟩

end BelugaManager.DomainApi
