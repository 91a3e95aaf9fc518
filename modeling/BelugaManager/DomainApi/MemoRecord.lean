import BelugaManager.DomainApi.Memo

/-!
# The record of a memo

What the cache and its entries have to do with the history, and that each operation of
the memo keeps it so.
-/

namespace BelugaManager.DomainApi

open Foundation

/-! ## Histories -/

/-- An entry is in the cache. -/
def LiveIn (history : List Occurrence) (key : String) (id : ℕ) : Prop :=
  .linked key id ∈ history ∧ ∀ reason, .removed id reason ∉ history

/-- A load function runs. -/
def Running (history : List Occurrence) (key : String) (id : ℕ) : Prop :=
  .started key id ∈ history ∧ (∀ other, .linked other id ∉ history) ∧ .threw id ∉ history

/-- The reaction of a promise is over. -/
def Handled (history : List Occurrence) (id : ℕ) : Prop :=
  (∃ time ttl, .succeeded id time ttl ∈ history) ∨ ∃ error time, .failed id error time ∈ history

/-- A load function called the memo for its own key and had another load started. -/
def Reentered (history : List Occurrence) (key : String) : Prop :=
  ∃ later id earlier, history = later ++ .started key id :: earlier ∧
    ∃ outer, Running earlier key outer

theorem Reentered.mono {history longer : List Occurrence} {key : String}
    (reentered : Reentered history key) (extends' : history <:+ longer) : Reentered longer key := by
  rcases reentered with ⟨later, id, earlier, rfl, outer⟩
  rcases extends' with ⟨newest, rfl⟩
  exact ⟨newest ++ later, id, earlier, (List.append_assoc _ _ _).symm, outer⟩

/-- The load whose course an occurrence advances. -/
def Occurrence.advances : Occurrence → Option ℕ
  | .started _ id => some id
  | .threw id => some id
  | .linked _ id => some id
  | .received _ _ _ => none
  | .settled id => some id
  | .succeeded id _ _ => some id
  | .failed id _ _ => some id
  | .removed _ _ => none

/-- A longer history in which a load has come no further. -/
def Untouched (history longer : List Occurrence) (id : ℕ) : Prop :=
  ∀ occurrence, occurrence.advances = some id → (occurrence ∈ longer ↔ occurrence ∈ history)

section Untouched

variable {history longer longest : List Occurrence} {id : ℕ}

theorem Untouched.refl (history : List Occurrence) (id : ℕ) : Untouched history history id :=
  fun _ _ => Iff.rfl

theorem Untouched.trans (first : Untouched history longer id)
    (second : Untouched longer longest id) : Untouched history longest id :=
  fun occurrence about => (second occurrence about).trans (first occurrence about)

theorem untouched_cons {latest : Occurrence} (other : latest.advances ≠ some id) :
    Untouched history (latest :: history) id := by
  intro occurrence about
  rw [List.mem_cons, or_iff_right]
  rintro rfl
  exact other about

theorem Untouched.handled_iff (untouched : Untouched history longer id) :
    Handled longer id ↔ Handled history id := by
  have succeeded := fun time ttl => untouched (.succeeded id time ttl) rfl
  have failed := fun error time => untouched (.failed id error time) rfl
  simp only [Handled, succeeded, failed]

theorem Untouched.running (untouched : Untouched history longer id) {key : String}
    (running : Running history key id) : Running longer key id := by
  refine ⟨(untouched _ rfl).mpr running.1, ?_, ?_⟩
  · exact fun other linked => running.2.1 other ((untouched _ rfl).mp linked)
  · exact fun threw => running.2.2 ((untouched _ rfl).mp threw)

end Untouched

section

variable (r : Rounding) (options : MemoOptions)

/-- What was handled in the past permits the entry to be received at a time. -/
structure Fresh (history : List Occurrence) (id : ℕ) (now : JsNumber) : Prop where
  success : ∀ time ttl, .succeeded id time ttl ∈ history → JsNumber.less now (r.add time ttl) = true
  failure : ∀ error time, .failed id error time ∈ history →
    cacheable error = true ∧ JsNumber.less now (r.add time options.negativeTtlMs) = true

/-- The time of a handled entry is over. -/
structure Stale (history : List Occurrence) (id : ℕ) (now : JsNumber) : Prop where
  settled : .settled id ∈ history
  success : ∀ time ttl, .succeeded id time ttl ∈ history →
    JsNumber.less now (r.add time ttl) = false
  failure : ∀ error time, .failed id error time ∈ history →
    JsNumber.less now (r.add time options.negativeTtlMs) = false

/-- The reason for a removal fits what happened before. -/
def Removal.Fits (history : List Occurrence) (id : ℕ) : Removal → Prop
  | .evicted => True
  | .invalidated => True
  | .expired now => Stale r options history id now
  | .uncached weight => ∃ time ttl, .succeeded id time ttl ∈ history ∧
      (JsNumber.atMost ttl (.ofNat 0) = true ∨ JsNumber.less options.maxWeight weight = true)
  | .unkept => ∃ error time, .failed id error time ∈ history ∧
      ¬(JsNumber.less (.ofNat 0) options.negativeTtlMs = true ∧ cacheable error = true)
  | .replaced => ∃ key, .linked key id ∈ history ∧ Reentered history key

/-- What may happen after a history. -/
def Admissible : Occurrence → List Occurrence → Prop
  | .started key _, earlier =>
      ∀ id, .linked key id ∈ earlier → ∃ reason, .removed id reason ∈ earlier
  | .received key id now, earlier => LiveIn earlier key id ∧ Fresh r options earlier id now
  | .removed id reason, earlier =>
      (∃ key, LiveIn earlier key id) ∧ reason.Fits r options earlier id
  | _, _ => True

/-- What the fields of an entry have to do with the history. -/
structure Kept (history : List Occurrence) (entry : Entry) : Prop where
  pending : entry.pending = true ↔ .settled entry.id ∉ history
  success : ∀ time ttl, .succeeded entry.id time ttl ∈ history → entry.expires = r.add time ttl
  failure : ∀ error time, .failed entry.id error time ∈ history →
    cacheable error = true ∧ entry.expires = r.add time options.negativeTtlMs

variable {r options}

/-- An entry is as recorded as long as its load comes no further. -/
theorem Kept.of_untouched {history longer : List Occurrence} {entry : Entry}
    (kept : Kept r options history entry) (untouched : Untouched history longer entry.id) :
    Kept r options longer entry where
  pending := by rw [kept.pending, untouched _ rfl]
  success := fun time ttl member => kept.success time ttl ((untouched _ rfl).mp member)
  failure := fun error time member => kept.failure error time ((untouched _ rfl).mp member)

/-- The entry with a key, by number. -/
def Memo.ids (m : Memo) (key : String) : Option ℕ := (m.cache.get? key).map Entry.id

theorem Memo.ids_eq_some_iff {m : Memo} {key : String} {id : ℕ} :
    m.ids key = some id ↔ ∃ entry, m.live? key id = some entry := by
  simp only [Memo.ids, Option.map_eq_some_iff, Memo.live?_eq_some_iff]

variable (r options)

/-- The cache and the history of a memo belong together. -/
structure Recorded (m : Memo) : Prop where
  live_iff : ∀ key id, m.ids key = some id ↔ LiveIn m.history key id
  linkedOnce : ∀ key other id, .linked key id ∈ m.history → .linked other id ∈ m.history →
    key = other
  removedLinked : ∀ id reason, .removed id reason ∈ m.history → ∃ key, .linked key id ∈ m.history
  handledSettled : ∀ id, Handled m.history id → .settled id ∈ m.history
  admissible : Throughout (Admissible r options) m.history

/-- Every entry is as recorded. -/
def AllKept (m : Memo) : Prop :=
  ∀ key entry, m.cache.get? key = some entry → Kept r options m.history entry

end

/-! ### One operation after the other -/

/-- An occurrence that changes no key of the cache. -/
def Occurrence.isQuiet : Occurrence → Bool
  | .linked _ _ => false
  | .removed _ _ => false
  | _ => true

/-- The load that an occurrence ends the reaction of. -/
def Occurrence.handles : Occurrence → Option ℕ
  | .succeeded id _ _ => some id
  | .failed id _ _ => some id
  | _ => none

theorem handled_cons {occurrence : Occurrence} {history : List Occurrence} {id : ℕ}
    (handled : Handled (occurrence :: history) id) :
    occurrence.handles = some id ∨ Handled history id := by
  rcases handled with ⟨time, ttl, member⟩ | ⟨error, time, member⟩
  · rcases List.mem_cons.mp member with rfl | earlier
    · exact Or.inl rfl
    · exact Or.inr (Or.inl ⟨time, ttl, earlier⟩)
  · rcases List.mem_cons.mp member with rfl | earlier
    · exact Or.inl rfl
    · exact Or.inr (Or.inr ⟨error, time, earlier⟩)

section

variable {r : Rounding} {options : MemoOptions} {m next : Memo}

/-- Entries may change as long as their numbers stay. -/
theorem Recorded.of_same_ids (recorded : Recorded r options m)
    (sameIds : ∀ key, next.ids key = m.ids key) (sameHistory : next.history = m.history) :
    Recorded r options next where
  live_iff := fun key id => by rw [sameIds, sameHistory, recorded.live_iff]
  linkedOnce := by rw [sameHistory]; exact recorded.linkedOnce
  removedLinked := by rw [sameHistory]; exact recorded.removedLinked
  handledSettled := by rw [sameHistory]; exact recorded.handledSettled
  admissible := by rw [sameHistory]; exact recorded.admissible

theorem Recorded.of_quiet (recorded : Recorded r options m) (occurrence : Occurrence)
    (sameIds : ∀ key, next.ids key = m.ids key)
    (history : next.history = occurrence :: m.history) (quiet : occurrence.isQuiet = true)
    (settled : ∀ id, occurrence.handles = some id → .settled id ∈ m.history)
    (admissible : Admissible r options occurrence m.history) : Recorded r options next := by
  have linked : ∀ key id, .linked key id ∈ next.history ↔ .linked key id ∈ m.history := by
    intro key id
    rw [history, List.mem_cons, or_iff_right]
    rintro rfl
    exact absurd quiet Bool.false_ne_true
  have removed : ∀ id reason, .removed id reason ∈ next.history ↔
      .removed id reason ∈ m.history := by
    intro id reason
    rw [history, List.mem_cons, or_iff_right]
    rintro rfl
    exact absurd quiet Bool.false_ne_true
  constructor
  · intro key id
    simp only [sameIds, recorded.live_iff, LiveIn, linked, removed]
  · simp only [linked]
    exact recorded.linkedOnce
  · simp only [linked, removed]
    exact recorded.removedLinked
  · intro id handled
    rw [history] at handled ⊢
    rcases handled_cons handled with ends | earlier
    · exact List.mem_cons_of_mem _ (settled id ends)
    · exact List.mem_cons_of_mem _ (recorded.handledSettled id earlier)
  · rw [history, throughout_cons]
    exact ⟨admissible, recorded.admissible⟩

variable {key : String} {id : ℕ}

/-- The end of a reaction is noted. -/
theorem Recorded.handle (recorded : Recorded r options m) {occurrence : Occurrence}
    (settled : .settled id ∈ m.history) (handles : occurrence.handles = some id)
    (quiet : occurrence.isQuiet = true) (admissible : Admissible r options occurrence m.history) :
    Recorded r options (m.note occurrence) := by
  refine recorded.of_quiet occurrence (fun _ => rfl) rfl quiet ?_ admissible
  intro found ends
  rw [handles, Option.some.injEq] at ends
  exact ends ▸ settled

theorem ids_assign {change : Entry → Entry} (sameId : ∀ entry, (change entry).id = entry.id)
    (other : String) : (m.assign key id change).ids other = m.ids other := by
  rw [Memo.ids, Memo.get?_assign, Option.map_map, Memo.ids]
  congr 1
  funext entry
  rw [Function.comp_apply]
  split
  next => exact sameId entry
  next => rfl

theorem ids_reweigh (weight : JsNumber) (other : String) :
    (m.reweigh r key id weight).ids other = m.ids other := by
  rw [Memo.ids, Memo.get?_reweigh, Option.map_map, Memo.ids]
  congr 1
  funext entry
  rw [Function.comp_apply]
  split
  next => rfl
  next => rfl

theorem Recorded.assign (recorded : Recorded r options m) {change : Entry → Entry}
    (sameId : ∀ entry, (change entry).id = entry.id) :
    Recorded r options (m.assign key id change) :=
  recorded.of_same_ids (ids_assign sameId) (Memo.history_assign change)

theorem Recorded.reweigh (recorded : Recorded r options m) (weight : JsNumber) :
    Recorded r options (m.reweigh r key id weight) :=
  recorded.of_same_ids (ids_reweigh weight) (Memo.history_reweigh r weight)

theorem ids_unlink (reason : Removal) (other : String) :
    (m.unlink r key id reason).ids other =
      (m.ids other).filter fun found => ¬(other = key ∧ found = id) := by
  rw [Memo.ids, Memo.get?_unlink, Memo.ids]
  cases m.cache.get? other with
  | none => rfl
  | some entry => simp [Option.filter_some, apply_ite (Option.map Entry.id)]

theorem Recorded.unlink (recorded : Recorded r options m) {reason : Removal}
    (fits : ∀ entry, m.live? key id = some entry → reason.Fits r options m.history id) :
    Recorded r options (m.unlink r key id reason) := by
  rcases m.unlink_cases r reason with ⟨same, _⟩ | ⟨entry, isLive, taken⟩
  · rw [same]
    exact recorded
  · have live := (recorded.live_iff key id).mp (Memo.ids_eq_some_iff.mpr ⟨entry, isLive⟩)
    have history : (m.unlink r key id reason).history = .removed id reason :: m.history := by
      rw [taken]
    constructor
    · intro other found
      rw [ids_unlink, Option.filter_eq_some_iff, decide_eq_true_eq, recorded.live_iff, history]
      constructor
      · rintro ⟨⟨linked, kept⟩, different⟩
        refine ⟨List.mem_cons_of_mem _ linked, ?_⟩
        intro why member
        rcases List.mem_cons.mp member with equal | earlier
        · rw [Occurrence.removed.injEq] at equal
          rw [equal.1] at linked
          exact different ⟨recorded.linkedOnce _ _ _ linked live.1, equal.1⟩
        · exact kept why earlier
      · rintro ⟨linked, kept⟩
        have different : found ≠ id := fun isId => kept reason (isId ▸ List.mem_cons_self)
        refine ⟨⟨?_, ?_⟩, fun same => different same.2⟩
        · exact (List.mem_cons.mp linked).resolve_left (by simp)
        · exact fun why member => kept why (List.mem_cons_of_mem _ member)
    · rw [history]
      simp only [List.mem_cons, reduceCtorEq, false_or]
      exact recorded.linkedOnce
    · rw [history]
      intro gone why member
      rcases List.mem_cons.mp member with equal | earlier
      · rw [Occurrence.removed.injEq] at equal
        exact ⟨key, List.mem_cons_of_mem _ (equal.1 ▸ live.1)⟩
      · rcases recorded.removedLinked gone why earlier with ⟨other, linked⟩
        exact ⟨other, List.mem_cons_of_mem _ linked⟩
    · rw [history]
      intro found handled
      rcases handled_cons handled with ends | earlier
      · exact absurd ends (by simp [Occurrence.handles])
      · exact List.mem_cons_of_mem _ (recorded.handledSettled found earlier)
    · rw [history, throughout_cons]
      exact ⟨⟨⟨key, live⟩, fits entry isLive⟩, recorded.admissible⟩

theorem Recorded.evict (recorded : Recorded r options m)
    (result : m.evict r options = some next) : Recorded r options next := by
  refine (Memo.evict_rule r options (Recorded r options) ?_ recorded result).1
  intro current oldest rest before _ _
  exact before.unlink fun _ _ => trivial

/-- A new entry is set under a key without one. -/
theorem Recorded.of_linked (recorded : Recorded r options m) (absent : m.ids key = none)
    (unlinked : ∀ other, .linked other id ∉ m.history)
    (ids : ∀ other, next.ids other = if other = key then some id else m.ids other)
    (history : next.history = .linked key id :: m.history) : Recorded r options next := by
  have unremoved : ∀ reason, .removed id reason ∉ m.history := by
    intro reason member
    rcases recorded.removedLinked id reason member with ⟨other, linked⟩
    exact unlinked other linked
  constructor
  · intro other found
    rw [ids, history]
    split
    next isKey =>
      rw [isKey, Option.some.injEq]
      constructor
      · rintro rfl
        refine ⟨List.mem_cons_self, ?_⟩
        intro reason member
        exact unremoved reason ((List.mem_cons.mp member).resolve_left (by simp))
      · rintro ⟨linked, kept⟩
        rcases List.mem_cons.mp linked with equal | earlier
        · rw [Occurrence.linked.injEq] at equal
          exact equal.2.symm
        · have live := (recorded.live_iff key found).mpr
            ⟨earlier, fun reason member => kept reason (List.mem_cons_of_mem _ member)⟩
          rw [absent] at live
          exact absurd live (by simp)
    next isOther =>
      have sameLinked : .linked other found ∈ Occurrence.linked key id :: m.history ↔
          .linked other found ∈ m.history := by
        rw [List.mem_cons, or_iff_right]
        rw [Occurrence.linked.injEq]
        exact fun equal => isOther equal.1
      simp only [recorded.live_iff, LiveIn, sameLinked, List.mem_cons, reduceCtorEq, false_or]
  · rw [history]
    intro other third found first second
    rcases List.mem_cons.mp first with firstNew | firstEarlier
    · rcases List.mem_cons.mp second with secondNew | secondEarlier
      · rw [Occurrence.linked.injEq] at firstNew secondNew
        rw [firstNew.1, secondNew.1]
      · rw [Occurrence.linked.injEq] at firstNew
        exact absurd (firstNew.2 ▸ secondEarlier) (unlinked third)
    · rcases List.mem_cons.mp second with secondNew | secondEarlier
      · rw [Occurrence.linked.injEq] at secondNew
        exact absurd (secondNew.2 ▸ firstEarlier) (unlinked other)
      · exact recorded.linkedOnce other third found firstEarlier secondEarlier
  · rw [history]
    intro gone reason member
    rcases recorded.removedLinked gone reason
      ((List.mem_cons.mp member).resolve_left (by simp)) with
      ⟨other, linked⟩
    exact ⟨other, List.mem_cons_of_mem _ linked⟩
  · rw [history]
    intro found handled
    rcases handled_cons handled with ends | earlier
    · exact absurd ends (by simp [Occurrence.handles])
    · exact List.mem_cons_of_mem _ (recorded.handledSettled found earlier)
  · rw [history, throughout_cons]
    exact ⟨trivial, recorded.admissible⟩

theorem ids_link (entry : Entry) (other : String) :
    (m.link r key entry).ids other = if other = key then some entry.id else m.ids other := by
  rw [Memo.ids, Memo.get?_link, Memo.ids]
  split
  next => rfl
  next => rfl

/-- An entry may take the place of another if the load function called the memo for its
own key. -/
theorem Recorded.link (recorded : Recorded r options m) {entry : Entry}
    (unlinked : ∀ other, .linked other entry.id ∉ m.history)
    (reentered : m.ids key ≠ none → Reentered m.history key) :
    Recorded r options (m.link r key entry) := by
  cases stored : m.cache.get? key with
  | none =>
      have absent : m.ids key = none := by rw [Memo.ids, stored, Option.map_none]
      apply recorded.of_linked absent unlinked (ids_link entry)
      rw [Memo.link, Memo.noteReplaced, stored]
  | some old =>
      -- the old entry is taken out first; the key is free in between
      have isLive : m.live? key old.id = some old := Memo.live?_eq_some_iff.mpr ⟨stored, rfl⟩
      have present : m.ids key = some old.id := by rw [Memo.ids, stored, Option.map_some]
      have fits : Removal.replaced.Fits r options m.history old.id :=
        ⟨key, ((recorded.live_iff key old.id).mp present).1,
          reentered (by rw [present]; exact Option.some_ne_none _)⟩
      have between : Recorded r options (m.unlink r key old.id .replaced) :=
        recorded.unlink fun _ _ => fits
      have history : (m.unlink r key old.id .replaced).history =
          .removed old.id .replaced :: m.history := by rw [Memo.unlink, isLive]
      have free : (m.unlink r key old.id .replaced).ids key = none := by
        rw [ids_unlink, present, Option.filter_some, if_neg (by simp)]
      have stillUnlinked : ∀ other,
          .linked other entry.id ∉ (m.unlink r key old.id .replaced).history := by
        intro other linked
        rw [history] at linked
        exact unlinked other ((List.mem_cons.mp linked).resolve_left (by simp))
      apply between.of_linked free stillUnlinked
      · intro other
        rw [ids_link, ids_unlink]
        split
        next => rfl
        next isOther =>
          cases m.ids other with
          | none => rfl
          | some found => rw [Option.filter_some, if_pos (by simp [isOther])]
      · rw [history, Memo.link, Memo.noteReplaced, stored]

/-! ### Entries -/

theorem Recorded.key_of_id (recorded : Recorded r options m) (linked : .linked key id ∈ m.history)
    {other : String} {entry : Entry} (stored : m.cache.get? other = some entry)
    (sameId : entry.id = id) : other = key := by
  have present : m.ids other = some id := by rw [Memo.ids, stored, Option.map_some, sameId]
  exact recorded.linkedOnce _ _ _ ((recorded.live_iff other id).mp present).1 linked

/-- Entries stay as recorded when only their weights change and their loads come no
further. -/
theorem AllKept.of_entries (kept : AllKept r options m)
    (entries : ∀ other entry, next.cache.get? other = some entry →
      ∃ before, m.cache.get? other = some before ∧ entry.id = before.id ∧
        entry.pending = before.pending ∧ entry.expires = before.expires)
    (untouched : ∀ other entry, next.cache.get? other = some entry →
      Untouched m.history next.history entry.id) : AllKept r options next := by
  intro other entry stored
  rcases entries other entry stored with ⟨before, storedBefore, sameId, samePending, sameExpires⟩
  have keptBefore := kept other before storedBefore
  have sameEntry : Kept r options m.history entry := by
    refine ⟨?_, ?_, ?_⟩
    · rw [samePending, sameId]
      exact keptBefore.pending
    · rw [sameId, sameExpires]
      exact keptBefore.success
    · rw [sameId, sameExpires]
      exact keptBefore.failure
  exact sameEntry.of_untouched (untouched other entry stored)

theorem AllKept.note (kept : AllKept r options m) {occurrence : Occurrence}
    (others : ∀ other entry, m.cache.get? other = some entry →
      occurrence.advances ≠ some entry.id) : AllKept r options (m.note occurrence) :=
  kept.of_entries (fun _ entry stored => ⟨entry, stored, rfl, rfl, rfl⟩)
    fun other entry stored => untouched_cons (others other entry stored)

theorem untouched_unlink (reason : Removal) (found : ℕ) :
    Untouched m.history (m.unlink r key id reason).history found := by
  rcases m.history_unlink r reason with same | removed
  · rw [same]
    exact Untouched.refl _ _
  · rw [removed]
    exact untouched_cons (by simp [Occurrence.advances])

theorem AllKept.unlink (kept : AllKept r options m) (reason : Removal) :
    AllKept r options (m.unlink r key id reason) := by
  apply kept.of_entries
  · intro other entry stored
    rw [Memo.get?_unlink, Option.filter_eq_some_iff] at stored
    exact ⟨entry, stored.1, rfl, rfl, rfl⟩
  · exact fun _ _ _ => untouched_unlink reason _

theorem AllKept.evict (kept : AllKept r options m) (result : m.evict r options = some next) :
    AllKept r options next := by
  refine (Memo.evict_rule r options (AllKept r options) ?_ kept result).1
  exact fun _ _ _ before _ _ => before.unlink .evicted

theorem AllKept.touch (kept : AllKept r options m) {hit : Entry}
    (stored : m.cache.get? key = some hit) (now : JsNumber) :
    AllKept r options (m.touch key hit now) := by
  apply kept.of_entries
  · intro other entry found
    rw [Memo.get?_touch stored] at found
    exact ⟨entry, found, rfl, rfl, rfl⟩
  · exact fun _ _ _ => untouched_cons (by simp [Occurrence.advances])

theorem untouched_link {entry : Entry} {found : ℕ} (different : found ≠ entry.id) :
    Untouched m.history (m.link r key entry).history found := by
  have replaced : Untouched m.history (m.noteReplaced key) found := by
    rw [Memo.noteReplaced]
    split
    next => exact untouched_cons (by simp [Occurrence.advances])
    next => exact Untouched.refl _ _
  exact replaced.trans (untouched_cons (by simpa [Occurrence.advances] using Ne.symm different))

/-- A new entry is pending and its load has not come to a reaction. -/
theorem AllKept.link (kept : AllKept r options m) (recorded : Recorded r options m)
    {entry : Entry} (isPending : entry.pending = true) (unsettled : .settled entry.id ∉ m.history)
    (unlinked : ∀ other, .linked other entry.id ∉ m.history) :
    AllKept r options (m.link r key entry) := by
  have unsettledAfter : .settled entry.id ∉ (m.link r key entry).history := by
    rw [Memo.link, Memo.noteReplaced]
    split
    next => simpa using unsettled
    next => simpa using unsettled
  have unhandled : ¬Handled (m.link r key entry).history entry.id := by
    intro handled
    apply unsettled
    apply recorded.handledSettled
    rw [Memo.link, Memo.noteReplaced] at handled
    split at handled
    next => simpa [Handled] using handled
    next => simpa [Handled] using handled
  intro other found stored
  rw [Memo.get?_link] at stored
  split at stored
  next =>
    cases stored
    refine ⟨by simp [isPending, unsettledAfter], ?_, ?_⟩
    · exact fun time ttl member => absurd (Or.inl ⟨time, ttl, member⟩) unhandled
    · exact fun error time member => absurd (Or.inr ⟨error, time, member⟩) unhandled
  next =>
    apply (kept other found stored).of_untouched
    apply untouched_link
    intro sameId
    have present : m.ids other = some entry.id := by rw [Memo.ids, stored, Option.map_some, sameId]
    exact unlinked other ((recorded.live_iff _ _).mp present).1

/-- A promise begins to react. -/
theorem AllKept.settle (kept : AllKept r options m) (recorded : Recorded r options m)
    (linked : .linked key id ∈ m.history) :
    AllKept r options ((m.assign key id ({ · with pending := false })).note (.settled id)) := by
  intro other entry stored
  have found : (m.assign key id ({ · with pending := false })).cache.get? other = some entry :=
    stored
  rw [Memo.get?_assign, Option.map_eq_some_iff] at found
  rcases found with ⟨before, storedBefore, changed⟩
  have keptBefore := kept other before storedBefore
  simp only [Memo.note, Memo.history_assign]
  by_cases sameId : before.id = id
  · rw [if_pos ⟨recorded.key_of_id linked storedBefore sameId, sameId⟩] at changed
    rw [← changed]
    refine ⟨by simp [sameId], ?_, ?_⟩
    · intro time ttl member
      exact keptBefore.success time ttl ((List.mem_cons.mp member).resolve_left (by simp))
    · intro error time member
      exact keptBefore.failure error time ((List.mem_cons.mp member).resolve_left (by simp))
  · rw [if_neg fun both => sameId both.2] at changed
    rw [← changed]
    exact keptBefore.of_untouched
      (untouched_cons (by simpa [Occurrence.advances] using Ne.symm sameId))

/-- The end of a reaction that keeps its entry until a time. -/
theorem AllKept.keep (kept : AllKept r options m) (recorded : Recorded r options m)
    (linked : .linked key id ∈ m.history) (unhandled : ¬Handled m.history id)
    (occurrence : Occurrence) (handles : occurrence.handles = some id) (expires : JsNumber)
    (success : ∀ time ttl, occurrence = .succeeded id time ttl → expires = r.add time ttl)
    (failure : ∀ error time, occurrence = .failed id error time →
      cacheable error = true ∧ expires = r.add time options.negativeTtlMs)
    (history : next.history = occurrence :: m.history)
    (entries : ∀ other entry, next.cache.get? other = some entry →
      ∃ before, m.cache.get? other = some before ∧ entry.id = before.id ∧
        entry.pending = before.pending ∧
        entry.expires = if other = key ∧ before.id = id then expires else before.expires) :
    AllKept r options next := by
  have about : occurrence.advances = some id := by
    cases occurrence <;> simp_all [Occurrence.handles, Occurrence.advances]
  intro other entry stored
  rcases entries other entry stored with ⟨before, storedBefore, sameId, samePending, newExpires⟩
  have keptBefore := kept other before storedBefore
  by_cases isHandled : before.id = id
  · rw [if_pos ⟨recorded.key_of_id linked storedBefore isHandled, isHandled⟩] at newExpires
    rw [history]
    refine ⟨?_, ?_, ?_⟩
    · rw [samePending, sameId, keptBefore.pending, List.mem_cons, or_iff_right]
      rintro rfl
      exact absurd handles (by simp [Occurrence.handles])
    · rw [sameId, isHandled]
      intro time ttl member
      rcases List.mem_cons.mp member with isLatest | earlier
      · rw [newExpires]
        exact success time ttl isLatest.symm
      · exact absurd (Or.inl ⟨time, ttl, earlier⟩) unhandled
    · rw [sameId, isHandled]
      intro error time member
      rcases List.mem_cons.mp member with isLatest | earlier
      · rw [newExpires]
        exact failure error time isLatest.symm
      · exact absurd (Or.inr ⟨error, time, earlier⟩) unhandled
  · rw [if_neg fun both => isHandled both.2] at newExpires
    have sameEntry : Kept r options m.history entry := by
      refine ⟨?_, ?_, ?_⟩
      · rw [samePending, sameId]
        exact keptBefore.pending
      · rw [sameId, newExpires]
        exact keptBefore.success
      · rw [sameId, newExpires]
        exact keptBefore.failure
    apply sameEntry.of_untouched
    rw [history]
    apply untouched_cons
    rw [about, sameId]
    simpa using Ne.symm isHandled

/-- The end of a reaction whose entry is not kept. -/
theorem AllKept.drop (kept : AllKept r options m) (recorded : Recorded r options m)
    (linked : .linked key id ∈ m.history) {occurrence : Occurrence}
    (about : occurrence.advances = some id) (reason : Removal) :
    AllKept r options ((m.note occurrence).unlink r key id reason) := by
  apply kept.of_entries
  · intro other entry stored
    rw [Memo.get?_unlink, Option.filter_eq_some_iff] at stored
    exact ⟨entry, stored.1, rfl, rfl, rfl⟩
  · intro other entry stored
    rw [Memo.get?_unlink, Option.filter_eq_some_iff, decide_eq_true_eq] at stored
    have different : entry.id ≠ id := fun sameId =>
      stored.2 ⟨recorded.key_of_id linked stored.1 sameId, sameId⟩
    apply (untouched_cons _).trans (untouched_unlink reason entry.id)
    rw [about]
    simpa using Ne.symm different

theorem suffix_unlink (reason : Removal) : m.history <:+ (m.unlink r key id reason).history := by
  rcases m.history_unlink r reason with same | removed
  · exact same ▸ List.suffix_rfl
  · exact removed ▸ List.suffix_cons _ _

theorem evict_history (result : m.evict r options = some next) :
    m.history <:+ next.history ∧ ∀ found, Untouched m.history next.history found := by
  refine (Memo.evict_rule r options (fun current =>
    m.history <:+ current.history ∧ ∀ found, Untouched m.history current.history found) ?_
      ⟨List.suffix_rfl, fun _ => Untouched.refl _ _⟩ result).1
  rintro current oldest rest ⟨grown, untouched⟩ _ _
  exact ⟨grown.trans (suffix_unlink .evicted),
    fun found => (untouched found).trans (untouched_unlink .evicted found)⟩

theorem evict_ids (result : m.evict r options = some next) (other : String)
    (present : next.ids other ≠ none) : m.ids other ≠ none := by
  have kept := (Memo.evict_rule r options (fun current =>
    ∀ other, current.ids other ≠ none → m.ids other ≠ none) ?_ (fun _ present => present) result).1
  · exact kept other present
  · intro current oldest rest before _ _ other present
    apply before other
    intro absent
    rw [ids_unlink, absent] at present
    exact present rfl

theorem suffix_noteReplaced (m : Memo) (key : String) : m.history <:+ m.noteReplaced key := by
  rw [Memo.noteReplaced]
  split
  next => exact List.suffix_cons _ _
  next => exact List.suffix_rfl

end

end BelugaManager.DomainApi
