import Mathlib.Data.List.Nodup
import Mathlib.Data.List.Count

/-!
# Maps that remember insertion order

A map is a list of key-value pairs whose keys are distinct.  Setting a key that
is present keeps its place in the order; setting a new key puts it at the end.
-/

namespace Foundation

/-- Dropping repeated occurrences leaves each item once. -/
theorem nodup_eraseDups {ι : Type*} [DecidableEq ι] : (items : List ι) → items.eraseDups.Nodup
  | [] => List.nodup_nil
  | first :: rest => by
      rw [List.eraseDups_cons, List.nodup_cons]
      refine ⟨?_, nodup_eraseDups (rest.filter fun other => !other == first)⟩
      simp [List.mem_eraseDups]
  termination_by items => items.length
  decreasing_by
    rw [List.length_cons]
    exact Nat.lt_succ_of_le (List.length_filter_le _ rest)

/-- The items of a set in the order in which they were added. -/
def distinctItems {ι : Type*} [DecidableEq ι] (items : List ι) : List ι := items.eraseDups

theorem nodup_distinctItems {ι : Type*} [DecidableEq ι] (items : List ι) :
    (distinctItems items).Nodup :=
  nodup_eraseDups items

/-- Lists without repetitions hold the same items if one holds the other's and they are
equally long. -/
theorem same_members_iff {ι : Type*} {left right : List ι} (leftNodup : left.Nodup)
    (rightNodup : right.Nodup) :
    left.length = right.length ∧ (∀ item ∈ left, item ∈ right) ↔
      ∀ item, item ∈ left ↔ item ∈ right := by
  constructor
  · rintro ⟨equallyLong, included⟩
    have perm : left.Perm right :=
      (List.subperm_of_subset leftNodup included).perm_of_length_le (Nat.le_of_eq equallyLong.symm)
    exact fun item => perm.mem_iff
  · intro same
    have perm := (List.perm_ext_iff_of_nodup leftNodup rightNodup).mpr same
    exact ⟨perm.length_eq, fun item => (same item).mp⟩

/-- Key-value pairs in insertion order, with distinct keys. -/
structure OrderedMap (κ β : Type*) where
  entries : List (κ × β)
  keys_nodup : (entries.map Prod.fst).Nodup

namespace OrderedMap

variable {κ β ι : Type*}

@[ext] theorem ext {left right : OrderedMap κ β} (equal : left.entries = right.entries) :
    left = right := by
  cases left
  cases right
  cases equal
  rfl

/-- The keys in insertion order. -/
def keys (map : OrderedMap κ β) : List κ := map.entries.map Prod.fst

theorem forall_mem_keys {map : OrderedMap κ β} {holds : κ → Prop} :
    (∀ key ∈ map.keys, holds key) ↔ ∀ entry ∈ map.entries, holds entry.1 :=
  List.forall_mem_map

/-- The map without entries. -/
def empty : OrderedMap κ β := ⟨[], List.nodup_nil⟩

/-- The map with one entry. -/
def single (key : κ) (value : β) : OrderedMap κ β := ⟨[(key, value)], List.nodup_singleton key⟩

@[simp] theorem entries_empty : (empty : OrderedMap κ β).entries = [] := rfl

variable [DecidableEq κ]

/-- The value stored under a key. -/
def get? (map : OrderedMap κ β) (key : κ) : Option β :=
  (map.entries.find? (·.1 = key)).map Prod.snd

@[simp] theorem get?_empty (key : κ) : (empty : OrderedMap κ β).get? key = none := rfl

/-- Looking a key up finds the pair it occurs in. -/
theorem get?_eq_some_iff (map : OrderedMap κ β) (key : κ) (value : β) :
    map.get? key = some value ↔ (key, value) ∈ map.entries := by
  simp only [get?, Option.map_eq_some_iff]
  constructor
  · rintro ⟨⟨found, _⟩, lookup, rfl⟩
    have isKey : found = key := by simpa using List.find?_some lookup
    exact isKey ▸ List.mem_of_find?_eq_some lookup
  · intro member
    cases lookup : map.entries.find? (·.1 = key) with
    | none => simpa using List.find?_eq_none.mp lookup _ member
    | some entry =>
        have isKey : entry.1 = key := by simpa using List.find?_some lookup
        have same := List.inj_on_of_nodup_map map.keys_nodup
          (List.mem_of_find?_eq_some lookup) member isKey
        exact ⟨entry, rfl, by rw [same]⟩

theorem get?_eq_none_iff (map : OrderedMap κ β) (key : κ) :
    map.get? key = none ↔ key ∉ map.keys := by
  simp only [get?, keys, Option.map_eq_none_iff, List.find?_eq_none, List.mem_map,
    decide_eq_true_eq, not_exists, not_and]

theorem mem_keys_iff (map : OrderedMap κ β) (key : κ) :
    key ∈ map.keys ↔ ∃ value, map.get? key = some value := by
  rw [← Option.isSome_iff_exists, Option.isSome_iff_ne_none, Ne, get?_eq_none_iff, not_not]

/-- Entries that only one key can meet are met once at most. -/
theorem countP_entries {map : OrderedMap κ β} {meets : κ × β → Bool} {key : κ}
    (only : ∀ entry ∈ map.entries, meets entry = true → entry.1 = key) :
    map.entries.countP meets =
      ((map.get? key).map fun value => if meets (key, value) then 1 else 0).getD 0 := by
  have nodup : map.entries.Nodup := map.keys_nodup.of_map
  cases stored : map.get? key with
  | none =>
      have absent := (get?_eq_none_iff map key).mp stored
      exact List.countP_eq_zero.mpr fun entry member met =>
        absent (only entry member met ▸ List.mem_map_of_mem member)
  | some value =>
      have member := (get?_eq_some_iff map key value).mp stored
      have alone : ∀ entry ∈ map.entries, meets entry = true → entry = (key, value) :=
        fun entry inMap met => List.inj_on_of_nodup_map map.keys_nodup inMap member
          (only entry inMap met)
      by_cases met : meets (key, value) = true
      · rw [Option.map_some, Option.getD_some, if_pos met, List.countP_eq_length_filter]
        have single : map.entries.filter meets = [(key, value)] := by
          apply List.perm_singleton.mp
          apply (List.perm_ext_iff_of_nodup (nodup.filter meets) (List.nodup_singleton _)).mpr
          intro entry
          rw [List.mem_filter, List.mem_singleton]
          constructor
          · exact fun found => alone entry found.1 found.2
          · intro isEntry
            exact isEntry ▸ ⟨member, met⟩
        rw [single, List.length_singleton]
      · rw [Option.map_some, Option.getD_some, if_neg met]
        exact List.countP_eq_zero.mpr fun entry inMap entryMet =>
          met (alone entry inMap entryMet ▸ entryMet)
/-- Remove a key together with its value. -/
def delete (map : OrderedMap κ β) (key : κ) : OrderedMap κ β where
  entries := map.entries.filter (·.1 ≠ key)
  keys_nodup := map.keys_nodup.sublist (List.filter_sublist.map Prod.fst)

@[simp] theorem get?_delete_self (map : OrderedMap κ β) (key : κ) :
    (map.delete key).get? key = none := by
  simp [get?_eq_none_iff, keys, delete]

@[simp] theorem get?_delete_of_ne (map : OrderedMap κ β) {key other : κ}
    (different : other ≠ key) : (map.delete key).get? other = map.get? other := by
  apply Option.ext
  intro value
  simp [get?_eq_some_iff, delete, different]

/-- Deleting the first key leaves the other pairs in their order. -/
theorem entries_delete_of_cons {map : OrderedMap κ β} {first : κ × β} {rest : List (κ × β)}
    (cons : map.entries = first :: rest) : (map.delete first.1).entries = rest := by
  have distinct := map.keys_nodup
  rw [cons, List.map_cons, List.nodup_cons] at distinct
  have others : rest.filter (·.1 ≠ first.1) = rest := by
    rw [List.filter_eq_self]
    intro entry member
    rw [decide_eq_true_eq]
    exact fun sameKey => distinct.1 (sameKey ▸ List.mem_map_of_mem member)
  change map.entries.filter (·.1 ≠ first.1) = rest
  rw [cons, List.filter_cons_of_neg (by simp), others]

/-! ## Setting a key -/

/-- The pairs after a key is set: in place if the key is present, else at the end. -/
def setEntries (entries : List (κ × β)) (key : κ) (value : β) : List (κ × β) :=
  if key ∈ entries.map Prod.fst then
    entries.map fun entry => if entry.1 = key then (key, value) else entry
  else entries ++ [(key, value)]

theorem keys_setEntries (entries : List (κ × β)) (key : κ) (value : β) :
    (setEntries entries key value).map Prod.fst =
      if key ∈ entries.map Prod.fst then entries.map Prod.fst
      else entries.map Prod.fst ++ [key] := by
  unfold setEntries
  split
  next =>
    rw [List.map_map]
    apply List.map_congr_left
    intro entry _
    by_cases isKey : entry.1 = key <;> simp [isKey]
  next => simp

/-- Store a value under a key. -/
def set (map : OrderedMap κ β) (key : κ) (value : β) : OrderedMap κ β where
  entries := setEntries map.entries key value
  keys_nodup := by
    rw [keys_setEntries]
    split
    next => exact map.keys_nodup
    next absent =>
      refine List.nodup_append.mpr ⟨map.keys_nodup, List.nodup_singleton key, ?_⟩
      intro other member last isLast equal
      rw [List.mem_singleton.mp isLast] at equal
      exact absent (equal ▸ member)

theorem entries_set_of_absent (map : OrderedMap κ β) {key : κ} (value : β)
    (absent : map.get? key = none) :
    (map.set key value).entries = map.entries ++ [(key, value)] := by
  rw [get?_eq_none_iff, keys] at absent
  simp only [set, setEntries, if_neg absent]

theorem mem_entries_set (map : OrderedMap κ β) (key : κ) (value : β) (entry : κ × β) :
    entry ∈ (map.set key value).entries ↔
      entry = (key, value) ∨ entry ∈ map.entries ∧ entry.1 ≠ key := by
  simp only [set, setEntries]
  split
  next present =>
    obtain ⟨old, oldMember, isKey⟩ := List.mem_map.mp present
    rw [List.mem_map]
    constructor
    · rintro ⟨other, member, rfl⟩
      by_cases equal : other.1 = key <;> simp [equal, member]
    · rintro (rfl | ⟨member, different⟩)
      · exact ⟨old, oldMember, if_pos isKey⟩
      · exact ⟨entry, member, if_neg different⟩
  next absent =>
    rw [List.mem_append, List.mem_singleton, or_comm]
    refine or_congr_right ⟨fun member => ⟨member, ?_⟩, And.left⟩
    exact fun isKey => absent (isKey ▸ List.mem_map_of_mem member)

@[simp] theorem get?_set_self (map : OrderedMap κ β) (key : κ) (value : β) :
    (map.set key value).get? key = some value := by
  rw [get?_eq_some_iff, mem_entries_set]
  exact Or.inl rfl

@[simp] theorem get?_set_of_ne (map : OrderedMap κ β) {key other : κ} (value : β)
    (different : other ≠ key) : (map.set key value).get? other = map.get? other := by
  apply Option.ext
  intro stored
  simp [get?_eq_some_iff, mem_entries_set, different]

/-- Deleting a key removes its pair alone. -/
theorem entries_perm_delete {map : OrderedMap κ β} {key : κ} {value : β}
    (stored : map.get? key = some value) :
    map.entries.Perm ((key, value) :: (map.delete key).entries) := by
  have nodup : map.entries.Nodup := map.keys_nodup.of_map
  have nodupAfter : ((key, value) :: (map.delete key).entries).Nodup := by
    refine List.nodup_cons.mpr ⟨?_, (map.delete key).keys_nodup.of_map⟩
    simp [delete]
  apply (List.perm_ext_iff_of_nodup nodup nodupAfter).mpr
  intro entry
  simp only [List.mem_cons, delete, List.mem_filter, decide_eq_true_eq]
  constructor
  · intro member
    by_cases isKey : entry.1 = key
    · have other : map.get? key = some entry.2 :=
        (get?_eq_some_iff _ _ _).mpr (isKey ▸ member)
      have sameValue : entry.2 = value := Option.some.inj (other.symm.trans stored)
      exact Or.inl (Prod.ext isKey sameValue)
    · exact Or.inr ⟨member, isKey⟩
  · rintro (rfl | ⟨member, _⟩)
    · exact (get?_eq_some_iff _ _ _).mp stored
    · exact member

/-- Setting a key leaves the other pairs. -/
theorem entries_perm_set (map : OrderedMap κ β) (key : κ) (value : β) :
    (map.set key value).entries.Perm ((key, value) :: (map.delete key).entries) := by
  have nodupAfter : ((key, value) :: (map.delete key).entries).Nodup := by
    refine List.nodup_cons.mpr ⟨?_, (map.delete key).keys_nodup.of_map⟩
    simp [delete]
  apply (List.perm_ext_iff_of_nodup (map.set key value).keys_nodup.of_map nodupAfter).mpr
  intro entry
  simp [mem_entries_set, delete]

/-! ## Building a map in one pass -/

/-- Fold a list into a map, updating the value under each item's key. -/
def accumulate (key : ι → κ) (update : Option β → ι → β) (items : List ι) :
    OrderedMap κ β :=
  items.foldl (fun map item => map.set (key item) (update (map.get? (key item)) item)) empty

theorem get?_foldl_set (key : ι → κ) (update : Option β → ι → β) (items : List ι)
    (map : OrderedMap κ β) (wanted : κ) :
    (items.foldl (fun map item => map.set (key item) (update (map.get? (key item)) item))
        map).get? wanted =
      (items.filter (key · = wanted)).foldl (fun stored item => some (update stored item))
        (map.get? wanted) := by
  induction items generalizing map with
  | nil => rfl
  | cons item rest ih =>
      rw [List.foldl_cons, ih]
      by_cases isWanted : key item = wanted
      · subst isWanted
        simp
      · simp [isWanted, Ne.symm isWanted]

/-- Under each key the map holds the fold of the items with that key. -/
theorem get?_accumulate (key : ι → κ) (update : Option β → ι → β) (items : List ι)
    (wanted : κ) :
    (accumulate key update items).get? wanted =
      (items.filter (key · = wanted)).foldl (fun stored item => some (update stored item))
        none :=
  get?_foldl_set key update items empty wanted

/-- The items of a list grouped by key. -/
def group (key : ι → κ) (items : List ι) : OrderedMap κ (List ι) :=
  accumulate key (fun stored item => stored.getD [] ++ [item]) items

theorem get?_group (key : ι → κ) (items : List ι) (wanted : κ) :
    ((group key items).get? wanted).getD [] = items.filter (key · = wanted) := by
  have step : ∀ (items : List ι) (stored : Option (List ι)),
      (items.foldl (fun stored item => some (stored.getD [] ++ [item])) stored).getD [] =
        stored.getD [] ++ items := by
    intro items
    induction items with
    | nil => simp
    | cons item rest ih => simp [ih]
  rw [group, get?_accumulate, step]
  rfl

/-- When no group has two items, the keys of the items are distinct. -/
theorem nodup_of_group_le_one (key : ι → κ) (items : List ι)
    (single : ∀ entry ∈ (group key items).entries, entry.2.length ≤ 1) :
    (items.map key).Nodup := by
  rw [List.nodup_iff_count_le_one]
  intro wanted
  rw [List.count_eq_length_filter, List.filter_map, List.length_map]
  have stored := get?_group key items wanted
  cases lookup : (group key items).get? wanted with
  | none =>
      rw [lookup, Option.getD_none] at stored
      simp [Function.comp_def, Bool.beq_eq_decide_eq, ← stored]
  | some members =>
      rw [lookup, Option.getD_some] at stored
      have few := single (wanted, members) ((get?_eq_some_iff _ _ _).mp lookup)
      simpa [Function.comp_def, Bool.beq_eq_decide_eq, ← stored] using few

theorem group_le_one_of_nodup (key : ι → κ) (items : List ι) (distinct : (items.map key).Nodup) :
    ∀ entry ∈ (group key items).entries, entry.2.length ≤ 1 := by
  rintro ⟨wanted, members⟩ member
  have stored := get?_group key items wanted
  rw [(get?_eq_some_iff _ _ _).mpr member, Option.getD_some] at stored
  have few := List.nodup_iff_count_le_one.mp distinct wanted
  rw [List.count_eq_length_filter, List.filter_map, List.length_map] at few
  simpa [Function.comp_def, Bool.beq_eq_decide_eq, ← stored] using few

theorem mem_keys_accumulate (key : ι → κ) (update : Option β → ι → β) (items : List ι)
    (wanted : κ) :
    wanted ∈ (accumulate key update items).keys ↔ ∃ item ∈ items, key item = wanted := by
  have stored : ∀ (items : List ι) (value : β), ∃ last,
      items.foldl (fun stored item => some (update stored item)) (some value) = some last := by
    intro items
    induction items with
    | nil => exact fun value => ⟨value, rfl⟩
    | cons item rest ih => exact fun value => ih (update (some value) item)
  rw [mem_keys_iff, get?_accumulate]
  cases selected : items.filter (key · = wanted) with
  | nil =>
      rw [List.filter_eq_nil_iff] at selected
      simpa using selected
  | cons item rest =>
      have member : item ∈ items.filter (key · = wanted) := by
        rw [selected]
        exact List.mem_cons_self
      rw [List.mem_filter, decide_eq_true_eq] at member
      exact iff_of_true (stored rest _) ⟨item, member⟩

/-- The values of all items with the same key, collected in one set per key. -/
def collect [DecidableEq β] (key : ι → κ) (values : ι → List β) (items : List ι) :
    OrderedMap κ (List β) :=
  accumulate key (fun stored item => (stored.getD [] ++ values item).eraseDups) items

theorem mem_keys_collect [DecidableEq β] (key : ι → κ) (values : ι → List β) (items : List ι)
    (wanted : κ) : wanted ∈ (collect key values items).keys ↔ ∃ item ∈ items, key item = wanted :=
  mem_keys_accumulate key _ items wanted

theorem mem_collect [DecidableEq β] (key : ι → κ) (values : ι → List β) (items : List ι)
    (wanted : κ) (value : β) :
    value ∈ ((collect key values items).get? wanted).getD [] ↔
      ∃ item ∈ items, key item = wanted ∧ value ∈ values item := by
  have step : ∀ (items : List ι) (stored : Option (List β)),
      value ∈ (items.foldl (fun stored item =>
          some (stored.getD [] ++ values item).eraseDups) stored).getD [] ↔
        value ∈ stored.getD [] ∨ ∃ item ∈ items, value ∈ values item := by
    intro items
    induction items with
    | nil => simp
    | cons item rest ih => simp [ih, or_assoc]
  rw [collect, get?_accumulate, step]
  simp [and_assoc]

theorem nodup_collect [DecidableEq β] (key : ι → κ) (values : ι → List β) (items : List ι)
    (wanted : κ) : (((collect key values items).get? wanted).getD []).Nodup := by
  have step : ∀ (items : List ι) (stored : Option (List β)), (stored.getD []).Nodup →
      ((items.foldl (fun stored item =>
        some (stored.getD [] ++ values item).eraseDups) stored).getD []).Nodup := by
    intro items
    induction items with
    | nil => exact fun _ distinct => distinct
    | cons item rest ih => exact fun stored _ => ih _ (nodup_eraseDups _)
  rw [collect, get?_accumulate]
  exact step _ none List.nodup_nil

/-- How often each key occurs in a list. -/
def tally (items : List κ) : OrderedMap κ Nat :=
  accumulate id (fun stored _ => stored.getD 0 + 1) items

theorem get?_tally (items : List κ) (wanted : κ) :
    ((tally items).get? wanted).getD 0 = items.count wanted := by
  have step : ∀ (items : List κ) (stored : Option Nat),
      (items.foldl (fun stored _ => some (stored.getD 0 + 1)) stored).getD 0 =
        stored.getD 0 + items.length := by
    intro items
    induction items with
    | nil => simp
    | cons item rest ih => simp [ih]; omega
  rw [tally, get?_accumulate, step, List.count_eq_length_filter]
  simp [Bool.beq_eq_decide_eq]

/-- A key occurs at most as often as there are items. -/
theorem get?_tally_le (items : List κ) (wanted : κ) :
    ((tally items).get? wanted).getD 0 ≤ items.length := by
  rw [get?_tally]
  exact List.count_le_length

theorem get?_tally_map_const (items : List ι) (key : κ) :
    ((tally (items.map fun _ => key)).get? key).getD 0 = items.length := by
  rw [get?_tally, List.map_const', List.count_replicate_self]

/-- A list whose tally exceeds one nowhere has no duplicates. -/
theorem nodup_of_tally_le_one (items : List κ)
    (single : ∀ entry ∈ (tally items).entries, entry.2 ≤ 1) : items.Nodup := by
  rw [List.nodup_iff_count_le_one]
  intro wanted
  rw [← get?_tally]
  cases lookup : (tally items).get? wanted with
  | none => simp
  | some count =>
      exact single (wanted, count) ((get?_eq_some_iff _ _ _).mp lookup)

theorem tally_le_one_of_nodup (items : List κ) (distinct : items.Nodup) :
    ∀ entry ∈ (tally items).entries, entry.2 ≤ 1 := by
  rintro ⟨wanted, count⟩ member
  have counted := get?_tally items wanted
  rw [(get?_eq_some_iff _ _ _).mpr member, Option.getD_some] at counted
  have few := List.nodup_iff_count_le_one.mp distinct wanted
  rw [← counted] at few
  exact few

end OrderedMap

/-- The members that every record has without owning them. -/
def OBJECT_PROTOTYPE : List String :=
  ["constructor", "__defineGetter__", "__defineSetter__", "hasOwnProperty", "__lookupGetter__",
    "__lookupSetter__", "isPrototypeOf", "propertyIsEnumerable", "toString", "valueOf",
    "__proto__", "toLocaleString"]

end Foundation
