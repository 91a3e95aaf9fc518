import BelugaManager.Foundation.OrderedMap
import Mathlib.Data.List.Duplicate

/-!
# The first items of each key

A loop that skips an item whose key it has seen before keeps the first item of each key, in the
order of the input.  The keys it has seen and those it has met again are sets that remember the
order in which they grew.
-/

namespace Foundation

variable {ι κ : Type*} [DecidableEq κ]

/-- Distinct keys in the order in which they were added. -/
abbrev OrderedSet (κ : Type*) := OrderedMap κ Unit

namespace OrderedSet

def has (set : OrderedSet κ) (key : κ) : Bool := (set.get? key).isSome

def add (set : OrderedSet κ) (key : κ) : OrderedSet κ := set.set key ()

@[simp] theorem has_empty (key : κ) : has (.empty : OrderedSet κ) key = false := rfl

theorem has_iff (set : OrderedSet κ) (key : κ) : has set key = true ↔ key ∈ set.keys := by
  rw [has, OrderedMap.mem_keys_iff, Option.isSome_iff_exists]

theorem has_add (set : OrderedSet κ) (key other : κ) :
    has (add set key) other = true ↔ other = key ∨ has set other = true := by
  by_cases same : other = key
  · subst same
    simp [has, add]
  · simp [has, add, same]

theorem mem_keys_add (set : OrderedSet κ) (key other : κ) :
    other ∈ (add set key).keys ↔ other = key ∨ other ∈ set.keys := by
  rw [← has_iff, has_add, has_iff]

end OrderedSet

/-- The items that come first with their key and whose key is not excluded. -/
def firstsFrom (key : ι → κ) (excluded : List κ) : List ι → List ι
  | [] => []
  | item :: items =>
      if key item ∈ excluded then firstsFrom key excluded items
      else item :: firstsFrom key (key item :: excluded) items

/-- The items that come first with their key. -/
def firsts (key : ι → κ) (items : List ι) : List ι := firstsFrom key [] items

theorem firstsFrom_congr (key : ι → κ) {excluded excluded' : List κ}
    (same : ∀ k, k ∈ excluded ↔ k ∈ excluded') (items : List ι) :
    firstsFrom key excluded items = firstsFrom key excluded' items := by
  induction items generalizing excluded excluded' with
  | nil => rfl
  | cons item items ih =>
      have longer : ∀ k, k ∈ key item :: excluded ↔ k ∈ key item :: excluded' := by
        intro k
        rw [List.mem_cons, List.mem_cons, same]
      simp only [firstsFrom, same (key item), ih same, ih longer]

theorem firstsFrom_sublist (key : ι → κ) (excluded : List κ) (items : List ι) :
    (firstsFrom key excluded items).Sublist items := by
  induction items generalizing excluded with
  | nil => exact List.Sublist.slnil
  | cons item items ih =>
      unfold firstsFrom
      split
      · exact (ih excluded).cons item
      · exact (ih _).cons_cons item

theorem mem_firstsFrom (key : ι → κ) {excluded : List κ} {items : List ι} {item : ι} :
    item ∈ firstsFrom key excluded items ↔
      key item ∉ excluded ∧ items.find? (key · = key item) = some item := by
  induction items generalizing excluded with
  | nil => simp [firstsFrom]
  | cons first items ih =>
      by_cases sameKey : key first = key item
      · rw [List.find?_cons_of_pos (by simpa using sameKey), Option.some_inj]
        by_cases inside : key first ∈ excluded
        · rw [firstsFrom, if_pos inside, ih]
          constructor
          · intro found
            exact absurd (sameKey ▸ inside) found.1
          · intro found
            exact absurd (sameKey ▸ inside) found.1
        · rw [firstsFrom, if_neg inside, List.mem_cons, ih]
          constructor
          · intro found
            rcases found with rfl | found
            · exact ⟨inside, rfl⟩
            · exact absurd (List.mem_cons.mpr (Or.inl sameKey.symm)) found.1
          · intro found
            exact Or.inl found.2.symm
      · rw [List.find?_cons_of_neg (by simpa using sameKey)]
        have different : item ≠ first := fun same => sameKey (congrArg key same.symm)
        by_cases inside : key first ∈ excluded
        · rw [firstsFrom, if_pos inside, ih]
        · rw [firstsFrom, if_neg inside, List.mem_cons, ih, List.mem_cons, not_or]
          constructor
          · intro found
            rcases found with same | found
            · exact absurd same different
            · exact ⟨found.1.2, found.2⟩
          · intro found
            exact Or.inr ⟨⟨Ne.symm sameKey, found.1⟩, found.2⟩

theorem firsts_sublist (key : ι → κ) (items : List ι) : (firsts key items).Sublist items :=
  firstsFrom_sublist key [] items

theorem mem_firsts (key : ι → κ) {items : List ι} {item : ι} :
    item ∈ firsts key items ↔ items.find? (key · = key item) = some item := by
  rw [firsts, mem_firstsFrom]
  exact and_iff_right List.not_mem_nil

theorem nodup_keys_firstsFrom (key : ι → κ) (excluded : List κ) (items : List ι) :
    ((firstsFrom key excluded items).map key).Nodup := by
  induction items generalizing excluded with
  | nil => exact List.nodup_nil
  | cons item items ih =>
      unfold firstsFrom
      split
      · exact ih excluded
      · rw [List.map_cons, List.nodup_cons]
        refine ⟨?_, ih _⟩
        intro member
        rcases List.mem_map.mp member with ⟨other, inFirsts, sameKey⟩
        exact ((mem_firstsFrom key).mp inFirsts).1 (List.mem_cons.mpr (Or.inl sameKey))

theorem nodup_keys_firsts (key : ι → κ) (items : List ι) : ((firsts key items).map key).Nodup :=
  nodup_keys_firstsFrom key [] items

/-- Every key of the input has a first item. -/
theorem exists_first (key : ι → κ) {items : List ι} {k : κ} (known : k ∈ items.map key) :
    ∃ item, items.find? (key · = k) = some item ∧ key item = k ∧ item ∈ firsts key items := by
  rcases List.mem_map.mp known with ⟨other, member, isKey⟩
  have found : (items.find? (key · = k)).isSome := by
    rw [List.find?_isSome]
    exact ⟨other, member, by simpa using isKey⟩
  rcases Option.isSome_iff_exists.mp found with ⟨item, isFirst⟩
  have sameKey : key item = k := by simpa using List.find?_some isFirst
  exact ⟨item, isFirst, sameKey, (mem_firsts key).mpr (sameKey ▸ isFirst)⟩

theorem mem_keys_firsts (key : ι → κ) {items : List ι} {k : κ} :
    k ∈ (firsts key items).map key ↔ k ∈ items.map key := by
  constructor
  · exact fun member => ((firsts_sublist key items).map key).subset member
  · intro known
    rcases exists_first key known with ⟨item, _, rfl, inFirsts⟩
    exact List.mem_map_of_mem inFirsts

theorem firstsFrom_map {γ : Type*} (key : ι → κ) (image : γ → ι) (excluded : List κ)
    (items : List γ) :
    firstsFrom key excluded (items.map image) =
      (firstsFrom (key ∘ image) excluded items).map image := by
  induction items generalizing excluded with
  | nil => rfl
  | cons item items ih =>
      rw [List.map_cons, firstsFrom, firstsFrom, Function.comp_apply, ih, ih]
      split
      · rfl
      · rfl

theorem firsts_map {γ : Type*} (key : ι → κ) (image : γ → ι) (items : List γ) :
    firsts key (items.map image) = (firsts (key ∘ image) items).map image :=
  firstsFrom_map key image [] items

/-- Items with different keys are all first. -/
theorem firstsFrom_of_nodup (key : ι → κ) {excluded : List κ} {items : List ι}
    (distinct : (items.map key).Nodup) (outside : ∀ k ∈ items.map key, k ∉ excluded) :
    firstsFrom key excluded items = items := by
  induction items generalizing excluded with
  | nil => rfl
  | cons item items ih =>
      rw [List.map_cons, List.nodup_cons] at distinct
      rw [List.map_cons, List.forall_mem_cons] at outside
      rw [firstsFrom, if_neg outside.1, ih distinct.2]
      intro k member inside
      rcases List.mem_cons.mp inside with rfl | excludedKey
      · exact distinct.1 member
      · exact outside.2 k member excludedKey

/-- Nothing is skipped exactly if no key comes twice. -/
theorem firsts_eq_self_iff (key : ι → κ) {items : List ι} :
    firsts key items = items ↔ (items.map key).Nodup := by
  constructor
  · intro same
    rw [← same]
    exact nodup_keys_firsts key items
  · exact fun distinct => firstsFrom_of_nodup key distinct fun _ _ => List.not_mem_nil

/-! ## The loop over the items -/

/-- The first items of a longer list. -/
theorem firstsFrom_append (key : ι → κ) (excluded : List κ) (items others : List ι) :
    firstsFrom key excluded (items ++ others) =
      firstsFrom key excluded items ++ firstsFrom key (items.map key ++ excluded) others := by
  induction items generalizing excluded with
  | nil => rfl
  | cons item items ih =>
      by_cases inside : key item ∈ excluded
      · rw [List.cons_append, firstsFrom, if_pos inside, firstsFrom, if_pos inside, ih]
        congr 1
        apply firstsFrom_congr
        intro k
        simp only [List.mem_append, List.map_cons, List.mem_cons]
        constructor
        · exact fun member => member.imp Or.inr id
        · intro member
          rcases member with (rfl | before) | already
          · exact Or.inr inside
          · exact Or.inl before
          · exact Or.inr already
      · rw [List.cons_append, firstsFrom, if_neg inside, firstsFrom, if_neg inside, ih,
          List.cons_append]
        congr 2
        apply firstsFrom_congr
        intro k
        simp only [List.mem_append, List.map_cons, List.mem_cons]
        constructor
        · intro member
          rcases member with before | isKey | already
          · exact Or.inl (Or.inr before)
          · exact Or.inl (Or.inl isKey)
          · exact Or.inr already
        · intro member
          rcases member with (isKey | before) | already
          · exact Or.inr (Or.inl isKey)
          · exact Or.inl before
          · exact Or.inr (Or.inr already)

/-- One more item is first if no item before it has its key. -/
theorem firsts_concat (key : ι → κ) (items : List ι) (item : ι) :
    firsts key (items ++ [item]) =
      if key item ∈ items.map key then firsts key items else firsts key items ++ [item] := by
  rw [firsts, firstsFrom_append, List.append_nil, firstsFrom]
  split
  · rw [firstsFrom, List.append_nil]
    rfl
  · rfl

/-- A key comes twice in a longer list if it did before or if it is the last one's and known. -/
theorem duplicate_concat {keys : List κ} {k last : κ} :
    List.Duplicate k (keys ++ [last]) ↔ List.Duplicate k keys ∨ k = last ∧ k ∈ keys := by
  rw [List.duplicate_iff_two_le_count, List.duplicate_iff_two_le_count, List.count_append,
    List.count_singleton', ← List.one_le_count_iff]
  by_cases isLast : last = k
  · rw [if_pos isLast]
    constructor
    · exact fun _ => Or.inr ⟨isLast.symm, by omega⟩
    · intro earlier
      rcases earlier with twice | ⟨_, once⟩ <;> omega
  · rw [if_neg isLast, Nat.add_zero]
    constructor
    · exact Or.inl
    · exact fun earlier => earlier.resolve_right fun both => isLast both.1.symm

/-- What a loop over some keys has seen and what it has met again. -/
structure Sifted (keys : List κ) (seen dup : OrderedSet κ) : Prop where
  seen : ∀ k, OrderedSet.has seen k = true ↔ k ∈ keys
  dup : ∀ k, k ∈ dup.keys ↔ List.Duplicate k keys

theorem sifted_nil : Sifted ([] : List κ) .empty .empty where
  seen k := by simp
  dup k := by simp [OrderedMap.keys]

namespace Sifted

variable {keys : List κ} {seen dup : OrderedSet κ} (sifted : Sifted keys seen dup) {key : κ}
include sifted

theorem again (known : OrderedSet.has seen key = true) :
    Sifted (keys ++ [key]) seen (OrderedSet.add dup key) := by
  have inKeys := (sifted.seen key).mp known
  constructor
  · intro k
    rw [sifted.seen, List.mem_append, List.mem_singleton]
    exact ⟨Or.inl, fun either => either.elim (fun member => member) fun same => same ▸ inKeys⟩
  · intro k
    rw [OrderedSet.mem_keys_add, sifted.dup, duplicate_concat, or_comm]
    exact or_congr_right ⟨fun same => ⟨same, same ▸ inKeys⟩, And.left⟩

theorem fresh (unknown : ¬ OrderedSet.has seen key = true) :
    Sifted (keys ++ [key]) (OrderedSet.add seen key) dup := by
  constructor
  · intro k
    rw [OrderedSet.has_add, sifted.seen, List.mem_append, List.mem_singleton, or_comm]
  · intro k
    rw [sifted.dup, duplicate_concat]
    refine ⟨Or.inl, fun either => either.resolve_right fun both => unknown ?_⟩
    exact (sifted.seen key).mpr (both.1 ▸ both.2)

/-- Nothing was met again exactly if all keys are distinct. -/
theorem dup_eq_nil_iff : dup.keys = [] ↔ keys.Nodup := by
  rw [List.nodup_iff_forall_not_duplicate, List.eq_nil_iff_forall_not_mem]
  exact forall_congr' fun k => not_congr (sifted.dup k)

end Sifted

end Foundation
