import Mathlib.Data.List.Nodup
import Mathlib.Data.Set.Basic

/-!
# Reports on two keyed collections

What is wanted and what is there are relations between keys and sets.  A report sorts the
keys: what is missing, what is extra, what is different.  It is exact when every key is
reported once where it should be and nowhere else.
-/

namespace Foundation

/-- A number is one if something holds and zero otherwise. -/
def Once (number : ℕ) (holds : Prop) : Prop := (holds → number = 1) ∧ (¬holds → number = 0)

theorem Once.congr {number : ℕ} {holds other : Prop} (same : holds ↔ other) :
    Once number holds ↔ Once number other := by
  rw [Once, Once, same]

theorem once_of_not {number : ℕ} {holds : Prop} (fails : ¬holds) :
    Once number holds ↔ number = 0 := by
  simp [Once, fails]

theorem once_of {number : ℕ} {holds : Prop} (isTrue : holds) :
    Once number holds ↔ number = 1 := by
  simp [Once, isTrue]

/-- A key occurs in a collection. -/
def Occurs {ι α : Type*} (collection : ι → Set α → Prop) (key : ι) : Prop :=
  ∃ members, collection key members

/-- The numbers of reports on each key are exact. -/
structure Reconciled {ι α : Type*} (wanted there : ι → Set α → Prop)
    (missing extra different : ι → ℕ) : Prop where
  missing_once : ∀ key, Once (missing key) (Occurs wanted key ∧ ¬Occurs there key)
  extra_once : ∀ key, Once (extra key) (¬Occurs wanted key ∧ Occurs there key)
  different_once : ∀ key left right, wanted key left → there key right →
    Once (different key) (left ≠ right)
  different_oneSided : ∀ key, ¬(Occurs wanted key ∧ Occurs there key) → different key = 0

/-! ## Counting -/

section Counting

variable {α β : Type*}

/-- In a list without repetitions, what only one item meets is met once. -/
theorem once_countP {items : List α} (nodup : items.Nodup) {meets : α → Bool} {item : α}
    (only : ∀ other ∈ items, meets other = true ↔ other = item) :
    Once (items.countP meets) (item ∈ items) := by
  induction items with
  | nil => simp [Once]
  | cons first rest ih =>
      rw [List.nodup_cons] at nodup
      rw [List.forall_mem_cons] at only
      have others := ih nodup.2 only.2
      by_cases isFirst : first = item
      · have absent : item ∉ rest := isFirst ▸ nodup.1
        rw [List.countP_cons_of_pos (only.1.mpr isFirst), (once_of_not absent).mp others]
        simp [Once, isFirst]
      · have notMet : ¬meets first = true := fun met => isFirst (only.1.mp met)
        rw [List.countP_cons_of_neg notMet]
        have elsewhere : item ∈ first :: rest ↔ item ∈ rest := by
          simp [List.mem_cons, Ne.symm isFirst]
        exact (Once.congr elsewhere).mpr others

/-- One item counts when it does and none before or after it. -/
theorem countP_eq_one_iff {items : List α} {meets : α → Bool} :
    items.countP meets = 1 ↔ ∃ before item after, items = before ++ item :: after ∧
      meets item = true ∧ ∀ other ∈ before ++ after, meets other = false := by
  constructor
  · intro one
    rcases List.countP_pos_iff.mp (one ▸ Nat.one_pos) with ⟨item, member, met⟩
    rcases List.append_of_mem member with ⟨before, after, rfl⟩
    refine ⟨before, item, after, rfl, met, ?_⟩
    rw [List.countP_append, List.countP_cons_of_pos met] at one
    have none' : (before ++ after).countP meets = 0 := by
      rw [List.countP_append]
      omega
    intro other inOthers
    exact Bool.eq_false_iff.mpr (List.countP_eq_zero.mp none' other inOthers)
  · rintro ⟨before, item, after, rfl, met, others⟩
    have none' : (before ++ after).countP meets = 0 :=
      List.countP_eq_zero.mpr fun other inOthers => Bool.eq_false_iff.mp (others other inOthers)
    rw [List.countP_append] at none'
    rw [List.countP_append, List.countP_cons_of_pos met]
    omega

/-- If each item gives at most one result, results are counted by the items that give them. -/
theorem countP_flatMap_of_short {items : List α} {results : α → List β}
    (short : ∀ item, (results item).length ≤ 1) (meets : β → Bool) :
    (items.flatMap results).countP meets = items.countP fun item => (results item).any meets := by
  induction items with
  | nil => rfl
  | cons first rest ih =>
      have one : (results first).countP meets = if (results first).any meets then 1 else 0 := by
        have atMost := short first
        cases given : results first with
        | nil => rfl
        | cons result others =>
            rw [given, List.length_cons] at atMost
            obtain rfl : others = [] := List.length_eq_zero_iff.mp (by omega)
            simp [List.countP_singleton]
      rw [List.flatMap_cons, List.countP_append, ih, one, List.countP_cons, Nat.add_comm]

end Counting

end Foundation
