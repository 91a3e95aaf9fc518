import BelugaManager.Foundation.Text

/-!
# What a stable sort keeps

Items with the same key stay in the order in which they stood, and nothing else of the
order of the input survives.
-/

namespace Foundation.Text

/-- Sorting leaves items alone that the comparison does not tell apart. -/
theorem sortBy_eq_self {ι : Type*} {compare : ι → ι → Int} {items : List ι}
    (tied : ∀ a ∈ items, ∀ b ∈ items, compare a b ≤ 0) : sortBy compare items = items :=
  List.Pairwise.insertionSort_eq (List.pairwise_of_forall_mem_list tied)

/-- Sorting by a part of the items commutes with taking that part. -/
theorem map_sortBy {ι κ : Type*} (f : ι → κ) (compare : κ → κ → Int) (items : List ι) :
    (sortBy (fun a b => compare (f a) (f b)) items).map f = sortBy compare (items.map f) :=
  List.map_insertionSort _ _ f items fun _ _ _ _ => Iff.rfl

/-- Sorted sets with the same members are equal. -/
theorem sortBy_compareUnits_eq_of_mem_iff {left right : List String} (distinct : left.Nodup)
    (distinct' : right.Nodup) (same : ∀ s, s ∈ left ↔ s ∈ right) :
    sortBy compareUnits left = sortBy compareUnits right :=
  sortBy_compareUnits_eq_of_perm ((List.perm_ext_iff_of_nodup distinct distinct').mpr same)

theorem mem_iff_of_filter_eq {ι κ : Type*} [DecidableEq κ] {key : ι → κ} {left right : List ι}
    (same : ∀ item, left.filter (key · = key item) = right.filter (key · = key item)) (item : ι) :
    item ∈ left ↔ item ∈ right := by
  have here : item ∈ left.filter (key · = key item) ↔ item ∈ right.filter (key · = key item) := by
    rw [same]
  simpa using here

/-- A sorted list is determined by what it says under each key. -/
theorem eq_of_filter_eq {ι κ : Type*} [LinearOrder κ] {key : ι → κ} {left right : List ι}
    (sorted : left.Pairwise fun a b => key a ≤ key b)
    (sorted' : right.Pairwise fun a b => key a ≤ key b)
    (same : ∀ item, left.filter (key · = key item) = right.filter (key · = key item)) :
    left = right := by
  have members := mem_iff_of_filter_eq same
  induction left generalizing right with
  | nil =>
      cases right with
      | nil => rfl
      | cons other right => exact absurd ((members other).mpr List.mem_cons_self) List.not_mem_nil
  | cons item left ih =>
      cases right with
      | nil => exact absurd ((members item).mp List.mem_cons_self) List.not_mem_nil
      | cons other right =>
          rw [List.pairwise_cons] at sorted sorted'
          have lower : key item ≤ key other := by
            rcases List.mem_cons.mp ((members other).mpr List.mem_cons_self) with rfl | later
            · exact le_refl _
            · exact sorted.1 other later
          have upper : key other ≤ key item := by
            rcases List.mem_cons.mp ((members item).mp List.mem_cons_self) with rfl | later
            · exact le_refl _
            · exact sorted'.1 item later
          have sameKey := le_antisymm lower upper
          have heads := same item
          rw [List.filter_cons_of_pos (by simp), List.filter_cons_of_pos (by simp [sameKey]),
            List.cons.injEq] at heads
          rcases heads with ⟨rfl, _⟩
          have sameTails : ∀ third, left.filter (key · = key third) =
            right.filter (key · = key third) := by
            intro third
            have whole := same third
            by_cases isKey : key item = key third
            · rwa [List.filter_cons_of_pos (by simpa using isKey),
                List.filter_cons_of_pos (by simpa using isKey), List.cons.injEq,
                and_iff_right rfl] at whole
            · rwa [List.filter_cons_of_neg (by simpa using isKey),
                List.filter_cons_of_neg (by simpa using isKey)] at whole
          rw [ih sorted.2 sorted'.2 sameTails (mem_iff_of_filter_eq sameTails)]

namespace ComparesBy

variable {ι κ : Type*} [LinearOrder κ] {compare : ι → ι → Int} {key : ι → κ}

/-- Sorting keeps the items of one key in their order. -/
theorem filter_sortBy (compares : ComparesBy compare key) (k : κ) (items : List ι) :
    (sortBy compare items).filter (key · = k) = items.filter (key · = k) := by
  have total : Std.Total fun left right : ι => compare left right ≤ 0 := by
    constructor
    intro left right
    rw [compares, compares]
    exact le_total _ _
  have transitive : IsTrans ι fun left right => compare left right ≤ 0 := by
    constructor
    intro first second third
    rw [compares, compares, compares]
    exact le_trans
  have tied : (items.filter (key · = k)).Pairwise fun a b => compare a b ≤ 0 := by
    apply List.pairwise_of_forall_mem_list
    intro a inA b inB
    rw [List.mem_filter, decide_eq_true_eq] at inA inB
    rw [compares, inA.2, inB.2]
  have kept := (List.sublist_insertionSort tied List.filter_sublist).filter (key · = k)
  rw [List.filter_filter] at kept
  simp only [Bool.and_self] at kept
  exact (kept.eq_of_length ((sortBy_perm compare items).filter _).length_eq.symm).symm

/-- Sorted lists agree exactly when the lists agree under each key. -/
theorem sortBy_eq_iff (compares : ComparesBy compare key) (left right : List ι) :
    sortBy compare left = sortBy compare right ↔
      ∀ item, left.filter (key · = key item) = right.filter (key · = key item) := by
  constructor
  · intro same item
    rw [← compares.filter_sortBy, same, compares.filter_sortBy]
  · intro same
    apply eq_of_filter_eq (compares.pairwise_sortBy left) (compares.pairwise_sortBy right)
    intro item
    rw [compares.filter_sortBy, compares.filter_sortBy, same]

end ComparesBy

end Foundation.Text
