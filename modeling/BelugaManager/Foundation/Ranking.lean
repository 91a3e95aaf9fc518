import BelugaManager.Foundation.Text
import Mathlib.Algebra.Order.Group.Int

/-!
# Rankings by a three-way comparison

A comparison ranks some items if it is a total preorder on them.  Sorting ranked items
gives the same ranks from every order of the input.
-/

namespace Foundation

variable {ι κ : Type*}

/-- A comparison is a total preorder on the items inside. -/
structure Ranks (compare : ι → ι → ℤ) (inside : ι → Prop) : Prop where
  refl : ∀ a, inside a → compare a a = 0
  antisymm : ∀ a b, inside a → inside b → (compare a b).sign = -(compare b a).sign
  trans : ∀ a b c, inside a → inside b → inside c → compare a b ≤ 0 → compare b c ≤ 0 →
    compare a c ≤ 0

/-- The ranks of two lists agree item by item. -/
abbrev SameRanks (compare : ι → ι → ℤ) : List ι → List ι → Prop :=
  List.Forall₂ fun a b => compare a b = 0

namespace Ranks

variable {compare : ι → ι → ℤ} {inside : ι → Prop}

theorem flip_nonneg (ranks : Ranks compare inside) {a b : ι} (insideA : inside a)
    (insideB : inside b) : 0 ≤ compare a b ↔ compare b a ≤ 0 := by
  have signs := ranks.antisymm a b insideA insideB
  rw [← Int.sign_nonneg_iff, ← Int.sign_nonpos_iff, signs]
  omega

theorem total (ranks : Ranks compare inside) {a b : ι} (insideA : inside a)
    (insideB : inside b) : compare a b ≤ 0 ∨ compare b a ≤ 0 := by
  rw [← ranks.flip_nonneg insideA insideB]
  exact le_total _ _

/-- Items that are not ranked after each other are tied. -/
theorem tied (ranks : Ranks compare inside) {a b : ι} (insideA : inside a) (insideB : inside b)
    (first : compare a b ≤ 0) (second : compare b a ≤ 0) : compare a b = 0 :=
  le_antisymm first ((ranks.flip_nonneg insideA insideB).mpr second)

theorem of_subset (ranks : Ranks compare inside) {fewer : ι → Prop}
    (subset : ∀ a, fewer a → inside a) : Ranks compare fewer where
  refl a insideA := ranks.refl a (subset a insideA)
  antisymm a b insideA insideB := ranks.antisymm a b (subset a insideA) (subset b insideB)
  trans a b c insideA insideB insideC :=
    ranks.trans a b c (subset a insideA) (subset b insideB) (subset c insideC)

/-- Items ranked by something that belongs to them. -/
theorem comap (ranks : Ranks compare inside) (f : κ → ι) :
    Ranks (fun a b => compare (f a) (f b)) fun a => inside (f a) where
  refl a := ranks.refl (f a)
  antisymm a b := ranks.antisymm (f a) (f b)
  trans a b c := ranks.trans (f a) (f b) (f c)

/-- The reverse ranking. -/
theorem neg (ranks : Ranks compare inside) : Ranks (fun a b => -compare a b) inside where
  refl a insideA := by rw [ranks.refl a insideA, neg_zero]
  antisymm a b insideA insideB := by
    rw [Int.sign_neg, Int.sign_neg, ranks.antisymm a b insideA insideB]
  trans a b c insideA insideB insideC first second := by
    rw [Int.neg_nonpos_iff] at first second ⊢
    rw [ranks.flip_nonneg insideA insideB] at first
    rw [ranks.flip_nonneg insideB insideC] at second
    rw [ranks.flip_nonneg insideA insideC]
    exact ranks.trans c b a insideC insideB insideA second first

theorem congr {other : ι → ι → ℤ} (ranks : Ranks compare inside)
    (same : ∀ a b, inside a → inside b → other a b = compare a b) : Ranks other inside where
  refl a insideA := (same a a insideA insideA).trans (ranks.refl a insideA)
  antisymm a b insideA insideB := by
    rw [same a b insideA insideB, same b a insideB insideA, ranks.antisymm a b insideA insideB]
  trans a b c insideA insideB insideC := by
    rw [same a b insideA insideB, same b c insideB insideC, same a c insideA insideC]
    exact ranks.trans a b c insideA insideB insideC

/-- Ties are broken by a second comparison. -/
theorem thenBy {second : ι → ι → ℤ} (ranks : Ranks compare inside) (breaks : Ranks second inside) :
    Ranks (fun a b => if compare a b ≠ 0 then compare a b else second a b) inside where
  refl a insideA := by
    rw [if_neg (not_not.mpr (ranks.refl a insideA))]
    exact breaks.refl a insideA
  antisymm a b insideA insideB := by
    have signs := ranks.antisymm a b insideA insideB
    by_cases tie : compare a b = 0
    · have back : compare b a = 0 := by
        rw [tie, Int.sign_zero, zero_eq_neg, Int.sign_eq_zero_iff_zero] at signs
        exact signs
      rw [if_neg (not_not.mpr tie), if_neg (not_not.mpr back)]
      exact breaks.antisymm a b insideA insideB
    · have back : compare b a ≠ 0 := by
        intro zero
        rw [zero, Int.sign_zero, neg_zero, Int.sign_eq_zero_iff_zero] at signs
        exact tie signs
      rw [if_pos tie, if_pos back]
      exact signs
  trans a b c insideA insideB insideC first next := by
    have weak : ∀ x y, (if compare x y ≠ 0 then compare x y else second x y) ≤ 0 →
        compare x y ≤ 0 := by
      intro x y least
      split at least
      next => exact least
      next tie => exact (not_not.mp tie).le
    have whole := ranks.trans a b c insideA insideB insideC (weak a b first) (weak b c next)
    by_cases tie : compare a c = 0
    · -- Then both steps are ties as well, and the second comparison decides them.
      have back : compare c a ≤ 0 := (ranks.flip_nonneg insideA insideC).mp tie.ge
      have tieFirst : compare a b = 0 := by
        apply ranks.tied insideA insideB (weak a b first)
        exact ranks.trans b c a insideB insideC insideA (weak b c next) back
      have tieNext : compare b c = 0 := by
        apply ranks.tied insideB insideC (weak b c next)
        exact ranks.trans c a b insideC insideA insideB back (weak a b first)
      rw [if_neg (not_not.mpr tieFirst)] at first
      rw [if_neg (not_not.mpr tieNext)] at next
      rw [if_neg (not_not.mpr tie)]
      exact breaks.trans a b c insideA insideB insideC first next
    · rw [if_pos tie]
      exact whole

/-- Items ranked by a key. -/
theorem ranks_threeWay {before : ι → ι → Prop} [DecidableRel before] [LinearOrder κ] {key : ι → κ}
    (byKey : ∀ a b, before a b ↔ key a < key b) :
    Ranks (Text.threeWay before) fun _ => True := by
  have compares := Text.comparesBy_threeWay byKey
  have flip : ∀ a b, Text.threeWay before a b = -Text.threeWay before b a := by
    intro a b
    simp only [Text.threeWay, byKey]
    rcases lt_trichotomy (key a) (key b) with less | same | greater
    · simp [less, less.not_gt]
    · simp [same]
    · simp [greater, greater.not_gt]
  constructor
  · intro a _
    have opposite := flip a a
    omega
  · intro a b _ _
    rw [flip, Int.sign_neg]
  · intro a b c _ _ _ first second
    rw [compares] at first second ⊢
    exact first.trans second

/-- Some items come after all others and tie with each other. -/
def withLast (last : ι → Bool) (compare : ι → ι → ℤ) (a b : ι) : ℤ :=
  if last a || last b then (if last a = last b then 0 else if last a then 1 else -1)
  else compare a b

theorem ranks_withLast {last : ι → Bool}
    (ranks : Ranks compare fun item => inside item ∧ last item = false) :
    Ranks (withLast last compare) inside where
  refl a insideA := by
    cases lastA : last a with
    | true => simp [withLast, lastA]
    | false =>
        simp only [withLast, lastA, Bool.or_self, Bool.false_eq_true, if_false]
        exact ranks.refl a ⟨insideA, lastA⟩
  antisymm a b insideA insideB := by
    cases lastA : last a with
    | true => cases lastB : last b <;> simp [withLast, lastA, lastB]
    | false =>
        cases lastB : last b with
        | true => simp [withLast, lastA, lastB]
        | false =>
            simp only [withLast, lastA, lastB, Bool.or_self, Bool.false_eq_true, if_false]
            exact ranks.antisymm a b ⟨insideA, lastA⟩ ⟨insideB, lastB⟩
  trans a b c insideA insideB insideC := by
    cases lastA : last a with
    | true => cases lastB : last b <;> cases lastC : last c <;> simp [withLast, lastA, lastB, lastC]
    | false =>
        cases lastB : last b with
        | true => cases lastC : last c <;> simp [withLast, lastA, lastB, lastC]
        | false =>
            cases lastC : last c with
            | true => simp [withLast, lastA, lastC]
            | false =>
                simp only [withLast, lastA, lastB, lastC, Bool.or_self, Bool.false_eq_true,
                  if_false]
                exact ranks.trans a b c ⟨insideA, lastA⟩ ⟨insideB, lastB⟩ ⟨insideC, lastC⟩

/-! ## Sorting -/

/-- Sorted items come in the order of their ranks. -/
theorem pairwise_sortBy (ranks : Ranks compare inside) {items : List ι}
    (members : ∀ item ∈ items, inside item) :
    (Text.sortBy compare items).Pairwise fun a b => compare a b ≤ 0 := by
  have total : Std.Total fun left right : { item // inside item } => compare left right ≤ 0 :=
    ⟨fun left right => ranks.total left.2 right.2⟩
  have transitive : IsTrans { item // inside item } fun left right => compare left right ≤ 0 :=
    ⟨fun a b c => ranks.trans a b c a.2 b.2 c.2⟩
  have sorted := List.pairwise_insertionSort
    (fun left right : { item // inside item } => compare left right ≤ 0)
    (items.attachWith inside members)
  have image : (Text.sortBy (fun left right : { item // inside item } => compare left right)
      (items.attachWith inside members)).map Subtype.val = Text.sortBy compare items := by
    rw [Text.sortBy_map compare, List.attachWith_map_subtype_val]
  rw [← image, List.pairwise_map]
  exact sorted

/-- How many items come strictly before one. -/
def rank (compare : ι → ι → ℤ) (items : List ι) (item : ι) : ℕ :=
  items.countP fun other => compare other item < 0

/-- Among the items the comparison goes by the rank. -/
theorem le_iff_rank_le (ranks : Ranks compare inside) {items : List ι}
    (members : ∀ item ∈ items, inside item) {a b : ι} (memberA : a ∈ items) (memberB : b ∈ items) :
    compare a b ≤ 0 ↔ rank compare items a ≤ rank compare items b := by
  have insideA := members a memberA
  have insideB := members b memberB
  constructor
  · intro least
    apply List.countP_mono_left
    intro other member before
    have insideOther := members other member
    rw [decide_eq_true_eq] at before ⊢
    rw [← not_le, ranks.flip_nonneg insideOther insideB]
    intro back
    rw [← not_le, ranks.flip_nonneg insideOther insideA] at before
    exact before (ranks.trans a b other insideA insideB insideOther least back)
  · intro fewer
    by_contra greater
    -- Then `b` comes strictly before `a`, and so does everything before `b`.
    have before : compare b a < 0 := by
      rwa [← not_le, ranks.flip_nonneg insideB insideA]
    have subset : ∀ other ∈ items, compare other b < 0 → compare other a < 0 := by
      intro other member beforeB
      have insideOther := members other member
      rw [← not_le, ranks.flip_nonneg insideOther insideA]
      intro back
      rw [← not_le, ranks.flip_nonneg insideOther insideB] at beforeB
      exact beforeB (ranks.trans b a other insideB insideA insideOther before.le back)
    have more : rank compare items b < rank compare items a := by
      rcases List.append_of_mem memberB with ⟨front, rest, rfl⟩
      have frontLe : front.countP (fun other => compare other b < 0) ≤
          front.countP (fun other => compare other a < 0) := by
        apply List.countP_mono_left
        intro other member less
        rw [decide_eq_true_eq] at less ⊢
        exact subset other (List.mem_append_left _ member) less
      have restLe : rest.countP (fun other => compare other b < 0) ≤
          rest.countP (fun other => compare other a < 0) := by
        apply List.countP_mono_left
        intro other member less
        rw [decide_eq_true_eq] at less ⊢
        exact subset other (List.mem_append_right _ (List.mem_cons_of_mem _ member)) less
      have tie := ranks.refl b insideB
      rw [rank, rank, List.countP_append, List.countP_append,
        List.countP_cons_of_neg (by simp [tie]), List.countP_cons_of_pos (by simpa using before)]
      omega
    exact absurd fewer (not_le.mpr more)

/-- Two sorted orders of the same items have the same ranks. -/
theorem sameRanks_of_perm (ranks : Ranks compare inside) {left right : List ι}
    (members : ∀ item ∈ left, inside item) (perm : left.Perm right)
    (sortedLeft : left.Pairwise fun a b => compare a b ≤ 0)
    (sortedRight : right.Pairwise fun a b => compare a b ≤ 0) : SameRanks compare left right := by
  have keysSorted : ∀ items : List ι, (∀ item ∈ items, item ∈ left) →
      (items.Pairwise fun a b => compare a b ≤ 0) →
      (items.map (rank compare left)).Pairwise (· ≤ ·) := by
    intro items listed sorted
    rw [List.pairwise_map]
    apply sorted.imp_of_mem
    intro a b memberA memberB least
    exact (ranks.le_iff_rank_le members (listed a memberA) (listed b memberB)).mp least
  have keys : left.map (rank compare left) = right.map (rank compare left) := by
    apply List.Perm.eq_of_pairwise _ (keysSorted left (fun _ member => member) sortedLeft)
      (keysSorted right (fun _ member => perm.mem_iff.mpr member) sortedRight) (perm.map _)
    intro a b _ _ first second
    exact le_antisymm first second
  have pairs : List.Forall₂ (fun a b => rank compare left a = rank compare left b) left right := by
    rw [← List.forall₂_map_left_iff (R := fun key b => key = rank compare left b),
      ← List.forall₂_map_right_iff (R := fun key key' => key = key'), List.forall₂_eq_eq_eq]
    exact keys
  have both := List.forall₂_iff_get.mp pairs
  apply List.forall₂_iff_get.mpr
  refine ⟨both.1, ?_⟩
  intro i insideLeft insideRight
  have same := both.2 i insideLeft insideRight
  have memberLeft : left.get ⟨i, insideLeft⟩ ∈ left := List.get_mem left _
  have memberRight : right.get ⟨i, insideRight⟩ ∈ left := perm.mem_iff.mpr (List.get_mem right _)
  apply ranks.tied (members _ memberLeft) (members _ memberRight)
  · exact (ranks.le_iff_rank_le members memberLeft memberRight).mpr same.le
  · exact (ranks.le_iff_rank_le members memberRight memberLeft).mpr same.ge

end Ranks

end Foundation
