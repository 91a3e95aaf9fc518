import BelugaManager.Foundation.NumberText
import BelugaManager.Foundation.Ranking

/-!
# Sorting table cells

`components/dataTableSort.ts`: the comparison of two cells for a direction, and the sort
that keeps the row order of ties.  Cells that are both numbers of some kind compare as
numbers, all others by their text, so that the two orders have to fit together for the
comparison to be a ranking.
-/

namespace BelugaManager.Web

open Foundation

/-- A cell. A date may be invalid, and every other value counts by the text that `String`
makes of it. -/
inductive CellValue where
  | null
  | undefined
  | number (value : JsNumber)
  | bigint (value : ℤ)
  | boolean (value : Bool)
  | date (time : Option ℤ)
  | string (value : JsString)
  | other (text : JsString)

/-- What cells are compared by. -/
inductive Comparable where
  | number (value : JsNumber)
  | bigint (value : ℤ)
  | string (value : JsString)

/-- `Intl.Collator` as far as it is used here. -/
structure Collator where
  compare : JsString → JsString → ℤ

/-- A collator that orders the strings. -/
def Collator.Orders (collator : Collator) : Prop := Ranks collator.compare fun _ => True

def isEmpty : CellValue → Bool
  | .null => true
  | .undefined => true
  | .number value => value = .nan
  | _ => false

def comparable : CellValue → Comparable
  | .number value => .number value
  | .bigint value => .bigint value
  | .boolean value => .number (if value then .ofNat 1 else .ofNat 0)
  | .date (some time) => .number (.finite time)
  | .date none => .number .nan
  | .string value => .string value
  | .other text => .string text
  | .null => .string (JsString.ofString "null")
  | .undefined => .string (JsString.ofString "undefined")

namespace Comparable

def isString : Comparable → Bool
  | .string _ => true
  | _ => false

/-- The value that `<` and `>` see, if it is not a string; integers of any size compare
exactly with numbers. -/
def value : Comparable → JsNumber
  | .number value => value
  | .bigint value => .finite value
  | .string _ => .nan

variable (r : Rounding)

/-- `String(x)` -/
def text : Comparable → JsString
  | .number value => value.toText r
  | .bigint value => bigintText value
  | .string value => value

end Comparable

/-- `x < y ? -1 : x > y ? 1 : 0` -/
def compareNumbers (x y : JsNumber) : ℤ :=
  if JsNumber.less x y then -1 else if JsNumber.less y x then 1 else 0

section Comparison

variable (r : Rounding) (collator : Collator)

def compareNonEmpty (a b : CellValue) : ℤ :=
  let x := comparable a
  let y := comparable b
  if !x.isString && !y.isString then compareNumbers x.value y.value
  else collator.compare (x.text r) (y.text r)

def compareForDirection (desc : Bool) (a b : CellValue) : ℤ :=
  let ea := isEmpty a
  let eb := isEmpty b
  if ea || eb then (if ea = eb then 0 else if ea then 1 else -1)
  else
    let compared := compareNonEmpty r collator a b
    if desc then -compared else compared

/-- The rows that are sorted: a cell and its place in the input. -/
def compareRows (desc : Bool) (p q : CellValue × ℕ) : ℤ :=
  if compareForDirection r collator desc p.1 q.1 ≠ 0 then
    compareForDirection r collator desc p.1 q.1
  else (p.2 : ℤ) - q.2

def sortValues (desc : Bool) (values : List CellValue) : List CellValue :=
  (Text.sortBy (compareRows r collator desc) values.zipIdx).map Prod.fst

/-- A cell that is compared as a number with its like: a number, a boolean or a date. -/
def IsNumeric (cell : CellValue) : Prop := isEmpty cell = false ∧ (comparable cell).isString = false

/-- A cell that is compared as text. -/
def IsText (cell : CellValue) : Prop := isEmpty cell = false ∧ (comparable cell).isString = true

/-- The number of a cell is smaller than that of another. -/
def Smaller (a b : CellValue) : Prop :=
  JsNumber.less (comparable a).value (comparable b).value = true

/-- The text of a cell compared with that of another. -/
def collated (a b : CellValue) : ℤ :=
  collator.compare ((comparable a).text r) ((comparable b).text r)

/-- The two orders of a column fit together. -/
structure OrdersFit (column : CellValue → Prop) : Prop where
  /-- With an invalid date, which ties with every number, no two numbers differ. -/
  invalidDate : column (.date none) →
    ∀ a b, column a → column b → IsNumeric a → IsNumeric b → ¬Smaller a b
  /-- A text that does not follow the text of the smaller number precedes that of the
  greater. -/
  between : ∀ s a b, column s → column a → column b → IsText s → IsNumeric a → IsNumeric b →
    Smaller a b → collated r collator a s < 0 ∨ 0 < collated r collator b s
  /-- Numbers that tie have their texts on the same side of every text. -/
  sameSide : ∀ s a b, column s → column a → column b → IsText s → IsNumeric a → IsNumeric b →
    ¬Smaller a b → ¬Smaller b a →
      (collated r collator a s).sign = (collated r collator b s).sign

/-- The comparison ranks the cells of a column, with empty cells last, and sorting gives
the same ranks from every order of the cells. -/
structure SortsConsistently (desc : Bool) (column : CellValue → Prop) : Prop where
  ranks : Ranks (compareForDirection r collator desc) column
  emptyLast : ∀ a b, column a → column b → isEmpty a = true → isEmpty b = false →
    0 < compareForDirection r collator desc a b
  emptyTies : ∀ a b, column a → column b → isEmpty a = true → isEmpty b = true →
    compareForDirection r collator desc a b = 0
  sameRanking : ∀ left right : List CellValue, (∀ cell ∈ left, column cell) → left.Perm right →
    SameRanks (compareForDirection r collator desc) (sortValues r collator desc left)
      (sortValues r collator desc right)

end Comparison

/-- Numbers other than `NaN` are ordered. -/
theorem ranks_compareNumbers : Ranks compareNumbers fun x => x ≠ .nan where
  refl x _ := by
    cases x with
    | finite value => simp [compareNumbers, JsNumber.less]
    | nan => rfl
    | infinity => rfl
    | negInfinity => rfl
  antisymm x y isX isY := by
    cases x <;> cases y <;> simp_all [compareNumbers, JsNumber.less]
    rename_i a b
    rcases lt_trichotomy a b with less | same | greater
    · simp [less, not_lt.mpr less.le]
    · simp [same]
    · simp [greater, not_lt.mpr greater.le]
  trans x y z isX isY isZ := by
    cases x <;> cases y <;> cases z <;> simp_all [compareNumbers, JsNumber.less]
    rename_i a b c
    have least : ∀ a b : ℚ, (if a < b then (-1 : ℤ) else if b < a then 1 else 0) ≤ 0 ↔ a ≤ b := by
      intro a b
      rcases lt_trichotomy a b with less | same | greater
      · simp [less, less.le]
      · simp [same]
      · simp [greater, not_lt.mpr greater.le, not_le.mpr greater]
    rw [least, least, least]
    exact le_trans

theorem not_less_of_less {x y : JsNumber} (less : JsNumber.less x y = true) :
    JsNumber.less y x = false := by
  cases x <;> cases y <;> simp_all [JsNumber.less]
  exact less.le

theorem compareNumbers_nonpos_iff (x y : JsNumber) :
    compareNumbers x y ≤ 0 ↔ JsNumber.less y x = false := by
  rw [compareNumbers]
  split
  next less => exact iff_of_true (by decide) (not_less_of_less less)
  next =>
    split
    next greater => exact iff_of_false (by decide) (by simp [greater])
    next notGreater => exact iff_of_true le_rfl (by simpa using notGreater)

/-- Also where `NaN` is involved, both directions say the opposite. -/
theorem compareNumbers_neg (x y : JsNumber) : compareNumbers x y = -compareNumbers y x := by
  rw [compareNumbers, compareNumbers]
  split
  next less => rw [not_less_of_less less]; rfl
  next => split <;> rfl

theorem compareNumbers_self (x : JsNumber) : compareNumbers x x = 0 := by
  have opposite := compareNumbers_neg x x
  omega

theorem sign_eq_of_iff {a b : ℤ} (above : 0 ≤ a ↔ 0 ≤ b) (below : a ≤ 0 ↔ b ≤ 0) :
    a.sign = b.sign := by
  rcases lt_trichotomy b 0 with less | zero | greater
  · rw [Int.sign_eq_neg_one_of_neg less, Int.sign_eq_neg_one_iff_neg]
    omega
  · rw [zero, Int.sign_zero, Int.sign_eq_zero_iff_zero]
    omega
  · rw [Int.sign_eq_one_of_pos greater, Int.sign_eq_one_iff_pos]
    omega

/-! ## Cells that are not empty -/

section Proofs

variable {r : Rounding} {collator : Collator}

theorem numeric_or_text {cell : CellValue} (filled : isEmpty cell = false) :
    IsNumeric cell ∨ IsText cell := by
  cases kind : (comparable cell).isString with
  | false => exact Or.inl ⟨filled, kind⟩
  | true => exact Or.inr ⟨filled, kind⟩

theorem eq_invalidDate {cell : CellValue} (numeric : IsNumeric cell)
    (isNan : (comparable cell).value = .nan) : cell = .date none := by
  cases cell with
  | date time =>
      cases time with
      | none => rfl
      | some time => cases isNan
  | number value =>
      have empty : isEmpty (.number value) = true := decide_eq_true isNan
      rw [numeric.1] at empty
      cases empty
  | boolean value => cases value <;> cases isNan
  | bigint value => cases isNan
  | null => cases numeric.1
  | undefined => cases numeric.1
  | string value => cases numeric.2
  | other text => cases numeric.2

theorem compareNonEmpty_numeric {a b : CellValue} (numericA : IsNumeric a)
    (numericB : IsNumeric b) : compareNonEmpty r collator a b =
      compareNumbers (comparable a).value (comparable b).value := by
  simp only [compareNonEmpty, numericA.2, numericB.2, Bool.not_false, Bool.and_self, if_true]

theorem compareNonEmpty_text {a b : CellValue} (someText : IsText a ∨ IsText b) :
    compareNonEmpty r collator a b = collated r collator a b := by
  cases someText with
  | inl textA => simp [compareNonEmpty, collated, textA.2]
  | inr textB => simp [compareNonEmpty, collated, textB.2]

theorem numeric_nonpos_iff {a b : CellValue} (numericA : IsNumeric a) (numericB : IsNumeric b) :
    compareNonEmpty r collator a b ≤ 0 ↔ ¬Smaller b a := by
  rw [compareNonEmpty_numeric numericA numericB, compareNumbers_nonpos_iff, Smaller,
    Bool.not_eq_true]

theorem ranks_collated (orders : collator.Orders) :
    Ranks (collated r collator) fun _ => True :=
  orders.comap fun cell => (comparable cell).text r

section Column

variable {column : CellValue → Prop}

/-- A text stands on the same side of two numbers, or between them in their order. -/
theorem OrdersFit.collated_trans (fit : OrdersFit r collator column) {s a b : CellValue}
    (inS : column s) (inA : column a) (inB : column b) (text : IsText s) (numericA : IsNumeric a)
    (numericB : IsNumeric b) (least : ¬Smaller b a) :
    (collated r collator b s ≤ 0 → collated r collator a s ≤ 0) ∧
      (0 ≤ collated r collator a s → 0 ≤ collated r collator b s) := by
  by_cases smaller : Smaller a b
  · cases fit.between s a b inS inA inB text numericA numericB smaller with
    | inl before => exact ⟨fun _ => before.le, fun after => absurd after (not_le.mpr before)⟩
    | inr after => exact ⟨fun before => absurd before (not_le.mpr after), fun _ => after.le⟩
  · have same := fit.sameSide s a b inS inA inB text numericA numericB smaller least
    constructor
    · intro before
      rwa [← Int.sign_nonpos_iff, same, Int.sign_nonpos_iff]
    · intro after
      rwa [← Int.sign_nonneg_iff, ← same, Int.sign_nonneg_iff]

/-- Numbers are ranked: either no cell is an invalid date, or all numbers tie. -/
theorem OrdersFit.numeric_trans (fit : OrdersFit r collator column) {a b c : CellValue}
    (inA : column a) (inB : column b) (inC : column c) (numericA : IsNumeric a)
    (numericB : IsNumeric b) (numericC : IsNumeric c) (first : ¬Smaller b a)
    (second : ¬Smaller c b) : ¬Smaller c a := by
  by_cases invalid : column (.date none)
  · exact fit.invalidDate invalid c a inC inA numericC numericA
  · have number : ∀ cell, column cell → IsNumeric cell → (comparable cell).value ≠ .nan := by
      intro cell inside numeric isNan
      exact invalid (eq_invalidDate numeric isNan ▸ inside)
    have ranked := ranks_compareNumbers.trans _ _ _ (number a inA numericA)
      (number b inB numericB) (number c inC numericC)
    rw [compareNumbers_nonpos_iff, compareNumbers_nonpos_iff, compareNumbers_nonpos_iff] at ranked
    rw [Smaller, Bool.not_eq_true] at first second ⊢
    exact ranked first second

/-- Where the orders fit, cells that are not empty are ranked. The cases of the transitive
law are those of texts and numbers in a triple. -/
theorem OrdersFit.ranks_compareNonEmpty (fit : OrdersFit r collator column)
    (orders : collator.Orders) :
    Ranks (compareNonEmpty r collator) fun cell => column cell ∧ isEmpty cell = false where
  refl a inside := by
    cases numeric_or_text inside.2 with
    | inl numeric =>
        rw [compareNonEmpty_numeric numeric numeric]
        exact compareNumbers_self _
    | inr text =>
        rw [compareNonEmpty_text (Or.inl text)]
        exact (ranks_collated orders).refl a trivial
  antisymm a b insideA insideB := by
    have texts := (ranks_collated (r := r) orders).antisymm a b trivial trivial
    cases numeric_or_text insideA.2 with
    | inr text =>
        rw [compareNonEmpty_text (Or.inl text), compareNonEmpty_text (Or.inr text)]
        exact texts
    | inl numericA =>
        cases numeric_or_text insideB.2 with
        | inr text =>
            rw [compareNonEmpty_text (Or.inr text), compareNonEmpty_text (Or.inl text)]
            exact texts
        | inl numericB =>
            rw [compareNonEmpty_numeric numericA numericB,
              compareNonEmpty_numeric numericB numericA,
              compareNumbers_neg, Int.sign_neg]
  trans a b c insideA insideB insideC first second := by
    have texts := ranks_collated (r := r) orders
    have flip : ∀ x y, 0 ≤ collated r collator x y ↔ collated r collator y x ≤ 0 := by
      intro x y
      exact texts.flip_nonneg trivial trivial
    cases numeric_or_text insideA.2 with
    | inl numericA =>
        cases numeric_or_text insideB.2 with
        | inl numericB =>
            rw [numeric_nonpos_iff numericA numericB] at first
            cases numeric_or_text insideC.2 with
            | inl numericC =>
                rw [numeric_nonpos_iff numericB numericC] at second
                rw [numeric_nonpos_iff numericA numericC]
                exact fit.numeric_trans insideA.1 insideB.1 insideC.1 numericA numericB numericC
                  first second
            | inr textC =>
                rw [compareNonEmpty_text (Or.inr textC)] at second ⊢
                exact (fit.collated_trans insideC.1 insideA.1 insideB.1 textC numericA numericB
                  first).1 second
        | inr textB =>
            rw [compareNonEmpty_text (Or.inr textB)] at first
            rw [compareNonEmpty_text (Or.inl textB)] at second
            cases numeric_or_text insideC.2 with
            | inl numericC =>
                rw [numeric_nonpos_iff numericA numericC]
                intro smaller
                rw [← flip] at second
                cases fit.between b c a insideB.1 insideC.1 insideA.1 textB numericC numericA
                  smaller with
                | inl before => exact absurd second (not_le.mpr before)
                | inr after => exact absurd first (not_le.mpr after)
            | inr textC =>
                rw [compareNonEmpty_text (Or.inr textC)]
                exact texts.trans a b c trivial trivial trivial first second
    | inr textA =>
        rw [compareNonEmpty_text (Or.inl textA)] at first ⊢
        cases numeric_or_text insideB.2 with
        | inr textB =>
            rw [compareNonEmpty_text (Or.inl textB)] at second
            exact texts.trans a b c trivial trivial trivial first second
        | inl numericB =>
            cases numeric_or_text insideC.2 with
            | inr textC =>
                rw [compareNonEmpty_text (Or.inr textC)] at second
                exact texts.trans a b c trivial trivial trivial first second
            | inl numericC =>
                rw [numeric_nonpos_iff numericB numericC] at second
                rw [← flip] at first ⊢
                exact (fit.collated_trans insideA.1 insideB.1 insideC.1 textA numericB numericC
                  second).2 first

/-- The other way round: what a ranking of the cells that are not empty says about their two
orders. -/
theorem ordersFit_of_ranks (orders : collator.Orders)
    (ranks : Ranks (compareNonEmpty r collator) fun cell => column cell ∧ isEmpty cell = false) :
    OrdersFit r collator column := by
  have flip : ∀ x y, 0 ≤ collated r collator x y ↔ collated r collator y x ≤ 0 := by
    intro x y
    exact (ranks_collated orders).flip_nonneg trivial trivial
  constructor
  · intro invalid a b inA inB numericA numericB smaller
    have numericDate : IsNumeric (.date none) := ⟨rfl, rfl⟩
    have first : compareNonEmpty r collator b (.date none) ≤ 0 := by
      rw [numeric_nonpos_iff numericB numericDate]
      exact Bool.false_ne_true
    have second : compareNonEmpty r collator (.date none) a ≤ 0 := by
      rw [numeric_nonpos_iff numericDate numericA, Smaller]
      cases (comparable a).value <;> exact Bool.false_ne_true
    have whole := ranks.trans b (.date none) a ⟨inB, numericB.1⟩ ⟨invalid, rfl⟩
      ⟨inA, numericA.1⟩ first second
    rw [numeric_nonpos_iff numericB numericA] at whole
    exact whole smaller
  · intro s a b inS inA inB text numericA numericB smaller
    by_contra wrong
    rw [not_or, not_lt, not_lt] at wrong
    have whole := ranks.trans b s a ⟨inB, numericB.1⟩ ⟨inS, text.1⟩ ⟨inA, numericA.1⟩
      (by rw [compareNonEmpty_text (Or.inr text)]; exact wrong.2)
      (by rw [compareNonEmpty_text (Or.inl text), ← flip]; exact wrong.1)
    rw [numeric_nonpos_iff numericB numericA] at whole
    exact whole smaller
  · intro s a b inS inA inB text numericA numericB notLess notGreater
    have insideA : column a ∧ isEmpty a = false := ⟨inA, numericA.1⟩
    have insideB : column b ∧ isEmpty b = false := ⟨inB, numericB.1⟩
    have insideS : column s ∧ isEmpty s = false := ⟨inS, text.1⟩
    have up : compareNonEmpty r collator a b ≤ 0 :=
      (numeric_nonpos_iff numericA numericB).mpr notGreater
    have down : compareNonEmpty r collator b a ≤ 0 :=
      (numeric_nonpos_iff numericB numericA).mpr notLess
    have below : collated r collator a s ≤ 0 ↔ collated r collator b s ≤ 0 := by
      rw [← compareNonEmpty_text (Or.inr text), ← compareNonEmpty_text (Or.inr text)]
      constructor
      · exact ranks.trans b a s insideB insideA insideS down
      · exact ranks.trans a b s insideA insideB insideS up
    have above : 0 ≤ collated r collator a s ↔ 0 ≤ collated r collator b s := by
      rw [flip, flip, ← compareNonEmpty_text (Or.inl text), ← compareNonEmpty_text (Or.inl text)]
      constructor
      · intro before
        exact ranks.trans s a b insideS insideA insideB before up
      · intro before
        exact ranks.trans s b a insideS insideB insideA before down
    exact sign_eq_of_iff above below

/-! ## All cells -/

theorem compareForDirection_eq (desc : Bool) : compareForDirection r collator desc =
    Ranks.withLast isEmpty fun a b =>
      if desc then -compareNonEmpty r collator a b else compareNonEmpty r collator a b := rfl

theorem OrdersFit.ranks_compareForDirection (fit : OrdersFit r collator column)
    (orders : collator.Orders) (desc : Bool) :
    Ranks (compareForDirection r collator desc) column := by
  have filled := fit.ranks_compareNonEmpty orders
  rw [compareForDirection_eq]
  apply Ranks.ranks_withLast
  cases desc with
  | false => exact filled
  | true => exact filled.neg

theorem ranks_compareNonEmpty_of {desc : Bool}
    (ranks : Ranks (compareForDirection r collator desc) column) :
    Ranks (compareNonEmpty r collator) fun cell => column cell ∧ isEmpty cell = false := by
  have inner : Ranks (compareForDirection r collator desc)
      fun cell => column cell ∧ isEmpty cell = false := ranks.of_subset fun _ inside => inside.1
  cases desc with
  | false =>
      apply inner.congr
      intro a b insideA insideB
      simp [compareForDirection, insideA.2, insideB.2]
  | true =>
      apply inner.neg.congr
      intro a b insideA insideB
      simp [compareForDirection, insideA.2, insideB.2]

theorem ranks_compareRows {desc : Bool}
    (ranks : Ranks (compareForDirection r collator desc) column) :
    Ranks (compareRows r collator desc) fun row => column row.1 := by
  have byIndex : Ranks (fun p q : CellValue × ℕ => (p.2 : ℤ) - q.2) fun row => column row.1 := by
    constructor
    · intro a _
      exact sub_self _
    · intro a b _ _
      rw [← Int.sign_neg, neg_sub]
    · intro a b c _ _ _ first second
      omega
  exact (ranks.comap Prod.fst).thenBy byIndex

theorem sortValues_perm (desc : Bool) (values : List CellValue) :
    (sortValues r collator desc values).Perm values := by
  have rows := (Text.sortBy_perm (compareRows r collator desc) values.zipIdx).map Prod.fst
  rwa [List.zipIdx_map_fst] at rows

theorem pairwise_sortValues {desc : Bool}
    (ranks : Ranks (compareForDirection r collator desc) column)
    {values : List CellValue} (inside : ∀ cell ∈ values, column cell) :
    (sortValues r collator desc values).Pairwise
      fun a b => compareForDirection r collator desc a b ≤ 0 := by
  have insideRows : ∀ row ∈ values.zipIdx, column row.1 := by
    intro row member
    exact inside row.1 (List.fst_mem_of_mem_zipIdx member)
  have rows := (ranks_compareRows ranks).pairwise_sortBy insideRows
  rw [sortValues, List.pairwise_map]
  apply rows.imp
  intro p q least
  rw [compareRows] at least
  split at least
  next => exact least
  next tie => exact (not_not.mp tie).le

theorem sortsConsistently_of_ranks {desc : Bool}
    (ranks : Ranks (compareForDirection r collator desc) column) :
    SortsConsistently r collator desc column where
  ranks := ranks
  emptyLast a b _ _ emptyA filledB := by simp [compareForDirection, emptyA, filledB]
  emptyTies a b _ _ emptyA emptyB := by simp [compareForDirection, emptyA, emptyB]
  sameRanking left right inside perm := by
    have insideRight : ∀ cell ∈ right, column cell := fun cell member =>
      inside cell (perm.mem_iff.mpr member)
    apply ranks.sameRanks_of_perm
    · intro cell member
      exact inside cell ((sortValues_perm desc left).mem_iff.mp member)
    · exact (sortValues_perm desc left).trans (perm.trans (sortValues_perm desc right).symm)
    · exact pairwise_sortValues ranks inside
    · exact pairwise_sortValues ranks insideRight

end Column

/-- For every collator that orders the strings and for both directions: the cells of a
column are ranked, and sorted consistently, exactly when its two orders fit together. -/
theorem sortsConsistently_iff (r : Rounding) {collator : Collator} (orders : collator.Orders)
    (desc : Bool) (column : CellValue → Prop) :
    SortsConsistently r collator desc column ↔ OrdersFit r collator column := by
  constructor
  · intro consistent
    exact ordersFit_of_ranks orders (ranks_compareNonEmpty_of consistent.ranks)
  · intro fit
    exact sortsConsistently_of_ranks (fit.ranks_compareForDirection orders desc)

end Proofs

/-! ## Columns of one kind, and columns that are mixed -/

/-- The collator that compares code units. -/
def byUnits : Collator := ⟨Text.threeWay JsString.Before⟩

theorem byUnits_orders : byUnits.Orders := by
  have byKey : ∀ a b, JsString.Before a b ↔ JsString.toNats a < JsString.toNats b :=
    fun _ _ => Iff.rfl
  exact Ranks.ranks_threeWay byKey

/-- A column of text fits whatever the collator. -/
theorem ordersFit_of_text (r : Rounding) (collator : Collator) {column : CellValue → Prop}
    (texts : ∀ cell, column cell → ¬IsNumeric cell) : OrdersFit r collator column where
  invalidDate _ a _ inA _ numericA := absurd numericA (texts a inA)
  between _ a _ _ inA _ _ numericA := absurd numericA (texts a inA)
  sameSide _ a _ _ inA _ _ numericA := absurd numericA (texts a inA)

/-- So does a mixed column without an invalid date whose numbers all precede its texts. -/
theorem ordersFit_of_apart (r : Rounding) (collator : Collator) {column : CellValue → Prop}
    (valid : ¬column (.date none)) (apart : ∀ s a, column s → column a → IsText s →
      IsNumeric a → collated r collator a s < 0) : OrdersFit r collator column where
  invalidDate invalid := absurd invalid valid
  between s a _ inS inA _ text numericA _ _ := Or.inl (apart s a inS inA text numericA)
  sameSide s a b inS inA inB text numericA numericB _ _ := by
    rw [Int.sign_eq_neg_one_of_neg (apart s a inS inA text numericA),
      Int.sign_eq_neg_one_of_neg (apart s b inS inB text numericB)]

/-- In particular a column of numbers, booleans and valid dates. -/
theorem ordersFit_of_numeric (r : Rounding) (collator : Collator) {column : CellValue → Prop}
    (valid : ¬column (.date none)) (numbers : ∀ cell, column cell → ¬IsText cell) :
    OrdersFit r collator column := by
  apply ordersFit_of_apart r collator valid
  intro s _ inS _ text _
  exact absurd text (numbers s inS)

/-- A measured column: two numbers whose texts stand in the other order, a note and an empty
cell. -/
def measured : CellValue → Prop := fun cell =>
  cell = .bigint 5 ∨ cell = .bigint 12 ∨ cell = .string (JsString.ofString "n/a") ∨ cell = .null

theorem measured_apart : ∀ s a, measured s → measured a → IsText s → IsNumeric a →
    collated .lossless byUnits a s < 0 := by
  intro s a inS inA text numericA
  rcases inS with rfl | rfl | rfl | rfl
  · cases text.2
  · cases text.2
  · rcases inA with rfl | rfl | rfl | rfl
    · decide
    · decide
    · cases numericA.2
    · cases numericA.1
  · cases text.1

theorem sortsConsistently_iff_measured :
    SortsConsistently .lossless byUnits false (fun cell => ∃ s, cell = .string s) ∧
    SortsConsistently .lossless byUnits true measured := by
  rw [sortsConsistently_iff .lossless byUnits_orders,
    sortsConsistently_iff .lossless byUnits_orders]
  constructor
  · apply ordersFit_of_text
    intro cell isString numeric
    rcases isString with ⟨s, rfl⟩
    cases numeric.2
  · exact ordersFit_of_apart _ _ (by simp [measured]) measured_apart

/-- The integers nine and ten and the text `5` go round in a circle, and an invalid date
ties with `false` and with `true`. -/
theorem cells_not_ranked :
    compareForDirection .lossless byUnits false (.bigint 9) (.bigint 10) = -1 ∧
    compareForDirection .lossless byUnits false (.bigint 10)
        (.string (JsString.ofString "5")) = -1 ∧
    compareForDirection .lossless byUnits false (.string (JsString.ofString "5")) (.bigint 9) = -1 ∧
    compareForDirection .lossless byUnits false (.boolean false) (.date none) = 0 ∧
    compareForDirection .lossless byUnits false (.date none) (.boolean true) = 0 ∧
    compareForDirection .lossless byUnits false (.boolean false) (.boolean true) = -1 ∧
    ¬∀ collator : Collator, collator.Orders → ∀ desc,
      SortsConsistently .lossless collator desc fun _ => True := by
  have less :
      compareForDirection .lossless byUnits false (.boolean false) (.boolean true) = -1 := by
    norm_num [compareForDirection, compareNonEmpty, comparable, isEmpty, Comparable.isString,
      Comparable.value, compareNumbers, JsNumber.less, JsNumber.ofNat]
  have first : compareForDirection .lossless byUnits false (.bigint 9) (.bigint 10) = -1 := by
    norm_num [compareForDirection, compareNonEmpty, comparable, isEmpty, Comparable.isString,
      Comparable.value, compareNumbers, JsNumber.less]
  refine ⟨first, by decide, by decide, rfl, rfl, less, ?_⟩
  intro all
  have ranks := (all byUnits byUnits_orders false).ranks
  have circle := ranks.trans (.boolean true) (.date none) (.boolean false) trivial trivial trivial
    (by decide) (by decide)
  rw [← ranks.flip_nonneg trivial trivial, less] at circle
  exact absurd circle (by decide)

end BelugaManager.Web
