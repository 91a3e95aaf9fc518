import Mathlib.Data.List.Sort
import Mathlib.Order.Lex
import Mathlib.Data.Prod.Lex
import Mathlib.Data.List.Lex

/-!
# Strings as sequences of UTF-16 code units

Comparison, length and sorting of strings go by UTF-16 code units, which orders
characters outside the basic plane differently from their code points.  The
remaining operations are the string methods the modules above rely on, each with
the one or two facts that later proofs use.
-/

namespace Foundation.Text

/-- A test that a literal passes is a fact about each of its characters. -/
theorem forall_mem_of_all {α : Type} {holds : α → Prop} [DecidablePred holds] {chars : List α}
    (all : chars.all (fun c => decide (holds c)) = true) : ∀ c ∈ chars, holds c := by
  intro c member
  exact of_decide_eq_true (List.all_eq_true.mp all c member)

/-- The one or two code units that encode a character. -/
def codeUnits (c : Char) : List Nat :=
  if c.toNat < 0x10000 then [c.toNat]
  else
    [0xD800 + (c.toNat - 0x10000) / 0x400, 0xDC00 + (c.toNat - 0x10000) % 0x400]

/-- The code units of a string. -/
def utf16 (s : String) : List Nat := s.toList.flatMap codeUnits

/-- The number of code units. -/
def length (s : String) : Nat := (utf16 s).length

private theorem toNat_range (c : Char) :
    c.toNat < 0xD800 ∨ 0xDFFF < c.toNat ∧ c.toNat < 0x110000 := c.valid

/-- A code-unit sequence determines its characters: the first unit tells whether
a second one belongs to it. -/
theorem flatMap_codeUnits_injective :
    Function.Injective fun chars : List Char => chars.flatMap codeUnits := by
  intro left right equal
  induction left generalizing right with
  | nil =>
      cases right with
      | nil => rfl
      | cons c rest =>
          simp only [List.flatMap_nil, List.flatMap_cons, codeUnits] at equal
          split at equal <;> simp at equal
  | cons c rest ih =>
      cases right with
      | nil =>
          simp only [List.flatMap_nil, List.flatMap_cons, codeUnits] at equal
          split at equal <;> simp at equal
      | cons other otherRest =>
          have range := toNat_range c
          have otherRange := toNat_range other
          simp only [List.flatMap_cons, codeUnits] at equal
          have same : c = other ∧
              rest.flatMap codeUnits = otherRest.flatMap codeUnits := by
            rw [← Char.toNat_inj]
            split at equal <;> split at equal <;>
              simp only [List.cons_append, List.nil_append, List.cons.injEq] at equal
            · exact equal
            · omega
            · omega
            · exact ⟨by omega, equal.2.2⟩
          rw [same.1, ih same.2]

theorem utf16_injective : Function.Injective utf16 := fun _ _ equal =>
  String.toList_inj.mp (flatMap_codeUnits_injective equal)

/-! ## Order and sorting -/

/-- `a < b` on strings. -/
def Before (a b : String) : Prop := utf16 a < utf16 b

instance : DecidableRel Before := fun a b =>
  inferInstanceAs (Decidable (utf16 a < utf16 b))

/-- Stable sort by a three-way comparison. -/
def sortBy {ι : Type*} (compare : ι → ι → Int) (items : List ι) : List ι :=
  items.insertionSort fun left right => compare left right ≤ 0

/-- Sorting by an image sorts the images. -/
theorem sortBy_map {ι κ : Type*} (compare : κ → κ → Int) (image : ι → κ) (items : List ι) :
    (sortBy (fun a b => compare (image a) (image b)) items).map image =
      sortBy compare (items.map image) :=
  List.map_insertionSort _ _ image items fun _ _ _ _ => Iff.rfl

theorem sortBy_perm {ι : Type*} (compare : ι → ι → Int) (items : List ι) :
    (sortBy compare items).Perm items := List.perm_insertionSort _ items

@[simp] theorem mem_sortBy {ι : Type*} (compare : ι → ι → Int) (items : List ι) (item : ι) :
    item ∈ sortBy compare items ↔ item ∈ items := (sortBy_perm compare items).mem_iff

@[simp] theorem sortBy_eq_nil {ι : Type*} (compare : ι → ι → Int) (items : List ι) :
    sortBy compare items = [] ↔ items = [] := by
  constructor
  · intro sorted
    exact List.perm_nil.mp (sorted ▸ (sortBy_perm compare items).symm)
  · rintro rfl
    rfl

/-- A three-way comparison goes by a key. -/
def ComparesBy {ι κ : Type*} [LE κ] (compare : ι → ι → Int) (key : ι → κ) : Prop :=
  ∀ left right, compare left right ≤ 0 ↔ key left ≤ key right

namespace ComparesBy

variable {ι κ : Type*} [LinearOrder κ] {compare : ι → ι → Int} {key : ι → κ}

theorem pairwise_sortBy (compares : ComparesBy compare key) (items : List ι) :
    (sortBy compare items).Pairwise fun left right => key left ≤ key right := by
  have : Std.Total fun left right : ι => compare left right ≤ 0 := by
    constructor
    intro left right
    rw [compares, compares]
    exact le_total _ _
  have : IsTrans ι fun left right => compare left right ≤ 0 := by
    constructor
    intro first second third
    rw [compares, compares, compares]
    exact le_trans
  exact (List.pairwise_insertionSort _ items).imp fun {left right} ordered =>
    (compares left right).mp ordered

/-- Items that are told apart by their keys come out in one order, whatever stood between
them before. -/
theorem filter_sortBy_eq_of_perm (compares : ComparesBy compare key) {left right : List ι}
    (selects : ι → Bool)
    (distinct : ∀ a ∈ left, ∀ b ∈ left, selects a = true → selects b = true → key a = key b → a = b)
    (perm : left.Perm right) :
    (sortBy compare left).filter selects = (sortBy compare right).filter selects := by
  have same : (sortBy compare left).Perm (sortBy compare right) :=
    (sortBy_perm _ left).trans (perm.trans (sortBy_perm _ right).symm)
  apply List.Perm.eq_of_pairwise _ ((compares.pairwise_sortBy left).filter selects)
    ((compares.pairwise_sortBy right).filter selects) (same.filter selects)
  intro a b inLeft inRight lower upper
  rw [List.mem_filter, mem_sortBy] at inLeft inRight
  exact distinct a inLeft.1 b (perm.mem_iff.mpr inRight.1) inLeft.2 inRight.2
    (le_antisymm lower upper)

/-- Sorting forgets the order of items that are told apart by their keys. -/
theorem sortBy_eq_of_perm (compares : ComparesBy compare key) {left right : List ι}
    (distinct : ∀ a ∈ left, ∀ b ∈ left, key a = key b → a = b) (perm : left.Perm right) :
    sortBy compare left = sortBy compare right := by
  have all := compares.filter_sortBy_eq_of_perm (fun _ => true)
    (fun a inLeft b alsoLeft _ _ => distinct a inLeft b alsoLeft) perm
  rwa [List.filter_true, List.filter_true] at all

end ComparesBy

/-- The three-way comparison that a relation gives. -/
def threeWay {ι : Type*} (before : ι → ι → Prop) [DecidableRel before] (left right : ι) : Int :=
  if before left right then -1 else if before right left then 1 else 0

theorem comparesBy_threeWay {ι κ : Type*} [LinearOrder κ] {before : ι → ι → Prop}
    [DecidableRel before] {key : ι → κ}
    (strict : ∀ left right, before left right ↔ key left < key right) :
    ComparesBy (threeWay before) key := by
  intro left right
  rw [threeWay]
  split_ifs with less greater
  · exact iff_of_true (by decide) (le_of_lt ((strict left right).mp less))
  · exact iff_of_false (by decide) (not_le_of_gt ((strict right left).mp greater))
  · exact iff_of_true (by decide) (not_lt.mp fun later => greater ((strict right left).mpr later))

/-- Ties of a first comparison are left to a second. -/
theorem ComparesBy.thenBy {ι κ κ' : Type*} [LinearOrder κ] [LinearOrder κ']
    {first second : ι → ι → Int} {key : ι → κ} {key' : ι → κ'} (compares : ComparesBy first key)
    (ties : ∀ left right, first left right = 0 ↔ key left = key right)
    (then' : ComparesBy second key') :
    ComparesBy (fun left right => if first left right ≠ 0 then first left right
      else second left right)
      fun item => toLex (key item, key' item) := by
  intro left right
  rw [Prod.Lex.toLex_le_toLex]
  by_cases tied : first left right = 0
  · have same := (ties left right).mp tied
    simp only [tied, ne_eq, not_true_eq_false, if_false, same, lt_irrefl, true_and, false_or]
    exact then' left right
  · have different : key left ≠ key right := fun same => tied ((ties left right).mpr same)
    simp only [tied, ne_eq, not_false_eq_true, if_true, different, false_and, or_false]
    rw [compares, le_iff_lt_or_eq]
    exact or_iff_left different

/-- The three-way comparison of strings. -/
def compareUnits (a b : String) : Int :=
  if Before a b then -1 else if Before b a then 1 else 0

theorem comparesBy_compareUnits : ComparesBy compareUnits utf16 :=
  comparesBy_threeWay fun _ _ => Iff.rfl

theorem compareUnits_eq_zero_iff (a b : String) : compareUnits a b = 0 ↔ utf16 a = utf16 b := by
  rw [compareUnits]
  split_ifs with less greater
  · exact iff_of_false (by decide) (ne_of_lt less)
  · exact iff_of_false (by decide) (ne_of_gt greater)
  · exact iff_of_true rfl (le_antisymm (not_lt.mp greater) (not_lt.mp less))

/-- Sorting strings by code units forgets the order of the input. -/
theorem sortBy_compareUnits_eq_of_perm {left right : List String} (perm : left.Perm right) :
    sortBy compareUnits left = sortBy compareUnits right :=
  comparesBy_compareUnits.sortBy_eq_of_perm (fun _ _ _ _ same => utf16_injective same) perm

/-! ## Taking strings apart and putting them together -/

/-- The pieces between occurrences of a one-character separator. -/
def split (separator : Char) (s : String) : List String :=
  (s.toList.splitOn separator).map String.ofList

/-- The pieces with a separator between each two of them. -/
def join (separator : String) (pieces : List String) : String :=
  String.ofList (separator.toList.intercalate (pieces.map String.toList))

/-- Splitting undoes joining when the separator occurs in no piece. -/
theorem split_join {separator : Char} {pieces : List String} (nonempty : pieces ≠ [])
    (free : ∀ piece ∈ pieces, separator ∉ piece.toList) :
    split separator (join (String.singleton separator) pieces) = pieces := by
  have lists : ∀ chars ∈ pieces.map String.toList, separator ∉ chars := by
    intro chars member
    obtain ⟨piece, inPieces, rfl⟩ := List.mem_map.mp member
    exact free piece inPieces
  simp only [split, join, String.toList_ofList, String.toList_singleton]
  rw [List.splitOn_intercalate separator lists (by simpa using nonempty), List.map_map]
  simp [Function.comp_def]

@[simp] theorem join_singleton (separator piece : String) : join separator [piece] = piece := by
  simp [join]

theorem join_cons_cons (separator first second : String) (rest : List String) :
    join separator (first :: second :: rest) =
      first ++ separator ++ join separator (second :: rest) := by
  apply String.toList_inj.mp
  simp [join, List.intercalate_cons_cons]

theorem join_pair (separator first second : String) :
    join separator [first, second] = first ++ separator ++ second := by
  rw [join_cons_cons, join_singleton]

/-- What the first piece starts with comes before everything. -/
theorem join_append_cons (separator start first : String) (rest : List String) :
    join separator ((start ++ first) :: rest) = start ++ join separator (first :: rest) := by
  cases rest with
  | nil => rw [join_singleton, join_singleton]
  | cons second rest => simp only [join_cons_cons, String.append_assoc]

/-- Nonempty pieces without the separator can be told from what they are joined to. -/
theorem join_inj {separator : Char} {left right : List String}
    (leftFree : ∀ piece ∈ left, piece ≠ "" ∧ separator ∉ piece.toList)
    (rightFree : ∀ piece ∈ right, piece ≠ "" ∧ separator ∉ piece.toList)
    (same : join (String.singleton separator) left = join (String.singleton separator) right) :
    left = right := by
  have nonempty : ∀ (piece : String) (rest : List String), piece ≠ "" →
      join (String.singleton separator) (piece :: rest) ≠ "" := by
    intro piece rest somePiece
    cases rest with
    | nil => rwa [join_singleton]
    | cons second rest => simp [join_cons_cons]
  cases left with
  | nil =>
      cases right with
      | nil => rfl
      | cons piece rest =>
          exact absurd same.symm (nonempty piece rest (rightFree piece List.mem_cons_self).1)
  | cons piece rest =>
      cases right with
      | nil => exact absurd same (nonempty piece rest (leftFree piece List.mem_cons_self).1)
      | cons other others =>
          rw [← split_join (List.cons_ne_nil piece rest) fun p member => (leftFree p member).2,
            same, split_join (List.cons_ne_nil other others) fun p member =>
              (rightFree p member).2]

/-- Joining undoes splitting. -/
theorem join_split (separator : Char) (s : String) :
    join (String.singleton separator) (split separator s) = s := by
  simp only [split, join, List.map_map, String.toList_singleton]
  rw [show String.toList ∘ String.ofList = id from funext fun chars => String.toList_ofList,
    List.map_id, List.intercalate_splitOn, String.ofList_toList]

/-- The characters of joined lists are those of the lists and of the separator. -/
theorem mem_intercalate {α : Type*} {separator : List α} {lists : List (List α)} {item : α}
    (member : item ∈ separator.intercalate lists) :
    item ∈ separator ∨ ∃ list ∈ lists, item ∈ list := by
  induction lists with
  | nil => simp at member
  | cons first rest ih =>
      cases rest with
      | nil => exact Or.inr ⟨first, List.mem_cons_self, by simpa using member⟩
      | cons second rest =>
          rw [List.intercalate_cons_cons, List.mem_append, List.mem_append] at member
          rcases member with (inFirst | inSeparator) | later
          · exact Or.inr ⟨first, List.mem_cons_self, inFirst⟩
          · exact Or.inl inSeparator
          · rcases ih later with inSeparator | ⟨list, listed, inList⟩
            · exact Or.inl inSeparator
            · exact Or.inr ⟨list, List.mem_cons_of_mem first listed, inList⟩

/-- Every character is the separator or stands in a piece. -/
theorem mem_pieces_of_mem {separator c : Char} {s : String} (member : c ∈ s.toList) :
    c = separator ∨ ∃ piece ∈ split separator s, c ∈ piece.toList := by
  rw [← join_split separator s, join, String.toList_ofList] at member
  rcases mem_intercalate member with isSeparator | ⟨chars, listed, inChars⟩
  · rw [String.toList_singleton, List.mem_singleton] at isSeparator
    exact Or.inl isSeparator
  · rcases List.mem_map.mp listed with ⟨piece, inPieces, rfl⟩
    exact Or.inr ⟨piece, inPieces, inChars⟩

theorem mem_of_mem_split {separator c : Char} {s piece : String}
    (inPieces : piece ∈ split separator s) (member : c ∈ piece.toList) : c ∈ s.toList := by
  have inJoin : ∀ pieces : List String, piece ∈ pieces →
      c ∈ (join (String.singleton separator) pieces).toList := by
    intro pieces listed
    induction pieces with
    | nil => exact absurd listed List.not_mem_nil
    | cons first rest ih =>
        cases rest with
        | nil => rwa [join_singleton, ← List.mem_singleton.mp listed]
        | cons second rest =>
            rw [join_cons_cons, String.toList_append, String.toList_append, List.mem_append,
              List.mem_append]
            rcases List.mem_cons.mp listed with rfl | later
            · exact Or.inl (Or.inl member)
            · exact Or.inr (ih later)
  rw [← join_split separator s]
  exact inJoin _ inPieces

theorem split_ne_nil (separator : Char) (s : String) : split separator s ≠ [] := by
  rw [split, Ne, List.map_eq_nil_iff]
  exact List.splitOn_ne_nil separator s.toList

/-- No part of a list split at separators contains one. -/
theorem of_mem_splitOnP {α : Type*} {separates : α → Bool} {items part : List α}
    (inParts : part ∈ items.splitOnP separates) : ∀ item ∈ part, separates item = false := by
  induction items generalizing part with
  | nil =>
      rw [List.splitOnP_nil, List.mem_singleton] at inParts
      rw [inParts]
      exact List.forall_mem_nil _
  | cons item rest ih =>
      rw [List.splitOnP_cons_eq_if_modifyHead] at inParts
      split at inParts
      next =>
        rcases List.mem_cons.mp inParts with rfl | later
        · exact List.forall_mem_nil _
        · exact ih later
      next other =>
        cases pieces : rest.splitOnP separates with
        | nil => exact absurd pieces (List.splitOnP_ne_nil separates rest)
        | cons first others =>
            rw [pieces, List.modifyHead_cons] at inParts
            rw [pieces] at ih
            rcases List.mem_cons.mp inParts with rfl | later
            · rw [List.forall_mem_cons]
              exact ⟨Bool.eq_false_iff.mpr other, ih List.mem_cons_self⟩
            · exact ih (List.mem_cons_of_mem first later)

theorem notMem_of_mem_splitOn {α : Type*} [BEq α] [LawfulBEq α] {separator : α}
    {items part : List α} (inParts : part ∈ items.splitOn separator) : separator ∉ part := by
  intro member
  rw [List.splitOn_eq_splitOnP] at inParts
  have isOther := of_mem_splitOnP inParts separator member
  rw [beq_self_eq_true] at isOther
  exact absurd isOther (by decide)

/-- No piece contains the separator. -/
theorem notMem_of_mem_split {separator : Char} {s piece : String}
    (inPieces : piece ∈ split separator s) : separator ∉ piece.toList := by
  rcases List.mem_map.mp inPieces with ⟨part, inParts, rfl⟩
  rw [String.toList_ofList]
  exact notMem_of_mem_splitOn inParts

/-- The characters before and after the last occurrence of a separator. -/
def splitLast (separator : Char) : List Char → Option (List Char × List Char)
  | [] => none
  | c :: rest =>
      match splitLast separator rest with
      | some (before, after) => some (c :: before, after)
      | none => if c = separator then some ([], rest) else none

theorem splitLast_eq_none_iff (separator : Char) (chars : List Char) :
    splitLast separator chars = none ↔ separator ∉ chars := by
  induction chars with
  | nil => simp [splitLast]
  | cons c rest ih =>
      cases tail : splitLast separator rest with
      | none =>
          have absent := ih.mp tail
          by_cases isSeparator : c = separator
          · simp [splitLast, tail, isSeparator]
          · simp [splitLast, tail, isSeparator, absent, Ne.symm isSeparator]
      | some pair =>
          have present : separator ∈ rest := by simpa [tail] using ih
          simp [splitLast, tail, present]

theorem splitLast_eq_some_iff (separator : Char) (chars before after : List Char) :
    splitLast separator chars = some (before, after) ↔
      chars = before ++ separator :: after ∧ separator ∉ after := by
  constructor
  · intro found
    induction chars generalizing before with
    | nil => simp [splitLast] at found
    | cons c rest ih =>
        cases tail : splitLast separator rest with
        | none =>
            simp only [splitLast, tail, Option.ite_none_right_eq_some, Option.some.injEq,
              Prod.mk.injEq] at found
            rcases found with ⟨rfl, rfl, rfl⟩
            exact ⟨rfl, (splitLast_eq_none_iff _ _).mp tail⟩
        | some pair =>
            simp only [splitLast, tail, Option.some.injEq, Prod.mk.injEq] at found
            rcases found with ⟨rfl, rfl⟩
            have earlier := ih pair.1 tail
            exact ⟨by rw [earlier.1, List.cons_append], earlier.2⟩
  · intro joined
    rcases joined with ⟨rfl, free⟩
    induction before with
    | nil => simp [splitLast, (splitLast_eq_none_iff _ _).mpr free]
    | cons c before ih => simp [splitLast, ih]

/-- Remove the characters that satisfy `dropped` from both ends. -/
def trimWith (dropped : Char → Bool) (s : String) : String :=
  String.ofList ((s.toList.dropWhile dropped).reverse.dropWhile dropped).reverse

/-- Nothing is removed where both ends stay. -/
theorem trimWith_eq_self {dropped : Char → Bool} {s : String}
    (first : ∀ c ∈ s.toList.head?, dropped c = false)
    (last : ∀ c ∈ s.toList.getLast?, dropped c = false) : trimWith dropped s = s := by
  have kept : ∀ chars : List Char, (∀ c ∈ chars.head?, dropped c = false) →
      chars.dropWhile dropped = chars := by
    intro chars stays
    cases chars with
    | nil => rfl
    | cons c rest => rw [List.dropWhile_cons_of_neg (by simp [stays c rfl])]
  rw [trimWith, kept _ first, kept _ (by simpa using last), List.reverse_reverse,
    String.ofList_toList]

/-- What a text starts with of a class, and the rest. -/
theorem exists_leading (dropped : Char → Bool) (chars : List Char) :
    ∃ lead, chars = lead ++ chars.dropWhile dropped ∧ (∀ c ∈ lead, dropped c = true) ∧
      ∀ c ∈ (chars.dropWhile dropped).head?, dropped c = false := by
  refine ⟨chars.takeWhile dropped, List.takeWhile_append_dropWhile.symm,
    List.all_eq_true.mp List.all_takeWhile, ?_⟩
  intro c first
  have stays := List.head?_dropWhile_not dropped chars
  rw [Option.mem_def.mp first] at stays
  exact stays

/-- Trimming removes what surrounds a text whose ends stay. -/
theorem trimWith_surrounded {dropped : Char → Bool} {lead core trail : List Char}
    (leads : ∀ c ∈ lead, dropped c = true) (trails : ∀ c ∈ trail, dropped c = true)
    (nonempty : core ≠ []) (first : ∀ c ∈ core.head?, dropped c = false)
    (last : ∀ c ∈ core.getLast?, dropped c = false) :
    trimWith dropped (String.ofList (lead ++ (core ++ trail))) = String.ofList core := by
  have kept : ∀ {chars rest : List Char}, chars ≠ [] → (∀ c ∈ chars.head?, dropped c = false) →
      (chars ++ rest).dropWhile dropped = chars ++ rest := by
    intro chars rest some stays
    cases chars with
    | nil => exact absurd rfl some
    | cons c chars => rw [List.cons_append, List.dropWhile_cons_of_neg (by simp [stays c rfl])]
  have lastFirst : ∀ c ∈ core.reverse.head?, dropped c = false := by
    simpa using last
  rw [trimWith, String.toList_ofList, List.dropWhile_append_of_pos leads, kept nonempty first,
    List.reverse_append, List.dropWhile_append_of_pos (by simpa using trails)]
  have tail := @kept core.reverse [] (by simpa using nonempty) lastFirst
  rw [List.append_nil] at tail
  rw [tail, List.reverse_reverse]

/-- What trimming removes stands around what it keeps, whose ends stay. -/
theorem exists_trimWith (dropped : Char → Bool) (s : String) :
    ∃ lead trail, s.toList = lead ++ ((trimWith dropped s).toList ++ trail) ∧
      (∀ c ∈ lead, dropped c = true) ∧ (∀ c ∈ trail, dropped c = true) ∧
      (∀ c ∈ (trimWith dropped s).toList.head?, dropped c = false) ∧
      (∀ c ∈ (trimWith dropped s).toList.getLast?, dropped c = false) := by
  rcases exists_leading dropped s.toList with ⟨lead, cutLead, leads, first⟩
  rcases exists_leading dropped (s.toList.dropWhile dropped).reverse with
    ⟨trail, cutTrail, trails, last⟩
  have kept : (trimWith dropped s).toList =
      ((s.toList.dropWhile dropped).reverse.dropWhile dropped).reverse := by
    rw [trimWith, String.toList_ofList]
  have around : s.toList.dropWhile dropped = (trimWith dropped s).toList ++ trail.reverse := by
    rw [kept, ← List.reverse_append, ← cutTrail, List.reverse_reverse]
  refine ⟨lead, trail.reverse, ?_, leads, ?_, ?_, ?_⟩
  · rw [← around]
    exact cutLead
  · intro c member
    exact trails c (List.mem_reverse.mp member)
  · intro c isFirst
    apply first c
    rw [around, List.head?_append, Option.mem_def.mp isFirst]
    rfl
  · rw [kept, List.getLast?_reverse]
    exact last

theorem dropWhile_congr {left right : Char → Bool} {chars : List Char}
    (same : ∀ c ∈ chars, left c = right c) : chars.dropWhile left = chars.dropWhile right := by
  induction chars with
  | nil => rfl
  | cons c rest ih =>
      rw [List.dropWhile_cons, List.dropWhile_cons, same c List.mem_cons_self,
        ih fun other member => same other (List.mem_cons_of_mem c member)]

theorem trimWith_congr {left right : Char → Bool} {s : String}
    (same : ∀ c ∈ s.toList, left c = right c) : trimWith left s = trimWith right s := by
  rw [trimWith, trimWith, dropWhile_congr same]
  congr 2
  apply dropWhile_congr
  intro c member
  exact same c ((List.dropWhile_suffix right).mem (List.mem_reverse.mp member))

/-- Trimming only removes characters. -/
theorem mem_of_mem_trimWith {dropped : Char → Bool} {s : String} {c : Char}
    (member : c ∈ (trimWith dropped s).toList) : c ∈ s.toList := by
  rw [trimWith, String.toList_ofList, List.mem_reverse] at member
  have kept := (List.dropWhile_suffix dropped).mem member
  exact (List.dropWhile_suffix dropped).mem (List.mem_reverse.mp kept)

/-- What trimming removes is of the class. -/
theorem dropped_of_notMem_trimWith {dropped : Char → Bool} {s : String} {c : Char}
    (member : c ∈ s.toList) (absent : c ∉ (trimWith dropped s).toList) : dropped c = true := by
  have inDropped : ∀ chars : List Char, c ∈ chars → c ∉ chars.dropWhile dropped →
      dropped c = true := by
    intro chars inChars notKept
    rw [← List.takeWhile_append_dropWhile (p := dropped) (l := chars), List.mem_append] at inChars
    exact List.all_eq_true.mp List.all_takeWhile c (inChars.resolve_right notKept)
  rw [trimWith, String.toList_ofList, List.mem_reverse] at absent
  by_cases kept : c ∈ s.toList.dropWhile dropped
  · exact inDropped _ (List.mem_reverse.mpr kept) absent
  · exact inDropped _ member kept

/-- White space as the string methods and the pattern class `\s` understand it. -/
def isSpace (c : Char) : Bool :=
  c.toNat ∈ [0x09, 0x0A, 0x0B, 0x0C, 0x0D, 0x20, 0xA0, 0x1680, 0x2028, 0x2029, 0x202F,
    0x205F, 0x3000, 0xFEFF] ∨ 0x2000 ≤ c.toNat ∧ c.toNat ≤ 0x200A

/-- Remove white space from both ends. -/
def trim (s : String) : String := trimWith isSpace s

/-- Replace every occurrence of one character by another. -/
def replaceChar (old new : Char) (s : String) : String :=
  String.ofList (s.toList.map fun c => if c = old then new else c)

/-- Remove every occurrence of a character. -/
def removeChar (old : Char) (s : String) : String :=
  String.ofList (s.toList.filter (· ≠ old))

/-- Lower the ASCII letters and leave every other character alone. -/
def lowerAscii (s : String) : String := String.ofList (s.toList.map Char.toLower)

theorem toLower_toLower (c : Char) : c.toLower.toLower = c.toLower := by
  unfold Char.toLower
  split
  next upper =>
    split
    next again =>
      simp [UInt32.le_iff_toNat_le] at upper again
      omega
    next => rfl
  next => rfl

/-- The codes of the ASCII letters. -/
theorem isAlpha_iff (c : Char) :
    c.isAlpha = true ↔ 65 ≤ c.toNat ∧ c.toNat ≤ 90 ∨ 97 ≤ c.toNat ∧ c.toNat ≤ 122 := by
  have unfolded : c.isAlpha =
      (decide (65 ≤ c.val ∧ c.val ≤ 90) || (decide (97 ≤ c.val) && decide (c.val ≤ 122))) := rfl
  simp [unfolded, UInt32.le_iff_toNat_le]

theorem toNat_toLower (c : Char) :
    c.toLower.toNat = if 65 ≤ c.toNat ∧ c.toNat ≤ 90 then c.toNat + 32 else c.toNat := by
  unfold Char.toLower
  split
  next upper =>
    simp [UInt32.le_iff_toNat_le] at upper
    simp [upper]
    omega
  next other =>
    simp [UInt32.le_iff_toNat_le] at other
    rw [if_neg]
    omega

/-- What differs from a letter in case only is a letter. -/
theorem isAlpha_of_toLower_eq {c letter : Char} (same : c.toLower = letter.toLower)
    (alpha : letter.isAlpha = true) : c.isAlpha = true := by
  have codes := congrArg Char.toNat same
  rw [toNat_toLower, toNat_toLower] at codes
  rw [isAlpha_iff] at alpha ⊢
  split at codes <;> split at codes <;> omega

theorem toNat_toUpper (c : Char) :
    c.toUpper.toNat = if 97 ≤ c.toNat ∧ c.toNat ≤ 122 then c.toNat - 32 else c.toNat := by
  unfold Char.toUpper
  split
  next lower =>
    simp [UInt32.le_iff_toNat_le] at lower
    simp [lower]
    omega
  next other =>
    simp [UInt32.le_iff_toNat_le] at other
    rw [if_neg]
    omega

/-- Only letters have a case. -/
theorem eq_of_toLower_eq {c other : Char} (same : c.toLower = other.toLower)
    (noLetter : other.isAlpha = false) : c = other := by
  have codes := congrArg Char.toNat same
  rw [toNat_toLower, toNat_toLower] at codes
  rw [← Bool.not_eq_true, isAlpha_iff] at noLetter
  apply Char.toNat_inj.mp
  split at codes <;> split at codes <;> omega

/-- Letters are no white space. -/
theorem isSpace_eq_false_of_isAlpha {c : Char} (alpha : c.isAlpha = true) :
    isSpace c = false := by
  rw [isAlpha_iff] at alpha
  simp [isSpace]
  omega

/-- Digits are no white space. -/
theorem isSpace_eq_false_of_isDigit {c : Char} (digit : c.isDigit = true) :
    isSpace c = false := by
  have range : 48 ≤ c.toNat ∧ c.toNat ≤ 57 := Char.isDigit_iff_toNat.mp digit
  simp [isSpace]
  omega

theorem isAlpha_eq_false_of_isDigit {c : Char} (digit : c.isDigit = true) : c.isAlpha = false := by
  have range : 48 ≤ c.toNat ∧ c.toNat ≤ 57 := Char.isDigit_iff_toNat.mp digit
  rw [← Bool.not_eq_true, isAlpha_iff]
  omega

theorem lowerAscii_lowerAscii (s : String) : lowerAscii (lowerAscii s) = lowerAscii s := by
  simp only [lowerAscii, String.toList_ofList, List.map_map, Function.comp_def, toLower_toLower]

/-- Raise the ASCII letters and leave every other character alone. -/
def upperAscii (s : String) : String := String.ofList (s.toList.map Char.toUpper)

/-! ## Words -/

/-- The pieces between the characters of a class, empty ones left out. -/
def words (space : Char → Bool) (chars : List Char) : List (List Char) :=
  (chars.splitOnP space).filter (· ≠ [])

section Words

variable {space : Char → Bool}

theorem words_append_cons (before after : List Char) {c : Char} (isSpace : space c = true) :
    words space (before ++ c :: after) = words space before ++ words space after := by
  rw [words, List.splitOnP_append_cons _ _ isSpace, List.filter_append]
  rfl

theorem words_append_gap (before after : List Char) {gap : List Char} (nonempty : gap ≠ [])
    (every : ∀ c ∈ gap, space c = true) :
    words space (before ++ (gap ++ after)) = words space before ++ words space after := by
  induction gap generalizing before with
  | nil => exact absurd rfl nonempty
  | cons c gap ih =>
      have isSpace := every c List.mem_cons_self
      rw [List.cons_append, words_append_cons before _ isSpace]
      congr 1
      cases gap with
      | nil => rfl
      | cons second gap =>
          have rest := ih [] (by simp) fun other member =>
            every other (List.mem_cons_of_mem _ member)
          exact rest

theorem words_eq_singleton {word : List Char} (nonempty : word ≠ [])
    (free : ∀ c ∈ word, space c = false) : words space word = [word] := by
  rw [words, List.splitOnP_eq_singleton free, List.filter_cons_of_pos (by simpa using nonempty)]
  rfl

/-- What is no white space stands in a word. -/
theorem words_ne_nil {chars : List Char} {c : Char} (member : c ∈ chars) (other : space c = false) :
    words space chars ≠ [] := by
  induction chars with
  | nil => exact absurd member List.not_mem_nil
  | cons first rest ih =>
      rw [words, List.splitOnP_cons_eq_if_modifyHead]
      cases isSpace : space first with
      | true =>
          rcases List.mem_cons.mp member with rfl | later
          · exact absurd (isSpace.symm.trans other) Bool.noConfusion
          · rw [if_pos rfl, List.filter_cons_of_neg (by simp)]
            exact ih later
      | false =>
          rw [if_neg (by simp)]
          cases pieces : rest.splitOnP space with
          | nil => exact absurd pieces (List.splitOnP_ne_nil space rest)
          | cons piece others =>
              rw [List.modifyHead_cons, List.filter_cons_of_pos (by simp)]
              exact List.cons_ne_nil _ _

end Words

/-- One character inside a JSON string literal. -/
def jsonEscape (c : Char) : List Char :=
  if c = '"' then ['\\', '"']
  else if c = '\\' then ['\\', '\\']
  else if c.toNat = 0x08 then ['\\', 'b']
  else if c.toNat = 0x09 then ['\\', 't']
  else if c.toNat = 0x0A then ['\\', 'n']
  else if c.toNat = 0x0C then ['\\', 'f']
  else if c.toNat = 0x0D then ['\\', 'r']
  else if c.toNat < 0x20 then
    ['\\', 'u', '0', '0', (c.toNat / 16).digitChar, (c.toNat % 16).digitChar]
  else [c]

/-- A string as a JSON string literal. -/
def jsonQuote (s : String) : String :=
  String.ofList ('"' :: s.toList.flatMap jsonEscape ++ ['"'])

end Foundation.Text
