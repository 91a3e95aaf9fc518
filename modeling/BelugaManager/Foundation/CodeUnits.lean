import BelugaManager.Foundation.Text

/-!
# Strings of any code units

A string need not encode characters: its sixteen-bit units may hold half of a surrogate
pair.  This module keeps the units themselves, with the string methods that are used on
names from outside.
-/

namespace Foundation

/-- A string as its UTF-16 code units. -/
abbrev JsString := List UInt16

namespace JsString

/-- The code units of a literal. -/
def ofString (literal : String) : JsString := (Text.utf16 literal).map UInt16.ofNat

/-- The unit of an ASCII character. -/
def ofChar (c : Char) : UInt16 := UInt16.ofNat c.toNat

/-- An ASCII letter in lower case. -/
def lowerUnit (unit : UInt16) : UInt16 :=
  if 65 ≤ unit.toNat ∧ unit.toNat ≤ 90 then unit + 32 else unit

/-- The numbers of the units. -/
def toNats (s : JsString) : List Nat := s.map UInt16.toNat

theorem toNats_injective : Function.Injective toNats :=
  List.map_injective_iff.mpr fun _ _ same => UInt16.toNat_inj.mp same

/-- `a < b` on strings. -/
def Before (a b : JsString) : Prop := toNats a < toNats b

instance : DecidableRel Before := fun a b =>
  inferInstanceAs (Decidable (toNats a < toNats b))

/-! ## Replacing every occurrence -/

section Replace

variable {α : Type*} [DecidableEq α]

/-- Occurrences are replaced from left to right, the first `skipped` items being the rest
of one that was replaced. -/
def replaceFrom (pattern replacement : List α) : Nat → List α → List α
  | _, [] => []
  | 0, item :: rest =>
      if pattern.isPrefixOf (item :: rest) then
        replacement ++ replaceFrom pattern replacement (pattern.length - 1) rest
      else item :: replaceFrom pattern replacement 0 rest
  | skipped + 1, _ :: rest => replaceFrom pattern replacement skipped rest

/-- What is put in is not looked at again. -/
def replaceAll (pattern replacement items : List α) : List α :=
  replaceFrom pattern replacement 0 items

@[simp] theorem replaceAll_nil (pattern replacement : List α) :
    replaceAll pattern replacement [] = [] := rfl

theorem replaceFrom_append (pattern replacement skipped rest : List α) :
    replaceFrom pattern replacement skipped.length (skipped ++ rest) =
      replaceAll pattern replacement rest := by
  induction skipped with
  | nil => rfl
  | cons item skipped ih => exact ih

theorem replaceAll_cons_of_not_prefix {pattern replacement : List α} {item : α} {rest : List α}
    (differs : ¬pattern <+: item :: rest) :
    replaceAll pattern replacement (item :: rest) =
      item :: replaceAll pattern replacement rest := by
  rw [replaceAll, replaceFrom, if_neg (by rwa [List.isPrefixOf_iff_prefix])]
  rfl

/-- An item that does not start the pattern stays. -/
theorem replaceAll_cons_of_ne {first item : α} (pattern replacement rest : List α)
    (differs : item ≠ first) :
    replaceAll (first :: pattern) replacement (item :: rest) =
      item :: replaceAll (first :: pattern) replacement rest := by
  apply replaceAll_cons_of_not_prefix
  intro starts
  exact differs (List.cons_prefix_cons.mp starts).1.symm

theorem replaceAll_append_pattern (first : α) (pattern replacement rest : List α) :
    replaceAll (first :: pattern) replacement (first :: (pattern ++ rest)) =
      replacement ++ replaceAll (first :: pattern) replacement rest := by
  have starts : (first :: pattern).isPrefixOf (first :: (pattern ++ rest)) = true := by
    rw [List.isPrefixOf_iff_prefix]
    exact ⟨rest, rfl⟩
  rw [replaceAll, replaceFrom, if_pos starts]
  exact congrArg (replacement ++ ·)
    (replaceFrom_append (first :: pattern) replacement pattern rest)

/-- Replacing a single item treats each item by itself. -/
theorem replaceAll_singleton (old : α) (replacement items : List α) :
    replaceAll [old] replacement items =
      items.flatMap fun item => if item = old then replacement else [item] := by
  induction items with
  | nil => rfl
  | cons item rest ih =>
      rw [List.flatMap_cons]
      by_cases same : item = old
      · rw [if_pos same, same, ← ih]
        exact replaceAll_append_pattern old [] replacement rest
      · rw [if_neg same, replaceAll_cons_of_ne _ _ _ same, ih]
        rfl

/-- Where the code of an item is never matched together with what follows, replacing
works on codes. -/
theorem replaceAll_flatMap {β : Type*} {pattern replacement : List α} {code image : β → List α}
    (each : ∀ item rest, replaceAll pattern replacement (code item ++ rest) =
      image item ++ replaceAll pattern replacement rest) (items : List β) :
    replaceAll pattern replacement (items.flatMap code) = items.flatMap image := by
  induction items with
  | nil => rfl
  | cons item rest ih => rw [List.flatMap_cons, each, ih, List.flatMap_cons]

end Replace

/-- White space and line terminators. -/
def isSpaceUnit (unit : UInt16) : Bool :=
  unit.toNat ∈ [0x09, 0x0A, 0x0B, 0x0C, 0x0D, 0x20, 0xA0, 0x1680, 0x2028, 0x2029, 0x202F,
    0x205F, 0x3000, 0xFEFF] ∨ 0x2000 ≤ unit.toNat ∧ unit.toNat ≤ 0x200A

def trim (s : JsString) : JsString :=
  ((s.dropWhile isSpaceUnit).reverse.dropWhile isSpaceUnit).reverse

/-! ## Pieces -/

/-- The pieces between occurrences of a separator. -/
def split (separator : UInt16) (s : JsString) : List JsString := s.splitOn separator

/-- The pieces with a separator between each two of them. -/
def join (separator : UInt16) (pieces : List JsString) : JsString :=
  [separator].intercalate pieces

theorem split_join {separator : UInt16} {pieces : List JsString} (nonempty : pieces ≠ [])
    (free : ∀ piece ∈ pieces, separator ∉ piece) :
    split separator (join separator pieces) = pieces :=
  List.splitOn_intercalate separator free nonempty

theorem join_split (separator : UInt16) (s : JsString) :
    join separator (split separator s) = s := List.intercalate_splitOn separator

theorem notMem_of_mem_split {separator : UInt16} {s piece : JsString}
    (inPieces : piece ∈ split separator s) : separator ∉ piece :=
  Text.notMem_of_mem_splitOn inPieces

@[simp] theorem join_singleton (separator : UInt16) (piece : JsString) :
    join separator [piece] = piece := List.intercalate_singleton

theorem join_cons_cons (separator : UInt16) (first second : JsString) (rest : List JsString) :
    join separator (first :: second :: rest) =
      first ++ separator :: join separator (second :: rest) := by
  rw [join, List.intercalate_cons_cons, List.append_assoc]
  rfl

/-- A unit of joined pieces is the separator or stands in a piece. -/
theorem mem_join {separator unit : UInt16} {pieces : List JsString}
    (member : unit ∈ join separator pieces) :
    unit = separator ∨ ∃ piece ∈ pieces, unit ∈ piece := by
  rcases Text.mem_intercalate member with isSeparator | inPiece
  · exact Or.inl (List.mem_singleton.mp isSeparator)
  · exact Or.inr inPiece

theorem mem_join_of_mem {separator unit : UInt16} {piece : JsString} {pieces : List JsString}
    (listed : piece ∈ pieces) (member : unit ∈ piece) : unit ∈ join separator pieces := by
  induction pieces with
  | nil => exact absurd listed List.not_mem_nil
  | cons first rest ih =>
      cases rest with
      | nil => rwa [join_singleton, ← List.mem_singleton.mp listed]
      | cons second rest =>
          rw [join_cons_cons, List.mem_append]
          rcases List.mem_cons.mp listed with rfl | later
          · exact Or.inl member
          · exact Or.inr (List.mem_cons_of_mem separator (ih later))

/-- Pieces without the separator can be told from what they are joined to. -/
theorem join_inj {separator : UInt16} {left right : List JsString} (leftSome : left ≠ [])
    (rightSome : right ≠ []) (leftFree : ∀ piece ∈ left, separator ∉ piece)
    (rightFree : ∀ piece ∈ right, separator ∉ piece) :
    join separator left = join separator right ↔ left = right := by
  constructor
  · intro same
    rw [← split_join leftSome leftFree, same, split_join rightSome rightFree]
  · exact fun same => same ▸ rfl

theorem split_ne_nil (separator : UInt16) (s : JsString) : split separator s ≠ [] :=
  List.splitOn_ne_nil separator s

/-- Changing the pieces of a string keeps it if it keeps each piece. -/
theorem join_map_split_iff {separator : UInt16} {change : JsString → JsString} {s : JsString}
    (free : ∀ piece, separator ∉ change piece) :
    join separator ((split separator s).map change) = s ↔
      ∀ piece ∈ split separator s, change piece = piece := by
  have each : (split separator s).map change = split separator s ↔
      ∀ piece ∈ split separator s, change piece = piece := by
    have same := @List.map_eq_map_iff _ _ change (split separator s) id
    rwa [List.map_id] at same
  have someChanged : (split separator s).map change ≠ [] := by
    simpa using split_ne_nil separator s
  have changedFree : ∀ piece ∈ (split separator s).map change, separator ∉ piece := by
    intro piece listed
    rcases List.mem_map.mp listed with ⟨original, _, rfl⟩
    exact free original
  rw [← each, ← join_inj someChanged (split_ne_nil separator s) changedFree
    fun piece listed => notMem_of_mem_split listed, join_split]

end JsString

end Foundation
