import BelugaManager.Foundation.CodeUnits
import BelugaManager.Foundation.PrefixCode

/-!
# Percent-encoding

A string is read as code points, these are written as UTF-8 bytes, and every byte that is
not an unreserved character becomes a percent sign and two digits.  A string with half of
a surrogate pair in it has no code points and no encoding.
-/

namespace Foundation.JsString

def isHighSurrogate (unit : UInt16) : Bool := 0xD800 ≤ unit.toNat ∧ unit.toNat < 0xDC00

def isLowSurrogate (unit : UInt16) : Bool := 0xDC00 ≤ unit.toNat ∧ unit.toNat < 0xE000

/-- The code point of a surrogate pair. -/
def pairPoint (high low : UInt16) : Nat :=
  0x10000 + (high.toNat - 0xD800) * 0x400 + (low.toNat - 0xDC00)

/-- The code points of a string, unless half of a surrogate pair stands alone. -/
def codePoints : JsString → Option (List Nat)
  | [] => some []
  | [unit] => if isHighSurrogate unit || isLowSurrogate unit then none else some [unit.toNat]
  | unit :: next :: rest =>
      if isHighSurrogate unit then
        if isLowSurrogate next then (codePoints rest).map (pairPoint unit next :: ·) else none
      else if isLowSurrogate unit then none
      else (codePoints (next :: rest)).map (unit.toNat :: ·)

/-- The units of a code point. -/
def pointUnits (point : Nat) : JsString :=
  if point < 0x10000 then [UInt16.ofNat point]
  else [UInt16.ofNat (0xD800 + (point - 0x10000) / 0x400),
    UInt16.ofNat (0xDC00 + (point - 0x10000) % 0x400)]

theorem pointUnits_toNat (unit : UInt16) : pointUnits unit.toNat = [unit] := by
  have small := unit.toNat_lt
  rw [pointUnits, if_pos small, UInt16.ofNat_toNat]

theorem pointUnits_pairPoint {high low : UInt16} (isHigh : isHighSurrogate high = true)
    (isLow : isLowSurrogate low = true) : pointUnits (pairPoint high low) = [high, low] := by
  simp only [isHighSurrogate, isLowSurrogate, Bool.decide_and, Bool.and_eq_true,
    decide_eq_true_eq] at isHigh isLow
  have first : 0xD800 + (pairPoint high low - 0x10000) / 0x400 = high.toNat := by
    unfold pairPoint
    omega
  have second : 0xDC00 + (pairPoint high low - 0x10000) % 0x400 = low.toNat := by
    unfold pairPoint
    omega
  have big : ¬pairPoint high low < 0x10000 := by
    unfold pairPoint
    omega
  rw [pointUnits, if_neg big, first, second, UInt16.ofNat_toNat, UInt16.ofNat_toNat]

/-- The code points make up the string. -/
theorem flatMap_pointUnits {s : JsString} {points : List Nat} (read : codePoints s = some points) :
    points.flatMap pointUnits = s := by
  fun_induction codePoints s generalizing points with
  | case1 => rw [← Option.some.inj read, List.flatMap_nil]
  | case2 => simp at read
  | case3 unit whole =>
      rw [← Option.some.inj read, List.flatMap_singleton, pointUnits_toNat]
  | case4 unit next rest isHigh isLow ih =>
      rcases Option.map_eq_some_iff.mp read with ⟨others, readRest, rfl⟩
      rw [List.flatMap_cons, pointUnits_pairPoint isHigh isLow, ih readRest]
      rfl
  | case5 => simp at read
  | case6 => simp at read
  | case7 unit next rest notHigh notLow ih =>
      rcases Option.map_eq_some_iff.mp read with ⟨others, readRest, rfl⟩
      rw [List.flatMap_cons, pointUnits_toNat, ih readRest]
      rfl

/-- Every code point is one of Unicode. -/
theorem codePoints_lt {s : JsString} {points : List Nat} (read : codePoints s = some points) :
    ∀ point ∈ points, point < 0x110000 := by
  fun_induction codePoints s generalizing points with
  | case1 => simp [← Option.some.inj read]
  | case2 => simp at read
  | case3 unit whole =>
      have small := unit.toNat_lt
      rw [← Option.some.inj read, List.forall_mem_singleton]
      omega
  | case4 unit next rest isHigh isLow ih =>
      rcases Option.map_eq_some_iff.mp read with ⟨others, readRest, rfl⟩
      simp only [isHighSurrogate, isLowSurrogate, Bool.decide_and, Bool.and_eq_true,
        decide_eq_true_eq] at isHigh isLow
      rw [List.forall_mem_cons]
      constructor
      · unfold pairPoint
        omega
      · exact ih readRest
  | case5 => simp at read
  | case6 => simp at read
  | case7 unit next rest notHigh notLow ih =>
      rcases Option.map_eq_some_iff.mp read with ⟨others, readRest, rfl⟩
      have small := unit.toNat_lt
      rw [List.forall_mem_cons]
      constructor
      · omega
      · exact ih readRest

/-- A unit that is no half of a pair separates what stands before it from what follows. -/
theorem isSome_codePoints_append {s : JsString} {unit : UInt16} (rest : JsString)
    (notHigh : isHighSurrogate unit = false) (notLow : isLowSurrogate unit = false) :
    (codePoints (s ++ unit :: rest)).isSome ↔
      (codePoints s).isSome ∧ (codePoints rest).isSome := by
  have single : ∀ other : UInt16, isHighSurrogate other = false → isLowSurrogate other = false →
      ∀ tail : JsString, (codePoints (other :: tail)).isSome ↔ (codePoints tail).isSome := by
    intro other high low tail
    cases tail <;> simp [codePoints, high, low]
  fun_induction codePoints s with
  | case1 => simp [single unit notHigh notLow]
  | case2 first isHalf =>
      rw [Bool.or_eq_true] at isHalf
      cases high : isHighSurrogate first with
      | true => simp [codePoints, high, notLow]
      | false =>
          have low : isLowSurrogate first = true := by simpa [high] using isHalf
          simp [codePoints, high, low]
  | case3 first whole =>
      simp only [Bool.or_eq_true, not_or, Bool.not_eq_true] at whole
      rw [List.singleton_append, single first whole.1 whole.2, single unit notHigh notLow]
      simp
  | case4 first next later isHigh isLow ih => simp [codePoints, isHigh, isLow, ih]
  | case5 first next later isHigh notLowNext => simp [codePoints, isHigh, notLowNext]
  | case6 first next later notHighFirst isLow => simp [codePoints, notHighFirst, isLow]
  | case7 first next later notHighFirst notLowFirst ih =>
      rw [Bool.not_eq_true] at notHighFirst notLowFirst
      have again := (single first notHighFirst notLowFirst _).trans ih
      simpa [codePoints, notHighFirst, notLowFirst] using again

/-- The UTF-8 bytes of a code point. -/
def utf8 (point : Nat) : List UInt8 :=
  if point < 0x80 then [UInt8.ofNat point]
  else if point < 0x800 then
    [UInt8.ofNat (0xC0 + point / 0x40), UInt8.ofNat (0x80 + point % 0x40)]
  else if point < 0x10000 then
    [UInt8.ofNat (0xE0 + point / 0x1000), UInt8.ofNat (0x80 + point / 0x40 % 0x40),
      UInt8.ofNat (0x80 + point % 0x40)]
  else
    [UInt8.ofNat (0xF0 + point / 0x40000), UInt8.ofNat (0x80 + point / 0x1000 % 0x40),
      UInt8.ofNat (0x80 + point / 0x40 % 0x40), UInt8.ofNat (0x80 + point % 0x40)]

/-- An ASCII byte stands for itself only. -/
theorem eq_of_ascii_mem_utf8 {point : Nat} {byte : UInt8} (small : point < 0x110000)
    (member : byte ∈ utf8 point) (ascii : byte.toNat < 0x80) : byte.toNat = point := by
  have number : byte.toNat ∈ (utf8 point).map UInt8.toNat := List.mem_map_of_mem member
  rw [utf8] at number
  split_ifs at number <;>
    simp only [List.map_cons, List.map_nil, List.mem_cons, List.not_mem_nil, or_false,
      UInt8.toNat_ofNat'] at number <;>
    omega

/-- The first byte tells how many follow. -/
theorem prefixFree_utf8 : PrefixFree fun point : Fin 0x110000 => utf8 point.val := by
  intro point other rest rest' same
  have small := point.isLt
  have otherSmall := other.isLt
  have numbers := congrArg (List.map UInt8.toNat) same
  rw [Fin.ext_iff]
  simp only [utf8] at same numbers
  split_ifs at same numbers <;>
    simp only [List.cons_append, List.nil_append, List.map_cons, List.cons.injEq,
      UInt8.toNat_ofNat'] at same numbers <;>
    grind

/-! ## Encoded bytes -/

/-- The characters that `encodeURIComponent` leaves as they are. -/
def isUnreserved (unit : UInt16) : Bool :=
  (48 ≤ unit.toNat ∧ unit.toNat ≤ 57) || (65 ≤ unit.toNat ∧ unit.toNat ≤ 90) ||
    (97 ≤ unit.toNat ∧ unit.toNat ≤ 122) || (ofString "-_.!~*'()").contains unit

/-- An upper-case hexadecimal digit. -/
def hexDigit (n : Nat) : UInt16 := UInt16.ofNat (if n < 10 then 48 + n else 55 + n)

def percentByte (byte : UInt8) : JsString :=
  [ofChar '%', hexDigit (byte.toNat / 16), hexDigit (byte.toNat % 16)]

def encodeByte (byte : UInt8) : JsString :=
  if isUnreserved byte.toUInt16 then [byte.toUInt16] else percentByte byte

/-- `encodeURIComponent`, which throws where there are no code points. -/
def encodeURIComponent (s : JsString) : Option JsString :=
  (codePoints s).map fun points => (points.flatMap utf8).flatMap encodeByte

theorem hexDigit_injective {n m : Nat} (small : n < 16) (otherSmall : m < 16)
    (same : hexDigit n = hexDigit m) : n = m := by
  have numbers := congrArg UInt16.toNat same
  simp only [hexDigit, UInt16.toNat_ofNat'] at numbers
  split_ifs at numbers <;> omega

theorem isUnreserved_hexDigit : ∀ n < 16, isUnreserved (hexDigit n) = true := by decide

/-- A percent sign tells an encoded byte from one that stands for itself. -/
theorem prefixFree_encodeByte : PrefixFree encodeByte := by
  intro byte other rest rest' same
  have notUnreserved : ∀ unit, isUnreserved unit = true → unit ≠ ofChar '%' := by
    intro unit unreserved isPercent
    rw [isPercent] at unreserved
    exact absurd unreserved (by decide)
  rw [encodeByte, encodeByte] at same
  split_ifs at same with plain otherPlain otherPlain
  · rcases List.cons.inj same with ⟨sameUnit, sameRest⟩
    exact ⟨UInt8.toUInt16_inj.mp sameUnit, sameRest⟩
  · exact absurd (List.cons.inj same).1 (notUnreserved _ plain)
  · exact absurd (List.cons.inj same).1.symm (notUnreserved _ otherPlain)
  · simp only [percentByte, List.cons_append, List.nil_append, List.cons.injEq, true_and] at same
    have bounded := byte.toNat_lt
    have otherBounded := other.toNat_lt
    have high := hexDigit_injective (by omega) (by omega) same.1
    have low := hexDigit_injective (by omega) (by omega) same.2.1
    exact ⟨UInt8.toNat_inj.mp (by omega), same.2.2⟩

theorem encodeByte_ne_nil (byte : UInt8) : encodeByte byte ≠ [] := by
  rw [encodeByte]
  split_ifs <;> simp [percentByte]

theorem utf8_ne_nil (point : Nat) : utf8 point ≠ [] := by
  rw [utf8]
  split_ifs <;> simp

/-- Equal encodings come from equal strings. -/
theorem encodeURIComponent_injective {s t encoded : JsString}
    (encodes : encodeURIComponent s = some encoded)
    (otherEncodes : encodeURIComponent t = some encoded) : s = t := by
  rcases Option.map_eq_some_iff.mp encodes with ⟨points, read, rfl⟩
  rcases Option.map_eq_some_iff.mp otherEncodes with ⟨others, otherRead, same⟩
  have sameBytes : others.flatMap utf8 = points.flatMap utf8 :=
    prefixFree_encodeByte.flatMap_injective encodeByte_ne_nil same
  -- The bytes determine points that are bounded, so both lists are read as such.
  have bounded : ∀ {r : JsString} {list : List Nat}, codePoints r = some list →
      ∃ typed : List (Fin 0x110000), list = typed.map Fin.val := by
    intro r list readList
    exact ⟨list.pmap Fin.mk (codePoints_lt readList), by simp [List.map_pmap]⟩
  rcases bounded read with ⟨typed, rfl⟩
  rcases bounded otherRead with ⟨otherTyped, rfl⟩
  simp only [List.flatMap_map] at sameBytes
  have sameTyped : otherTyped = typed :=
    prefixFree_utf8.flatMap_injective (fun point => utf8_ne_nil point.val) sameBytes
  rw [← flatMap_pointUnits read, ← flatMap_pointUnits otherRead, sameTyped]

/-- The units of an encoding. -/
def isComponentUnit (unit : UInt16) : Bool := isUnreserved unit || unit = ofChar '%'

theorem isComponentUnit_of_mem_percentByte {byte : UInt8} {unit : UInt16}
    (member : unit ∈ percentByte byte) : isComponentUnit unit = true := by
  have bounded := byte.toNat_lt
  simp only [percentByte, List.mem_cons, List.not_mem_nil, or_false] at member
  rw [isComponentUnit, Bool.or_eq_true, decide_eq_true_eq]
  rcases member with isPercent | isHigh | isLow
  · exact Or.inr isPercent
  · left
    rw [isHigh]
    exact isUnreserved_hexDigit _ (by omega)
  · left
    rw [isLow]
    exact isUnreserved_hexDigit _ (by omega)

theorem isComponentUnit_of_mem_encodeByte {byte : UInt8} {unit : UInt16}
    (member : unit ∈ encodeByte byte) : isComponentUnit unit = true := by
  rw [encodeByte] at member
  split_ifs at member with plain
  · rw [List.mem_singleton.mp member, isComponentUnit, plain]
    rfl
  · exact isComponentUnit_of_mem_percentByte member

theorem isComponentUnit_of_mem {s encoded : JsString}
    (encodes : encodeURIComponent s = some encoded) :
    ∀ unit ∈ encoded, isComponentUnit unit = true := by
  rcases Option.map_eq_some_iff.mp encodes with ⟨points, _, rfl⟩
  intro unit member
  rcases List.mem_flatMap.mp member with ⟨byte, _, inByte⟩
  exact isComponentUnit_of_mem_encodeByte inByte

end Foundation.JsString
