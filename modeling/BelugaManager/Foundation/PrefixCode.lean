import BelugaManager.Foundation.Text

/-!
# Codes that can be read from the front

Lists that are put together from encoded items determine their items when no encoding
is the start of another one.
-/

namespace Foundation

variable {α β γ : Type*}

/-- An encoded item and what follows it can be told apart. -/
def PrefixFree (encode : α → List β) : Prop :=
  ∀ item other rest rest', encode item ++ rest = encode other ++ rest' → item = other ∧ rest = rest'

namespace PrefixFree

variable {encode : α → List β}

theorem injective (code : PrefixFree encode) : Function.Injective encode := by
  intro item other same
  exact (code item other [] [] (by rw [same])).1

/-- A fixed start and a code followed by a fixed end are a code again. -/
theorem framed (code : PrefixFree encode) (start stop : List β) :
    PrefixFree fun item => start ++ encode item ++ stop := by
  intro item other rest rest' same
  simp only [List.append_assoc, List.append_cancel_left_eq] at same
  rcases code item other _ _ same with ⟨sameItem, sameRest⟩
  exact ⟨sameItem, List.append_cancel_left sameRest⟩

/-- A sequence of encoded items ends where something stands with which no item starts. -/
theorem terminated (code : PrefixFree encode) {stop : β}
    (starts : ∀ item, ∃ first tail, encode item = first :: tail ∧ first ≠ stop)
    {items others : List α} {rest rest' : List β}
    (same : items.flatMap encode ++ stop :: rest = others.flatMap encode ++ stop :: rest') :
    items = others ∧ rest = rest' := by
  induction items generalizing others with
  | nil =>
      cases others with
      | nil => exact ⟨rfl, (List.cons.inj same).2⟩
      | cons other others =>
          rcases starts other with ⟨first, tail, spelled, differs⟩
          rw [List.flatMap_nil, List.flatMap_cons, spelled] at same
          exact absurd (List.cons.inj same).1.symm differs
  | cons item items ih =>
      cases others with
      | nil =>
          rcases starts item with ⟨first, tail, spelled, differs⟩
          rw [List.flatMap_nil, List.flatMap_cons, spelled] at same
          exact absurd (List.cons.inj same).1 differs
      | cons other others =>
          rw [List.flatMap_cons, List.flatMap_cons, List.append_assoc, List.append_assoc] at same
          rcases code item other _ _ same with ⟨rfl, sameRest⟩
          rcases ih sameRest with ⟨rfl, sameEnd⟩
          exact ⟨rfl, sameEnd⟩

theorem flatMap_injective (code : PrefixFree encode) (nonempty : ∀ item, encode item ≠ []) :
    Function.Injective fun items : List α => items.flatMap encode := by
  intro items others same
  induction items generalizing others with
  | nil =>
      cases others with
      | nil => rfl
      | cons other others => simp [nonempty other] at same
  | cons item items ih =>
      cases others with
      | nil => simp [nonempty item] at same
      | cons other others =>
          simp only [List.flatMap_cons] at same
          rcases code item other _ _ same with ⟨rfl, sameRest⟩
          rw [ih sameRest]

end PrefixFree

/-- A list ends where something stands that it does not contain. -/
theorem append_stop_inj {stop : β} {left right rest rest' : List β} (leftFree : stop ∉ left)
    (rightFree : stop ∉ right) (same : left ++ stop :: rest = right ++ stop :: rest') :
    left = right ∧ rest = rest' := by
  induction left generalizing right with
  | nil =>
      cases right with
      | nil => exact ⟨rfl, (List.cons.inj same).2⟩
      | cons other right =>
          exact absurd ((List.cons.inj same).1 ▸ List.mem_cons_self) rightFree
  | cons item left ih =>
      cases right with
      | nil => exact absurd ((List.cons.inj same).1 ▸ List.mem_cons_self) leftFree
      | cons other right =>
          rcases List.cons.inj same with ⟨rfl, sameTail⟩
          rcases ih (fun member => leftFree (List.mem_cons_of_mem _ member))
            (fun member => rightFree (List.mem_cons_of_mem _ member)) sameTail with ⟨rfl, sameRest⟩
          exact ⟨rfl, sameRest⟩

/-- Pieces of equal lengths stand at the same places of the lists they make up. -/
theorem flatMap_append_inj {related : α → γ → Prop} {left : List α} {right : List γ}
    {f : α → List β} {g : γ → List β} (matched : List.Forall₂ related left right)
    (lengths : ∀ item other, related item other → (f item).length = (g other).length)
    {rest rest' : List β} (same : left.flatMap f ++ rest = right.flatMap g ++ rest') :
    List.Forall₂ (fun item other => related item other ∧ f item = g other) left right ∧
      rest = rest' := by
  induction matched with
  | nil => exact ⟨.nil, same⟩
  | cons here later ih =>
      rw [List.flatMap_cons, List.flatMap_cons, List.append_assoc, List.append_assoc] at same
      rcases List.append_inj same (lengths _ _ here) with ⟨sameHere, sameLater⟩
      rcases ih sameLater with ⟨matchedLater, sameRest⟩
      exact ⟨.cons ⟨here, sameHere⟩ matchedLater, sameRest⟩

/-! ## Codes that end where something else begins -/

/-- An encoded item and what follows it can be told apart when what follows is of some kind. -/
def PrefixFreeBefore (follows : List β → Prop) (encode : α → List β) : Prop :=
  ∀ item other rest rest', follows rest → follows rest' →
    encode item ++ rest = encode other ++ rest' → item = other ∧ rest = rest'

/-- A list is empty or starts with an item outside a class. -/
def StartsOutside (accepts : β → Bool) (items : List β) : Prop :=
  ∀ first ∈ items.head?, accepts first = false

theorem startsOutside_nil (accepts : β → Bool) : StartsOutside accepts [] := by
  intro first member
  cases member

theorem startsOutside_cons {accepts : β → Bool} {first : β} (items : List β)
    (outside : accepts first = false) : StartsOutside accepts (first :: items) := by
  intro other member
  cases member
  exact outside

theorem StartsOutside.narrow {accepts wider : β → Bool} {items : List β}
    (ends : StartsOutside wider items) (narrow : ∀ item, accepts item = true → wider item = true) :
    StartsOutside accepts items := by
  intro first member
  rw [← Bool.not_eq_true]
  intro accepted
  have outside := ends first member
  rw [narrow first accepted] at outside
  cases outside

/-- Items of a class end where the first item outside it stands. -/
theorem append_span_inj {accepts : β → Bool} {left right rest rest' : List β}
    (leftIn : ∀ item ∈ left, accepts item = true) (rightIn : ∀ item ∈ right, accepts item = true)
    (ends : StartsOutside accepts rest) (ends' : StartsOutside accepts rest')
    (same : left ++ rest = right ++ rest') : left = right ∧ rest = rest' := by
  have differ : ∀ {item : β} {inside outside more : List β},
      (∀ other ∈ item :: inside, accepts other = true) → StartsOutside accepts outside →
        item :: more ≠ outside := by
    intro item inside outside more every ends same
    rw [← same] at ends
    have isOutside := ends item rfl
    rw [every item List.mem_cons_self] at isOutside
    cases isOutside
  induction left generalizing right with
  | nil =>
      cases right with
      | nil => exact ⟨rfl, same⟩
      | cons item right => exact absurd same.symm (differ rightIn ends)
  | cons item left ih =>
      cases right with
      | nil => exact absurd same (differ leftIn ends')
      | cons other right =>
          rcases List.cons.inj same with ⟨rfl, sameTail⟩
          rcases ih (fun member => leftIn member ∘ List.mem_cons_of_mem _)
            (fun member => rightIn member ∘ List.mem_cons_of_mem _) sameTail with ⟨rfl, sameRest⟩
          exact ⟨rfl, sameRest⟩

namespace PrefixFreeBefore

variable {encode : α → List β} {follows : List β → Prop}

theorem injective (code : PrefixFreeBefore follows encode) (atEnd : follows []) :
    Function.Injective encode := by
  intro item other same
  exact (code item other [] [] atEnd atEnd (by rw [same])).1

/-- A sequence of encoded items ends where no item can start. -/
theorem sequence (code : PrefixFreeBefore follows encode) {stops : List β → Prop}
    (starts : ∀ item rest, ¬stops (encode item ++ rest))
    (continues : ∀ item rest, follows (encode item ++ rest))
    (ends : ∀ rest, stops rest → follows rest) :
    PrefixFreeBefore stops (List.flatMap encode) := by
  intro items others rest rest' stop stop' same
  have next : ∀ (items : List α) {rest : List β}, stops rest →
      follows (items.flatMap encode ++ rest) := by
    intro items rest stop
    cases items with
    | nil => exact ends rest stop
    | cons item items =>
        rw [List.flatMap_cons, List.append_assoc]
        exact continues item _
  induction items generalizing others with
  | nil =>
      cases others with
      | nil => exact ⟨rfl, same⟩
      | cons other others =>
          rw [List.flatMap_nil, List.nil_append, List.flatMap_cons, List.append_assoc] at same
          rw [same] at stop
          exact absurd stop (starts other _)
  | cons item items ih =>
      cases others with
      | nil =>
          rw [List.flatMap_nil, List.nil_append, List.flatMap_cons, List.append_assoc] at same
          rw [← same] at stop'
          exact absurd stop' (starts item _)
      | cons other others =>
          rw [List.flatMap_cons, List.flatMap_cons, List.append_assoc, List.append_assoc] at same
          rcases code item other _ _ (next items stop) (next others stop') same with
            ⟨rfl, sameRest⟩
          rcases ih others sameRest with ⟨rfl, sameEnd⟩
          exact ⟨rfl, sameEnd⟩

end PrefixFreeBefore

/-! ## JSON string literals -/

namespace Text

/-- The digit that a character stands for in a JSON escape. -/
def hexValue (c : Char) : Nat := if c.isDigit then c.toNat - 48 else c.toNat - 87

theorem hexValue_digitChar : ∀ n < 16, hexValue n.digitChar = n := by decide

/-- Read one character of a JSON string literal. -/
def jsonUnescape : List Char → Option (Char × List Char)
  | '\\' :: 'b' :: rest => some (Char.ofNat 0x08, rest)
  | '\\' :: 't' :: rest => some (Char.ofNat 0x09, rest)
  | '\\' :: 'n' :: rest => some (Char.ofNat 0x0A, rest)
  | '\\' :: 'f' :: rest => some (Char.ofNat 0x0C, rest)
  | '\\' :: 'r' :: rest => some (Char.ofNat 0x0D, rest)
  | '\\' :: 'u' :: '0' :: '0' :: high :: low :: rest =>
      some (Char.ofNat (hexValue high * 16 + hexValue low), rest)
  | '\\' :: c :: rest => some (c, rest)
  | c :: rest => some (c, rest)
  | [] => none

theorem jsonUnescape_jsonEscape (c : Char) (rest : List Char) :
    jsonUnescape (jsonEscape c ++ rest) = some (c, rest) := by
  have named : ∀ n, c.toNat = n → Char.ofNat n = c := by
    intro n code
    rw [← code, Char.ofNat_toNat]
  rw [jsonEscape]
  split_ifs with quote backslash backspace tab newline formFeed carriage control
  · rw [quote]
    rfl
  · rw [backslash]
    rfl
  · rw [← named _ backspace]
    rfl
  · rw [← named _ tab]
    rfl
  · rw [← named _ newline]
    rfl
  · rw [← named _ formFeed]
    rfl
  · rw [← named _ carriage]
    rfl
  · have high := hexValue_digitChar (c.toNat / 16) (by omega)
    have low := hexValue_digitChar (c.toNat % 16) (by omega)
    have code : c.toNat / 16 * 16 + c.toNat % 16 = c.toNat := by omega
    simp only [List.cons_append, List.nil_append, jsonUnescape, high, low, code, Char.ofNat_toNat]
  · rw [List.singleton_append]
    simp [jsonUnescape, backslash]

theorem prefixFree_jsonEscape : PrefixFree jsonEscape := by
  intro c other rest rest' same
  have read := congrArg jsonUnescape same
  rw [jsonUnescape_jsonEscape, jsonUnescape_jsonEscape, Option.some.injEq, Prod.mk.injEq] at read
  exact read

theorem jsonEscape_start (c : Char) : ∃ first tail, jsonEscape c = first :: tail ∧ first ≠ '"' := by
  rw [jsonEscape]
  split_ifs with quote
  all_goals first
    | exact ⟨_, _, rfl, quote⟩
    | exact ⟨_, _, rfl, by decide⟩

/-- A literal ends at its closing quote. -/
theorem prefixFree_jsonQuote : PrefixFree fun s => (jsonQuote s).toList := by
  intro s other rest rest' same
  simp only [jsonQuote, String.toList_ofList, List.cons_append, List.append_assoc,
    List.nil_append, List.cons.injEq, true_and] at same
  rcases prefixFree_jsonEscape.terminated jsonEscape_start same with ⟨sameChars, sameRest⟩
  exact ⟨String.toList_inj.mp sameChars, sameRest⟩

theorem digitChar_ne_newline : ∀ n < 16, n.digitChar ≠ '\n' := by decide

theorem newline_notMem_jsonEscape (c : Char) : '\n' ∉ jsonEscape c := by
  rw [jsonEscape]
  split_ifs with quote backslash backspace tab newline formFeed carriage control
  iterate 7 exact of_decide_eq_true rfl
  · have high := (digitChar_ne_newline (c.toNat / 16) (by omega)).symm
    have low := (digitChar_ne_newline (c.toNat % 16) (by omega)).symm
    simp [high, low]
  · intro member
    rw [← List.mem_singleton.mp member] at newline
    exact newline rfl

theorem newline_notMem_jsonQuote (s : String) : '\n' ∉ (jsonQuote s).toList := by
  simp [jsonQuote, newline_notMem_jsonEscape]

end Text

end Foundation
