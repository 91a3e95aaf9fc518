import BelugaManager.Foundation.PrefixCode

/-!
# Codes that leave something out

Two items with the same text need not be the same if their texts leave something out.  What a text
does show of an item can be told from it, also where items are put one after the other.
-/

namespace Foundation

/-- What is shown of an item, and what follows it, can be told from the text when what follows is of
some kind. -/
def TellsApart {α β γ : Type*} (follows : List β → Prop) (encode : α → List β) (shown : α → γ) :
    Prop :=
  ∀ item other rest rest', follows rest → follows rest' →
    encode item ++ rest = encode other ++ rest' → shown item = shown other ∧ rest = rest'

/-- Items with a separator between each two of them: the first, and each other one behind a
separator. -/
theorem intercalate_map_cons {α β : Type*} (separator : List β) (encode : α → List β) (item : α)
    (items : List α) :
    separator.intercalate ((item :: items).map encode) =
      encode item ++ items.flatMap fun later => separator ++ encode later := by
  induction items generalizing item with
  | nil => rw [List.map_singleton, List.intercalate_singleton, List.flatMap_nil, List.append_nil]
  | cons later items ih =>
      rw [List.map_cons, List.map_cons, List.intercalate_cons_cons, ← List.map_cons, ih later,
        List.flatMap_cons]
      simp only [List.append_assoc]

namespace TellsApart

variable {α β γ δ ε : Type*} {encode : α → List β} {shown : α → γ} {follows stops : List β → Prop}

theorem shown_eq (code : TellsApart follows encode shown) (atEnd : follows []) {item other : α}
    (same : encode item = encode other) : shown item = shown other :=
  (code item other [] [] atEnd atEnd (by rw [same])).1

/-- A literal in front of every item. -/
theorem behind (code : TellsApart follows encode shown) (literal : List β) :
    TellsApart follows (fun item => literal ++ encode item) shown := by
  intro item other rest rest' ends ends' same
  rw [List.append_assoc, List.append_assoc] at same
  exact code item other rest rest' ends ends' (List.append_cancel_left same)

/-- Two items in a row. -/
theorem pair (code : TellsApart follows encode shown) {encodeNext : δ → List β} {shownNext : δ → ε}
    (next : TellsApart stops encodeNext shownNext)
    (meets : ∀ item rest, follows (encodeNext item ++ rest)) :
    TellsApart stops (fun both : α × δ => encode both.1 ++ encodeNext both.2)
      (fun both => (shown both.1, shownNext both.2)) := by
  intro both others rest rest' ends ends' same
  rw [List.append_assoc, List.append_assoc] at same
  rcases code both.1 others.1 _ _ (meets _ rest) (meets _ rest') same with ⟨sameFirst, sameRest⟩
  rcases next both.2 others.2 rest rest' ends ends' sameRest with ⟨sameSecond, sameEnd⟩
  exact ⟨Prod.ext sameFirst sameSecond, sameEnd⟩

/-- What follows an item is another item or the end. -/
theorem follows_flatMap (goesOn : ∀ item rest, follows (encode item ++ rest))
    (ends : ∀ rest, stops rest → follows rest) (items : List α) {rest : List β}
    (stop : stops rest) : follows (items.flatMap encode ++ rest) := by
  cases items with
  | nil => exact ends rest stop
  | cons item items =>
      rw [List.flatMap_cons, List.append_assoc]
      exact goesOn item _

/-- Any number of items in a row, which end where no item can start. -/
theorem sequence (code : TellsApart follows encode shown)
    (starts : ∀ item rest, ¬stops (encode item ++ rest))
    (goesOn : ∀ item rest, follows (encode item ++ rest))
    (ends : ∀ rest, stops rest → follows rest) :
    TellsApart stops (List.flatMap encode) (List.map shown) := by
  have next : ∀ (items : List α) {rest : List β}, stops rest →
      follows (items.flatMap encode ++ rest) :=
    fun items _ stop => follows_flatMap goesOn ends items stop
  intro items
  induction items with
  | nil =>
      intro others rest rest' stop stop' same
      cases others with
      | nil => exact ⟨rfl, same⟩
      | cons other others =>
          rw [List.flatMap_nil, List.nil_append, List.flatMap_cons, List.append_assoc] at same
          rw [same] at stop
          exact absurd stop (starts other _)
  | cons item items ih =>
      intro others rest rest' stop stop' same
      rw [List.flatMap_cons, List.append_assoc] at same
      cases others with
      | nil =>
          rw [List.flatMap_nil, List.nil_append] at same
          rw [← same] at stop'
          exact absurd stop' (starts item _)
      | cons other others =>
          rw [List.flatMap_cons, List.append_assoc] at same
          rcases code item other _ _ (next items stop) (next others stop') same with
            ⟨sameItem, sameRest⟩
          rcases ih others rest rest' stop stop' sameRest with ⟨sameItems, sameEnd⟩
          exact ⟨by rw [List.map_cons, List.map_cons, sameItem, sameItems], sameEnd⟩

/-- Items with a separator between each two of them. -/
theorem separated (code : TellsApart follows encode shown) {separator : List β}
    (starts : ∀ item rest, ¬stops (encode item ++ rest))
    (parts : ∀ rest, ¬stops (separator ++ rest)) (goesOn : ∀ rest, follows (separator ++ rest))
    (ends : ∀ rest, stops rest → follows rest) :
    TellsApart stops (fun items => separator.intercalate (items.map encode)) (List.map shown) := by
  have separates : ∀ item rest, follows (separator ++ encode item ++ rest) := by
    intro item rest
    rw [List.append_assoc]
    exact goesOn _
  have later : TellsApart stops (List.flatMap fun item => separator ++ encode item)
      (List.map shown) := by
    apply (code.behind separator).sequence
    · intro item rest
      rw [List.append_assoc]
      exact parts _
    · exact separates
    · exact ends
  have next : ∀ (items : List α) {rest : List β}, stops rest →
      follows (items.flatMap (fun item => separator ++ encode item) ++ rest) :=
    fun items _ stop => follows_flatMap separates ends items stop
  intro items others rest rest' stop stop' same
  beta_reduce at same
  cases items with
  | nil =>
      cases others with
      | nil => exact ⟨rfl, same⟩
      | cons other others =>
          rw [intercalate_map_cons, List.append_assoc, List.map_nil, List.intercalate_nil,
            List.nil_append] at same
          rw [same] at stop
          exact absurd stop (starts other _)
  | cons item items =>
      rw [intercalate_map_cons, List.append_assoc] at same
      cases others with
      | nil =>
          rw [List.map_nil, List.intercalate_nil, List.nil_append] at same
          rw [← same] at stop'
          exact absurd stop' (starts item _)
      | cons other others =>
          rw [intercalate_map_cons, List.append_assoc] at same
          rcases code item other _ _ (next items stop) (next others stop') same with
            ⟨sameItem, sameRest⟩
          rcases later items others rest rest' stop stop' sameRest with ⟨sameItems, sameEnd⟩
          exact ⟨by rw [List.map_cons, List.map_cons, sameItem, sameItems], sameEnd⟩

end TellsApart

end Foundation
