import BelugaManager.Foundation.Text

/-!
# Splitting at a separator of several items

Occurrences of the separator are found from left to right and do not overlap.
-/

namespace Foundation

variable {α : Type*} [DecidableEq α]

/-- The first `skipped` items are the rest of a separator. -/
def splitFrom (separator : List α) : Nat → List α → List (List α)
  | _, [] => [[]]
  | 0, item :: rest =>
      if separator.isPrefixOf (item :: rest) then
        [] :: splitFrom separator (separator.length - 1) rest
      else (splitFrom separator 0 rest).modifyHead (item :: ·)
  | skipped + 1, _ :: rest => splitFrom separator skipped rest

/-- `items.split(separator)` -/
def splitAll (separator items : List α) : List (List α) := splitFrom separator 0 items

/-- `items.includes(pattern)` -/
def includes (pattern : List α) : List α → Bool
  | [] => pattern.isEmpty
  | item :: rest => pattern.isPrefixOf (item :: rest) || includes pattern rest

theorem splitFrom_append (separator skipped rest : List α) :
    splitFrom separator skipped.length (skipped ++ rest) = splitAll separator rest := by
  induction skipped with
  | nil => rfl
  | cons item skipped ih => exact ih

theorem splitFrom_ne_nil (separator : List α) (skipped : Nat) (items : List α) :
    splitFrom separator skipped items ≠ [] := by
  induction items generalizing skipped with
  | nil => cases skipped <;> exact List.cons_ne_nil _ _
  | cons item rest ih =>
      cases skipped with
      | zero =>
          rw [splitFrom]
          split
          next => exact List.cons_ne_nil _ _
          next =>
            intro empty
            exact ih 0 (by simpa using empty)
      | succ skipped => exact ih skipped

/-- An item that starts no separator belongs to the first piece. -/
theorem splitAll_cons {separator : List α} {item : α} {rest : List α}
    (differs : ¬separator <+: item :: rest) :
    splitAll separator (item :: rest) = (splitAll separator rest).modifyHead (item :: ·) := by
  rw [splitAll, splitFrom, if_neg (by rwa [List.isPrefixOf_iff_prefix])]
  rfl

/-- So do items that differ from the first of the separator. -/
theorem splitAll_append {first : α} {separator code : List α} (free : first ∉ code)
    (rest : List α) : splitAll (first :: separator) (code ++ rest) =
      (splitAll (first :: separator) rest).modifyHead (code ++ ·) := by
  induction code with
  | nil =>
      rw [List.nil_append]
      cases splitAll (first :: separator) rest with
      | nil => rfl
      | cons piece pieces => rfl
  | cons item code ih =>
      rw [List.mem_cons, not_or] at free
      have differs : ¬first :: separator <+: item :: (code ++ rest) := by
        intro starts
        exact free.1 (List.cons_prefix_cons.mp starts).1
      rw [List.cons_append, splitAll_cons differs, ih free.2]
      cases splitAll (first :: separator) rest with
      | nil => rfl
      | cons piece pieces => rfl

/-- A separator ends a piece. -/
theorem splitAll_separator (first : α) (separator rest : List α) :
    splitAll (first :: separator) (first :: (separator ++ rest)) =
      [] :: splitAll (first :: separator) rest := by
  have starts : (first :: separator).isPrefixOf (first :: (separator ++ rest)) = true := by
    rw [List.isPrefixOf_iff_prefix]
    exact ⟨rest, rfl⟩
  rw [splitAll, splitFrom, if_pos starts]
  exact congrArg ([] :: ·) (splitFrom_append (first :: separator) separator rest)

/-- A separator occurs where there is more than one piece. -/
theorem includes_iff (first : α) (separator items : List α) :
    includes (first :: separator) items = true ↔
      1 < (splitAll (first :: separator) items).length := by
  induction items with
  | nil => simp [includes, splitAll, splitFrom]
  | cons item rest ih =>
      rw [includes, Bool.or_eq_true, List.isPrefixOf_iff_prefix, ih]
      by_cases starts : first :: separator <+: item :: rest
      · rcases starts with ⟨after, same⟩
        rw [← same, List.cons_append, splitAll_separator]
        have more := List.length_pos_of_ne_nil (splitFrom_ne_nil (first :: separator) 0 after)
        refine iff_of_true (Or.inl ⟨after, rfl⟩) ?_
        rw [List.length_cons]
        exact Nat.succ_lt_succ more
      · rw [splitAll_cons starts, List.length_modifyHead, or_iff_right starts]

end Foundation
