import Mathlib.Algebra.Order.Ring.Int

/-!
# Streams that are read up to a limit

A stream delivers chunks until it ends or fails.  A reader keeps the chunks, counts what they hold
and gives up on a stream that holds more than it may.
-/

namespace Foundation

inductive StreamEvent (Byte Failure : Type*) where
  | chunk (bytes : List Byte)
  | done
  | failed (failure : Failure)

/-- The chunks that a reader keeps, and the number of their bytes. -/
structure ChunkReader (Byte : Type*) where
  chunks : List (List Byte)
  total : ℕ

/-- What becomes of a read. -/
inductive CappedRead (Byte Failure : Type*) where
  | reading (reader : ChunkReader Byte)
  | complete (bytes : List Byte)
  | tooLarge
  | failed (failure : Failure)

namespace ChunkReader

variable {Byte Failure : Type*}

def empty : ChunkReader Byte := ⟨[], 0⟩

/-- What a reader does with the next event of its stream. -/
def next (limit : ℤ) (reader : ChunkReader Byte) :
    StreamEvent Byte Failure → CappedRead Byte Failure
  | .chunk bytes =>
      let total := reader.total + bytes.length
      if limit < total then .tooLarge else .reading ⟨reader.chunks ++ [bytes], total⟩
  | .done => .complete reader.chunks.flatten
  | .failed failure => .failed failure

/-- A reader of these chunks, none of which was too much. -/
structure Holds (limit : ℤ) (chunks : List (List Byte)) (reader : ChunkReader Byte) : Prop where
  kept : reader.chunks = chunks
  counted : reader.total = chunks.flatten.length
  within : chunks ≠ [] → (chunks.flatten.length : ℤ) ≤ limit

variable {limit : ℤ} {chunks : List (List Byte)} {reader : ChunkReader Byte}

theorem Holds.empty : Holds limit [] (.empty : ChunkReader Byte) where
  kept := rfl
  counted := rfl
  within := fun nonempty => absurd rfl nonempty

/-- What a reader holds is within its limit. -/
theorem Holds.total_le (holds : Holds limit chunks reader) : (reader.total : ℤ) ≤ max 0 limit := by
  rw [holds.counted]
  by_cases nonempty : chunks = []
  · rw [nonempty]
    exact le_max_left 0 limit
  · exact le_trans (holds.within nonempty) (le_max_right 0 limit)

theorem length_flatten_concat (chunks : List (List Byte)) (bytes : List Byte) :
    (chunks ++ [bytes]).flatten.length = chunks.flatten.length + bytes.length := by
  rw [List.flatten_append, List.length_append, List.flatten_singleton]

/-- A chunk is kept exactly when everything is still within the limit. -/
theorem Holds.chunk (holds : Holds limit chunks reader) (bytes : List Byte) :
    (((chunks ++ [bytes]).flatten.length : ℤ) ≤ limit ∧
      ∃ longer, Holds limit (chunks ++ [bytes]) longer ∧
        reader.next limit (.chunk bytes : StreamEvent Byte Failure) = .reading longer) ∨
    (limit < (chunks ++ [bytes]).flatten.length ∧
      reader.next limit (.chunk bytes : StreamEvent Byte Failure) = .tooLarge) := by
  have counted : reader.total + bytes.length = (chunks ++ [bytes]).flatten.length := by
    rw [length_flatten_concat, holds.counted]
  rw [next, counted]
  by_cases exceeds : limit < ((chunks ++ [bytes]).flatten.length : ℤ)
  · exact Or.inr ⟨exceeds, if_pos exceeds⟩
  · refine Or.inl ⟨not_lt.mp exceeds, _, ?_, if_neg exceeds⟩
    constructor
    · exact congrArg (· ++ [bytes]) holds.kept
    · rfl
    · exact fun _ => not_lt.mp exceeds

theorem Holds.next_done (holds : Holds limit chunks reader) :
    reader.next limit (.done : StreamEvent Byte Failure) = .complete chunks.flatten := by
  rw [next, holds.kept]

end ChunkReader

end Foundation
