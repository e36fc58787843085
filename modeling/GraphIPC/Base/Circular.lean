-- SUMMARY: A queue held in a block that is used in a circle, and what copying in and out of the block does to it.
import GraphIPC.Base.Memory
import Mathlib.Data.List.Rotate

/-!
# Circular blocks

A queue of `len` cells may start at any cell `tail` of a block and go on at the
first cell behind the last. Seen through the rotation of the block that brings
`tail` to the front, it lies at the front, and the cells behind it are free. A copy
in or out that crosses the end of the block is made in two pieces.
-/

namespace Circular

variable {α : Type*} {block : List α} {tail : Nat}

/-- The queue of `len` cells that starts at `tail`. -/
def contents (block : List α) (tail len : Nat) : List α := (block.rotate tail).take len

theorem length_contents {len : Nat} (h : len ≤ block.length) :
    (contents block tail len).length = len := by
  simp [contents, h]

/-- A single cell of the queue. -/
theorem getElem?_contents {len i : Nat} (hi : i < len) (h : len ≤ block.length) :
    (contents block tail len)[i]? = block[(tail + i) % block.length]? := by
  rw [contents, List.getElem?_take_of_lt hi, List.getElem?_rotate (by omega), Nat.add_comm]

/-- A copy out of the block that does not reach its end. -/
theorem take_contents_of_le {len n : Nat} (htail : tail ≤ block.length) (hn : n ≤ len)
    (h : n ≤ block.length - tail) :
    (contents block tail len).take n = (block.drop tail).take n := by
  rw [contents, List.take_take, Nat.min_eq_left hn, List.rotate_eq_drop_append_take htail,
    List.take_append_of_le_length (by rw [List.length_drop]; exact h)]

/-- A copy out of the block that goes on at its front. -/
theorem take_contents_of_ge {len n : Nat} (htail : tail ≤ block.length) (hn : n ≤ len)
    (h : block.length - tail ≤ n) (hle : n ≤ block.length) :
    (contents block tail len).take n =
      block.drop tail ++ block.take (n - (block.length - tail)) := by
  have hfront : n - (block.length - tail) ≤ tail := by omega
  rw [contents, List.take_take, Nat.min_eq_left hn, List.rotate_eq_drop_append_take htail,
    List.take_append, List.take_of_length_le (by rw [List.length_drop]; exact h),
    List.length_drop, List.take_take, Nat.min_eq_left hfront]

/-- The queue without its first `k` cells starts `k` cells further on. -/
theorem contents_advance {len k : Nat} (hk : k ≤ len) (hle : len ≤ block.length) :
    contents block ((tail + k) % block.length) (len - k) = (contents block tail len).drop k := by
  have hlen : k ≤ (block.rotate tail).length := by
    rw [List.length_rotate]
    omega
  rw [contents, contents, List.rotate_mod, ← List.rotate_rotate,
    List.rotate_eq_drop_append_take hlen, List.drop_take]
  apply List.take_append_of_le_length
  rw [List.length_drop, List.length_rotate]
  omega

/-- A store at or behind `tail`, seen through the rotation. -/
theorem rotate_store_of_ge {data : List α} {offset : Nat} (htail : tail ≤ offset)
    (h : offset + data.length ≤ block.length) :
    (Memory.store block offset data).rotate tail =
      Memory.store (block.rotate tail) (offset - tail) data := by
  have hlen : (Memory.store block offset data).length = block.length := Memory.length_store h
  have hmin : min offset block.length = offset := by omega
  have hfront : (block.take offset).length = offset := by rw [List.length_take, hmin]
  have hback : offset - tail ≤ (block.drop tail).length := by
    rw [List.length_drop]
    omega
  have hrest : offset - tail + data.length ≤ (block.drop tail).length := by
    rw [List.length_drop]
    omega
  have hdrop : tail + (offset - tail + data.length) = offset + data.length := by omega
  rw [List.rotate_eq_drop_append_take (by omega), List.rotate_eq_drop_append_take (by omega)]
  simp only [Memory.store, List.append_assoc]
  rw [List.drop_append_of_le_length (by omega), List.take_append_of_le_length (by omega),
    List.take_append_of_le_length hback, List.drop_append_of_le_length hrest, List.drop_drop,
    hdrop, List.take_take, Nat.min_eq_left htail, List.drop_take]
  simp only [List.append_assoc]

/-- A store in front of `tail`, seen through the rotation. -/
theorem rotate_store_of_le {data : List α} {offset : Nat} (htail : tail ≤ block.length)
    (h : offset + data.length ≤ tail) :
    (Memory.store block offset data).rotate tail =
      Memory.store (block.rotate tail) (block.length - tail + offset) data := by
  have hlen : (Memory.store block offset data).length = block.length :=
    Memory.length_store (by omega)
  obtain ⟨gap, rfl⟩ : ∃ gap, tail = offset + data.length + gap := ⟨_, (Nat.add_sub_of_le h).symm⟩
  have hoffset : offset ≤ block.length := by omega
  -- the block from `tail` on is not touched, and the store lies in front of it
  have hback : (Memory.store block offset data).drop (offset + data.length + gap) =
      block.drop (offset + data.length + gap) := by
    rw [← List.drop_drop, Memory.drop_store hoffset, List.drop_drop]
  have hfront : (Memory.store block offset data).take (offset + data.length + gap) =
      block.take offset ++ data ++ (block.drop (offset + data.length)).take gap := by
    rw [List.take_add, Memory.take_store hoffset, Memory.drop_store hoffset]
  have hpiece : (block.drop (offset + data.length + gap)).length =
      block.length - (offset + data.length + gap) := List.length_drop
  have htake : (block.take (offset + data.length + gap)).take offset = block.take offset := by
    rw [List.take_take, Nat.min_eq_left (by omega)]
  have hdrop : (block.take (offset + data.length + gap)).drop (offset + data.length) =
      (block.drop (offset + data.length)).take gap := by
    rw [List.drop_take, Nat.add_sub_cancel_left]
  rw [List.rotate_eq_drop_append_take (by omega), List.rotate_eq_drop_append_take htail, hback,
    hfront, Memory.store, ← hpiece, List.take_length_add_append, Nat.add_assoc (List.length _),
    List.drop_length_add_append, htake, hdrop]
  simp only [List.append_assoc]

/-- Cells copied behind the queue. -/
theorem contents_store_of_ge {data : List α} {len : Nat}
    (h : tail + len + data.length ≤ block.length) :
    contents (Memory.store block (tail + len) data) tail (len + data.length) =
      contents block tail len ++ data := by
  have hlen : len ≤ (block.rotate tail).length := by
    rw [List.length_rotate]
    omega
  rw [contents, rotate_store_of_ge (Nat.le_add_right ..) h, Nat.add_sub_cancel_left,
    Memory.take_store hlen]
  rfl

/-- Cells copied behind a queue that goes on at the front of the block. -/
theorem contents_store_of_le {data : List α} {len offset : Nat} (htail : tail ≤ block.length)
    (h : offset + data.length ≤ tail) (hoffset : len = block.length - tail + offset) :
    contents (Memory.store block offset data) tail (len + data.length) =
      contents block tail len ++ data := by
  have hlen : len ≤ (block.rotate tail).length := by
    rw [List.length_rotate]
    omega
  rw [contents, rotate_store_of_le htail h, ← hoffset, Memory.take_store hlen]
  rfl

end Circular
