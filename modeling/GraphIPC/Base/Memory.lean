-- SUMMARY: Blocks of memory as lists of cells, and stores of a run of cells at an offset.
import Mathlib.Data.List.Basic

/-!
# Blocks of memory

A block that `malloc` or an array declaration hands out is the list of its
cells. Copying a run of cells into it (`memcpy`, `memmove`, the buffer argument
of `read`) is `store`; the run is taken out of its source first, so the two
regions may overlap.
-/

namespace Memory

variable {α : Type*}

/-- The block after the cells `data` were copied to `offset`. -/
def store (block : List α) (offset : Nat) (data : List α) : List α :=
  block.take offset ++ data ++ block.drop (offset + data.length)

@[simp] theorem store_nil (block : List α) (offset : Nat) : store block offset [] = block := by
  simp [store]

/-- A store that fits leaves the size of the block alone. -/
theorem length_store {block data : List α} {offset : Nat}
    (h : offset + data.length ≤ block.length) :
    (store block offset data).length = block.length := by
  simp only [store, List.length_append, List.length_take, List.length_drop]
  omega

/-- What lies in front of the end of a store: the old cells, then the new. -/
theorem take_store {block data : List α} {offset : Nat} (h : offset ≤ block.length) :
    (store block offset data).take (offset + data.length) = block.take offset ++ data := by
  have hlen : (block.take offset ++ data).length = offset + data.length := by
    simp [Nat.min_eq_left h]
  rw [store, ← hlen, List.take_left]

/-- What lies behind the end of a store is untouched. -/
theorem drop_store {block data : List α} {offset : Nat} (h : offset ≤ block.length) :
    (store block offset data).drop (offset + data.length) =
      block.drop (offset + data.length) := by
  have hlen : (block.take offset ++ data).length = offset + data.length := by
    simp [Nat.min_eq_left h]
  rw [store, ← hlen, List.drop_left]

/-- Two stores one behind the other are one store. -/
theorem store_store {block : List α} {offset : Nat} (h : offset ≤ block.length)
    (xs ys : List α) :
    store (store block offset xs) (offset + xs.length) ys = store block offset (xs ++ ys) := by
  rw [store, take_store h, ← List.drop_drop, drop_store h, List.drop_drop]
  simp [store, Nat.add_assoc]

/-- A store over the whole block leaves nothing of it. -/
theorem store_all {block data : List α} (h : data.length = block.length) :
    store block 0 data = data := by
  simp [store, h]

end Memory
