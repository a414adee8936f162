import Mathlib.Algebra.Group.Nat.Defs
import Mathlib.Data.List.GetD
import Mathlib.Tactic.Common
import Landmark.Memory.Buffer

/-!
# Stretches of a buffer

A stretch that lies in the address space has the addresses one counts on: they do not wrap around
(`toNat_add_ofNat`). A buffer gives the stretches that lie inside it (`Buffer.slice_eq_some_iff`),
and of each the bytes at its addresses (`Buffer.slice_content`); a stretch is cut in two anywhere
(`Buffer.slice_add`).
-/

namespace Landmark

theorem toNat_add_ofNat {address : UInt64} {i : Nat} (h : address.toNat + i < 2 ^ 64) :
    (address + UInt64.ofNat i).toNat = address.toNat + i := by
  rw [UInt64.toNat_add, UInt64.toNat_ofNat']
  omega

/-- An address is as far behind one below it as their numbers are apart. -/
theorem add_ofNat_sub {first address : UInt64} (h : first ≤ address) :
    first + UInt64.ofNat (address.toNat - first.toNat) = address := by
  have hle := UInt64.le_iff_toNat_le.1 h
  have := address.toNat_lt
  rw [← UInt64.toNat_inj, toNat_add_ofNat (by omega)]
  omega

namespace Buffer

variable {buffer : Buffer} {address : UInt64} {size : Nat} {bytes : List UInt8}

theorem slice_eq_some_iff : buffer.slice address size = some bytes
    ↔ (buffer.base ≤ address
        ∧ address.toNat - buffer.base.toNat + size ≤ buffer.bytes.length)
      ∧ bytes = (buffer.bytes.drop (address.toNat - buffer.base.toNat)).take size := by
  unfold slice
  split_ifs with h
  · simp [h, eq_comm]
  · simp [h]

/-- A stretch of a buffer is its first part and then its second part. -/
theorem slice_add {n m : Nat} (hroom : address.toNat + n < 2 ^ 64)
    (h : buffer.slice address (n + m) = some bytes) :
    ∃ front back, buffer.slice address n = some front
      ∧ buffer.slice (address + UInt64.ofNat n) m = some back
      ∧ bytes = front ++ back := by
  obtain ⟨⟨hbase, hend⟩, rfl⟩ := slice_eq_some_iff.1 h
  have hnext := toNat_add_ofNat hroom
  have hle := UInt64.le_iff_toNat_le.1 hbase
  refine ⟨_, _, slice_eq_some_iff.2 ⟨⟨hbase, by omega⟩, rfl⟩,
    slice_eq_some_iff.2 ⟨⟨UInt64.le_iff_toNat_le.2 (by omega), by omega⟩, rfl⟩, ?_⟩
  rw [List.take_add, List.drop_drop, hnext]
  congr 3
  omega

/-- The byte of a buffer at an address. -/
def content (buffer : Buffer) (address : UInt64) : UInt8 :=
  buffer.bytes.getD (address.toNat - buffer.base.toNat) 0

/-- A stretch inside a buffer and the address space has the bytes at its addresses. -/
theorem slice_content (hbase : buffer.base ≤ address)
    (hend : address.toNat + size ≤ buffer.base.toNat + buffer.bytes.length)
    (hfits : address.toNat + size ≤ 2 ^ 64) :
    buffer.slice address size
      = some ((List.range size).map fun i => buffer.content (address + UInt64.ofNat i)) := by
  have hle := UInt64.le_iff_toNat_le.1 hbase
  refine slice_eq_some_iff.2 ⟨⟨hbase, by omega⟩, ?_⟩
  refine List.ext_getElem (by simp; omega) fun i hi _ => ?_
  have hlt : i < size := by simpa using hi
  have hat : (address + UInt64.ofNat i).toNat - buffer.base.toNat
      = address.toNat - buffer.base.toNat + i := by
    rw [toNat_add_ofNat (by omega)]
    omega
  rw [List.getElem_map, List.getElem_range, content, hat, List.getElem_take, List.getElem_drop,
    List.getD_eq_getElem _ _ (by omega)]

end Buffer

end Landmark
