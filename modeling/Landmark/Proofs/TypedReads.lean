import Mathlib.Data.Nat.Digits.Defs
import Mathlib.Tactic.Common
import Landmark.Proofs.Operations
import Landmark.Proofs.Stretches

/-!
# Typed reads

A typed read asks the memory once, for as many bytes as its value has, and reads the value off the
first of the bytes that come back; it fails if there are too few of them (`valueAt_eq_ok_iff`,
`valueAt_eq_error_iff`). The value of some bytes is the number with these digits in radix 256
(`littleEndian_eq_ofDigits`), so in a buffer a value and the one right behind it are the lower and
the upper half of the value of twice the width (`valueAt_halves`).
-/

namespace Landmark

namespace Memory

variable {σ : Type} {memory : Memory} {address : UInt64} {size : Nat}

/-! ## The value of bytes -/

theorem littleEndian_eq_ofDigits : ∀ bytes : List UInt8,
    littleEndian bytes = Nat.ofDigits 256 (bytes.map UInt8.toNat)
  | [] => rfl
  | byte :: bytes => by
    rw [littleEndian, littleEndian_eq_ofDigits bytes, List.map_cons, Nat.ofDigits_cons]

theorem littleEndian_append (front back : List UInt8) :
    littleEndian (front ++ back)
      = littleEndian front + 2 ^ (8 * front.length) * littleEndian back := by
  simp only [littleEndian_eq_ofDigits, List.map_append, Nat.ofDigits_append, List.length_map,
    Nat.pow_mul, Nat.reducePow]

/-- The number that the first bytes of what was read stand for, if there are enough of them. -/
def Makes (size : Nat) (bytes : List UInt8) (value : Nat) : Prop :=
  size ≤ bytes.length ∧ value = Nat.ofDigits 256 ((bytes.take size).map UInt8.toNat)

theorem decode_eq_ok_iff {bytes : List UInt8} {value : Nat} :
    decode address size bytes = .ok value ↔ Makes size bytes value := by
  unfold decode Makes
  rw [← littleEndian_eq_ofDigits]
  split_ifs with hshort
  · simp [hshort]
  · simp [Nat.le_of_not_lt hshort, eq_comm]

theorem decode_eq_error_iff {bytes : List UInt8} {e : Error} :
    decode address size bytes = .error e
      ↔ bytes.length < size ∧ e = .readFailed address (.short size bytes.length) := by
  unfold decode
  split_ifs with hshort
  · simp [hshort, eq_comm]
  · simp [hshort]

/-- A value of so many bytes fits into as many. -/
theorem Makes.lt {bytes : List UInt8} {value : Nat} (h : Makes size bytes value) :
    value < 2 ^ (8 * size) := by
  have hlt := littleEndian_lt (bytes.take size)
  rwa [littleEndian_eq_ofDigits, ← h.2, List.length_take, Nat.min_eq_left h.1,
    show 256 = 2 ^ 8 from rfl, ← Nat.pow_mul] at hlt

/-! ## Reads -/

/-- What a read of a value comes to. -/
def valueAt (memory : Memory) (address : UInt64) (size : Nat) : Except Error Nat := do
  decode address size (← memory.read address size)

/-- The trail behind a read. -/
def asked (address : UInt64) (size : Nat) (s : Trail σ) : Trail σ :=
  ⟨s.state, .read address size :: s.log⟩

theorem valueAt_eq_ok_iff {value : Nat} : memory.valueAt address size = .ok value
    ↔ ∃ bytes, memory.read address size = .ok bytes ∧ Makes size bytes value := by
  unfold valueAt
  cases memory.read address size with
  | error e => exact iff_of_false nofun nofun
  | ok bytes => simp [← @decode_eq_ok_iff address, bind, Except.bind]

theorem valueAt_eq_error_iff {e : Error} : memory.valueAt address size = .error e
    ↔ memory.read address size = .error e
      ∨ ∃ bytes, memory.read address size = .ok bytes ∧ bytes.length < size
        ∧ e = .readFailed address (.short size bytes.length) := by
  unfold valueAt
  cases memory.read address size with
  | error e => simp [bind, Except.bind]
  | ok bytes => simp [← decode_eq_error_iff, bind, Except.bind]

theorem readUnsigned_eq (memory : Memory) (address : UInt64) (size : Nat) (s : Trail σ) :
    memory.readUnsigned size address s
      = Task.ofExcept (memory.valueAt address size) (asked address size s) := by
  have hread : memory.readBytes address size s
      = Task.ofExcept (memory.read address size) (asked address size s) := rfl
  rw [readUnsigned, valueAt]
  rcases hresult : memory.read address size with e | bytes <;> rw [hresult] at hread
  · exact Task.bind_error hread
  · exact Task.bind_ok hread

/-- A signed value is the two's complement reading of the same bytes. -/
theorem readSigned_eq (memory : Memory) (address : UInt64) (size : Nat) (s : Trail σ) :
    memory.readSigned size address s
      = Task.ofExcept ((memory.valueAt address size).map
          fun value => (BitVec.ofNat (8 * size) value).toInt) (asked address size s) := by
  have hread := readUnsigned_eq memory address size s
  rw [readSigned]
  simp only [BitVec.toInt_ofNat', Nat.one_shiftLeft]
  rcases hresult : memory.valueAt address size with e | value <;> rw [hresult] at hread
  · exact Task.bind_error hread
  · exact Task.bind_ok hread

/-- A pointer is the unsigned value of its width, and without a supported width nothing is read. -/
theorem readPointer_eq (memory : Memory) (address : UInt64) (s : Trail σ) :
    memory.readPointer address s
      = if memory.pointerWidth = 4 ∨ memory.pointerWidth = 8 then
          Task.ofExcept ((memory.valueAt address memory.pointerWidth).map UInt64.ofNat)
            (asked address memory.pointerWidth s)
        else
          Task.ofExcept (.error (.readFailed address (.pointerWidth memory.pointerWidth))) s := by
  have hread := readUnsigned_eq memory address memory.pointerWidth s
  rw [readPointer, pointerSize]
  split_ifs with hwidth
  · refine (Task.bind_ok rfl).trans ?_
    rcases hresult : memory.valueAt address memory.pointerWidth with e | value <;>
      rw [hresult] at hread
    · exact Task.bind_error hread
    · exact Task.bind_ok hread
  · exact Task.bind_error rfl

theorem readSigned_eq_ok_iff {s : Trail σ} {value : Int} :
    (memory.readSigned size address).answer s = .ok value
      ↔ ∃ n, memory.valueAt address size = .ok n ∧ value = (BitVec.ofNat (8 * size) n).toInt := by
  rw [Task.answer_of_eq (readSigned_eq memory address size s)]
  cases memory.valueAt address size <;> simp [Except.map, eq_comm]

theorem readSigned_eq_error_iff {s : Trail σ} {e : Error} :
    (memory.readSigned size address).answer s = .error e
      ↔ memory.valueAt address size = .error e := by
  rw [Task.answer_of_eq (readSigned_eq memory address size s)]
  cases memory.valueAt address size <;> simp [Except.map]

theorem lt_of_valueAt {value : Nat} (h : memory.valueAt address size = .ok value) :
    value < 2 ^ (8 * size) := by
  obtain ⟨_, -, hmakes⟩ := valueAt_eq_ok_iff.1 h
  exact hmakes.lt

/-- Nothing of a value of up to eight bytes is lost when it is taken for an address. -/
theorem map_valueAt_eq_ok_iff (hsize : size ≤ 8) {pointer : UInt64} :
    (memory.valueAt address size).map UInt64.ofNat = .ok pointer
      ↔ memory.valueAt address size = .ok pointer.toNat := by
  rcases hvalue : memory.valueAt address size with e | value
  · simp [Except.map]
  · have hlt : value < 2 ^ 64 := Nat.lt_of_lt_of_le (lt_of_valueAt hvalue)
      (Nat.pow_le_pow_right (by omega) (by omega))
    simp only [Except.map, Except.ok.injEq, ← UInt64.toNat_inj, UInt64.toNat_ofNat',
      Nat.mod_eq_of_lt hlt]

/-! ## Reads from a buffer -/

/-- The memory gives the stretches of a buffer and nothing else. -/
def BackedBy (memory : Memory) (buffer : Buffer) : Prop :=
  ∀ address size bytes,
    memory.read address size = .ok bytes ↔ buffer.slice address size = some bytes

theorem backedBy_memory (buffer : Buffer) (width : Nat) :
    BackedBy { buffer.memory with pointerWidth := width } buffer := by
  intro address size bytes
  simp only [Buffer.memory]
  cases buffer.slice address size <;> simp

/-- The value of twice a width is made of the two values of that width that lie there. -/
theorem valueAt_halves {buffer : Buffer} (hbuffer : memory.BackedBy buffer) {half value : Nat}
    (hroom : address.toNat + half < 2 ^ 64) (h : memory.valueAt address (2 * half) = .ok value) :
    ∃ low high, memory.valueAt address half = .ok low
      ∧ memory.valueAt (address + UInt64.ofNat half) half = .ok high
      ∧ value = low + 2 ^ (8 * half) * high := by
  obtain ⟨bytes, hread, hmakes⟩ := valueAt_eq_ok_iff.1 h
  have hslice := (hbuffer _ _ _).1 hread
  rw [Nat.two_mul] at hslice
  obtain ⟨front, back, hfront, hback, rfl⟩ := Buffer.slice_add hroom hslice
  have hlength {address : UInt64} {bytes : List UInt8}
      (hslice : buffer.slice address half = some bytes) : bytes.length = half := by
    obtain ⟨hinside, rfl⟩ := Buffer.slice_eq_some_iff.1 hslice
    rw [List.length_take, List.length_drop]
    omega
  have hvalue {address : UInt64} {bytes : List UInt8}
      (hslice : buffer.slice address half = some bytes) :
      memory.valueAt address half = .ok (littleEndian bytes) := by
    refine valueAt_eq_ok_iff.2 ⟨bytes, (hbuffer _ _ _).2 hslice, (hlength hslice).ge, ?_⟩
    rw [littleEndian_eq_ofDigits, List.take_of_length_le (hlength hslice).le]
  refine ⟨_, _, hvalue hfront, hvalue hback, ?_⟩
  have hwhole : (front ++ back).length ≤ 2 * half := by
    rw [List.length_append, hlength hfront, hlength hback, Nat.two_mul]
  rw [hmakes.2, List.take_of_length_le hwhole, ← littleEndian_eq_ofDigits, littleEndian_append,
    hlength hfront]

/-- A typed read asks for the bytes of its value once and fails if that fails or gives too few of
them. Else its value is the little-endian number of the first bytes, which fits its width, or the
two's complement reading of that. In a buffer a value of twice a width is made of the two values of
that width that lie there. A pointer is the unsigned value of four or eight bytes, and one of
another width is not read at all. -/
theorem typed_reads (memory : Memory) (address : UInt64) (s : Trail σ) :
    (∀ size,
      let unsigned : Task σ Nat := memory.readUnsigned size address
      let signed : Task σ Int := memory.readSigned size address
      let Comes (value : Nat) :=
        ∃ bytes, memory.read address size = .ok bytes ∧ Makes size bytes value
      let Fails (e : Error) := memory.read address size = .error e
        ∨ ∃ bytes, memory.read address size = .ok bytes ∧ bytes.length < size
          ∧ e = .readFailed address (.short size bytes.length)
      (∀ value, unsigned.answer s = .ok value ↔ Comes value)
        ∧ (∀ value, signed.answer s = .ok value
          ↔ ∃ n, Comes n ∧ n < 2 ^ (8 * size) ∧ value = (BitVec.ofNat (8 * size) n).toInt)
        ∧ (∀ e, unsigned.answer s = .error e ↔ Fails e)
        ∧ (∀ e, signed.answer s = .error e ↔ Fails e)
        ∧ unsigned.final s = asked address size s ∧ signed.final s = asked address size s)
    ∧ (∀ buffer half value, memory.BackedBy buffer → address.toNat + half < 2 ^ 64 →
        (memory.readUnsigned (2 * half) address).answer s = .ok value →
        ∃ low high, (memory.readUnsigned half address).answer s = .ok low
          ∧ (memory.readUnsigned half (address + UInt64.ofNat half)).answer s = .ok high
          ∧ value = low + 2 ^ (8 * half) * high)
    ∧ (∀ width, (width = 4 ∨ width = 8) → memory.pointerWidth = width →
        (∀ pointer : UInt64, (memory.readPointer address).answer s = .ok pointer
          ↔ (memory.readUnsigned width address).answer s = .ok pointer.toNat)
        ∧ (∀ e, (memory.readPointer address).answer s = .error e
          ↔ (memory.readUnsigned width address).answer s = .error e)
        ∧ (memory.readPointer address).final s = asked address width s)
    ∧ (¬ (memory.pointerWidth = 4 ∨ memory.pointerWidth = 8) →
        (memory.readPointer address).answer s
            = .error (.readFailed address (.pointerWidth memory.pointerWidth))
          ∧ (memory.readPointer address).final s = s) := by
  have hanswer (address : UInt64) (size : Nat) :
      (memory.readUnsigned size address).answer s = memory.valueAt address size :=
    Task.answer_of_eq (readUnsigned_eq memory address size s)
  refine ⟨fun size => ?_, fun buffer half value hbuffer hroom h => ?_,
    fun width hwidth hpointer => ?_, fun hwidth => ?_⟩
  · refine ⟨fun value => ?_, fun value => ?_, fun e => ?_, fun e => ?_,
      Task.final_of_eq (readUnsigned_eq memory address size s),
      Task.final_of_eq (readSigned_eq memory address size s)⟩
    · rw [hanswer, valueAt_eq_ok_iff]
    · rw [readSigned_eq_ok_iff]
      constructor
      · rintro ⟨n, hvalue, rfl⟩
        exact ⟨n, valueAt_eq_ok_iff.1 hvalue, lt_of_valueAt hvalue, rfl⟩
      · rintro ⟨n, hcomes, -, rfl⟩
        exact ⟨n, valueAt_eq_ok_iff.2 hcomes, rfl⟩
    · rw [hanswer, valueAt_eq_error_iff]
    · rw [readSigned_eq_error_iff, valueAt_eq_error_iff]
  · simp only [hanswer] at h ⊢
    exact valueAt_halves hbuffer hroom h
  · subst hpointer
    have hread := readPointer_eq memory address s
    rw [if_pos hwidth] at hread
    rw [Task.answer_of_eq hread, Task.final_of_eq hread, hanswer]
    refine ⟨fun pointer => map_valueAt_eq_ok_iff (by omega), fun e => ?_, rfl⟩
    cases memory.valueAt address memory.pointerWidth <;> simp [Except.map]
  · have hread := readPointer_eq memory address s
    rw [if_neg hwidth] at hread
    exact ⟨Task.answer_of_eq hread, Task.final_of_eq hread⟩

/-- A buffer that ends with the address space, read in a target of narrow pointers. -/
theorem typed_reads_top :
    let buffer : Buffer := ⟨0xFFFFFFFFFFFFFFF8, [0x01, 0x02, 0x03, 0x04, 0x05, 0x06, 0x07, 0xF8]⟩
    let memory : Memory := { buffer.memory with pointerWidth := 4 }
    let address : UInt64 := 0xFFFFFFFFFFFFFFF8
    let s : Trail Unit := ⟨(), []⟩
    memory.BackedBy buffer ∧ address.toNat + 4 < 2 ^ 64
      ∧ (memory.readUnsigned 8 address).answer s = .ok 0xF807060504030201
      ∧ (∃ low high, (memory.readUnsigned 4 address).answer s = .ok low
        ∧ (memory.readUnsigned 4 0xFFFFFFFFFFFFFFFC).answer s = .ok high
        ∧ 0xF807060504030201 = low + 2 ^ 32 * high)
      ∧ memory.pointerWidth = 4 ∧ (memory.readPointer address).answer s = .ok 0x04030201
      ∧ ({ memory with pointerWidth := 6 } : Memory).readPointer address s
        = .error (.readFailed address (.pointerWidth 6)) s := by
  intro buffer memory address s
  have hbuffer : memory.BackedBy buffer := backedBy_memory buffer 4
  have hroom : address.toNat + 4 < 2 ^ 64 := by decide
  have hwide : (memory.readUnsigned 8 address).answer s = .ok 0xF807060504030201 := by
    decide +kernel
  have hnarrow : (memory.readUnsigned 4 address).answer s = .ok 0x04030201 := by decide +kernel
  obtain ⟨-, hhalves, hpointer, -⟩ := typed_reads memory address s
  obtain ⟨-, -, -, hother⟩ := typed_reads { memory with pointerWidth := 6 } address s
  obtain ⟨hfailed, hquiet⟩ := hother (by decide)
  refine ⟨hbuffer, hroom, hwide, hhalves buffer 4 _ hbuffer hroom hwide, rfl,
    ((hpointer 4 (.inl rfl) rfl).1 _).2 hnarrow, ?_⟩
  rw [Task.eq_ofExcept (Memory.readPointer _ _) s, hfailed, hquiet]
  rfl

end Memory

end Landmark
