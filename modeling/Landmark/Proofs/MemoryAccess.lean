import Mathlib.Tactic.Common
import Landmark.Memory.Buffer
import Landmark.Proofs.Agreement
import Landmark.Signature.Search

/-!
# Searching from inside and from outside

A search from inside the target looks at its memory in place, one from outside copies the span
first. Over a memory that can be looked at wherever it can be read, and shows the same bytes
(`Memory.Consistent`), the two come to the same: each finds what the other one finds, or both fail
at the start of the span. Only the search from outside reads, and that once, unless there is nothing
to look for (`Search.findMany_inside_outside`).
-/

namespace Landmark

/-- The address and the size of a read. -/
def Event.read? : Event → Option (UInt64 × Nat)
  | .read address size => some (address, size)
  | _ => none

/-- Whether looking at a stretch in place shows what a read of it gives, or neither can be done. -/
def Memory.Consistent (memory : Memory) : Prop :=
  ∀ address size,
    (∃ bytes, bytes.length = size ∧ memory.view address size = some bytes
        ∧ memory.read address size = .ok bytes)
      ∨ memory.view address size = none
        ∧ ∃ fault, memory.read address size = .error (.readFailed address fault)

/-- A buffer is looked at and read alike. -/
theorem Buffer.memory_consistent (buffer : Buffer) : buffer.memory.Consistent := by
  intro address size
  rcases hslice : buffer.slice address size with _ | bytes
  · exact .inr ⟨hslice, .outside size buffer.span, by simp only [memory, hslice]⟩
  · refine .inl ⟨bytes, ?_, hslice, by simp only [memory, hslice]⟩
    unfold slice at hslice
    split_ifs at hslice with hinside
    cases hslice
    rw [List.length_take, List.length_drop]
    omega

variable {σ : Type} {memory : Memory}

/-- The bytes of a span that is not empty, both ways. -/
theorem Access.bytes_inPlace_copied (h : memory.Consistent) {span : Span}
    (hspan : span.isEmpty = false) (s : Trail σ) :
    let copied : Trail σ := ⟨s.state, .read span.first span.length :: s.log⟩
    (∃ bytes, Access.inPlace.bytes memory span s = .ok bytes s
        ∧ Access.copied.bytes memory span s = .ok bytes copied)
      ∨ ∃ fault fault', Access.inPlace.bytes memory span s = .error (.readFailed span.first fault) s
        ∧ Access.copied.bytes memory span s = .error (.readFailed span.first fault') copied := by
  intro copied
  have hinPlace : Access.inPlace.bytes memory span s
      = (memory.view span.first span.length).elim
          (.error (.readFailed span.first (.notAddressable span)) s) (.ok · s) := by
    unfold Access.bytes
    rw [hspan]
    cases memory.view span.first span.length <;> rfl
  have hcopied : Access.copied.bytes memory span s
      = (memory.readBytes span.first span.length >>= fun bytes =>
          if bytes.length = span.length then pure bytes
          else throw (.readFailed span.first (.short span.length bytes.length))) s := by
    unfold Access.bytes
    rw [hspan]
    rfl
  have hread : memory.readBytes span.first span.length s
      = Task.ofExcept (memory.read span.first span.length) copied := rfl
  obtain ⟨bytes, hlength, hview, hgiven⟩ | ⟨hview, fault, hrefused⟩ := h span.first span.length
  · rw [hview] at hinPlace
    rw [hgiven] at hread
    rw [Task.bind_ok hread, if_pos hlength] at hcopied
    exact .inl ⟨bytes, hinPlace, hcopied⟩
  · rw [hview] at hinPlace
    rw [hrefused] at hread
    rw [Task.bind_error hread] at hcopied
    exact .inr ⟨_, fault, hinPlace, hcopied⟩

namespace Search

/-- A search goes on in the same way however it has come by the bytes. -/
theorem findMany_of_bytes_ok (search : Search) (target : Target) {span : Span} {count : Nat}
    (hcount : count ≠ 0) {bytes : List UInt8} {s t : Trail σ}
    (h : (Access.of target).bytes target.memory span s = .ok bytes t) :
    search.findMany target span count s = .ok
      ((search.scan count bytes).offsets.map fun offset => span.first + UInt64.ofNat offset)
      ⟨t.state, .scan (search.scan count bytes).applications :: t.log⟩ := by
  rw [findMany, if_neg hcount, Task.bind_ok h]
  rfl

theorem findMany_of_bytes_error (search : Search) (target : Target) {span : Span} {count : Nat}
    (hcount : count ≠ 0) {e : Error} {s t : Trail σ}
    (h : (Access.of target).bytes target.memory span s = .error e t) :
    search.findMany target span count s = .error e t := by
  rw [findMany, if_neg hcount, Task.bind_error h]

/-- Searches of one memory from inside and from outside find the same addresses or fail at the start
of the span, whatever their matcher. The one from inside never reads; the one from outside reads the
span once, if it has an address and there is something to be found at all. -/
theorem findMany_inside_outside (search : Search) (h : memory.Consistent) (image image' : Image)
    (span : Span) (count : Nat) (s : Trail σ) :
    let inside : Task σ (List UInt64) := search.findMany ⟨image, memory, true⟩ span count
    let outside : Task σ (List UInt64) := search.findMany ⟨image', memory, false⟩ span count
    let reads (s : Trail σ) : List (UInt64 × Nat) := s.log.filterMap Event.read?
    ((∃ addresses, inside.answer s = .ok addresses ∧ outside.answer s = .ok addresses)
        ∨ ∃ fault fault', inside.answer s = .error (.readFailed span.first fault)
          ∧ outside.answer s = .error (.readFailed span.first fault'))
      ∧ reads (inside.final s) = reads s
      ∧ reads (outside.final s) =
        if count = 0 ∨ span.isEmpty then reads s else (span.first, span.length) :: reads s := by
  intro inside outside reads
  by_cases hcount : count = 0
  · subst hcount
    exact ⟨.inl ⟨[], rfl, rfl⟩, rfl, (if_pos (.inl rfl)).symm⟩
  · rcases hspan : span.isEmpty with _ | _
    · rw [if_neg (by simp [hcount])]
      obtain ⟨bytes, hinPlace, hcopied⟩ | ⟨fault, fault', hinPlace, hcopied⟩ :=
        Access.bytes_inPlace_copied h hspan s
      · have hinside : inside s = _ :=
          search.findMany_of_bytes_ok ⟨image, memory, true⟩ hcount hinPlace
        have houtside : outside s = _ :=
          search.findMany_of_bytes_ok ⟨image', memory, false⟩ hcount hcopied
        simp only [Task.answer, Task.final, hinside, houtside]
        exact ⟨.inl ⟨_, rfl, rfl⟩, rfl, rfl⟩
      · have hinside : inside s = _ :=
          search.findMany_of_bytes_error ⟨image, memory, true⟩ hcount hinPlace
        have houtside : outside s = _ :=
          search.findMany_of_bytes_error ⟨image', memory, false⟩ hcount hcopied
        simp only [Task.answer, Task.final, hinside, houtside]
        exact ⟨.inr ⟨_, _, rfl, rfl⟩, trivial, rfl⟩
    · rw [if_pos (.inr rfl)]
      have hnone (access : Access) : access.bytes memory span s = .ok [] s := by
        unfold Access.bytes
        rw [hspan]
        rfl
      have hinside : inside s = _ :=
        search.findMany_of_bytes_ok ⟨image, memory, true⟩ hcount (hnone _)
      have houtside : outside s = _ :=
        search.findMany_of_bytes_ok ⟨image', memory, false⟩ hcount (hnone _)
      simp only [Task.answer, Task.final, hinside, houtside]
      exact ⟨.inl ⟨_, rfl, rfl⟩, rfl, rfl⟩

/-- A span that reaches one byte beyond the buffer, and one that ends with it. -/
theorem findMany_inside_outside_buffer :
    let buffer : Buffer := ⟨0x4000, [0xAA, 0xAA, 0xAA]⟩
    let search : Search := ⟨⟨[.exactly 0xAA, .exactly 0xAA]⟩, Algorithm.boyerMooreHorspool.apply⟩
    let image : Image := ⟨0x4000, 3, "1.0"⟩
    let find (inside : Bool) (span : Span) : Task Unit (List UInt64) :=
      search.findMany ⟨image, buffer.memory, inside⟩ span 5
    buffer.memory.Consistent
      ∧ (find true ⟨0x4000, 0x4003⟩).answer ⟨(), []⟩ = .ok [0x4000, 0x4001]
      ∧ (find false ⟨0x4000, 0x4003⟩).answer ⟨(), []⟩ = .ok [0x4000, 0x4001]
      ∧ ((find false ⟨0x4000, 0x4003⟩).final ⟨(), []⟩).log.filterMap Event.read? = [(0x4000, 3)]
      ∧ ∃ fault fault',
        (find true ⟨0x4001, 0x4004⟩).answer ⟨(), []⟩ = .error (.readFailed 0x4001 fault)
          ∧ (find false ⟨0x4001, 0x4004⟩).answer ⟨(), []⟩ = .error (.readFailed 0x4001 fault') := by
  intro buffer search image find
  have hconsistent := buffer.memory_consistent
  obtain ⟨hwithin, -, hreads⟩ := findMany_inside_outside search hconsistent image image
    ⟨0x4000, 0x4003⟩ 5 (⟨(), []⟩ : Trail Unit)
  obtain ⟨hbeyond, -⟩ := findMany_inside_outside search hconsistent image image
    ⟨0x4001, 0x4004⟩ 5 (⟨(), []⟩ : Trail Unit)
  have hfound : (find true ⟨0x4000, 0x4003⟩).answer ⟨(), []⟩ = .ok [0x4000, 0x4001] := by
    decide +kernel
  have hrefused : (find true ⟨0x4001, 0x4004⟩).answer ⟨(), []⟩
      = .error (.readFailed 0x4001 (.notAddressable ⟨0x4001, 0x4004⟩)) := by decide +kernel
  refine ⟨hconsistent, hfound, ?_, hreads, ?_⟩
  · obtain ⟨addresses, hinside, houtside⟩ | ⟨fault, fault', hinside, -⟩ := hwithin
    · cases hfound.symm.trans hinside
      exact houtside
    · cases hfound.symm.trans hinside
  · obtain ⟨addresses, hinside, -⟩ | hfailed := hbeyond
    · cases hrefused.symm.trans hinside
    · exact hfailed

end Search

end Landmark
