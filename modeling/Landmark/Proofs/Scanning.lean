import Mathlib.Data.List.Sort
import Mathlib.Tactic.Common
import Landmark.Proofs.Agreement
import Landmark.Proofs.Skipping
import Landmark.Proofs.Stretches
import Landmark.Signature.Search

/-!
# What a search of a span finds

A scan runs a matcher on ever shorter ends of the bytes. Behind the first occurrence of a signature
lie the other ones, moved (`occurrences_eq_cons`), so the scan comes by all of them in order and
stops when it has as many as it was asked for (`Scan.offsets_collect`). A search of a span therefore
gives the first of the addresses at which the signature lies in the span and matches what the memory
holds there, whatever the cap, for a span up to the top address too (`Search.findMany_finds_all`).
-/

namespace Landmark

namespace Matching

/-- The offsets at which a signature occurs in bytes, in ascending order; the empty signature occurs
nowhere. -/
def occurrences (places : List Place) (bytes : List UInt8) : List Nat :=
  if places = [] then []
  else (List.range bytes.length).filter fun offset => fits places (bytes.drop offset)

variable {places : List Place} {bytes : List UInt8} {o : Nat}

theorem mem_occurrences : o ∈ occurrences places bytes ↔ places ≠ [] ∧ OccursAt places bytes o := by
  unfold occurrences
  split_ifs with hp
  · simp [hp]
  · have hpos := List.length_pos_iff.2 hp
    rw [List.mem_filter, List.mem_range]
    constructor
    · rintro ⟨hlt, hfits⟩
      have hlength := ((fits_iff places _).1 hfits).1
      rw [List.length_drop] at hlength
      exact ⟨hp, (occursAt_iff_fits (by omega)).2 hfits⟩
    · rintro ⟨-, hoccurs⟩
      have hlength := hoccurs.1
      exact ⟨by omega, (occursAt_iff_fits hlength).1 hoccurs⟩

theorem pairwise_occurrences (places : List Place) (bytes : List UInt8) :
    (occurrences places bytes).Pairwise (· < ·) := by
  unfold occurrences
  split_ifs
  · exact .nil
  · exact List.pairwise_lt_range.filter _

/-- Every matcher finds the first occurrence. -/
theorem head?_occurrences (algorithm : Algorithm) (places : List Place) (bytes : List UInt8) :
    (occurrences places bytes).head? = algorithm.apply places bytes := by
  rw [Algorithm.apply_eq_naive]
  rcases hnaive : naive places bytes with _ | o
  · rw [List.head?_eq_none_iff, List.eq_nil_iff_forall_not_mem]
    intro o hmem
    obtain ⟨hp, hoccurs⟩ := mem_occurrences.1 hmem
    exact (naive_eq_none_iff.1 hnaive).elim hp fun hno => hno o hoccurs
  · obtain ⟨hp, hoccurs, hbefore⟩ := naive_eq_some_iff.1 hnaive
    have hmem : o ∈ occurrences places bytes := mem_occurrences.2 ⟨hp, hoccurs⟩
    have hsorted := pairwise_occurrences places bytes
    rcases hall : occurrences places bytes with _ | ⟨first, rest⟩ <;> rw [hall] at hmem hsorted
    · cases hmem
    · have hfirst := (mem_occurrences.1 (hall ▸ List.mem_cons_self)).2
      rcases List.mem_cons.1 hmem with rfl | hrest
      · rfl
      · exact absurd hfirst (hbefore first ((List.pairwise_cons.1 hsorted).1 o hrest))

theorem occursAt_drop (places : List Place) (bytes : List UInt8) {k : Nat} (h : k ≤ bytes.length)
    (o : Nat) : OccursAt places (bytes.drop k) o ↔ OccursAt places bytes (k + o) := by
  simp only [OccursAt, List.length_drop, List.getElem?_drop, Nat.add_assoc]
  constructor
  · exact fun hoccurs => ⟨by omega, hoccurs.2⟩
  · exact fun hoccurs => ⟨by omega, hoccurs.2⟩

/-- Behind the first occurrence, the other ones are those in the bytes from the next offset on. -/
theorem occurrences_eq_cons (h : (occurrences places bytes).head? = some o) :
    occurrences places bytes
      = o :: (occurrences places (bytes.drop (o + 1))).map (o + 1 + ·) := by
  have hsorted := pairwise_occurrences places bytes
  obtain ⟨rest, hall⟩ := List.head?_eq_some_iff.1 h
  rw [hall, List.pairwise_cons] at hsorted
  obtain ⟨hp, hoccurs⟩ := mem_occurrences.1 (hall ▸ List.mem_cons_self : o ∈ _)
  have hshort : o + 1 ≤ bytes.length := by
    have := List.length_pos_iff.2 hp
    have := hoccurs.1
    omega
  have hmem (i : Nat) : i ∈ occurrences places (bytes.drop (o + 1))
      ↔ o + 1 + i ∈ occurrences places bytes := by
    rw [mem_occurrences, mem_occurrences, occursAt_drop places bytes hshort]
  rw [hall, List.cons_inj_right]
  -- both lists ascend, so it is enough that they have the same members
  refine hsorted.2.eq_of_mem_iff ?_ fun i => ?_
  · exact (pairwise_occurrences _ _).map _ fun i j hij => Nat.add_lt_add_left hij _
  · simp only [List.mem_map, hmem, hall, List.mem_cons]
    constructor
    · intro hi
      have := hsorted.1 i hi
      exact ⟨i - (o + 1), .inr (by rwa [Nat.add_sub_cancel' this]), by omega⟩
    · rintro ⟨j, hj | hj, rfl⟩
      · omega
      · exact hj

end Matching

namespace Scan

open Landmark.Matching (occurrences occurrences_eq_cons)

variable {places : List Place} {find : List UInt8 → Option Nat}

/-- A scan comes by the occurrences in order, from the offset at which the bytes begin. -/
theorem offsets_extend (hfind : ∀ bytes, (occurrences places bytes).head? = find bytes)
    (count : Nat) : ∀ (bytes : List UInt8) (offset : Nat) (scan : Scan),
      (extend find scan count offset bytes).offsets
        = (((occurrences places bytes).take count).map (offset + ·)).reverse ++ scan.offsets := by
  induction count with
  | zero => simp [extend]
  | succ count ih =>
    rintro (_ | ⟨byte, bytes⟩) offset scan
    · simp [extend, occurrences]
    · have hfirst := hfind (byte :: bytes)
      rw [extend]
      rcases hfound : find (byte :: bytes) with _ | o <;> rw [hfound] at hfirst
      · simp [List.head?_eq_none_iff.1 hfirst]
      · simp [ih, occurrences_eq_cons hfirst, Function.comp_def, Nat.add_assoc]

/-- A scan gives the first occurrences, as many as it was asked for. -/
theorem offsets_collect (hfind : ∀ bytes, (occurrences places bytes).head? = find bytes)
    (count : Nat) (bytes : List UInt8) :
    (collect find count bytes).offsets = (occurrences places bytes).take count := by
  simp [collect, offsets_extend hfind]

end Scan

namespace Span

variable {span : Span} {i : Nat}

/-- The bytes that lie at the addresses of a span. -/
def bytes (span : Span) (content : UInt64 → UInt8) : List UInt8 :=
  (List.range span.length).map fun i => content (span.first + UInt64.ofNat i)

theorem length_bytes (span : Span) (content : UInt64 → UInt8) :
    (span.bytes content).length = span.length := by
  rw [bytes, List.length_map, List.length_range]

theorem getElem?_bytes (content : UInt64 → UInt8) (h : i < span.length) :
    (span.bytes content)[i]? = some (content (span.first + UInt64.ofNat i)) := by
  rw [bytes, List.getElem?_map, List.getElem?_range h, Option.map_some]

theorem bytes_eq_nil (content : UInt64 → UInt8) (h : span.isEmpty = true) :
    span.bytes content = [] := by
  have hle : span.last ≤ span.first := by simpa [isEmpty] using h
  rw [bytes, length, Nat.sub_eq_zero_of_le (UInt64.le_iff_toNat_le.1 hle), List.range_zero,
    List.map_nil]

/-- Addresses in a span do not wrap around. -/
theorem toNat_first_add (h : i ≤ span.length) :
    (span.first + UInt64.ofNat i).toNat = span.first.toNat + i := by
  have := span.first.toNat_lt
  have := span.last.toNat_lt
  rw [length] at h
  exact toNat_add_ofNat (by omega)

end Span

/-- The signature lies in the span from an address on, and each significant place of it has its
byte there. -/
def Signature.OccursIn (signature : Signature) (content : UInt64 → UInt8) (span : Span)
    (address : UInt64) : Prop :=
  span.first ≤ address ∧ address.toNat + signature.length ≤ span.last.toNat ∧
    ∀ i, (h : i < signature.places.length) → signature.places[i].significant →
      content (address + UInt64.ofNat i) = signature.places[i].byte

instance (signature : Signature) (content : UInt64 → UInt8) (span : Span) (address : UInt64) :
    Decidable (signature.OccursIn content span address) :=
  inferInstanceAs (Decidable (_ ∧ _ ∧ ∀ i, (h : i < signature.places.length) → _ → _))

/-- Occurrences in a span are those in its bytes, at the same distance from the start. -/
theorem Signature.occursIn_iff {signature : Signature} {span : Span} {content : UInt64 → UInt8}
    {address : UInt64} (hp : signature.places ≠ []) :
    signature.OccursIn content span address
      ↔ ∃ o, OccursAt signature.places (span.bytes content) o
          ∧ address = span.first + UInt64.ofNat o := by
  have hpos := List.length_pos_iff.2 hp
  have hbyte {o i : Nat} (h : o + i < span.length) : (span.bytes content)[o + i]?
      = some (content (span.first + UInt64.ofNat o + UInt64.ofNat i)) := by
    rw [Span.getElem?_bytes content h, UInt64.ofNat_add, UInt64.add_assoc]
  simp only [OccursIn, OccursAt, Span.length_bytes, Signature.length, UInt64.le_iff_toNat_le]
  constructor
  · rintro ⟨hfirst, hlast, hmatch⟩
    have hlength : address.toNat - span.first.toNat + signature.places.length ≤ span.length := by
      rw [Span.length]
      omega
    have haddress : address = span.first + UInt64.ofNat (address.toNat - span.first.toNat) :=
      (add_ofNat_sub (UInt64.le_iff_toNat_le.2 hfirst)).symm
    refine ⟨_, ⟨hlength, fun i hi hs => ?_⟩, haddress⟩
    rw [hbyte (by omega), ← haddress, hmatch i hi hs]
  · rintro ⟨o, ⟨hlength, hmatch⟩, rfl⟩
    rw [Span.toNat_first_add (by omega)]
    refine ⟨by omega, by rw [Span.length] at hlength; omega, fun i hi hs => ?_⟩
    have hat := hmatch i hi hs
    rw [hbyte (by omega)] at hat
    exact Option.some.inj hat

/-- The target's memory gives the bytes of a span when it is asked for them. -/
def Target.Supplies (target : Target) (span : Span) (content : UInt64 → UInt8) : Prop :=
  span.isEmpty = false →
    if target.inside then
      target.memory.view span.first span.length = some (span.bytes content)
    else target.memory.read span.first span.length = .ok (span.bytes content)

theorem Access.bytes_supplied {σ : Type} {target : Target} {span : Span}
    {content : UInt64 → UInt8} (h : target.Supplies span content) (s : Trail σ) :
    ∃ t, (Access.of target).bytes target.memory span s = .ok (span.bytes content) t := by
  unfold Access.bytes Access.of
  cases hempty : span.isEmpty with
  | true => exact ⟨s, by rw [Span.bytes_eq_nil content hempty]; rfl⟩
  | false =>
    have hsupplied := h hempty
    cases hinside : target.inside with
    | true =>
      rw [hinside, if_pos rfl] at hsupplied
      exact ⟨s, by simp only [hsupplied]; rfl⟩
    | false =>
      rw [hinside, if_neg Bool.false_ne_true] at hsupplied
      refine ⟨⟨s.state, .read span.first span.length :: s.log⟩, ?_⟩
      have hread : target.memory.readBytes span.first span.length s
          = .ok (span.bytes content) ⟨s.state, .read span.first span.length :: s.log⟩ := by
        unfold Memory.readBytes
        rw [hsupplied]
        rfl
      simp only [Bool.false_eq_true, if_false]
      rw [Task.bind_ok hread, if_pos (Span.length_bytes span content)]
      rfl

namespace Search

open Landmark.Matching (occurrences mem_occurrences pairwise_occurrences head?_occurrences)

variable {σ : Type} {signature : Signature} {target : Target} {span : Span}
  {content : UInt64 → UInt8}

/-- The addresses at which a signature occurs in a span, in ascending order. -/
def addresses (signature : Signature) (content : UInt64 → UInt8) (span : Span) : List UInt64 :=
  (occurrences signature.places (span.bytes content)).map fun o => span.first + UInt64.ofNat o

theorem toNat_of_mem_occurrences {o : Nat}
    (h : o ∈ occurrences signature.places (span.bytes content)) :
    (span.first + UInt64.ofNat o).toNat = span.first.toNat + o := by
  have hlength := (mem_occurrences.1 h).2.1
  rw [Span.length_bytes] at hlength
  exact Span.toNat_first_add (by omega)

theorem mem_addresses {address : UInt64} : address ∈ addresses signature content span
    ↔ signature.places ≠ [] ∧ signature.OccursIn content span address := by
  simp only [addresses, List.mem_map, mem_occurrences]
  constructor
  · rintro ⟨o, ⟨hp, hoccurs⟩, rfl⟩
    exact ⟨hp, (Signature.occursIn_iff hp).2 ⟨o, hoccurs, rfl⟩⟩
  · rintro ⟨hp, hoccurs⟩
    obtain ⟨o, hat, rfl⟩ := (Signature.occursIn_iff hp).1 hoccurs
    exact ⟨o, ⟨hp, hat⟩, rfl⟩

theorem pairwise_addresses (signature : Signature) (content : UInt64 → UInt8) (span : Span) :
    (addresses signature content span).Pairwise (· < ·) := by
  rw [addresses, List.pairwise_map]
  refine (pairwise_occurrences signature.places (span.bytes content)).imp_of_mem ?_
  intro o o' ho ho' hlt
  rw [UInt64.lt_iff_toNat_lt, toNat_of_mem_occurrences ho, toNat_of_mem_occurrences ho']
  omega

theorem offsets_scan (algorithm : Algorithm) (signature : Signature) (count : Nat)
    (bytes : List UInt8) :
    ((⟨signature, algorithm.apply⟩ : Search).scan count bytes).offsets
      = (occurrences signature.places bytes).take count :=
  Scan.offsets_collect (head?_occurrences algorithm signature.places) count bytes

theorem findMany_supplied (algorithm : Algorithm) (signature : Signature)
    (h : target.Supplies span content) (count : Nat) (s : Trail σ) :
    ∃ t, (⟨signature, algorithm.apply⟩ : Search).findMany target span count s
      = .ok ((addresses signature content span).take count) t := by
  unfold findMany
  split_ifs with hcount
  · exact ⟨s, by rw [hcount]; rfl⟩
  · obtain ⟨t, hbytes⟩ := Access.bytes_supplied h s
    rw [Task.bind_ok hbytes]
    simp only [offsets_scan, addresses, ← List.map_take]
    exact ⟨_, rfl⟩

/-- A search finds every address of the span at which the signature matches, in ascending order and
up to the cap, and no other one; and no address of them wraps around. -/
theorem findMany_finds_all (algorithm : Algorithm) (signature : Signature)
    (h : target.Supplies span content) :
    let search : Search := ⟨signature, algorithm.apply⟩
    ∃ all : List UInt64,
      all.Pairwise (· < ·)
        ∧ (∀ address, address ∈ all
            ↔ signature.places ≠ [] ∧ signature.OccursIn content span address)
        ∧ (∀ count (s : Trail σ),
            (search.findMany target span count).answer s = .ok (all.take count))
        ∧ (∀ s : Trail σ, (search.findFirst target span).answer s
            = match all.head? with
              | some address => .ok address
              | none => .error .noMatch)
        ∧ ∀ count, ∀ offset ∈ (search.scan count (span.bytes content)).offsets,
            span.first.toNat + offset < UInt64.size := by
  intro search
  refine ⟨addresses signature content span, pairwise_addresses signature content span,
    fun _ => mem_addresses, fun count s => ?_, fun s => ?_, fun count offset hmem => ?_⟩
  · obtain ⟨t, hfound⟩ := findMany_supplied algorithm signature h count s
    rw [Task.answer, hfound]
  · obtain ⟨t, hfound⟩ := findMany_supplied algorithm signature h 1 s
    rw [Task.answer, findFirst, Task.bind_ok hfound]
    rcases addresses signature content span with _ | ⟨address, rest⟩ <;> rfl
  · rw [offsets_scan] at hmem
    rw [← toNat_of_mem_occurrences (List.mem_of_mem_take hmem)]
    exact UInt64.toNat_lt _

/-- Matches that overlap one another, up to the top of the address space. -/
theorem findMany_finds_all_top :
    let buffer : Buffer := ⟨0xFFFFFFFFFFFFFFFA, List.replicate 5 0xAA⟩
    let target : Target := ⟨⟨buffer.base, 5, "1.0"⟩, buffer.memory, true⟩
    let signature : Signature := ⟨[.exactly 0xAA, .wildcard, .exactly 0xAA]⟩
    let search : Search := ⟨signature, Algorithm.boyerMooreHorspool.apply⟩
    let span : Span := ⟨0xFFFFFFFFFFFFFFFA, 0xFFFFFFFFFFFFFFFF⟩
    target.Supplies span (fun _ => 0xAA)
      ∧ ∃ all : List UInt64, 0xFFFFFFFFFFFFFFFB ∈ all ∧ 0xFFFFFFFFFFFFFFFC ∈ all
        ∧ 0xFFFFFFFFFFFFFFFD ∉ all
        ∧ ∀ count (s : Trail Unit),
          (search.findMany target span count).answer s = .ok (all.take count) := by
  intro buffer target signature search span
  have hsupplies : target.Supplies span fun _ => 0xAA := fun _ => by decide
  obtain ⟨all, -, hmem, hmany, -⟩ :=
    findMany_finds_all (σ := Unit) Algorithm.boyerMooreHorspool signature hsupplies
  refine ⟨hsupplies, all, ?_, ?_, ?_, hmany⟩
  · rw [hmem]
    decide
  · rw [hmem]
    decide
  · rw [hmem]
    decide

end Search

end Landmark
