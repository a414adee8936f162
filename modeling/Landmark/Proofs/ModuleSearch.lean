import Landmark.Proofs.Scanning
import Landmark.Proofs.Stretches

/-!
# Searching a whole module

The span of a module ends where the module ends, unless that is the end of the address space: behind
the top address there is no other one, so the span stops at the top address and does not hold it
(`Image.toNat_last_span`). A search of the module therefore finds every match but one that ends with
the address space, and it finds all of them exactly if there is no such match
(`Search.findManyInModule_exact_iff`).
-/

namespace Landmark

namespace Image

variable {image : Image}

theorem toNat_last_span (image : Image) :
    image.span.last.toNat = min (image.base.toNat + image.size) (2 ^ 64 - 1) := by
  have hsize : UInt64.size = 2 ^ 64 := rfl
  rw [span, Span.ofLength, UInt64.toNat_ofNat', hsize]
  omega

end Image

/-- The signature lies in the module from an address on, and each significant place of it has its
byte there. -/
def Signature.OccursInModule (signature : Signature) (content : UInt64 → UInt8) (image : Image)
    (address : UInt64) : Prop :=
  image.base ≤ address
    ∧ address.toNat + signature.length ≤ image.base.toNat + image.size
    ∧ ∀ i, (h : i < signature.places.length) → signature.places[i].significant →
      content (address + UInt64.ofNat i) = signature.places[i].byte

instance (signature : Signature) (content : UInt64 → UInt8) (image : Image) (address : UInt64) :
    Decidable (signature.OccursInModule content image address) :=
  inferInstanceAs (Decidable (_ ∧ _ ∧ ∀ i, (h : i < signature.places.length) → _ → _))

/-- The target's memory gives every stretch of its module that it is asked for. -/
def Target.SuppliesModule (target : Target) (content : UInt64 → UInt8) : Prop :=
  ∀ address size, 0 < size → target.image.base ≤ address →
    address.toNat + size ≤ target.image.base.toNat + target.image.size →
    let bytes := (List.range size).map fun i => content (address + UInt64.ofNat i)
    if target.inside then target.memory.view address size = some bytes
    else target.memory.read address size = .ok bytes

/-- A target whose buffer begins with its module. -/
theorem Target.suppliesModule_buffer {buffer : Buffer} {image : Image} (inside : Bool)
    (hbase : image.base = buffer.base) (hsize : image.size ≤ buffer.bytes.length)
    (hfits : image.base.toNat + image.size ≤ 2 ^ 64) :
    (⟨image, buffer.memory, inside⟩ : Target).SuppliesModule buffer.content := by
  intro address size _ hfirst hend
  change address.toNat + size ≤ image.base.toNat + image.size at hend
  have hslice : buffer.slice address size = some _ :=
    Buffer.slice_content (hbase ▸ hfirst) (by rw [← hbase]; omega) (by omega)
  cases inside <;> simp [Buffer.memory, hslice]

variable {signature : Signature} {content : UInt64 → UInt8} {target : Target} {image : Image}

/-- In the span of a module lie the matches of the module that end before the address space. -/
theorem Signature.occursIn_span_iff (hfits : image.base.toNat + image.size ≤ 2 ^ 64)
    {address : UInt64} :
    signature.OccursIn content image.span address
      ↔ signature.OccursInModule content image address
        ∧ address.toNat + signature.length < 2 ^ 64 := by
  have hlast := image.toNat_last_span
  have hfirst : image.span.first = image.base := rfl
  unfold OccursIn OccursInModule
  rw [hfirst, hlast]
  constructor
  · rintro ⟨hbase, hend, hmatch⟩
    exact ⟨⟨hbase, by omega, hmatch⟩, by omega⟩
  · rintro ⟨⟨hbase, hend, hmatch⟩, htop⟩
    exact ⟨hbase, by omega, hmatch⟩

theorem Target.SuppliesModule.supplies (h : target.SuppliesModule content) :
    target.Supplies target.image.span content := by
  intro hspan
  have hlast := target.image.toNat_last_span
  have hfirst : target.image.span.first = target.image.base := rfl
  have hlt : target.image.base.toNat < target.image.span.last.toNat := by
    simpa [Span.isEmpty, hfirst, UInt64.lt_iff_toNat_lt] using hspan
  refine h target.image.base target.image.span.length ?_ (UInt64.le_refl _) ?_ <;>
    rw [Span.length, hfirst] <;> omega

namespace Search

variable {σ : Type}

/-- The addresses at which a signature occurs in a module, in ascending order. -/
def moduleAddresses (signature : Signature) (content : UInt64 → UInt8) (image : Image) :
    List UInt64 :=
  if signature.places = [] then []
  else
    ((List.range image.size).map fun i => image.base + UInt64.ofNat i).filter fun address =>
      signature.OccursInModule content image address

theorem mem_moduleAddresses {address : UInt64} :
    address ∈ moduleAddresses signature content image
      ↔ signature.places ≠ [] ∧ signature.OccursInModule content image address := by
  unfold moduleAddresses
  split_ifs with hp
  · simp [hp]
  · have hpos : 0 < signature.length := List.length_pos_iff.2 hp
    simp only [List.mem_filter, List.mem_map, List.mem_range, decide_eq_true_eq]
    refine ⟨fun h => ⟨hp, h.2⟩, fun h => ⟨?_, h.2⟩⟩
    have hbase := UInt64.le_iff_toNat_le.1 h.2.1
    have hend := h.2.2.1
    exact ⟨address.toNat - image.base.toNat, by omega, add_ofNat_sub h.2.1⟩

theorem pairwise_moduleAddresses (signature : Signature) (content : UInt64 → UInt8)
    (hfits : image.base.toNat + image.size ≤ 2 ^ 64) :
    (moduleAddresses signature content image).Pairwise (· < ·) := by
  unfold moduleAddresses
  split_ifs
  · exact .nil
  · refine List.Pairwise.filter _ (List.pairwise_map.2 ?_)
    refine List.pairwise_lt_range.imp_of_mem fun {i j} hi hj hlt => ?_
    have hi := List.mem_range.1 hi
    have hj := List.mem_range.1 hj
    rw [UInt64.lt_iff_toNat_lt, toNat_add_ofNat (by omega), toNat_add_ofNat (by omega)]
    omega

/-- What a search finds in the span of a module is what there is in the module, less a match that
ends with the address space. -/
theorem addresses_span (signature : Signature) (content : UInt64 → UInt8)
    (hfits : image.base.toNat + image.size ≤ 2 ^ 64) :
    addresses signature content image.span
      = (moduleAddresses signature content image).filter fun address =>
          address.toNat + signature.length < 2 ^ 64 := by
  refine (pairwise_addresses signature content image.span).eq_of_mem_iff
    ((pairwise_moduleAddresses signature content hfits).filter _) fun address => ?_
  rw [mem_addresses, Signature.occursIn_span_iff hfits, List.mem_filter, mem_moduleAddresses,
    decide_eq_true_eq, and_assoc]

/-- A search of a module finds in ascending order and up to the cap the addresses at which the
signature matches, but not the one whose match ends with the address space. So it finds the first
of all of them, whatever the cap, exactly if there is none like that, as in every module that ends
before the address space does. -/
theorem findManyInModule_exact_iff (algorithm : Algorithm) (signature : Signature)
    (hfits : target.image.base.toNat + target.image.size ≤ 2 ^ 64)
    (hsupplies : target.SuppliesModule content) (s : Trail σ) :
    let find (count : Nat) : Except Error (List UInt64) :=
      ((⟨signature, algorithm.apply⟩ : Search).findManyInModule target count).answer s
    ∃ all : List UInt64,
      all.Pairwise (· < ·)
        ∧ (∀ address, address ∈ all ↔ signature.places ≠ []
          ∧ signature.OccursInModule content target.image address)
        ∧ (∀ count, find count = .ok ((all.filter fun address =>
            address.toNat + signature.length < 2 ^ 64).take count))
        ∧ ((∀ count, find count = .ok (all.take count))
          ↔ ∀ address ∈ all, address.toNat + signature.length < 2 ^ 64)
        ∧ (target.image.base.toNat + target.image.size < 2 ^ 64 →
          ∀ count, find count = .ok (all.take count)) := by
  intro find
  set all := moduleAddresses signature content target.image with hall
  have hfind (count : Nat) : find count = .ok ((all.filter fun address =>
      address.toNat + signature.length < 2 ^ 64).take count) := by
    obtain ⟨t, hfound⟩ := findMany_supplied algorithm signature hsupplies.supplies count s
    rw [addresses_span signature content hfits] at hfound
    change Task.answer (findMany _ target target.image.span count) s = _
    rw [Task.answer, hfound]
  have hexact : (∀ count, find count = .ok (all.take count))
      ↔ ∀ address ∈ all, address.toNat + signature.length < 2 ^ 64 := by
    simp only [hfind, Except.ok.injEq]
    constructor
    · intro h
      -- under a cap that cuts off nothing the lists themselves are equal
      have hwhole := h all.length
      rw [List.take_of_length_le (List.length_filter_le _ _), List.take_length,
        List.filter_eq_self] at hwhole
      exact fun address hmem => of_decide_eq_true (hwhole address hmem)
    · intro h count
      rw [List.filter_eq_self.2 fun address hmem => decide_eq_true (h address hmem)]
  refine ⟨all, pairwise_moduleAddresses signature content hfits, fun _ => mem_moduleAddresses,
    hfind, hexact, fun hbelow => hexact.2 fun address hmem => ?_⟩
  have hend := (mem_moduleAddresses.1 hmem).2.2.1
  omega

/-- A module that ends with the address space and whose last match does not. -/
theorem findManyInModule_exact_iff_top :
    let buffer : Buffer := ⟨0xFFFFFFFFFFFFFFFA, [0xAA, 0xBB, 0xAA, 0xBB, 0xAA, 0xBB]⟩
    let target : Target := ⟨⟨buffer.base, 6, "1.0"⟩, buffer.memory, false⟩
    let search : Search := ⟨⟨[.exactly 0xBB, .exactly 0xAA]⟩, Algorithm.splitNaive.apply⟩
    target.image.base.toNat + target.image.size ≤ 2 ^ 64
      ∧ target.SuppliesModule buffer.content
      ∧ ∃ all : List UInt64, 0xFFFFFFFFFFFFFFFB ∈ all ∧ 0xFFFFFFFFFFFFFFFD ∈ all
        ∧ ∀ count, (search.findManyInModule target count).answer (⟨(), []⟩ : Trail Unit)
          = .ok (all.take count) := by
  intro buffer target search
  have hfits : target.image.base.toNat + target.image.size ≤ 2 ^ 64 := by decide
  have hsupplies : target.SuppliesModule buffer.content :=
    Target.suppliesModule_buffer false rfl (by decide) hfits
  obtain ⟨all, -, hmem, -, hexact, -⟩ := findManyInModule_exact_iff Algorithm.splitNaive
    search.signature hfits hsupplies (⟨(), []⟩ : Trail Unit)
  refine ⟨hfits, hsupplies, all, (hmem _).2 (by decide +kernel), (hmem _).2 (by decide +kernel),
    hexact.2 fun address hall => ?_⟩
  obtain ⟨-, -, hend, hmatch⟩ := (hmem address).1 hall
  by_contra htop
  -- the only match that could end with the address space would begin with its last but one byte
  have hlast : address = 0xFFFFFFFFFFFFFFFE := by
    have hmodule : target.image.base.toNat + target.image.size = 2 ^ 64 := by decide
    have hlength : search.signature.length = 2 := rfl
    have hbefore : (0xFFFFFFFFFFFFFFFE : UInt64).toNat = 2 ^ 64 - 2 := by decide
    rw [← UInt64.toNat_inj]
    omega
  subst hlast
  exact absurd (hmatch 0 (by decide) rfl) (by decide +kernel)

/-- A match that ends with the address space is in the module and is not found. -/
theorem findManyInModule_misses_last :
    let buffer : Buffer := ⟨0xFFFFFFFFFFFFFFFA, [0xAA, 0xBB, 0xAA, 0xBB, 0xAA, 0xBB]⟩
    let target : Target := ⟨⟨buffer.base, 6, "1.0"⟩, buffer.memory, false⟩
    let search : Search := ⟨⟨[.exactly 0xBB]⟩, Algorithm.splitNaive.apply⟩
    let find (count : Nat) : Except Error (List UInt64) :=
      (search.findManyInModule target count).answer (⟨(), []⟩ : Trail Unit)
    target.image.base.toNat + target.image.size ≤ 2 ^ 64
      ∧ target.SuppliesModule buffer.content
      ∧ find 6 = .ok [0xFFFFFFFFFFFFFFFB, 0xFFFFFFFFFFFFFFFD]
      ∧ ¬ ∃ all : List UInt64,
        (∀ address, address ∈ all
          ↔ search.signature.OccursInModule buffer.content target.image address)
        ∧ ∀ count, find count = .ok (all.take count) := by
  intro buffer target search find
  have hfits : target.image.base.toNat + target.image.size ≤ 2 ^ 64 := by decide
  have hfound : find 6 = .ok [0xFFFFFFFFFFFFFFFB, 0xFFFFFFFFFFFFFFFD] := by decide +kernel
  refine ⟨hfits, Target.suppliesModule_buffer false rfl (by decide) hfits, hfound, ?_⟩
  rintro ⟨all, hmem, hall⟩
  have hlast : 0xFFFFFFFFFFFFFFFF ∈ all := (hmem _).2 (by decide +kernel)
  have htake : all.take 6 = [0xFFFFFFFFFFFFFFFB, 0xFFFFFFFFFFFFFFFD] :=
    Except.ok.inj ((hall 6).symm.trans hfound)
  -- fewer than six were found, so no match was cut off
  have hlength := congrArg List.length htake
  rw [List.length_take, List.length_cons, List.length_cons, List.length_nil] at hlength
  rw [List.take_of_length_le (by omega)] at htake
  rw [htake] at hlast
  exact absurd hlast (by decide)

end Search

end Landmark
