import Mathlib.Tactic.Common
import Landmark.Memory.Buffer
import Landmark.Proofs.Failures
import Landmark.Proofs.Freshness
import Landmark.Proofs.LineFeeds
import Landmark.Proofs.Names
import Landmark.Proofs.Settling
import Landmark.Proofs.SignatureText

/-!
# Stored signatures

An entry keeps nothing of its signature but the text, and that is read as the signature cut to its
significant part, with zeros under its wildcards (`PatternEntry.signature_ofSignature`). So an
offset that stands for the entry leads to where the cut signature is found
(`Locator.getAddress_ofSignature`). That is where the signature itself is found if there was nothing
to cut; else it may be another place (`Locator.getAddress_ofSignature_shifted`).
-/

namespace Landmark

namespace Text

theorem trim_trim (s : String) : trim (trim s) = trim s := by
  have hends := (rdropWhile_dropWhile_eq_iff.1 (Eq.refl (trimChars s.toList))).1
  have hcut : trimChars (trimChars s.toList) = trimChars s.toList :=
    rdropWhile_dropWhile_eq_iff.2 ⟨hends, [], [], by simp, by simp⟩
  rw [trim, trim, String.toList_ofList, hcut]

theorem notMem_intercalate {c : Char} {separator : List Char} (h : c ∉ separator) :
    ∀ tokens : List (List Char), (∀ token ∈ tokens, c ∉ token) →
      c ∉ separator.intercalate tokens
  | [], _ => by simp
  | [token], htokens => by simpa using htokens
  | token :: next :: tokens, htokens => by
    have hrest := notMem_intercalate h (next :: tokens) fun t ht =>
      htokens t (List.mem_cons_of_mem _ ht)
    have htoken := htokens token List.mem_cons_self
    simp [List.intercalate_cons_cons, h, htoken, hrest]

end Text

namespace Signature

/-- The text of a signature is one line. -/
theorem joinLines_text (s : Signature) : Text.joinLines s.text = s.text := by
  refine Text.joinLines_eq_self ?_
  rw [text, format, String.toList_intercalate]
  refine Text.notMem_intercalate (by decide) _ fun token htoken => ?_
  simp only [List.mem_map, exists_exists_and_eq_and] at htoken
  obtain ⟨place, -, rfl⟩ := htoken
  unfold Signature.token
  split_ifs
  · intro hmem
    have hnumeral := SignatureFormat.isNumeralChar_of_mem_byteToken rfl hmem
    exact absurd hnumeral (by decide)
  · decide

/-- The signatures that are made without a wish to keep the wildcards at their ends. -/
inductive MadeTrimmed : Signature → Prop
  | exact (bytes : List UInt8) : MadeTrimmed (exact bytes)
  | masked {bytes : List UInt8} {mask : Option (List Bool)} {s : Signature} :
    ofMasked bytes mask true = .ok s → MadeTrimmed s
  | read {format : SignatureFormat} {text : String} {s : Signature} :
    parse format text = .ok s → MadeTrimmed s

theorem MadeTrimmed.isTrimmed {s : Signature} (h : s.MadeTrimmed) : s.IsTrimmed := by
  cases h with
  | exact bytes => exact isTrimmed_exact bytes
  | masked hmasked => exact isTrimmed_of_ofMasked hmasked
  | read hread => exact (of_parse_eq_ok hread).1

end Signature

/-- Searches whose matchers find their signatures at the same offsets find the same. -/
theorem Search.found_congr {search search' : Search} (target : Target)
    (h : search.matcher search.signature.places = search'.matcher search'.signature.places) :
    search.found target = search'.found target := by
  have hscan : search.scan = search'.scan := by
    funext count bytes
    rw [scan, scan, h]
  unfold found findFirstInModule findFirst findMany
  rw [hscan]

namespace PatternEntry

/-- An entry's signature is the one it was made for, cut to its significant part and blanked. -/
theorem signature_ofSignature (name : String) (s : Signature) :
    (ofSignature name s).signature {} = s.trimmed.map Signature.blanked := by
  rw [signature, ofSignature, s.joinLines_text, Signature.text,
    Signature.parse_format_of_clear SignatureFormat.isClear_default, Signature.trimmed_blanked]

/-- Whatever algorithm is set, a fresh entry comes to what the standard search for its cut signature
does. -/
theorem answer_ofSignature (target : Target) (algorithm : Algorithm) (registry : Option Registry)
    (name : String) {s cut : Signature} (hcut : s.trimmed = .ok cut) :
    (ofSignature name s).answer target { algorithm, registry }
      = ({ signature := cut } : Search).found target := by
  have hsame : algorithm.apply cut.blanked.places = Algorithm.standard.apply cut.places := by
    funext haystack
    rw [Signature.apply_blanked, Algorithm.apply_eq_naive, Algorithm.apply_eq_naive]
  change (ofSignature name s).sought target { algorithm, registry } = _
  rw [sought, signature_ofSignature, hcut]
  exact Search.found_congr target hsame

end PatternEntry

theorem Formula.answer_lookup {σ : Type} (atlas : Atlas σ) (name : String) (s : Trail (Scene σ)) :
    (lookup atlas name).answer s
      = (atlas name).answer ⟨s.state.patterns, .lookup name :: s.log⟩ := by
  have hrun : lookup atlas name s = _ := Task.bind_ok rfl
  rw [Task.answer, hrun]
  exact Task.answer_within _ _ _ ⟨s.state, .lookup name :: s.log⟩

namespace Document

variable {document : Document}

theorem NamesDiffer.answer_eq (target : Target) (settings : Settings) (h : document.NamesDiffer)
    {entry : PatternEntry} (hentry : entry ∈ document.patterns) :
    document.answer target settings (Text.trim entry.name) = entry.answer target settings := by
  rw [answer, h.pattern?_eq hentry]

/-- An offset without a formula comes to what the pattern of its name does. -/
theorem resolve_implicit (target : Target) (settings : Settings) (h : document.NamesDiffer)
    {name : String} (hoffset : ⟨name, none⟩ ∈ document.offsets) :
    document.resolve target settings (Text.trim name)
      = document.answer target settings (Text.trim name) := by
  have hentry := h.offset?_eq hoffset
  dsimp only at hentry
  rw [resolve, Locator.answerOf, hentry]
  dsimp only [OffsetEntry.formula, Option.getD]
  rw [Locator.evaluate, Task.answer_within, Formula.evaluateAddress_pattern, Text.trim_trim,
    Formula.answer_lookup]
  obtain ⟨t, heq, -⟩ := exists_locate_eq target settings (Text.trim name)
    ⟨document, [.lookup (Text.trim name)]⟩
  exact Task.answer_of_eq heq

end Document

namespace Locator

/-- A session over a store that holds a valid document. -/
theorem exists_reachable (target : Target) (settings : Settings) {document : Document}
    (hvalid : document.validate settings.format = .ok ()) (hshallow : document.IsShallow) :
    ∃ s : Trail (Locator HeldStore), Reachable target settings HeldStore.Outside s
      ∧ Document.ofBytes settings.format s.state.store.bytes = .ok document.markClean
      ∧ s.state.addresses = {} := by
  exact ⟨_, .stored target settings hvalid hshallow, Document.ofBytes_toBytes hvalid hshallow, rfl⟩

/-- A name that is not known yet is resolved by the document that the store holds. -/
theorem Reachable.getAddress_answer {target : Target} {settings : Settings}
    {s : Trail (Locator HeldStore)} (h : Reachable target settings HeldStore.Outside s)
    {document : Document}
    (hread : Document.ofBytes settings.format s.state.store.bytes = .ok document)
    {name : String} (hunknown : s.state.addresses.contains name = false) :
    (Locator.getAddress target settings name).answer s = document.resolve target settings name :=
  (coherent_of_reachable h).getAddress_answer_of_read hread
    (by simpa [Addresses.contains] using hunknown)

variable {target : Target} {algorithm : Algorithm} {registry : Option Registry}

/-- In a session with the default format and any of the algorithms, let the store hold a document
with a fresh entry of a signature and an offset that stands for it. The signature has a significant
part then, and as long as the offset's name is not known, asking for it gives what the standard
search of the module for that part gives. If the signature begins and ends with significant places
or is empty, then the part is the signature itself; so it is for all signatures but those that were
made with wildcards to be kept at the ends. -/
theorem getAddress_ofSignature {s : Trail (Locator HeldStore)}
    (h : Reachable target { algorithm, registry } HeldStore.Outside s) {document : Document}
    (hread : Document.ofBytes {} s.state.store.bytes = .ok document) {name : String}
    {signature : Signature} (hpattern : PatternEntry.ofSignature name signature ∈ document.patterns)
    (hoffset : ⟨name, none⟩ ∈ document.offsets)
    (hunknown : s.state.addresses.contains (Text.trim name) = false) :
    ∃ cut, signature.trimmed = .ok cut
      ∧ (getAddress target { algorithm, registry } (Text.trim name)).answer s
        = ({ signature := cut } : Search).found target
      ∧ (signature.IsTrimmed → cut = signature) ∧ (signature.MadeTrimmed → cut = signature) := by
  obtain ⟨hvalid, -, -⟩ := Document.of_ofBytes_eq_ok hread
  have hnames := Document.namesDiffer_of_validate hvalid
  obtain ⟨_, hsignature⟩ := Document.exists_signature_of_validate hvalid hpattern
  rw [PatternEntry.signature_ofSignature] at hsignature
  obtain ⟨cut, hcut, -⟩ := Except.map_eq_ok hsignature
  have hkept (htrimmed : signature.IsTrimmed) : cut = signature := by
    rw [htrimmed.trimmed_eq] at hcut
    exact (Except.ok.inj hcut).symm
  refine ⟨cut, hcut, ?_, hkept, fun hmade => hkept hmade.isTrimmed⟩
  rw [h.getAddress_answer hread hunknown, Document.resolve_implicit target _ hnames hoffset]
  exact (hnames.answer_eq target _ hpattern).trans
    (PatternEntry.answer_ofSignature target algorithm registry name hcut)

/-- Of a signature with wildcards at its ends the part between them is found. -/
theorem getAddress_ofSignature_cut :
    let target : Target :=
      ⟨⟨0x1000, 4, "1.0"⟩, (⟨0x1000, [1, 0x0A, 2, 0xFF]⟩ : Buffer).memory, true⟩
    let signature : Signature :=
      ⟨[⟨7, false⟩, .exactly 0x0A, ⟨9, false⟩, .exactly 0xFF, ⟨1, false⟩]⟩
    let middle : Signature := ⟨[.exactly 0x0A, ⟨9, false⟩, .exactly 0xFF]⟩
    let document : Document := ⟨[.ofSignature " Code" signature], [⟨" Code", none⟩], false⟩
    ∃ s : Trail (Locator HeldStore),
      Reachable target { algorithm := .naive } HeldStore.Outside s
        ∧ Document.ofBytes {} s.state.store.bytes = .ok document
        ∧ s.state.addresses.contains "Code" = false
        ∧ signature.trimmed = .ok middle
        ∧ (getAddress target { algorithm := .naive } "Code").answer s
          = ({ signature := middle } : Search).found target
        ∧ ({ signature := middle } : Search).found target = .ok 0x1001 := by
  intro target signature middle document
  have hvalid : document.validate {} = .ok () := by decide +kernel
  obtain ⟨s, hreachable, hread, hnone⟩ :=
    exists_reachable target { algorithm := .naive } hvalid (by decide)
  have htrim : Text.trim " Code" = "Code" := by decide
  have hunknown : s.state.addresses.contains (Text.trim " Code") = false := by
    rw [hnone]
    rfl
  have hmiddle : signature.trimmed = .ok middle := by decide
  have hfound : ({ signature := middle } : Search).found target = .ok 0x1001 := by decide +kernel
  obtain ⟨cut, hcut, hanswer, -⟩ :=
    getAddress_ofSignature hreachable hread List.mem_cons_self List.mem_cons_self hunknown
  obtain rfl : middle = cut := Except.ok.inj (hmiddle.symm.trans hcut)
  rw [htrim] at hanswer hunknown
  exact ⟨s, hreachable, hread, hunknown, hmiddle, hanswer, hfound⟩

/-- Wildcards that were kept are lost in the text: a signature that begins with one is found at the
module's base, and the offset that stands for it leads to the byte behind. -/
theorem getAddress_ofSignature_shifted :
    let target : Target := ⟨⟨0x1000, 2, "1.0"⟩, (⟨0x1000, [0x00, 0x10]⟩ : Buffer).memory, true⟩
    let signature : Signature := ⟨[⟨0, false⟩, .exactly 0x10]⟩
    let document : Document := ⟨[.ofSignature "Code" signature], [⟨"Code", none⟩], false⟩
    Signature.ofMasked [0x00, 0x10] (some [false, true]) false = .ok signature
      ∧ ({ signature } : Search).found target = .ok 0x1000
      ∧ ∃ s : Trail (Locator HeldStore), Reachable target {} HeldStore.Outside s
        ∧ Document.ofBytes {} s.state.store.bytes = .ok document
        ∧ s.state.addresses.contains "Code" = false
        ∧ (getAddress target {} "Code").answer s = .ok 0x1001 := by
  intro target signature document
  have hvalid : document.validate {} = .ok () := by decide +kernel
  have hfound : ({ signature } : Search).found target = .ok 0x1000 := by decide +kernel
  have hresolve : document.resolve target {} "Code" = .ok 0x1001 := by decide +kernel
  obtain ⟨s, hreachable, hread, hnone⟩ := exists_reachable target {} hvalid (by decide)
  have hunknown : s.state.addresses.contains "Code" = false := by
    rw [hnone]
    rfl
  exact ⟨rfl, hfound, s, hreachable, hread, hunknown,
    (hreachable.getAddress_answer hread hunknown).trans hresolve⟩

end Locator

end Landmark
