import Landmark.Signature.Basic

/-!
# Skip tables

After a window of the haystack has failed to match, the byte under the signature's last place says
how far the window may move on: to the nearest earlier place that could match that byte. A table
holds that distance for every byte. No distance is zero, so a search that moves by the table always
ends.

Placeholders under wildcards take part in the tightening like all other bytes; they cannot make a
distance smaller, because the distance to the nearest wildcard bounds the whole table already.
-/

namespace Landmark

/-- For each byte, how far a window may move on. -/
structure SkipTable where
  shifts : Vector Nat 256
  shifts_pos : ∀ i : Fin 256, 0 < shifts[i]

namespace SkipTable

/-- How far a window may move on when `byte` is under its last place. -/
def shift (table : SkipTable) (byte : UInt8) : Nat :=
  table.shifts[byte.toFin]

theorem shift_pos (table : SkipTable) (byte : UInt8) : 0 < table.shift byte :=
  table.shifts_pos byte.toFin

/-- The table that moves by the same distance whatever the byte. -/
def constant (distance : Nat) (h : 0 < distance) : SkipTable where
  shifts := Vector.replicate 256 distance
  shifts_pos i := by simpa using h

/-- The table that moves by at most `distance` for one byte. -/
def tighten (table : SkipTable) (byte : UInt8) (distance : Nat) (h : 0 < distance) :
    SkipTable where
  shifts := table.shifts.set byte.toNat (min distance (table.shift byte)) byte.toNat_lt
  shifts_pos i := by
    rw [Fin.getElem_fin, Vector.getElem_set]
    split
    · exact Nat.lt_min.2 ⟨h, table.shift_pos byte⟩
    · exact table.shifts_pos i

/-- Tightens a table for the places before the last one, nearest first, the first of them being
`distance` away from it. -/
def tightenBack (distance : Nat) (h : 0 < distance) (table : SkipTable) :
    List Place → SkipTable
  | [] => table
  | place :: places =>
    tightenBack (distance + 1) (Nat.succ_pos distance) (table.tighten place.byte distance h) places

/-- The distance from the last place back to the nearest wildcard among the places before it,
given nearest first, or the length of the whole signature when there is none. -/
def reach (before : List Place) : Nat :=
  (before.takeWhile Place.significant).length + 1

/-- The table of a signature. The empty signature has no last place; its windows move by one. -/
def build (places : List Place) : SkipTable :=
  match places.reverse with
  | [] => constant 1 Nat.one_pos
  | _ :: before =>
    tightenBack 1 Nat.one_pos (constant (reach before) (Nat.succ_pos _)) before

/-- The distances of all bytes in order. -/
def toList (table : SkipTable) : List Nat :=
  table.shifts.toList

/-- The bytes whose distance differs from the largest one, with those distances. -/
def exceptions (table : SkipTable) : List (Nat × Nat) :=
  let largest := table.toList.foldl max 0
  (table.toList.zipIdx.filter fun entry => entry.1 ≠ largest).map fun entry => (entry.2, entry.1)

/-- The text of one exception: the byte in two lower-case digits and its distance. -/
def exceptionText (entry : Nat × Nat) : String :=
  (if entry.1 < 16 then "0x0" else "0x") ++ Numeral.lowerHex entry.1 ++ ": "
    ++ Numeral.write 10 entry.2

/-- The table as text: the exceptions only, in ascending order. -/
def text (table : SkipTable) : String :=
  "\x7b" ++ ", ".intercalate (table.exceptions.map exceptionText) ++ "\x7d"

end SkipTable

end Landmark
