import Std.Data.HashMap

/-!
# Occurrences of keys on lines

A store of where keys were seen: the keys in the order of their first sighting, and for each
key the lines of all its sightings in the order they were recorded. The lines are found through
a hash map; the order of the keys is kept beside it, so that nothing depends on hashing.

The hash map of arrays stands for a multimap. Inserting a line for a key puts the line behind those
that the key has, and the multimap contains a key exactly if something was inserted for it, so a key
that it contains has a line.
-/

namespace SemanticPass

/-- A line of the analysed program. -/
abbrev LineNumber := UInt64

/-- Whether recording a sighting made a new entry or extended one. -/
inductive Recorded where
  | created
  | appended
  deriving DecidableEq, Repr

/-- The lines on which each key was seen, and the keys in the order of their first sighting. -/
structure Occurrences (κ : Type) [BEq κ] [Hashable κ] where
  /-- The keys seen so far, the oldest first. -/
  order : Array κ := #[]
  /-- For each key the lines of its sightings, the oldest first. -/
  linesByKey : Std.HashMap κ (Array LineNumber) := ∅

namespace Occurrences

variable {κ : Type} [BEq κ] [Hashable κ]

/-- The store in which nothing was seen. -/
def empty : Occurrences κ := {}

/-- Adds a line at the end of a key's lines, which are empty before its first sighting. -/
def addLine (line : LineNumber) (lines : Option (Array LineNumber)) : Option (Array LineNumber) :=
  some ((lines.getD #[]).push line)

/-- Records that a key was seen on a line. -/
def record (seen : Occurrences κ) (key : κ) (line : LineNumber) : Recorded × Occurrences κ :=
  if seen.linesByKey.contains key then
    (.appended, { seen with linesByKey := seen.linesByKey.alter key (addLine line) })
  else
    (.created, {
      order := seen.order.push key
      linesByKey := seen.linesByKey.alter key (addLine line) })

/-- The lines on which a key was seen, or none if it was not. -/
def lines? (seen : Occurrences κ) (key : κ) : Option (List LineNumber) :=
  seen.linesByKey[key]?.map Array.toList

/-- Whether nothing was seen. -/
def isEmpty (seen : Occurrences κ) : Bool := seen.order.isEmpty

/-- Every key with its lines, in the order of first sighting. -/
def entries (seen : Occurrences κ) : List (κ × List LineNumber) :=
  seen.order.toList.map fun key => (key, (seen.lines? key).getD [])

@[simp]
theorem order_empty : (empty : Occurrences κ).order = #[] := rfl

@[simp]
theorem linesByKey_empty : (empty : Occurrences κ).linesByKey = ∅ := rfl

/-- The map of lines changes at the recorded key only, whether or not the key is new. -/
@[simp]
theorem linesByKey_record (seen : Occurrences κ) (key : κ) (line : LineNumber) :
    (seen.record key line).2.linesByKey = seen.linesByKey.alter key (addLine line) := by
  unfold record
  split <;> rfl

/-- The order grows, at its end, exactly by a key that was not seen before. -/
theorem order_record (seen : Occurrences κ) (key : κ) (line : LineNumber) :
    (seen.record key line).2.order =
      if seen.linesByKey.contains key then seen.order else seen.order.push key := by
  unfold record
  split <;> rfl

/-- The answer is `created` exactly for a key that was not seen before. -/
theorem record_eq_created_iff [EquivBEq κ] [LawfulHashable κ] (seen : Occurrences κ) (key : κ)
    (line : LineNumber) : (seen.record key line).1 = .created ↔ seen.lines? key = none := by
  unfold record lines?
  split
  · rename_i h
    rw [Std.HashMap.contains_eq_isSome_getElem?] at h
    simpa [Option.isSome_iff_ne_none] using h
  · rename_i h
    rw [Std.HashMap.contains_eq_isSome_getElem?] at h
    simpa using h

/-- After a sighting the recorded key has one line more, and every other key has its lines. -/
theorem lines?_record [EquivBEq κ] [LawfulHashable κ] (seen : Occurrences κ) (key : κ)
    (line : LineNumber) (other : κ) :
    (seen.record key line).2.lines? other =
      if key == other then some ((seen.lines? key).getD [] ++ [line]) else seen.lines? other := by
  simp only [lines?, linesByKey_record, Std.HashMap.getElem?_alter, addLine]
  split
  · cases seen.linesByKey[key]? <;> simp
  · rfl

end Occurrences

end SemanticPass
