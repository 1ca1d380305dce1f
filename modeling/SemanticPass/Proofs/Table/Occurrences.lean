import Mathlib.Data.List.Induction
import SemanticPass.Occurrences

/-!
# The order of keys agrees with the map of lines

The store keeps its keys in a list and their lines in a map, and asks the map alone whether a
key is new. Both stay in step: no key is listed twice, and the listed keys are those with lines.
The lines of a key are those of its sightings, in the order in which they were recorded.
-/

namespace SemanticPass.Occurrences

variable {κ : Type} [BEq κ] [Hashable κ]

section

variable [EquivBEq κ] [LawfulHashable κ]

/-- The map has a key exactly when the key has lines. -/
theorem contains_eq_isSome_lines? (seen : Occurrences κ) (key : κ) :
    seen.linesByKey.contains key = (seen.lines? key).isSome := by
  rw [Std.HashMap.contains_eq_isSome_getElem?, lines?, Option.isSome_map]

/-- The list of keys grows, at its end, by a key without lines. -/
theorem toList_order_record (seen : Occurrences κ) (key : κ) (line : LineNumber) :
    (seen.record key line).2.order.toList =
      if (seen.lines? key).isSome then seen.order.toList else seen.order.toList ++ [key] := by
  rw [order_record, contains_eq_isSome_lines?]
  split
  · rfl
  · exact Array.toList_push

/-- A listed key was listed before or is the one just seen. -/
theorem mem_order_of_record {seen : Occurrences κ} {key other : κ} {line : LineNumber}
    (h : other ∈ (seen.record key line).2.order.toList) :
    other ∈ seen.order.toList ∨ other = key := by
  rw [toList_order_record] at h
  split at h
  · exact .inl h
  · simpa using h

end

section

variable [LawfulBEq κ]

/-- The listed keys are the keys with lines, each listed once. -/
structure Coherent (seen : Occurrences κ) : Prop where
  /-- No key is listed twice. -/
  nodup : seen.order.toList.Nodup
  /-- A key is listed exactly when it has lines. -/
  mem_order_iff : ∀ key, key ∈ seen.order.toList ↔ (seen.lines? key).isSome

theorem isSome_lines?_record (seen : Occurrences κ) (key : κ) (line : LineNumber) (other : κ) :
    ((seen.record key line).2.lines? other).isSome ↔
      key = other ∨ (seen.lines? other).isSome := by
  rw [lines?_record]
  by_cases h : key = other
  · simp [h]
  · simp [h]

theorem coherent_empty : (empty : Occurrences κ).Coherent where
  nodup := by simp
  mem_order_iff := by simp [lines?]

/-- A sighting keeps the list of keys and the map of lines in step. -/
theorem Coherent.record {seen : Occurrences κ} (h : seen.Coherent) (key : κ)
    (line : LineNumber) : (seen.record key line).2.Coherent := by
  constructor
  · rw [toList_order_record]
    split
    · exact h.nodup
    · rename_i hk
      have hmem : key ∉ seen.order.toList := fun hm => hk ((h.mem_order_iff key).mp hm)
      refine List.nodup_append.mpr ⟨h.nodup, by simp, ?_⟩
      intro a ha b hb
      obtain rfl : b = key := by simpa using hb
      exact fun heq => hmem (heq ▸ ha)
  · intro other
    rw [isSome_lines?_record, toList_order_record]
    split
    · rename_i hk
      constructor
      · exact fun hm => .inr ((h.mem_order_iff other).mp hm)
      · rintro (rfl | hs)
        · exact (h.mem_order_iff _).mpr hk
        · exact (h.mem_order_iff other).mpr hs
    · rw [List.mem_append, List.mem_singleton, h.mem_order_iff, or_comm, eq_comm]

end

/-! ## Sightings one after the other -/

/-- The store after sightings, each of them a key with its line. -/
def recordAll (seen : Occurrences κ) (sightings : List (κ × LineNumber)) : Occurrences κ :=
  sightings.foldl (fun seen sighting => (seen.record sighting.1 sighting.2).2) seen

/-- The lines of a key among sightings, in the order of the sightings. -/
def linesIn (sightings : List (κ × LineNumber)) (key : κ) : List LineNumber :=
  (sightings.filter fun sighting => sighting.1 == key).map Prod.snd

theorem recordAll_concat (seen : Occurrences κ) (sightings : List (κ × LineNumber))
    (sighting : κ × LineNumber) :
    seen.recordAll (sightings ++ [sighting]) =
      ((seen.recordAll sightings).record sighting.1 sighting.2).2 := List.foldl_append

omit [Hashable κ] in
theorem linesIn_concat (sightings : List (κ × LineNumber)) (key : κ) (line : LineNumber)
    (other : κ) :
    linesIn (sightings ++ [(key, line)]) other =
      linesIn sightings other ++ if key == other then [line] else [] := by
  rw [linesIn, linesIn, List.filter_append, List.map_append]
  cases hk : key == other <;> simp [hk]

variable [EquivBEq κ]

omit [Hashable κ] in
/-- Keys that count as one have the same lines. -/
theorem linesIn_congr (sightings : List (κ × LineNumber)) {key other : κ}
    (h : (key == other) = true) : linesIn sightings key = linesIn sightings other := by
  simp only [linesIn, BEq.congr_right h]

omit [Hashable κ] in
theorem linesIn_eq_nil_iff {sightings : List (κ × LineNumber)} {key : κ} :
    linesIn sightings key = [] ↔ (sightings.map Prod.fst).contains key = false := by
  rw [linesIn, List.map_eq_nil_iff, List.filter_eq_nil_iff, List.contains_eq_any_beq,
    List.any_map, List.any_eq_false]
  simp only [Function.comp_apply, BEq.comm (a := key)]

variable [LawfulHashable κ]

/-- A key has the lines of its sightings, or none at all if it was not seen. -/
theorem lines?_recordAll (sightings : List (κ × LineNumber)) (key : κ) :
    ((empty : Occurrences κ).recordAll sightings).lines? key =
      if linesIn sightings key = [] then none else some (linesIn sightings key) := by
  induction sightings using List.reverseRecOn with
  | nil => simp [recordAll, linesIn, lines?]
  | append_singleton sightings sighting ih =>
      rw [recordAll_concat, lines?_record, linesIn_concat]
      by_cases hk : (sighting.1 == key) = true
      · -- The store has the lines of the recorded key under every key that counts as it.
        have hlines : ((empty : Occurrences κ).recordAll sightings).lines? sighting.1 =
            ((empty : Occurrences κ).recordAll sightings).lines? key := by
          rw [lines?, lines?, Std.HashMap.getElem?_congr hk]
        rw [hlines, ih]
        by_cases hnone : linesIn sightings key = [] <;> simp [hnone, hk]
      · simp [hk, ih]

/-- The keys that were seen are those of the sightings. -/
theorem isSome_lines?_recordAll (sightings : List (κ × LineNumber)) (key : κ) :
    (((empty : Occurrences κ).recordAll sightings).lines? key).isSome =
      (sightings.map Prod.fst).contains key := by
  rw [lines?_recordAll]
  split
  · rename_i hnone
    rw [linesIn_eq_nil_iff.mp hnone]
    rfl
  · rename_i hsome
    rw [linesIn_eq_nil_iff, Bool.not_eq_false] at hsome
    rw [hsome]
    rfl

end SemanticPass.Occurrences
