import Mathlib.Algebra.Ring.Nat
import SemanticPass.Proofs.Table.Occurrences
import SemanticPass.Table.Constant

/-!
# A store groups sightings by their keys

Whatever sightings are recorded, and in whatever order, a store shows each key once, where it was
first seen, with the lines of all its sightings in the order of these. No sighting is lost, and
nothing else of the sightings is seen. Keys need not be equal to count as one: `==` may be any
equivalence that hashing respects. The constant table is such a store of literals.
-/

namespace SemanticPass

namespace Occurrences

variable {κ : Type} [BEq κ]

/-! ## Keys without repetitions -/

/-- Items are taken one by one from the front, each with all items after it that count as it. -/
theorem firstSeen_induction {α : Type} (same : α → α → Bool) {P : List α → Prop} (nil : P [])
    (cons : ∀ item items, P (items.filter fun other => !same other item) → P (item :: items))
    (items : List α) : P items := by
  match items with
  | [] => exact nil
  | item :: items => exact cons item items (firstSeen_induction same nil cons _)
termination_by items.length
decreasing_by exact Nat.lt_succ_of_le (List.length_filter_le _ _)

theorem eraseDups_sublist (keys : List κ) : keys.eraseDups.Sublist keys := by
  induction keys using firstSeen_induction (fun key other : κ => key == other) with
  | nil => exact List.Sublist.refl _
  | cons key keys ih =>
      rw [List.eraseDups_cons]
      exact (ih.trans List.filter_sublist).cons_cons key

section

variable [EquivBEq κ]

/-- Of keys that count as one, only one is kept. -/
theorem pairwise_eraseDups (keys : List κ) :
    keys.eraseDups.Pairwise fun key other => (key == other) = false := by
  induction keys using firstSeen_induction (fun key other : κ => key == other) with
  | nil => exact .nil
  | cons key keys ih =>
      rw [List.eraseDups_cons]
      refine .cons (fun other hmem => ?_) ih
      have hne := (List.mem_filter.mp ((eraseDups_sublist _).subset hmem)).2
      rw [BEq.comm]
      simpa using hne

/-- Leaving one key out makes no difference to the others. -/
theorem contains_filter_ne {key other : κ} (h : (other == key) = false) (keys : List κ) :
    (keys.filter fun found => !found == key).contains other = keys.contains other := by
  rw [List.contains_filter, List.contains_eq_any_beq]
  refine List.any_congr rfl fun found => ?_
  cases hfound : other == found with
  | false => rfl
  | true =>
      rw [BEq.congr_left hfound] at h
      rw [h]
      rfl

theorem contains_eraseDups (keys : List κ) (key : κ) :
    keys.eraseDups.contains key = keys.contains key := by
  induction keys using firstSeen_induction (fun key other : κ => key == other) with
  | nil => rfl
  | cons first keys ih =>
      rw [List.eraseDups_cons, List.contains_cons, List.contains_cons]
      cases h : key == first with
      | true => rfl
      | false => exact congrArg (false || ·) (ih.trans (contains_filter_ne h keys))

/-- A key at the end is kept if none before it counts as it. -/
theorem eraseDups_concat (keys : List κ) (key : κ) :
    (keys ++ [key]).eraseDups =
      if keys.contains key then keys.eraseDups else keys.eraseDups ++ [key] := by
  induction keys using firstSeen_induction (fun key other : κ => key == other) with
  | nil => rfl
  | cons first keys ih =>
      rw [List.cons_append, List.eraseDups_cons, List.filter_append, List.eraseDups_cons,
        List.contains_cons]
      cases h : key == first with
      | true => simp [h]
      | false =>
          have hkept : [key].filter (fun other => !other == first) = [key] := by simp [h]
          rw [hkept, ih, contains_filter_ne h, Bool.false_or]
          split <;> rfl

end

/-! ## Groupings -/

/-- Rows that put sightings together by their keys. -/
structure IsGrouping (sightings : List (κ × LineNumber)) (rows : List (κ × List LineNumber)) :
    Prop where
  /-- The keys are those of the sightings, in the order in which they were first seen. -/
  keys : rows.map Prod.fst = (sightings.map Prod.fst).eraseDups
  /-- No two rows have keys that count as one. -/
  distinct : rows.Pairwise fun row other => (row.1 == other.1) = false
  /-- A row has the lines of the sightings of its key, in their order. -/
  lines : ∀ row ∈ rows, row.2 = linesIn sightings row.1
  /-- A row has a line at least. -/
  nonempty : ∀ row ∈ rows, row.2 ≠ []
  /-- The rows have a line for each sighting. -/
  total : (rows.map fun row => row.2.length).sum = sightings.length

/-- Sightings that show their keys in the same order for the first time, and have the same lines of
each key in the same order. -/
def SameGroups (sightings others : List (κ × LineNumber)) : Prop :=
  (sightings.map Prod.fst).eraseDups = (others.map Prod.fst).eraseDups ∧
    ∀ key, linesIn sightings key = linesIn others key

variable [EquivBEq κ]

/-- A key that is left out has no influence on the lines of the others. -/
theorem linesIn_filter_ne {key other : κ} (h : (other == key) = false)
    (sightings : List (κ × LineNumber)) :
    linesIn (sightings.filter fun sighting => !sighting.1 == key) other =
      linesIn sightings other := by
  rw [linesIn, linesIn, List.filter_filter]
  refine congrArg _ (List.filter_congr fun sighting _ => ?_)
  cases hown : sighting.1 == other with
  | false => rfl
  | true => rw [BEq.congr_left hown, h]; rfl

/-- Each sighting gives a line to one of the keys. -/
theorem sum_length_linesIn (sightings : List (κ × LineNumber)) :
    ((sightings.map Prod.fst).eraseDups.map fun key => (linesIn sightings key).length).sum =
      sightings.length := by
  induction sightings using firstSeen_induction
    (fun seen other : κ × LineNumber => seen.1 == other.1) with
  | nil => rfl
  | cons first sightings ih =>
      have hown : (linesIn (first :: sightings) first.1).length =
          sightings.countP (fun sighting => sighting.1 == first.1) + 1 := by
        simp [linesIn, List.countP_eq_length_filter]
      have hothers : ∀ key ∈ ((sightings.map Prod.fst).filter fun key => !key == first.1).eraseDups,
          (linesIn (first :: sightings) key).length =
            (linesIn (sightings.filter fun sighting => !sighting.1 == first.1) key).length := by
        intro key hmem
        have hne := (List.mem_filter.mp ((eraseDups_sublist _).subset hmem)).2
        have hkey : (key == first.1) = false := by simpa using hne
        have hfirst : (first.1 == key) = false := by rw [BEq.comm, hkey]
        rw [linesIn_filter_ne hkey, linesIn, List.filter_cons_of_neg (by simp [hfirst]), linesIn]
      have hsplit := List.length_eq_countP_add_countP (l := sightings)
        fun sighting => sighting.1 == first.1
      calc
        _ = (linesIn (first :: sightings) first.1).length +
              (sightings.filter fun sighting => !sighting.1 == first.1).length := by
          rw [List.map_cons, List.eraseDups_cons, List.map_cons, List.sum_cons,
            List.map_congr_left hothers, List.filter_map]
          exact congrArg _ ih
        _ = (first :: sightings).length := by
          rw [hown, List.length_cons, hsplit, List.countP_eq_length_filter,
            List.countP_eq_length_filter]
          simp
          omega

theorem isGrouping_map_linesIn (sightings : List (κ × LineNumber)) :
    IsGrouping sightings
      ((sightings.map Prod.fst).eraseDups.map fun key => (key, linesIn sightings key)) where
  keys := by simp [Function.comp_def]
  distinct := List.pairwise_map.mpr (pairwise_eraseDups _)
  lines := by simp
  nonempty := by
    intro row hmem
    obtain ⟨key, hkey, rfl⟩ := List.mem_map.mp hmem
    rw [Ne, linesIn_eq_nil_iff, Bool.not_eq_false, ← contains_eraseDups]
    exact List.contains_iff_exists_mem_beq.mpr ⟨key, hkey, BEq.rfl⟩
  total := by
    rw [List.map_map]
    exact sum_length_linesIn sightings

namespace IsGrouping

variable {sightings others : List (κ × LineNumber)} {rows more : List (κ × List LineNumber)}

omit [EquivBEq κ] in
/-- The rows are found from the sightings. -/
theorem rows_eq (h : IsGrouping sightings rows) :
    rows = (sightings.map Prod.fst).eraseDups.map fun key => (key, linesIn sightings key) := by
  rw [← h.keys, List.map_map]
  conv_lhs => rw [← List.map_id rows]
  exact List.map_congr_left fun row hmem => Prod.ext rfl (h.lines row hmem)

/-- Groupings are the same exactly if their sightings show the same keys in the same order and have
the same lines of each key. -/
theorem eq_iff (h : IsGrouping sightings rows) (ho : IsGrouping others more) :
    rows = more ↔ SameGroups sightings others := by
  constructor
  · intro heq
    have hkeys : (sightings.map Prod.fst).eraseDups = (others.map Prod.fst).eraseDups := by
      rw [← h.keys, heq, ho.keys]
    have hcontains (key : κ) :
        (sightings.map Prod.fst).contains key = (others.map Prod.fst).contains key := by
      rw [← contains_eraseDups, hkeys, contains_eraseDups]
    refine ⟨hkeys, fun key => ?_⟩
    cases hc : (sightings.map Prod.fst).contains key with
    | false => rw [linesIn_eq_nil_iff.mpr hc, linesIn_eq_nil_iff.mpr (hcontains key ▸ hc)]
    | true =>
        rw [← contains_eraseDups, ← h.keys, List.contains_iff_exists_mem_beq] at hc
        obtain ⟨_, hmem, hkey⟩ := hc
        obtain ⟨row, hrow, rfl⟩ := List.mem_map.mp hmem
        calc
          linesIn sightings key = linesIn sightings row.1 := linesIn_congr sightings hkey
          _ = row.2 := (h.lines row hrow).symm
          _ = linesIn others row.1 := ho.lines row (heq ▸ hrow)
          _ = linesIn others key := (linesIn_congr others hkey).symm
  · rintro ⟨hkeys, hlines⟩
    rw [h.rows_eq, ho.rows_eq, hkeys]
    exact List.map_congr_left fun key _ => congrArg _ (hlines key)

end IsGrouping

/-! ## Stores -/

variable [Hashable κ] [LawfulHashable κ]

/-- The keys are listed in the order in which they were first seen. -/
theorem order_recordAll (sightings : List (κ × LineNumber)) :
    ((empty : Occurrences κ).recordAll sightings).order.toList =
      (sightings.map Prod.fst).eraseDups := by
  induction sightings using List.reverseRecOn with
  | nil => rfl
  | append_singleton sightings sighting ih =>
      rw [recordAll_concat, toList_order_record, isSome_lines?_recordAll, ih, List.map_append,
        List.map_singleton, eraseDups_concat]

theorem isGrouping_recordAll (sightings : List (κ × LineNumber)) :
    IsGrouping sightings ((empty : Occurrences κ).recordAll sightings).entries := by
  have hlines (key : κ) : (((empty : Occurrences κ).recordAll sightings).lines? key).getD [] =
      linesIn sightings key := by
    rw [lines?_recordAll]
    split
    · rename_i hnone
      rw [hnone]
      rfl
    · rfl
  rw [entries, order_recordAll]
  simp only [hlines]
  exact isGrouping_map_linesIn sightings

theorem isEmpty_recordAll (sightings : List (κ × LineNumber)) :
    ((empty : Occurrences κ).recordAll sightings).isEmpty = true ↔ sightings = [] := by
  rw [isEmpty, ← Array.isEmpty_toList, order_recordAll, List.isEmpty_iff]
  constructor
  · intro hnone
    have htotal := sum_length_linesIn sightings
    rw [hnone] at htotal
    exact List.eq_nil_of_length_eq_zero htotal.symm
  · rintro rfl
    rfl

/-- The answer is `created` exactly at the first sighting of a key. -/
theorem recordAll_record_eq_created_iff (sightings : List (κ × LineNumber)) (key : κ)
    (line : LineNumber) :
    (((empty : Occurrences κ).recordAll sightings).record key line).1 = .created ↔
      (sightings.map Prod.fst).contains key = false := by
  rw [record_eq_created_iff, ← isSome_lines?_recordAll, Option.isSome_eq_false_iff,
    Option.isNone_iff_eq_none]

end Occurrences

/-! ## The constant table -/

namespace ConstantTable

/-- The table after literals, each of them with its line. -/
def addAll (table : ConstantTable) (literals : List (String × LineNumber)) : ConstantTable :=
  literals.foldl (fun table literal => (table.add literal.1 literal.2).2) table

theorem occurrences_addAll (table : ConstantTable) (literals : List (String × LineNumber)) :
    (table.addAll literals).occurrences = table.occurrences.recordAll literals := by
  induction literals generalizing table with
  | nil => rfl
  | cons literal literals ih => exact ih _

end ConstantTable

namespace Occurrences

/-- What a store shows of the sightings recorded in it, and the constant table of the literals added
to it. -/
theorem groups_by_key {κ : Type} [BEq κ] [EquivBEq κ] [Hashable κ] [LawfulHashable κ]
    (sightings : List (κ × LineNumber)) :
    let store : Occurrences κ := empty.recordAll sightings
    let seen := sightings.map Prod.fst
    IsGrouping sightings store.entries ∧
    (∀ key, store.lines? key =
      if seen.contains key then some (linesIn sightings key) else none) ∧
    (∀ key line, (store.record key line).1 = .created ↔ seen.contains key = false) ∧
    (store.isEmpty = true ↔ sightings = []) ∧
    (∀ others : List (κ × LineNumber),
      store.entries = (empty.recordAll others : Occurrences κ).entries ↔
        SameGroups sightings others) ∧
    ∀ literals : List (String × LineNumber),
      let table := ConstantTable.empty.addAll literals
      IsGrouping literals table.entries ∧
      (∀ literal line, (table.add literal line).1 = .created ↔
        literal ∉ literals.map Prod.fst) ∧
      (table.isEmpty = true ↔ literals = []) ∧
      ∀ others : List (String × LineNumber),
        table.entries = (ConstantTable.empty.addAll others).entries ↔
          SameGroups literals others := by
  intro store seen
  refine ⟨isGrouping_recordAll sightings, fun key => ?lines, ?answers, isEmpty_recordAll sightings,
    ?same, fun literals => ?constants⟩
  case lines =>
    rw [lines?_recordAll]
    cases hc : seen.contains key with
    | false => exact if_pos (linesIn_eq_nil_iff.mpr hc)
    | true => exact if_neg fun hnone => by simp [seen, linesIn_eq_nil_iff.mp hnone] at hc
  case answers => exact recordAll_record_eq_created_iff sightings
  case same =>
    intro others
    exact (isGrouping_recordAll sightings).eq_iff (isGrouping_recordAll others)
  case constants =>
    intro table
    have hstore (literals : List (String × LineNumber)) :
        (ConstantTable.empty.addAll literals).occurrences =
          (empty : Occurrences String).recordAll literals :=
      ConstantTable.occurrences_addAll ..
    have hrows (literals : List (String × LineNumber)) :
        IsGrouping literals (ConstantTable.empty.addAll literals).entries := by
      rw [ConstantTable.entries, hstore]
      exact isGrouping_recordAll literals
    refine ⟨hrows literals, fun literal line => ?_, ?_,
      fun others => (hrows literals).eq_iff (hrows others)⟩
    · rw [ConstantTable.add_recorded, hstore, recordAll_record_eq_created_iff,
        ← Bool.not_eq_true, List.contains_iff_mem]
    · rw [ConstantTable.isEmpty, hstore, isEmpty_recordAll]

/-- Names seen in turns, as rows. -/
theorem groups_by_key_in_turns :
    ((empty : Occurrences String).recordAll
      [("z", 1), ("a", 2), ("m", 3), ("a", 4), ("z", 5), ("a", 4)]).entries =
      [("z", [1, 5]), ("a", [2, 4, 4]), ("m", [3])] := by
  obtain ⟨hrows, -⟩ :=
    groups_by_key [("z", 1), ("a", 2), ("m", 3), ("a", 4), ("z", 5), ("a", 4)]
  rw [hrows.rows_eq]
  decide

end Occurrences

end SemanticPass
