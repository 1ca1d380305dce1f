import Mathlib.Data.List.Basic
import Mathlib.Data.List.TakeWhile
import SemanticPass.Text.Blank

/-!
# Fields between blanks

How a line is laid out, without reading it: blanks, fields with gaps of blanks between them, and
blanks again. Every field but the last is a word. The last one is a phrase, which begins and ends
with characters that are not blank and may have blanks in between.
-/

namespace SemanticPass.Text

/-- Text of blanks only. -/
def AllBlank (text : List Char) : Prop := ∀ c ∈ text, isBlank c = true

theorem AllBlank.nil : AllBlank [] := nofun

theorem AllBlank.append {first second : List Char} (hf : AllBlank first) (hs : AllBlank second) :
    AllBlank (first ++ second) := by
  intro c hc
  exact (List.mem_append.mp hc).elim (hf c) (hs c)

/-- A non-empty text without blanks. -/
structure IsWord (text : List Char) : Prop where
  ne_nil : text ≠ []
  isInk : ∀ c ∈ text, isBlank c = false

theorem isWord_iff {text : List Char} :
    IsWord text ↔ (!text.isEmpty && text.all isInk) = true := by
  simp only [Bool.and_eq_true, Bool.not_eq_true', List.isEmpty_eq_false_iff, List.all_eq_true,
    isInk]
  constructor
  · intro h
    exact ⟨h.ne_nil, h.isInk⟩
  · rintro ⟨hne, hink⟩
    exact ⟨hne, hink⟩

instance (text : List Char) : Decidable (IsWord text) := decidable_of_iff' _ isWord_iff

/-- A non-empty text that neither begins nor ends with a blank. -/
structure IsPhrase (text : List Char) : Prop where
  ne_nil : text ≠ []
  head : ∀ c ∈ text.head?, isBlank c = false
  last : ∀ c ∈ text.getLast?, isBlank c = false

/-- Fields in order with gaps of blanks between them: words, and a phrase at the end. -/
inductive Spaced : List (List Char) → List Char → Prop where
  | nil : Spaced [] []
  | last {phrase} (h : IsPhrase phrase) : Spaced [phrase] phrase
  | more {word gap field fields text} (hw : IsWord word) (hne : gap ≠ []) (hg : AllBlank gap)
      (h : Spaced (field :: fields) text) : Spaced (word :: field :: fields) (word ++ (gap ++ text))

/-- The fields of a text, when the blanks at both ends are stripped. -/
def LaidOut (fields : List (List Char)) (text : List Char) : Prop :=
  ∃ lead core trail, AllBlank lead ∧ AllBlank trail ∧ text = lead ++ (core ++ trail) ∧
    Spaced fields core

theorem IsWord.isPhrase {text : List Char} (h : IsWord text) : IsPhrase text where
  ne_nil := h.ne_nil
  head c hc := h.isInk c (List.mem_of_mem_head? hc)
  last c hc := h.isInk c (List.mem_of_mem_getLast? hc)

theorem Spaced.isPhrase {fields : List (List Char)} {text : List Char} (h : Spaced fields text)
    (hf : fields ≠ []) : IsPhrase text := by
  induction h with
  | nil => exact absurd rfl hf
  | last h => exact h
  | @more word gap field fields text hw hne hg h ih =>
      have hmore := ih (by simp)
      refine ⟨by simp [hw.ne_nil], ?_, ?_⟩
      · rw [List.head?_append_of_ne_nil _ hw.ne_nil]
        exact hw.isPhrase.head
      · rw [List.getLast?_append_of_ne_nil _ (by simp [hne]),
          List.getLast?_append_of_ne_nil _ hmore.ne_nil]
        exact hmore.last

/-- What a field is made of stands in the text. -/
theorem Spaced.subset {fields : List (List Char)} {text : List Char} (h : Spaced fields text) :
    ∀ field ∈ fields, field ⊆ text := by
  induction h with
  | nil => simp
  | last h => simp
  | @more word gap field fields text hw hne hg h ih =>
      intro found hfound
      rcases List.mem_cons.mp hfound with rfl | hfound
      · exact List.subset_append_left _ _
      · have hmore : text ⊆ word ++ (gap ++ text) :=
          List.Subset.trans (List.subset_append_right _ _) (List.subset_append_right _ _)
        exact List.Subset.trans (ih found hfound) hmore

/-! ## Stripping blanks -/

/-- Blanks before a text that does not begin with one are what is stripped from its start. -/
theorem trimStart_append {lead text : List Char} (hl : AllBlank lead)
    (ht : ∀ c ∈ text.head?, isBlank c = false) : trimStart (lead ++ text) = text := by
  rw [trimStart, List.dropWhile_append_of_pos hl]
  cases text with
  | nil => rfl
  | cons c text => rw [List.dropWhile_cons_of_neg (by simp [ht c rfl])]

theorem exists_trimStart (text : List Char) :
    ∃ lead, AllBlank lead ∧ text = lead ++ trimStart text :=
  ⟨text.takeWhile isBlank, fun _ => List.mem_takeWhile_imp,
    List.takeWhile_append_dropWhile.symm⟩

theorem trimEnd_append {text trail : List Char} (ht : AllBlank trail)
    (hl : ∀ c ∈ text.getLast?, isBlank c = false) : trimEnd (text ++ trail) = text := by
  have htrail : AllBlank trail.reverse := by simpa [AllBlank] using ht
  have htext : ∀ c ∈ text.reverse.head?, isBlank c = false := by simpa using hl
  have h := trimStart_append htrail htext
  rw [trimStart] at h
  rw [trimEnd, List.reverse_append, h, List.reverse_reverse]

theorem exists_trimEnd (text : List Char) :
    ∃ trail, AllBlank trail ∧ text = trimEnd text ++ trail := by
  obtain ⟨lead, hl, h⟩ := exists_trimStart text.reverse
  refine ⟨lead.reverse, by simpa [AllBlank] using hl, ?_⟩
  rw [trimEnd, ← List.reverse_append, ← trimStart, ← h, List.reverse_reverse]

/-- A text that was stripped at its start does not begin with a blank. -/
theorem head_trimStart (text : List Char) : ∀ c ∈ (trimStart text).head?, isBlank c = false := by
  intro c hc
  obtain ⟨rest, h⟩ := List.head?_eq_some_iff.mp hc
  exact isBlank_head_trimStart h

theorem last_trimEnd (text : List Char) : ∀ c ∈ (trimEnd text).getLast?, isBlank c = false := by
  intro c hc
  rw [trimEnd, List.getLast?_reverse] at hc
  exact head_trimStart text.reverse c hc

theorem trim_eq_nil_iff {text : List Char} : trim text = [] ↔ AllBlank text := by
  constructor
  · intro h
    obtain ⟨lead, hl, hlead⟩ := exists_trimStart text
    obtain ⟨trail, ht, htrail⟩ := exists_trimEnd (trimStart text)
    rw [trim] at h
    rw [h, List.nil_append] at htrail
    rw [hlead, htrail]
    exact hl.append ht
  · intro h
    rw [trim, ← List.append_nil text, trimStart_append h (by simp), trimEnd_nil]

/-- What is left of a text without the blanks at both ends is a phrase, unless it is empty. -/
theorem trim_eq_iff {text phrase : List Char} (h : IsPhrase phrase) :
    trim text = phrase ↔
      ∃ lead trail, AllBlank lead ∧ AllBlank trail ∧ text = lead ++ (phrase ++ trail) := by
  constructor
  · intro htrim
    obtain ⟨lead, hl, hlead⟩ := exists_trimStart text
    obtain ⟨trail, ht, htrail⟩ := exists_trimEnd (trimStart text)
    exact ⟨lead, trail, hl, ht, by rw [← htrim, trim, ← htrail, ← hlead]⟩
  · intro hlaid
    obtain ⟨lead, trail, hl, ht, rfl⟩ := hlaid
    have hhead : ∀ c ∈ (phrase ++ trail).head?, isBlank c = false := by
      rw [List.head?_append_of_ne_nil _ h.ne_nil]
      exact h.head
    rw [trim, trimStart_append hl hhead, trimEnd_append ht h.last]

/-- What is stripped of the blanks at both ends is a phrase or nothing. -/
theorem isPhrase_trim {text : List Char} (h : trim text ≠ []) : IsPhrase (trim text) where
  ne_nil := h
  head := by
    obtain ⟨trail, -, htrail⟩ := exists_trimEnd (trimStart text)
    have hhead := head_trimStart text
    rw [htrail, ← trim, List.head?_append_of_ne_nil _ h] at hhead
    exact hhead
  last := last_trimEnd (trimStart text)

theorem trim_subset (text : List Char) : trim text ⊆ text := by
  obtain ⟨lead, -, hlead⟩ := exists_trimStart text
  obtain ⟨trail, -, htrail⟩ := exists_trimEnd (trimStart text)
  rw [← trim] at htrail
  intro c hc
  rw [hlead, htrail]
  simp [hc]

/-! ## The first field -/

theorem takeWhile_isInk_append {word rest : List Char} (hw : IsWord word)
    (hr : ∀ c ∈ rest.head?, isBlank c = true) : (word ++ rest).takeWhile isInk = word := by
  rw [List.takeWhile_append_of_pos (by simpa [isInk] using hw.isInk)]
  cases rest with
  | nil => simp
  | cons c rest => simp [isInk, hr c rfl]

theorem dropWhile_isInk_append {word rest : List Char} (hw : IsWord word)
    (hr : ∀ c ∈ rest.head?, isBlank c = true) : (word ++ rest).dropWhile isInk = rest := by
  rw [List.dropWhile_append_of_pos (by simpa [isInk] using hw.isInk)]
  cases rest with
  | nil => rfl
  | cons c rest => simp [isInk, hr c rfl]

/-- The first field of a text is a word, with blanks before it, and with blanks after it unless
it ends the text. -/
theorem splitField_eq_some_iff {text word rest : List Char} :
    splitField text = some (word, rest) ↔
      IsWord word ∧ (∀ c ∈ rest.head?, isBlank c = false) ∧
        ∃ lead gap, AllBlank lead ∧ AllBlank gap ∧ (gap = [] → rest = []) ∧
          text = lead ++ (word ++ (gap ++ rest)) := by
  constructor
  · intro h
    have hne := ne_nil_of_splitField h
    obtain ⟨lead, hl, hlead⟩ := exists_trimStart text
    unfold splitField at h
    split at h
    · cases h
    · rename_i c tail hs
      obtain ⟨rfl, rfl⟩ := Prod.mk.injEq .. ▸ Option.some.inj h
      obtain ⟨gap, hg, hgap⟩ := exists_trimStart ((c :: tail).dropWhile isInk)
      refine ⟨⟨hne, fun d hd => ?_⟩, head_trimStart _, lead, gap, hl, hg, ?_, ?_⟩
      · simpa [isInk] using List.mem_takeWhile_imp hd
      · -- Without a gap the characters after the word begin with a blank, and with none.
        rintro rfl
        rw [List.nil_append] at hgap
        rw [← hgap]
        cases hrest : (c :: tail).dropWhile isInk with
        | nil => rfl
        | cons d rest =>
            have hink := head_trimStart ((c :: tail).dropWhile isInk) d (by rw [← hgap, hrest]; rfl)
            have hblank := List.head?_dropWhile_not isInk (c :: tail)
            rw [hrest] at hblank
            simp [isInk, hink] at hblank
      · rw [← hgap, List.takeWhile_append_dropWhile, ← hs]
        exact hlead
  · intro hlaid
    obtain ⟨hw, hr, lead, gap, hl, hg, hgap, rfl⟩ := hlaid
    have hafter : ∀ c ∈ (gap ++ rest).head?, isBlank c = true := by
      cases gap with
      | nil => simp [hgap rfl]
      | cons d gap => simpa using hg d (by simp)
    have hstart : trimStart (lead ++ (word ++ (gap ++ rest))) = word ++ (gap ++ rest) := by
      apply trimStart_append hl
      rw [List.head?_append_of_ne_nil _ hw.ne_nil]
      exact hw.isPhrase.head
    obtain ⟨c, tail, hword⟩ := List.exists_cons_of_ne_nil hw.ne_nil
    unfold splitField
    rw [hstart, hword]
    simp only [List.cons_append]
    rw [← List.cons_append, ← hword, takeWhile_isInk_append hw hafter,
      dropWhile_isInk_append hw hafter, trimStart_append hg hr]

/-! ## Layouts -/

namespace LaidOut

variable {fields : List (List Char)} {text word field : List Char}

theorem subset (h : LaidOut fields text) (hf : field ∈ fields) : field ⊆ text := by
  obtain ⟨lead, core, trail, -, -, rfl, hs⟩ := h
  intro c hc
  simp [hs.subset field hf hc]

/-- A layout without fields is blank. -/
theorem nil_iff : LaidOut [] text ↔ trim text = [] := by
  rw [trim_eq_nil_iff]
  constructor
  · intro hlaid
    obtain ⟨lead, _, trail, hl, ht, rfl, hs⟩ := hlaid
    cases hs
    exact hl.append ht
  · intro h
    exact ⟨text, [], [], h, by simp [AllBlank], by simp, .nil⟩

/-- A layout of one phrase is the phrase with blanks around it. -/
theorem phrase_iff : LaidOut [field] text ↔ trim text = field ∧ field ≠ [] := by
  constructor
  · intro hlaid
    obtain ⟨lead, _, trail, hl, ht, rfl, hs⟩ := hlaid
    cases hs with
    | last h => exact ⟨(trim_eq_iff h).mpr ⟨lead, trail, hl, ht, rfl⟩, h.ne_nil⟩
  · rintro ⟨rfl, hne⟩
    have h := isPhrase_trim hne
    obtain ⟨lead, trail, hl, ht, htext⟩ := (trim_eq_iff h).mp rfl
    exact ⟨lead, trim text, trail, hl, ht, htext, .last h⟩

theorem isPhrase (h : LaidOut [field] text) : IsPhrase field := by
  obtain ⟨rfl, hne⟩ := phrase_iff.mp h
  exact isPhrase_trim hne

/-- A layout of one word has nothing but blanks after it. -/
theorem word_iff (hw : IsWord word) :
    LaidOut [word] text ↔ ∃ rest, splitField text = some (word, rest) ∧ trim rest = [] := by
  rw [phrase_iff, and_iff_left hw.ne_nil, trim_eq_iff hw.isPhrase]
  simp only [splitField_eq_some_iff, trim_eq_nil_iff]
  constructor
  · intro hlaid
    obtain ⟨lead, trail, hl, ht, rfl⟩ := hlaid
    exact ⟨[], ⟨hw, by simp, lead, trail, hl, ht, fun _ => rfl, by simp⟩, by simp [AllBlank]⟩
  · intro hlaid
    obtain ⟨rest, ⟨-, -, lead, gap, hl, hg, -, rfl⟩, hr⟩ := hlaid
    exact ⟨lead, gap ++ rest, hl, hg.append hr, rfl⟩

/-- A layout of more than one field begins with a word and a gap. -/
theorem cons_cons_iff :
    LaidOut (word :: field :: fields) text ↔
      ∃ rest, splitField text = some (word, rest) ∧ LaidOut (field :: fields) rest := by
  simp only [splitField_eq_some_iff]
  constructor
  · intro hlaid
    obtain ⟨lead, _, trail, hl, ht, rfl, hs⟩ := hlaid
    cases hs with
    | @more _ gap _ _ core hw hne hg hs =>
        have hcore := hs.isPhrase (by simp)
        refine ⟨core ++ trail, ⟨hw, ?_, lead, gap, hl, hg, fun h => absurd h hne, by simp⟩,
          [], core, trail, by simp [AllBlank], ht, rfl, hs⟩
        rw [List.head?_append_of_ne_nil _ hcore.ne_nil]
        exact hcore.head
  · intro hlaid
    obtain ⟨rest, ⟨hw, -, lead, gap, hl, hg, hgap, rfl⟩, lead', core, trail, hl', ht, rfl, hs⟩ := hlaid
    have hcore := hs.isPhrase (by simp)
    refine ⟨lead, word ++ ((gap ++ lead') ++ core), trail, hl, ht, by simp,
      .more hw ?_ (hg.append hl') hs⟩
    intro h
    have hrest := hgap (List.append_eq_nil_iff.mp h).1
    simp [hcore.ne_nil] at hrest

/-- A layout that begins with a word goes on where the word is split off. -/
theorem cons_iff (hw : IsWord word) :
    LaidOut (word :: fields) text ↔
      ∃ rest, splitField text = some (word, rest) ∧ LaidOut fields rest := by
  cases fields with
  | nil => simpa only [nil_iff] using word_iff hw
  | cons field fields => exact cons_cons_iff

end LaidOut

end SemanticPass.Text
