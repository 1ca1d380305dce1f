import Mathlib.Data.Nat.Digits.Defs
import SemanticPass.Proofs.Text.Fields
import SemanticPass.Text.Numeral

/-!
# Numerals and their values

What the readers of numerals accept. A numeral is described without reading it: its digits are a
positional expansion to base ten, and a sign may stand before them. The readers of fixed-width
values accept exactly the numerals of the values of their width, so that a bound on the value is
no condition of its own.
-/

namespace SemanticPass.Text

/-- A non-empty run of ASCII digits, the most significant first, writes a number. -/
structure IsDigits (text : List Char) (n : Nat) : Prop where
  ne_nil : text ≠ []
  isDigit : ∀ c ∈ text, c.isDigit = true
  value : Nat.ofDigits 10 (text.reverse.map fun c => c.toNat - '0'.toNat) = n

/-- Digits write a number, alone or after a plus sign. -/
def IsUnsigned (text : List Char) (n : Nat) : Prop :=
  IsDigits text n ∨ ∃ digits, text = '+' :: digits ∧ IsDigits digits n

/-- An unsigned numeral writes its number, and digits after a minus sign write a negative one. -/
def IsSigned (text : List Char) (z : Int) : Prop :=
  (∃ n : Nat, IsUnsigned text n ∧ z = n) ∨
    ∃ (digits : List Char) (n : Nat), text = '-' :: digits ∧ IsDigits digits n ∧ z = -n

theorem isBlank_of_isDigit {c : Char} (h : c.isDigit = true) : isBlank c = false := by
  simp only [Char.isDigit, Bool.and_eq_true, decide_eq_true_eq, ge_iff_le, UInt32.le_iff_toNat_le]
    at h
  have hlow : 48 ≤ c.toNat := h.1
  have hhigh : c.toNat ≤ 57 := h.2
  simp [isBlank, blankRanges]
  omega

theorem IsDigits.isWord {text : List Char} {n : Nat} (h : IsDigits text n) : IsWord text where
  ne_nil := h.ne_nil
  isInk c hc := isBlank_of_isDigit (h.isDigit c hc)

theorem IsDigits.isWord_sign {digits : List Char} {n : Nat} (h : IsDigits digits n) {sign : Char}
    (hs : isBlank sign = false) : IsWord (sign :: digits) where
  ne_nil := by simp
  isInk c hc := by
    rcases List.mem_cons.mp hc with rfl | hc
    · exact hs
    · exact h.isWord.isInk c hc

theorem IsUnsigned.isWord {text : List Char} {n : Nat} (h : IsUnsigned text n) : IsWord text := by
  rcases h with h | ⟨digits, rfl, h⟩
  · exact h.isWord
  · exact h.isWord_sign (by decide)

theorem IsSigned.isWord {text : List Char} {z : Int} (h : IsSigned text z) : IsWord text := by
  rcases h with ⟨n, h, -⟩ | ⟨digits, n, rfl, h, -⟩
  · exact h.isWord
  · exact h.isWord_sign (by decide)

namespace Numeral

theorem value_eq_ofDigits (text : List Char) :
    value text = Nat.ofDigits 10 (text.reverse.map digitValue) := by
  rw [Nat.ofDigits_eq_foldr, List.foldr_map, List.foldr_reverse, value]
  simp only [Nat.cast_id, Nat.add_comm]

theorem digits?_eq_some_iff {text : List Char} {n : Nat} :
    digits? text = some n ↔ IsDigits text n := by
  constructor
  · intro h
    unfold digits? at h
    split at h
    · rename_i hc
      simp only [Bool.and_eq_true, Bool.not_eq_true', List.isEmpty_eq_false_iff, List.all_eq_true]
        at hc
      refine ⟨hc.1, hc.2, ?_⟩
      rw [← Option.some.inj h, value_eq_ofDigits]
      rfl
    · cases h
  · intro hread
    obtain ⟨hne, hd, hv⟩ := hread
    have hall : (!text.isEmpty && text.all Char.isDigit) = true := by
      simpa [hne] using hd
    rw [digits?, if_pos hall, value_eq_ofDigits]
    exact congrArg some hv

/-- A sign is no digit, so digits have none. -/
theorem digits?_sign {sign : Char} (h : sign.isDigit = false) (rest : List Char) :
    digits? (sign :: rest) = none := by
  simp [digits?, h]

theorem unsigned?_eq_some_iff {bound : Nat} {text : List Char} {n : Nat} :
    unsigned? bound text = some n ↔ IsUnsigned text n ∧ n < bound := by
  simp only [unsigned?, Option.filter_eq_some_iff, decide_eq_true_eq, IsUnsigned,
    ← digits?_eq_some_iff]
  refine and_congr_left fun _ => ?_
  split
  · rename_i rest
    rw [digits?_sign rfl]
    simp
  · rename_i hplus
    constructor
    · exact .inl
    · rintro (h | ⟨digits, rfl, h⟩)
      · exact h
      · exact absurd rfl (hplus digits)

/-- A numeral after a minus sign is not unsigned. -/
theorem not_isUnsigned_minus (rest : List Char) (n : Nat) : ¬ IsUnsigned ('-' :: rest) n := by
  rintro (h | ⟨digits, h, _⟩)
  · rw [← digits?_eq_some_iff, digits?_sign rfl] at h
    cases h
  · cases h

theorem signed?_eq_some_iff {bound : Nat} (h : 0 < bound) {text : List Char} {z : Int} :
    signed? bound text = some z ↔ IsSigned text z ∧ -(bound : Int) ≤ z ∧ z < bound := by
  unfold signed? IsSigned
  split
  · rename_i rest
    simp only [not_isUnsigned_minus, false_and, exists_false, false_or, List.cons.injEq, true_and,
      Option.map_eq_some_iff, Option.bind_eq_bind, Option.bind_eq_some_iff, Option.pure_def,
      Option.some.injEq, Option.filter_eq_some_iff, decide_eq_true_eq, digits?_eq_some_iff]
    constructor
    · intro hread
      obtain ⟨_, ⟨n, ⟨hd, hn⟩, rfl⟩, rfl⟩ := hread
      exact ⟨⟨rest, n, rfl, hd, rfl⟩, by omega, by omega⟩
    · intro hread
      obtain ⟨⟨_, n, rfl, hd, rfl⟩, hlow, _⟩ := hread
      exact ⟨n, ⟨n, ⟨hd, by omega⟩, rfl⟩, rfl⟩
  · rename_i hminus
    simp only [Option.map_eq_some_iff, Option.bind_eq_bind, Option.bind_eq_some_iff,
      Option.pure_def, Option.some.injEq, unsigned?_eq_some_iff]
    constructor
    · intro hread
      obtain ⟨_, ⟨n, ⟨hu, hn⟩, rfl⟩, rfl⟩ := hread
      exact ⟨.inl ⟨n, hu, rfl⟩, by omega, by omega⟩
    · rintro ⟨⟨n, hu, rfl⟩ | ⟨digits, _, rfl, _⟩, _, hhigh⟩
      · exact ⟨n, ⟨n, ⟨hu, by omega⟩, rfl⟩, rfl⟩
      · exact absurd rfl (hminus digits)

/-! ## Values of fixed width -/

theorem word64?_eq_some_iff {text : List Char} {word : UInt64} :
    word64? text = some word ↔ IsUnsigned text word.toNat := by
  simp only [word64?, Option.map_eq_some_iff, unsigned?_eq_some_iff]
  constructor
  · intro hread
    obtain ⟨n, ⟨hu, hn⟩, rfl⟩ := hread
    rwa [UInt64.toNat_ofNat_of_lt' hn]
  · intro hu
    exact ⟨word.toNat, ⟨hu, word.toNat_lt⟩, UInt64.ofNat_toNat⟩

theorem word8?_eq_some_iff {text : List Char} {word : UInt8} :
    word8? text = some word ↔ IsUnsigned text word.toNat := by
  simp only [word8?, Option.map_eq_some_iff, unsigned?_eq_some_iff]
  constructor
  · intro hread
    obtain ⟨n, ⟨hu, hn⟩, rfl⟩ := hread
    rwa [UInt8.toNat_ofNat_of_lt' hn]
  · intro hu
    exact ⟨word.toNat, ⟨hu, word.toNat_lt⟩, UInt8.ofNat_toNat⟩

theorem integer64?_eq_some_iff {text : List Char} {integer : Int64} :
    integer64? text = some integer ↔ IsSigned text integer.toInt := by
  have hpos : 0 < UInt64.size / 2 := by decide
  simp only [integer64?, Option.map_eq_some_iff, signed?_eq_some_iff hpos]
  constructor
  · intro hread
    obtain ⟨z, ⟨hs, hlow, hhigh⟩, rfl⟩ := hread
    rwa [Int64.toInt_ofInt_of_le hlow hhigh]
  · intro hs
    exact ⟨integer.toInt, ⟨hs, integer.le_toInt, integer.toInt_lt⟩, Int64.ofInt_toInt integer⟩

end Numeral

end SemanticPass.Text
