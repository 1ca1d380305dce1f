import SemanticPass.Event.Reader
import SemanticPass.Proofs.Text.Numerals

/-!
# The grammar of events

What a line must look like to write an event: the words of the event, its keyword first, laid out
with blanks between them. The grammar says what each word is and not how it is found, and the
reader accepts exactly the lines of the grammar.
-/

namespace SemanticPass

open Text

/-- The operand of a check is an underscore or a type code. -/
inductive ActualType.Written : List Char → ActualType → Prop where
  | lastResolved : Written ['_'] .lastResolved
  | code {digits code} (h : IsUnsigned digits code.toNat) : Written digits (.code code)

namespace Event

/-- The words that write an event, the keyword first. -/
inductive Written : List (List Char) → Event → Prop where
  | token {tag digits line lexeme} (ht : isBlank tag = false) (hl : IsUnsigned digits line.toNat)
      (hx : IsPhrase lexeme.toList) :
      Written ["token".toList, [tag], digits, lexeme.toList] (.token tag line lexeme)
  | constant {digits line literal} (hl : IsUnsigned digits line.toNat)
      (hx : IsPhrase literal.toList) :
      Written ["constant".toList, digits, literal.toList] (.constant line literal)
  | declare {digits line name} (hl : IsUnsigned digits line.toNat) (hn : IsWord name.toList) :
      Written ["declare".toList, digits, name.toList] (.declare line name)
  | record {digits line name} (hl : IsUnsigned digits line.toNat) (hn : IsWord name.toList) :
      Written ["record".toList, digits, name.toList] (.record line name)
  | use {digits line name} (hl : IsUnsigned digits line.toNat) (hn : IsWord name.toList) :
      Written ["use".toList, digits, name.toList] (.use line name)
  | beginType {tag} (ht : isBlank tag = false) : Written ["type".toList, [tag]] (.beginType tag)
  | endType : Written ["endtype".toList] .endType
  | expect {digits code} (hc : IsUnsigned digits code.toNat) :
      Written ["expect".toList, digits] (.expect code)
  | check {operand actual digits expected number line} (ha : ActualType.Written operand actual)
      (he : IsUnsigned digits expected.toNat) (hl : IsUnsigned number line.toNat) :
      Written ["check".toList, operand, digits, number] (.check actual expected line)
  | index {digits value number line} (hv : IsSigned digits value.toInt)
      (hl : IsUnsigned number line.toNat) :
      Written ["index".toList, digits, number] (.index value line)
  | enterScope : Written ["scope".toList, "enter".toList] .enterScope
  | exitScope : Written ["scope".toList, "exit".toList] .exitScope
  | enterFunction : Written ["function".toList] .enterFunction

/-- The names of an event are words, its texts are phrases, and its tags are no blanks. -/
def WellFormed : Event → Prop
  | .token tag _ lexeme => isBlank tag = false ∧ IsPhrase lexeme.toList
  | .constant _ literal => IsPhrase literal.toList
  | .beginType tag => isBlank tag = false
  | .declare _ name | .record _ name | .use _ name => IsWord name.toList
  | _ => True

/-! ## Readers of fields -/

theorem bind_eq_ok_iff {ε α β : Type} {answer : Except ε α} {next : α → Except ε β} {b : β} :
    answer >>= next = .ok b ↔ ∃ a, answer = .ok a ∧ next a = .ok b := by
  cases answer with
  | error e => simp [bind, Except.bind]
  | ok a => simp [bind, Except.bind]

theorem readField_eq_ok_iff {field : Field} {text : List Char} {reading : List Char × List Char} :
    readField field text = .ok reading ↔ splitField text = some reading := by
  unfold readField
  cases splitField text <;> simp

theorem readValue_eq_ok_iff {α : Type} {value? : List Char → Option α} {field : Field}
    {text : List Char} {reading : α × List Char} :
    readValue value? field text = .ok reading ↔
      ∃ found, splitField text = some (found, reading.2) ∧ value? found = some reading.1 := by
  obtain ⟨value, rest⟩ := reading
  simp only [readValue, bind_eq_ok_iff, readField_eq_ok_iff]
  constructor
  · intro hread
    obtain ⟨⟨found, _⟩, hs, h⟩ := hread
    cases hv : value? found with
    | none => simp [hv] at h
    | some _ =>
        simp only [hv, Except.ok.injEq, Prod.mk.injEq] at h
        obtain ⟨rfl, rfl⟩ := h
        exact ⟨found, hs, hv⟩
  · intro hread
    obtain ⟨found, hs, hv⟩ := hread
    exact ⟨(found, rest), hs, by simp [hv]⟩

theorem readTag_eq_ok_iff {field : Field} {text : List Char} {reading : Char × List Char} :
    readTag field text = .ok reading ↔ splitField text = some ([reading.1], reading.2) := by
  obtain ⟨tag, rest⟩ := reading
  simp only [readTag, bind_eq_ok_iff, readField_eq_ok_iff]
  constructor
  · intro hread
    obtain ⟨⟨found, _⟩, hs, h⟩ := hread
    split at h
    · rename_i c heq
      cases heq
      cases h
      exact hs
    · cases h
  · intro hs
    exact ⟨([tag], rest), hs, rfl⟩

/-- The text of a token or a constant is a phrase that takes up all that is left. -/
theorem readText_eq_ok_iff {field : Field} {text : List Char} {found : String}
    (h : ∀ c ∈ text.head?, isBlank c = false) :
    readText field text = .ok found ↔ LaidOut [found.toList] text := by
  have htrim : trim text = trimEnd text := by
    rw [trim, ← List.nil_append text, trimStart_append (by simp [AllBlank]) h, List.nil_append]
  rw [LaidOut.phrase_iff, htrim]
  unfold readText
  cases hx : trimEnd text with
  | nil =>
      simp only [reduceCtorEq, false_iff, not_and, not_not]
      exact Eq.symm
  | cons c rest =>
      simp only [Except.ok.injEq]
      constructor
      · rintro rfl
        simp
      · rintro ⟨hfound, -⟩
        rw [hfound, String.ofList_toList]

theorem finish_eq_ok_iff {text : List Char} {event found : Event} :
    finish text event = .ok found ↔ LaidOut [] text ∧ event = found := by
  rw [LaidOut.nil_iff]
  unfold finish
  cases trim text <;> simp

theorem readLine_eq_ok_iff {text : List Char} {reading : LineNumber × List Char} :
    readLine text = .ok reading ↔
      ∃ digits, splitField text = some (digits, reading.2) ∧
        IsUnsigned digits reading.1.toNat := by
  simp only [readLine, readValue_eq_ok_iff, Numeral.word64?_eq_some_iff]

theorem actualType?_eq_some_iff {found : List Char} {actual : ActualType} :
    actualType? found = some actual ↔ ActualType.Written found actual := by
  unfold actualType?
  constructor
  · intro h
    split at h
    · rename_i hf
      cases h
      rw [hf]
      exact .lastResolved
    · obtain ⟨code, hc, rfl⟩ := Option.map_eq_some_iff.mp h
      exact .code (Numeral.word8?_eq_some_iff.mp hc)
  · intro h
    cases h with
    | lastResolved => rfl
    | code h =>
        rw [if_neg, Numeral.word8?_eq_some_iff.mpr h]
        · rfl
        · rintro rfl
          rcases h with h | ⟨_, h, -⟩
          · exact absurd (h.isDigit '_' (by simp)) (by decide)
          · cases h

/-! ## The fields of each keyword -/

variable {text : List Char} {event : Event}

theorem readFields_token_iff :
    readFields .token text = .ok event ↔
      ∃ tag digits line lexeme, isBlank tag = false ∧ IsUnsigned digits (UInt64.toNat line) ∧
        IsPhrase lexeme.toList ∧ LaidOut [[tag], digits, lexeme.toList] text ∧
        .token tag line lexeme = event := by
  simp only [readFields, bind_eq_ok_iff, Prod.exists, readTag_eq_ok_iff, readLine_eq_ok_iff]
  constructor
  · intro hread
    obtain ⟨tag, more, ht, line, rest, ⟨digits, hs, hl⟩, lexeme, hx, h⟩ := hread
    cases h
    obtain ⟨htag, -⟩ := splitField_eq_some_iff.mp ht
    obtain ⟨-, hhead, -⟩ := splitField_eq_some_iff.mp hs
    have hlast := (readText_eq_ok_iff hhead).mp hx
    refine ⟨tag, digits, line, lexeme, htag.isInk tag (by simp), hl, hlast.isPhrase, ?_, rfl⟩
    exact (LaidOut.cons_iff htag).mpr ⟨more, ht, (LaidOut.cons_iff hl.isWord).mpr ⟨rest, hs, hlast⟩⟩
  · intro hread
    obtain ⟨tag, digits, line, lexeme, -, hl, -, hlaid, rfl⟩ := hread
    obtain ⟨more, ht, hlaid⟩ := LaidOut.cons_cons_iff.mp hlaid
    obtain ⟨rest, hs, hlast⟩ := LaidOut.cons_cons_iff.mp hlaid
    obtain ⟨-, hhead, -⟩ := splitField_eq_some_iff.mp hs
    exact ⟨tag, more, ht, line, rest, ⟨digits, hs, hl⟩, lexeme,
      (readText_eq_ok_iff hhead).mpr hlast, rfl⟩

theorem readFields_constant_iff :
    readFields .constant text = .ok event ↔
      ∃ digits line literal, IsUnsigned digits (UInt64.toNat line) ∧ IsPhrase literal.toList ∧
        LaidOut [digits, literal.toList] text ∧ .constant line literal = event := by
  simp only [readFields, bind_eq_ok_iff, Prod.exists, readLine_eq_ok_iff]
  constructor
  · intro hread
    obtain ⟨line, rest, ⟨digits, hs, hl⟩, literal, hx, h⟩ := hread
    cases h
    obtain ⟨-, hhead, -⟩ := splitField_eq_some_iff.mp hs
    have hlast := (readText_eq_ok_iff hhead).mp hx
    exact ⟨digits, line, literal, hl, hlast.isPhrase,
      (LaidOut.cons_iff hl.isWord).mpr ⟨rest, hs, hlast⟩, rfl⟩
  · intro hread
    obtain ⟨digits, line, literal, hl, -, hlaid, rfl⟩ := hread
    obtain ⟨rest, hs, hlast⟩ := LaidOut.cons_cons_iff.mp hlaid
    obtain ⟨-, hhead, -⟩ := splitField_eq_some_iff.mp hs
    exact ⟨line, rest, ⟨digits, hs, hl⟩, literal, (readText_eq_ok_iff hhead).mpr hlast, rfl⟩

theorem readNamed_eq_ok_iff {named : LineNumber → String → Event} :
    readNamed named text = .ok event ↔
      ∃ digits line name, IsUnsigned digits (UInt64.toNat line) ∧ IsWord name.toList ∧
        LaidOut [digits, name.toList] text ∧ named line name = event := by
  simp only [readNamed, bind_eq_ok_iff, Prod.exists, readLine_eq_ok_iff, readField_eq_ok_iff,
    finish_eq_ok_iff]
  constructor
  · intro hread
    obtain ⟨line, more, ⟨digits, hs, hl⟩, name, rest, hn, hend, rfl⟩ := hread
    obtain ⟨hname, -⟩ := splitField_eq_some_iff.mp hn
    refine ⟨digits, line, String.ofList name, hl, ?_, ?_, rfl⟩
    · rwa [String.toList_ofList]
    · rw [String.toList_ofList]
      refine (LaidOut.cons_iff hl.isWord).mpr ⟨more, hs, ?_⟩
      exact (LaidOut.cons_iff hname).mpr ⟨rest, hn, hend⟩
  · intro hread
    obtain ⟨digits, line, name, hl, hname, hlaid, rfl⟩ := hread
    obtain ⟨more, hs, hlaid⟩ := LaidOut.cons_cons_iff.mp hlaid
    obtain ⟨rest, hn, hend⟩ := (LaidOut.cons_iff hname).mp hlaid
    exact ⟨line, more, ⟨digits, hs, hl⟩, name.toList, rest, hn, hend, by rw [String.ofList_toList]⟩

theorem readFields_type_iff :
    readFields .type text = .ok event ↔
      ∃ tag, isBlank tag = false ∧ LaidOut [[tag]] text ∧ .beginType tag = event := by
  simp only [readFields, bind_eq_ok_iff, Prod.exists, readTag_eq_ok_iff, finish_eq_ok_iff]
  constructor
  · intro hread
    obtain ⟨tag, rest, ht, hend, rfl⟩ := hread
    obtain ⟨htag, -⟩ := splitField_eq_some_iff.mp ht
    exact ⟨tag, htag.isInk tag (by simp), (LaidOut.cons_iff htag).mpr ⟨rest, ht, hend⟩, rfl⟩
  · intro hread
    obtain ⟨tag, ht, hlaid, rfl⟩ := hread
    have htag : IsWord [tag] := ⟨by simp, by simpa using ht⟩
    obtain ⟨rest, ht, hend⟩ := (LaidOut.cons_iff htag).mp hlaid
    exact ⟨tag, rest, ht, hend, rfl⟩

theorem readFields_expect_iff :
    readFields .expect text = .ok event ↔
      ∃ digits code, IsUnsigned digits (UInt8.toNat code) ∧ LaidOut [digits] text ∧
        .expect code = event := by
  simp only [readFields, bind_eq_ok_iff, Prod.exists, readValue_eq_ok_iff,
    Numeral.word8?_eq_some_iff, finish_eq_ok_iff]
  constructor
  · intro hread
    obtain ⟨code, rest, ⟨digits, hs, hc⟩, hend, rfl⟩ := hread
    exact ⟨digits, code, hc, (LaidOut.cons_iff hc.isWord).mpr ⟨rest, hs, hend⟩, rfl⟩
  · intro hread
    obtain ⟨digits, code, hc, hlaid, rfl⟩ := hread
    obtain ⟨rest, hs, hend⟩ := (LaidOut.cons_iff hc.isWord).mp hlaid
    exact ⟨code, rest, ⟨digits, hs, hc⟩, hend, rfl⟩

theorem readFields_check_iff :
    readFields .check text = .ok event ↔
      ∃ operand actual digits expected number line, ActualType.Written operand actual ∧
        IsUnsigned digits (UInt8.toNat expected) ∧ IsUnsigned number (UInt64.toNat line) ∧
        LaidOut [operand, digits, number] text ∧ .check actual expected line = event := by
  simp only [readFields, bind_eq_ok_iff, Prod.exists, readValue_eq_ok_iff, readLine_eq_ok_iff,
    actualType?_eq_some_iff, Numeral.word8?_eq_some_iff, finish_eq_ok_iff]
  constructor
  · intro hread
    obtain ⟨actual, more, ⟨operand, ho, ha⟩, expected, rest, ⟨digits, hd, he⟩, line, last,
      ⟨number, hn, hl⟩, hend, rfl⟩ := hread
    obtain ⟨hoperand, -⟩ := splitField_eq_some_iff.mp ho
    refine ⟨operand, actual, digits, expected, number, line, ha, he, hl, ?_, rfl⟩
    refine (LaidOut.cons_iff hoperand).mpr ⟨more, ho, ?_⟩
    refine (LaidOut.cons_iff he.isWord).mpr ⟨rest, hd, ?_⟩
    exact (LaidOut.cons_iff hl.isWord).mpr ⟨last, hn, hend⟩
  · intro hread
    obtain ⟨operand, actual, digits, expected, number, line, ha, he, hl, hlaid, rfl⟩ := hread
    obtain ⟨more, ho, hlaid⟩ := LaidOut.cons_cons_iff.mp hlaid
    obtain ⟨rest, hd, hlaid⟩ := LaidOut.cons_cons_iff.mp hlaid
    obtain ⟨last, hn, hend⟩ := (LaidOut.cons_iff hl.isWord).mp hlaid
    exact ⟨actual, more, ⟨operand, ho, ha⟩, expected, rest, ⟨digits, hd, he⟩, line, last,
      ⟨number, hn, hl⟩, hend, rfl⟩

theorem readFields_index_iff :
    readFields .index text = .ok event ↔
      ∃ digits value number line, IsSigned digits (Int64.toInt value) ∧
        IsUnsigned number (UInt64.toNat line) ∧ LaidOut [digits, number] text ∧
        .index value line = event := by
  simp only [readFields, bind_eq_ok_iff, Prod.exists, readValue_eq_ok_iff, readLine_eq_ok_iff,
    Numeral.integer64?_eq_some_iff, finish_eq_ok_iff]
  constructor
  · intro hread
    obtain ⟨value, more, ⟨digits, hd, hv⟩, line, rest, ⟨number, hn, hl⟩, hend, rfl⟩ := hread
    refine ⟨digits, value, number, line, hv, hl, ?_, rfl⟩
    refine (LaidOut.cons_iff hv.isWord).mpr ⟨more, hd, ?_⟩
    exact (LaidOut.cons_iff hl.isWord).mpr ⟨rest, hn, hend⟩
  · intro hread
    obtain ⟨digits, value, number, line, hv, hl, hlaid, rfl⟩ := hread
    obtain ⟨more, hd, hlaid⟩ := LaidOut.cons_cons_iff.mp hlaid
    obtain ⟨rest, hn, hend⟩ := (LaidOut.cons_iff hl.isWord).mp hlaid
    exact ⟨value, more, ⟨digits, hd, hv⟩, line, rest, ⟨number, hn, hl⟩, hend, rfl⟩

theorem readFields_scope_iff :
    readFields .scope text = .ok event ↔
      LaidOut ["enter".toList] text ∧ .enterScope = event ∨
        LaidOut ["exit".toList] text ∧ .exitScope = event := by
  have henter : IsWord "enter".toList := by decide
  have hexit : IsWord "exit".toList := by decide
  simp only [readFields, bind_eq_ok_iff, Prod.exists, readField_eq_ok_iff]
  constructor
  · intro hread
    obtain ⟨direction, rest, hs, h⟩ := hread
    split at h
    · rename_i hd
      obtain ⟨hend, rfl⟩ := finish_eq_ok_iff.mp h
      obtain rfl : direction = "enter".toList := by rw [← hd, String.toList_ofList]
      exact .inl ⟨(LaidOut.cons_iff henter).mpr ⟨rest, hs, hend⟩, rfl⟩
    · rename_i hd
      obtain ⟨hend, rfl⟩ := finish_eq_ok_iff.mp h
      obtain rfl : direction = "exit".toList := by rw [← hd, String.toList_ofList]
      exact .inr ⟨(LaidOut.cons_iff hexit).mpr ⟨rest, hs, hend⟩, rfl⟩
    · cases h
  · rintro (⟨hlaid, rfl⟩ | ⟨hlaid, rfl⟩)
    · obtain ⟨rest, hs, hend⟩ := (LaidOut.cons_iff henter).mp hlaid
      exact ⟨_, rest, hs, finish_eq_ok_iff.mpr ⟨hend, rfl⟩⟩
    · obtain ⟨rest, hs, hend⟩ := (LaidOut.cons_iff hexit).mp hlaid
      exact ⟨_, rest, hs, finish_eq_ok_iff.mpr ⟨hend, rfl⟩⟩

/-! ## A line -/

/-- The fields that were read after a keyword write the event with it. -/
theorem written_of_readFields {keyword : Keyword} (h : readFields keyword text = .ok event) :
    ∃ fields, Written (keyword.text.toList :: fields) event ∧ LaidOut fields text := by
  cases keyword with
  | token =>
      obtain ⟨tag, digits, line, lexeme, ht, hl, hx, hlaid, rfl⟩ := readFields_token_iff.mp h
      exact ⟨_, .token ht hl hx, hlaid⟩
  | constant =>
      obtain ⟨digits, line, literal, hl, hx, hlaid, rfl⟩ := readFields_constant_iff.mp h
      exact ⟨_, .constant hl hx, hlaid⟩
  | declare =>
      obtain ⟨digits, line, name, hl, hn, hlaid, rfl⟩ := readNamed_eq_ok_iff.mp h
      exact ⟨_, .declare hl hn, hlaid⟩
  | record =>
      obtain ⟨digits, line, name, hl, hn, hlaid, rfl⟩ := readNamed_eq_ok_iff.mp h
      exact ⟨_, .record hl hn, hlaid⟩
  | use =>
      obtain ⟨digits, line, name, hl, hn, hlaid, rfl⟩ := readNamed_eq_ok_iff.mp h
      exact ⟨_, .use hl hn, hlaid⟩
  | type =>
      obtain ⟨tag, ht, hlaid, rfl⟩ := readFields_type_iff.mp h
      exact ⟨_, .beginType ht, hlaid⟩
  | endtype =>
      obtain ⟨hend, rfl⟩ := finish_eq_ok_iff.mp h
      exact ⟨_, .endType, hend⟩
  | expect =>
      obtain ⟨digits, code, hc, hlaid, rfl⟩ := readFields_expect_iff.mp h
      exact ⟨_, .expect hc, hlaid⟩
  | check =>
      obtain ⟨operand, actual, digits, expected, number, line, ha, he, hl, hlaid, rfl⟩ :=
        readFields_check_iff.mp h
      exact ⟨_, .check ha he hl, hlaid⟩
  | index =>
      obtain ⟨digits, value, number, line, hv, hl, hlaid, rfl⟩ := readFields_index_iff.mp h
      exact ⟨_, .index hv hl, hlaid⟩
  | scope =>
      rcases readFields_scope_iff.mp h with ⟨hlaid, rfl⟩ | ⟨hlaid, rfl⟩
      · exact ⟨_, .enterScope, hlaid⟩
      · exact ⟨_, .exitScope, hlaid⟩
  | function =>
      obtain ⟨hend, rfl⟩ := finish_eq_ok_iff.mp h
      exact ⟨_, .enterFunction, hend⟩

/-- The words that write an event begin with a keyword, and the words after it are read as the
event wherever they are laid out. -/
theorem Written.readFields_eq_ok {words : List (List Char)} (h : Written words event) :
    ∃ keyword fields, words = (Keyword.text keyword).toList :: fields ∧
      ∀ text, LaidOut fields text → readFields keyword text = .ok event := by
  cases h with
  | token ht hl hx =>
      exact ⟨.token, _, rfl, fun _ hlaid =>
        readFields_token_iff.mpr ⟨_, _, _, _, ht, hl, hx, hlaid, rfl⟩⟩
  | constant hl hx =>
      exact ⟨.constant, _, rfl, fun _ hlaid =>
        readFields_constant_iff.mpr ⟨_, _, _, hl, hx, hlaid, rfl⟩⟩
  | declare hl hn =>
      exact ⟨.declare, _, rfl, fun _ hlaid => readNamed_eq_ok_iff.mpr ⟨_, _, _, hl, hn, hlaid, rfl⟩⟩
  | record hl hn =>
      exact ⟨.record, _, rfl, fun _ hlaid => readNamed_eq_ok_iff.mpr ⟨_, _, _, hl, hn, hlaid, rfl⟩⟩
  | use hl hn =>
      exact ⟨.use, _, rfl, fun _ hlaid => readNamed_eq_ok_iff.mpr ⟨_, _, _, hl, hn, hlaid, rfl⟩⟩
  | beginType ht =>
      exact ⟨.type, _, rfl, fun _ hlaid => readFields_type_iff.mpr ⟨_, ht, hlaid, rfl⟩⟩
  | endType => exact ⟨.endtype, _, rfl, fun _ hend => finish_eq_ok_iff.mpr ⟨hend, rfl⟩⟩
  | expect hc =>
      exact ⟨.expect, _, rfl, fun _ hlaid => readFields_expect_iff.mpr ⟨_, _, hc, hlaid, rfl⟩⟩
  | check ha he hl =>
      exact ⟨.check, _, rfl, fun _ hlaid =>
        readFields_check_iff.mpr ⟨_, _, _, _, _, _, ha, he, hl, hlaid, rfl⟩⟩
  | index hv hl =>
      exact ⟨.index, _, rfl, fun _ hlaid =>
        readFields_index_iff.mpr ⟨_, _, _, _, hv, hl, hlaid, rfl⟩⟩
  | enterScope =>
      exact ⟨.scope, _, rfl, fun _ hlaid => readFields_scope_iff.mpr (.inl ⟨hlaid, rfl⟩)⟩
  | exitScope =>
      exact ⟨.scope, _, rfl, fun _ hlaid => readFields_scope_iff.mpr (.inr ⟨hlaid, rfl⟩)⟩
  | enterFunction => exact ⟨.function, _, rfl, fun _ hend => finish_eq_ok_iff.mpr ⟨hend, rfl⟩⟩

theorem isWord_keyword (keyword : Keyword) : IsWord keyword.text.toList := by
  cases keyword <;> decide

/-- A line is read as an event exactly when it lays out words that write the event. -/
theorem read_eq_ok_iff :
    read text = .ok event ↔ ∃ words, Written words event ∧ LaidOut words text := by
  unfold read
  constructor
  · intro h
    split at h
    · cases h
    · rename_i word rest hs
      split at h
      · cases h
      · rename_i keyword hk
        obtain ⟨fields, hw, hlaid⟩ := written_of_readFields h
        have hword : word = keyword.text.toList := by
          rw [← Keyword.eq_text_of_ofText? hk, String.toList_ofList]
        subst hword
        exact ⟨_, hw, (LaidOut.cons_iff (isWord_keyword keyword)).mpr ⟨rest, hs, hlaid⟩⟩
  · intro hwritten
    obtain ⟨words, hw, hlaid⟩ := hwritten
    obtain ⟨keyword, fields, rfl, hread⟩ := hw.readFields_eq_ok
    obtain ⟨rest, hs, hlaid⟩ := (LaidOut.cons_iff (isWord_keyword keyword)).mp hlaid
    rw [hs]
    simp only [String.ofList_toList, Keyword.ofText?_text]
    exact hread rest hlaid

example : read " token o\t+003  a  b ".toList = .ok (.token 'o' 3 "a  b") := rfl

theorem Written.wellFormed {words : List (List Char)} (h : Written words event) :
    event.WellFormed := by
  cases h with
  | token ht hl hx => exact ⟨ht, hx⟩
  | constant hl hx => exact hx
  | declare hl hn => exact hn
  | record hl hn => exact hn
  | use hl hn => exact hn
  | beginType ht => exact ht
  | _ => trivial

/-- A line is read as an event exactly when it writes the event, it is rejected exactly when it
writes none, and the events that are read are well formed. -/
theorem read_exact (text : String) :
    (∀ event, read text.toList = .ok event ↔
      ∃ words, Written words event ∧ LaidOut words text.toList) ∧
    ((∃ error, read text.toList = .error error) ↔
      ¬ ∃ event words, Written words event ∧ LaidOut words text.toList) ∧
    ∀ event, read text.toList = .ok event → event.WellFormed := by
  refine ⟨fun event => read_eq_ok_iff, ?_, ?_⟩
  · simp only [← read_eq_ok_iff]
    cases read text.toList <;> simp
  · intro event h
    obtain ⟨words, hw, -⟩ := read_eq_ok_iff.mp h
    exact hw.wellFormed

end Event

end SemanticPass
