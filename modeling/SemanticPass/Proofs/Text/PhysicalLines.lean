import Mathlib.Data.List.Basic
import SemanticPass.Proofs.Text.Fields
import SemanticPass.Text.Lines

/-!
# The physical lines of a text

A physical line ends with a line feed, or with a carriage return and a line feed, and the text
after the last of these is a line as well unless it is empty. Every text has its lines, and only
those. The splitter of texts leaves the carriage return with the line, which makes no difference
once the line is trimmed.
-/

namespace SemanticPass.Text

/-- The lines of a text, without what ends them. -/
inductive IsLines : List (List Char) → List Char → Prop where
  | nil : IsLines [] []
  | last {line} (hne : line ≠ []) (hl : '\n' ∉ line) : IsLines [line] line
  | lf {line lines text} (hl : '\n' ∉ line) (hcr : '\r' ∉ line.getLast?)
      (h : IsLines lines text) : IsLines (line :: lines) (line ++ '\n' :: text)
  | crlf {line lines text} (hl : '\n' ∉ line) (h : IsLines lines text) :
      IsLines (line :: lines) (line ++ '\r' :: '\n' :: text)

/-- What holds of a single line, and of a text with one more line in front, holds of every text. -/
theorem lines_induction {P : List Char → Prop} (last : ∀ line, '\n' ∉ line → P line)
    (more : ∀ line text, '\n' ∉ line → P text → P (line ++ '\n' :: text)) (text : List Char) :
    P text := by
  induction hn : text.length using Nat.strong_induction_on generalizing text with
  | _ n ih =>
      by_cases hmem : '\n' ∈ text
      · obtain ⟨line, rest, rfl, hl⟩ := List.eq_append_cons_of_mem hmem
        apply more line rest hl
        apply ih rest.length _ rest rfl
        rw [← hn, List.length_append, List.length_cons]
        omega
      · exact last text hmem

/-- A text has lines. -/
theorem exists_isLines (text : List Char) : ∃ lines, IsLines lines text := by
  induction text using lines_induction with
  | last line hl =>
      by_cases hne : line = []
      · exact ⟨[], hne ▸ .nil⟩
      · exact ⟨[line], .last hne hl⟩
  | more line text hl ih =>
      obtain ⟨lines, h⟩ := ih
      by_cases hcr : '\r' ∈ line.getLast?
      · obtain ⟨body, rfl⟩ := List.getLast?_eq_some_iff.mp hcr
        refine ⟨body :: lines, ?_⟩
        rw [List.append_assoc]
        exact .crlf (fun hb => hl (List.mem_append_left _ hb)) h
      · exact ⟨line :: lines, .lf hl hcr h⟩

theorem IsLines.lineFeed_not_mem {lines : List (List Char)} {text : List Char}
    (h : IsLines lines text) : ∀ line ∈ lines, '\n' ∉ line := by
  induction h with
  | nil => simp
  | last hne hl => simpa using hl
  | lf hl hcr h ih => exact List.forall_mem_cons.mpr ⟨hl, ih⟩
  | crlf hl h ih => exact List.forall_mem_cons.mpr ⟨hl, ih⟩

theorem append_crlf (line text : List Char) :
    line ++ '\r' :: '\n' :: text = (line ++ ['\r']) ++ '\n' :: text := by simp

theorem lineFeed_not_mem_concat {line : List Char} (hl : '\n' ∉ line) : '\n' ∉ line ++ ['\r'] := by
  simpa using hl

/-- A text is divided in one way only at the first place of a character. -/
theorem append_cons_inj {c : Char} {line other rest more : List Char} (hl : c ∉ line)
    (ho : c ∉ other) (h : line ++ c :: rest = other ++ c :: more) :
    line = other ∧ rest = more := by
  induction line generalizing other with
  | nil =>
      cases other with
      | nil => exact ⟨rfl, (List.cons.inj h).2⟩
      | cons d other =>
          obtain ⟨rfl, -⟩ := List.cons.inj h
          simp at ho
  | cons d line ih =>
      cases other with
      | nil =>
          obtain ⟨rfl, -⟩ := List.cons.inj h
          simp at hl
      | cons e other =>
          obtain ⟨rfl, htail⟩ := List.cons.inj h
          obtain ⟨rfl, rfl⟩ := ih (fun hm => hl (by simp [hm])) (fun hm => ho (by simp [hm])) htail
          exact ⟨rfl, rfl⟩

/-- The lines of a text are determined by the text. -/
theorem IsLines.unique {lines others : List (List Char)} {text : List Char}
    (h : IsLines lines text) (ho : IsLines others text) : lines = others := by
  induction h generalizing others with
  | nil =>
      generalize htext : ([] : List Char) = whole at ho
      cases ho with
      | nil => rfl
      | last hne _ => exact absurd htext.symm hne
      | lf => simp at htext
      | crlf => simp at htext
  | @last line hne hl =>
      generalize htext : line = whole at ho
      cases ho with
      | nil => exact absurd htext hne
      | last => rfl
      | lf => simp [htext] at hl
      | crlf => simp [htext] at hl
  | @lf line lines text hl hcr h ih =>
      generalize htext : line ++ '\n' :: text = whole at ho
      cases ho with
      | nil => simp at htext
      | last _ ho => simp [← htext] at ho
      | lf ho _ hmore =>
          obtain ⟨rfl, rfl⟩ := append_cons_inj hl ho htext
          rw [ih hmore]
      | @crlf other _ more ho _ =>
          rw [append_crlf] at htext
          obtain ⟨rfl, -⟩ := append_cons_inj hl (lineFeed_not_mem_concat ho) htext
          simp at hcr
  | @crlf line lines text hl h ih =>
      have hl := lineFeed_not_mem_concat hl
      generalize htext : line ++ '\r' :: '\n' :: text = whole at ho
      cases ho with
      | nil => simp at htext
      | last _ ho => simp [← htext] at ho
      | lf ho hcr _ =>
          rw [append_crlf] at htext
          obtain ⟨rfl, -⟩ := append_cons_inj hl ho htext
          simp at hcr
      | crlf ho hmore =>
          rw [append_crlf, append_crlf] at htext
          obtain ⟨hline, rfl⟩ := append_cons_inj hl (lineFeed_not_mem_concat ho) htext
          rw [List.append_cancel_right hline, ih hmore]

/-! ## The splitter -/

namespace Lines

/-- A character that is no line feed joins the first line. -/
theorem pushFront_of_ne {c : Char} (hc : c ≠ '\n') (lines : List (List Char)) :
    pushFront c lines = (c :: lines.headD []) :: lines.tail := by
  cases lines with
  | nil => simp [pushFront, hc]
  | cons line lines => simp [pushFront, hc]

theorem ofText_line {line : List Char} (hne : line ≠ []) (hl : '\n' ∉ line) :
    ofText line = [line] := by
  induction line with
  | nil => exact absurd rfl hne
  | cons c line ih =>
      simp only [List.mem_cons, not_or] at hl
      rw [ofText_cons, pushFront_of_ne (Ne.symm hl.1)]
      cases line with
      | nil => rfl
      | cons d line => rw [ih (by simp) hl.2]; rfl

theorem ofText_append_lineFeed {line : List Char} (hl : '\n' ∉ line) (text : List Char) :
    ofText (line ++ '\n' :: text) = line :: ofText text := by
  induction line with
  | nil =>
      rw [List.nil_append, ofText_cons]
      cases ofText text <;> simp [pushFront]
  | cons c line ih =>
      simp only [List.mem_cons, not_or] at hl
      rw [List.cons_append, ofText_cons, ih hl.2, pushFront_of_ne (Ne.symm hl.1)]
      rfl

end Lines

/-- Blanks at both ends of a text make no difference once it is trimmed. -/
theorem trim_append {lead trail : List Char} (hl : AllBlank lead) (ht : AllBlank trail)
    (text : List Char) : trim (lead ++ (text ++ trail)) = trim text := by
  by_cases hnil : trim text = []
  · rw [hnil, trim_eq_nil_iff]
    exact hl.append ((trim_eq_nil_iff.mp hnil).append ht)
  · have hphrase := isPhrase_trim hnil
    obtain ⟨before, after, hb, ha, htext⟩ := (trim_eq_iff hphrase).mp rfl
    apply (trim_eq_iff hphrase).mpr
    refine ⟨lead ++ before, after ++ trail, hl.append hb, ha.append ht, ?_⟩
    calc
      lead ++ (text ++ trail) = lead ++ ((before ++ (trim text ++ after)) ++ trail) := by rw [← htext]
      _ = lead ++ before ++ (trim text ++ (after ++ trail)) := by simp only [List.append_assoc]

theorem trim_concat {c : Char} (hc : isBlank c = true) (text : List Char) :
    trim (text ++ [c]) = trim text := by
  have hend : AllBlank [c] := by simpa [AllBlank] using hc
  exact trim_append AllBlank.nil hend text

/-- The lines that the splitter finds are the lines of the text, once they are trimmed. -/
theorem IsLines.map_trim_ofText {lines : List (List Char)} {text : List Char}
    (h : IsLines lines text) : (Lines.ofText text).map trim = lines.map trim := by
  induction h with
  | nil => rfl
  | last hne hl => rw [Lines.ofText_line hne hl]
  | lf hl hcr h ih => rw [Lines.ofText_append_lineFeed hl, List.map_cons, List.map_cons, ih]
  | crlf hl h ih =>
      rw [append_crlf, Lines.ofText_append_lineFeed (lineFeed_not_mem_concat hl), List.map_cons,
        List.map_cons, ih, trim_concat (by decide)]

end SemanticPass.Text
