import SemanticPass.Proofs.Run.FirstFault

/-!
# Parts and layout of a trace

A trace can be replayed in parts, each part from where the one before it got to, if every part but
the last ends with a line feed. The numbers of lines go on from part to part. How lines are ended
and which blanks stand at their ends makes no difference to a replay, and lines that are passed over
only count for the numbers of the lines after them.
-/

namespace SemanticPass

namespace Text

/-- Lines that differ in blanks at their ends only. -/
def SameInk (line other : List Char) : Prop :=
  ∃ core lead trail lead' trail', AllBlank lead ∧ AllBlank trail ∧ AllBlank lead' ∧
    AllBlank trail' ∧ line = lead ++ (core ++ trail) ∧ other = lead' ++ (core ++ trail')

/-- Texts whose lines differ in blanks at their ends only. What stands after the last line feed
counts as a line here, so that blanks there may be all of it. -/
inductive Reblanked : List Char → List Char → Prop where
  | last {line other} (h : SameInk line other) (hl : '\n' ∉ line) (ho : '\n' ∉ other) :
      Reblanked line other
  | more {line other text rest} (h : SameInk line other) (hl : '\n' ∉ line) (ho : '\n' ∉ other)
      (hmore : Reblanked text rest) : Reblanked (line ++ '\n' :: text) (other ++ '\n' :: rest)

/-- A text with a carriage return before each line feed. -/
def withCarriageReturns (text : List Char) : List Char :=
  text.flatMap fun c => if c = '\n' then ['\r', '\n'] else [c]

theorem SameInk.trim_eq {line other : List Char} (h : SameInk line other) :
    trim line = trim other := by
  obtain ⟨core, lead, trail, lead', trail', hl, ht, hl', ht', rfl, rfl⟩ := h
  rw [trim_append hl ht, trim_append hl' ht']

theorem withCarriageReturns_line {line : List Char} (hl : '\n' ∉ line) :
    withCarriageReturns line = line := by
  induction line with
  | nil => rfl
  | cons c line ih =>
      rw [List.mem_cons, not_or] at hl
      rw [withCarriageReturns, List.flatMap_cons, if_neg (Ne.symm hl.1)]
      exact congrArg (List.cons c) (ih hl.2)

/-- Carriage returns before the line feeds are blanks at the ends of the lines. -/
theorem reblanked_withCarriageReturns (text : List Char) :
    Reblanked text (withCarriageReturns text) := by
  induction text using lines_induction with
  | last line hl =>
      rw [withCarriageReturns_line hl]
      exact .last ⟨line, [], [], [], [], .nil, .nil, .nil, .nil, by simp, by simp⟩ hl hl
  | more line text hl ih =>
      have hreturn : AllBlank ['\r'] := by simp [AllBlank]; decide
      have htext : withCarriageReturns (line ++ '\n' :: text) =
          (line ++ ['\r']) ++ '\n' :: withCarriageReturns text := by
        calc
          _ = withCarriageReturns line ++ withCarriageReturns ('\n' :: text) := List.flatMap_append
          _ = line ++ ('\r' :: '\n' :: withCarriageReturns text) := by
            rw [withCarriageReturns_line hl]
            rfl
          _ = _ := append_crlf ..
      rw [htext]
      refine .more ⟨line, [], [], [], ['\r'], .nil, .nil, .nil, hreturn, by simp, by simp⟩ hl ?_ ih
      exact lineFeed_not_mem_concat hl

end Text

open Text

namespace Replay

/-! ## Parts -/

/-- The outcome of a replay that goes on after some lines and events: both are counted on. -/
def countedOn (lines events : Nat) :
    Except TraceError Nat × Replay → Except TraceError Nat × Replay
  | (.ok n, final) => (.ok (events + n), final)
  | (.error error, final) => (.error { error with line := lines + error.line }, final)

/-- The numbers from which lines and events are counted are added to those of the outcome. -/
theorem runLines_add (before number events count : Nat) (replay : Replay)
    (lines : List (List Char)) :
    runLines (before + number) (events + count) replay lines =
      countedOn before events (runLines number count replay lines) := by
  induction lines generalizing number count replay with
  | nil => rfl
  | cons line lines ih =>
      cases hp : isPassedOver (trim line) with
      | true =>
          rw [runLines_of_passedOver hp, runLines_of_passedOver hp]
          exact ih (number + 1) count replay
      | false =>
          obtain ⟨next, hs⟩ | ⟨fault, hf⟩ := step_cases replay (trim line)
          · rw [runLines_of_ok hp hs, runLines_of_ok hp hs]
            exact ih (number + 1) (count + 1) next
          · rw [runLines_of_fails hp hf, runLines_of_fails hp hf]
            rfl

/-- Lines after others are replayed from where those got to, unless those stopped. -/
theorem runLines_append (number count : Nat) (replay : Replay) (lines more : List (List Char)) :
    runLines number count replay (lines ++ more) =
      match runLines number count replay lines with
      | (.ok n, reached) => runLines (number + lines.length) n reached more
      | (.error error, final) => (.error error, final) := by
  induction lines generalizing number count replay with
  | nil => rfl
  | cons line lines ih =>
      rw [List.cons_append, List.length_cons, show number + (lines.length + 1) =
        number + 1 + lines.length by omega]
      cases hp : isPassedOver (trim line) with
      | true =>
          rw [runLines_of_passedOver hp, runLines_of_passedOver hp]
          exact ih (number + 1) count replay
      | false =>
          obtain ⟨next, hs⟩ | ⟨fault, hf⟩ := step_cases replay (trim line)
          · rw [runLines_of_ok hp hs, runLines_of_ok hp hs]
            exact ih (number + 1) (count + 1) next
          · rw [runLines_of_fails hp hf, runLines_of_fails hp hf]

/-- A text that is empty or ends with a line feed is split independently of what follows it. -/
theorem ofText_append_of_ends {first : List Char} (h : ∀ c ∈ first.getLast?, c = '\n')
    (second : List Char) :
    Lines.ofText (first ++ second) = Lines.ofText first ++ Lines.ofText second := by
  obtain rfl | ⟨body, last, rfl⟩ := first.eq_nil_or_concat'
  · rfl
  · obtain rfl : last = '\n' := h last (by simp)
    rw [List.append_assoc]
    exact Lines.ofText_append body second

/-- A trace is replayed in two parts: the second one from where the first one got to, with its lines
and events counted on, unless the first one stopped. -/
theorem run_append (replay : Replay) {first : String}
    (hends : ∀ c ∈ first.toList.getLast?, c = '\n') {lines : List (List Char)}
    (h : IsLines lines first.toList) (second : String) :
    replay.run (first ++ second) =
      match replay.run first with
      | (.ok n, reached) => countedOn lines.length n (reached.run second)
      | (.error error, final) => (.error error, final) := by
  have hlength : (Lines.ofText first.toList).length = lines.length := by
    simpa using congrArg List.length h.map_trim_ofText
  rw [run, String.toList_append, ofText_append_of_ends hends, runLines_append, ← run, hlength]
  split
  · rename_i n reached _
    rw [run, ← runLines_add, Nat.add_comm]
    rfl
  · rfl

/-! ## Blanks -/

theorem significant_line (number : Nat) {line : List Char} (hl : '\n' ∉ line) :
    significant number (Lines.ofText line) =
      if isPassedOver (trim line) then [] else [(trim line, number)] := by
  by_cases hne : line = []
  · rw [hne]
    rfl
  · rw [Lines.ofText_line hne hl, significant_cons]
    rfl

/-- Lines that differ in blanks at their ends only count for the same. -/
theorem significant_of_reblanked {text other : List Char} (h : Reblanked text other)
    (number : Nat) :
    significant number (Lines.ofText text) = significant number (Lines.ofText other) := by
  induction h generalizing number with
  | last h hl ho => rw [significant_line number hl, significant_line number ho, h.trim_eq]
  | more h hl ho hmore ih =>
      rw [Lines.ofText_append_lineFeed hl, Lines.ofText_append_lineFeed ho, significant_cons,
        significant_cons, h.trim_eq, ih]

/-- Blanks at the ends of lines make no difference to a replay. -/
theorem run_of_reblanked (replay : Replay) {trace other : String}
    (h : Reblanked trace.toList other.toList) : replay.run other = replay.run trace :=
  runLines_congr (significant_of_reblanked h 1).symm

/-! ## Lines that are passed over -/

/-- Lines, and the same lines with some number of others among them that are passed over. -/
inductive Padded : Nat → List (List Char) → List (List Char) → Prop where
  | nil : Padded 0 [] []
  | keep {inserted line lines more} (h : Padded inserted lines more) :
      Padded inserted (line :: lines) (line :: more)
  | insert {inserted line lines more} (hp : IsPadding line) (h : Padded inserted lines more) :
      Padded (inserted + 1) lines (line :: more)

/-- The places of a line among lines and among the padded ones, counted from zero. They are as far
apart as there are lines inserted before the line. -/
def Displaced (lines more : List (List Char)) (place place' : Nat) : Prop :=
  ∃ before line after before' after' earlier later,
    lines = before ++ line :: after ∧ more = before' ++ line :: after' ∧
    Padded earlier before before' ∧ Padded later after after' ∧
    place = before.length ∧ place' = place + earlier

/-- Outcomes of lines and of the padded ones, each counted from a number of its own: they are the
same but for the place of the line that stops both. -/
inductive Alike (lines more : List (List Char)) (number number' : Nat) :
    Except TraceError Nat × Replay → Except TraceError Nat × Replay → Prop where
  | done {n final} : Alike lines more number number' (.ok n, final) (.ok n, final)
  | stopped {place place' fault final} (h : Displaced lines more place place') :
      Alike lines more number number' (.error { line := number + place, fault }, final)
        (.error { line := number' + place', fault }, final)

section

variable {inserted number number' : Nat} {line : List Char} {lines more : List (List Char)}
  {outcome outcome' : Except TraceError Nat × Replay}

theorem Displaced.head (h : Padded inserted lines more) (line : List Char) :
    Displaced (line :: lines) (line :: more) 0 0 :=
  ⟨[], line, lines, [], more, 0, inserted, rfl, rfl, .nil, h, rfl, rfl⟩

theorem Alike.keep (h : Alike lines more (number + 1) (number' + 1) outcome outcome')
    (line : List Char) : Alike (line :: lines) (line :: more) number number' outcome outcome' := by
  cases h with
  | done => exact .done
  | @stopped place place' fault final h =>
      obtain ⟨before, found, after, before', after', earlier, later, rfl, rfl, hb, ha, rfl, rfl⟩ := h
      rw [Nat.add_assoc, Nat.add_assoc]
      apply Alike.stopped
      refine ⟨line :: before, found, after, line :: before', after', earlier, later, rfl, rfl, hb.keep,
        ha, ?_, ?_⟩
      · rw [List.length_cons, Nat.add_comm]
      · omega

theorem Alike.insert (h : Alike lines more number (number' + 1) outcome outcome')
    (hp : IsPadding line) : Alike lines (line :: more) number number' outcome outcome' := by
  cases h with
  | done => exact .done
  | @stopped place place' fault final h =>
      obtain ⟨before, found, after, before', after', earlier, later, rfl, rfl, hb, ha, rfl, rfl⟩ := h
      rw [Nat.add_assoc number']
      apply Alike.stopped
      refine ⟨before, found, after, line :: before', after', earlier + 1, later, rfl, rfl, hb.insert hp,
        ha, rfl, ?_⟩
      omega

end

/-- Lines that are passed over change nothing but the numbers of the lines after them. -/
theorem runLines_of_padded {inserted : Nat} {lines more : List (List Char)}
    (h : Padded inserted lines more) (number number' count : Nat) (replay : Replay) :
    Alike lines more number number' (runLines number count replay lines)
      (runLines number' count replay more) := by
  induction h generalizing number number' count replay with
  | nil => exact .done
  | @keep inserted line lines more h ih =>
      cases hp : isPassedOver (trim line) with
      | true =>
          rw [runLines_of_passedOver hp, runLines_of_passedOver hp]
          exact (ih (number + 1) (number' + 1) count replay).keep line
      | false =>
          obtain ⟨next, hs⟩ | ⟨fault, hf⟩ := step_cases replay (trim line)
          · rw [runLines_of_ok hp hs, runLines_of_ok hp hs]
            exact (ih (number + 1) (number' + 1) (count + 1) next).keep line
          · rw [runLines_of_fails hp hf, runLines_of_fails hp hf]
            exact .stopped (.head h line)
  | @insert inserted line lines more hp h ih =>
      rw [runLines_of_passedOver (isPassedOver_iff.mpr hp)]
      exact (ih number (number' + 1) count replay).insert hp

/-- Lines that are passed over can be put into a trace and taken out of it without any other
difference than the number of the line that stops the replay, if one does. -/
theorem run_of_padded (replay : Replay) {inserted : Nat} {lines more : List (List Char)}
    {trace padded : String} (h : Padded inserted lines more) (hl : IsLines lines trace.toList)
    (hm : IsLines more padded.toList) : Alike lines more 1 1 (replay.run trace) (replay.run padded) := by
  rw [run_eq_runLines hl, run_eq_runLines hm]
  exact runLines_of_padded h 1 1 0 replay

/-- A trace can be replayed in parts that end with line feeds, each from the session and the last
resolved code that the one before it left. Carriage returns before the line feeds, and other blanks
at the ends of lines, make no difference at all, and lines that are passed over make none but for
the number of the line that stops the replay. -/
theorem run_composes_and_ignores_layout (replay : Replay) :
    (∀ (first second : String) (lines : List (List Char)),
      (∀ c ∈ first.toList.getLast?, c = '\n') → IsLines lines first.toList →
      replay.run (first ++ second) =
        match replay.run first with
        | (.error error, final) => (.error error, final)
        | (.ok n, reached) =>
          match reached.run second with
          | (.ok m, final) => (.ok (n + m), final)
          | (.error error, final) =>
            (.error { error with line := lines.length + error.line }, final)) ∧
    (∀ trace : String,
      replay.run (String.ofList (withCarriageReturns trace.toList)) = replay.run trace) ∧
    (∀ trace other : String, Reblanked trace.toList other.toList →
      replay.run other = replay.run trace) ∧
    ∀ (inserted : Nat) (lines more : List (List Char)) (trace padded : String),
      Padded inserted lines more → IsLines lines trace.toList → IsLines more padded.toList →
      Alike lines more 1 1 (replay.run trace) (replay.run padded) := by
  refine ⟨?parts, ?returns, fun _ _ => run_of_reblanked replay, ?padding⟩
  case parts =>
    intro first second lines hends h
    rw [run_append replay hends h]
    cases hrun : replay.run first with
    | mk answer reached =>
        cases answer with
        | error error => rfl
        | ok n =>
            cases hmore : reached.run second with
            | mk answer final => cases answer <;> simp [countedOn, hmore]
  case returns =>
    intro trace
    apply run_of_reblanked
    rw [String.toList_ofList]
    exact reblanked_withCarriageReturns trace.toList
  case padding => exact fun _ _ _ _ _ => run_of_padded replay

/-- The second part of a trace is stopped at its second line, which is the third one of the trace.
Carriage returns and blanks are not seen, and a comment in front of a line is counted with it. -/
theorem run_of_parts_and_comment :
    let replay := start "input.c"
    (replay.run ("scope enter\n" ++ "scope exit\nscope exit\n")).1 =
      .error { line := 3, fault := .violated .scopeUnderflow } ∧
    replay.run (String.ofList (withCarriageReturns "scope enter\n".toList)) =
      replay.run "scope enter\n" ∧
    replay.run "\tscope enter \n" = replay.run "scope enter\n" ∧
    Alike ["scope exit".toList] ["# out".toList, "scope exit".toList] 1 1
      (replay.run "scope exit\n") (replay.run "# out\nscope exit\n") := by
  intro replay
  obtain ⟨hparts, hreturns, hblanks, hpadding⟩ := run_composes_and_ignores_layout replay
  have henter : IsLines ["scope enter".toList] "scope enter\n".toList :=
    .lf (by decide) (by decide) .nil
  have hexit : IsLines ["scope exit".toList] "scope exit\n".toList :=
    .lf (by decide) (by decide) .nil
  have hends : ∀ c ∈ "scope enter\n".toList.getLast?, c = '\n' := by simp
  refine ⟨?_, hreturns _, hblanks _ _ ?_, hpadding 1 _ _ _ _ ?_ hexit ?_⟩
  · rw [hparts "scope enter\n" "scope exit\nscope exit\n" _ hends henter]
    decide +kernel
  · have hink : SameInk "scope enter".toList "\tscope enter ".toList :=
      ⟨"scope enter".toList, [], [], ['\t'], [' '], .nil, .nil, by simp [AllBlank]; decide,
        by simp [AllBlank]; decide, rfl, rfl⟩
    exact .more hink (by decide) (by decide)
      (.last ⟨[], [], [], [], [], .nil, .nil, .nil, .nil, rfl, rfl⟩ (by decide) (by decide))
  · exact .insert (.inr ⟨[], " out".toList, .nil, rfl⟩) (.keep .nil)
  · exact .lf (by decide) (by decide) hexit

end Replay

end SemanticPass
