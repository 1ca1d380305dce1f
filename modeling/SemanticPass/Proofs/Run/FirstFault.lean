import SemanticPass.Proofs.Run.Effects
import SemanticPass.Proofs.Text.PhysicalLines

/-!
# A replay stops at the first fault

The lines of a trace that are not passed over are read and applied in order. If all of them can
be, the replay succeeds with the state after the last one. Otherwise it stops at the first one
that cannot, with the number of that line among all lines of the text and with the state before
it, and what follows in the text makes no difference.
-/

namespace SemanticPass.Replay

open Text

/-- Lines that are read and applied in order without a fault, up to a final state. -/
inductive Replays : Replay → List (List Char × Nat) → Replay → Prop where
  | nil {replay} : Replays replay [] replay
  | cons {replay next final line number lines event} (hr : Event.read line = .ok event)
      (ha : replay.apply event = (.ok (), next)) (h : Replays next lines final) :
      Replays replay ((line, number) :: lines) final

/-- A line that cannot be read, or whose event cannot be applied. -/
inductive Fails (replay : Replay) (line : List Char) : Fault → Prop where
  | unreadable {error} (hr : Event.read line = .error error) : Fails replay line (.unreadable error)
  | violated {event violation} (hr : Event.read line = .ok event)
      (ha : (replay.apply event).1 = .error violation) : Fails replay line (.violated violation)

/-- A line of blanks only, or a comment after blanks. -/
def IsPadding (line : List Char) : Prop :=
  AllBlank line ∨ ∃ lead comment, AllBlank lead ∧ line = lead ++ '#' :: comment

theorem isPassedOver_iff {line : List Char} : isPassedOver (trim line) = true ↔ IsPadding line := by
  rw [isPassedOver, Bool.or_eq_true, List.isEmpty_iff, trim_eq_nil_iff, beq_iff_eq]
  refine or_congr_right ⟨fun hhead => ?_, ?_⟩
  · obtain ⟨comment, hcomment⟩ := List.head?_eq_some_iff.mp hhead
    obtain ⟨lead, hl, hlead⟩ := exists_trimStart line
    obtain ⟨trail, -, htrail⟩ := exists_trimEnd (trimStart line)
    refine ⟨lead, comment ++ trail, hl, ?_⟩
    calc
      line = lead ++ (trim line ++ trail) := by rw [trim, ← htrail, ← hlead]
      _ = lead ++ '#' :: (comment ++ trail) := by rw [hcomment, List.cons_append]
  · rintro ⟨lead, comment, hl, rfl⟩
    have hmark : isBlank '#' = false := by decide
    have hstart : trimStart (lead ++ '#' :: comment) = '#' :: comment :=
      trimStart_append hl (by simpa using hmark)
    obtain ⟨trail, ht, htrail⟩ := exists_trimEnd ('#' :: comment)
    rw [trim, hstart]
    cases hkept : trimEnd ('#' :: comment) with
    | nil =>
        -- The mark is no blank and would be one of those at the end.
        rw [hkept, List.nil_append] at htrail
        have hblank := ht '#' (by simp [← htrail])
        rw [hmark] at hblank
        cases hblank
    | cons c kept =>
        rw [hkept] at htrail
        rw [List.head?_cons, (List.cons.inj htrail).1]

instance (line : List Char) : Decidable (IsPadding line) := decidable_of_iff _ isPassedOver_iff

/-- The lines that are no padding, trimmed, each with its number, counted from the given one over
all lines. -/
def significant (number : Nat) (lines : List (List Char)) : List (List Char × Nat) :=
  ((lines.zipIdx number).filter fun line => ¬ IsPadding line.1).map fun line =>
    (trim line.1, line.2)

theorem significant_eq (number : Nat) (lines : List (List Char)) : significant number lines =
    ((lines.map trim).zipIdx number).filter fun line => !isPassedOver line.1 := by
  rw [significant, List.zipIdx_map, List.filter_map]
  refine congrArg (List.map _) (List.filter_congr fun line _ => ?_)
  simp only [Function.comp_apply, Prod.map_fst, ← isPassedOver_iff]
  cases isPassedOver (trim line.1) <;> rfl

theorem significant_cons (number : Nat) (line : List Char) (lines : List (List Char)) :
    significant number (line :: lines) =
      if isPassedOver (trim line) then significant (number + 1) lines
      else (trim line, number) :: significant (number + 1) lines := by
  rw [significant_eq, significant_eq, List.map_cons, List.zipIdx_cons, List.filter_cons]
  cases isPassedOver (trim line) <;> rfl

/-! ## One line -/

/-- An event that is refused leaves the replay as it was. -/
theorem apply_of_error {replay : Replay} {event : Event} {violation : Violation}
    (h : (replay.apply event).1 = .error violation) : (replay.apply event).2 = replay := by
  have hanswer := Turn.answer_eq { replay, event }
  cases hr : Turn.refusal? { replay, event } with
  | none =>
      rw [hr] at hanswer
      rw [hanswer] at h
      cases h
  | some refusal => exact Turn.next_of_refusal hr

theorem step_eq_ok_iff {replay next : Replay} {line : List Char} :
    replay.step line = (.ok (), next) ↔
      ∃ event, Event.read line = .ok event ∧ replay.apply event = (.ok (), next) := by
  unfold step
  cases hr : Event.read line with
  | error error => simp
  | ok event =>
      cases ha : replay.apply event with
      | mk answer after =>
          cases answer with
          | error violation => simp [ha, Except.mapError]
          | ok done => simp [ha, Except.mapError]

/-- A line that fails leaves the replay as it was. -/
theorem step_eq_error_iff {replay next : Replay} {line : List Char} {fault : Fault} :
    replay.step line = (.error fault, next) ↔ Fails replay line fault ∧ next = replay := by
  unfold step
  constructor
  · intro h
    cases hr : Event.read line with
    | error error =>
        simp only [hr, Prod.mk.injEq, Except.error.injEq] at h
        obtain ⟨rfl, rfl⟩ := h
        exact ⟨.unreadable hr, rfl⟩
    | ok event =>
        cases ha : (replay.apply event).1 with
        | ok done => simp [hr, ha, Except.mapError] at h
        | error violation =>
            simp only [hr, ha, Except.mapError, Prod.mk.injEq, Except.error.injEq] at h
            obtain ⟨rfl, rfl⟩ := h
            exact ⟨.violated hr ha, apply_of_error ha⟩
  · rintro ⟨h, rfl⟩
    cases h with
    | unreadable hr => simp [hr]
    | violated hr ha => simp [hr, ha, Except.mapError, apply_of_error ha]

/-- A line succeeds or fails. -/
theorem step_cases (replay : Replay) (line : List Char) :
    (∃ next, replay.step line = (.ok (), next)) ∨ ∃ fault, Fails replay line fault := by
  cases hs : replay.step line with
  | mk answer next =>
      cases answer with
      | ok done => exact .inl ⟨next, rfl⟩
      | error fault => exact .inr ⟨fault, (step_eq_error_iff.mp hs).1⟩

/-- A line that fails does so for one reason, and does not succeed. -/
theorem Fails.step_eq {replay : Replay} {line : List Char} {fault : Fault}
    (h : Fails replay line fault) : replay.step line = (.error fault, replay) :=
  step_eq_error_iff.mpr ⟨h, rfl⟩

theorem replays_cons_iff {replay final : Replay} {line : List Char} {number : Nat}
    {lines : List (List Char × Nat)} :
    Replays replay ((line, number) :: lines) final ↔
      ∃ next, replay.step line = (.ok (), next) ∧ Replays next lines final := by
  constructor
  · rintro (_ | ⟨hr, ha, h⟩)
    exact ⟨_, step_eq_ok_iff.mpr ⟨_, hr, ha⟩, h⟩
  · intro hstop
    obtain ⟨next, hs, h⟩ := hstop
    obtain ⟨event, hr, ha⟩ := step_eq_ok_iff.mp hs
    exact .cons hr ha h

/-! ## Lines -/

section

variable {number count : Nat} {replay next : Replay} {line : List Char} {lines : List (List Char)}

theorem runLines_of_passedOver (hp : isPassedOver (trim line) = true) :
    runLines number count replay (line :: lines) = runLines (number + 1) count replay lines := by
  rw [runLines, if_pos hp]

theorem runLines_of_ok (hp : isPassedOver (trim line) = false)
    (hs : replay.step (trim line) = (.ok (), next)) :
    runLines number count replay (line :: lines) =
      runLines (number + 1) (count + 1) next lines := by
  simp only [runLines, hp, hs, Bool.false_eq_true, if_false]

theorem runLines_of_fails {fault : Fault} (hp : isPassedOver (trim line) = false)
    (hs : Fails replay (trim line) fault) :
    runLines number count replay (line :: lines) =
      (.error { line := number, fault }, replay) := by
  simp only [runLines, hp, hs.step_eq, Bool.false_eq_true, if_false]

/-- Lines replay without a fault exactly when each of them can be read and applied. -/
theorem runLines_eq_ok_iff {n : Nat} {final : Replay} :
    runLines number count replay lines = (.ok n, final) ↔
      Replays replay (significant number lines) final ∧
        n = count + (significant number lines).length := by
  induction lines generalizing number count replay with
  | nil =>
      rw [runLines, Prod.mk.injEq, Except.ok.injEq, and_comm]
      refine and_congr ⟨?_, ?_⟩ eq_comm
      · rintro rfl
        exact .nil
      · rintro ⟨⟩
        rfl
  | cons line lines ih =>
      rw [significant_cons]
      cases hp : isPassedOver (trim line) with
      | true => rw [runLines_of_passedOver hp, if_pos rfl, ih]
      | false =>
          rw [if_neg Bool.false_ne_true, replays_cons_iff, List.length_cons]
          rcases step_cases replay (trim line) with ⟨next, hs⟩ | ⟨fault, hf⟩
          · rw [runLines_of_ok hp hs, ih]
            simp only [hs, Prod.mk.injEq, true_and, exists_eq_left']
            refine and_congr_right fun _ => ?_
            omega
          · rw [runLines_of_fails hp hf, hf.step_eq]
            simp

/-- Lines stop exactly at the first one that fails, in the state that the lines before it lead
to. -/
theorem runLines_eq_error_iff {error : TraceError} {final : Replay} :
    runLines number count replay lines = (.error error, final) ↔
      ∃ before line after, significant number lines = before ++ (line, error.line) :: after ∧
        Replays replay before final ∧ Fails final line error.fault := by
  induction lines generalizing number count replay with
  | nil => simp [runLines, significant]
  | cons line lines ih =>
      rw [significant_cons]
      cases hp : isPassedOver (trim line) with
      | true => rw [runLines_of_passedOver hp, if_pos rfl, ih]
      | false =>
          rw [if_neg Bool.false_ne_true]
          rcases step_cases replay (trim line) with ⟨next, hs⟩ | ⟨fault, hf⟩
          · rw [runLines_of_ok hp hs, ih]
            constructor
            · intro hstop
              obtain ⟨before, failing, after, hlines, hb, hfails⟩ := hstop
              refine ⟨(trim line, number) :: before, failing, after, ?_, ?_, hfails⟩
              · rw [hlines, List.cons_append]
              · exact replays_cons_iff.mpr ⟨next, hs, hb⟩
            · intro hstop
              obtain ⟨before, failing, after, hlines, hb, hfails⟩ := hstop
              cases before with
              | nil =>
                  obtain ⟨hhead, -⟩ := List.cons.inj hlines
                  cases hhead
                  cases hb
                  rw [hfails.step_eq] at hs
                  cases hs
              | cons head before =>
                  obtain ⟨rfl, hmore⟩ := List.cons.inj hlines
                  obtain ⟨_, hother, hb⟩ := replays_cons_iff.mp hb
                  obtain ⟨-, rfl⟩ := Prod.mk.inj (hs.symm.trans hother)
                  exact ⟨before, failing, after, hmore, hb, hfails⟩
          · rw [runLines_of_fails hp hf]
            constructor
            · intro h
              cases h
              exact ⟨[], trim line, _, rfl, .nil, hf⟩
            · intro hstop
              obtain ⟨before, failing, after, hlines, hb, hfails⟩ := hstop
              cases before with
              | nil =>
                  obtain ⟨hhead, -⟩ := List.cons.inj hlines
                  obtain ⟨rfl, rfl⟩ := Prod.mk.inj hhead
                  cases hb
                  have hfault := hf.step_eq.symm.trans hfails.step_eq
                  simp only [Prod.mk.injEq, Except.error.injEq, and_true] at hfault
                  rw [hfault]
              | cons head before =>
                  obtain ⟨rfl, -⟩ := List.cons.inj hlines
                  obtain ⟨_, hs, -⟩ := replays_cons_iff.mp hb
                  rw [hf.step_eq] at hs
                  cases hs

/-- Lines that are not passed over are all that a replay depends on. -/
theorem runLines_congr {others : List (List Char)}
    (h : significant number lines = significant number others) :
    runLines number count replay lines = runLines number count replay others := by
  cases hr : runLines number count replay others with
  | mk answer final =>
      cases answer with
      | ok n =>
          rw [runLines_eq_ok_iff] at hr ⊢
          rwa [h]
      | error error =>
          rw [runLines_eq_error_iff] at hr ⊢
          rwa [h]

/-- What comes after the line that stops a replay makes no difference. -/
theorem runLines_take_append {error : TraceError} {final : Replay}
    (h : runLines number count replay lines = (.error error, final)) :
    number ≤ error.line ∧ ∀ more,
      runLines number count replay (lines.take (error.line + 1 - number) ++ more) =
        (.error error, final) := by
  induction lines generalizing number count replay with
  | nil => cases h
  | cons line lines ih =>
      cases hp : isPassedOver (trim line) with
      | true =>
          rw [runLines_of_passedOver hp] at h
          obtain ⟨hle, hmore⟩ := ih h
          refine ⟨by omega, fun more => ?_⟩
          rw [show error.line + 1 - number = error.line + 1 - (number + 1) + 1 by omega,
            List.take_succ_cons, List.cons_append, runLines_of_passedOver hp]
          exact hmore more
      | false =>
          rcases step_cases replay (trim line) with ⟨next, hs⟩ | ⟨fault, hf⟩
          · rw [runLines_of_ok hp hs] at h
            obtain ⟨hle, hmore⟩ := ih h
            refine ⟨by omega, fun more => ?_⟩
            rw [show error.line + 1 - number = error.line + 1 - (number + 1) + 1 by omega,
              List.take_succ_cons, List.cons_append, runLines_of_ok hp hs]
            exact hmore more
          · rw [runLines_of_fails hp hf] at h
            cases h
            refine ⟨le_rfl, fun more => ?_⟩
            rw [Nat.add_sub_cancel_left, List.take_succ_cons, List.cons_append,
              runLines_of_fails hp hf]

end

/-! ## Texts -/

/-- A replay of a text is a replay of its physical lines. -/
theorem run_eq_runLines {trace : String} {lines : List (List Char)}
    (h : IsLines lines trace.toList) (replay : Replay) :
    replay.run trace = runLines 1 0 replay lines := by
  apply runLines_congr
  rw [significant_eq, significant_eq, h.map_trim_ofText]

/-- A replay of a text succeeds if every line that counts can be read and applied. Otherwise it
ends with the first line that cannot, in the state before that line, whatever comes after it. -/
theorem run_stops_at_first_fault (replay : Replay) (trace : String) :
    ∃ lines, (∀ others, IsLines others trace.toList ↔ others = lines) ∧
      ((∃ n, (replay.run trace).1 = .ok n) ↔
        ∃ final, Replays replay (significant 1 lines) final) ∧
      (∀ n final, replay.run trace = (.ok n, final) ↔
        Replays replay (significant 1 lines) final ∧ n = (significant 1 lines).length) ∧
      (∀ error final, replay.run trace = (.error error, final) ↔
        ∃ before line after, significant 1 lines = before ++ (line, error.line) :: after ∧
          Replays replay before final ∧ Fails final line error.fault) ∧
      ∀ error final, replay.run trace = (.error error, final) →
        error.message = s!"trace line {error.line}: {error.fault.message}" ∧
        ∀ (other : String) (others : List (List Char)), IsLines others other.toList →
          others.take error.line = lines.take error.line →
          replay.run other = (.error error, final) := by
  obtain ⟨lines, h⟩ := exists_isLines trace.toList
  have hok : ∀ n final, replay.run trace = (.ok n, final) ↔
      Replays replay (significant 1 lines) final ∧ n = (significant 1 lines).length := by
    intro n final
    rw [run_eq_runLines h, runLines_eq_ok_iff, Nat.zero_add]
  refine ⟨lines, fun others => ⟨fun ho => ho.unique h, fun ho => ho ▸ h⟩, ?_, hok, ?_, ?_⟩
  · constructor
    · rintro ⟨n, hn⟩
      exact ⟨_, ((hok n (replay.run trace).2).mp (Prod.ext hn rfl)).1⟩
    · rintro ⟨final, hf⟩
      exact ⟨_, congrArg Prod.fst ((hok _ final).mpr ⟨hf, rfl⟩)⟩
  · intro error final
    rw [run_eq_runLines h, runLines_eq_error_iff]
  · intro error final hrun
    refine ⟨rfl, fun other others ho htake => ?_⟩
    rw [run_eq_runLines h] at hrun
    rw [run_eq_runLines ho, ← List.take_append_drop error.line others, htake]
    exact (runLines_take_append hrun).2 _

end SemanticPass.Replay
