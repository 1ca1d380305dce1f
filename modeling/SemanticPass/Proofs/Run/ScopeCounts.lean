import Mathlib.Data.List.Infix
import SemanticPass.Proofs.Run.Refusals
import SemanticPass.Proofs.Run.Texts

/-!
# Scopes and functions are counted

The scope of a session is the number of scopes that were entered and not left, and its function the
number of functions entered. Neither number wraps around in a run that enters fewer scopes and
functions than there are numbers for them. A scope is left unless there is none, so events whose
scopes are properly bracketed end in the scope they began with, and lines of which no other one
fails are stopped by the first one that leaves more scopes than were entered.
-/

namespace SemanticPass

open Text

/-- Events whose scopes are properly bracketed: the scopes that they enter are left again, the inner
ones first, and no others. -/
inductive Event.Bracketed : List Event → Prop where
  | nil : Bracketed []
  | other {event : Event} {events : List Event} (henter : event ≠ .enterScope)
      (hexit : event ≠ .exitScope) (h : Bracketed events) : Bracketed (event :: events)
  | block {inner rest : List Event} (hinner : Bracketed inner) (hrest : Bracketed rest) :
      Bracketed (.enterScope :: (inner ++ .exitScope :: rest))

/-- A number that is not the last one has a successor. -/
theorem toNat_add_one {number : UInt32} (h : number.toNat + 1 < UInt32.size) :
    (number + 1).toNat = number.toNat + 1 := by
  rw [UInt32.toNat_add, UInt32.toNat_one]
  exact Nat.mod_eq_of_lt h

namespace Turn

variable {turn : Turn}

/-! ## One turn -/

/-- Whether a turn leaves a scope. -/
def leaves (turn : Turn) : Bool := decide (turn.event = .exitScope) && turn.succeeds

/-- A scope that is left is one less than before, without wrapping around. -/
theorem toNat_scope_next_of_leaves (turn : Turn) (he : turn.event = .exitScope)
    (hs : turn.replay.session.scope ≠ 0) :
    turn.next.session.scope.toNat + 1 = turn.replay.session.scope.toNat := by
  have hpos : 1 ≤ turn.replay.session.scope.toNat := by
    by_contra hnot
    apply hs
    apply UInt32.toNat_inj.mp
    simpa using hnot
  have hle : (1 : UInt32) ≤ turn.replay.session.scope := UInt32.le_iff_toNat_le.mpr hpos
  rw [scope_next, nextScope, he]
  simp only [if_neg hs, UInt32.toNat_sub_of_le _ _ hle, UInt32.toNat_one]
  omega

/-- A turn counts a scope up by entering it and down by leaving it. -/
theorem toNat_scope_next (turn : Turn)
    (h : turn.replay.session.scope.toNat + [turn.event].count .enterScope < UInt32.size) :
    turn.next.session.scope.toNat + [turn].countP leaves =
      turn.replay.session.scope.toNat + [turn.event].count .enterScope := by
  rw [List.countP_singleton, leaves]
  cases he : turn.event with
  | enterScope =>
      rw [he, List.count_singleton_self] at h
      simp [scope_next, nextScope, he, toNat_add_one h]
  | exitScope =>
      by_cases hs : turn.replay.session.scope = 0
      · have hfails : turn.succeeds = false := by
          simpa [hs] using (succeeds_exitScope he).not
        simp [scope_next, nextScope, he, hs, hfails]
      · simpa [(succeeds_exitScope he).mpr hs] using turn.toNat_scope_next_of_leaves he hs
  | _ => simp [scope_next, nextScope, he]

/-- A turn counts a function up by entering it. -/
theorem toNat_function_next (turn : Turn)
    (h : turn.replay.session.function.toNat + [turn.event].count .enterFunction < UInt32.size) :
    turn.next.session.function.toNat =
      turn.replay.session.function.toNat + [turn.event].count .enterFunction := by
  cases he : turn.event with
  | enterFunction =>
      rw [he, List.count_singleton_self] at h
      simp [function_next, nextFunction, he, toNat_add_one h]
  | _ => simp [function_next, nextFunction, he]

end Turn

namespace Replay

/-! ## Runs -/

/-- The scopes that a run enters are those that it leaves and those that stay open. -/
theorem toNat_scope_after (replay : Replay) (events : List Event)
    (h : replay.session.scope.toNat + events.count .enterScope < UInt32.size) :
    (replay.after events).session.scope.toNat + (replay.turns events).countP Turn.leaves =
      replay.session.scope.toNat + events.count .enterScope := by
  induction events using List.reverseRecOn with
  | nil => rfl
  | append_singleton events event ih =>
      rw [List.count_append] at h
      have hbefore := ih (by omega)
      have hstep := Turn.toNat_scope_next { replay := replay.after events, event } (by
        show (replay.after events).session.scope.toNat + [event].count .enterScope < UInt32.size
        omega)
      dsimp only at hstep
      rw [after_concat, turns_concat, List.countP_append, List.count_append]
      omega

/-- The function is counted up by the functions that a run enters. -/
theorem toNat_function_after (replay : Replay) (events : List Event)
    (h : replay.session.function.toNat + events.count .enterFunction < UInt32.size) :
    (replay.after events).session.function.toNat =
      replay.session.function.toNat + events.count .enterFunction := by
  induction events using List.reverseRecOn with
  | nil => rfl
  | append_singleton events event ih =>
      rw [List.count_append] at h
      have hbefore := ih (by omega)
      have hstep := Turn.toNat_function_next { replay := replay.after events, event } (by
        show (replay.after events).session.function.toNat + [event].count .enterFunction < UInt32.size
        omega)
      dsimp only at hstep
      rw [after_concat, List.count_append]
      omega

end Replay

/-- Bracketed events end in the scope they began with, and are never outside it. -/
theorem Event.Bracketed.scope_after {events : List Event} (h : Bracketed events) (replay : Replay)
    (hlt : replay.session.scope.toNat + events.count .enterScope < UInt32.size) :
    (replay.after events).session.scope = replay.session.scope ∧
      ∀ turn ∈ replay.turns events, replay.session.scope ≤ turn.replay.session.scope := by
  induction h generalizing replay with
  | nil => exact ⟨rfl, by simp⟩
  | @other event events henter hexit h ih =>
      have hsame : (replay.apply event).2.session.scope = replay.session.scope := by
        have hnext := (Turn.mk replay event).scope_next
        cases event with
        | enterScope => exact absurd rfl henter
        | exitScope => exact absurd rfl hexit
        | _ => exact hnext
      rw [List.count_cons_of_ne henter] at hlt
      obtain ⟨hafter, hinside⟩ := ih (replay.apply event).2 (by rwa [hsame])
      refine ⟨hafter.trans hsame, List.forall_mem_cons.mpr ⟨UInt32.le_refl _, ?_⟩⟩
      intro turn hmem
      rw [← hsame]
      exact hinside turn hmem
  | @block inner rest hinner hrest ihinner ihrest =>
      rw [List.count_cons_self, List.count_append, List.count_cons_of_ne (by decide)] at hlt
      -- The scope that is entered is one more, and the inner events come back to it.
      have hentered : (replay.apply .enterScope).2.session.scope = replay.session.scope + 1 :=
        (Turn.mk replay .enterScope).scope_next
      have hnat : (replay.session.scope + 1).toNat = replay.session.scope.toNat + 1 := by
        apply toNat_add_one
        omega
      have hne : replay.session.scope + 1 ≠ 0 := by
        intro hzero
        rw [hzero] at hnat
        simp at hnat
      obtain ⟨hback, hinside⟩ := ihinner (replay.apply .enterScope).2 (by
        rw [hentered, hnat]
        omega)
      generalize hreached : (replay.apply .enterScope).2.after inner = reached at hback
      have hleft : (reached.apply .exitScope).2.session.scope = replay.session.scope := by
        have hnext := (Turn.mk reached .exitScope).scope_next
        rw [Turn.nextScope] at hnext
        simp only [hback, hentered, if_neg hne, UInt32.add_sub_cancel] at hnext
        exact hnext
      obtain ⟨hafter, hlast⟩ := ihrest (reached.apply .exitScope).2 (by
        rw [hleft]
        omega)
      constructor
      · rw [Replay.after_cons, Replay.after_append, hreached, Replay.after_cons, hafter, hleft]
      · have hle : replay.session.scope ≤ replay.session.scope + 1 := by
          rw [UInt32.le_iff_toNat_le, hnat]
          omega
        rw [Replay.turns, Replay.turns_append, hreached, Replay.turns]
        simp only [List.forall_mem_cons, List.forall_mem_append]
        refine ⟨UInt32.le_refl _, ?_, ?_, ?_⟩
        · intro turn hmem
          apply UInt32.le_trans hle
          rw [← hentered]
          exact hinside turn hmem
        · rw [hback, hentered]
          exact hle
        · intro turn hmem
          rw [← hleft]
          exact hlast turn hmem

/-- Bracketed events are nowhere outside the scope they began with. -/
theorem Event.Bracketed.le_scope_after {part more : List Event} (h : Bracketed (part ++ more))
    (replay : Replay)
    (hlt : replay.session.scope.toNat + (part ++ more).count .enterScope < UInt32.size) :
    replay.session.scope ≤ (replay.after part).session.scope := by
  obtain ⟨hafter, hinside⟩ := h.scope_after replay hlt
  cases more with
  | nil =>
      rw [List.append_nil] at hafter
      exact UInt32.le_of_eq hafter.symm
  | cons event more => exact hinside _ (Replay.mem_turns_append part event more)

namespace Replay

/-- The global scope cannot be left, and every other one can, without wrapping around. -/
theorem apply_exitScope (replay : Replay) :
    ((replay.apply .exitScope).1 = .error .scopeUnderflow ↔ replay.session.scope = 0) ∧
    ((replay.apply .exitScope).1 = .ok () ↔ replay.session.scope ≠ 0) ∧
    (replay.session.scope ≠ 0 →
      (replay.apply .exitScope).2.session.scope.toNat + 1 = replay.session.scope.toNat) := by
  let turn : Turn := { replay, event := .exitScope }
  refine ⟨⟨fun h => ?_, fun hzero => ?_⟩, ?_, turn.toNat_scope_next_of_leaves rfl⟩
  · obtain ⟨hrefuses, -⟩ := apply_eq_error_iff.mp (Prod.ext h (apply_of_error h))
    cases hrefuses with
    | exitScope hzero => exact hzero
  · rw [apply_eq_error_iff.mpr ⟨.exitScope hzero, rfl⟩]
  · exact turn.succeeds_iff.symm.trans (Turn.succeeds_exitScope rfl)

/-! ## Lines -/

/-- How many of some numbered lines write an event. -/
def writing (event : Event) (lines : List (List Char × Nat)) : Nat :=
  lines.countP fun line => (Event.read line.1).toOption = some event

/-- The first line up to which more scopes are left than entered, by its number. -/
def FirstExcess (lines : List (List Char × Nat)) (number : Nat) : Prop :=
  ∃ before line after, lines = before ++ (line, number) :: after ∧
    writing .enterScope (before ++ [(line, number)]) <
      writing .exitScope (before ++ [(line, number)]) ∧
    ∀ part, part <+: before → writing .exitScope part ≤ writing .enterScope part

/-- Every line that is reached and does not leave a scope can be read and applied. -/
def OthersSucceed (replay : Replay) (lines : List (List Char × Nat)) : Prop :=
  ∀ before line number after reached, lines = before ++ (line, number) :: after →
    Replays replay before reached → Event.read line ≠ .ok .exitScope →
    ∃ next, reached.step line = (.ok (), next)

theorem writing_append (event : Event) (lines more : List (List Char × Nat)) :
    writing event (lines ++ more) = writing event lines + writing event more :=
  List.countP_append

/-- Lines that write events write each of them as often as it is among them. -/
theorem writing_eq_count {lines : List (List Char × Nat)} {events : List Event}
    (h : lines.map (fun line => Event.read line.1) = events.map .ok) (event : Event) :
    writing event lines = events.count event := by
  have hcount := congrArg (List.countP fun reading => reading.toOption = some event) h
  rw [List.countP_map, List.countP_map] at hcount
  refine hcount.trans (List.countP_congr fun found _ => ?_)
  simp [Except.toOption]

theorem replays_append_iff {replay final : Replay} {lines more : List (List Char × Nat)} :
    Replays replay (lines ++ more) final ↔
      ∃ reached, Replays replay lines reached ∧ Replays reached more final := by
  induction lines generalizing replay with
  | nil =>
      constructor
      · exact fun h => ⟨replay, .nil, h⟩
      · rintro ⟨reached, ⟨⟩, h⟩
        exact h
  | cons line lines ih =>
      constructor
      · rintro (_ | ⟨hr, ha, h⟩)
        obtain ⟨reached, hlines, hmore⟩ := ih.mp h
        exact ⟨reached, .cons hr ha hlines, hmore⟩
      · rintro ⟨reached, (_ | ⟨hr, ha, h⟩), hmore⟩
        exact .cons hr ha (ih.mpr ⟨reached, h, hmore⟩)

/-- The scopes that replayed lines enter are those that they leave and those that stay open. -/
theorem Replays.toNat_scope {replay final : Replay} {lines : List (List Char × Nat)}
    (h : Replays replay lines final)
    (hlt : replay.session.scope.toNat + writing .enterScope lines < UInt32.size) :
    final.session.scope.toNat + writing .exitScope lines =
      replay.session.scope.toNat + writing .enterScope lines := by
  obtain ⟨events, hread, rfl, hsucceeds⟩ := replays_iff_exists_events.mp h
  have hleaves : (replay.turns events).countP Turn.leaves = events.count .exitScope := by
    calc
      _ = (replay.turns events).countP fun turn => turn.event = .exitScope := by
        apply List.countP_congr
        intro turn hmem
        simp [Turn.leaves, hsucceeds turn hmem]
      _ = ((replay.turns events).map Turn.event).count .exitScope := by
        rw [List.count, List.countP_map]
        apply List.countP_congr
        simp
      _ = events.count .exitScope := by rw [map_event_turns]
  rw [writing_eq_count hread] at hlt ⊢
  rw [writing_eq_count hread, ← hleaves]
  exact toNat_scope_after replay events hlt

section

variable {lines : List (List Char × Nat)} {number : Nat}

/-- Lines that replay from the global scope nowhere leave more scopes than they enter. -/
theorem Replays.writing_le {replay final : Replay} (h : Replays replay lines final)
    (hglobal : replay.session.scope = 0) (hlt : writing .enterScope lines < UInt32.size)
    {part : List (List Char × Nat)} (hp : part <+: lines) :
    writing .exitScope part ≤ writing .enterScope part := by
  obtain ⟨more, rfl⟩ := hp
  obtain ⟨reached, hpart, -⟩ := replays_append_iff.mp h
  rw [writing_append] at hlt
  have hcount := hpart.toNat_scope (by
    rw [hglobal, UInt32.toNat_zero]
    omega)
  rw [hglobal, UInt32.toNat_zero] at hcount
  omega

/-- There is one such line at most. -/
theorem FirstExcess.unique {other : Nat} (h : FirstExcess lines number)
    (ho : FirstExcess lines other) : number = other := by
  obtain ⟨before, line, after, hlines, hexcess, hfirst⟩ := h
  obtain ⟨before', line', after', hlines', hexcess', hfirst'⟩ := ho
  have hprefix : before ++ [(line, number)] <+: lines := ⟨after, by simp [hlines]⟩
  have hprefix' : before' ++ [(line', other)] <+: lines := ⟨after', by simp [hlines']⟩
  -- Of the two, the one that ends earlier is no longer than what comes before the other.
  rcases Nat.lt_trichotomy before.length before'.length with hlt | heq | hgt
  · have hle := hfirst' _ (List.prefix_of_prefix_length_le hprefix ⟨_, hlines'.symm⟩ (by simpa))
    omega
  · have hsame := List.prefix_of_prefix_length_le hprefix hprefix' (by simp [heq])
    have hlast := hsame.eq_of_length (by simp [heq])
    exact congrArg Prod.snd (List.append_inj_right' hlast rfl |> List.singleton_inj.mp)
  · have hle := hfirst _ (List.prefix_of_prefix_length_le hprefix' ⟨_, hlines.symm⟩ (by simpa))
    omega

/-- There is one if and only if more scopes are left than entered up to some line. -/
theorem exists_firstExcess_iff :
    (∃ number, FirstExcess lines number) ↔
      ∃ part, part <+: lines ∧ writing .enterScope part < writing .exitScope part := by
  constructor
  · rintro ⟨number, before, line, after, rfl, hexcess, -⟩
    exact ⟨before ++ [(line, number)], ⟨after, by simp⟩, hexcess⟩
  · rintro ⟨part, ⟨more, rfl⟩, hexcess⟩
    induction hlength : part.length using Nat.strong_induction_on generalizing part more with
    | _ length ih =>
        -- Either a shorter part has more exits too, or the last line of this one is the first excess.
        by_cases hshorter : ∃ early later, part = early ++ later ∧ later ≠ [] ∧
            writing .enterScope early < writing .exitScope early
        · obtain ⟨early, later, rfl, hne, hearly⟩ := hshorter
          rw [List.append_assoc]
          refine ih early.length ?_ early hearly (later ++ more) rfl
          rw [← hlength, List.length_append]
          have := List.length_pos_iff.mpr hne
          omega
        · obtain rfl | ⟨before, last, rfl⟩ := part.eq_nil_or_concat
          · cases hexcess
          · rw [List.concat_eq_append] at hexcess hshorter ⊢
            refine ⟨last.2, before, last.1, more, by simp, hexcess, ?_⟩
            rintro early ⟨later, rfl⟩
            by_contra hmore
            exact hshorter ⟨early, later ++ [last], by simp, by simp, by omega⟩

/-- A line fails because of scopes if it leaves one where there is none. -/
theorem fails_scopeUnderflow_iff {replay : Replay} {line : List Char} :
    Fails replay line (.violated .scopeUnderflow) ↔
      Event.read line = .ok .exitScope ∧ replay.session.scope = 0 := by
  constructor
  · intro h
    cases h with
    | @violated event _ hr ha =>
        obtain ⟨hrefuses, -⟩ := apply_eq_error_iff.mp (Prod.ext ha (apply_of_error ha))
        cases hrefuses with
        | exitScope hzero => exact ⟨hr, hzero⟩
  · rintro ⟨hr, hzero⟩
    refine .violated hr ?_
    rw [apply_eq_error_iff.mpr ⟨.exitScope hzero, rfl⟩]

/-- A line that leaves a scope fails for no other reason. -/
theorem fault_of_fails_exitScope {replay : Replay} {line : List Char} {fault : Fault}
    (hr : Event.read line = .ok .exitScope) (h : Fails replay line fault) :
    fault = .violated .scopeUnderflow := by
  cases h with
  | unreadable hne => rw [hr] at hne; cases hne
  | violated hread ha =>
      obtain rfl := Except.ok.inj (hr.symm.trans hread)
      obtain ⟨⟨⟩, -⟩ := apply_eq_error_iff.mp (Prod.ext ha (apply_of_error ha))
      rfl

/-- Lines that stop because of scopes stop at the first excess. -/
theorem firstExcess_of_fails {replay final : Replay} {before after : List (List Char × Nat)}
    {line : List Char} (hlines : lines = before ++ (line, number) :: after)
    (hglobal : replay.session.scope = 0) (hlt : writing .enterScope lines < UInt32.size)
    (hb : Replays replay before final) (hf : Fails final line (.violated .scopeUnderflow)) :
    FirstExcess lines number := by
  obtain ⟨hr, hzero⟩ := fails_scopeUnderflow_iff.mp hf
  rw [hlines, writing_append] at hlt
  have hcount := hb.toNat_scope (by
    rw [hglobal, UInt32.toNat_zero]
    omega)
  rw [hglobal, hzero, UInt32.toNat_zero] at hcount
  refine ⟨before, line, after, hlines, ?_, fun part => hb.writing_le hglobal (by omega)⟩
  have hexit : writing .exitScope [(line, number)] = 1 := by simp [writing, hr, Except.toOption]
  have henter : writing .enterScope [(line, number)] = 0 := by simp [writing, hr, Except.toOption]
  rw [writing_append, writing_append, hexit, henter]
  omega

end

/-- A replay from the global scope, of a text of which no other line fails, is stopped by the first
line up to which more scopes are left than entered, and otherwise gets to the end. -/
theorem run_eq_underflow_iff (replay : Replay) (hglobal : replay.session.scope = 0) {trace : String}
    {lines : List (List Char)} (h : IsLines lines trace.toList)
    (hlt : writing .enterScope (significant 1 lines) < UInt32.size)
    (hothers : OthersSucceed replay (significant 1 lines)) :
    (∀ number, (replay.run trace).1 = .error { line := number, fault := .violated .scopeUnderflow } ↔
      FirstExcess (significant 1 lines) number) ∧
    ((∃ n, (replay.run trace).1 = .ok n) ↔ ∀ part, part <+: significant 1 lines →
      writing .exitScope part ≤ writing .enterScope part) := by
  rw [run_eq_runLines h]
  cases hrun : runLines 1 0 replay lines with
  | mk answer final =>
      cases answer with
      | ok n =>
          have hreplays := (runLines_eq_ok_iff.mp hrun).1
          have hle := fun part (hp : part <+: significant 1 lines) => hreplays.writing_le hglobal hlt hp
          refine ⟨fun number => ⟨nofun, ?_⟩, fun _ => hle, fun _ => ⟨n, rfl⟩⟩
          rintro ⟨before, line, after, hlines, hexcess, -⟩
          have hpart := hle (before ++ [(line, number)]) ⟨after, by simp [hlines]⟩
          omega
      | error error =>
          obtain ⟨before, line, after, hlines, hreplays, hfails⟩ := runLines_eq_error_iff.mp hrun
          have hr : Event.read line = .ok .exitScope := by
            by_contra hother
            obtain ⟨next, hnext⟩ := hothers before line _ after final hlines hreplays hother
            rw [hfails.step_eq] at hnext
            cases hnext
          have hfault := fault_of_fails_exitScope hr hfails
          rw [hfault] at hfails
          have hexcess := firstExcess_of_fails hlines hglobal hlt hreplays hfails
          refine ⟨fun number => ⟨?_, fun hnumber => ?_⟩, ?_, fun hle => ?_⟩
          · intro hsame
            obtain rfl := Except.error.inj hsame
            exact hexcess
          · rw [hnumber.unique hexcess, ← hfault]
          · rintro ⟨n, hn⟩
            cases hn
          · obtain ⟨before, line, after, hlines, hmore, -⟩ := hexcess
            have hpart := hle (before ++ [(line, error.line)]) ⟨after, by simp [hlines]⟩
            omega

/-- What becomes of the scope and the function of a session that was just started: they are counted
by the events that enter and leave them, bracketed events come back to their scope, and a replay of
which no other line fails is stopped by the first line that leaves more scopes than were entered. -/
theorem scope_accounting (sourceName : String) (lastResolved : TypeCode) :
    let fresh : Replay := { session := .start sourceName, lastResolved }
    (∀ events : List Event, events.count .enterScope < UInt32.size →
      events.count .enterFunction < UInt32.size →
      (∀ earlier later, events = earlier ++ later →
        let reached := fresh.after earlier
        let session := reached.session
        session.scope.toNat + (fresh.turns earlier).countP Turn.leaves =
          earlier.count .enterScope ∧
        session.function.toNat = earlier.count .enterFunction ∧
        (later.head? = some .enterScope → session.scope.toNat + 1 < UInt32.size) ∧
        (later.head? = some .enterFunction → session.function.toNat + 1 < UInt32.size) ∧
        ((reached.apply .exitScope).1 = .error .scopeUnderflow ↔ session.scope = 0) ∧
        ((reached.apply .exitScope).1 = .ok () ↔ session.scope ≠ 0) ∧
        (session.scope ≠ 0 →
          (reached.apply .exitScope).2.session.scope.toNat + 1 = session.scope.toNat)) ∧
      ∀ earlier segment later, events = earlier ++ (segment ++ later) → Event.Bracketed segment →
        (fresh.after (earlier ++ segment)).session.scope = (fresh.after earlier).session.scope ∧
        ∀ part more, segment = part ++ more →
          (fresh.after earlier).session.scope ≤ (fresh.after (earlier ++ part)).session.scope) ∧
    ∀ trace lines, IsLines lines trace.toList →
      writing .enterScope (significant 1 lines) < UInt32.size →
      OthersSucceed fresh (significant 1 lines) →
      ((∃ number, (fresh.run trace).1 =
          .error { line := number, fault := .violated .scopeUnderflow }) ↔
        ∃ part, part <+: significant 1 lines ∧
          writing .enterScope part < writing .exitScope part) ∧
      (∀ number, (fresh.run trace).1 =
          .error { line := number, fault := .violated .scopeUnderflow } ↔
        FirstExcess (significant 1 lines) number) ∧
      ((∃ n, (fresh.run trace).1 = .ok n) ∨
        ∃ number, (fresh.run trace).1 =
          .error { line := number, fault := .violated .scopeUnderflow }) := by
  intro fresh
  have hscope : fresh.session.scope.toNat = 0 := rfl
  have hfunction : fresh.session.function.toNat = 0 := rfl
  have hcount : ∀ earlier : List Event, earlier.count .enterScope < UInt32.size →
      (fresh.after earlier).session.scope.toNat + (fresh.turns earlier).countP Turn.leaves =
        earlier.count .enterScope := by
    intro earlier hlt
    have h := toNat_scope_after fresh earlier (by omega)
    omega
  constructor
  · intro events henter hfunctions
    constructor
    · rintro earlier later rfl reached session
      rw [List.count_append] at henter hfunctions
      have hleft := hcount earlier (by omega)
      have hentered := toNat_function_after fresh earlier (by omega)
      rw [hfunction, Nat.zero_add] at hentered
      refine ⟨hleft, hentered, fun hnext => ?_, fun hnext => ?_, reached.apply_exitScope⟩
      · obtain ⟨later, rfl⟩ := List.head?_eq_some_iff.mp hnext
        rw [List.count_cons_self] at henter
        show (fresh.after earlier).session.scope.toNat + 1 < UInt32.size
        omega
      · obtain ⟨later, rfl⟩ := List.head?_eq_some_iff.mp hnext
        rw [List.count_cons_self] at hfunctions
        show (fresh.after earlier).session.function.toNat + 1 < UInt32.size
        omega
    · rintro earlier segment later rfl hsegment
      rw [List.count_append, List.count_append] at henter
      have hleft := hcount earlier (by omega)
      have hlt : (fresh.after earlier).session.scope.toNat + segment.count .enterScope <
          UInt32.size := by omega
      rw [after_append]
      refine ⟨(hsegment.scope_after _ hlt).1, ?_⟩
      rintro part more rfl
      rw [after_append]
      exact hsegment.le_scope_after _ hlt
  · intro trace lines hlines henter hothers
    obtain ⟨hfirst, hends⟩ := run_eq_underflow_iff fresh rfl hlines henter hothers
    refine ⟨(exists_congr hfirst).trans exists_firstExcess_iff, hfirst, ?_⟩
    by_cases hexcess : ∃ part, part <+: significant 1 lines ∧
        writing .enterScope part < writing .exitScope part
    · exact .inr (((exists_congr hfirst).trans exists_firstExcess_iff).mpr hexcess)
    · refine .inl (hends.mpr fun part hp => ?_)
      by_contra hmore
      exact hexcess ⟨part, hp, by omega⟩

/-- A block is bracketed by its scope, and a trace that leaves more scopes than it entered is
stopped, here by its fourth line. -/
theorem scope_accounting_of_excess :
    let fresh : Replay := { session := .start "input.c", lastResolved := 0 }
    let events : List Event := [.enterFunction, .enterScope, .exitScope]
    (fresh.after events).session.scope = (fresh.after [.enterFunction]).session.scope ∧
    (fresh.after events).session.function.toNat = 1 ∧
    (fresh.run "scope enter\nscope exit\n\nscope exit\n").1 =
      .error { line := 4, fault := .violated .scopeUnderflow } := by
  intro fresh events
  obtain ⟨hevents, htraces⟩ := scope_accounting "input.c" 0
  obtain ⟨hcounts, hbracketed⟩ := hevents events (by decide) (by decide)
  obtain ⟨-, hfunction, -⟩ := hcounts events [] rfl
  let lines : List (List Char) :=
    ["scope enter".toList, "scope exit".toList, [], "scope exit".toList]
  have hlines : IsLines lines "scope enter\nscope exit\n\nscope exit\n".toList :=
    .lf (by decide) (by decide) (.lf (by decide) (by decide)
      (.lf (by decide) (by decide) (.lf (by decide) (by decide) .nil)))
  have henters : ∀ found ∈ significant 1 lines,
      found.1 = "scope enter".toList ∨ Event.read found.1 = .ok .exitScope := by decide +kernel
  have hothers : OthersSucceed fresh (significant 1 lines) := by
    intro before line number after reached hsplit _ hexit
    rcases henters (line, number) (by simp [hsplit]) with rfl | hread
    · exact ⟨_, rfl⟩
    · exact absurd hread hexit
  have hexcess : FirstExcess (significant 1 lines) 4 := by
    refine ⟨[("scope enter".toList, 1), ("scope exit".toList, 2)], "scope exit".toList, [],
      by decide +kernel, by decide +kernel, fun part hpart => ?_⟩
    have hparts : ∀ part ∈ [("scope enter".toList, 1), ("scope exit".toList, 2)].inits,
        writing .exitScope part ≤ writing .enterScope part := by decide +kernel
    exact hparts part ((List.mem_inits _ _).mpr hpart)
  refine ⟨?_, hfunction, ?_⟩
  · exact (hbracketed [.enterFunction] [.enterScope, .exitScope] [] rfl (.block .nil .nil)).1
  · exact ((htraces _ lines hlines (by decide +kernel) hothers).2.1 4).mpr hexcess

end Replay

end SemanticPass
