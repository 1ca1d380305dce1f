import Mathlib.Data.List.Induction
import SemanticPass.Proofs.Run.Redeclaration

/-!
# Blocks and the declarations in them

A block is what one `enterScope` opens and the matching `exitScope` closes. The current scope is the
number of open blocks, so blocks of one depth that follow each other in a function share their keys.
A declaration that is the first to name its name directly in its block is therefore complained about
exactly if the name was declared, recorded or resolved before at that depth in that function. This
was in another block, which has been closed since.

## Implementation notes

A block is known by its place, the number of events before the one that opens it. No two blocks have
one place.
-/

namespace SemanticPass

/-- Whether an event declares, records or uses a name. -/
def Event.mentions (event : Event) (name : String) : Bool :=
  event.introduces name || event.uses name

namespace Turn

/-- The open blocks after a turn, the innermost first, if the turn stands at a place. -/
def nextBlocks (turn : Turn) (place : Nat) (blocks : List Nat) : List Nat :=
  match turn.event with
  | .enterScope => place :: blocks
  | .exitScope => if turn.succeeds then blocks.tail else blocks
  | _ => blocks

/-- A turn opens a block inside the others, closes the innermost one, or leaves them. -/
theorem nextBlocks_cases (turn : Turn) (place : Nat) (blocks : List Nat) :
    turn.nextBlocks place blocks = place :: blocks ∨ turn.nextBlocks place blocks = blocks.tail ∨
      turn.nextBlocks place blocks = blocks := by
  unfold nextBlocks
  split
  · exact .inl rfl
  · split
    · exact .inr (.inl rfl)
    · exact .inr (.inr rfl)
  · exact .inr (.inr rfl)

/-- The scope stays the number of open blocks. -/
theorem nextScope_eq_length {turn : Turn} {blocks : List Nat} (place : Nat)
    (h : turn.replay.session.scope = .ofNat blocks.length) :
    turn.nextScope = .ofNat (turn.nextBlocks place blocks).length := by
  cases he : turn.event with
  | enterScope =>
      simp only [nextScope, nextBlocks, he, h, List.length_cons]
      exact (UInt32.ofNat_add ..).symm
  | exitScope =>
      have hs := succeeds_exitScope he
      by_cases hzero : turn.replay.session.scope = 0
      · simp [nextScope, nextBlocks, he, hs, hzero, ← h]
      · cases blocks with
        | nil => exact absurd h hzero
        | cons block blocks =>
            have hpred : turn.replay.session.scope - 1 = .ofNat blocks.length := by
              rw [h, List.length_cons, UInt32.ofNat_add]
              exact UInt32.add_sub_cancel ..
            simpa [nextScope, nextBlocks, he, hs, hzero] using hpred
  | _ => simpa [nextScope, nextBlocks, he] using h

/-- Whether a key is known after a turn because of it: the turn declares or records the key, or uses
it and finds a declaration. -/
def takes (turn : Turn) (key : SymbolKey) : Prop :=
  turn.introducesAt key = true ∨ turn.refersAt key = true

/-- A turn that takes a key mentions its name in its scope and function. -/
theorem mentions_of_takes {turn : Turn} {key : SymbolKey} (h : turn.takes key) :
    turn.event.mentions key.name = true ∧ turn.key key.name = key := by
  simp only [takes, introducesAt, refersAt, Bool.and_eq_true, beq_iff_eq] at h
  rcases h with ⟨hi, hkey⟩ | ⟨hr, hkey⟩
  · exact ⟨by simp [Event.mentions, ((introduces_iff turn _).mp hi).1], hkey⟩
  · exact ⟨by simp [Event.mentions, ((refers_iff turn _).mp hr).1], hkey⟩

end Turn

namespace Replay

/-- The blocks that are open after events, the innermost first. -/
def openBlocks (replay : Replay) (events : List Event) : List Nat :=
  (replay.turns events).zipIdx.foldl (fun blocks turn => turn.1.nextBlocks turn.2 blocks) []

@[simp]
theorem openBlocks_nil (replay : Replay) : replay.openBlocks [] = [] := rfl

theorem length_turns (replay : Replay) (events : List Event) :
    (replay.turns events).length = events.length := by
  rw [← List.length_map (f := Turn.event), map_event_turns]

theorem openBlocks_concat (replay : Replay) (events : List Event) (event : Event) :
    replay.openBlocks (events ++ [event]) =
      Turn.nextBlocks { replay := replay.after events, event } events.length
        (replay.openBlocks events) := by
  rw [openBlocks, turns_concat, List.zipIdx_append, List.foldl_append, length_turns, Nat.zero_add]
  rfl

/-- The scope is the number of open blocks. -/
theorem scope_after (sourceName : String) (events : List Event) :
    ((start sourceName).after events).session.scope =
      .ofNat ((start sourceName).openBlocks events).length := by
  induction events using List.reverseRecOn with
  | nil => rfl
  | append_singleton events event ih =>
      rw [after_concat, Turn.scope_next, openBlocks_concat]
      exact Turn.nextScope_eq_length events.length ih

/-- The function is the number of functions entered. -/
theorem function_after (sourceName : String) (events : List Event) :
    ((start sourceName).after events).session.function = .ofNat (events.count .enterFunction) := by
  induction events using List.reverseRecOn with
  | nil => rfl
  | append_singleton events event ih =>
      rw [after_concat, Turn.function_next, List.count_append, List.count_singleton]
      cases event with
      | enterFunction =>
          simp only [Turn.nextFunction, ih]
          exact (UInt32.ofNat_add ..).symm
      | _ => simpa [Turn.nextFunction] using ih

/-- An inner block was opened after those around it, and all of them by the events. -/
theorem openBlocks_sorted (replay : Replay) (events : List Event) :
    (replay.openBlocks events).Pairwise (· > ·) ∧
      ∀ block ∈ replay.openBlocks events, block < events.length := by
  induction events using List.reverseRecOn with
  | nil => simp
  | append_singleton events event ih =>
      obtain ⟨hsorted, hlt⟩ := ih
      rw [openBlocks_concat, List.length_append, List.length_singleton]
      rcases Turn.nextBlocks_cases { replay := replay.after events, event } events.length
        (replay.openBlocks events) with h | h | h <;> rw [h]
      · refine ⟨List.pairwise_cons.mpr ⟨hlt, hsorted⟩, fun block hmem => ?_⟩
        rcases List.mem_cons.mp hmem with rfl | hmem
        · exact Nat.lt_succ_self _
        · exact Nat.lt_succ_of_lt (hlt block hmem)
      · exact ⟨hsorted.tail, fun block hmem =>
          Nat.lt_succ_of_lt (hlt block (List.mem_of_mem_tail hmem))⟩
      · exact ⟨hsorted, fun block hmem => Nat.lt_succ_of_lt (hlt block hmem)⟩

theorem length_openBlocks_le (replay : Replay) (events : List Event) :
    (replay.openBlocks events).length ≤ events.length := by
  induction events using List.reverseRecOn with
  | nil => exact Nat.le_refl _
  | append_singleton events event ih =>
      rw [openBlocks_concat, List.length_append, List.length_singleton]
      rcases Turn.nextBlocks_cases { replay := replay.after events, event } events.length
        (replay.openBlocks events) with h | h | h <;> rw [h]
      · exact Nat.succ_le_succ ih
      · rw [List.length_tail]
        omega
      · omega

theorem lt_length_of_head?_openBlocks {replay : Replay} {events : List Event} {block : Nat}
    (h : (replay.openBlocks events).head? = some block) : block < events.length :=
  (openBlocks_sorted replay events).2 block (List.mem_of_head? h)

/-- While scopes cannot wrap around, places of one scope have one depth. -/
theorem length_openBlocks_inj {sourceName : String} {events others : List Event}
    (he : events.length < UInt32.size) (ho : others.length < UInt32.size)
    (h : ((start sourceName).after events).session.scope =
      ((start sourceName).after others).session.scope) :
    ((start sourceName).openBlocks events).length =
      ((start sourceName).openBlocks others).length := by
  rw [scope_after, scope_after] at h
  have hdepth := congrArg UInt32.toNat h
  have hevents := Nat.lt_of_le_of_lt (length_openBlocks_le (start sourceName) events) he
  have hothers := Nat.lt_of_le_of_lt (length_openBlocks_le (start sourceName) others) ho
  rwa [UInt32.toNat_ofNat_of_lt' hevents, UInt32.toNat_ofNat_of_lt' hothers] at hdepth

/-- A block that was open is closed, or is open still with the same blocks around it. -/
theorem openBlocks_suffix_or_closed {replay : Replay} {earlier : List Event} {block : Nat}
    {around : List Nat} (h : replay.openBlocks earlier = block :: around) (later : List Event) :
    block :: around <:+ replay.openBlocks (earlier ++ later) ∨
      block ∉ replay.openBlocks (earlier ++ later) := by
  induction later using List.reverseRecOn with
  | nil =>
      rw [List.append_nil, h]
      exact .inl (List.suffix_refl _)
  | append_singleton later event ih =>
      have hlt : block < (earlier ++ later).length := by
        have hmem := (openBlocks_sorted replay earlier).2 block (by simp [h])
        rw [List.length_append]
        omega
      have hsorted := (openBlocks_sorted replay (earlier ++ later)).1
      rw [← List.append_assoc, openBlocks_concat]
      rcases Turn.nextBlocks_cases { replay := replay.after (earlier ++ later), event }
        (earlier ++ later).length (replay.openBlocks (earlier ++ later)) with hn | hn | hn <;> rw [hn]
      · rcases ih with ih | ih
        · exact .inl (List.suffix_cons_iff.mpr (.inr ih))
        · exact .inr fun hmem => (List.mem_cons.mp hmem).elim (Nat.ne_of_lt hlt) ih
      · rcases ih with ih | ih
        · cases ho : replay.openBlocks (earlier ++ later) with
          | nil => simp
          | cons innermost others =>
              rw [ho] at ih hsorted
              rcases List.suffix_cons_iff.mp ih with heq | ih
              · obtain ⟨rfl, rfl⟩ := List.cons.inj heq
                exact .inr fun hmem => Nat.lt_irrefl _ ((List.pairwise_cons.mp hsorted).1 _ hmem)
              · exact .inl ih
        · exact .inr fun hmem => ih (List.mem_of_mem_tail hmem)
      · exact ih

/-- A block in which an event stands at the depth of another one is closed when that is open. -/
theorem closed_of_length_eq {replay : Replay} {earlier later : List Event} {block : Nat}
    (hblock : (replay.openBlocks (earlier ++ later)).head? = some block)
    (hlength : (replay.openBlocks earlier).length = (replay.openBlocks (earlier ++ later)).length)
    (hne : (replay.openBlocks earlier).head? ≠ some block) :
    ∃ other, (replay.openBlocks earlier).head? = some other ∧
      other ∉ replay.openBlocks (earlier ++ later) := by
  cases ho : replay.openBlocks earlier with
  | nil =>
      rw [ho, List.length_nil, eq_comm, List.length_eq_zero_iff] at hlength
      simp [hlength] at hblock
  | cons other around =>
      refine ⟨other, rfl, fun hopen => hne ?_⟩
      have hsuffix := (openBlocks_suffix_or_closed ho later).resolve_right (absurd hopen)
      rw [ho] at hlength
      rw [ho, hsuffix.eq_of_length hlength, hblock]

/-- What a declaration does that is the first to name its name directly in its block. It is
complained about exactly if the name was declared or recorded, or its use resolved, at the depth of
the block in the same function. This was in another block then, which is closed. -/
theorem declare_in_block {sourceName : String} {events : List Event} {name : String} {block : Nat}
    {type : DeclaredType} (line : LineNumber)
    (hp : ((start sourceName).after events).session.pendingType = some type)
    (hblock : ((start sourceName).openBlocks events).head? = some block)
    (hfirst : ∀ earlier event later, events = earlier ++ event :: later →
      event.mentions name = true → ((start sourceName).openBlocks earlier).head? ≠ some block) :
    let turn : Turn := { replay := (start sourceName).after events, event := .declare line name }
    let before := turn.replay.session
    let after := turn.next.session
    let key : SymbolKey := { name, scope := before.scope, function := before.function }
    let taken := ∃ earlier ∈ (start sourceName).turns events, earlier.takes key
    turn.succeeds = true ∧
    ((∃ sameType, after.diagnostics = before.diagnostics.push
      { sourceName, line, kind := .multipleDeclaration sameType }) ↔ taken) ∧
    (taken → after.symbols = before.symbols) ∧
    (¬ taken → after.diagnostics = before.diagnostics ∧ before.symbols.get? key = none ∧
      after.symbols.entries =
        before.symbols.entries ++ [{ key, declaredType := type, lines := [line] }]) ∧
    (events.length < UInt32.size → ∀ earlier event later, events = earlier ++ event :: later →
      Turn.takes { replay := (start sourceName).after earlier, event } key →
      ((start sourceName).openBlocks earlier).length =
        ((start sourceName).openBlocks events).length ∧
      ∃ other, ((start sourceName).openBlocks earlier).head? = some other ∧
        other ∉ (start sourceName).openBlocks events) := by
  intro turn before after key taken
  have hp : turn.pendingType = some type := hp
  have hcoherent : before.symbols.Coherent := coherent_after sourceName events
  have hsource : before.sourceName = sourceName := sourceName_after sourceName events
  have htaken : (before.symbols.declaredType? key).isSome = true ↔ taken :=
    isSome_declaredType?_after sourceName events key
  have hcomplained : taken → (∃ sameType, after.diagnostics = before.diagnostics.push
      { sourceName, line, kind := .multipleDeclaration sameType }) ∧
      after.symbols = before.symbols := by
    intro ht
    obtain ⟨row, -, hpush, hsymbols⟩ :=
      Turn.next_declare_of_known hcoherent (rfl : turn.event = _) hp (htaken.mpr ht)
    rw [hsource] at hpush
    exact ⟨⟨_, hpush⟩, hsymbols⟩
  have hrecorded : ¬ taken → before.symbols.get? key = none ∧
      after.diagnostics = before.diagnostics ∧
      before.symbols.Gains { key, type, line } after.symbols := by
    intro ht
    have hd : before.symbols.declaredType? key = none := by
      simpa using (not_congr htaken).mpr ht
    exact Turn.next_declare_of_new hcoherent (rfl : turn.event = _) hp hd
  refine ⟨?_, ⟨?_, fun ht => (hcomplained ht).1⟩, fun ht => (hcomplained ht).2, ?_, ?_⟩
  · rw [Turn.succeeds_eq, Turn.refusal?, hp]
    rfl
  · rintro ⟨sameType, hpush⟩
    by_contra ht
    have hsize := congrArg Array.size ((hrecorded ht).2.1.symm.trans hpush)
    simp at hsize
  · intro ht
    obtain ⟨hnone, hdiagnostics, hgains⟩ := hrecorded ht
    refine ⟨hdiagnostics, hnone, ?_⟩
    rw [hgains.entries, hnone]
  · intro hshort earlier event later hevents htakes
    obtain ⟨hmentions, hkey⟩ := Turn.mentions_of_takes htakes
    have hlength : ((start sourceName).openBlocks earlier).length =
        ((start sourceName).openBlocks events).length := by
      refine length_openBlocks_inj ?_ hshort (congrArg SymbolKey.scope hkey)
      exact Nat.lt_of_le_of_lt (by simp [hevents]) hshort
    refine ⟨hlength, ?_⟩
    subst hevents
    exact closed_of_length_eq hblock hlength (hfirst earlier event later rfl hmentions)

/-- A name of a block can be declared in a block inside it. -/
theorem declare_in_block_inside_another :
    let events : List Event := [.beginType 'i', .enterScope, .declare 1 "x", .enterScope]
    let turn : Turn := { replay := (start "input.c").after events, event := .declare 2 "x" }
    turn.pendingType = some .int ∧ ((start "input.c").openBlocks events).head? = some 3 ∧
    turn.next.session.diagnostics = turn.replay.session.diagnostics ∧
    turn.next.session.symbols.entries = turn.replay.session.symbols.entries ++
      [{ key := { name := "x", scope := 2, function := 0 }, declaredType := .int, lines := [2] }] := by
  intro events turn
  let first : Turn := { replay := start "input.c", event := .beginType 'i' }
  let enter : Turn := { replay := first.next, event := .enterScope }
  let outer : Turn := { replay := enter.next, event := .declare 1 "x" }
  let inner : Turn := { replay := outer.next, event := .enterScope }
  have hturns : (start "input.c").turns events = [first, enter, outer, inner] := rfl
  have hp : turn.pendingType = some .int := by
    show inner.next.session.pendingType = _
    rw [inner.pendingType_next]
    show outer.next.session.pendingType = _
    rw [outer.pendingType_next]
    rfl
  have hblock : ((start "input.c").openBlocks events).head? = some 3 := rfl
  have hkey : turn.key "x" = { name := "x", scope := 2, function := 0 } := by
    show SymbolKey.mk "x" ((start "input.c").after events).session.scope
      ((start "input.c").after events).session.function = _
    rw [scope_after, function_after]
    rfl
  have hfirst : ∀ earlier event later, events = earlier ++ event :: later →
      event.mentions "x" = true → ((start "input.c").openBlocks earlier).head? ≠ some 3 := by
    intro earlier event later hevents _ hhead
    have hlt := lt_length_of_head?_openBlocks hhead
    have hlength := congrArg List.length hevents
    simp [events] at hlength
    omega
  obtain ⟨-, -, -, hnew, -⟩ := declare_in_block 2 hp hblock hfirst
  have hfree : ¬ ∃ earlier ∈ (start "input.c").turns events, earlier.takes (turn.key "x") := by
    rintro ⟨earlier, hmem, htakes⟩
    obtain ⟨hmentions, hsame⟩ := Turn.mentions_of_takes htakes
    rw [hturns] at hmem
    simp only [List.mem_cons, List.not_mem_nil, or_false] at hmem
    rcases hmem with rfl | rfl | rfl | rfl
    · exact absurd hmentions (by decide)
    · exact absurd hmentions (by decide)
    · rw [hkey] at hsame
      exact absurd (congrArg SymbolKey.scope hsame) (by decide)
    · exact absurd hmentions (by decide)
  obtain ⟨hdiagnostics, -, hentries⟩ := hnew hfree
  refine ⟨hp, hblock, hdiagnostics, ?_⟩
  rw [← hkey]
  exact hentries

/-- A name can be complained about that the block did not see before: a block before it at the same
depth in the same function declared it. -/
theorem declare_in_sibling_block :
    let events : List Event :=
      [.beginType 'i', .enterScope, .declare 1 "x", .exitScope, .enterScope]
    let turn : Turn := { replay := (start "input.c").after events, event := .declare 2 "x" }
    turn.pendingType = some .int ∧ ((start "input.c").openBlocks events).head? = some 4 ∧
    (∀ earlier event later, events = earlier ++ event :: later →
      event.mentions "x" = true → ((start "input.c").openBlocks earlier).head? ≠ some 4) ∧
    turn.next.session.diagnostics = turn.replay.session.diagnostics.push
      { sourceName := "input.c", line := 2, kind := .multipleDeclaration true } ∧
    turn.next.session.symbols = turn.replay.session.symbols := by
  intro events turn
  let first : Turn := { replay := start "input.c", event := .beginType 'i' }
  let enter : Turn := { replay := first.next, event := .enterScope }
  let sibling : Turn := { replay := enter.next, event := .declare 1 "x" }
  let exit : Turn := { replay := sibling.next, event := .exitScope }
  let last : Turn := { replay := exit.next, event := .enterScope }
  have hp : turn.pendingType = some .int := by
    show last.next.session.pendingType = _
    rw [last.pendingType_next]
    show exit.next.session.pendingType = _
    rw [exit.pendingType_next]
    show sibling.next.session.pendingType = _
    rw [sibling.pendingType_next]
    rfl
  have hopen : (start "input.c").openBlocks [.beginType 'i', .enterScope, .declare 1 "x"] = [1] := rfl
  have hleft : exit.replay.session.scope = 1 := by
    show ((start "input.c").after [.beginType 'i', .enterScope, .declare 1 "x"]).session.scope = 1
    rw [scope_after, hopen]
    rfl
  have hscope : turn.replay.session.scope = 1 := by
    show last.next.session.scope = 1
    rw [last.scope_next]
    show exit.next.session.scope + 1 = 1
    rw [exit.scope_next, Turn.nextScope, hleft]
    rfl
  have hkey : turn.key "x" = { name := "x", scope := 1, function := 0 } := by
    show SymbolKey.mk "x" turn.replay.session.scope
      ((start "input.c").after events).session.function = _
    rw [hscope, function_after]
    rfl
  have hfree : sibling.replay.session.symbols.declaredType? (sibling.key "x") = none := by
    show SymbolTable.empty.declaredType? _ = none
    simp [SymbolTable.empty, SymbolTable.declaredType?]
  have hsymbols : turn.replay.session.symbols =
      (SymbolTable.empty.record { name := "x", scope := 1, function := 0 } .int 1).2 := by
    show last.next.session.symbols = _
    rw [last.symbols_next]
    show exit.next.session.symbols = _
    rw [exit.symbols_next]
    show sibling.next.session.symbols = _
    rw [sibling.symbols_next, (Turn.declare_of_new rfl rfl hfree).2]
    rfl
  have hknown : turn.replay.session.symbols.declaredType? (turn.key "x") = some .int := by
    rw [hsymbols, hkey, SymbolTable.declaredType?_record]
    simp [SymbolTable.empty, SymbolTable.declaredType?]
  obtain ⟨hdiagnostic, hsighting⟩ := Turn.declare_of_known (rfl : turn.event = _) hp hknown
  refine ⟨hp, rfl, ?_, ?_, ?_⟩
  · intro earlier event later hevents _ hhead
    have hlt := lt_length_of_head?_openBlocks hhead
    have hlength := congrArg List.length hevents
    simp [events] at hlength
    omega
  · have hsource : turn.replay.session.sourceName = "input.c" := sourceName_after _ events
    rw [turn.diagnostics_next, hdiagnostic, hsource]
    rfl
  · rw [turn.symbols_next, hsighting]
    rfl

end Replay

end SemanticPass
