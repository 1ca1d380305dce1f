import SemanticPass.Event.Reader
import SemanticPass.Session.Checks
import SemanticPass.Text.Lines

/-!
# Replaying a trace

A trace is a text with one event on each line; blank lines and lines that begin with `#` are
passed over. Its events are applied to a session one after the other, and the first line that
cannot be read or applied ends the replay. What was done before that line stays.
-/

namespace SemanticPass

/-- A session under replay, with the type code of the last use. -/
structure Replay where
  /-- The session as far as it got. -/
  session : Session
  /-- What the last use answered. -/
  lastResolved : TypeCode := .unchecked

/-- Why a line of a trace ends the replay. -/
inductive Fault where
  /-- The line writes no event. -/
  | unreadable (error : ReadError)
  /-- The event cannot be applied. -/
  | violated (violation : Violation)
  deriving DecidableEq, Repr

/-- The words of a fault. -/
def Fault.message : Fault → String
  | .unreadable error => error.message
  | .violated violation => violation.message

/-- A fault with the number of its line, which counts every line from one. -/
structure TraceError where
  /-- The number of the line. -/
  line : Nat
  /-- What is wrong with it. -/
  fault : Fault
  deriving DecidableEq, Repr

/-- The words of a trace error. -/
def TraceError.message (error : TraceError) : String :=
  s!"trace line {error.line}: {error.fault.message}"

namespace Replay

/-- The replay before the first event of a source. -/
def start (sourceName : String) : Replay := { session := .start sourceName }

/-- The replay after an attempt on its session, with what the attempt says of success. -/
def settle {α : Type} (lastResolved : TypeCode) (attempt : Attempt α) :
    Except Violation Unit × Replay :=
  (attempt.1.map fun _ => (), { session := attempt.2, lastResolved })

/-- The replay after a step of its session that cannot fail. -/
def proceed (lastResolved : TypeCode) (session : Session) : Except Violation Unit × Replay :=
  (.ok (), { session, lastResolved })

/-- Applies one event; only a use changes the last resolved code. -/
def apply (replay : Replay) (event : Event) : Except Violation Unit × Replay :=
  match replay with
  | { session, lastResolved } =>
    match event with
    | .token tag line lexeme => settle lastResolved (session.classify lexeme tag line)
    | .constant line literal => proceed lastResolved (session.addConstant literal line)
    | .beginType tag => settle lastResolved (session.setTypeTag tag)
    | .endType => proceed lastResolved session.clearType
    | .declare line name => settle lastResolved (session.declare name line session.scope)
    | .record line name =>
      settle lastResolved (session.recordDeclaration name line session.scope)
    | .use line name =>
      let (code, session) := session.use name line
      proceed code session
    | .expect code => proceed lastResolved (session.setExpectedType code)
    | .check (.code actual) expected line =>
      proceed lastResolved (session.checkType actual expected line)
    | .check .lastResolved expected line =>
      proceed lastResolved (session.checkType lastResolved expected line)
    | .index value line => proceed lastResolved (session.checkIndex value line)
    | .enterScope => proceed lastResolved session.enterScope
    | .exitScope => settle lastResolved session.exitScope
    | .enterFunction => proceed lastResolved session.enterFunction

/-- Reads a line and applies its event. -/
def step (replay : Replay) (line : List Char) : Except Fault Unit × Replay :=
  match Event.read line with
  | .error error => (.error (.unreadable error), replay)
  | .ok event =>
    let (answer, replay) := replay.apply event
    (answer.mapError .violated, replay)

/-- Whether a trimmed line is passed over: it is empty or a comment. -/
def isPassedOver (line : List Char) : Bool := line.isEmpty || line.head? == some '#'

/-- Replays lines, the first of which has the given number, and answers how many events were
applied, counted on from those before. -/
def runLines (number events : Nat) (replay : Replay) :
    List (List Char) → Except TraceError Nat × Replay
  | [] => (.ok events, replay)
  | line :: lines =>
    let text := Text.trim line
    if isPassedOver text then runLines (number + 1) events replay lines
    else
      match replay.step text with
      | (.error fault, replay) => (.error { line := number, fault }, replay)
      | (.ok (), replay) => runLines (number + 1) (events + 1) replay lines

/-- Replays a text and answers how many events it has. -/
def run (replay : Replay) (trace : String) : Except TraceError Nat × Replay :=
  runLines 1 0 replay (Text.Lines.ofText trace.toList)

end Replay

end SemanticPass
