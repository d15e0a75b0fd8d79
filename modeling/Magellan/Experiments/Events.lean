import Mathlib.Data.List.Basic
import Mathlib.Data.List.DropRight
import Mathlib.Tactic.Common
import Magellan.Config.Models

/-!
# The experiment event journal

A file of JSON lines to which a daemon only appends. The sequence numbers are counted in memory, and
the count is recovered from the file when the journal is opened.
-/

namespace Magellan.Experiments

open Planning (valueError validationError)

/-- One observation emitted by a daemon. -/
structure ExperimentEvent (Payload : Type) where
  sequence : Nat
  eventId : String
  nodeId : NodeId
  eventType : String
  observedAtUtc : Timestamp
  traceTimeUtc : Option Timestamp := none
  taskId : Option TaskId := none
  generation : Option Int := none
  payload : Payload
  deriving DecidableEq

/-- The arguments of an append, with the id that is drawn for it and the time. -/
structure Observation (Payload : Type) where
  eventId : String
  eventType : String
  observedAtUtc : Timestamp
  traceTimeUtc : Option Timestamp := none
  taskId : Option TaskId := none
  generation : Option Int := none
  payload : Payload
  deriving DecidableEq

/-- How events are written as JSON and read again. -/
structure Format (Payload : Type) where
  /-- `json.dumps(event.model_dump(mode="json"), ..)`. -/
  dumps : ExperimentEvent Payload → Except Exn (List Char)
  /-- `ExperimentEvent.model_validate_json`. -/
  modelValidateJson : List Char → Except Exn (ExperimentEvent Payload)
  /-- The JSON form of a payload. -/
  jsonPayload : Payload → Payload

/-- The whitespace of `str.strip` in a file of ASCII characters. -/
def isSpace (c : Char) : Bool := c.toNat = 32 ∨ (9 ≤ c.toNat ∧ c.toNat ≤ 13) ∨
  (28 ≤ c.toNat ∧ c.toNat ≤ 31)

def strip (line : List Char) : List Char :=
  ((line.dropWhile isSpace).reverse.dropWhile isSpace).reverse

def lines (file : List Char) : List (List Char) := (file.splitOn '\n').map strip

variable {Payload : Type}

/-- An event with the fields that the model checks. -/
def ExperimentEvent.checked (event : ExperimentEvent Payload) :
    Except Exn (ExperimentEvent Payload) :=
  if event.sequence < 1 then .error (validationError "ExperimentEvent" "sequence")
  else if event.nodeId = "" then .error (validationError "ExperimentEvent" "node_id")
  else if event.eventId = "" then .error (validationError "ExperimentEvent" "event_id")
  else if event.eventType = "" then .error (validationError "ExperimentEvent" "event_type")
  else if event.generation.any (· < 0) then
    .error (validationError "ExperimentEvent" "generation")
  else .ok event

/-- What a journal is constructed with. -/
structure JournalConfig (Payload : Type) where
  format : Format Payload
  nodeId : NodeId

/-- An opened journal has counted the events; `none` while the daemon is down. The appends that
returned are a history variable. -/
structure ExperimentEventJournal (Payload : Type) where
  file : List Char := []
  lastSequence : Option Nat := none
  returned : List (ExperimentEvent Payload) := []

section

variable (config : JournalConfig Payload)

/-- The loop of `_scan_last_sequence`. -/
def scanLines : Nat → Nat → List (List Char) → Except Exn Nat
  | _, last, [] => .ok last
  | lineNumber, last, [] :: rest => scanLines (lineNumber + 1) last rest
  | lineNumber, last, line :: rest =>
      match config.format.modelValidateJson line with
      | .error e => .error (runtimeError
          s!"Invalid experiment event journal line {lineNumber}: {e.message}")
      | .ok event => scanLines (lineNumber + 1) (max last event.sequence) rest

def scanLastSequence (file : List Char) : Except Exn Nat := scanLines config 1 0 (lines file)

/-- The event that an append writes, and its line. -/
def appendLine (lastSequence : Nat) (o : Observation Payload) :
    Except Exn (ExperimentEvent Payload × List Char) := do
  let event ← ExperimentEvent.checked {
    sequence := lastSequence + 1
    eventId := o.eventId
    nodeId := config.nodeId
    eventType := o.eventType
    observedAtUtc := o.observedAtUtc
    traceTimeUtc := o.traceTimeUtc
    taskId := o.taskId
    generation := o.generation
    payload := o.payload }
  let encoded ← config.format.dumps event
  pure (event, encoded ++ ['\n'])

/-- The tests of the loop of `list_events`. -/
def isListed (afterSequence : Int) (taskId : Option TaskId) (eventType : Option String)
    (event : ExperimentEvent Payload) : Bool :=
  afterSequence < event.sequence ∧ (taskId = none ∨ event.taskId = taskId) ∧
    (eventType = none ∨ some event.eventType = eventType)

/-- The loop of `list_events`; it stops when it has `wanted + 1` more events. -/
def listLines (isListed : ExperimentEvent Payload → Bool) :
    Nat → List (List Char) → Except Exn (List (ExperimentEvent Payload))
  | _, [] => .ok []
  | wanted, [] :: rest => listLines isListed wanted rest
  | wanted, line :: rest =>
      match config.format.modelValidateJson line with
      | .error e => .error e
      | .ok event =>
          if isListed event then
            match wanted with
            | 0 => .ok [event]
            | wanted + 1 => (listLines isListed wanted rest).map (event :: ·)
          else listLines isListed wanted rest

def listEvents (file : List Char) (afterSequence : Int) (taskId : Option TaskId)
    (eventType : Option String) (limit : Int) : Except Exn (List (ExperimentEvent Payload)) :=
  if afterSequence < 0 then .error (valueError "after_sequence must be non-negative")
  else if limit < 1 then .error (valueError "limit must be positive")
  else listLines config (isListed afterSequence taskId eventType) (limit.toNat - 1) (lines file)

/-! ## Histories -/

/-- How far an append gets: `written` characters of its line reach the disk when the write raises or
the daemon dies in it. -/
inductive Outcome where
  | returns
  | raises (written : Nat)
  | dies (written : Nat)

def Outcome.reached (line : List Char) : Outcome → List Char
  | .returns => line
  | .raises written | .dies written => line.take written

inductive Step (Payload : Type) where
  | append (o : Observation Payload) (outcome : Outcome)
  /-- The daemon stops between two appends. -/
  | stop
  /-- The daemon starts and opens the journal. -/
  | reopen

namespace ExperimentEventJournal

def write (j : ExperimentEventJournal Payload) (event : ExperimentEvent Payload)
    (line : List Char) (outcome : Outcome) : ExperimentEventJournal Payload :=
  let j := { j with file := j.file ++ outcome.reached line }
  match outcome with
  | .returns => { j with lastSequence := some event.sequence, returned := j.returned ++ [event] }
  | .raises _ => j
  | .dies _ => { j with lastSequence := none }

def step (j : ExperimentEventJournal Payload) :
    Step Payload → Option (ExperimentEventJournal Payload)
  | .append o outcome =>
      match j.lastSequence with
      | none => none
      | some last =>
          match appendLine config last o with
          | .error _ => some j
          | .ok (event, line) => some (j.write event line outcome)
  | .stop => some { j with lastSequence := none }
  | .reopen =>
      match scanLastSequence config j.file with
      | .error _ => some { j with lastSequence := none }
      | .ok last => some { j with lastSequence := some last }

/-- `P` holds of every state of the history. -/
def Along (P : ExperimentEventJournal Payload → Prop) (j : ExperimentEventJournal Payload) :
    List (Step Payload) → Prop
  | [] => P j
  | x :: history => P j ∧ ∀ j', j.step config x = some j' → Along P j' history

/-- Every step of the history is taken in a state with `C`. -/
def Throughout (C : Step Payload → ExperimentEventJournal Payload → Prop)
    (j : ExperimentEventJournal Payload) : List (Step Payload) → Prop
  | [] => True
  | x :: history => C x j ∧ ∀ j', j.step config x = some j' → Throughout C j' history

end ExperimentEventJournal

/-- Pages of `limit` events, each after the last sequence number seen, until one is empty. -/
def pages (file : List Char) (limit : Int) :
    Nat → Int → Except Exn (List (ExperimentEvent Payload))
  | 0, _ => .ok []
  | fuel + 1, afterSequence => do
      let page ← listEvents config file afterSequence none none limit
      match page.getLast? with
      | none => pure []
      | some last => return page ++ (← pages file limit fuel last.sequence)

end

end Magellan.Experiments
