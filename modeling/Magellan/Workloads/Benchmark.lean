import Mathlib.Data.Rat.Floor
import Magellan.Coroutine.Basic
import Magellan.Data.PyJson

/-!
# The benchmark workload

A process that counts through its iterations, sums up what its kernel returns, and writes a checkpoint
after each of them.
-/

namespace Magellan.Benchmark

open Coroutine Coro

inductive Error where
  | valueError (message : String)
  | typeError (message : String)
  | attributeError (message : String)
  | overflowError (message : String)
  | jsonDecodeError (message : String)
  | unicodeDecodeError (message : String)
  | osError (message : String)

/-- Floats and JSON texts. Nothing is asked of the arithmetic; an object of numbers and strings is
read back from its text as it was, in the order of its keys. -/
structure Language (Text : Type) where
  add : PyFloat → PyFloat → PyFloat
  sub : PyFloat → PyFloat → PyFloat
  intOfString : String → Except Error Int
  floatOfInt : Int → Except Error PyFloat
  floatOfString : String → Except Error PyFloat
  /-- `json.dumps(payload, indent=2, sort_keys=True) + "\n"`. -/
  dumps : PyJson → Text
  loads : Text → Except Error PyJson
  loads_dumps : ∀ entries : List (String × PyJson), (entries.map Prod.fst).Nodup →
    (∀ e ∈ entries, (∃ n, e.2 = .number n) ∨ ∃ s, e.2 = .string s) →
      ∃ sorted, sorted.Perm entries ∧ loads (dumps (.object entries)) = .ok (.object sorted)

section

variable {Text : Type} (py : Language Text)

/-- `int(value)`. -/
def Language.int : PyJson → Except Error Int
  | .bool b => .ok (if b then 1 else 0)
  | .number (.int z) => .ok z
  | .number (.float (.finite q)) => .ok (if 0 ≤ q then ⌊q⌋ else ⌈q⌉)
  | .number (.float .nan) => .error (.valueError "cannot convert float NaN to integer")
  | .number (.float _) => .error (.overflowError "cannot convert float infinity to integer")
  | .string s => py.intOfString s
  | j => .error (.typeError
      s!"int() argument must be a string, a bytes-like object or a real number, not '{j.typeName}'")

/-- `float(value)`. -/
def Language.float : PyJson → Except Error PyFloat
  | .bool b => py.floatOfInt (if b then 1 else 0)
  | .number (.int z) => py.floatOfInt z
  | .number (.float x) => .ok x
  | .string s => py.floatOfString s
  | j => .error (.typeError
      s!"float() argument must be a string or a real number, not '{j.typeName}'")

/-- What `load_state` makes of the text of a checkpoint. -/
def Language.readState (text : Text) : Except Error (Int × PyFloat) := do
  match ← py.loads text with
  | .object payload =>
      let completed ← py.int ((PyJson.get? payload "completed_iterations").getD (.number (.int 0)))
      let checksum ← py.float ((PyJson.get? payload "checksum").getD (.number (.float (.finite 0))))
      return (completed, checksum)
  | payload => throw (.attributeError s!"'{payload.typeName}' object has no attribute 'get'")

end

/-! ## The process and its files -/

def temporary (path : String) : String := path ++ ".tmp"

/-- The arguments of the command. -/
structure Options where
  benchmark : String
  size : String := "medium"
  iterations : Int := 500
  seed : Int := 1
  checkpointFile : String
  progressFile : Option String := none
  completionFile : Option String := none
  outputDir : Option String := none

namespace Options

variable (a : Options)

/-- An empty argument stands for none. -/
def progress : Option String := a.progressFile.filter (· ≠ "")

def completion : Option String := a.completionFile.filter (· ≠ "")

def output : Option String := a.outputDir.filter (· ≠ "")

def resultFile (output : String) : String := output ++ "/result.json"

/-- What a run writes besides the checkpoint. -/
def reports : List String :=
  a.progress.toList ++ (a.completion.toList ++ (a.output.map resultFile).toList)

def paths : List String := a.checkpointFile :: a.reports

end Options

/-- Whoever starts the workload gives it a file of its own for each purpose. -/
structure Arguments extends Options where
  apart : (toOptions.paths ++ toOptions.paths.map temporary).Nodup

/-- What the process finds in its environment. -/
structure Environment where
  taskId : String := "unknown"
  nodeId : String := "unknown"

/-- What `main` has computed when it returns, and whether it has come to its last part; the source
returns nothing. -/
structure Outcome where
  completed : Int
  checksum : PyFloat
  finished : Bool
  deriving DecidableEq

inductive Op (Text : Type) where
  | print (line : String)
  | stopRequested
  | now
  | monotonic
  | isFile (path : String)
  | readText (path : String)
  /-- `path.parent.mkdir(parents=True, exist_ok=True)`. -/
  | makeParent (path : String)
  | makeDirectory (path : String)
  | writeText (path : String) (text : Text)
  | replace (source target : String)
  | exit (outcome : Outcome)

@[reducible] def Op.Ret {Text : Type} : Op Text → Type
  | .stopRequested | .isFile _ => Bool
  | .now => String
  | .monotonic => PyFloat
  | .readText _ => Text
  | _ => Unit

/-- The files, the flag that the signal handler sets, and how the processes so far have ended. -/
structure Machine (Text : Type) where
  files : String → Option Text := fun _ => none
  stopRequested : Bool := false
  exits : List Outcome := []

/-- How an operation goes: whether it raises, what a write that raises leaves, and the clocks. -/
structure Choice (Text : Type) where
  fault : Option Error := none
  left : Option Text := none
  isoformat : String := ""
  monotonic : PyFloat := .finite 0

section

variable {Text : Type}

def Machine.write (m : Machine Text) (path : String) (text : Text) : Machine Text :=
  { m with files := Function.update m.files path (some text) }

def Choice.orRaise {α : Type} (c : Choice Text) (r : Except Error α) : Except Error α :=
  match c.fault with
  | none => r
  | some e => .error e

def noSuchFile (path : String) : Error :=
  .osError s!"[Errno 2] No such file or directory: '{path}'"

def exec : Semantics (Op Text) Op.Ret Error (Choice Text) (Machine Text)
  | .print _, c, m | .makeParent _, c, m | .makeDirectory _, c, m => some (c.orRaise (.ok ()), m)
  | .stopRequested, _, m => some (.ok m.stopRequested, m)
  | .now, c, m => some (.ok c.isoformat, m)
  | .monotonic, c, m => some (.ok c.monotonic, m)
  | .isFile path, c, m => some (c.orRaise (.ok (m.files path).isSome), m)
  | .readText path, c, m =>
      some (c.orRaise ((m.files path).elim (.error (noSuchFile path)) .ok), m)
  | .writeText path text, c, m =>
      match c.fault with
      | none => some (.ok (), m.write path text)
      | some e => some (.error e, c.left.elim m (m.write path))
  | .replace source target, c, m =>
      match c.fault, m.files source with
      | some e, _ => some (.error e, m)
      | none, none => some (.error (noSuchFile source), m)
      | none, some text =>
          some (.ok (), { m with files := Function.update m.files source none }.write target text)
  | .exit outcome, _, m => some (.ok (), { m with exits := outcome :: m.exits })

abbrev Program (Text α : Type) := Coro (Op Text) Op.Ret Error α

abbrev step (o : Op Text) : Program Text o.Ret := op o

end

/-! ## The program -/

section

variable {Text : Type} (py : Language Text)
  -- `KERNELS[benchmark](size, seed, iteration)`
  (kernels : String → String → Int → Int → PyFloat) (a : Options) (env : Environment)

def atomicJsonWrite (path : String) (payload : List (String × PyJson)) : Program Text Unit := do
  step (.makeParent path)
  step (.writeText (temporary path) (py.dumps (.object payload)))
  step (.replace (temporary path) path)

def loadState (path : String) : Program Text (Int × PyFloat) := do
  let present ← step (.isFile path)
  if present = false then pure (0, .finite 0)
  else do
    let text ← step (.readText path)
    .done (py.readState text)

def statePayload (completed : Int) (checksum : PyFloat) (updatedAt : String) :
    List (String × PyJson) :=
  [("format_version", .number (.int 1)), ("benchmark", .string a.benchmark),
    ("size", .string a.size), ("seed", .number (.int a.seed)),
    ("completed_iterations", .number (.int completed)),
    ("total_iterations", .number (.int a.iterations)), ("checksum", .number (.float checksum)),
    ("updated_at_utc", .string updatedAt), ("node_id", .string env.nodeId)]

def writeProgress (completed : Int) : Program Text Unit :=
  match a.progress with
  | none => pure ()
  | some path => do
      let updatedAt ← step .now
      atomicJsonWrite py path
        [("format_version", .number (.int 1)), ("task_id", .string env.taskId),
          ("completed_units", .number (.int completed)),
          ("total_units", .number (.int a.iterations)), ("updated_at_utc", .string updatedAt),
          ("node_id", .string env.nodeId),
          ("details", .object [("unit", .string "benchmark-iteration"),
            ("benchmark", .string a.benchmark), ("size", .string a.size)])]

def saveState (completed : Int) (checksum : PyFloat) : Program Text Unit := do
  let updatedAt ← step .now
  atomicJsonWrite py a.checkpointFile (statePayload a env completed checksum updatedAt)

/-- The line that the loop prints now and then. -/
def printCompleted (completed : Int) : Program Text Unit :=
  if completed = 1 ∨ completed % 25 = 0 then
    step (.print s!"[benchmark] completed={completed}/{a.iterations} type={a.benchmark} size={a.size}")
  else pure ()

/-- The loop of `main`. Every turn takes one of the iterations that are left. -/
def loop : Nat → Int → PyFloat → Program Text (Int × PyFloat)
  | 0, completed, checksum => pure (completed, checksum)
  | left + 1, completed, checksum =>
      if completed < a.iterations then do
        let stop ← step .stopRequested
        if stop = true then pure (completed, checksum)
        else do
          let checksum := py.add checksum (kernels a.benchmark a.size a.seed completed)
          let completed := completed + 1
          saveState py a env completed checksum
          writeProgress py a env completed
          printCompleted a completed
          loop left completed checksum
      else pure (completed, checksum)

def resultPayload (completed : Int) (checksum elapsed : PyFloat) (completedAt : String) :
    List (String × PyJson) :=
  [("task_id", .string env.taskId), ("benchmark", .string a.benchmark), ("size", .string a.size),
    ("seed", .number (.int a.seed)), ("iterations", .number (.int completed)),
    ("checksum", .number (.float checksum)),
    ("active_runtime_seconds", .number (.float elapsed)), ("node_id", .string env.nodeId),
    ("completed_at_utc", .string completedAt)]

/-- The last part of `main`. -/
def complete (completed : Int) (checksum elapsed : PyFloat) : Program Text Unit :=
  match a.completion, a.output with
  | some completion, some output => do
      step (.makeDirectory output)
      let completedAt ← step .now
      atomicJsonWrite py (Options.resultFile output)
        (resultPayload a env completed checksum elapsed completedAt)
      atomicJsonWrite py completion
        [("format_version", .number (.int 1)), ("task_id", .string env.taskId),
          ("success", .bool true), ("completed_at_utc", .string completedAt),
          ("details", .object [("benchmark", .string a.benchmark), ("size", .string a.size),
            ("seed", .number (.int a.seed)), ("iterations", .number (.int completed))])]
  | _, _ => pure ()

def main : Program Text Outcome :=
  if a.iterations < 1 then raise (.valueError "--iterations must be positive")
  else if ¬ (a.completionFile.isNone ↔ a.outputDir.isNone) then
    raise (.valueError "--completion-file and --output-dir must be supplied together")
  else do
    let state ← loadState py a.checkpointFile
    if a.iterations < state.1 then
      raise (.valueError "Checkpoint completed_iterations exceeds configured --iterations")
    else do
      step (.print
        s!"[benchmark] type={a.benchmark} size={a.size} resumed={state.1} total={a.iterations} node={env.nodeId}")
      writeProgress py a env state.1
      let started ← step .monotonic
      let state ← loop py kernels a env (a.iterations - state.1).toNat state.1 state.2
      let ended ← step .monotonic
      saveState py a env state.1 state.2
      writeProgress py a env state.1
      let stop ← step .stopRequested
      if stop = false ∧ a.iterations ≤ state.1 then do
        complete py a env state.1 state.2 (py.sub ended started)
        pure ⟨state.1, state.2, true⟩
      else pure ⟨state.1, state.2, false⟩

/-- A process from its start to its end. -/
def process : Program Text Unit := do
  let outcome ← main py kernels a env
  step (.exit outcome)

end

end Magellan.Benchmark
