import Magellan.Data.Json
import Mathlib.Data.Rat.Cast.Order

/-!
# JSON values as a program sees them

What `json.loads` returns, and what the program asks of such a value before it knows its type.
-/

namespace Magellan

/-- A float with its exact value, if it is finite. -/
inductive PyFloat where
  | finite (q : Rat)
  | inf
  | negInf
  | nan
  deriving DecidableEq

/-- `a < b`. -/
def PyFloat.lt : PyFloat → PyFloat → Bool
  | .finite a, .finite b => a < b
  | .negInf, .finite _ | .negInf, .inf | .finite _, .inf => true
  | _, _ => false

inductive PyNumber where
  | int (z : Int)
  | float (value : PyFloat)

abbrev PyJson := Json PyNumber

namespace PyJson

/-- The value, where it is an instance of `int`; a bool is one. -/
def int? : PyJson → Option Int
  | .bool b => some (if b then 1 else 0)
  | .number (.int z) => some z
  | _ => none

def string? : PyJson → Option String
  | .string s => some s
  | _ => none

def ofOption {α : Type} (f : α → PyJson) : Option α → PyJson
  | none => .null
  | some a => f a

/-- `value == n`. -/
def equalsInt (n : Int) : PyJson → Bool
  | .number (.float value) => value = .finite n
  | j => j.int? = some n

/-- `bool(value)`. -/
def truthy : PyJson → Bool
  | .null => false
  | .bool b => b
  | .number (.int z) => z ≠ 0
  | .number (.float value) => value ≠ .finite 0
  | .string s => s ≠ ""
  | .array items => !items.isEmpty
  | .object entries => !entries.isEmpty

def isNull : PyJson → Bool
  | .null => true
  | _ => false

def hashable : PyJson → Bool
  | .array _ | .object _ => false
  | _ => true

/-- What a loop over the value goes through, if it can be iterated over. -/
def iterate : PyJson → Option (List PyJson)
  | .array items => some items
  | .string s => some (s.toList.map fun c => .string (String.singleton c))
  | .object entries => some (entries.map fun e => .string e.1)
  | _ => none

def typeName : PyJson → String
  | .null => "NoneType"
  | .bool _ => "bool"
  | .number (.int _) => "int"
  | .number (.float _) => "float"
  | .string _ => "str"
  | .array _ => "list"
  | .object _ => "dict"

/-- The value under a key of an object; of equal keys the last counts. -/
def get? (entries : List (String × PyJson)) (key : String) : Option PyJson :=
  (entries.reverse.find? (·.1 = key)).map Prod.snd

/-- `value.get(key)`. -/
def get (entries : List (String × PyJson)) (key : String) : PyJson :=
  (get? entries key).getD .null

/-- The items that are objects. -/
def objects (items : List PyJson) : List (List (String × PyJson)) :=
  items.filterMap fun
    | .object entries => some entries
    | _ => none

theorem mem_objects {items : List PyJson} {entries : List (String × PyJson)} :
    entries ∈ objects items ↔ .object entries ∈ items := by
  simp only [objects, List.mem_filterMap]
  constructor
  · rintro ⟨j, mem, same⟩
    cases j <;> cases same
    exact mem
  · exact fun mem => ⟨_, mem, rfl⟩

end PyJson

end Magellan
