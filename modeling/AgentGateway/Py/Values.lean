import AgentGateway.Py.Dict
import AgentGateway.Py.Json
import AgentGateway.Py.Regex

/-!
# Truth values and `str()` of JSON values

What the idiom `str(d.get(key) or "")` makes of an entry of a dictionary.  `str()` of a string is
the string itself, of an integer or a truth value its usual text; of a float or a container it is
a text of the interpreter's, which is left open in `Interp`.
-/

namespace Py

/-- What the interpreter computes and a program only passes on. -/
structure Interp (F : Type) where
  tables : CharTables
  /-- `x == 0.0` -/
  isZero : F → Bool
  /-- `str(value)` of a float or a container -/
  str : Json F → Str
  /-- `json.dumps(value, default=str)` -/
  dumps : Json F → Str

variable {F : Type}

namespace Json

/-- `bool(value)` -/
def truthy (I : Interp F) : Json F → Bool
  | null => false
  | bool b => b
  | int n => n != 0
  | float x => !I.isZero x
  | str s => !s.isEmpty
  | list xs => !xs.isEmpty
  | dict kvs => !kvs.isEmpty
  | foreign => true

/-- `str(value)` -/
def toStr (I : Interp F) : Json F → Str
  | null => Str.lit "None"
  | bool true => Str.lit "True"
  | bool false => Str.lit "False"
  | int n => Str.lit (toString n)
  | str s => s
  | v => I.str v

end Json

/-- `str(d.get(key) or default)` -/
def strOr (I : Interp F) (d : Dict Str (Json F)) (key default : Str) : Str :=
  match d.lookup key with
  | some v => if v.truthy I then v.toStr I else default
  | none => default

end Py
