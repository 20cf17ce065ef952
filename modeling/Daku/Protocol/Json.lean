import Mathlib.Algebra.Group.Nat.Defs
import Mathlib.Data.Rat.Defs

/-!
# JSON values

The part of `serde_json::Value` that payload readers look at. Parsing text is the library's
own business: readers take the parser as an argument and see only its result.
-/

namespace Daku.Protocol

/-- A JSON number as `serde_json` keeps it: an integer where it fits, else a float. -/
inductive Number where
  | posInt (n : Nat)
  | negInt (n : Int)
  | float (q : Rat)
  deriving DecidableEq, Repr

/-- A parsed JSON document; object keys keep the order of the map. -/
inductive Value where
  | null
  | bool (b : Bool)
  | number (n : Number)
  | string (s : String)
  | array (items : List Value)
  | object (fields : List (String × Value))
  deriving Repr

/-- `serde_json::from_str::<Value>`, with a parse error as `none`. -/
abbrev FromStr := String → Option Value

namespace Value

/-- `Value::get` with a string key: only an object has fields. -/
def get (v : Value) (key : String) : Option Value :=
  match v with
  | object fields => fields.lookup key
  | _ => none

/-- `Value::as_str`. -/
def asStr : Value → Option String
  | string s => some s
  | _ => none

/-- `Value::as_u64`. -/
def asU64 : Value → Option Nat
  | number (.posInt n) => some n
  | _ => none

/-- `Value::as_i64`. -/
def asI64 : Value → Option Int
  | number (.posInt n) => if n < 2 ^ 63 then some n else none
  | number (.negInt n) => some n
  | _ => none

/-- `Value::as_f64`, up to rounding. -/
def asF64 : Value → Option Rat
  | number (.posInt n) => some n
  | number (.negInt n) => some n
  | number (.float q) => some q
  | _ => none

/-- `Value::as_array`. -/
def asArray : Value → Option (List Value)
  | array items => some items
  | _ => none

/-- `Value::as_bool`. -/
def asBool : Value → Option Bool
  | bool b => some b
  | _ => none

end Value

/-- An optional text in JSON. -/
def optionalText (text : Option String) : Value := (text.map Value.string).getD .null

/-- An `i64` in JSON. -/
def intValue (n : Int) : Value :=
  .number (if 0 ≤ n then .posInt n.toNat else .negInt n)

end Daku.Protocol
