import Mathlib.Data.Int.Cast.Defs

/-!
# JSON values

`serde_json::Value`, over a type of numbers. The entries of an object stand in the
order of their keys, each key once, as in the map that `serde_json` keeps; a look-up
does not depend on it.
-/

namespace OpenLv.Text

/-- A JSON value. -/
inductive Json (N : Type) where
  | null
  | bool (value : Bool)
  | number (value : N)
  | string (value : String)
  | array (values : List (Json N))
  | object (entries : List (String × Json N))

namespace Json

variable {N : Type}

mutual

/-- Equality of values. -/
def decEq [DecidableEq N] : (a b : Json N) → Decidable (a = b)
  | .null, .null => .isTrue rfl
  | .bool a, .bool b => decidable_of_iff (a = b) (by simp)
  | .number a, .number b => decidable_of_iff (a = b) (by simp)
  | .string a, .string b => decidable_of_iff (a = b) (by simp)
  | .array as, .array bs =>
      match decEqList as bs with
      | .isTrue h => .isTrue (congrArg _ h)
      | .isFalse h => .isFalse fun heq => h (Json.array.inj heq)
  | .object as, .object bs =>
      match decEqEntries as bs with
      | .isTrue h => .isTrue (congrArg _ h)
      | .isFalse h => .isFalse fun heq => h (Json.object.inj heq)
  | .null, .bool _ | .null, .number _ | .null, .string _ | .null, .array _ | .null, .object _
  | .bool _, .null | .bool _, .number _ | .bool _, .string _ | .bool _, .array _
  | .bool _, .object _ | .number _, .null | .number _, .bool _ | .number _, .string _
  | .number _, .array _ | .number _, .object _ | .string _, .null | .string _, .bool _
  | .string _, .number _ | .string _, .array _ | .string _, .object _ | .array _, .null
  | .array _, .bool _ | .array _, .number _ | .array _, .string _ | .array _, .object _
  | .object _, .null | .object _, .bool _ | .object _, .number _ | .object _, .string _
  | .object _, .array _ => .isFalse nofun

/-- Equality of the values of an array. -/
def decEqList [DecidableEq N] : (as bs : List (Json N)) → Decidable (as = bs)
  | [], [] => .isTrue rfl
  | a :: as, b :: bs =>
      match decEq a b, decEqList as bs with
      | .isTrue ha, .isTrue has => .isTrue (ha ▸ has ▸ rfl)
      | .isFalse ha, _ => .isFalse fun h => ha (List.cons.inj h).1
      | _, .isFalse has => .isFalse fun h => has (List.cons.inj h).2
  | [], _ :: _ | _ :: _, [] => .isFalse nofun

/-- Equality of the entries of an object. -/
def decEqEntries [DecidableEq N] : (as bs : List (String × Json N)) → Decidable (as = bs)
  | [], [] => .isTrue rfl
  | (k, a) :: as, (l, b) :: bs =>
      match decEq a b, decEqEntries as bs with
      | .isTrue ha, .isTrue has =>
          decidable_of_iff (k = l) (by simp [ha, has])
      | .isFalse ha, _ => .isFalse fun h => ha (Prod.mk.inj (List.cons.inj h).1).2
      | _, .isFalse has => .isFalse fun h => has (List.cons.inj h).2
  | [], _ :: _ | _ :: _, [] => .isFalse nofun

end

instance [DecidableEq N] : DecidableEq (Json N) := decEq

/-- `Value::get` for a key. -/
def get (key : String) : Json N → Option (Json N)
  | .object entries => entries.lookup key
  | _ => none

/-- `value[key]`: what is missing is `null`. -/
def index (value : Json N) (key : String) : Json N := (value.get key).getD .null

/-- `Value::as_str`. -/
def asStr : Json N → Option String
  | .string value => some value
  | _ => none

end Json

end OpenLv.Text
