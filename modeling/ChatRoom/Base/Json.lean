import ChatRoom.Base.Bytes
import Mathlib.Data.Rat.Defs

/-!
# JSON values

`Json::Value` of jsoncpp as the source uses it: `operator[]`, `isNull` and the
conversions, which throw on a value of the wrong kind.  `none` is a thrown
`Json::Exception`.
-/

namespace ChatRoom

/-- A `Json::Value`.  The members of an object stand in the order of its map,
that is by key. -/
inductive Json where
  | null
  | bool (value : Bool)
  | int (value : Int)
  | real (value : Rat)
  | string (text : Str)
  | array (elements : List Json)
  | object (members : List (Str × Json))

/-- The library functions of jsoncpp: `Json::Reader::parse`, the stream writer
without indentation, `Json::FastWriter`, and the text of a floating-point
number. -/
structure JsonCpp where
  parse : Str → Option Json
  writeString : Json → Str
  fastWrite : Json → Str
  realText : Rat → Str

namespace Json

def isNull : Json → Bool
  | null => true
  | _ => false

def isObject : Json → Bool
  | object _ => true
  | _ => false

/-- `operator[](const char *)`: a missing member reads as null, and a null
value as an empty object. -/
def get (json : Json) (name : Str) : Option Json :=
  match json with
  | null => some null
  | object members => some ((members.lookup name).getD null)
  | _ => none

/-- `asString`. -/
def asString (cpp : JsonCpp) : Json → Option Str
  | null => some []
  | bool value => some (if value then ascii "true" else ascii "false")
  | int value =>
      some (if value < 0 then ascii "-" ++ decimal value.natAbs
        else decimal value.natAbs)
  | real value => some (cpp.realText value)
  | string text => some text
  | array _ => none
  | object _ => none

/-- `asUInt64`: a floating-point number is truncated. -/
def asUInt64 : Json → Option Nat
  | null => some 0
  | bool value => some (if value then 1 else 0)
  | int value =>
      if 0 ≤ value ∧ value < 2 ^ 64 then some value.toNat else none
  | real value =>
      if 0 ≤ value ∧ value ≤ 2 ^ 64 then some value.floor.toNat else none
  | string _ => none
  | array _ => none
  | object _ => none

/-- `asInt`: a floating-point number is truncated towards zero. -/
def asInt : Json → Option Int
  | null => some 0
  | bool value => some (if value then 1 else 0)
  | int value => if -2 ^ 31 ≤ value ∧ value < 2 ^ 31 then some value else none
  | real value =>
      if -2 ^ 31 ≤ value ∧ value ≤ 2 ^ 31 - 1 then
        some (if value < 0 then value.ceil else value.floor)
      else none
  | string _ => none
  | array _ => none
  | object _ => none

/-- `isMember`, for an object or null. -/
def isMember (json : Json) (name : Str) : Option Bool :=
  match json with
  | null => some false
  | object members => some (members.lookup name).isSome
  | _ => none

/-- What a loop over a value visits. -/
def elements : Json → List Json
  | array elements => elements
  | object members => members.map fun member => member.2
  | _ => []

@[simp] theorem asString_string (cpp : JsonCpp) (text : Str) :
    (string text).asString cpp = some text := rfl

theorem asUInt64_int_ofNat {value : Nat} (small : value < 2 ^ 64) :
    (int value).asUInt64 = some value := by
  have bound : (value : Int) < 2 ^ 64 := by exact_mod_cast small
  rw [asUInt64, if_pos ⟨Int.natCast_nonneg value, bound⟩, Int.toNat_natCast]

end Json

end ChatRoom
