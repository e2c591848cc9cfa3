import Mathlib.Data.List.Basic

/-!
# JSON values

Values as `serde_json` holds them: a number is an unsigned 64-bit integer, a
negative one or a float, and an object has its fields by name. A field is read
with the type it should have, and there is none of another type.
-/

inductive Json where
  | null
  | bool (value : Bool)
  | posInt (value : UInt64)
  | negInt (value : Int64)
  | float (bits : UInt64)
  | string (text : List Char)
  | array (elements : List Json)
  | object (fields : List (List Char × Json))

namespace Json

def get (value : Json) (key : List Char) : Option Json :=
  match value with
  | .object fields => fields.lookup key
  | _ => none

def asU64 : Json → Option UInt64
  | .posInt value => some value
  | _ => none

def asBool : Json → Option Bool
  | .bool value => some value
  | _ => none

def asStr : Json → Option (List Char)
  | .string text => some text
  | _ => none

/-- A field that is an unsigned integer. -/
def u64Field (value : Json) (key : List Char) : Option UInt64 := (value.get key).bind asU64

def boolField (value : Json) (key : List Char) : Option Bool := (value.get key).bind asBool

@[simp] theorem u64Field_object (fields : List (List Char × Json)) (key : List Char) :
    (object fields).u64Field key = (fields.lookup key).bind asU64 := rfl

@[simp] theorem boolField_object (fields : List (List Char × Json)) (key : List Char) :
    (object fields).boolField key = (fields.lookup key).bind asBool := rfl

end Json
