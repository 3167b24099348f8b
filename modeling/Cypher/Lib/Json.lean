import Mathlib.Data.List.Basic

/-!
# JSON values

Values as `serde_json` and `JSON.parse` hold them, with the accessors the two clients use. Numbers are
natural numbers, strings are lists of characters, and an object is the list of its members.
-/

namespace Cypher.Lib

inductive Json where
  | null
  | bool (b : Bool)
  | num (n : Nat)
  | str (s : List Char)
  | arr (elems : List Json)
  | obj (members : List (String × Json))

namespace Json

/-- A member of an object; other values have none. -/
def get (json : Json) (key : String) : Option Json :=
  match json with
  | obj members => members.lookup key
  | _ => none

def asBool? : Json → Option Bool
  | bool b => some b
  | _ => none

def asStr? : Json → Option (List Char)
  | str s => some s
  | _ => none

def asArray? : Json → Option (List Json)
  | arr elems => some elems
  | _ => none

/-- `as_u64`. -/
def asNat? : Json → Option Nat
  | num n => some n
  | _ => none

def getStr? (json : Json) (key : String) : Option (List Char) :=
  (json.get key).bind asStr?

def getBool? (json : Json) (key : String) : Option Bool :=
  (json.get key).bind asBool?

def text (s : String) : Json :=
  str s.toList

def bytes (data : List UInt8) : Json :=
  arr (data.map fun b => num b.toNat)

def option : Option Json → Json
  | none => null
  | some json => json

end Json

end Cypher.Lib
