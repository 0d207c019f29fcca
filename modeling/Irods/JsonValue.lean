import Irods.CText

/-! A JSON value after parsing and the accessors of nlohmann::json a request handler uses,
with the exceptions they throw. The members of an object have been told apart by the parser. -/
namespace Irods.JsonValue
open CText

inductive Json where
  | null
  | boolean (value : Bool)
  | number (value : Int)
  | string (value : Text)
  | array (values : List Json)
  | object (members : List (Text × Json))

structure ErrorCode where
  value : Int
  nonzero : value ≠ 0
  deriving DecidableEq, Repr

/- The exceptions of this project's code and of the libraries it calls, by type. -/
inductive Exn where
  | irods (code : ErrorCode)
  | databaseError
  | jsonParseError
  | jsonTypeError
  | jsonOutOfRange
  | filesystemError (code : ErrorCode)
  | systemError (code : ErrorCode)
  | runtimeError
  deriving DecidableEq, Repr

def Exn.isJson : Exn → Bool
  | .jsonParseError | .jsonTypeError | .jsonOutOfRange => true
  | _ => false

def find (j : Json) (key : Text) : Option Json :=
  match j with
  | .object members => members.lookup key
  | _ => none

def getBool : Json → Except Exn Bool
  | .boolean value => .ok value
  | _ => .error .jsonTypeError

def size : Json → Nat
  | .null => 0
  | .array values => values.length
  | .object members => members.length
  | _ => 1

end Irods.JsonValue
