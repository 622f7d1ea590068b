import PubSub.Delivery
import PubSub.Error
import PubSub.Json.Decode
import PubSub.Json.Reader

/-! # Documents in deliveries

The text of a document in a delivery is read when the application asks for it,
as any document or as one of a given kind.
-/

namespace PubSub

/-- The kinds of documents that an application can ask for. -/
inductive DocumentKind where
  | any
  /-- A whole number below 256. -/
  | byte
  | text
  | bool
  /-- A whole number of 64 bits with a sign, or null. -/
  | optionalInt
  /-- A list of whole numbers of 64 bits with a sign. -/
  | ints
  deriving DecidableEq, Repr, Inhabited

namespace DocumentKind

def isInt : Json → Bool
  | .int n => -(Nat.pow 2 63 : Int) ≤ n && n < (Nat.pow 2 63 : Int)
  | _ => false

def accepts : DocumentKind → Json → Bool
  | any, _ => true
  | byte, j => (Json.asNat 256 j).isSome
  | text, j => (Json.asText j).isSome
  | bool, j => (Json.asBool j).isSome
  | optionalInt, .null => true
  | optionalInt, j => isInt j
  | ints, .list items => items.all isInt
  | ints, _ => false

/-- Reads a document of the kind. -/
def read (kind : DocumentKind) (document : String) : Except ClientError Json :=
  match Json.read? document with
  | none => .error (.argument "invalid JSON payload: not a document")
  | some j =>
    if kind.accepts j then .ok j
    else .error (.argument "invalid JSON payload: a document of another kind")

end DocumentKind

end PubSub
