import PubSub.Json

/-! # Decoding documents

A document is decoded into a value of a given type, or is refused. A structure
is an object, whose unknown members are passed over, or a list of its fields in
their order; a field that is absent takes its default.
-/

namespace PubSub

namespace Json

/-- Decodes a value, or refuses it. -/
abbrev Decoder (α : Type) := Json → Option α

def asText : Decoder String
  | text s => some s
  | _ => none

def asBool : Decoder Bool
  | bool b => some b
  | _ => none

/-- A natural number below a bound. -/
def asNat (bound : Nat) : Decoder Nat
  | int n => if 0 ≤ n && n < bound then some n.toNat else none
  | _ => none

def asDouble : Decoder Double
  | int n => some (Double.ofInt n)
  | double d => some d
  | _ => none

def optional {α : Type} (decode : Decoder α) : Decoder (Option α)
  | null => some none
  | j => (decode j).map some

def listOf {α : Type} (decode : Decoder α) : Decoder (List α)
  | list items => items.mapM decode
  | _ => none

/-- The fields of a structure with the given names that are there. -/
def fields (names : List String) : Decoder (List (String × Json))
  | object members => some members
  | list items => if items.length ≤ names.length then some (names.zip items) else none
  | _ => none

def readField {α : Type} (fields : List (String × Json)) (name : String) (default : α)
    (decode : Decoder α) : Option α :=
  match fields.lookup name with
  | none => some default
  | some j => decode j

end Json

end PubSub
