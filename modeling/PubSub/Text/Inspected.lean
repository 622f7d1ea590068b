import PubSub.Text.Quoted

/-! # Inspected values

The structural form of a value: its parts with their names. It is written on
one line, or as an indented block with one part a line.
-/

namespace PubSub

inductive Inspected where
  | atom (text : String)
  | call (name : String) (items : List Inspected)
  | record (name : String) (fields : List (String × Inspected))
  | list (items : List Inspected)
  | map (entries : List (String × Inspected))
  deriving Inhabited

namespace Inspected

def text (s : String) : Inspected := .atom (Quoted.text s)

def bool (b : Bool) : Inspected := .atom (if b then "true" else "false")

def nat (n : Nat) : Inspected := .atom (toString n)

def option {α : Type} (inspect : α → Inspected) : Option α → Inspected
  | none => .atom "None"
  | some x => .call "Some" [inspect x]

mutual

/-- Everything on one line. -/
def line : Inspected → String
  | atom t => t
  | call name items => name ++ "(" ++ lineItems items ++ ")"
  | record name fields => name ++ " \x7b " ++ lineFields fields ++ " \x7d"
  | list items => "[" ++ lineItems items ++ "]"
  | map entries => "\x7b" ++ lineFields entries ++ "\x7d"

def lineItems : List Inspected → String
  | [] => ""
  | [x] => line x
  | x :: rest => line x ++ ", " ++ lineItems rest

def lineFields : List (String × Inspected) → String
  | [] => ""
  | [(name, x)] => name ++ ": " ++ line x
  | (name, x) :: rest => name ++ ": " ++ line x ++ ", " ++ lineFields rest

end

def margin (depth : Nat) : String := String.ofList (List.replicate (4 * depth) ' ')

mutual

/-- One part a line, indented by the given depth; a part ends with a comma. -/
def block (depth : Nat) : Inspected → String
  | atom t => t
  | call name [] => name
  | call name (x :: rest) =>
    name ++ "(\n" ++ blockItems depth (x :: rest) ++ margin depth ++ ")"
  | record name fields =>
    name ++ " \x7b\n" ++ blockFields depth fields ++ margin depth ++ "\x7d"
  | list [] => "[]"
  | list (x :: rest) => "[\n" ++ blockItems depth (x :: rest) ++ margin depth ++ "]"
  | map [] => "\x7b\x7d"
  | map (x :: rest) => "\x7b\n" ++ blockFields depth (x :: rest) ++ margin depth ++ "\x7d"

def blockItems (depth : Nat) : List Inspected → String
  | [] => ""
  | x :: rest => margin (depth + 1) ++ block (depth + 1) x ++ ",\n" ++ blockItems depth rest

def blockFields (depth : Nat) : List (String × Inspected) → String
  | [] => ""
  | (name, x) :: rest =>
    margin (depth + 1) ++ name ++ ": " ++ block (depth + 1) x ++ ",\n" ++ blockFields depth rest

end

end Inspected

end PubSub
