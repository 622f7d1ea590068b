import PubSub.Json

/-! # Tables of configuration files

A table comes to be in one of three ways: stated in a header, implied by the
header of a table within it, or made by a dotted key. Headers may state what
they have only implied, dotted keys may add to what dotted keys have made, and
nothing is ever set twice.
-/

namespace PubSub

namespace Toml

/-- How a table came to be. -/
inductive Origin where
  | stated
  | implied
  | dotted
  deriving DecidableEq, Repr

inductive Item where
  | value (v : Json)
  | table (origin : Origin) (entries : List (String × Item))
  /-- The tables of one repeated header, in order. -/
  | tables (items : List (List (String × Item)))

abbrev Table := List (String × Item)

namespace Table

/-- Replaces the entry of a key, or adds one at the end. -/
def alter (key : String) (f : Option Item → Option Item) : Table → Option Table
  | [] => (f none).map fun item => [(key, item)]
  | (k, item) :: rest =>
    if k = key then (f (some item)).map fun item => (k, item) :: rest
    else (alter key f rest).map ((k, item) :: ·)

/-- Changes the last table of a repeated header. -/
def alterLast (f : Table → Option Table) : List Table → Option (List Table)
  | [] => none
  | [t] => (f t).map ([·])
  | t :: rest => (alterLast f rest).map (t :: ·)

def has (t : Table) (key : String) : Bool := t.any (·.1 = key)

/-- Sets a key that is reached through the tables of a dotted key. -/
def insert : List String → String → Json → Table → Option Table
  | [], key, v, t => if t.has key then none else some (t ++ [(key, .value v)])
  | k :: path, key, v, t =>
    t.alter k fun
      | none => (insert path key v []).map (.table .dotted)
      | some (.value _) => none
      | some (.table origin sub) =>
        if origin = .stated || (path.isEmpty && origin = .implied) then none
        else (insert path key v sub).map (.table origin)
      | some (.tables items) =>
        if path.isEmpty then none else (alterLast (insert path key v) items).map .tables

/-- Changes the entry of a key that a header leads to; the tables on the way are implied. -/
def alterAt : List String → String → (Option Item → Option Item) → Table → Option Table
  | [], key, f, t => t.alter key f
  | k :: path, key, f, t =>
    t.alter k fun
      | none => (alterAt path key f []).map (.table .implied)
      | some (.value _) => none
      | some (.table origin sub) => (alterAt path key f sub).map (.table origin)
      | some (.tables items) => (alterLast (alterAt path key f) items).map .tables

/-- States a table. -/
def state : Option Item → Option Item
  | none => some (.table .stated [])
  | some (.table .implied sub) => some (.table .stated sub)
  | _ => none

/-- Adds a table to those of a repeated header. -/
def repeated : Option Item → Option Item
  | none => some (.tables [[]])
  | some (.tables items) => some (.tables (items ++ [[]]))
  | _ => none

/-- Changes the table that was stated last, which the path leads to. -/
def within : List String → (Table → Option Table) → Table → Option Table
  | [], f, t => f t
  | k :: path, f, t =>
    t.alter k fun
      | some (.table origin sub) => (within path f sub).map (.table origin)
      | some (.tables items) => (alterLast (within path f) items).map .tables
      | _ => none

end Table

mutual

def Item.toJson : Item → Json
  | .value v => v
  | .table _ entries => .ofMembers (membersOf entries)
  | .tables items => .list (listOf items)

def membersOf : List (String × Item) → List (String × Json)
  | [] => []
  | (key, item) :: rest => (key, item.toJson) :: membersOf rest

def listOf : List (List (String × Item)) → List Json
  | [] => []
  | t :: rest => .ofMembers (membersOf t) :: listOf rest

end

def Table.toJson (t : Table) : Json := .ofMembers (membersOf t)

end Toml

end PubSub
