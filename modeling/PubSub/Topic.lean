import PubSub.Error

/-! # Topics and link addresses

A subscription is identified by a topic pattern and, if it is shared, by the
name of the share. The server addresses it as `share:<share>:<pattern>` or
`private:<pattern>`; no valid share name holds a colon.
-/

namespace PubSub

structure Topic where
  pattern : String
  share : Option String
  deriving DecidableEq, Repr, Inhabited

namespace Topic

def address (t : Topic) : String :=
  match t.share with
  | some share => s!"share:{share}:{t.pattern}"
  | none => s!"private:{t.pattern}"

def validate (t : Topic) : Outcome :=
  if t.pattern = "" then .error (.argument "topic pattern must not be empty")
  else
    match t.share with
    | none => .ok ()
    | some share =>
      if share = "" then .error (.argument "share name must not be empty")
      else if share.toList.contains ':' then
        .error (.argument s!"share name '{share}' must not contain a colon")
      else .ok ()

/-- No share comes before any share; shares are in the order of their characters. -/
def shareBefore : Option String → Option String → Bool
  | none, some _ => true
  | some a, some b => a < b
  | _, none => false

/-- Topics are in the order of their patterns, and then of their shares. -/
def before (a b : Topic) : Bool :=
  a.pattern < b.pattern || a.pattern = b.pattern && shareBefore a.share b.share

end Topic

/-- Checks the topic of an outgoing message. -/
def validateDestination (topic : String) : Outcome :=
  if topic = "" then .error (.argument "topic must not be empty") else .ok ()

end PubSub
