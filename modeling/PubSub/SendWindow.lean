/-! # Send windows

The window counts the sends whose promise is open. A send that fills the window
is refused room, which means that the application is owed one notification when
the sends have drained.
-/

namespace PubSub

structure SendWindow where
  undrained : Nat
  /-- A send was refused room since the last notification. -/
  drainOwed : Bool
  threshold : Nat
  deriving DecidableEq, Repr, Inhabited

namespace SendWindow

def new (threshold : Nat) : SendWindow where
  undrained := 0
  drainOwed := false
  threshold := max threshold 1

/-- Counts a send, and tells whether there is room for another one. -/
def count (w : SendWindow) : Bool × SendWindow :=
  let undrained := w.undrained + 1
  (decide (undrained < w.threshold), { w with undrained := undrained })

/-- Owes the application a notification. -/
def owe (w : SendWindow) : SendWindow := { w with drainOwed := true }

/-- Counts a send off, and tells whether the window has emptied. -/
def uncount (w : SendWindow) : Bool × SendWindow :=
  (decide (w.undrained ≤ 1), { w with undrained := w.undrained - 1 })

/-- Takes the notification that is owed, if one is. -/
def takeDrain (w : SendWindow) : Bool × SendWindow :=
  (w.drainOwed, { w with drainOwed := false })

/-- Lets a send in; a send that is refused room is owed a notification. -/
def enter (w : SendWindow) : Bool × SendWindow :=
  let (accepting, w) := w.count
  (accepting, if accepting then w else w.owe)

/-- Lets a send out, and tells whether a notification is due. -/
def leave (w : SendWindow) : Bool × SendWindow :=
  let (emptied, w) := w.uncount
  if emptied then w.takeDrain else (false, w)

end SendWindow

end PubSub
