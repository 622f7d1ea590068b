import PubSub.Session.Services

/-! # The turns of a session

The signals of a client are handled one by one. A service that breaks down ends
the turn of the signal, and the core stays as it was when the service was asked.
-/

namespace PubSub

namespace Session

/-- Performs an effect on the world around the client. -/
def performAround (play : Step → Play Answer) : Effect → Play Unit
  | .request r => request play r
  | .publish _ => modify fun w => { w with published := true }
  | .release => do
    unless (← get).unreleased do
      record .released
      playHook play .release
  | _ => pure ()

def perform (play : Step → Play Answer) (issued : Issued) : Play Unit := do
  let w ← get
  let (jobs, client) := { w.client with core := issued.core }.perform issued.effect
  set { w with client := client }
  jobs.forM submit
  performAround play issued.effect

def setCore (core : Core) : Play Unit :=
  modify fun w => { w with client := { w.client with core := core } }

def handle (play : Step → Play Answer) (s : Signal) : Play Unit := do
  let turn := (← get).client.core.handle s
  turn.issued.forM (perform play)
  setCore turn.core

/-- A client at rest that nobody holds is gone. -/
def rest : Play Unit :=
  modify fun w => { w with gone := w.gone || (!w.held && !w.client.mailbox.draining) }

/-- Handles signals until none waits, at most `fuel` of them. -/
def drainSteps (play : Step → Play Answer) : Nat → Play Unit
  | 0 => pure ()
  | fuel + 1 => do
    let w ← get
    let (signal, mailbox) := w.client.mailbox.next
    set { w with client := { w.client with mailbox := mailbox } }
    match signal with
    | none => rest
    | some s => do
      tryCatch (handle play s) fun _ => pure ()
      drainSteps play fuel

/-- More signals than a script can bring about before the services have to be answered. -/
def longestDrain : Nat := 100000

/-- Does something and then handles the signals that it posted, unless signals are being
handled already. -/
def settling {α : Type} (play : Step → Play Answer) (act : Play α) : Play α := do
  let draining := (← get).client.mailbox.draining
  let result ← act
  unless draining do drainSteps play longestDrain
  pure result

end Session

end PubSub
