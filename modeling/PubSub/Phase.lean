/-! # Phases of a client

The life of a client as a state machine: a trigger leads from a phase to the
next one and gives the actions to perform there, in order. A stopping phase
remembers which operation was under way when the stop came, because that is
what has to end before the session can be cleaned up.
-/

namespace PubSub

/-- The state of a client as applications see it. -/
inductive ClientState where
  | starting
  | started
  | retrying
  | stopping
  | stopped
  deriving DecidableEq, Repr, Inhabited

/-- What becomes of work that arrives in a state. -/
inductive WorkPolicy where
  | accept
  | queue
  | reject
  deriving DecidableEq, Repr, Inhabited

namespace ClientState

def name : ClientState → String
  | starting => "Starting"
  | started => "Started"
  | retrying => "Retrying"
  | stopping => "Stopping"
  | stopped => "Stopped"

def work : ClientState → WorkPolicy
  | started => .accept
  | starting | retrying => .queue
  | stopping | stopped => .reject

end ClientState

inductive Phase where
  | stopped
  | startingLookup
  | startingOpen
  /-- No connection has been up in this session yet. -/
  | retryWait
  | retryLookup
  | retryOpen
  | started
  /-- A connection was up and is lost. -/
  | reconnectWait
  | reconnectLookup
  | reconnectOpen
  /-- Connected again, and subscribing anew to everything tracked. -/
  | remaking
  | stoppingLookup
  | stoppingOpen
  | stoppingTimer
  | stoppingRemake
  | stoppingClose
  /-- Waiting for the callbacks that are queued. -/
  | stoppingFlush
  deriving DecidableEq, Repr, Inhabited

inductive Trigger where
  | start
  | stop
  | endpointFound
  | endpointRetry
  | endpointFatal
  | openSucceeded
  | openRetryable
  | openFatal
  | subscriptionsRemade
  | networkError
  | replaced
  | timerPopped
  | timerCancelled
  | connectionClosed
  | callbacksFlushed
  deriving DecidableEq, Repr, Inhabited

inductive Action where
  | requestEndpoint
  | openConnection
  | closeConnection
  | startRetryTimer
  | cancelRetryTimer
  | markEndpointGood
  | remakeSubscriptions
  | breakConnection
  /-- The connection is gone by itself and only has to be forgotten. -/
  | discardConnection
  | cleanup
  | flushCallbacks
  | resetSession
  | succeedPendingStarts
  | failPendingStarts
  | succeedPendingStops
  | replayPendingWork
  | notifyStarting
  | notifyStarted
  | notifyRestarted
  | notifyRetrying
  | notifyStopped
  | releaseCallbacks
  /-- A start that came while stopping takes effect now. -/
  | resumeStart
  deriving DecidableEq, Repr, Inhabited

structure Transition where
  next : Phase
  actions : List Action
  deriving DecidableEq, Repr

namespace Phase

def view : Phase → ClientState
  | stopped => .stopped
  | startingLookup | startingOpen => .starting
  | retryWait | retryLookup | retryOpen => .retrying
  | started => .started
  | reconnectWait | reconnectLookup | reconnectOpen | remaking => .retrying
  | stoppingLookup | stoppingOpen | stoppingTimer | stoppingRemake | stoppingClose
  | stoppingFlush => .stopping

def isStopping (p : Phase) : Bool := p.view = .stopping

/-- The actions after which only queued callbacks keep a client from being stopped. -/
def finish : List Action := [.cleanup, .flushCallbacks]

def onStart : Phase → Transition
  | stopped => ⟨startingLookup, [.resetSession, .notifyStarting, .requestEndpoint]⟩
  | started => ⟨started, [.succeedPendingStarts]⟩
  | p => ⟨p, []⟩

/-- Every phase leads to a stop; a stop that comes while stopping overrides a start before it. -/
def onStop : Phase → Transition
  | stopped => ⟨stopped, [.succeedPendingStops]⟩
  | startingLookup | retryLookup | reconnectLookup => ⟨stoppingLookup, [.failPendingStarts]⟩
  | startingOpen | retryOpen | reconnectOpen => ⟨stoppingOpen, [.failPendingStarts]⟩
  | retryWait | reconnectWait => ⟨stoppingTimer, [.failPendingStarts, .cancelRetryTimer]⟩
  | started => ⟨stoppingClose, [.failPendingStarts, .closeConnection]⟩
  | remaking => ⟨stoppingRemake, [.failPendingStarts]⟩
  | p => ⟨p, [.failPendingStarts]⟩

def onEndpointFound : Phase → Option Transition
  | startingLookup => some ⟨startingOpen, [.openConnection]⟩
  | retryLookup => some ⟨retryOpen, [.openConnection]⟩
  | reconnectLookup => some ⟨reconnectOpen, [.openConnection]⟩
  | stoppingLookup => some ⟨stoppingFlush, finish⟩
  | _ => none

def onEndpointRetry : Phase → Option Transition
  | startingLookup | retryLookup => some ⟨retryWait, [.notifyRetrying, .startRetryTimer]⟩
  | reconnectLookup => some ⟨reconnectWait, [.notifyRetrying, .startRetryTimer]⟩
  | stoppingLookup => some ⟨stoppingFlush, finish⟩
  | _ => none

def onEndpointFatal : Phase → Option Transition
  | startingLookup | retryLookup | reconnectLookup =>
    some ⟨stoppingFlush, .failPendingStarts :: finish⟩
  | stoppingLookup => some ⟨stoppingFlush, finish⟩
  | _ => none

def onOpenSucceeded : Phase → Option Transition
  | startingOpen | retryOpen =>
    some ⟨started,
      [.markEndpointGood, .succeedPendingStarts, .notifyStarted, .replayPendingWork]⟩
  | reconnectOpen => some ⟨remaking, [.markEndpointGood, .remakeSubscriptions]⟩
  | stoppingOpen => some ⟨stoppingClose, [.closeConnection]⟩
  | _ => none

def onOpenRetryable : Phase → Option Transition
  | startingOpen | retryOpen => some ⟨retryLookup, [.notifyRetrying, .requestEndpoint]⟩
  | reconnectOpen => some ⟨reconnectLookup, [.notifyRetrying, .requestEndpoint]⟩
  | stoppingOpen => some ⟨stoppingFlush, finish⟩
  | _ => none

def onOpenFatal : Phase → Option Transition
  | startingOpen | retryOpen | reconnectOpen =>
    some ⟨stoppingFlush, .failPendingStarts :: finish⟩
  | stoppingOpen => some ⟨stoppingFlush, finish⟩
  | _ => none

def onSubscriptionsRemade : Phase → Option Transition
  | remaking =>
    some ⟨started, [.succeedPendingStarts, .notifyRestarted, .replayPendingWork]⟩
  | stoppingRemake => some ⟨stoppingClose, [.closeConnection]⟩
  | _ => none

/-- The connection is lost, before or after its opening was acknowledged. -/
def onNetworkError : Phase → Option Transition
  | startingOpen | retryOpen =>
    some ⟨retryLookup, [.discardConnection, .notifyRetrying, .requestEndpoint]⟩
  | reconnectOpen =>
    some ⟨reconnectLookup, [.discardConnection, .notifyRetrying, .requestEndpoint]⟩
  | stoppingOpen => some ⟨stoppingFlush, .discardConnection :: finish⟩
  | started | remaking =>
    some ⟨reconnectLookup,
      [.breakConnection, .discardConnection, .notifyRetrying, .requestEndpoint]⟩
  | stoppingRemake => some ⟨stoppingFlush, .breakConnection :: .discardConnection :: finish⟩
  | stoppingClose => some ⟨stoppingFlush, finish⟩
  | _ => none

/-- The server ended the connection for good. -/
def onReplaced : Phase → Option Transition
  | startingOpen | retryOpen | reconnectOpen =>
    some ⟨stoppingFlush, .discardConnection :: .failPendingStarts :: finish⟩
  | stoppingOpen => some ⟨stoppingFlush, .discardConnection :: finish⟩
  | started | remaking => some ⟨stoppingClose, [.failPendingStarts, .closeConnection]⟩
  | stoppingRemake => some ⟨stoppingClose, [.closeConnection]⟩
  | stoppingClose => some ⟨stoppingFlush, finish⟩
  | _ => none

def onTimerPopped : Phase → Option Transition
  | retryWait => some ⟨retryLookup, [.requestEndpoint]⟩
  | reconnectWait => some ⟨reconnectLookup, [.requestEndpoint]⟩
  | stoppingTimer => some ⟨stoppingFlush, finish⟩
  | _ => none

def onTimerCancelled : Phase → Option Transition
  | stoppingTimer => some ⟨stoppingFlush, finish⟩
  | _ => none

def onConnectionClosed : Phase → Option Transition
  | stoppingClose => some ⟨stoppingFlush, finish⟩
  | _ => none

def onCallbacksFlushed : Phase → Option Transition
  | stoppingFlush =>
    some ⟨stopped, [.succeedPendingStops, .notifyStopped, .releaseCallbacks, .resumeStart]⟩
  | _ => none

/-- The transition of a trigger; none where the trigger has no meaning. -/
def transition (p : Phase) : Trigger → Option Transition
  | .start => some p.onStart
  | .stop => some p.onStop
  | .endpointFound => p.onEndpointFound
  | .endpointRetry => p.onEndpointRetry
  | .endpointFatal => p.onEndpointFatal
  | .openSucceeded => p.onOpenSucceeded
  | .openRetryable => p.onOpenRetryable
  | .openFatal => p.onOpenFatal
  | .subscriptionsRemade => p.onSubscriptionsRemade
  | .networkError => p.onNetworkError
  | .replaced => p.onReplaced
  | .timerPopped => p.onTimerPopped
  | .timerCancelled => p.onTimerCancelled
  | .connectionClosed => p.onConnectionClosed
  | .callbacksFlushed => p.onCallbacksFlushed

end Phase

end PubSub
