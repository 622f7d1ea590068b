import PubSub.Message

/-! # Deliveries

A delivery is an inbound message as the application sees it. A text or a
document whose bytes are not UTF-8 becomes a malformed delivery that keeps the
bytes; everything else about the message is kept as it is.
-/

namespace PubSub

/-- The identity of a delivery that awaits the application's confirmation. -/
abbrev ConfirmationId := Nat

inductive Body where
  | bytes (data : Bytes)
  | text (s : String)
  | json (document : String)
  | malformed (data : Bytes) (reason : MalformedReason) (description : String)
  deriving DecidableEq, Repr, Inhabited

structure Delivery where
  topic : String
  /-- The pattern of the subscription that matched. -/
  pattern : String
  share : Option String
  qos : Qos
  ttl : Option Duration
  properties : Properties
  confirmation : Option ConfirmationId
  body : Body
  deriving DecidableEq, Repr, Inhabited

namespace Body

def ofPayload : InboundPayload → Body
  | .bytes data => .bytes data
  | .text data =>
    match Utf8.decode data with
    | .ok s => .text s
    | .error e => .malformed data .noMapping s!"text body is not UTF-8: {e.message}"
  | .json data =>
    match Utf8.decode data with
    | .ok s => .json s
    | .error e => .malformed data .noMapping s!"JSON body is not UTF-8: {e.message}"
  | .malformed data reason description => .malformed data reason description

def isMalformed : Body → Bool
  | malformed .. => true
  | _ => false

end Body

namespace Delivery

def ofInbound (m : InboundMessage) (confirmation : Option ConfirmationId) : Delivery where
  topic := m.topic
  pattern := m.subscription.pattern
  share := m.subscription.share
  qos := m.qos
  ttl := m.ttl
  properties := m.properties
  confirmation := confirmation
  body := .ofPayload m.payload

def isMalformed (d : Delivery) : Bool := d.body.isMalformed

def needsConfirmation (d : Delivery) : Bool := d.confirmation.isSome

end Delivery

/-- A delivery that the server waits to have acknowledged, and the connection it came on. -/
structure PendingDelivery where
  connection : ConnectionId
  tag : Nat
  deriving DecidableEq, Repr, Inhabited

end PubSub
