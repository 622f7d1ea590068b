import PubSub.Duration
import PubSub.Text.Utf8
import PubSub.Topic

/-! # Messages

What a client sends and receives: a topic, a body, a delivery guarantee, and
properties in the order of their keys.
-/

namespace PubSub

/-- The delivery guarantee of a send or a subscription. -/
inductive Qos where
  | atMostOnce
  | atLeastOnce
  deriving DecidableEq, Repr, Inhabited

def Qos.name : Qos → String
  | atMostOnce => "at-most-once"
  | atLeastOnce => "at-least-once"

inductive PropertyValue where
  | null
  | bool (b : Bool)
  | int (n : Int)
  | double (d : Double)
  | text (s : String)
  | bytes (bs : Bytes)
  deriving DecidableEq, Repr

/-- Properties in the order of their keys, one for each key. -/
abbrev Properties := List (String × PropertyValue)

namespace Properties

def insert (key : String) (value : PropertyValue) : Properties → Properties
  | [] => [(key, value)]
  | (k, v) :: rest =>
    if key < k then (key, value) :: (k, v) :: rest
    else if key = k then (key, value) :: rest
    else (k, v) :: insert key value rest

end Properties

/-- The body of an outgoing message. -/
inductive Payload where
  | bytes (bs : Bytes)
  | text (s : String)
  /-- A document that is already written. -/
  | json (document : String)
  deriving DecidableEq, Repr, Inhabited

namespace Payload

/-- The number of bytes on the wire. -/
def size : Payload → Nat
  | bytes bs => bs.length
  | text s => s.utf8ByteSize
  | json s => s.utf8ByteSize

def isEmpty (p : Payload) : Bool := p.size = 0

end Payload

structure OutboundMessage where
  topic : String
  payload : Payload
  qos : Qos
  ttl : Option Duration
  properties : Properties
  deriving DecidableEq, Repr

/-- Why the body of an inbound message is no data. -/
inductive MalformedReason where
  /-- The frame was no message at all. -/
  | notAMessage
  /-- The body fits none of the supported formats. -/
  | noMapping
  deriving DecidableEq, Repr, Inhabited

/-- The body of an inbound message as the transport decodes it; texts are unchecked bytes. -/
inductive InboundPayload where
  | bytes (data : Bytes)
  | text (data : Bytes)
  | json (data : Bytes)
  | malformed (data : Bytes) (reason : MalformedReason) (description : String)
  deriving DecidableEq, Repr, Inhabited

/-- A message that the server pushes for one subscription. -/
structure InboundMessage where
  /-- The subscription that matched. -/
  subscription : Topic
  topic : String
  qos : Qos
  tag : Nat
  ttl : Option Duration
  properties : Properties
  payload : InboundPayload
  deriving DecidableEq, Repr, Inhabited

/-- A connection that the client asked for; it tells later from superseded events. -/
structure ConnectionId where
  number : Nat
  deriving DecidableEq, Repr, Inhabited

def ConnectionId.name (c : ConnectionId) : String := s!"conn-{c.number}"

structure SubscribeParams where
  topic : Topic
  qos : Qos
  credit : Nat
  autoConfirm : Bool
  /-- How long the server keeps the subscription, in whole seconds. -/
  ttlSeconds : Nat
  deriving DecidableEq, Repr, Inhabited

end PubSub
