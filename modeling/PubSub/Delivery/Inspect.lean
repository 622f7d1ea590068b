import PubSub.Delivery
import PubSub.Number.Decimal
import PubSub.Text.Inspected

/-! # Deliveries in structural form -/

namespace PubSub

def Qos.inspect : Qos → Inspected
  | .atMostOnce => .atom "AtMostOnce"
  | .atLeastOnce => .atom "AtLeastOnce"

def PropertyValue.inspect : PropertyValue → Inspected
  | .null => .atom "Null"
  | .bool b => .call "Bool" [.bool b]
  | .int n => .call "Int" [.atom (toString n)]
  | .double d => .call "Double" [.atom d.explicitText]
  | .text s => .call "Text" [.text s]
  | .bytes bs => .call "Bytes" [.atom (Quoted.bytes bs)]

/-- The keys are quoted. -/
def Properties.inspect (properties : Properties) : Inspected :=
  .map (properties.map fun (key, value) => (Quoted.text key, value.inspect))

def MalformedReason.name : MalformedReason → String
  | notAMessage => "PayloadNotAmqp"
  | noMapping => "FormatNoMapping"

namespace Delivery

def inspectConfirmation (confirmed : List ConfirmationId) (id : ConfirmationId) : Inspected :=
  .record "ConfirmHandle" [("id", .nat id), ("confirmed", .bool (confirmed.contains id))]

def inspectInfo (d : Delivery) (confirmed : List ConfirmationId) : Inspected :=
  .record "DeliveryInfo" [
    ("topic", .text d.topic),
    ("pattern", .text d.pattern),
    ("share", .option .text d.share),
    ("qos", d.qos.inspect),
    ("ttl", .option (fun ttl => .atom ttl.unitText) d.ttl),
    ("properties", d.properties.inspect),
    ("confirmation", .option (inspectConfirmation confirmed) d.confirmation)]

/-- The delivery, where the given deliveries have been confirmed. -/
def inspect (d : Delivery) (confirmed : List ConfirmationId) : Inspected :=
  let info := ("info", d.inspectInfo confirmed)
  match d.body with
  | .bytes data => .record "Bytes" [info, ("data", .atom (Quoted.bytes data))]
  | .text s => .record "Text" [info, ("text", .text s)]
  | .json document => .record "Json" [info, ("json", .call "JsonPayload" [.text document])]
  | .malformed data reason description =>
    .record "Malformed" [
      info,
      ("data", .atom (Quoted.bytes data)),
      ("reason", .atom reason.name),
      ("description", .text description)]

end Delivery

end PubSub
