import EdgeCaller.Text.Blank
import EdgeCaller.Text.Fold
/-!
# Transports

A sender reaches the hub over one of six named transports. There are four wires below them: no
wire falls back from a plain socket to a web socket, so the names that leave the choice open take
the plain socket.
-/

namespace EdgeCaller

/-- The transports that a configuration may name. -/
inductive Transport where
  | amqp
  | amqpTcpOnly
  | amqpWebSocketOnly
  | mqtt
  | mqttTcpOnly
  | mqttWebSocketOnly
  deriving DecidableEq, Repr

/-- The wires that a client can be created over. -/
inductive Wire where
  | amqp
  | amqpWs
  | mqtt
  | mqttWs
  deriving DecidableEq, Repr

namespace Wire

/-- The name of a wire. -/
def name : Wire → String
  | amqp => "Amqp"
  | amqpWs => "AmqpWs"
  | mqtt => "Mqtt"
  | mqttWs => "MqttWs"

/-- The wire for a transport's name. Any text that names none of the others is given the first. -/
def ofName (s : String) : Wire :=
  if s = "Mqtt" ∨ s = "Mqtt_Tcp_Only" then mqtt
  else if s = "Mqtt_WebSocket_Only" then mqttWs
  else if s = "Amqp_WebSocket_Only" then amqpWs
  else amqp

end Wire

namespace Transport

/-- The name of a transport. -/
def name : Transport → String
  | amqp => "Amqp"
  | amqpTcpOnly => "Amqp_Tcp_Only"
  | amqpWebSocketOnly => "Amqp_WebSocket_Only"
  | mqtt => "Mqtt"
  | mqttTcpOnly => "Mqtt_Tcp_Only"
  | mqttWebSocketOnly => "Mqtt_WebSocket_Only"

/-- All transports, in the order in which they are listed. -/
def all : List Transport :=
  [amqp, amqpTcpOnly, amqpWebSocketOnly, mqtt, mqttTcpOnly, mqttWebSocketOnly]

theorem mem_all (t : Transport) : t ∈ all := by cases t <;> decide

/-- The transport that is used where none is named. -/
def standard : Transport := amqpTcpOnly

/-- The transport that a text names, blanks around it and letter case aside. -/
def parse? (s : String) : Option Transport :=
  let wanted := Text.lower (Text.trim s.toList)
  all.find? fun t => Text.lower t.name.toList == wanted

/-- The name of a transport names it. -/
theorem parse?_name (t : Transport) : parse? t.name = some t := by
  cases t <;> decide +kernel

/-- The wire below a transport. -/
def wire (t : Transport) : Wire := Wire.ofName t.name

end Transport

end EdgeCaller
