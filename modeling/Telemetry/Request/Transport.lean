/-
# Transports

How a request came in, as a code, as a name and as the name of a variant.
-/

namespace Telemetry

/-- The known transports. -/
inductive Transport where
  | unknown
  | http
  | https
  | kafka
  | jms
  | ironMq
  | amqp
  | queue
  | other
  deriving DecidableEq, Inhabited

namespace Transport

/-- The code of a transport. -/
def code : Transport → Int
  | unknown => 0
  | http => 1
  | https => 2
  | kafka => 3
  | jms => 4
  | ironMq => 5
  | amqp => 6
  | queue => 7
  | other => 8

/-- The transport of a code; codes without one are unknown. -/
def ofCode (n : Int) : Transport :=
  if n = 1 then http
  else if n = 2 then https
  else if n = 3 then kafka
  else if n = 4 then jms
  else if n = 5 then ironMq
  else if n = 6 then amqp
  else if n = 7 then queue
  else if n = 8 then other
  else unknown

/-- The name that is reported. -/
def name : Transport → String
  | unknown => "Unknown"
  | http => "HTTP"
  | https => "HTTPS"
  | kafka => "Kafka"
  | jms => "JMS"
  | ironMq => "IronMQ"
  | amqp => "AMQP"
  | queue => "Queue"
  | other => "Other"

/-- The name of the variant, which JSON uses. -/
def variant : Transport → String
  | unknown => "Unknown"
  | http => "Http"
  | https => "Https"
  | kafka => "Kafka"
  | jms => "Jms"
  | ironMq => "IronMq"
  | amqp => "Amqp"
  | queue => "Queue"
  | other => "Other"

end Transport
end Telemetry
