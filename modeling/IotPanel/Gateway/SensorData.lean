import IotPanel.Js.Number
import IotPanel.Mqtt.Topic

/-!
# What the gateway reads off a message

The gateway takes the device and the type of the sensor from fixed places of the topic, and all
else from the payload, with defaults for what the payload does not have.
-/

namespace IotPanel.Gateway

open Mqtt

/-- A payload that is an object. -/
abbrev Payload := List (String × Json)

/-- A property that is read from an object literal: one of its own, or one that all objects
have. -/
inductive Property
  | own (v : Json)
  | inherited (name : String)

variable {cfg : TopicConfig} {deviceId : String} {useCase : TopicUseCase}

end IotPanel.Gateway
