import IotPanel.Device.Requests

/-!
# The connection to the broker

What `MqttClientService` does when it connects and disconnects. It subscribes again to the topics
that are marked in the database.
-/

namespace IotPanel.Device

open Mqtt (Topic)

def subscribedTopics : TopicQuery := ⟨none, none, none, none, some true⟩

def TopicService.getAllSubscribedTopics : Prog (List Topic) := do
  let topics ← findTopics subscribedTopics
  if topics = [] then throw (.notFound "No Topic found")
  return topics

namespace MqttClientService

def initConnection : Prog Unit := do
  try
    connectClient
  catch _ => throw (.unauthorized "Failed to connect to MQTT broker")

/-- The callback of a connection. The list of stored topics is never missing, so that the
broadcast topic is not subscribed to on its own. -/
def onConnect (cfg : Config) : Prog Unit := do
  setConnected true
  let broadcastTopic ← TopicService.createTopic cfg "Mqtt_Broker" .broadcast
  let storedTopics ← TopicService.getAllSubscribedTopics
  subscribe (storedTopics.map (fun t => t.topic) ++ [broadcastTopic.topic])

/-- The updates of the topics are sent, and not waited for. -/
def disconnect : Prog Unit := do
  try
    let topics ← TopicService.getAllSubscribedTopics
    topics.forM fun t => sendTopicUpdate t.topic false
    setConnected false
    endClient
  catch _ => throw (.unauthorized "Failed to disconnect MQTT")

end MqttClientService

end IotPanel.Device
