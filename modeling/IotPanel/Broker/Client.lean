import IotPanel.Js.Value

/-!
# The clients of the broker

`MqttClientService` holds one adapter with one client of the library, and a flag of its own that
says whether it is connected. All clients that were ever created are part of the state: those that
are no longer held have their callbacks still.
-/

namespace IotPanel.Broker

/-- What a client is opened with. -/
structure ConnectOptions where
  brokerUrl : String
  username : JsVal
  password : JsVal

/-- What the service reads from its environment. -/
structure Environment where
  mqttBrokerUrl : String
  mqttUsername : String
  mqttPassword : String

/-- The defaults of `initConnection`. -/
def Environment.options (env : Environment) : ConnectOptions :=
  ⟨env.mqttBrokerUrl, some (.str env.mqttUsername), some (.str env.mqttPassword)⟩

/-- A client of the library. `ending` says that `end` has been called and has yet to call back,
`ended` that it has called back without an error. -/
structure Client where
  options : ConnectOptions
  connected : Bool
  ending : Bool
  ended : Bool
  listening : Bool

namespace Client

/-- A client as the library returns it, with the callbacks of the adapter. -/
def create (options : ConnectOptions) : Client := ⟨options, false, false, false, true⟩

/-- A client that is being ended counts as disconnected. -/
def isConnected (c : Client) : Bool := c.connected && !c.ending

/-- The messages of the broker reach the callback. -/
def receives (c : Client) : Bool := c.connected && c.listening

end Client

/-- A call of `disconnect`, or of `updateConfiguration` in which case it opens a client at the end:
it waits for the subscribed topics or for the end of a client, or is about to open. -/
inductive Stage
  | reading (updates : Bool)
  | ending (client : ℕ) (updates : Bool)
  | opening
  deriving DecidableEq

/-- The clients in the order of their creation; `mqtt` is the adapter with the client that it has.
For each message that a device has published, `emissions` tells how often it has been emitted. -/
structure Service where
  clients : List Client
  mqtt : Option (Option ℕ)
  isConnectedState : Bool
  calls : List Stage
  emissions : List ℕ

def Service.initial : Service := ⟨[], none, false, [], []⟩

/-- What happens to the service. `opened` says whether the library opens the client or throws, and
`ok` whether a call that is waited for succeeds. -/
inductive Event
  | connect (opened : Bool)
  | reconnect (opened : Bool)
  | disconnect
  | updateConfiguration (opened : Bool)
  | topicsRead (call : ℕ) (ok : Bool)
  | endReturned (call : ℕ) (ok : Bool)
  | resumed (call : ℕ) (opened : Bool)
  | connected (client : ℕ)
  | closed (client : ℕ)
  | failed (client : ℕ)
  | published

namespace Service

/-- `initConnection`: a new adapter takes the place of the one before. -/
def initConnection (env : Environment) (opened : Bool) (s : Service) : Service :=
  if opened then
    { s with clients := s.clients ++ [.create env.options], mqtt := some (some s.clients.length) }
  else { s with mqtt := some none }

def reconnect (env : Environment) (opened : Bool) (s : Service) : Service :=
  if s.isConnectedState then s else s.initConnection env opened

def modifyClient (k : ℕ) (f : Client → Client) (s : Service) : Service :=
  { s with clients := s.clients.modify k f }

/-- The call returns or throws. -/
def finish (call : ℕ) (s : Service) : Service := { s with calls := s.calls.eraseIdx call }

/-- The call of `disconnect` returns. -/
def goOn (call : ℕ) (updates : Bool) (s : Service) : Service :=
  if updates then { s with calls := s.calls.set call .opening } else s.finish call

/-- The rest of `disconnect` after the topics have been read. The flag is cleared before anything
can fail. -/
def beginEnd (call : ℕ) (updates : Bool) (s : Service) : Service :=
  let cleared := { s with isConnectedState := false }
  match s.mqtt with
  | none => cleared.finish call
  | some none => cleared.goOn call updates
  | some (some k) =>
    { cleared.modifyClient k fun c => { c with ending := true } with
      calls := s.calls.set call (.ending k updates) }

/-- `end` has called back: the adapter removes the callbacks and forgets the client. -/
def finishEnd (k : ℕ) (s : Service) : Service :=
  { s.modifyClient k fun c => { c with ending := false, ended := true, listening := false } with
    mqtt := if s.mqtt = some (some k) then some none else s.mqtt }

/-- The client of the adapter that is held. -/
def client (s : Service) : Option Client := s.mqtt.join.bind fun k => s.clients[k]?

/-- The end of a client calls back when its connection is closed. -/
def mayReturn (k : ℕ) (s : Service) : Bool := s.clients[k]?.all fun c => !c.connected

/-- How many clients hand a message to the service. -/
def receivers (s : Service) : ℕ := s.clients.countP Client.receives

def happen (env : Environment) (s : Service) : Event → Option Service
  | .connect opened => some (s.initConnection env opened)
  | .reconnect opened => some (s.reconnect env opened)
  | .disconnect => some { s with calls := s.calls ++ [.reading false] }
  | .updateConfiguration opened =>
    some (if s.mqtt.isSome && s.isConnectedState then { s with calls := s.calls ++ [.reading true] }
      else s.initConnection env opened)
  | .topicsRead call ok =>
    match s.calls[call]? with
    | some (.reading updates) => some (if ok then s.beginEnd call updates else s.finish call)
    | _ => none
  | .endReturned call ok =>
    match s.calls[call]? with
    | some (.ending k updates) =>
      if ok then
        if s.mayReturn k then some ((s.finishEnd k).goOn call updates) else none
      else some ((s.modifyClient k fun c => { c with ending := false }).finish call)
    | _ => none
  | .resumed call opened =>
    match s.calls[call]? with
    | some .opening => some ((s.finish call).initConnection env opened)
    | _ => none
  | .connected k =>
    match s.clients[k]? with
    | some c =>
      if c.connected || c.ending || c.ended then none
      else some { s.modifyClient k fun c => { c with connected := true } with
        isConnectedState := s.isConnectedState || c.listening }
    | none => none
  | .closed k =>
    match s.clients[k]? with
    | some c =>
      if c.ended then none
      else some { s.modifyClient k fun c => { c with connected := false } with
        isConnectedState := s.isConnectedState && !c.listening }
    | none => none
  | .failed k =>
    match s.clients[k]? with
    | some c => if c.ended then none else some s
    | none => none
  | .published => some { s with emissions := s.emissions ++ [s.receivers] }

def Step (env : Environment) (s : Service) (e : Event) (t : Service) : Prop :=
  s.happen env e = some t

end Service

end IotPanel.Broker
