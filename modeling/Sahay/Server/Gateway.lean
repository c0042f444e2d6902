import Sahay.Lib.Run
import Sahay.Lib.Table
import Sahay.Server.Schema

/-!
# The WebSocket gateway

`realtime/gateway.ts` of one process, event by event: handshakes that wait for their
authentication, the registry of sockets by user, the heartbeat, and the frames that
`realtime/hub.ts` publishes through Redis.  A socket keeps what has been put on it.
-/

namespace Sahay

abbrev SocketId := ℕ

/-- `WS_EVENTS`. -/
inductive WsEventName
  | offerNew | offerExpired | requestUpdate | matchUpdate | messageNew
  | conversationUpdate | eventUpdate | inventoryUpdate | notificationNew | sessionRevoked
  deriving DecidableEq

/-- What is published on `WS_CHANNEL`; the payload is the text of its JSON. -/
structure OutboundFrame where
  userId : UserId
  event : WsEventName
  data : String
  deriving DecidableEq

def WS_CHANNEL : String := "ws:out"

/-- What the server puts on a socket. -/
inductive Wire
  | pong
  | ping
  | frame (event : WsEventName) (data : String) (ts : Time)
  | close (code : ℕ)
  deriving DecidableEq

inductive ReadyState
  | «open» | closing | closed
  deriving DecidableEq

structure TrackedSocket where
  userId : Option UserId := none
  isAlive : Option Bool := none
  readyState : ReadyState := .open
  sent : List Wire := []

namespace TrackedSocket

variable (ws : TrackedSocket)

def send (w : Wire) : TrackedSocket :=
  if ws.readyState = .open then { ws with sent := ws.sent ++ [w] } else ws

def close (code : ℕ) : TrackedSocket :=
  if ws.readyState = .open then
    { ws with sent := ws.sent ++ [.close code], readyState := .closing }
  else ws

def terminate : TrackedSocket :=
  if ws.readyState = .closed then ws else { ws with readyState := .closing }

end TrackedSocket

structure Gateway where
  /-- Handshakes under way, with the user that the token was resolved to. -/
  upgrading : Table SocketId (Option UserId) := ∅
  sockets : Table SocketId TrackedSocket := ∅
  registry : Table UserId (List SocketId) := ∅
  listening : Bool := true

inductive GatewayAct
  /-- A request to upgrade, with the answer of `resolveAuth`. -/
  | upgrade (id : SocketId) (pathname : String) (auth : Option UserId)
  | handshake (id : SocketId)
  | pong (id : SocketId)
  /-- A message of the client, with its type if it is JSON with one. -/
  | message (id : SocketId) (type : Option String)
  | closed (id : SocketId)
  | heartbeat
  /-- A message from Redis, with the frame if it can be parsed. -/
  | published (channel : String) (payload : Option OutboundFrame) (now : Time)
  | shutdown

namespace Gateway

variable (g : Gateway)

/-- `registry.get(userId)`, with none if there is no entry. -/
def socketsOf (userId : UserId) : List SocketId := (g.registry.lookup userId).getD []

def upgrade (id : SocketId) (pathname : String) (auth : Option UserId) : Gateway :=
  if pathname ≠ "/ws" ∨ id ∈ g.sockets ∨ id ∈ g.upgrading then g
  else { g with upgrading := g.upgrading.put id auth }

/-- The handler of `connection`. -/
def connection (id : SocketId) : Option UserId → Gateway
  | none => { g with sockets := g.sockets.put id (TrackedSocket.close {} 4401) }
  | some userId => { g with
      sockets := g.sockets.put id { userId := some userId, isAlive := some true }
      registry := g.registry.upsert userId [id] fun set => set ++ [id] }

def handshake (id : SocketId) : Gateway :=
  match g.upgrading.lookup id with
  | none => g
  | some auth =>
      let g := { g with upgrading := g.upgrading.drop id }
      if g.listening then g.connection id auth else g

def onSocket (id : SocketId) (f : TrackedSocket → TrackedSocket) : Gateway :=
  { g with sockets := g.sockets.modify id fun ws => if ws.userId.isSome then f ws else ws }

/-- A set that has become empty is dropped. -/
def unregister (id : SocketId) (userId : UserId) : Gateway :=
  match g.registry.lookup userId with
  | none => g
  | some set =>
      let rest := set.erase id
      { g with registry := if rest = [] then g.registry.drop userId
          else g.registry.replace userId rest }

def socketClosed (id : SocketId) : Gateway :=
  let close (ws : TrackedSocket) : TrackedSocket := { ws with readyState := .closed }
  let closed := { g with sockets := g.sockets.modify id close }
  ((g.sockets.lookup id).bind TrackedSocket.userId).elim closed (closed.unregister id)

/-- A socket that has not answered since the last heartbeat is terminated. -/
def beat (ws : TrackedSocket) : TrackedSocket :=
  if ws.readyState = .closed then ws
  else if ws.isAlive = some false then ws.terminate
  else TrackedSocket.send { ws with isAlive := some false } .ping

/-- The frame on one socket; a revocation also closes it. -/
def forward (frame : OutboundFrame) (now : Time) (ws : TrackedSocket) : TrackedSocket :=
  let ws := ws.send (.frame frame.event frame.data now)
  if frame.event = .sessionRevoked then ws.close 4403 else ws

def onMessage (channel : String) (payload : Option OutboundFrame) (now : Time) : Gateway :=
  match payload with
  | some frame =>
      let isTarget (id : SocketId) (_ : TrackedSocket) : Bool := id ∈ g.socketsOf frame.userId
      if channel = WS_CHANNEL then
        { g with sockets := g.sockets.updateWhere isTarget (forward frame now) }
      else g
  | none => g

def step : GatewayAct → Gateway
  | .upgrade id pathname auth => g.upgrade id pathname auth
  | .handshake id => g.handshake id
  | .pong id => g.onSocket id fun ws => { ws with isAlive := some true }
  | .message id type => g.onSocket id fun ws => if type = some "ping" then ws.send .pong else ws
  | .closed id => g.socketClosed id
  | .heartbeat => if g.listening then { g with sockets := g.sockets.mapVal fun _ => beat } else g
  | .published channel payload now => if g.listening then g.onMessage channel payload now else g
  | .shutdown => { g with
      listening := false
      sockets := g.sockets.mapVal fun _ => TrackedSocket.terminate }

end Gateway
end Sahay
