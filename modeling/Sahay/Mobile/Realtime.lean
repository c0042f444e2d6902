import Sahay.Server.Gateway

/-!
# The WebSocket client of the mobile app

`useRealtime` of `realtime.ts`, event by event, for one token: the socket with handlers, the timer
of the next attempt, and what the hook has called of its caller.  `Link` puts it at the other end
of the gateway's sockets: what the gateway has sent on a socket is read in order, until the
connection is closed or lost.
-/

namespace Sahay

/-- What the hook calls of `RealtimeHandlers`. -/
inductive HandlerCall
  | onFrame (w : Wire)
  | onReconnect
  | onSessionRevoked
  deriving DecidableEq

structure Realtime where
  /-- The socket that has handlers. -/
  ws : Option SocketId := none
  closed : Bool := false
  attempts : ℕ := 0
  /-- The delay of the timer that is set. -/
  reconnectTimer : Option ℕ := none
  /-- The socket that the interval pings. -/
  pingTimer : Option SocketId := none
  everConnected : Bool := false
  calls : List HandlerCall := []

namespace Realtime

variable (c : Realtime)

def call (h : HandlerCall) : Realtime := { c with calls := c.calls ++ [h] }

def cleanupSocket : Realtime := { c with pingTimer := none, ws := none }

def delay (attempts : ℕ) : ℕ := min 30000 (1000 * 2 ^ min attempts 5)

def scheduleReconnect : Realtime :=
  if c.closed ∨ c.reconnectTimer.isSome then c
  else { c with reconnectTimer := some (delay c.attempts), attempts := c.attempts + 1 }

/-- With the socket that the constructor makes, unless it throws. -/
def connect (created : Option SocketId) : Realtime :=
  if c.closed then c
  else match created with
    | none => c.cleanupSocket.scheduleReconnect
    | some id => { c.cleanupSocket with ws := some id }

def onopen (id : SocketId) : Realtime :=
  let c := { c with attempts := 0 }
  let c := if c.everConnected then c.call .onReconnect else c
  { c with everConnected := true, pingTimer := some id }

def onmessage : Wire → Realtime
  | .ping | .close _ => c
  | .frame .sessionRevoked _ _ =>
      Realtime.call (Realtime.cleanupSocket { c with closed := true }) .onSessionRevoked
  | w => c.call (.onFrame w)

def onclose (code : ℕ) : Realtime :=
  let c := c.cleanupSocket
  if code = 4401 ∨ code = 4403 then Realtime.call { c with closed := true } .onSessionRevoked
  else c.scheduleReconnect

def timerFires (created : Option SocketId) : Realtime :=
  if c.reconnectTimer.isSome then Realtime.connect { c with reconnectTimer := none } created else c

/-- The app comes to the foreground; `lost` tells that the socket is `CLOSED`. -/
def foreground (lost : Bool) (created : Option SocketId) : Realtime :=
  if !c.closed && (c.ws.isNone || lost) then Realtime.connect { c with attempts := 0 } created
  else c

def unmount : Realtime :=
  Realtime.cleanupSocket { c with closed := true, reconnectTimer := none }

end Realtime

/-! ## Both ends -/

inductive ClientState
  | connecting | «open» | closed
  deriving DecidableEq

/-- The client's end of a socket, with how much of what was sent on it has been read. -/
structure ClientEnd where
  readyState : ClientState := .connecting
  read : ℕ := 0

structure Link where
  gateway : Gateway := {}
  client : Realtime := {}
  /-- The client's ends of the sockets that it has made. -/
  ends : Table SocketId ClientEnd := ∅

inductive LinkAct
  | gateway (act : GatewayAct)
  | opens (id : SocketId)
  /-- The next of what was sent on the socket is read. -/
  | delivers (id : SocketId)
  /-- The connection is lost, with whatever has not been read. -/
  | drops (id : SocketId)
  | timerFires (created : Option SocketId)
  | foreground (created : Option SocketId)
  | unmount

namespace Link

variable (s : Link)

def handled (id : SocketId) (e : ClientEnd) (f : Realtime → Realtime) : Link :=
  let s := { s with ends := s.ends.replace id e }
  if s.client.ws = some id then { s with client := f s.client } else s

/-- What may construct a socket, which is a new one. -/
def creates (f : Option SocketId → Realtime) (created : Option SocketId) : Link :=
  match created with
  | none => { s with client := f none }
  | some id =>
      if id ∈ s.ends then s
      else { s with
        client := f (some id)
        ends := if (f (some id)).ws = some id then s.ends.put id {} else s.ends }

def mounted (created : Option SocketId) : Link := Link.creates {} (Realtime.connect {}) created

/-- The gateway has answered the handshake. -/
def opens (id : SocketId) : Link :=
  match s.ends.lookup id, s.gateway.sockets.lookup id with
  | some e, some _ =>
      if e.readyState = .connecting then
        s.handled id { e with readyState := .open } fun c => c.onopen id
      else s
  | _, _ => s

def delivers (id : SocketId) : Link :=
  match s.ends.lookup id, s.gateway.sockets.lookup id with
  | some e, some ws =>
      if e.readyState = .open then
        match ws.sent[e.read]? with
        | none => s
        | some (.close code) =>
            s.handled id { e with readyState := .closed } fun c => c.onclose code
        | some w => s.handled id { e with read := e.read + 1 } fun c => c.onmessage w
      else s
  | _, _ => s

def drops (id : SocketId) : Link :=
  match s.ends.lookup id with
  | some e =>
      if e.readyState = .closed then s
      else s.handled id { e with readyState := .closed } fun c => c.onclose 1006
  | none => s

/-- The socket with handlers is `CLOSED`. -/
def lost : Bool :=
  s.client.ws.any fun id => (s.ends.lookup id).any fun e => e.readyState = .closed

def step : LinkAct → Link
  | .gateway act => { s with gateway := s.gateway.step act }
  | .opens id => s.opens id
  | .delivers id => s.delivers id
  | .drops id => s.drops id
  | .timerFires created => s.creates s.client.timerFires created
  | .foreground created => s.creates (s.client.foreground s.lost) created
  | .unmount => { s with client := s.client.unmount }

end Link
end Sahay
