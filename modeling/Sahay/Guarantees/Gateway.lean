import Sahay.Server.Gateway

/-!
# What reaches a socket

The registry of the gateway holds exactly the authenticated sockets that have not been closed, so
a socket is sent the frames of its own user that arrive from its handshake on: all of them, once
each and in their order, until it is no longer open.
-/

namespace Sahay

abbrev Hint := WsEventName × String × Time

def Wire.hint? : Wire → Option Hint
  | .frame event data ts => some (event, data, ts)
  | _ => none

def TrackedSocket.hints (ws : TrackedSocket) : List Hint := ws.sent.filterMap Wire.hint?

def GatewayAct.hintsFor (userId : UserId) : GatewayAct → List Hint
  | .published channel (some frame) now =>
      if channel = WS_CHANNEL ∧ frame.userId = userId then [(frame.event, frame.data, now)] else []
  | _ => []

def hintsFor (userId : UserId) (acts : List GatewayAct) : List Hint :=
  acts.flatMap (GatewayAct.hintsFor userId)

namespace TrackedSocket

variable (ws : TrackedSocket) (w : Wire) (code : ℕ)

@[simp] theorem send_userId : (ws.send w).userId = ws.userId := by
  unfold send
  split_ifs <;> rfl

@[simp] theorem send_readyState : (ws.send w).readyState = ws.readyState := by
  unfold send
  split_ifs <;> rfl

@[simp] theorem send_isAlive : (ws.send w).isAlive = ws.isAlive := by
  unfold send
  split_ifs <;> rfl

@[simp] theorem close_userId : (ws.close code).userId = ws.userId := by
  unfold close
  split_ifs <;> rfl

@[simp] theorem terminate_userId : ws.terminate.userId = ws.userId := by
  unfold terminate
  split_ifs <;> rfl

@[simp] theorem close_isAlive : (ws.close code).isAlive = ws.isAlive := by
  unfold close
  split_ifs <;> rfl

@[simp] theorem terminate_isAlive : ws.terminate.isAlive = ws.isAlive := by
  unfold terminate
  split_ifs <;> rfl

@[simp] theorem terminate_sent : ws.terminate.sent = ws.sent := by
  unfold terminate
  split_ifs <;> rfl

theorem sent_prefix_send : ws.sent <+: (ws.send w).sent := by
  unfold send
  split_ifs
  · exact List.prefix_append _ _
  · exact List.prefix_rfl

theorem sent_prefix_close : ws.sent <+: (ws.close code).sent := by
  unfold close
  split_ifs
  · exact List.prefix_append _ _
  · exact List.prefix_rfl

theorem send_hints :
    (ws.send w).hints = if ws.readyState = .open then ws.hints ++ w.hint?.toList else ws.hints := by
  unfold send
  split_ifs
  · rw [hints, List.filterMap_append, hints]
    cases w <;> rfl
  · rfl

@[simp] theorem close_hints : (ws.close code).hints = ws.hints := by
  unfold close
  split_ifs
  · rw [hints, List.filterMap_append]
    exact List.append_nil _
  · rfl

@[simp] theorem terminate_hints : ws.terminate.hints = ws.hints := by
  rw [hints, terminate_sent, hints]

theorem close_readyState_ne_open : (ws.close code).readyState ≠ .open := by
  unfold close
  split_ifs with h
  · exact fun h => by cases h
  · exact h

theorem terminate_readyState_ne_open : ws.terminate.readyState ≠ .open := by
  unfold terminate
  split_ifs with h
  · rw [h]
    exact fun h => by cases h
  · exact fun h => by cases h

theorem close_closed_iff : (ws.close code).readyState = .closed ↔ ws.readyState = .closed := by
  unfold close
  split_ifs with h
  · simp [h]
  · rfl

theorem terminate_closed_iff : ws.terminate.readyState = .closed ↔ ws.readyState = .closed := by
  unfold terminate
  split_ifs with h
  · rfl
  · simp [h]

end TrackedSocket

namespace Gateway

variable {g : Gateway} {id : SocketId} {ws ws' : TrackedSocket} {userId : UserId}
  {act : GatewayAct}

/-! ## One socket -/

/-- What an act does to a socket that is there. -/
def socketStep (g : Gateway) (id : SocketId) (ws : TrackedSocket) : GatewayAct → TrackedSocket
  | .upgrade .. | .handshake _ => ws
  | .pong id' => if id = id' ∧ ws.userId.isSome then { ws with isAlive := some true } else ws
  | .message id' type =>
      if id = id' ∧ ws.userId.isSome ∧ type = some "ping" then ws.send .pong else ws
  | .closed id' => if id = id' then { ws with readyState := .closed } else ws
  | .heartbeat => if g.listening then beat ws else ws
  | .published channel (some frame) now =>
      if g.listening ∧ channel = WS_CHANNEL ∧ id ∈ g.socketsOf frame.userId then
        forward frame now ws
      else ws
  | .published _ none _ => ws
  | .shutdown => ws.terminate

/-- A socket as the handler of `connection` leaves it. -/
def accepted : Option UserId → TrackedSocket
  | none => TrackedSocket.close {} 4401
  | some userId => { userId := some userId, isAlive := some true }

/-- What holds of the gateway at any time. -/
structure Tidy (g : Gateway) : Prop where
  sets : ∀ userId set, g.registry.lookup userId = some set → set ≠ [] ∧ set.Nodup
  members : ∀ userId id, id ∈ g.socketsOf userId ↔ ∃ ws, g.sockets.lookup id = some ws ∧
    ws.userId = some userId ∧ ws.readyState ≠ .closed
  fresh : ∀ id, id ∈ g.upgrading → id ∉ g.sockets
  silent : g.listening = false → ∀ id ws, g.sockets.lookup id = some ws → ws.readyState ≠ .open

theorem lookup_onSocket (f : TrackedSocket → TrackedSocket) (id id' : SocketId) :
    (g.onSocket id' f).sockets.lookup id =
      (g.sockets.lookup id).map fun ws => if id = id' ∧ ws.userId.isSome then f ws else ws := by
  rw [onSocket, Table.lookup_modify]
  congr 1
  funext ws
  split_ifs <;> simp_all

theorem unregister_eq (g : Gateway) (id : SocketId) (userId : UserId) :
    g.unregister id userId = { g with registry := (g.unregister id userId).registry } := by
  unfold unregister
  split <;> rfl

theorem socketClosed_eq (g : Gateway) (id : SocketId) :
    g.socketClosed id = { g with
      sockets := g.sockets.modify id fun ws => { ws with readyState := .closed }
      registry := (g.socketClosed id).registry } := by
  unfold socketClosed
  cases (g.sockets.lookup id).bind TrackedSocket.userId with
  | none => rfl
  | some userId => exact unregister_eq _ id userId

def toSockets : GatewayAct → Bool
  | .pong _ | .message .. | .heartbeat | .published .. => true
  | _ => false

theorem step_sockets (g : Gateway) (hact : toSockets act = true) :
    g.step act = { g with sockets := (g.step act).sockets } := by
  cases act with
  | pong | message => rfl
  | heartbeat =>
      rw [step]
      split_ifs <;> rfl
  | published channel payload now =>
      rw [step]
      unfold onMessage
      cases payload with
      | none => split_ifs <;> rfl
      | some frame =>
          dsimp only
          split_ifs <;> rfl
  | upgrade | handshake | closed | shutdown => cases hact

/-- A socket that is there stays, as `socketStep` says. -/
theorem lookup_step (hg : g.Tidy) (hws : g.sockets.lookup id = some ws) (act : GatewayAct) :
    (g.step act).sockets.lookup id = some (g.socketStep id ws act) := by
  have hthere : id ∈ g.sockets := Table.mem_iff_exists.mpr ⟨ws, hws⟩
  cases act with
  | upgrade id' pathname auth =>
      rw [step, upgrade]
      split_ifs <;> exact hws
  | handshake id' =>
      rw [step, handshake]
      cases hauth : g.upgrading.lookup id' with
      | none => exact hws
      | some auth =>
          have hne : id ≠ id' := by
            rintro rfl
            exact hg.fresh id (Table.mem_iff_exists.mpr ⟨auth, hauth⟩) hthere
          dsimp only
          split_ifs
          · cases auth <;> exact (Table.lookup_put _ _ _ _).trans ((if_neg hne).trans hws)
          · exact hws
  | pong id' => rw [step, lookup_onSocket, hws, Option.map_some, socketStep]
  | message id' type =>
      rw [step, lookup_onSocket, hws, Option.map_some, socketStep]
      split_ifs <;> simp_all
  | closed id' =>
      rw [step, socketClosed_eq, Table.lookup_modify, hws, Option.map_some, socketStep]
  | heartbeat =>
      rw [step, socketStep]
      split_ifs
      · rw [Table.lookup_mapVal, hws, Option.map_some]
      · exact hws
  | published channel payload now =>
      cases payload with
      | none =>
          rw [step, onMessage, ite_self]
          exact hws
      | some frame =>
          by_cases hlistens : g.listening = true
          · by_cases hchannel : channel = WS_CHANNEL
            · simp only [step, onMessage, socketStep, hlistens, hchannel, if_true, true_and]
              rw [Table.lookup_updateWhere, hws, Option.map_some]
              split_ifs <;> simp_all
            · simp only [step, onMessage, socketStep, hlistens, hchannel, if_true, if_false,
                false_and, and_false, hws]
          · simp only [step, socketStep, hlistens, if_false, false_and, hws, Bool.false_eq_true]
  | shutdown => exact (Table.lookup_mapVal _ _ _).trans (by rw [hws]; rfl)

/-- A socket that was not there has been accepted. -/
theorem lookup_step_new (hws : g.sockets.lookup id = none)
    (hws' : (g.step act).sockets.lookup id = some ws') :
    act = .handshake id ∧ g.listening = true ∧
      ∃ auth, g.upgrading.lookup id = some auth ∧ ws' = accepted auth := by
  cases act with
  | handshake id' =>
      rw [step, handshake] at hws'
      cases hauth : g.upgrading.lookup id' with
      | none =>
          rw [hauth] at hws'
          rw [hws] at hws'
          cases hws'
      | some auth =>
          simp only [hauth] at hws'
          split_ifs at hws' with hlistens
          · have hput : (g.sockets.put id' (accepted auth)).lookup id = some ws' := by
              cases auth <;> exact hws'
            rw [Table.lookup_put] at hput
            split_ifs at hput with hid
            · subst hid
              exact ⟨rfl, hlistens, auth, hauth, (Option.some.inj hput).symm⟩
            · rw [hws] at hput
              cases hput
          · rw [hws] at hws'
            cases hws'
  | upgrade id' pathname auth =>
      rw [step, upgrade] at hws'
      split_ifs at hws' <;> rw [hws] at hws' <;> cases hws'
  | pong id' =>
      rw [step, lookup_onSocket, hws] at hws'
      cases hws'
  | message id' type =>
      rw [step, lookup_onSocket, hws] at hws'
      cases hws'
  | closed id' =>
      rw [step, socketClosed_eq, Table.lookup_modify, hws] at hws'
      cases hws'
  | heartbeat =>
      rw [step] at hws'
      split_ifs at hws'
      · rw [Table.lookup_mapVal, hws] at hws'
        cases hws'
      · rw [hws] at hws'
        cases hws'
  | published channel payload now =>
      rw [step] at hws'
      split_ifs at hws' with hlistens
      · cases payload with
        | none =>
            rw [onMessage, hws] at hws'
            cases hws'
        | some frame =>
            rw [onMessage] at hws'
            split_ifs at hws'
            · rw [Table.lookup_updateWhere, hws] at hws'
              cases hws'
            · rw [hws] at hws'
              cases hws'
      · rw [hws] at hws'
        cases hws'
  | shutdown =>
      have hnone : (g.step .shutdown).sockets.lookup id = none :=
        (Table.lookup_mapVal _ _ _).trans (by rw [hws]; rfl)
      rw [hnone] at hws'
      cases hws'

/-! ## The registry -/

theorem forward_userId (frame : OutboundFrame) (now : Time) (ws : TrackedSocket) :
    (forward frame now ws).userId = ws.userId := by
  unfold forward
  dsimp only
  split_ifs <;> simp

theorem forward_closed_iff (frame : OutboundFrame) (now : Time) (ws : TrackedSocket) :
    (forward frame now ws).readyState = .closed ↔ ws.readyState = .closed := by
  unfold forward
  dsimp only
  split_ifs
  · rw [TrackedSocket.close_closed_iff, TrackedSocket.send_readyState]
  · rw [TrackedSocket.send_readyState]

theorem beat_userId (ws : TrackedSocket) : (beat ws).userId = ws.userId := by
  unfold beat
  split_ifs <;> simp

theorem beat_closed_iff (ws : TrackedSocket) :
    (beat ws).readyState = .closed ↔ ws.readyState = .closed := by
  unfold beat
  split_ifs with hclosed
  · rfl
  · rw [TrackedSocket.terminate_closed_iff]
  · rw [TrackedSocket.send_readyState]

theorem socketStep_userId (g : Gateway) (id : SocketId) (ws : TrackedSocket) (act : GatewayAct) :
    (g.socketStep id ws act).userId = ws.userId := by
  cases act with
  | upgrade | handshake => rfl
  | pong id' =>
      rw [socketStep]
      split_ifs <;> rfl
  | message id' type =>
      rw [socketStep]
      split_ifs <;> simp
  | closed id' =>
      rw [socketStep]
      split_ifs <;> rfl
  | heartbeat =>
      rw [socketStep]
      split_ifs
      · exact beat_userId ws
      · rfl
  | published channel payload now =>
      cases payload with
      | none => rfl
      | some frame =>
          rw [socketStep]
          split_ifs
          · exact forward_userId frame now ws
          · rfl
  | shutdown => exact ws.terminate_userId

theorem socketStep_closed_iff (hact : act ≠ .closed id) :
    (g.socketStep id ws act).readyState = .closed ↔ ws.readyState = .closed := by
  cases act with
  | upgrade | handshake => rfl
  | pong id' =>
      rw [socketStep]
      split_ifs <;> rfl
  | message id' type =>
      rw [socketStep]
      split_ifs
      · rw [TrackedSocket.send_readyState]
      · rfl
  | closed id' =>
      rw [socketStep, if_neg]
      rintro rfl
      exact hact rfl
  | heartbeat =>
      rw [socketStep]
      split_ifs
      · exact beat_closed_iff ws
      · rfl
  | published channel payload now =>
      cases payload with
      | none => rfl
      | some frame =>
          rw [socketStep]
          split_ifs
          · exact forward_closed_iff frame now ws
          · rfl
  | shutdown => exact ws.terminate_closed_iff

theorem socketsOf_connection (g : Gateway) (id : SocketId) (userId userId' : UserId) :
    (g.connection id (some userId)).socketsOf userId' =
      if userId' = userId then g.socketsOf userId ++ [id] else g.socketsOf userId' := by
  simp only [socketsOf, connection]
  rw [Table.lookup_upsert]
  split_ifs
  · cases g.registry.lookup userId <;> rfl
  · rfl

theorem socketsOf_unregister (g : Gateway) (id : SocketId) (userId userId' : UserId) :
    (g.unregister id userId).socketsOf userId' =
      if userId' = userId then (g.socketsOf userId).erase id else g.socketsOf userId' := by
  unfold unregister
  cases hset : g.registry.lookup userId with
  | none =>
      split_ifs with hsame
      · rw [hsame, socketsOf, hset]
        rfl
      · rfl
  | some set =>
      simp only [socketsOf, hset, Option.getD_some]
      split_ifs with hempty hsame hsame
      · rw [Table.lookup_drop, if_pos hsame, hempty]
        rfl
      · rw [Table.lookup_drop, if_neg hsame]
      · rw [hsame, Table.lookup_modify_self, hset]
        rfl
      · rw [Table.lookup_modify_ne hsame]

def Accepts (g : Gateway) (userId : UserId) (id : SocketId) (act : GatewayAct) : Prop :=
  act = .handshake id ∧ g.listening = true ∧ g.upgrading.lookup id = some (some userId)

theorem step_accepts (h : g.Accepts userId id act) :
    (g.step act).sockets.lookup id = some (accepted (some userId)) := by
  obtain ⟨rfl, hlistens, hauth⟩ := h
  simp only [step, handshake, hauth, hlistens, if_true, connection]
  rw [Table.lookup_put, if_pos rfl]
  rfl

def Held (g : Gateway) (userId : UserId) (id : SocketId) : Prop :=
  ∃ ws, g.sockets.lookup id = some ws ∧ ws.userId = some userId ∧ ws.readyState ≠ .closed

theorem held_step (hg : g.Tidy) :
    (g.step act).Held userId id ↔
      (g.Held userId id ∧ act ≠ .closed id) ∨ g.Accepts userId id act := by
  constructor
  · rintro ⟨ws', hws', huser, hopen⟩
    cases hws : g.sockets.lookup id with
    | none =>
        obtain ⟨hact, hlistens, auth, hauth, rfl⟩ := lookup_step_new hws hws'
        cases auth with
        | none =>
            simp only [accepted, TrackedSocket.close_userId] at huser
            cases huser
        | some userId' =>
            obtain rfl := Option.some.inj huser
            exact .inr ⟨hact, hlistens, hauth⟩
    | some ws =>
        rw [lookup_step hg hws] at hws'
        obtain rfl := Option.some.inj hws'
        rw [socketStep_userId] at huser
        have hact : act ≠ .closed id := by
          rintro rfl
          exact hopen (by rw [socketStep, if_pos rfl])
        exact .inl ⟨⟨ws, hws, huser, mt (socketStep_closed_iff hact).mpr hopen⟩, hact⟩
  · rintro (⟨⟨ws, hws, huser, hopen⟩, hact⟩ | haccepts)
    · exact ⟨_, lookup_step hg hws act, (socketStep_userId g id ws act).trans huser,
        mt (socketStep_closed_iff hact).mp hopen⟩
    · exact ⟨_, step_accepts haccepts, rfl, fun h => by cases h⟩

theorem Tidy.nodup (hg : g.Tidy) (userId : UserId) : (g.socketsOf userId).Nodup := by
  rw [socketsOf]
  cases hset : g.registry.lookup userId with
  | none => exact List.nodup_nil
  | some set => exact (hg.sets userId set hset).2

/-- The registry changes with a socket that is accepted and with one that closes. -/
theorem registry_step (g : Gateway) (act : GatewayAct) :
    ((g.step act).registry = g.registry ∧ (∀ userId id, ¬g.Accepts userId id act) ∧
        ∀ id, act = .closed id → (g.sockets.lookup id).bind TrackedSocket.userId = none) ∨
      (∃ userId id, g.Accepts userId id act ∧
        (g.step act).registry = (g.connection id (some userId)).registry) ∨
      ∃ userId id ws, act = .closed id ∧ g.sockets.lookup id = some ws ∧
        ws.userId = some userId ∧ (g.step act).registry = (g.unregister id userId).registry := by
  have hsame (hregistry : (g.step act).registry = g.registry)
      (hhandshake : ∀ id, act ≠ .handshake id) (hclosed : ∀ id, act ≠ .closed id) :
      (g.step act).registry = g.registry ∧ (∀ userId id, ¬g.Accepts userId id act) ∧
        ∀ id, act = .closed id → (g.sockets.lookup id).bind TrackedSocket.userId = none :=
    ⟨hregistry, fun _ id h => hhandshake id h.1, fun id h => absurd h (hclosed id)⟩
  cases act with
  | upgrade id pathname auth =>
      refine .inl (hsame ?_ (fun _ h => by cases h) fun _ h => by cases h)
      rw [step, upgrade]
      split_ifs <;> rfl
  | handshake id =>
      by_cases haccepts : ∃ userId, g.Accepts userId id (.handshake id)
      · obtain ⟨userId, h⟩ := haccepts
        refine .inr (.inl ⟨userId, id, h, ?_⟩)
        simp only [step, handshake, h.2.2, h.2.1, if_true]
        rfl
      · refine .inl ⟨?_, ?_, fun _ h => by cases h⟩
        · rw [step, handshake]
          cases hauth : g.upgrading.lookup id with
          | none => rfl
          | some auth =>
              dsimp only
              split_ifs with hlistens
              · cases auth with
                | none => rfl
                | some userId => exact absurd ⟨userId, rfl, hlistens, hauth⟩ haccepts
              · rfl
        · intro userId id' h
          obtain rfl := GatewayAct.handshake.inj h.1
          exact haccepts ⟨userId, h⟩
  | closed id =>
      cases huser : (g.sockets.lookup id).bind TrackedSocket.userId with
      | none =>
          refine .inl ⟨?_, (fun _ _ h => by cases h.1), ?_⟩
          · rw [step, socketClosed, huser]
            rfl
          · intro id' h
            obtain rfl := GatewayAct.closed.inj h
            exact huser
      | some userId =>
          obtain ⟨ws, hws, hwsuser⟩ := Option.bind_eq_some_iff.mp huser
          refine .inr (.inr ⟨userId, id, ws, rfl, hws, hwsuser, ?_⟩)
          rw [step, socketClosed, huser, Option.elim_some]
          unfold unregister
          cases g.registry.lookup userId <;> rfl
  | pong | message | heartbeat | published =>
      refine .inl (hsame ?_ (fun _ h => by cases h) fun _ h => by cases h)
      rw [step_sockets g rfl]
  | shutdown => exact .inl (hsame rfl (fun _ h => by cases h) fun _ h => by cases h)

theorem mem_socketsOf_step (hg : g.Tidy) :
    id ∈ (g.step act).socketsOf userId ↔
      (id ∈ g.socketsOf userId ∧ act ≠ .closed id) ∨ g.Accepts userId id act := by
  obtain ⟨hregistry, haccepts, hclosed⟩ | ⟨userId', id', haccepts, hregistry⟩ |
    ⟨userId', id', ws, rfl, hws, huser, hregistry⟩ := g.registry_step act
  · have hstays (hmem : id ∈ g.socketsOf userId) : act ≠ .closed id := by
      intro hact
      obtain ⟨ws, hws, huser, -⟩ := (hg.members userId id).mp hmem
      have hnone := hclosed id hact
      rw [hws, Option.bind_some, huser] at hnone
      cases hnone
    rw [socketsOf, hregistry, ← socketsOf]
    exact ⟨fun h => .inl ⟨h, hstays h⟩, fun h => (h.resolve_right (haccepts userId id)).1⟩
  · rw [socketsOf, hregistry, ← socketsOf, socketsOf_connection]
    have hopens : act ≠ .closed id := by
      rintro rfl
      cases haccepts.1
    have hiff : g.Accepts userId id act ↔ userId = userId' ∧ id = id' := by
      constructor
      · rintro ⟨hact, -, hauth⟩
        obtain rfl := GatewayAct.handshake.inj (hact.symm.trans haccepts.1)
        rw [haccepts.2.2] at hauth
        exact ⟨(Option.some.inj (Option.some.inj hauth)).symm, rfl⟩
      · rintro ⟨rfl, rfl⟩
        exact haccepts
    rw [hiff]
    split_ifs with hsame
    · simp [hsame, hopens]
    · simp [hsame, hopens]
  · have hno : ¬g.Accepts userId id (.closed id') := fun h => by cases h.1
    rw [socketsOf, hregistry, ← socketsOf, socketsOf_unregister]
    simp only [hno, or_false, ne_eq, GatewayAct.closed.injEq]
    split_ifs with hsame
    · subst hsame
      exact (hg.nodup userId).mem_erase_iff.trans
        ⟨fun h => ⟨h.2, fun hid => h.1 hid.symm⟩, fun h => ⟨fun hid => h.2 hid.symm, h.1⟩⟩
    · refine ⟨fun hmem => ⟨hmem, ?_⟩, And.left⟩
      rintro rfl
      obtain ⟨ws', hws', huser', -⟩ := (hg.members userId id').mp hmem
      obtain rfl : ws' = ws := Option.some.inj (hws'.symm.trans hws)
      exact hsame (Option.some.inj (huser'.symm.trans huser))

theorem Accepts.notMem (hg : g.Tidy) (h : g.Accepts userId id act) (userId' : UserId) :
    id ∉ g.socketsOf userId' := by
  intro hmem
  obtain ⟨ws, hws, -⟩ := (hg.members userId' id).mp hmem
  exact hg.fresh id (Table.mem_iff_exists.mpr ⟨_, h.2.2⟩) (Table.mem_iff_exists.mpr ⟨ws, hws⟩)

theorem sets_step (hg : g.Tidy) {set : List SocketId}
    (hset : (g.step act).registry.lookup userId = some set) : set ≠ [] ∧ set.Nodup := by
  obtain ⟨hregistry, -⟩ | ⟨userId', id, haccepts, hregistry⟩ |
    ⟨userId', id, ws, -, -, -, hregistry⟩ := g.registry_step act
  · exact hg.sets userId set (hregistry ▸ hset)
  · rw [hregistry, connection, Table.lookup_upsert] at hset
    split_ifs at hset with hsame
    · cases hold : g.registry.lookup userId' with
      | none =>
          rw [hold] at hset
          obtain rfl := Option.some.inj hset
          exact ⟨List.cons_ne_nil _ _, List.nodup_singleton id⟩
      | some old =>
          rw [hold] at hset
          obtain rfl := Option.some.inj hset
          have hnew : id ∉ old := by
            have h := haccepts.notMem hg userId'
            rwa [socketsOf, hold] at h
          refine ⟨List.append_ne_nil_of_right_ne_nil _ (List.cons_ne_nil _ _), ?_⟩
          exact (hg.sets userId' old hold).2.append (List.nodup_singleton id)
            (List.disjoint_singleton.mpr hnew)
    · exact hg.sets userId set hset
  · rw [hregistry, unregister] at hset
    cases hold : g.registry.lookup userId' with
    | none =>
        simp only [hold] at hset
        exact hg.sets userId set hset
    | some old =>
        simp only [hold] at hset
        have hother (h : g.registry.lookup userId = some set) : set ≠ [] ∧ set.Nodup :=
          hg.sets userId set h
        split_ifs at hset with hempty
        · rw [Table.lookup_drop] at hset
          split_ifs at hset
          exact hother hset
        · rw [Table.lookup_replace hold] at hset
          split_ifs at hset
          · obtain rfl := Option.some.inj hset
            exact ⟨hempty, (hg.sets userId' old hold).2.erase id⟩
          · exact hother hset

theorem Tidy.empty : Tidy {} where
  sets _ _ h := by cases h
  members userId id := by
    constructor
    · intro h
      cases h
    · rintro ⟨ws, h, -⟩
      cases h
  fresh id h := by
    obtain ⟨auth, h⟩ := Table.mem_iff_exists.mp h
    cases h
  silent h := by cases h

/-- A handshake that is under way has been asked for and not been answered. -/
theorem lookup_upgrading_step {auth : Option UserId}
    (h : (g.step act).upgrading.lookup id = some auth) :
    act ≠ .handshake id ∧ (g.upgrading.lookup id = some auth ∨
      id ∉ g.sockets ∧ act = .upgrade id "/ws" auth) := by
  cases act with
  | upgrade id' pathname auth' =>
      refine ⟨fun h => (by cases h), ?_⟩
      rw [step, upgrade] at h
      split_ifs at h with hrefused
      · exact .inl h
      · obtain ⟨hpath, hnew⟩ := not_or.mp hrefused
        rw [Table.lookup_put] at h
        split_ifs at h with hsame
        · obtain rfl := Option.some.inj h
          rw [hsame, not_not.mp hpath]
          exact .inr ⟨(not_or.mp hnew).1, rfl⟩
        · exact .inl h
  | handshake id' =>
      have hdropped : g.upgrading.lookup id = some auth ∧ id ≠ id' := by
        rw [step, handshake] at h
        cases hauth : g.upgrading.lookup id' with
        | none =>
            rw [hauth] at h
            refine ⟨h, ?_⟩
            rintro rfl
            rw [hauth] at h
            cases h
        | some auth' =>
            have hdrop : (g.upgrading.drop id').lookup id = some auth := by
              simp only [hauth] at h
              split_ifs at h
              · cases auth' <;> exact h
              · exact h
            rw [Table.lookup_drop] at hdrop
            split_ifs at hdrop with hsame
            exact ⟨hdrop, hsame⟩
      exact ⟨fun h => hdropped.2 (GatewayAct.handshake.inj h).symm, .inl hdropped.1⟩
  | closed id' =>
      rw [step, socketClosed_eq] at h
      exact ⟨fun h => (by cases h), .inl h⟩
  | pong | message | heartbeat | published =>
      rw [step_sockets g rfl] at h
      exact ⟨fun h => (by cases h), .inl h⟩
  | shutdown => exact ⟨fun h => (by cases h), .inl h⟩

/-! ## No longer open -/

theorem forward_open (frame : OutboundFrame) (now : Time) (ws : TrackedSocket) :
    (forward frame now ws).readyState = .open ↔
      ws.readyState = .open ∧ frame.event ≠ .sessionRevoked := by
  unfold forward
  dsimp only
  split_ifs with hrevoked
  · exact ⟨fun h => absurd h (TrackedSocket.close_readyState_ne_open _ _),
      fun h => absurd hrevoked h.2⟩
  · rw [TrackedSocket.send_readyState]
    exact ⟨fun h => ⟨h, hrevoked⟩, And.left⟩

theorem beat_open (ws : TrackedSocket) :
    (beat ws).readyState = .open ↔ ws.readyState = .open ∧ ws.isAlive ≠ some false := by
  unfold beat
  split_ifs with hclosed halive
  · simp [hclosed]
  · exact ⟨fun h => absurd h ws.terminate_readyState_ne_open, fun h => absurd halive h.2⟩
  · rw [TrackedSocket.send_readyState]
    exact ⟨fun h => ⟨h, halive⟩, And.left⟩

theorem open_of_socketStep_open (h : (g.socketStep id ws act).readyState = .open) :
    ws.readyState = .open := by
  cases act with
  | upgrade | handshake => exact h
  | pong id' =>
      rw [socketStep] at h
      split_ifs at h <;> exact h
  | message id' type =>
      rw [socketStep] at h
      split_ifs at h
      · rwa [TrackedSocket.send_readyState] at h
      · exact h
  | closed id' =>
      rw [socketStep] at h
      split_ifs at h
      exact h
  | heartbeat =>
      rw [socketStep] at h
      split_ifs at h
      · exact ((beat_open ws).mp h).1
      · exact h
  | published channel payload now =>
      cases payload with
      | none => exact h
      | some frame =>
          rw [socketStep] at h
          split_ifs at h
          · exact ((forward_open frame now ws).mp h).1
          · exact h
  | shutdown => exact absurd h ws.terminate_readyState_ne_open

theorem listening_step (g : Gateway) (act : GatewayAct) :
    (g.step act).listening = true ↔ g.listening = true ∧ act ≠ .shutdown := by
  have hsame (hlistening : (g.step act).listening = g.listening) (hact : act ≠ .shutdown) :
      (g.step act).listening = true ↔ g.listening = true ∧ act ≠ .shutdown := by
    rw [hlistening]
    exact ⟨fun h => ⟨h, hact⟩, And.left⟩
  cases act with
  | upgrade id pathname auth =>
      refine hsame ?_ fun h => by cases h
      rw [step, upgrade]
      split_ifs <;> rfl
  | handshake id =>
      refine hsame ?_ fun h => by cases h
      rw [step, handshake]
      cases g.upgrading.lookup id with
      | none => rfl
      | some auth =>
          dsimp only
          split_ifs with hlistens
          · cases auth <;> rfl
          · rfl
  | closed id =>
      refine hsame ?_ fun h => by cases h
      rw [step, socketClosed_eq]
  | pong | message | heartbeat | published =>
      refine hsame ?_ fun h => by cases h
      rw [step_sockets g rfl]
  | shutdown => exact ⟨fun h => (by cases h), fun h => absurd rfl h.2⟩

theorem Tidy.step (hg : g.Tidy) (act : GatewayAct) : (g.step act).Tidy where
  sets userId set hset := sets_step hg hset
  members userId id := by
    rw [mem_socketsOf_step hg, hg.members userId id]
    exact (held_step hg).symm
  fresh id hid hthere := by
    obtain ⟨auth, hauth⟩ := Table.mem_iff_exists.mp hid
    obtain ⟨hact, hwas⟩ := lookup_upgrading_step hauth
    obtain ⟨ws', hws'⟩ := Table.mem_iff_exists.mp hthere
    cases hws : g.sockets.lookup id with
    | none => exact hact (lookup_step_new hws hws').1
    | some ws =>
        have hthere : id ∈ g.sockets := Table.mem_iff_exists.mpr ⟨ws, hws⟩
        exact hwas.elim (fun h => hg.fresh id (Table.mem_iff_exists.mpr ⟨auth, h⟩) hthere)
          fun h => h.1 hthere
  silent hsilent id ws' hws' hopen := by
    cases hws : g.sockets.lookup id with
    | none =>
        obtain ⟨rfl, hlistens, -⟩ := lookup_step_new hws hws'
        have hstill := (g.listening_step (.handshake id)).mpr ⟨hlistens, fun h => by cases h⟩
        rw [hsilent] at hstill
        cases hstill
    | some ws =>
        rw [lookup_step hg hws] at hws'
        obtain rfl := Option.some.inj hws'
        by_cases hlistens : g.listening = true
        · have hact : act = .shutdown := by
            by_contra hact
            rw [(g.listening_step act).mpr ⟨hlistens, hact⟩] at hsilent
            cases hsilent
          subst hact
          exact ws.terminate_readyState_ne_open hopen
        · exact hg.silent (Bool.eq_false_iff.mpr hlistens) id ws hws (open_of_socketStep_open hopen)

abbrev after (acts : List GatewayAct) : Gateway := runFrom Gateway.step {} acts

theorem after_concat (acts : List GatewayAct) (act : GatewayAct) :
    after (acts ++ [act]) = (after acts).step act :=
  runFrom_append ({} : Gateway) acts [act]

theorem tidy_after (acts : List GatewayAct) : (after acts).Tidy :=
  Reachable.invariant (fun _ act hg => hg.step act) Tidy.empty ((Reachable.refl _).run acts)

/-! ## The frames of one socket -/

theorem forward_hints (frame : OutboundFrame) (now : Time) (ws : TrackedSocket) :
    (forward frame now ws).hints =
      if ws.readyState = .open then ws.hints ++ [(frame.event, frame.data, now)] else ws.hints := by
  unfold forward
  dsimp only
  split_ifs <;> simp_all [TrackedSocket.send_hints, Wire.hint?]

theorem beat_hints (ws : TrackedSocket) : (beat ws).hints = ws.hints := by
  unfold beat
  split_ifs
  · rfl
  · exact ws.terminate_hints
  · rw [TrackedSocket.send_hints]
    split_ifs
    · exact List.append_nil _
    · rfl

/-- A frame that is for nobody, or for another user, is not put on the socket. -/
theorem socketStep_hints (hg : g.Tidy) (hws : g.sockets.lookup id = some ws)
    (huser : ws.userId = some userId) (act : GatewayAct) :
    (g.socketStep id ws act).hints =
      if ws.readyState = .open then ws.hints ++ act.hintsFor userId else ws.hints := by
  have hquiet (act : GatewayAct) (hnone : act.hintsFor userId = [])
      (hsame : (g.socketStep id ws act).hints = ws.hints) :
      (g.socketStep id ws act).hints =
        if ws.readyState = .open then ws.hints ++ act.hintsFor userId else ws.hints := by
    rw [hnone, List.append_nil, ite_self, hsame]
  cases act with
  | upgrade | handshake => exact hquiet _ rfl rfl
  | pong id' =>
      refine hquiet _ rfl ?_
      rw [socketStep]
      split_ifs <;> rfl
  | message id' type =>
      refine hquiet _ rfl ?_
      rw [socketStep]
      split_ifs
      · rw [TrackedSocket.send_hints]
        split_ifs
        · exact List.append_nil _
        · rfl
      · rfl
  | closed id' =>
      refine hquiet _ rfl ?_
      rw [socketStep]
      split_ifs <;> rfl
  | heartbeat =>
      refine hquiet _ rfl ?_
      rw [socketStep]
      split_ifs
      · exact beat_hints ws
      · rfl
  | shutdown => exact hquiet _ rfl ws.terminate_hints
  | published channel payload now =>
      cases payload with
      | none => exact hquiet _ rfl rfl
      | some frame =>
          by_cases hfor : channel = WS_CHANNEL ∧ frame.userId = userId
          · rw [GatewayAct.hintsFor, if_pos hfor, socketStep]
            split_ifs with hsent hopen hopen
            · rw [forward_hints, if_pos hopen]
            · rw [forward_hints, if_neg hopen]
            · have hlistens : g.listening = true := by
                by_contra hlistens
                exact hg.silent (Bool.eq_false_iff.mpr hlistens) id ws hws hopen
              refine absurd ⟨hlistens, hfor.1, (hg.members _ id).mpr ⟨ws, hws, ?_, ?_⟩⟩ hsent
              · rw [huser, hfor.2]
              · rw [hopen]
                exact fun h => by cases h
            · rfl
          · refine hquiet _ (if_neg hfor) ?_
            rw [socketStep, if_neg]
            rintro ⟨-, hchannel, hmem⟩
            obtain ⟨ws', hws', huser', -⟩ := (hg.members frame.userId id).mp hmem
            obtain rfl : ws' = ws := Option.some.inj (hws'.symm.trans hws)
            exact hfor ⟨hchannel, Option.some.inj (huser'.symm.trans huser)⟩

theorem not_revoked_of_open (hg : g.Tidy) (hws : g.sockets.lookup id = some ws)
    (huser : ws.userId = some userId) (hopen : (g.socketStep id ws act).readyState = .open)
    {hint : Hint} (hhint : hint ∈ act.hintsFor userId) : hint.1 ≠ .sessionRevoked := by
  match act, hhint with
  | .published channel (some frame) now, hhint =>
      rw [GatewayAct.hintsFor] at hhint
      split_ifs at hhint with hfor
      · obtain rfl := List.mem_singleton.mp hhint
        have hwas := open_of_socketStep_open hopen
        have hsent : g.listening ∧ channel = WS_CHANNEL ∧ id ∈ g.socketsOf frame.userId := by
          refine ⟨?_, hfor.1, (hg.members _ id).mpr ⟨ws, hws, ?_, ?_⟩⟩
          · by_contra hlistens
            exact hg.silent (Bool.eq_false_iff.mpr hlistens) id ws hws hwas
          · rw [huser, hfor.2]
          · rw [hwas]
            exact fun h => by cases h
        rw [socketStep, if_pos hsent] at hopen
        exact ((forward_open frame now ws).mp hopen).2
      · cases hhint

theorem sent_prefix_socketStep (g : Gateway) (id : SocketId) (ws : TrackedSocket)
    (act : GatewayAct) : ws.sent <+: (g.socketStep id ws act).sent := by
  cases act with
  | upgrade | handshake => exact List.prefix_rfl
  | pong id' =>
      rw [socketStep]
      split_ifs <;> exact List.prefix_rfl
  | message id' type =>
      rw [socketStep]
      split_ifs
      · exact ws.sent_prefix_send _
      · exact List.prefix_rfl
  | closed id' =>
      rw [socketStep]
      split_ifs <;> exact List.prefix_rfl
  | heartbeat =>
      rw [socketStep, beat]
      split_ifs
      · exact List.prefix_rfl
      · exact ws.terminate_sent ▸ List.prefix_rfl
      · exact TrackedSocket.sent_prefix_send { ws with isAlive := some false } _
      · exact List.prefix_rfl
  | published channel payload now =>
      cases payload with
      | none => exact List.prefix_rfl
      | some frame =>
          rw [socketStep, forward]
          split_ifs
          · exact (ws.sent_prefix_send _).trans (TrackedSocket.sent_prefix_close _ _)
          · exact ws.sent_prefix_send _
          · exact List.prefix_rfl
  | shutdown => exact ws.terminate_sent ▸ List.prefix_rfl

/-- While a socket stays open it is sent the frames for its user that arrive. -/
theorem sent_run (hg : g.Tidy) (hws : g.sockets.lookup id = some ws) (acts : List GatewayAct) :
    ∃ ws' rest, (runFrom step g acts).sockets.lookup id = some ws' ∧
      ws'.userId = ws.userId ∧ ws'.sent = ws.sent ++ rest ∧
      (ws'.userId = some userId → ws'.readyState = .open →
        ws.readyState = .open ∧ rest.filterMap Wire.hint? = hintsFor userId acts ∧
          ∀ hint ∈ hintsFor userId acts, hint.1 ≠ .sessionRevoked) := by
  induction acts generalizing g ws with
  | nil =>
      exact ⟨ws, [], hws, rfl, (List.append_nil _).symm,
        fun _ hopen => ⟨hopen, rfl, fun _ h => by cases h⟩⟩
  | cons act acts ih =>
      obtain ⟨ws', rest, hws', hsame, hsent, hrest⟩ :=
        ih (hg.step act) (lookup_step hg hws act)
      rw [socketStep_userId] at hsame
      obtain ⟨new, hnew⟩ := g.sent_prefix_socketStep id ws act
      refine ⟨ws', new ++ rest, hws', hsame, ?_, fun huser hopen => ?_⟩
      · rw [hsent, ← hnew, List.append_assoc]
      · obtain ⟨hnext, hhints, hclean⟩ := hrest huser hopen
        rw [hsame] at huser
        have hwas := open_of_socketStep_open hnext
        have hstep := socketStep_hints hg hws huser act
        rw [if_pos hwas, TrackedSocket.hints, ← hnew, List.filterMap_append] at hstep
        have hfirst : new.filterMap Wire.hint? = act.hintsFor userId :=
          List.append_cancel_left hstep
        have hsplit : hintsFor userId (act :: acts) =
            act.hintsFor userId ++ hintsFor userId acts := rfl
        rw [hsplit, List.filterMap_append, hfirst, hhints]
        refine ⟨hwas, rfl, fun hint hhint => ?_⟩
        obtain hold | hlater := List.mem_append.mp hhint
        · exact not_revoked_of_open hg hws huser hnext hold
        · exact hclean hint hlater

/-! ## What a run has put on a socket -/

theorem upgraded {acts : List GatewayAct} {auth : Option UserId}
    (h : (after acts).upgrading.lookup id = some auth) : .upgrade id "/ws" auth ∈ acts := by
  refine runFrom_history (P := fun acts (g : Gateway) =>
    g.upgrading.lookup id = some auth → .upgrade id "/ws" auth ∈ acts) ?_ ?_ acts h
  · intro h
    cases h
  · intro acts act ih h
    obtain hwas | ⟨-, rfl⟩ := (lookup_upgrading_step h).2
    · exact List.mem_append_left _ (ih hwas)
    · exact List.mem_append_right _ (List.mem_singleton_self _)

def isOpen (g : Gateway) (id : SocketId) : Bool :=
  (g.sockets.lookup id).any fun ws => ws.readyState = .open

theorem isOpen_iff (hws : g.sockets.lookup id = some ws) :
    g.isOpen id = true ↔ ws.readyState = .open := by
  rw [isOpen, hws, Option.any_some, decide_eq_true_iff]

/-- The acts from the handshake of the socket on, with those that found it open first. -/
structure Heard (acts : List GatewayAct) (id : SocketId) (userId : UserId) (ws : TrackedSocket)
    (pre during post : List GatewayAct) : Prop where
  run : acts = pre ++ .handshake id :: (during ++ post)
  authenticated : .upgrade id "/ws" (some userId) ∈ pre
  during_open : Along step (fun g _ => g.isOpen id = true) (after (pre ++ [.handshake id])) during
  post_not_open : Along step (fun g _ => g.isOpen id = false)
    (after (pre ++ .handshake id :: during)) post
  hints : ws.hints = hintsFor userId during
  is_open : ws.readyState = .open → post = [] ∧ ∀ hint ∈ ws.hints, hint.1 ≠ .sessionRevoked
  revoked : ∀ hint ∈ ws.hints.dropLast, hint.1 ≠ .sessionRevoked

theorem hintsFor_concat (userId : UserId) (acts : List GatewayAct) (act : GatewayAct) :
    hintsFor userId (acts ++ [act]) = hintsFor userId acts ++ act.hintsFor userId := by
  rw [hintsFor, List.flatMap_append, List.flatMap_singleton, hintsFor]

theorem dropLast_append_hintsFor (hints : List Hint) (act : GatewayAct) {hint : Hint}
    (h : hint ∈ (hints ++ act.hintsFor userId).dropLast) : hint ∈ hints := by
  have hlength : (act.hintsFor userId).length ≤ 1 := by
    unfold GatewayAct.hintsFor
    split
    · split_ifs <;> simp
    · exact Nat.zero_le 1
  cases hnew : act.hintsFor userId with
  | nil =>
      rw [hnew, List.append_nil] at h
      exact List.dropLast_subset hints h
  | cons new rest =>
      rw [hnew, List.length_cons] at hlength
      obtain rfl := List.eq_nil_of_length_eq_zero (by omega : rest.length = 0)
      rwa [hnew, List.dropLast_concat] at h

theorem Heard.next {acts pre during post : List GatewayAct}
    (h : Heard acts id userId ws pre during post)
    (hws : (after acts).sockets.lookup id = some ws) (huser : ws.userId = some userId)
    (act : GatewayAct) :
    ∃ during post, Heard (acts ++ [act]) id userId ((after acts).socketStep id ws act)
      pre during post := by
  have hg := tidy_after acts
  have hhints := socketStep_hints hg hws huser act
  by_cases hopen : ws.readyState = .open
  · obtain ⟨rfl, hclean⟩ := h.is_open hopen
    rw [if_pos hopen] at hhints
    have hacts : runFrom step (after (pre ++ [.handshake id])) during = after acts := by
      rw [← runFrom_append, h.run]
      simp
    refine ⟨during ++ [act], [], ?_, h.authenticated, ?_, True.intro, ?_, ?_, ?_⟩
    · rw [h.run]
      simp
    · refine Along.append.mpr ⟨h.during_open, ?_, True.intro⟩
      rw [hacts]
      exact (isOpen_iff hws).mpr hopen
    · rw [hhints, h.hints, hintsFor_concat]
    · intro hstill
      refine ⟨rfl, fun hint hhint => ?_⟩
      rw [hhints] at hhint
      obtain hold | hnew := List.mem_append.mp hhint
      · exact hclean hint hold
      · exact not_revoked_of_open hg hws huser hstill hnew
    · intro hint hhint
      rw [hhints] at hhint
      exact hclean hint (dropLast_append_hintsFor ws.hints act hhint)
  · rw [if_neg hopen] at hhints
    have hacts : runFrom step (after (pre ++ .handshake id :: during)) post = after acts := by
      rw [← runFrom_append, h.run]
      simp
    refine ⟨during, post ++ [act], ?_, h.authenticated, h.during_open, ?_, hhints.trans h.hints,
      fun hstill => absurd (open_of_socketStep_open hstill) hopen, ?_⟩
    · rw [h.run]
      simp
    · refine Along.append.mpr ⟨h.post_not_open, ?_, True.intro⟩
      rw [hacts]
      exact Bool.eq_false_iff.mpr (mt (isOpen_iff hws).mp hopen)
    · rw [hhints]
      exact h.revoked

theorem heard_accepted {acts : List GatewayAct} {auth : Option UserId}
    (hauth : (after acts).upgrading.lookup id = some auth)
    (huser : (accepted auth).userId = some userId) :
    Heard (acts ++ [.handshake id]) id userId (accepted auth) acts [] [] := by
  cases auth with
  | none =>
      rw [accepted, TrackedSocket.close_userId] at huser
      cases huser
  | some userId' =>
      obtain rfl := Option.some.inj huser
      exact {
        run := rfl
        authenticated := upgraded hauth
        during_open := True.intro
        post_not_open := True.intro
        hints := rfl
        is_open := fun _ => ⟨rfl, fun _ h => by cases h⟩
        revoked := fun _ h => by cases h }

/-! ## The heartbeat -/

theorem mem_sockets_append {acts : List GatewayAct} (h : id ∈ (after acts).sockets)
    (more : List GatewayAct) : id ∈ (after (acts ++ more)).sockets := by
  induction more using List.reverseRecOn with
  | nil => rwa [List.append_nil]
  | append_singleton more act ih =>
      obtain ⟨ws, hws⟩ := Table.mem_iff_exists.mp ih
      rw [← List.append_assoc, after_concat]
      exact Table.mem_iff_exists.mpr ⟨_, lookup_step (tidy_after _) hws act⟩

theorem socketStep_isAlive (hact : act ≠ .heartbeat) (huser : ws.userId.isSome) :
    (g.socketStep id ws act).isAlive = some false ↔
      ws.isAlive = some false ∧ act ≠ .pong id := by
  have hsame (hpong : act ≠ .pong id) (h : (g.socketStep id ws act).isAlive = ws.isAlive) :
      (g.socketStep id ws act).isAlive = some false ↔
        ws.isAlive = some false ∧ act ≠ .pong id := by
    rw [h]
    exact ⟨fun h => ⟨h, hpong⟩, And.left⟩
  cases act with
  | upgrade | handshake => exact hsame (fun h => by cases h) rfl
  | pong id' =>
      by_cases hid : id = id'
      · subst hid
        rw [socketStep, if_pos ⟨rfl, huser⟩]
        exact ⟨fun h => (by cases h), fun h => absurd rfl h.2⟩
      · refine hsame (fun h => hid (GatewayAct.pong.inj h).symm) ?_
        rw [socketStep, if_neg fun h => hid h.1]
  | message id' type =>
      refine hsame (fun h => by cases h) ?_
      rw [socketStep]
      split_ifs <;> simp
  | closed id' =>
      refine hsame (fun h => by cases h) ?_
      rw [socketStep]
      split_ifs <;> rfl
  | heartbeat => exact absurd rfl hact
  | published channel payload now =>
      refine hsame (fun h => by cases h) ?_
      cases payload with
      | none => rfl
      | some frame =>
          rw [socketStep, forward]
          split_ifs <;> simp
  | shutdown => exact hsame (fun h => by cases h) ws.terminate_isAlive

theorem isAlive_heartbeat (hg : g.Tidy) (hws : g.sockets.lookup id = some ws)
    (hopen : (g.socketStep id ws .heartbeat).readyState = .open) :
    (g.socketStep id ws .heartbeat).isAlive = some false := by
  have hwas := open_of_socketStep_open hopen
  have hlistens : g.listening = true := by
    by_contra hlistens
    exact hg.silent (Bool.eq_false_iff.mpr hlistens) id ws hws hwas
  rw [socketStep, if_pos hlistens] at hopen ⊢
  have halive := ((beat_open ws).mp hopen).2
  have hnot : ws.readyState ≠ .closed := by
    rw [hwas]
    exact fun h => by cases h
  rw [beat, if_neg hnot, if_neg halive, TrackedSocket.send_isAlive]

/-- Whether the socket has answered since the heartbeat. -/
theorem isAlive_since {acts mid : List GatewayAct} (hmid : .heartbeat ∉ mid)
    (hws : (after (acts ++ .heartbeat :: mid)).sockets.lookup id = some ws)
    (huser : ws.userId.isSome) (hopen : ws.readyState = .open) :
    ws.isAlive = some false ↔ id ∈ (after acts).sockets ∧ .pong id ∉ mid := by
  induction mid using List.reverseRecOn generalizing ws with
  | nil =>
      rw [after_concat] at hws
      cases hwas : (after acts).sockets.lookup id with
      | none => cases (lookup_step_new hwas hws).1
      | some ws₀ =>
          obtain rfl := Option.some.inj ((lookup_step (tidy_after acts) hwas _).symm.trans hws)
          rw [isAlive_heartbeat (tidy_after acts) hwas hopen]
          exact ⟨fun _ => ⟨Table.mem_iff_exists.mpr ⟨ws₀, hwas⟩, List.not_mem_nil⟩, fun _ => rfl⟩
  | append_singleton mid act ih =>
      obtain ⟨hbefore, hact⟩ := not_or.mp (mt List.mem_append.mpr hmid)
      rw [List.mem_singleton, eq_comm] at hact
      have hsplit : acts ++ .heartbeat :: (mid ++ [act]) = acts ++ .heartbeat :: mid ++ [act] := by
        simp
      rw [hsplit, after_concat] at hws
      have hpong : .pong id ∉ mid ++ [act] ↔ .pong id ∉ mid ∧ act ≠ .pong id := by
        rw [List.mem_append, List.mem_singleton, not_or, @eq_comm _ _ act]
      rw [hpong, ← and_assoc]
      cases hwas : (after (acts ++ .heartbeat :: mid)).sockets.lookup id with
      | none =>
          obtain ⟨-, -, auth, -, rfl⟩ := lookup_step_new hwas hws
          have hnew : id ∉ (after acts).sockets := by
            intro hthere
            obtain ⟨ws₀, hws₀⟩ :=
              Table.mem_iff_exists.mp (mem_sockets_append hthere (.heartbeat :: mid))
            rw [hwas] at hws₀
            cases hws₀
          cases auth with
          | none => exact absurd hopen (TrackedSocket.close_readyState_ne_open _ _)
          | some userId => exact ⟨fun h => (by cases h), fun h => absurd h.1.1 hnew⟩
      | some ws₀ =>
          obtain rfl := Option.some.inj ((lookup_step (tidy_after _) hwas _).symm.trans hws)
          rw [socketStep_userId] at huser
          rw [socketStep_isAlive hact huser,
            ih hbefore hwas huser (open_of_socketStep_open hopen)]

end Gateway

open Gateway

/-- The registry has each socket that is authenticated as the user and has not been closed, once,
and nothing else, and no empty set of a user who has left. -/
theorem registry_exact (acts : List GatewayAct) (userId : UserId) :
    ((after acts).socketsOf userId).Nodup ∧
      ((after acts).registry.lookup userId ≠ some []) ∧
      ∀ id, id ∈ (after acts).socketsOf userId ↔
        ∃ ws, (after acts).sockets.lookup id = some ws ∧ ws.userId = some userId ∧
          ws.readyState ≠ .closed :=
  have hg := tidy_after acts
  ⟨hg.nodup userId, fun h => (hg.sets userId [] h).1 rfl, hg.members userId⟩

/-- A socket of a user has been let in with a token of that user, and has on it all frames for the
user that have arrived while it was open, in their order, and no others; a revocation is the last
of them. -/
theorem socket_heard {acts : List GatewayAct} {id : SocketId} {ws : TrackedSocket}
    {userId : UserId} (hws : (after acts).sockets.lookup id = some ws)
    (huser : ws.userId = some userId) :
    ∃ pre during post, Heard acts id userId ws pre during post := by
  refine runFrom_history (P := fun acts (g : Gateway) => ∀ ws,
    g.sockets.lookup id = some ws → ws.userId = some userId →
      ∃ pre during post, Heard acts id userId ws pre during post) ?_ ?_ acts ws hws huser
  · intro ws hws
    cases hws
  · intro acts act ih ws' hws' huser
    cases hws : (after acts).sockets.lookup id with
    | none =>
        obtain ⟨rfl, -, auth, hauth, rfl⟩ := lookup_step_new hws hws'
        exact ⟨acts, [], [], heard_accepted hauth huser⟩
    | some ws =>
        rw [lookup_step (tidy_after acts) hws] at hws'
        obtain rfl := Option.some.inj hws'
        rw [socketStep_userId] at huser
        obtain ⟨pre, during, post, hheard⟩ := ih ws hws huser
        exact ⟨pre, hheard.next hws huser act⟩

namespace TwoPhones

def news : OutboundFrame := ⟨7, .messageNew, "new"⟩
def other : OutboundFrame := ⟨8, .messageNew, "other"⟩
def revoked : OutboundFrame := ⟨7, .sessionRevoked, "revoked"⟩

def acts : List GatewayAct :=
  [.upgrade 1 "/ws" (some 7), .upgrade 2 "/ws" (some 8), .handshake 1, .handshake 2,
    .published WS_CHANNEL (some news) 10, .published WS_CHANNEL (some other) 11,
    .published WS_CHANNEL (some revoked) 12, .published WS_CHANNEL (some news) 13]

end TwoPhones

open TwoPhones in
theorem socket_heard_twoPhones : ∃ ws pre during post, Heard acts 1 7 ws pre during post ∧
    ws.hints = [(.messageNew, "new", 10), (.sessionRevoked, "revoked", 12)] := by
  obtain ⟨pre, during, post, h⟩ := @socket_heard acts 1 _ 7 rfl rfl
  exact ⟨_, pre, during, post, h, rfl⟩

/-- A socket that is open when a heartbeat comes is kept if it has answered since the heartbeat
before, or has only been there since; and otherwise terminated. -/
theorem heartbeat_keeps {acts mid : List GatewayAct} {id : SocketId} {ws : TrackedSocket}
    (hmid : .heartbeat ∉ mid)
    (hws : (after (acts ++ .heartbeat :: mid)).sockets.lookup id = some ws)
    (huser : ws.userId.isSome) (hopen : ws.readyState = .open) :
    (after (acts ++ .heartbeat :: mid ++ [.heartbeat])).isOpen id = true ↔
      .pong id ∈ mid ∨ id ∉ (after acts).sockets := by
  have hg := tidy_after (acts ++ .heartbeat :: mid)
  have hlistens : (after (acts ++ .heartbeat :: mid)).listening = true := by
    by_contra hlistens
    exact hg.silent (Bool.eq_false_iff.mpr hlistens) id ws hws hopen
  have hnext := lookup_step hg hws .heartbeat
  rw [after_concat, isOpen_iff hnext, socketStep, if_pos hlistens, beat_open, ne_eq,
    isAlive_since hmid hws huser hopen]
  tauto

theorem heartbeat_keeps_silent :
    (after ([.upgrade 1 "/ws" (some 7), .handshake 1] ++ .heartbeat :: [] ++
      [.heartbeat])).isOpen 1 = true ↔
      .pong 1 ∈ ([] : List GatewayAct) ∨
        1 ∉ (after [.upgrade 1 "/ws" (some 7), .handshake 1]).sockets :=
  heartbeat_keeps List.not_mem_nil rfl rfl rfl

end Sahay
