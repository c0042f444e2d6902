import Sahay.Guarantees.Gateway
import Sahay.Mobile.Realtime

/-!
# A phone that is connected has missed nothing

Frames are hints: one that is published while the phone is not connected is lost.  The phone
refetches on every connection after its first, so whatever it has not heard it has refetched
since; and until it is signed out it is connected, connecting, or about to try again.
-/

namespace Sahay

namespace Realtime

variable (c : Realtime)

/-! ## The client alone -/

/-- What happens to a client, with the socket that it happens on. -/
inductive Event
  | opens (id : SocketId)
  | message (id : SocketId) (w : Wire)
  | close (id : SocketId) (code : ℕ)
  | timer (created : Option SocketId)
  | foreground (lost : Bool) (created : Option SocketId)
  | unmount

/-- A socket without handlers tells the client nothing. -/
def event : Event → Realtime
  | .opens id => if c.ws = some id then c.onopen id else c
  | .message id w => if c.ws = some id then c.onmessage w else c
  | .close id code => if c.ws = some id then c.onclose code else c
  | .timer created => c.timerFires created
  | .foreground lost created => c.foreground lost created
  | .unmount => c.unmount

/-- What holds of a client at any time. -/
structure Alive : Prop where
  goes_on : c.closed = false → c.ws.isSome ∨ c.reconnectTimer.isSome
  delay : ∀ d, c.reconnectTimer = some d → 1000 ≤ d ∧ d ≤ 30000
  silent : c.closed = true → c.ws = none
  revoked : c.calls.count .onSessionRevoked ≤ if c.closed then 1 else 0

theorem delay_bounds (attempts : ℕ) : 1000 ≤ delay attempts ∧ delay attempts ≤ 30000 := by
  have hpos : 1 ≤ 2 ^ min attempts 5 := Nat.one_le_two_pow
  unfold delay
  omega

variable {c}

theorem Alive.scheduleReconnect (hdelay : ∀ d, c.reconnectTimer = some d → 1000 ≤ d ∧ d ≤ 30000)
    (hsilent : c.closed = true → c.ws = none)
    (hrevoked : c.calls.count .onSessionRevoked ≤ if c.closed then 1 else 0) :
    c.scheduleReconnect.Alive := by
  unfold Realtime.scheduleReconnect
  split_ifs with hset
  · exact ⟨fun hopen => .inr (hset.resolve_left (by rw [hopen]; exact Bool.false_ne_true)),
      hdelay, hsilent, hrevoked⟩
  · refine ⟨fun _ => .inr rfl, ?_, hsilent, hrevoked⟩
    intro d hd
    obtain rfl := Option.some.inj hd
    exact delay_bounds c.attempts

theorem connect_closed (hclosed : c.closed = true) (created : Option SocketId) :
    c.connect created = c :=
  if_pos hclosed

theorem Alive.connect (hdelay : ∀ d, c.reconnectTimer = some d → 1000 ≤ d ∧ d ≤ 30000)
    (hsilent : c.closed = true → c.ws = none)
    (hrevoked : c.calls.count .onSessionRevoked ≤ if c.closed then 1 else 0)
    (created : Option SocketId) : (c.connect created).Alive := by
  unfold Realtime.connect
  split_ifs with hclosed
  · exact ⟨fun hopen => (by rw [hclosed] at hopen; cases hopen), hdelay, hsilent, hrevoked⟩
  · cases created with
    | none => exact Alive.scheduleReconnect hdelay (fun _ => rfl) hrevoked
    | some id => exact ⟨fun _ => .inl rfl, hdelay, fun h => absurd h hclosed, hrevoked⟩

theorem Alive.calls (hc : c.Alive) {h : HandlerCall} (hh : h ≠ .onSessionRevoked) :
    (c.call h).Alive := by
  refine ⟨hc.goes_on, hc.delay, hc.silent, ?_⟩
  show (c.calls ++ [h]).count HandlerCall.onSessionRevoked ≤ if c.closed then 1 else 0
  rw [List.count_append, List.count_singleton, if_neg (by simpa using hh)]
  exact hc.revoked

theorem Alive.signsOut (hc : c.Alive) (hopen : c.closed = false) :
    (Realtime.call { c.cleanupSocket with closed := true } .onSessionRevoked).Alive := by
  refine ⟨fun h => (by cases h), hc.delay, fun _ => rfl, ?_⟩
  have hnone := hc.revoked
  rw [hopen] at hnone
  show (c.calls ++ [HandlerCall.onSessionRevoked]).count HandlerCall.onSessionRevoked ≤ 1
  rw [List.count_append, List.count_singleton_self]
  exact Nat.add_le_add_right hnone 1

theorem Alive.open_of_ws (hc : c.Alive) {id : SocketId} (hws : c.ws = some id) :
    c.closed = false := by
  by_contra hclosed
  have hnone := hc.silent (Bool.not_eq_false _ ▸ hclosed)
  rw [hws] at hnone
  cases hnone

theorem Alive.event (hc : c.Alive) (e : Event) : (c.event e).Alive := by
  cases e with
  | opens id =>
      rw [Realtime.event]
      split_ifs with hws
      · have hquiet : Realtime.Alive { c with attempts := 0 } :=
          ⟨hc.goes_on, hc.delay, hc.silent, hc.revoked⟩
        unfold onopen
        dsimp only
        split_ifs
        · have hcalled := hquiet.calls (h := .onReconnect) fun h => by cases h
          exact ⟨hcalled.goes_on, hcalled.delay, hcalled.silent, hcalled.revoked⟩
        · exact ⟨hc.goes_on, hc.delay, hc.silent, hc.revoked⟩
      · exact hc
  | message id w =>
      rw [Realtime.event]
      split_ifs with hws
      · unfold onmessage
        split
        · exact hc
        · exact hc
        · exact hc.signsOut (hc.open_of_ws hws)
        · exact hc.calls fun h => by cases h
      · exact hc
  | close id code =>
      rw [Realtime.event]
      split_ifs with hws
      · unfold onclose
        dsimp only
        split_ifs
        · exact hc.signsOut (hc.open_of_ws hws)
        · exact Alive.scheduleReconnect hc.delay (fun _ => rfl) hc.revoked
      · exact hc
  | timer created =>
      rw [Realtime.event, timerFires]
      split_ifs
      · exact Alive.connect (c := { c with reconnectTimer := none }) (fun d h => by cases h)
          hc.silent hc.revoked created
      · exact hc
  | foreground lost created =>
      rw [Realtime.event, Realtime.foreground]
      split_ifs
      · exact Alive.connect (c := { c with attempts := 0 }) hc.delay hc.silent hc.revoked created
      · exact hc
  | unmount =>
      refine ⟨fun h => (by cases h), fun d h => (by cases h), fun _ => rfl, ?_⟩
      refine hc.revoked.trans ?_
      show (if c.closed then 1 else 0) ≤ 1
      split_ifs <;> omega

theorem Alive.event_closed (hc : c.Alive) (hclosed : c.closed = true) (e : Event) :
    (c.event e).closed = true ∧ (c.event e).calls = c.calls := by
  have hws (id : SocketId) : c.ws ≠ some id := by
    rw [hc.silent hclosed]
    exact fun h => by cases h
  cases e with
  | opens id =>
      rw [Realtime.event, if_neg (hws id)]
      exact ⟨hclosed, rfl⟩
  | message id w =>
      rw [Realtime.event, if_neg (hws id)]
      exact ⟨hclosed, rfl⟩
  | close id code =>
      rw [Realtime.event, if_neg (hws id)]
      exact ⟨hclosed, rfl⟩
  | timer created =>
      rw [Realtime.event, timerFires]
      split_ifs
      · rw [connect_closed (c := { c with reconnectTimer := none }) hclosed]
        exact ⟨hclosed, rfl⟩
      · exact ⟨hclosed, rfl⟩
  | foreground lost created =>
      rw [Realtime.event, Realtime.foreground, if_neg]
      · exact ⟨hclosed, rfl⟩
      · rw [hclosed]
        exact Bool.false_ne_true
  | unmount => exact ⟨rfl, rfl⟩

theorem scheduleReconnect_ws (c : Realtime) : c.scheduleReconnect.ws = c.ws := by
  unfold Realtime.scheduleReconnect
  split_ifs <;> rfl

theorem scheduleReconnect_calls (c : Realtime) : c.scheduleReconnect.calls = c.calls := by
  unfold Realtime.scheduleReconnect
  split_ifs <;> rfl

theorem scheduleReconnect_everConnected (c : Realtime) :
    c.scheduleReconnect.everConnected = c.everConnected := by
  unfold Realtime.scheduleReconnect
  split_ifs <;> rfl

theorem connect_calls (c : Realtime) (created : Option SocketId) :
    (c.connect created).calls = c.calls := by
  unfold Realtime.connect
  split_ifs
  · rfl
  · cases created with
    | none => exact scheduleReconnect_calls _
    | some id => rfl

theorem connect_everConnected (c : Realtime) (created : Option SocketId) :
    (c.connect created).everConnected = c.everConnected := by
  unfold Realtime.connect
  split_ifs
  · rfl
  · cases created with
    | none => exact scheduleReconnect_everConnected _
    | some id => rfl

theorem ws_of_connect {created : Option SocketId} {id : SocketId}
    (h : (c.connect created).ws = some id) : c.ws = some id ∨ created = some id := by
  unfold Realtime.connect at h
  split_ifs at h
  · exact .inl h
  · cases created with
    | none =>
        rw [scheduleReconnect_ws] at h
        cases h
    | some id' => exact .inr h

theorem onclose_ws (c : Realtime) (code : ℕ) : (c.onclose code).ws = none := by
  unfold onclose
  dsimp only
  split_ifs
  · rfl
  · exact scheduleReconnect_ws _

theorem onopen_ws (c : Realtime) (id : SocketId) : (c.onopen id).ws = c.ws := by
  unfold onopen
  dsimp only
  split_ifs <;> rfl

theorem onopen_calls (c : Realtime) (id : SocketId) :
    (c.onopen id).calls = c.calls ++ if c.everConnected then [.onReconnect] else [] := by
  unfold onopen
  dsimp only
  split_ifs
  · rfl
  · exact (List.append_nil _).symm

/-- What the client is told of what it reads, unless it is signed out by it. -/
def heard : Wire → List HandlerCall
  | .ping | .close _ | .frame .sessionRevoked _ _ => []
  | w => [.onFrame w]

theorem onmessage_of_ws {w : Wire} {id : SocketId} (h : (c.onmessage w).ws = some id) :
    c.ws = some id ∧ (c.onmessage w).calls = c.calls ++ heard w := by
  unfold onmessage at h ⊢
  split at h
  · exact ⟨h, (List.append_nil _).symm⟩
  · exact ⟨h, (List.append_nil _).symm⟩
  · cases h
  · next hping hclose hrevoked =>
      refine ⟨h, ?_⟩
      unfold heard
      split <;> simp_all [call]

theorem event_mono (c : Realtime) (e : Event) :
    c.calls <+: (c.event e).calls ∧
      (c.everConnected = true → (c.event e).everConnected = true) := by
  have hcall (c : Realtime) (h : HandlerCall) : c.calls <+: (c.call h).calls :=
    List.prefix_append _ _
  cases e with
  | opens id =>
      rw [event]
      split_ifs
      · rw [onopen_calls]
        exact ⟨List.prefix_append _ _, fun _ => rfl⟩
      · exact ⟨List.prefix_rfl, fun h => h⟩
  | message id w =>
      rw [event]
      split_ifs
      · unfold onmessage
        split
        · exact ⟨List.prefix_rfl, fun h => h⟩
        · exact ⟨List.prefix_rfl, fun h => h⟩
        · exact ⟨List.prefix_append _ _, fun h => h⟩
        · exact ⟨hcall c _, fun h => h⟩
      · exact ⟨List.prefix_rfl, fun h => h⟩
  | close id code =>
      rw [event]
      split_ifs
      · unfold onclose
        dsimp only
        split_ifs
        · exact ⟨List.prefix_append _ _, fun h => h⟩
        · rw [scheduleReconnect_calls, scheduleReconnect_everConnected]
          exact ⟨List.prefix_rfl, fun h => h⟩
      · exact ⟨List.prefix_rfl, fun h => h⟩
  | timer created =>
      rw [event, timerFires]
      split_ifs
      · rw [connect_calls, connect_everConnected]
        exact ⟨List.prefix_rfl, fun h => h⟩
      · exact ⟨List.prefix_rfl, fun h => h⟩
  | foreground lost created =>
      rw [event, Realtime.foreground]
      split_ifs
      · rw [connect_calls, connect_everConnected]
        exact ⟨List.prefix_rfl, fun h => h⟩
      · exact ⟨List.prefix_rfl, fun h => h⟩
  | unmount => exact ⟨List.prefix_rfl, fun h => h⟩

end Realtime

/-! ## The client and the gateway -/

def LinkAct.gateway? : LinkAct → Option GatewayAct
  | .gateway a => some a
  | _ => none

def ClientState.rank : ClientState → ℕ
  | .connecting => 0
  | .open => 1
  | .closed => 2

namespace Link

variable {s : Link} {id : SocketId} {e e' : ClientEnd} {act : LinkAct}

def sentOn (s : Link) (id : SocketId) : List Wire :=
  ((s.gateway.sockets.lookup id).map TrackedSocket.sent).getD []

/-- What can happen on the client's end of a socket, and to the client if it is its own. -/
inductive Handles (s : Link) (id : SocketId) (e : ClientEnd) :
    ClientEnd → (Realtime → Realtime) → Prop
  | opens : id ∈ s.gateway.sockets → e.readyState = .connecting →
      Handles s id e { e with readyState := .open } fun c => c.onopen id
  | message (w : Wire) : e.readyState = .open → (s.sentOn id)[e.read]? = some w →
      (∀ code, w ≠ .close code) →
      Handles s id e { e with read := e.read + 1 } fun c => c.onmessage w
  | close (code : ℕ) : e.readyState ≠ .closed →
      Handles s id e { e with readyState := .closed } fun c => c.onclose code

/-- What may make a socket, and tells the client nothing. -/
structure Makes (c : Realtime) (f : Option SocketId → Realtime) : Prop where
  event : ∀ created, ∃ e, f created = c.event e
  calls : ∀ created, (f created).calls = c.calls
  ws : ∀ created id, (f created).ws = some id → c.ws = some id ∨ created = some id

theorem makes_timerFires (c : Realtime) : Makes c c.timerFires where
  event created := ⟨.timer created, rfl⟩
  calls created := by
    rw [Realtime.timerFires]
    split_ifs
    · exact Realtime.connect_calls _ created
    · rfl
  ws created id h := by
    rw [Realtime.timerFires] at h
    split_ifs at h
    · exact Realtime.ws_of_connect (c := { c with reconnectTimer := none }) h
    · exact .inl h

theorem makes_foreground (c : Realtime) (lost : Bool) : Makes c (c.foreground lost) where
  event created := ⟨.foreground lost created, rfl⟩
  calls created := by
    rw [Realtime.foreground]
    split_ifs
    · exact Realtime.connect_calls _ created
    · rfl
  ws created id h := by
    rw [Realtime.foreground] at h
    split_ifs at h
    · exact Realtime.ws_of_connect (c := { c with attempts := 0 }) h
    · exact .inl h

theorem step_cases (s : Link) (act : LinkAct) :
    s.step act = s ∨ (∃ a, act = .gateway a ∧ s.step act = { s with gateway := s.gateway.step a }) ∨
      (∃ id e e' f, s.ends.lookup id = some e ∧ Handles s id e e' f ∧
        s.step act = s.handled id e' f) ∨
      (∃ f created, Makes s.client f ∧ s.step act = s.creates f created) ∨
      s.step act = { s with client := s.client.unmount } := by
  cases act with
  | gateway a => exact .inr (.inl ⟨a, rfl, rfl⟩)
  | timerFires created =>
      exact .inr (.inr (.inr (.inl ⟨_, created, makes_timerFires s.client, rfl⟩)))
  | foreground created =>
      exact .inr (.inr (.inr (.inl ⟨_, created, makes_foreground s.client s.lost, rfl⟩)))
  | unmount => exact .inr (.inr (.inr (.inr rfl)))
  | opens id =>
      rw [step, opens]
      split
      · next e ws he hws =>
          split_ifs with hconnecting
          · exact .inr (.inr (.inl ⟨id, e, _, _, he,
              .opens (Table.mem_iff_exists.mpr ⟨ws, hws⟩) hconnecting, rfl⟩))
          · exact .inl rfl
      · exact .inl rfl
  | delivers id =>
      rw [step, delivers]
      split
      · next e ws he hws =>
          have hsent : s.sentOn id = ws.sent := by
            rw [sentOn, hws]
            rfl
          split_ifs with hopen
          · split
            · exact .inl rfl
            · next code hread =>
                refine .inr (.inr (.inl ⟨id, e, _, _, he, .close code ?_, rfl⟩))
                rw [hopen]
                exact fun h => by cases h
            · next w hclose hread =>
                refine .inr (.inr (.inl ⟨id, e, _, _, he, .message w hopen ?_ ?_, rfl⟩))
                · rw [hsent, hread]
                · rintro code rfl
                  exact hclose code rfl
          · exact .inl rfl
      · exact .inl rfl
  | drops id =>
      rw [step, drops]
      split
      · next e he =>
          split_ifs with hclosed
          · exact .inl rfl
          · exact .inr (.inr (.inl ⟨id, e, _, _, he, .close 1006 hclosed, rfl⟩))
      · exact .inl rfl

theorem handled_client (s : Link) (id : SocketId) (e : ClientEnd) (f : Realtime → Realtime) :
    (s.handled id e f).client = if s.client.ws = some id then f s.client else s.client := by
  unfold handled
  dsimp only
  split_ifs <;> rfl

theorem handled_ends (s : Link) (id : SocketId) (e : ClientEnd) (f : Realtime → Realtime) :
    (s.handled id e f).ends = s.ends.replace id e := by
  unfold handled
  dsimp only
  split_ifs <;> rfl

theorem handled_gateway (s : Link) (id : SocketId) (e : ClientEnd) (f : Realtime → Realtime) :
    (s.handled id e f).gateway = s.gateway := by
  unfold handled
  dsimp only
  split_ifs <;> rfl

theorem creates_gateway (s : Link) (f : Option SocketId → Realtime) (created : Option SocketId) :
    (s.creates f created).gateway = s.gateway := by
  unfold creates
  split
  · rfl
  · split_ifs <;> rfl

/-- The socket is a new one, if one is made. -/
theorem creates_cases (s : Link) (f : Option SocketId → Realtime) (created : Option SocketId) :
    ((∃ id, created = some id ∧ id ∈ s.ends) ∧ s.creates f created = s) ∨
      ((s.creates f created).client = f created ∧ (∀ id, created = some id → id ∉ s.ends) ∧
        ((s.creates f created).ends = s.ends ∧ (∀ id, created = some id → (f created).ws ≠ some id) ∨
          ∃ id, created = some id ∧ (f created).ws = some id ∧
            (s.creates f created).ends = s.ends.put id {})) := by
  cases created with
  | none => exact .inr ⟨rfl, fun _ h => (by cases h), .inl ⟨rfl, fun _ h => by cases h⟩⟩
  | some id =>
      unfold creates
      by_cases hold : id ∈ s.ends
      · exact .inl ⟨⟨id, rfl, hold⟩, if_pos hold⟩
      · refine .inr ?_
        simp only [if_neg hold]
        refine ⟨trivial, ?_, ?_⟩
        · intro id' h
          obtain rfl := Option.some.inj h
          exact hold
        · by_cases hws : (f (some id)).ws = some id
          · exact .inr ⟨id, rfl, hws, if_pos hws⟩
          · refine .inl ⟨if_neg hws, ?_⟩
            intro id' h
            obtain rfl := Option.some.inj h
            exact hws

theorem client_step (s : Link) (act : LinkAct) :
    (s.step act).client = s.client ∨ ∃ e, (s.step act).client = s.client.event e := by
  obtain h | ⟨a, -, h⟩ | ⟨id, e, e', f, -, hf, h⟩ | ⟨f, created, hf, h⟩ | h := s.step_cases act
  · exact .inl (by rw [h])
  · exact .inl (by rw [h])
  · rw [h, handled_client]
    cases hf with
    | opens => exact .inr ⟨.opens id, rfl⟩
    | message w => exact .inr ⟨.message id w, rfl⟩
    | close code => exact .inr ⟨.close id code, rfl⟩
  · rw [h]
    obtain ⟨-, hsame⟩ | ⟨hclient, -⟩ := s.creates_cases f created
    · exact .inl (by rw [hsame])
    · rw [hclient]
      exact .inr (hf.event created)
  · exact .inr ⟨.unmount, by rw [h]; rfl⟩

abbrev after (created : Option SocketId) (acts : List LinkAct) : Link :=
  runFrom Link.step (mounted created) acts

theorem alive_mounted (created : Option SocketId) : (mounted created).client.Alive := by
  have hblank (created : Option SocketId) : (Realtime.connect {} created).Alive :=
    Realtime.Alive.connect (c := {}) (fun _ h => by cases h) (fun h => by cases h)
      (Nat.le_refl 0) created
  obtain ⟨⟨id, -, hold⟩, -⟩ | ⟨hclient, -⟩ := creates_cases {} (Realtime.connect {}) created
  · obtain ⟨e, he⟩ := Table.mem_iff_exists.mp hold
    cases he
  · rw [mounted, hclient]
    exact hblank created

theorem alive_run {s : Link} (hs : s.client.Alive) (acts : List LinkAct) :
    (runFrom Link.step s acts).client.Alive := by
  refine Reachable.invariant (P := fun s => s.client.Alive) ?_ hs ((Reachable.refl s).run acts)
  intro s act hs
  obtain h | ⟨e, h⟩ := s.client_step act
  · rwa [h]
  · rw [h]
    exact hs.event e

theorem closed_run {s : Link} (hs : s.client.Alive) (hclosed : s.client.closed = true)
    (acts : List LinkAct) :
    (runFrom Link.step s acts).client.closed = true ∧
      (runFrom Link.step s acts).client.calls = s.client.calls := by
  refine runFrom_history (P := fun _ (t : Link) => t.client.closed = true ∧
    t.client.calls = s.client.calls) ⟨hclosed, rfl⟩ ?_ acts
  rintro acts act ⟨hclosed, hcalls⟩
  obtain h | ⟨e, h⟩ := (runFrom Link.step s acts).client_step act
  · rw [h]
    exact ⟨hclosed, hcalls⟩
  · rw [h]
    have hevent := (alive_run hs acts).event_closed hclosed e
    exact ⟨hevent.1, hevent.2.trans hcalls⟩

/-! ## What the client hears on one socket -/

theorem gateway_step (s : Link) (act : LinkAct) :
    (s.step act).gateway = act.gateway?.elim s.gateway s.gateway.step := by
  cases act with
  | gateway a => rfl
  | timerFires created => exact s.creates_gateway _ created
  | foreground created => exact s.creates_gateway _ created
  | unmount => rfl
  | opens id =>
      rw [step, opens]
      split
      · split_ifs
        · exact s.handled_gateway _ _ _
        · rfl
      · rfl
  | delivers id =>
      rw [step, delivers]
      split
      · split_ifs
        · split
          · rfl
          · exact s.handled_gateway _ _ _
          · exact s.handled_gateway _ _ _
        · rfl
      · rfl
  | drops id =>
      rw [step, drops]
      split
      · split_ifs
        · rfl
        · exact s.handled_gateway _ _ _
      · rfl

theorem gateway_run (s : Link) (acts : List LinkAct) :
    (runFrom Link.step s acts).gateway =
      runFrom Gateway.step s.gateway (acts.filterMap LinkAct.gateway?) := by
  induction acts generalizing s with
  | nil => rfl
  | cons act acts ih =>
      refine (ih (s.step act)).trans ?_
      rw [gateway_step]
      cases act <;> rfl

theorem Handles.rank_le {f : Realtime → Realtime} (h : Handles s id e e' f) :
    e.readyState.rank ≤ e'.readyState.rank ∧ e.read ≤ e'.read := by
  cases h with
  | opens hthere hconnecting =>
      rw [hconnecting]
      exact ⟨Nat.zero_le _, Nat.le_refl _⟩
  | message w => exact ⟨Nat.le_refl _, Nat.le_succ _⟩
  | close code hopen =>
      refine ⟨?_, Nat.le_refl _⟩
      show e.readyState.rank ≤ 2
      cases e.readyState <;> decide

theorem Handles.ws_of {f : Realtime → Realtime} (h : Handles s id e e' f) {c : Realtime}
    {id' : SocketId} (hws : (f c).ws = some id') : c.ws = some id' := by
  cases h with
  | opens => rwa [Realtime.onopen_ws] at hws
  | message w => exact (Realtime.onmessage_of_ws hws).1
  | close code =>
      rw [Realtime.onclose_ws] at hws
      cases hws

/-- What becomes of the end of a socket, and of the client if the socket is its own. -/
theorem ends_step (he : s.ends.lookup id = some e) (act : LinkAct) :
    ((s.step act).ends.lookup id = some e ∧
        (s.client.ws = some id → (s.step act).client.calls = s.client.calls)) ∨
      ∃ e' f, Handles s id e e' f ∧ s.step act = s.handled id e' f ∧
        (s.step act).ends.lookup id = some e' := by
  obtain h | ⟨a, -, h⟩ | ⟨id', e₀, e', f, he₀, hf, h⟩ | ⟨f, created, hf, h⟩ | h :=
    s.step_cases act
  · exact .inl (by rw [h]; exact ⟨he, fun _ => rfl⟩)
  · exact .inl (by rw [h]; exact ⟨he, fun _ => rfl⟩)
  · have hlookup : (s.step act).ends.lookup id = if id = id' then some e' else some e := by
      rw [h, handled_ends, Table.lookup_replace he₀, he]
    by_cases hsame : id = id'
    · subst hsame
      obtain rfl := Option.some.inj (he₀.symm.trans he)
      rw [if_pos rfl] at hlookup
      exact .inr ⟨e', f, hf, h, hlookup⟩
    · rw [if_neg hsame] at hlookup
      refine .inl ⟨hlookup, fun hws => ?_⟩
      rw [h, handled_client, if_neg]
      rw [hws]
      exact fun h => hsame (Option.some.inj h)
  · rw [h]
    obtain ⟨-, hsame⟩ | ⟨hclient, hnew, ⟨hends, -⟩ | ⟨id', hcreated, -, hends⟩⟩ :=
      s.creates_cases f created
    · rw [hsame]
      exact .inl ⟨he, fun _ => rfl⟩
    · rw [hends, hclient]
      exact .inl ⟨he, fun _ => hf.calls created⟩
    · rw [hends, hclient, Table.lookup_put, if_neg]
      · exact .inl ⟨he, fun _ => hf.calls created⟩
      · rintro rfl
        exact hnew id hcreated (Table.mem_iff_exists.mpr ⟨e, he⟩)
  · exact .inl (by rw [h]; exact ⟨he, fun _ => rfl⟩)

theorem ends_new (hnew : s.ends.lookup id = none)
    (he' : (s.step act).ends.lookup id = some e') : e' = {} := by
  have hsame {ends : Table SocketId ClientEnd} (hends : (s.step act).ends = ends)
      (hnone : ends.lookup id = none) : e' = {} := by
    rw [hends, hnone] at he'
    cases he'
  obtain h | ⟨a, -, h⟩ | ⟨id', e₀, e₁, f, he₀, hf, h⟩ | ⟨f, created, hf, h⟩ | h :=
    s.step_cases act
  · exact hsame (by rw [h]) hnew
  · exact hsame (by rw [h]) hnew
  · refine hsame (by rw [h, handled_ends]) ?_
    rw [Table.lookup_replace he₀, if_neg, hnew]
    rintro rfl
    rw [hnew] at he₀
    cases he₀
  · obtain ⟨-, hold⟩ | ⟨-, -, ⟨hends, -⟩ | ⟨id', -, -, hends⟩⟩ := s.creates_cases f created
    · exact hsame (by rw [h, hold]) hnew
    · exact hsame (by rw [h, hends]) hnew
    · rw [h, hends, Table.lookup_put, hnew] at he'
      split_ifs at he'
      exact (Option.some.inj he').symm
  · exact hsame (by rw [h]) hnew

theorem ws_step (hws : (s.step act).client.ws = some id) :
    s.client.ws = some id ∨ id ∉ s.ends := by
  obtain h | ⟨a, -, h⟩ | ⟨id', e₀, e', f, he₀, hf, h⟩ | ⟨f, created, hf, h⟩ | h :=
    s.step_cases act
  · rw [h] at hws
    exact .inl hws
  · rw [h] at hws
    exact .inl hws
  · rw [h, handled_client] at hws
    split_ifs at hws
    · exact .inl (hf.ws_of hws)
    · exact .inl hws
  · rw [h] at hws
    obtain ⟨-, hsame⟩ | ⟨hclient, hnew, -⟩ := s.creates_cases f created
    · rw [hsame] at hws
      exact .inl hws
    · rw [hclient] at hws
      exact (hf.ws created id hws).imp_right (hnew id)
  · rw [h] at hws
    cases hws

theorem client_mono_run (s : Link) (acts : List LinkAct) :
    s.client.calls <+: (runFrom Link.step s acts).client.calls ∧
      (s.client.everConnected = true →
        (runFrom Link.step s acts).client.everConnected = true) := by
  refine runFrom_history (P := fun _ (t : Link) => s.client.calls <+: t.client.calls ∧
    (s.client.everConnected = true → t.client.everConnected = true))
    ⟨List.prefix_rfl, fun h => h⟩ ?_ acts
  rintro acts act ⟨hcalls, hever⟩
  obtain h | ⟨e, h⟩ := (runFrom Link.step s acts).client_step act
  · rw [h]
    exact ⟨hcalls, hever⟩
  · rw [h]
    have hmono := (runFrom Link.step s acts).client.event_mono e
    exact ⟨hcalls.trans hmono.1, fun h => hmono.2 (hever h)⟩

theorem ends_run (he : s.ends.lookup id = some e) (acts : List LinkAct) :
    ∃ e', (runFrom Link.step s acts).ends.lookup id = some e' ∧
      e.readyState.rank ≤ e'.readyState.rank ∧ e.read ≤ e'.read := by
  induction acts generalizing s e with
  | nil => exact ⟨e, he, Nat.le_refl _, Nat.le_refl _⟩
  | cons act acts ih =>
      obtain ⟨hsame, -⟩ | ⟨e₁, f, hf, -, he₁⟩ := ends_step he act
      · exact ih hsame
      · obtain ⟨e', he', hrank, hread⟩ := ih he₁
        exact ⟨e', he', hf.rank_le.1.trans hrank, hf.rank_le.2.trans hread⟩

/-- The socket is the client's and is open at its end. -/
structure Connected (s : Link) (id : SocketId) (e : ClientEnd) : Prop where
  own : s.client.ws = some id
  lookup : s.ends.lookup id = some e
  is_open : e.readyState = .open

/-- A connection that goes on was one before, or the client has just been told of it. -/
theorem Connected.step_cases (h : Connected (s.step act) id e') :
    (∃ e, Connected s id e ∧
      (e' = e ∧ (s.step act).client.calls = s.client.calls ∨
        ∃ w, (s.sentOn id)[e.read]? = some w ∧ e'.read = e.read + 1 ∧
          (s.step act).client.calls = s.client.calls ++ Realtime.heard w)) ∨
      (∃ e, s.ends.lookup id = some e ∧ e.readyState = .connecting ∧ e'.read = e.read ∧
        (s.step act).client.calls =
          s.client.calls ++ if s.client.everConnected then [.onReconnect] else []) := by
  cases he : s.ends.lookup id with
  | none =>
      have hopen := h.is_open
      rw [ends_new he h.lookup] at hopen
      cases hopen
  | some e =>
      have hown : s.client.ws = some id :=
        (ws_step h.own).resolve_right (not_not.mpr (Table.mem_iff_exists.mpr ⟨e, he⟩))
      obtain ⟨hsame, hcalls⟩ | ⟨e₁, f, hf, hstep, he₁⟩ := ends_step he act
      · obtain rfl := Option.some.inj (hsame.symm.trans h.lookup)
        exact .inl ⟨e, ⟨hown, he, h.is_open⟩, .inl ⟨rfl, hcalls hown⟩⟩
      · obtain rfl := Option.some.inj (he₁.symm.trans h.lookup)
        have hclient : (s.step act).client = f s.client := by
          rw [hstep, handled_client, if_pos hown]
        have hws := h.own
        rw [hclient] at hws ⊢
        cases hf with
        | opens _ hconnecting =>
            exact .inr ⟨e, rfl, hconnecting, rfl, s.client.onopen_calls id⟩
        | message w hopen hread =>
            exact .inl ⟨e, ⟨hown, he, hopen⟩,
              .inr ⟨w, hread, rfl, (Realtime.onmessage_of_ws hws).2⟩⟩
        | close code => cases h.is_open

theorem sentOn_step (hg : s.gateway.Tidy) (id : SocketId) (act : LinkAct) :
    s.sentOn id <+: (s.step act).sentOn id := by
  rw [sentOn, sentOn, gateway_step]
  cases hact : act.gateway? with
  | none => exact List.prefix_rfl
  | some a =>
      cases hws : s.gateway.sockets.lookup id with
      | none => exact List.nil_prefix
      | some ws =>
          rw [Option.elim_some, Gateway.lookup_step hg hws]
          exact s.gateway.sent_prefix_socketStep id ws a

/-- What holds of the two ends of the sockets. -/
structure Joined (s : Link) : Prop where
  tidy : s.gateway.Tidy
  there : ∀ id e, s.ends.lookup id = some e → e.readyState = .open → id ∈ s.gateway.sockets
  reads : ∀ id e, s.ends.lookup id = some e → e.read ≤ (s.sentOn id).length
  unread : ∀ id e, s.ends.lookup id = some e → e.readyState = .connecting → e.read = 0

theorem tidy_step (hg : s.gateway.Tidy) (act : LinkAct) : (s.step act).gateway.Tidy := by
  rw [gateway_step]
  cases act.gateway? with
  | none => exact hg
  | some a => exact hg.step a

theorem mem_sockets_step (hg : s.gateway.Tidy) (h : id ∈ s.gateway.sockets) (act : LinkAct) :
    id ∈ (s.step act).gateway.sockets := by
  obtain ⟨ws, hws⟩ := Table.mem_iff_exists.mp h
  rw [gateway_step]
  cases act.gateway? with
  | none => exact h
  | some a => exact Table.mem_iff_exists.mpr ⟨_, Gateway.lookup_step hg hws a⟩

theorem Joined.step (hs : s.Joined) (act : LinkAct) : (s.step act).Joined where
  tidy := tidy_step hs.tidy act
  there id e' he' hopen := by
    cases he : s.ends.lookup id with
    | none =>
        rw [ends_new he he'] at hopen
        cases hopen
    | some e =>
        refine mem_sockets_step hs.tidy ?_ act
        obtain ⟨hsame, -⟩ | ⟨e₁, f, hf, -, he₁⟩ := ends_step he act
        · obtain rfl := Option.some.inj (hsame.symm.trans he')
          exact hs.there id e he hopen
        · obtain rfl := Option.some.inj (he₁.symm.trans he')
          cases hf with
          | opens hthere => exact hthere
          | message w hwas => exact hs.there id e he hwas
          | close code => cases hopen
  reads id e' he' := by
    have hlength := (sentOn_step hs.tidy id act).length_le
    cases he : s.ends.lookup id with
    | none =>
        rw [ends_new he he']
        exact Nat.zero_le _
    | some e =>
        have hwas := hs.reads id e he
        obtain ⟨hsame, -⟩ | ⟨e₁, f, hf, -, he₁⟩ := ends_step he act
        · obtain rfl := Option.some.inj (hsame.symm.trans he')
          exact hwas.trans hlength
        · obtain rfl := Option.some.inj (he₁.symm.trans he')
          cases hf with
          | opens => exact hwas.trans hlength
          | message w hopen hread =>
              have hlt := (List.getElem?_eq_some_iff.mp hread).1
              exact hlt.trans_le hlength
          | close code => exact hwas.trans hlength
  unread id e' he' hconnecting := by
    cases he : s.ends.lookup id with
    | none => rw [ends_new he he']
    | some e =>
        obtain ⟨hsame, -⟩ | ⟨e₁, f, hf, -, he₁⟩ := ends_step he act
        · obtain rfl := Option.some.inj (hsame.symm.trans he')
          exact hs.unread id e he hconnecting
        · obtain rfl := Option.some.inj (he₁.symm.trans he')
          cases hf with
          | opens => cases hconnecting
          | message w hopen =>
              rw [show e.readyState = .connecting from hconnecting] at hopen
              cases hopen
          | close code => cases hconnecting

theorem joined_mounted (created : Option SocketId) : (mounted created).Joined := by
  have hgateway : (mounted created).gateway = {} := creates_gateway _ _ created
  have hblank (id : SocketId) (e : ClientEnd) (he : (mounted created).ends.lookup id = some e) :
      e = {} := by
    obtain ⟨⟨id', -, hold⟩, -⟩ | ⟨-, -, ⟨hends, -⟩ | ⟨id', -, -, hends⟩⟩ :=
      creates_cases {} (Realtime.connect {}) created
    · obtain ⟨e', he'⟩ := Table.mem_iff_exists.mp hold
      cases he'
    · rw [mounted, hends] at he
      cases he
    · rw [mounted, hends, Table.lookup_put] at he
      split_ifs at he
      · exact (Option.some.inj he).symm
      · cases he
  refine ⟨hgateway ▸ Gateway.Tidy.empty, ?_, ?_, ?_⟩
  · intro id e he hopen
    rw [hblank id e he] at hopen
    cases hopen
  · intro id e he
    rw [hblank id e he]
    exact Nat.zero_le _
  · intro id e he _
    rw [hblank id e he]

theorem joined_after (created : Option SocketId) (acts : List LinkAct) :
    (after created acts).Joined :=
  Reachable.invariant (fun _ act hs => hs.step act) (joined_mounted created)
    ((Reachable.refl _).run acts)

/-- While the connection lasts the client is told, in order, of what it reads on the socket. -/
theorem connected_run (hs : s.Joined) {acts : List LinkAct} (he : s.ends.lookup id = some e)
    (hopen : e.readyState = .open) (h : Connected (runFrom Link.step s acts) id e') :
    (runFrom Link.step s acts).client.calls = s.client.calls ++
      ((((runFrom Link.step s acts).sentOn id).take e'.read).drop e.read).flatMap
        Realtime.heard := by
  induction acts using List.reverseRecOn generalizing e' with
  | nil =>
      obtain rfl := Option.some.inj (he.symm.trans h.lookup)
      rw [List.drop_eq_nil_of_le (List.length_take_le _ _)]
      exact (List.append_nil _).symm
  | append_singleton acts act ih =>
      rw [runFrom_append] at h ⊢
      have ht : (runFrom Link.step s acts).Joined :=
        Reachable.invariant (fun _ act hs => hs.step act) hs ((Reachable.refl s).run acts)
      obtain ⟨e₁, he₁, hrank, hread⟩ := ends_run he acts
      obtain ⟨new, hnew⟩ := sentOn_step ht.tidy id act
      obtain ⟨e₂, hwas, hstep⟩ | ⟨e₂, he₂, hconnecting, -⟩ := h.step_cases
      · obtain rfl := Option.some.inj (he₁.symm.trans hwas.lookup)
        have hreads := ht.reads id e₁ he₁
        have hcalls := ih hwas
        show ((runFrom Link.step s acts).step act).client.calls = s.client.calls ++
          ((((runFrom Link.step s acts).step act).sentOn id).take e'.read |>.drop
            e.read).flatMap Realtime.heard
        rw [← hnew]
        obtain ⟨rfl, hsame⟩ | ⟨w, hw, hnext, hheard⟩ := hstep
        · rw [hsame, hcalls, List.take_append_of_le_length hreads]
        · have hlt := (List.getElem?_eq_some_iff.mp hw).1
          rw [hheard, hcalls, hnext, List.take_append_of_le_length hlt, List.take_add_one, hw,
            List.drop_append_of_le_length, List.flatMap_append, List.append_assoc]
          · rw [Option.toList_some, List.flatMap_singleton]
          · rw [List.length_take, min_eq_left hreads]
            exact hread
      · obtain rfl := Option.some.inj (he₁.symm.trans he₂)
        rw [hopen, hconnecting] at hrank
        cases hrank

theorem reconnected_run {acts : List LinkAct}
    (hnot : ¬∃ e, s.ends.lookup id = some e ∧ e.readyState = .open)
    (hever : s.client.everConnected = true) (h : Connected (runFrom Link.step s acts) id e') :
    ∃ calls, (runFrom Link.step s acts).client.calls = s.client.calls ++ calls ∧
      .onReconnect ∈ calls := by
  induction acts using List.reverseRecOn generalizing e' with
  | nil => exact absurd ⟨e', h.lookup, h.is_open⟩ hnot
  | append_singleton acts act ih =>
      rw [runFrom_append] at h ⊢
      obtain ⟨e, hwas, -⟩ | ⟨e, -, -, -, htold⟩ := h.step_cases
      · obtain ⟨calls, hcalls, hmem⟩ := ih hwas
        obtain ⟨later, hlater⟩ := (client_mono_run (runFrom Link.step s acts) [act]).1
        refine ⟨calls ++ later, ?_, List.mem_append_left _ hmem⟩
        rw [← hlater, hcalls, List.append_assoc]
      · obtain ⟨⟨calls, hcalls⟩, hstill⟩ := client_mono_run s acts
        refine ⟨calls ++ [.onReconnect], ?_, List.mem_append_right _ (List.mem_singleton_self _)⟩
        show ((runFrom Link.step s acts).step act).client.calls = _
        rw [htold, if_pos (hstill hever), ← hcalls, List.append_assoc]

theorem mem_of_hint {sent : List Wire} {event : WsEventName} {data : String} {ts : Time}
    (h : (event, data, ts) ∈ sent.filterMap Wire.hint?) : .frame event data ts ∈ sent := by
  obtain ⟨w, hw, hhint⟩ := List.mem_filterMap.mp h
  cases w with
  | frame event' data' ts' =>
      obtain ⟨rfl, rfl, rfl⟩ := hhint
      exact hw
  | pong => cases hhint
  | ping => cases hhint
  | close code => cases hhint

/-- A client whose connection lasts is told of each frame for its user. -/
theorem told_run (hs : s.Joined) {frame : OutboundFrame} {now : Time} {more : List LinkAct}
    {e₀ : ClientEnd} {ws : TrackedSocket} (he₀ : s.ends.lookup id = some e₀)
    (hopen₀ : e₀.readyState = .open)
    (h : Connected (runFrom Link.step s
      (.gateway (.published WS_CHANNEL (some frame) now) :: more)) id e)
    (hws : (runFrom Link.step s (.gateway (.published WS_CHANNEL (some frame) now) ::
      more)).gateway.sockets.lookup id = some ws)
    (huser : ws.userId = some frame.userId) (hopen : ws.readyState = .open)
    (hread : e.read = ws.sent.length) :
    ∃ calls, (runFrom Link.step s (.gateway (.published WS_CHANNEL (some frame) now) ::
        more)).client.calls = s.client.calls ++ calls ∧
      .onFrame (.frame frame.event frame.data now) ∈ calls := by
  have hcalls := connected_run hs he₀ hopen₀ h
  refine ⟨_, hcalls, ?_⟩
  obtain ⟨ws₀, hws₀⟩ := Table.mem_iff_exists.mp (hs.there id e₀ he₀ hopen₀)
  obtain ⟨ws', rest, hws', -, hsent, hrest⟩ := Gateway.sent_run hs.tidy hws₀
    ((.gateway (.published WS_CHANNEL (some frame) now) :: more).filterMap LinkAct.gateway?)
  have hreads := hs.reads id e₀ he₀
  rw [sentOn, hws₀, Option.map_some, Option.getD_some] at hreads
  rw [← gateway_run, hws] at hws'
  obtain rfl := Option.some.inj hws'
  obtain ⟨-, hhints, hclean⟩ := hrest huser hopen
  have hhint : (frame.event, frame.data, now) ∈ hintsFor frame.userId
      ((.gateway (.published WS_CHANNEL (some frame) now) :: more).filterMap
        LinkAct.gateway?) := by
    refine List.mem_append_left _ ?_
    rw [GatewayAct.hintsFor, if_pos ⟨rfl, rfl⟩]
    exact List.mem_singleton_self _
  have hmem : .frame frame.event frame.data now ∈ rest := mem_of_hint (hhints ▸ hhint)
  have hheard : Realtime.heard (.frame frame.event frame.data now) =
      [.onFrame (.frame frame.event frame.data now)] := by
    have hevent := hclean _ hhint
    unfold Realtime.heard
    split <;> simp_all
  refine List.mem_flatMap.mpr ⟨.frame frame.event frame.data now, ?_, ?_⟩
  · rw [sentOn, hws, Option.map_some, Option.getD_some, hread, List.take_length, hsent,
      List.drop_append_of_le_length hreads]
    exact List.mem_append_right _ hmem
  · rw [hheard]
    exact List.mem_singleton_self _

/-- Where a connection has begun. -/
theorem connected_since {created : Option SocketId} {acts : List LinkAct}
    (h : Connected (after created acts) id e) :
    ∃ pre post e₀, acts = pre ++ post ∧ Connected (after created pre) id e₀ ∧ e₀.read = 0 ∧
      ∃ before act, pre = before ++ [act] ∧ (after created pre).client.calls =
        (after created before).client.calls ++
          if (after created before).client.everConnected then [.onReconnect] else [] := by
  induction acts using List.reverseRecOn generalizing e with
  | nil =>
      obtain ⟨ws, hws⟩ :=
        Table.mem_iff_exists.mp ((joined_mounted created).there id e h.lookup h.is_open)
      rw [mounted, creates_gateway] at hws
      cases hws
  | append_singleton acts act ih =>
      have hlast : after created (acts ++ [act]) = (after created acts).step act :=
        runFrom_append _ acts [act]
      have hstep := h
      rw [hlast] at hstep
      obtain ⟨e₁, hwas, -⟩ | ⟨e₁, he₁, hconnecting, hread, hcalls⟩ := hstep.step_cases
      · obtain ⟨pre, post, e₀, rfl, hpre⟩ := ih hwas
        exact ⟨pre, post ++ [act], e₀, List.append_assoc _ _ _, hpre⟩
      · refine ⟨acts ++ [act], [], e, (List.append_nil _).symm, h, ?_, acts, act, rfl, ?_⟩
        · rw [hread]
          exact (joined_after created acts).unread id e₁ he₁ hconnecting
        · rw [hlast, hcalls]

end Link

open Link

/-- A client that has not been signed out or unmounted has a socket or a timer for the next
attempt, between one second and thirty ahead; it is told at most once that it is signed out; and
from then on it has no socket and is told nothing more. -/
theorem client_goes_on (created : Option SocketId) (acts more : List LinkAct) :
    let c := (after created acts).client
    (c.closed = false → c.ws.isSome ∨ c.reconnectTimer.isSome) ∧
      (∀ d, c.reconnectTimer = some d → 1000 ≤ d ∧ d ≤ 30000) ∧
      c.calls.count .onSessionRevoked ≤ 1 ∧
      (.onSessionRevoked ∈ c.calls → c.closed = true) ∧
      (c.closed = true → c.ws = none ∧ (after created (acts ++ more)).client.ws = none ∧
        (after created (acts ++ more)).client.calls = c.calls) := by
  have hc : (after created acts).client.Alive := alive_run (alive_mounted created) acts
  refine ⟨hc.goes_on, hc.delay, hc.revoked.trans (by split_ifs <;> omega), ?_, ?_⟩
  · intro hcalled
    by_contra hopen
    have hcount := hc.revoked
    rw [if_neg hopen] at hcount
    have hpos := List.count_pos_iff.mpr hcalled
    omega
  · intro hclosed
    have hmore := closed_run hc hclosed more
    rw [← runFrom_append] at hmore
    exact ⟨hc.silent hclosed,
      (alive_run (alive_mounted created) (acts ++ more)).silent hmore.1, hmore.2⟩

/-- On a connection the client has been told to refetch, unless it is its first, and then, in
order and once each, of all that it has read on the socket. -/
theorem connection_told {created : Option SocketId} {acts : List LinkAct} {id : SocketId}
    {e : ClientEnd} (h : Connected (after created acts) id e) :
    ∃ before act post, acts = before ++ act :: post ∧ (after created acts).client.calls =
      (after created before).client.calls ++
        (if (after created before).client.everConnected then [.onReconnect] else []) ++
          (((after created acts).sentOn id).take e.read).flatMap Realtime.heard := by
  obtain ⟨-, post, e₀, rfl, hpre, hread, before, act, rfl, htold⟩ := connected_since h
  refine ⟨before, act, post, by simp, ?_⟩
  rw [after, runFrom_append] at h ⊢
  rw [connected_run (joined_after created _) hpre.lookup hpre.is_open h, hread, List.drop_zero]
  rw [← htold]

/-- Of whatever Redis hands to the gateway for the user of a client that has been connected before,
while the gateway's end of the socket is open, the client has been told or has been told to refetch
since, once it is connected and has read all there is: frames may be lost, but none goes
unnoticed. -/
theorem connected_has_missed_nothing {created : Option SocketId} {acts more : List LinkAct}
    {frame : OutboundFrame} {now : Time} {id : SocketId} {e : ClientEnd} {ws : TrackedSocket}
    (hever : (after created acts).client.everConnected = true)
    (h : Connected (after created
      (acts ++ .gateway (.published WS_CHANNEL (some frame) now) :: more)) id e)
    (hws : (after created (acts ++ .gateway (.published WS_CHANNEL (some frame) now) ::
      more)).gateway.sockets.lookup id = some ws)
    (huser : ws.userId = some frame.userId) (hopen : ws.readyState = .open)
    (hread : e.read = ws.sent.length) :
    ∃ calls, (after created (acts ++ .gateway (.published WS_CHANNEL (some frame) now) ::
        more)).client.calls = (after created acts).client.calls ++ calls ∧
      (.onReconnect ∈ calls ∨ .onFrame (.frame frame.event frame.data now) ∈ calls) := by
  rw [after, runFrom_append] at h hws ⊢
  by_cases hwas : ∃ e₀, (after created acts).ends.lookup id = some e₀ ∧ e₀.readyState = .open
  · obtain ⟨e₀, he₀, hopen₀⟩ := hwas
    obtain ⟨calls, hcalls, htold⟩ :=
      told_run (joined_after created acts) he₀ hopen₀ h hws huser hopen hread
    exact ⟨calls, hcalls, .inr htold⟩
  · obtain ⟨calls, hcalls, htold⟩ := reconnected_run hwas hever h
    exact ⟨calls, hcalls, .inl htold⟩

namespace TwoPhones

def beforeNews : List LinkAct :=
  [.gateway (.upgrade 1 "/ws" (some 7)), .gateway (.handshake 1), .opens 1, .drops 1]

def afterNews : List LinkAct :=
  [.gateway (.closed 1), .timerFires (some 2), .gateway (.upgrade 2 "/ws" (some 7)),
    .gateway (.handshake 2), .opens 2]

def readsNews : List LinkAct :=
  [.gateway (.published WS_CHANNEL (some news) 10), .delivers 2]

end TwoPhones

open TwoPhones in
theorem connection_told_again : ∃ before act post,
    beforeNews ++ afterNews ++ readsNews = before ++ act :: post ∧
      (after (some 1) (beforeNews ++ afterNews ++ readsNews)).client.calls =
        (after (some 1) before).client.calls ++
          (if (after (some 1) before).client.everConnected then [.onReconnect] else []) ++
            (((after (some 1) (beforeNews ++ afterNews ++ readsNews)).sentOn 2).take 1).flatMap
              Realtime.heard :=
  @connection_told (some 1) _ 2 { readyState := .open, read := 1 } ⟨rfl, rfl, rfl⟩

open TwoPhones in
theorem connected_has_missed_nothing_again : ∃ calls,
    (after (some 1) (beforeNews ++ .gateway (.published WS_CHANNEL (some news) 10) ::
      afterNews)).client.calls = (after (some 1) beforeNews).client.calls ++ calls ∧
      (.onReconnect ∈ calls ∨ .onFrame (.frame news.event news.data 10) ∈ calls) :=
  connected_has_missed_nothing rfl ⟨rfl, rfl, rfl⟩ rfl rfl rfl rfl

end Sahay
