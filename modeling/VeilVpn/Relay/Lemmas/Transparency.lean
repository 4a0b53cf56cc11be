import VeilVpn.Noise.Lemmas.Macs
import VeilVpn.Relay.Impl.Relay

namespace Relay

def Message.data : Message → Option Bytes
  | .binary data => some data
  | .text _ => none
  | .ping _ => none
  | .pong _ => none
  | .close => none

def WsRead.data : WsRead → Option Bytes
  | .ok message => message.data
  | .timedOut => none
  | .error => none

def UdpRead.datagram : UdpRead → Option Bytes
  | .ok datagram _ => some datagram
  | .timedOut => none
  | .error => none

def inFlight (queue : List Message) : List Bytes :=
  queue.filterMap Message.data

@[simp]
theorem inFlight_nil : inFlight [] = [] := rfl

@[simp]
theorem inFlight_append (queue messages : List Message)
    : inFlight (queue ++ messages) = inFlight queue ++ inFlight messages := by
  simp [inFlight]

section Halves

variable {client wgAddr : SocketAddr} {clientAddr : Option SocketAddr}

theorem Arrival.inFlight_of_read {arrival : Arrival} {queue rest : List Message} {read : WsRead}
    (h : arrival.read queue = some (read, rest))
    : inFlight queue = read.data.toList ++ inFlight rest := by
  unfold Arrival.read at h
  split at h
  . simp at h
  . next message _ =>
    cases h
    cases message <;> rfl
  . cases h
    rfl
  . cases h
    rfl

theorem Bridge.fromUdp_spec {read : UdpRead} {sent : Bool}
    (hsrc : ∀ datagram src, read = .ok datagram src → src = client)
    (hcontinues : (Bridge.fromUdp clientAddr read sent).2.continues = true)
    : inFlight (Bridge.fromUdp clientAddr read sent).2.ws = (read.datagram.map recvFrom).toList
        ∧
      (Bridge.fromUdp clientAddr read sent).1
        = if read.datagram.isSome then some client else clientAddr := by
  cases read with
  | ok datagram src =>
    obtain rfl := hsrc datagram src rfl
    cases sent with
    | true => exact ⟨rfl, rfl⟩
    | false => cases hcontinues
  | timedOut => exact ⟨rfl, rfl⟩
  | error => cases hcontinues

theorem Bridge.fromWs_spec {read : WsRead} (hclient : read.data.isSome → clientAddr = some client)
    : (Bridge.fromWs clientAddr read true).udp = read.data.toList.map (·, client)
        ∧
      inFlight (Bridge.fromWs clientAddr read true).ws = [] := by
  cases read with
  | ok message =>
    cases message with
    | binary data =>
      rw [hclient rfl]
      exact ⟨rfl, rfl⟩
    | _ => exact ⟨rfl, rfl⟩
  | timedOut => exact ⟨rfl, rfl⟩
  | error => exact ⟨rfl, rfl⟩

theorem Proxy.fromWs_spec {read : WsRead} {sent : Bool}
    (hcontinues : (Proxy.fromWs wgAddr read sent).continues = true)
    : (Proxy.fromWs wgAddr read sent).udp = read.data.toList.map (·, wgAddr)
        ∧
      inFlight (Proxy.fromWs wgAddr read sent).ws = [] := by
  cases read with
  | ok message =>
    cases message with
    | binary data =>
      cases sent with
      | true => exact ⟨rfl, rfl⟩
      | false => cases hcontinues
    | ping payload => cases sent <;> exact ⟨rfl, rfl⟩
    | _ => exact ⟨rfl, rfl⟩
  | timedOut => exact ⟨rfl, rfl⟩
  | error => exact ⟨rfl, rfl⟩

theorem Proxy.fromUdp_spec {read : UdpRead} {sent : Bool}
    (hcontinues : (Proxy.fromUdp read sent).continues = true)
    : inFlight (Proxy.fromUdp read sent).ws = (read.datagram.map recvFrom).toList := by
  cases read with
  | ok datagram src =>
    cases sent with
    | true => rfl
    | false => cases hcontinues
  | timedOut => rfl
  | error => rfl

end Halves

section Steps

def Event.fromClient : Event → Option Bytes
  | .bridge _ udp _ _ _ => udp.datagram
  | .proxy .. => none
  | .inject .. => none
  | .reconnect => none

def Event.fromServer : Event → Option Bytes
  | .bridge .. => none
  | .proxy _ _ _ udp _ => udp.datagram
  | .inject .. => none
  | .reconnect => none

def Delivery.forServer (wgAddr : SocketAddr) : Delivery → Option Bytes
  | .toServer data dst => if dst = wgAddr then some data else none
  | .toClient _ _ => none

def Delivery.forClient (client : SocketAddr) : Delivery → Option Bytes
  | .toServer _ _ => none
  | .toClient data dst => if dst = client then some data else none

/--
Both loops keep running, the client stays where it is and what the bridge sends to it gets there.
-/
structure Healthy (client : SocketAddr) (t : Transition State Event Delivery) : Prop where
  bridge : t.after.bridge = true
  proxy : t.after.proxy = true
  client : ∀ shutdown datagram src wsSent ws udpSent,
    t.event = .bridge shutdown (.ok datagram src) wsSent ws udpSent → src = client
  udpSent : ∀ shutdown udp wsSent ws udpSent,
    t.event = .bridge shutdown udp wsSent ws udpSent → udpSent = true

structure Connected (client : SocketAddr) (s : State) : Prop where
  bridge : s.bridge = true
  proxy : s.proxy = true
  client : s.contacted = true ∨ inFlight s.up ≠ [] ∨ inFlight s.down ≠ [] →
    s.clientAddr = some client

theorem connected_start (client : SocketAddr) (clientAddr : Option SocketAddr)
    : Connected client (.start clientAddr) :=
  ⟨rfl, rfl, by simp [State.start]⟩

/--
What a step delivers and what is under way after it are what was under way before it and what is
received in it.
-/
structure Carries (client wgAddr : SocketAddr) (t : Transition State Event Delivery) : Prop where
  connected : Connected client t.after
  up : t.outputs.filterMap (Delivery.forServer wgAddr) ++ inFlight t.after.up
    = inFlight t.before.up ++ (t.event.fromClient.map recvFrom).toList
  down : t.outputs.filterMap (Delivery.forClient client) ++ inFlight t.after.down
    = inFlight t.before.down ++ (t.event.fromServer.map recvFrom).toList

variable {client wgAddr : SocketAddr} {s s' : State} {os : List Delivery}

theorem forServer_toServer (data : List Bytes)
    : ((data.map (·, wgAddr)).map fun sent => Delivery.toServer sent.1 sent.2).filterMap
        (Delivery.forServer wgAddr) = data := by
  simp [List.filterMap_map, Function.comp_def, Delivery.forServer]

theorem forClient_toServer (sent : List (Bytes × SocketAddr))
    : (sent.map fun sent => Delivery.toServer sent.1 sent.2).filterMap (Delivery.forClient client)
        = [] := by
  simp [List.filterMap_map, Function.comp_def, Delivery.forClient]

theorem forClient_toClient (data : List Bytes)
    : ((data.map (·, client)).map fun sent => Delivery.toClient sent.1 sent.2).filterMap
        (Delivery.forClient client) = data := by
  simp [List.filterMap_map, Function.comp_def, Delivery.forClient]

theorem forServer_toClient (sent : List (Bytes × SocketAddr))
    : (sent.map fun sent => Delivery.toClient sent.1 sent.2).filterMap (Delivery.forServer wgAddr)
        = [] := by
  simp [List.filterMap_map, Function.comp_def, Delivery.forServer]

theorem carries_bridge {udp : UdpRead} {wsSent udpSent : Bool} {ws : Arrival}
    (hconnected : Connected client s)
    (hstep : s.bridgeIteration udp wsSent ws udpSent = some (s', os))
    (hhealthy : Healthy client ⟨s, .bridge false udp wsSent ws udpSent, os, s'⟩)
    : Carries client wgAddr ⟨s, .bridge false udp wsSent ws udpSent, os, s'⟩ := by
  obtain rfl := hhealthy.udpSent _ _ _ _ _ rfl
  have hbridge := hhealthy.bridge
  unfold State.bridgeIteration at hstep
  dsimp only at hstep
  split at hstep
  . cases hstep
    cases hbridge
  . next hcontinues =>
    rw [Bool.not_eq_true, Bool.not_eq_false'] at hcontinues
    have hsrc : ∀ datagram src, udp = .ok datagram src → src = client := by
      intro datagram src heq
      exact hhealthy.client _ datagram src _ _ _ (by rw [heq])
    obtain ⟨hws, hclientAddr⟩ := Bridge.fromUdp_spec hsrc hcontinues
    have hclient (h : udp.datagram.isSome ∨ s.contacted = true ∨ inFlight s.up ≠ []
        ∨ inFlight s.down ≠ [])
        : (Bridge.fromUdp s.clientAddr udp wsSent).1 = some client := by
      rw [hclientAddr]
      rcases h with h | h
      . rw [if_pos h]
      . rw [hconnected.client h, ite_self]
    split at hstep
    . simp at hstep
    . next read down hread =>
      have hdown := Arrival.inFlight_of_read hread
      have hfound (h : read.data.isSome) : inFlight s.down ≠ [] := by
        rw [hdown]
        cases hdata : read.data with
        | none => simp [hdata] at h
        | some data => simp
      have hknown (h : read.data.isSome) : (Bridge.fromUdp s.clientAddr udp wsSent).1 = some client :=
        hclient (.inr (.inr (.inr (hfound h))))
      obtain ⟨hudp, hpong⟩ := Bridge.fromWs_spec hknown
      split at hstep
      . cases hstep
        rw [hudp]
        refine ⟨⟨hconnected.bridge, hconnected.proxy, ?_⟩, ?_, ?_⟩
        . intro h
          apply hclient
          rcases h with h | h | h
          . exact .inr (.inl h)
          . rw [inFlight_append, inFlight_append, hws, hpong, List.append_nil] at h
            cases hdatagram : udp.datagram with
            | none =>
              rw [hdatagram] at h
              exact .inr (.inr (.inl (by simpa using h)))
            | some datagram => exact .inl rfl
          . rw [hdown]
            exact .inr (.inr (.inr (List.append_ne_nil_of_right_ne_nil _ h)))
        . rw [forServer_toClient, inFlight_append, inFlight_append, hws, hpong]
          simp [Event.fromClient]
        . rw [forClient_toClient, hdown]
          simp [Event.fromServer]
      . cases hstep
        cases hbridge

theorem carries_proxy {udp : UdpRead} {wsSent udpSent : Bool} {ws : Arrival}
    (hconnected : Connected client s)
    (hstep : s.proxyIteration wgAddr ws udpSent udp wsSent = some (s', os))
    (hhealthy : Healthy client ⟨s, .proxy false ws udpSent udp wsSent, os, s'⟩)
    : Carries client wgAddr ⟨s, .proxy false ws udpSent udp wsSent, os, s'⟩ := by
  have hproxy := hhealthy.proxy
  unfold State.proxyIteration at hstep
  split at hstep
  . simp at hstep
  . next read up hread =>
    have hup := Arrival.inFlight_of_read hread
    dsimp only at hstep
    split at hstep
    . cases hstep
      cases hproxy
    . next hcontinues =>
      rw [Bool.not_eq_true, Bool.not_eq_false'] at hcontinues
      obtain ⟨hudp, hpong⟩ := Proxy.fromWs_spec hcontinues
      have hheard (h : (s.contacted || !(Proxy.fromWs wgAddr read udpSent).udp.isEmpty) = true)
          : s.contacted = true ∨ inFlight s.up ≠ [] ∨ inFlight s.down ≠ [] := by
        rw [Bool.or_eq_true, hudp] at h
        rcases h with h | h
        . exact .inl h
        . cases hdata : read.data with
          | none => simp [hdata] at h
          | some data => exact .inr (.inl (by simp [hup, hdata]))
      split at hstep
      . simp at hstep
      . next udp _ _ hcontacted =>
        split at hstep
        . next hcontinues' =>
          have hws := Proxy.fromUdp_spec hcontinues'
          cases hstep
          refine ⟨⟨hconnected.bridge, hconnected.proxy, ?_⟩, ?_, ?_⟩
          . intro h
            apply hconnected.client
            rcases h with h | h | h
            . exact hheard h
            . rw [hup]
              exact .inr (.inl (List.append_ne_nil_of_right_ne_nil _ h))
            . rw [inFlight_append, inFlight_append, hws, hpong, List.append_nil] at h
              cases udp with
              | ok datagram src =>
                apply hheard
                rw [← Bool.not_eq_false]
                exact hcontacted datagram src rfl
              | timedOut => exact .inr (.inr (by simpa [UdpRead.datagram] using h))
              | error => cases hcontinues'
          . rw [hudp, forServer_toServer, hup]
            simp [Event.fromClient]
          . rw [forClient_toServer, inFlight_append, inFlight_append, hws, hpong]
            simp [Event.fromServer]
        . cases hstep
          cases hproxy

theorem carries_of_step {e : Event} (hconnected : Connected client s)
    (hstep : State.step wgAddr s e = some (s', os)) (hhealthy : Healthy client ⟨s, e, os, s'⟩)
    : Carries client wgAddr ⟨s, e, os, s'⟩ := by
  have hbridge := hhealthy.bridge
  have hproxy := hhealthy.proxy
  unfold State.step at hstep
  split at hstep
  . next shutdown udp wsSent ws udpSent =>
    rw [hconnected.bridge] at hstep
    cases shutdown with
    | true =>
      cases hstep
      cases hbridge
    | false => exact carries_bridge hconnected hstep hhealthy
  . next shutdown ws udpSent udp wsSent =>
    rw [hconnected.proxy] at hstep
    cases shutdown with
    | true =>
      cases hstep
      cases hproxy
    | false => exact carries_proxy hconnected hstep hhealthy
  . next toProxy message =>
    have hnone : message.data = none := by
      cases message <;> first | rfl | simp at hstep
    have hempty : inFlight [message] = [] := by
      simp [inFlight, hnone]
    split at hstep
    . simp at hstep
    . cases toProxy with
      | true =>
        cases hstep
        refine ⟨⟨hconnected.bridge, hconnected.proxy, ?_⟩, ?_, ?_⟩
        . simpa [hempty] using hconnected.client
        . simp [hempty, Event.fromClient]
        . simp [Event.fromServer]
      | false =>
        cases hstep
        refine ⟨⟨hconnected.bridge, hconnected.proxy, ?_⟩, ?_, ?_⟩
        . simpa [hempty] using hconnected.client
        . simp [Event.fromClient]
        . simp [hempty, Event.fromServer]
  . rw [hconnected.bridge] at hstep
    simp at hstep

end Steps

section Run

variable {client wgAddr : SocketAddr} {clientAddr : Option SocketAddr} {s : State}
  {ts : List (Transition State Event Delivery)}

def fromClient (ts : List (Transition State Event Delivery)) : List Bytes :=
  ts.filterMap (·.event.fromClient)

def fromServer (ts : List (Transition State Event Delivery)) : List Bytes :=
  ts.filterMap (·.event.fromServer)

/--
In both directions everything is delivered or under way, and nothing else.
-/
structure Relays (f : Bytes → Bytes) (client wgAddr : SocketAddr)
    (ts : List (Transition State Event Delivery)) (s : State) : Prop where
  up : (Machine.outputs ts).filterMap (Delivery.forServer wgAddr) ++ inFlight s.up
    = (fromClient ts).map f
  down : (Machine.outputs ts).filterMap (Delivery.forClient client) ++ inFlight s.down
    = (fromServer ts).map f

theorem fromClient_snoc (f : Bytes → Bytes) (t : Transition State Event Delivery)
    : (fromClient (ts ++ [t])).map f
        =
      (fromClient ts).map f ++ (t.event.fromClient.map f).toList := by
  cases hdatagram : t.event.fromClient <;> simp [fromClient, hdatagram]

theorem fromServer_snoc (f : Bytes → Bytes) (t : Transition State Event Delivery)
    : (fromServer (ts ++ [t])).map f
        =
      (fromServer ts).map f ++ (t.event.fromServer.map f).toList := by
  cases hdatagram : t.event.fromServer <;> simp [fromServer, hdatagram]

theorem relays_of_run (hrun : (machine wgAddr).Run (.start clientAddr) ts s)
    (hhealthy : ∀ t ∈ ts, Healthy client t)
    : Connected client s ∧ Relays recvFrom client wgAddr ts s := by
  induction hrun with
  | nil => exact ⟨connected_start client clientAddr, rfl, rfl⟩
  | snoc _ hstep ih =>
    obtain ⟨hconnected, hrelays⟩ := ih fun t ht => hhealthy t (List.mem_append_left _ ht)
    have hcarries := carries_of_step hconnected hstep
      (hhealthy _ (List.mem_append_right _ List.mem_cons_self))
    refine ⟨hcarries.connected, ?_, ?_⟩
    . have hup := hcarries.up
      dsimp only at hup
      rw [Machine.outputs_append, Machine.outputs_singleton, List.filterMap_append,
        List.append_assoc, hup, ← List.append_assoc, hrelays.up, fromClient_snoc]
    . have hdown := hcarries.down
      dsimp only at hdown
      rw [Machine.outputs_append, Machine.outputs_singleton, List.filterMap_append,
        List.append_assoc, hdown, ← List.append_assoc, hrelays.down, fromServer_snoc]

theorem recvFrom_eq_iff (datagram : Bytes)
    : recvFrom datagram = datagram ↔ datagram.length ≤ maxWgPacket := by
  unfold recvFrom
  exact List.take_eq_self_iff datagram

end Run

section Sources

open Noise (Session Handshake HandshakeCall)

/--
Where a datagram comes from: a session seals a packet from the TUN interface, or a handshake formats
one of its messages.
-/
inductive Source where
  | data (s : Session) (src : Bytes)
  | handshake (h : Handshake) (c : HandshakeCall)

variable {P : Noise.Primitives} {client wgAddr : SocketAddr} {clientAddr : Option SocketAddr} {s : State}
  {ts : List (Transition State Event Delivery)} {datagram : Bytes} {source : Source}

namespace Source

def Sends (P : Noise.Primitives) (source : Source) (datagram : Bytes) : Prop :=
  match source with
  | .data s src => ∃ dstLen s', s.formatPacketData P src dstLen = some (s', datagram)
  | .handshake h c => ∃ h', (Handshake.speaker P).step h c = some (h', [datagram])

/--
With the overhead of a data packet, the packet still fits into the buffer of a relay.
-/
def Fits : Source → Prop
  | .data _ src => src.length + Noise.dataOverheadSz ≤ maxWgPacket
  | .handshake _ _ => True

theorem length_sealPacket (s : Session) (src : Bytes)
    : (s.sealPacket P src).length = src.length + Noise.dataOverheadSz := by
  simp only [Session.sealPacket, List.length_append, Bytes.length_leBytes, P.length_seal,
    Noise.dataOverheadSz]
  omega

theorem Sends.fits_iff (h : source.Sends P datagram)
    : datagram.length ≤ maxWgPacket ↔ source.Fits := by
  cases source with
  | data s src =>
    obtain ⟨dstLen, s', hformat⟩ := h
    unfold Session.formatPacketData at hformat
    split at hformat
    . simp at hformat
    . cases hformat
      rw [length_sealPacket, Fits]
  | handshake h c =>
    obtain ⟨h', hstep⟩ := h
    rcases Handshake.speaker_step hstep with ⟨hos, _⟩ | ⟨packet, _, _, hos, hformats⟩
    . simp at hos
    . cases hos
      have hmatches := Noise.matches_of_parseIncomingPacket hformats.parse
      have hsender := hformats.sender
      rw [Fits, iff_true]
      cases packet with
      | handshakeInit p => simp [hmatches.2, Noise.handshakeInitSz, maxWgPacket]
      | handshakeResponse p => simp [hmatches.2, Noise.handshakeRespSz, maxWgPacket]
      | packetCookieReply p => cases hsender
      | packetData p => cases hsender

end Source

theorem forall_fits_iff {sources : List Source} {datagrams : List Bytes}
    (h : List.Forall₂ (Source.Sends P) sources datagrams)
    : (∀ datagram ∈ datagrams, recvFrom datagram = datagram) ↔ ∀ source ∈ sources, source.Fits := by
  induction h with
  | nil => simp
  | cons hsends _ ih =>
    rw [List.forall_mem_cons, List.forall_mem_cons, ih, recvFrom_eq_iff, hsends.fits_iff]

/--
The transport hands on what the tunnels send byte for byte exactly if no packet from a TUN interface
is too large for the buffers, both ways.
-/
theorem transparent_iff {sources : List Source}
    (hrun : (machine wgAddr).Run (.start clientAddr) ts s) (hhealthy : ∀ t ∈ ts, Healthy client t)
    (hsources : List.Forall₂ (Source.Sends P) sources (fromClient ts ++ fromServer ts))
    : Relays id client wgAddr ts s ↔ ∀ source ∈ sources, source.Fits := by
  obtain ⟨_, hrelays⟩ := relays_of_run hrun hhealthy
  rw [← forall_fits_iff hsources, List.forall_mem_append]
  constructor
  . intro hid
    have hup := hrelays.up.symm.trans hid.up
    have hdown := hrelays.down.symm.trans hid.down
    exact ⟨List.map_inj_left.mp hup, List.map_inj_left.mp hdown⟩
  . intro ⟨hup, hdown⟩
    exact ⟨hrelays.up.trans (List.map_inj_left.mpr hup),
      hrelays.down.trans (List.map_inj_left.mpr hdown)⟩

end Sources

namespace Sample

def client : SocketAddr := ⟨.v4 (.new 127 0 0 1), 50000⟩

def server : SocketAddr := ⟨.v4 (.new 127 0 0 1), 51820⟩

def session : Noise.Session :=
  .new 0x100 0x200 (Noise.Sample.key 8) (Noise.Sample.key 9)

theorem exists_run (request answer : Bytes)
    : ∃ ts s,
        (machine server).Run (.start none) ts s
          ∧
        (∀ t ∈ ts, Healthy client t)
          ∧
        fromClient ts = [request]
          ∧
        fromServer ts = [answer]
          ∧
        Machine.outputs ts = [.toServer (recvFrom request) server, .toClient (recvFrom answer) client]
          ∧
        inFlight s.up = []
          ∧
        inFlight s.down = [] := by
  have hrun : (machine server).Run (.start none) [] (.start none) := Machine.Run.nil
  have hrun := hrun.snoc (e := .bridge false (.ok request client) true .timedOut true) rfl
  have hrun := hrun.snoc (e := .proxy false .next true (.ok answer server) true) rfl
  have hrun := hrun.snoc (e := .bridge false .timedOut true .next true) rfl
  refine ⟨_, _, hrun, ?_, rfl, rfl, rfl, rfl, rfl⟩
  intro t ht
  simp only [List.nil_append, List.cons_append, List.mem_cons, List.not_mem_nil, or_false] at ht
  rcases ht with rfl | rfl | rfl
  . exact ⟨rfl, rfl, by simp, by simp⟩
  . exact ⟨rfl, rfl, by simp, by simp⟩
  . exact ⟨rfl, rfl, by simp, by simp⟩

def sealed (length : Nat) : Bytes :=
  session.sealPacket Noise.Sample.primitives (List.replicate length 0)

theorem sends_sealed (length : Nat)
    : (Source.data session (List.replicate length 0)).Sends Noise.Sample.primitives (sealed length) :=
  ⟨_, _, if_neg (Nat.lt_irrefl _)⟩

end Sample

theorem transparent_iff_largest
    : ∃ ts s,
        (machine Sample.server).Run (.start none) ts s
          ∧
        fromClient ts = [Sample.sealed 1468]
          ∧
        fromServer ts = [Sample.sealed 1468]
          ∧
        Relays id Sample.client Sample.server ts s := by
  obtain ⟨ts, s, hrun, hhealthy, hclient, hserver, _⟩ :=
    Sample.exists_run (Sample.sealed 1468) (Sample.sealed 1468)
  have hsends := Sample.sends_sealed 1468
  have hsources : List.Forall₂ (Source.Sends Noise.Sample.primitives)
      [.data Sample.session (List.replicate 1468 0), .data Sample.session (List.replicate 1468 0)]
      (fromClient ts ++ fromServer ts) := by
    rw [hclient, hserver]
    exact .cons hsends (.cons hsends .nil)
  refine ⟨ts, s, hrun, hclient, hserver, (transparent_iff hrun hhealthy hsources).mpr ?_⟩
  intro source hsource
  rw [List.mem_cons, List.mem_singleton, or_self] at hsource
  subst hsource
  have hfits : 1468 + Noise.dataOverheadSz ≤ maxWgPacket := by decide
  rwa [← List.length_replicate (n := 1468) (a := (0 : UInt8))] at hfits

/--
A full packet from the TUN interface loses the end of its tag on the way, and so does the answer.
-/
theorem exists_truncated
    : ∃ ts s,
        (Source.data Sample.session (List.replicate 1500 0)).Sends Noise.Sample.primitives
          (Sample.sealed 1500)
          ∧
        (machine Sample.server).Run (.start none) ts s
          ∧
        (∀ t ∈ ts, Healthy Sample.client t)
          ∧
        fromClient ts = [Sample.sealed 1500]
          ∧
        fromServer ts = [Sample.sealed 1500]
          ∧
        Machine.outputs ts = [.toServer ((Sample.sealed 1500).take 1500) Sample.server,
          .toClient ((Sample.sealed 1500).take 1500) Sample.client]
          ∧
        (Sample.sealed 1500).take 1500 ≠ Sample.sealed 1500 := by
  obtain ⟨ts, s, hrun, hhealthy, hclient, hserver, houtputs, _⟩ :=
    Sample.exists_run (Sample.sealed 1500) (Sample.sealed 1500)
  refine ⟨ts, s, Sample.sends_sealed 1500, hrun, hhealthy, hclient, hserver, houtputs, ?_⟩
  intro heq
  have hlength := Source.length_sealPacket (P := Noise.Sample.primitives) Sample.session
    (List.replicate 1500 0)
  have hle := (recvFrom_eq_iff _).mp heq
  rw [Sample.sealed, hlength, List.length_replicate] at hle
  exact absurd hle (by decide)

end Relay
