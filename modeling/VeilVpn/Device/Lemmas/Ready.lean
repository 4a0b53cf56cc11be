import VeilVpn.Payment.Lemmas.Quota
import VeilVpn.Device.Lemmas.Roles

namespace Device

section

/--
A server that can forward packets to a client at an address, and ask it for payments. The client has
not paid anything yet.
-/
structure Ready (d : Device) (id : PeerId) (addr : SocketAddr) (ip : Ipv4Addr) (p : Peer)
    (q : Payment.BandwidthQuota) : Prop where
  isServer : d.paymentConfig.isServer = true
  udp : d.udp4 = true ∧ d.udp6 = true
  wallet : d.paymentWallet.isSome
  find : d.peersByIp.find (.v4 ip) = some id
  get : d.peerArena.get id = some p
  quota : p.quota = some q
  usedNonces : q.usedNonces = ∅
  session : p.tunnel.currentSession.isSome
  addr : p.endpoint.addr = some addr
  conn : p.endpoint.conn = none
  ip : p.firstAllowedIpv4 = some ip

namespace Ready

variable {C : Primitives} {d : Device} {id : PeerId} {addr : SocketAddr} {ip : Ipv4Addr} {p : Peer}
  {q q' : Payment.BandwidthQuota} {src : Received}

theorem setPeer (h : Ready d id addr ip p q) (hnonces : q'.usedNonces = q.usedNonces)
    {tunnel : Noise.Tunn} (hsession : tunnel.currentSession.isSome)
    : Ready (d.setPeer id { p with quota := some q', tunnel }) id addr ip
        { p with quota := some q', tunnel } q' where
  isServer := h.isServer
  udp := h.udp
  wallet := h.wallet
  find := h.find
  get := by
    rw [Device.setPeer, Arena.get_set_of_get h.get, if_pos rfl]
  quota := rfl
  usedNonces := by
    rw [hnonces, h.usedNonces]
  session := hsession
  addr := h.addr
  conn := h.conn
  ip := h.ip

theorem quotaOf_eq (h : Ready d id addr ip p q) : d.quotaOf id = q := by
  rw [quotaOf, accountOf_eq_some h.get, Peer.account, h.quota]

theorem ifaceHandler_eq (h : Ready d id addr ip p q)
    (hdst : Noise.Tunn.dstAddress src.val = some (.v4 ip)) (env : Env)
    : ifaceHandler C d src env
        =
      (outbound C d p src.val env).map fun (p, effects) =>
        (d.setPeer id p, outputsFor id effects) := by
  simp only [ifaceHandler, h.udp.1, h.udp.2, hdst, h.find, h.get]
  cases outbound C d p src.val env <;> rfl

theorem enforceQuota_eq {packet : Bytes} {allowed : Bool} (h : Ready d id addr ip p q)
    (hunblocked : q.blocked = false)
    (hconsume : q.consume (UInt64.ofNat packet.length) = (q', allowed))
    : enforceQuota d p packet
        =
      ({ p with quota := some q' }, if allowed then .forward else .exhausted) := by
  simp only [enforceQuota, h.isServer, if_true, h.quota, Payment.BandwidthQuota.isBlocked,
    hunblocked, hconsume]
  cases allowed <;> rfl

theorem toNat_length (src : Received)
    : (UInt64.ofNat src.val.length).toNat = src.val.length := by
  apply UInt64.toNat_ofNat_of_lt'
  have := src.property
  simp only [UInt64.size, maxUdpSize] at *
  omega

theorem forward (h : Ready d id addr ip p q) (hunblocked : q.blocked = false)
    (hdst : Noise.Tunn.dstAddress src.val = some (.v4 ip)) (hlen : src.val.length ≤ 65503)
    (hpos : 0 < src.val.length) (hle : src.val.length ≤ q.remainingBytes.toNat) (env : Env)
    : ∃ d' p' q' outputs,
        (machine C).step d (.iface src env) = some (d', outputs)
          ∧
        Ready d' id addr ip p' q'
          ∧
        q'.blocked = false
          ∧
        q'.remainingBytes.toNat + src.val.length = q.remainingBytes.toNat
          ∧
        requestCount (effectsOf id outputs) = 0 ∧ credits (effectsOf id outputs) = [] := by
  have htoNat := toNat_length src
  have hzero : q.remainingBytes ≠ 0 := by
    intro hzero
    rw [hzero, UInt64.toNat_zero] at hle
    omega
  obtain ⟨q', hconsume, hblocked⟩ := Payment.BandwidthQuota.consume_of_le hzero
    (UInt64.le_iff_toNat_le.mpr (htoNat ▸ hle))
  have hremaining := Payment.BandwidthQuota.toNat_remainingBytes_consume hconsume
  have hnonces := Payment.BandwidthQuota.usedNonces_consume hconsume
  rw [htoNat] at hremaining
  have hfits : src.val.length + Noise.dataOverheadSz ≤ maxUdpSize := by
    simp only [Noise.dataOverheadSz, maxUdpSize]
    omega
  obtain ⟨session, hsession⟩ := Option.isSome_iff_exists.mp h.session
  obtain ⟨tunnel, hencapsulate, hafter⟩ :=
    Noise.Tunn.encapsulate_of_session (P := C.noise) hfits env.now (env.ephemeral 0) hsession
  simp only [machine, step, h.ifaceHandler_eq hdst, outbound, h.enforceQuota_eq hunblocked hconsume,
    if_true, hencapsulate, sendToEndpoint, h.conn, h.addr, Option.map_some]
  refine ⟨_, _, q', _, rfl, h.setPeer hnonces hafter, hblocked.trans hunblocked, hremaining, ?_⟩
  rw [effectsOf_outputsFor, if_pos rfl]
  exact ⟨rfl, rfl⟩

theorem ask (h : Ready d id addr ip p q) (hunblocked : q.blocked = false)
    (hdst : Noise.Tunn.dstAddress src.val = some (.v4 ip))
    (hconsume : q.consume (UInt64.ofNat src.val.length) = (q', false)) (env : Env)
    : ∃ d' p' outputs,
        (machine C).step d (.iface src env) = some (d', outputs)
          ∧
        Ready d' id addr ip p' q'
          ∧
        requestCount (effectsOf id outputs) = 1 ∧ credits (effectsOf id outputs) = [] := by
  obtain ⟨session, hsession⟩ := Option.isSome_iff_exists.mp h.session
  obtain ⟨tunnel, msg, packet, hsend, hafter⟩ :=
    sendPaymentRequired_of_session (C := C) (p := { p with quota := some q' }) .udp4 addr env
      h.wallet (Option.isSome_iff_exists.mpr ⟨ip, h.ip⟩) hsession
  simp only [machine, step, h.ifaceHandler_eq hdst, outbound, h.enforceQuota_eq hunblocked hconsume,
    Bool.false_eq_true, if_false, h.addr, hsend, Option.map_some]
  refine ⟨_, _, _, rfl, h.setPeer (Payment.BandwidthQuota.usedNonces_consume hconsume) hafter, ?_⟩
  rw [effectsOf_outputsFor, if_pos rfl]
  exact ⟨rfl, rfl⟩

theorem drop (h : Ready d id addr ip p q) (hblocked : q.blocked = true)
    (hdst : Noise.Tunn.dstAddress src.val = some (.v4 ip)) (env : Env)
    : ∃ d', (machine C).step d (.iface src env) = some (d', []) := by
  have hquota : enforceQuota d p src.val = (p, .blocked) := by
    simp [enforceQuota, h.isServer, h.quota, Payment.BandwidthQuota.isBlocked, hblocked]
  simp only [machine, step, h.ifaceHandler_eq hdst, outbound, hquota, Option.map_some]
  exact ⟨_, rfl⟩

theorem forward_many (h : Ready d id addr ip p q) (hunblocked : q.blocked = false)
    (hdst : Noise.Tunn.dstAddress src.val = some (.v4 ip)) (hlen : src.val.length ≤ 65503)
    (hpos : 0 < src.val.length) (env : Env) (n : Nat)
    : n * src.val.length ≤ q.remainingBytes.toNat
        →
      ∃ ts d' p' q',
        (machine C).Run d ts d'
          ∧
        Ready d' id addr ip p' q'
          ∧
        q'.blocked = false
          ∧
        q'.remainingBytes.toNat + n * src.val.length = q.remainingBytes.toNat
          ∧
        requestCount (effectsOf id (Machine.outputs ts)) = 0
          ∧
        credits (effectsOf id (Machine.outputs ts)) = []
          ∧
        ∀ t ∈ ts, t.event = .iface src env
          ∧ q'.remainingBytes.toNat + src.val.length ≤ (t.before.quotaOf id).remainingBytes.toNat := by
  induction n with
  | zero =>
    intro _
    exact ⟨[], d, p, q, .nil, h, hunblocked, by simp, rfl, rfl, by simp⟩
  | succ n ih =>
    intro hle
    rw [Nat.succ_mul] at hle
    obtain ⟨ts, d₁, p₁, q₁, hrun, hready₁, hunblocked, hremaining, hrequests, hcredits, hevents⟩ :=
      ih (by omega)
    obtain ⟨d₂, p₂, q₂, outputs, hstep, hready₂, hunblocked, hremaining', hrequests', hcredits'⟩ :=
      hready₁.forward (C := C) hunblocked hdst hlen hpos (by omega) env
    refine ⟨_, d₂, p₂, q₂, hrun.snoc hstep, hready₂, hunblocked, ?_, ?_, ?_, ?_⟩
    . rw [Nat.succ_mul]
      omega
    . simp [hrequests, hrequests']
    . simp [hcredits, hcredits']
    . intro t ht
      rw [List.mem_append, List.mem_singleton] at ht
      rcases ht with hmem | rfl
      . obtain ⟨hevent, hmore⟩ := hevents t hmem
        exact ⟨hevent, by omega⟩
      . refine ⟨rfl, ?_⟩
        dsimp only
        rw [hready₁.quotaOf_eq]
        omega

end Ready

end

namespace Sample

def tunPacket (payload : Nat) (h : payload ≤ 65483) : Received :=
  ⟨[0x45] ++ List.replicate 15 0 ++ [10, 0, 0, 2] ++ List.replicate payload 0, by
    simp [maxUdpSize]
    omega⟩

theorem length_tunPacket (payload : Nat) (h : payload ≤ 65483)
    : (tunPacket payload h).val.length = payload + 20 := by
  simp only [tunPacket, List.length_append, List.length_replicate, List.length_cons,
    List.length_nil]
  omega

theorem dstAddress_tunPacket (payload : Nat) (h : payload ≤ 65483)
    : Noise.Tunn.dstAddress (tunPacket payload h).val = some (.v4 clientIp) := by
  have hlen : Noise.Tunn.ipv4MinHeaderSize ≤ (tunPacket payload h).val.length := by
    rw [length_tunPacket, Noise.Tunn.ipv4MinHeaderSize]
    omega
  apply (Noise.Tunn.dstAddress_v4 (by decide) hlen).trans
  rfl

/--
The client is ready to receive after its first packet, which is empty and may come from another
address than the handshake.
-/
def connected (addr : SocketAddr) : List Event :=
  setup ++ [.udp addr (dataDatagram 0x101 0 [] length_nil_le) env]

def isReady (addr : SocketAddr) (ts : List (Transition Device Event Output)) (d : Device) : Bool :=
  (d.paymentConfig.isServer ∧ d.udp4 ∧ d.udp6 ∧ d.paymentWallet.isSome
      ∧ d.peersByIp.find (.v4 clientIp) = some 0
      ∧ ∃ p ∈ d.peerArena.get 0, ∃ q ∈ p.quota, q.usedNonces = ∅
        ∧ p.tunnel.currentSession.isSome ∧ p.endpoint.addr = some addr ∧ p.endpoint.conn = none
        ∧ p.firstAllowedIpv4 = some clientIp ∧ q.blocked = false
        ∧ q.remainingBytes = Payment.defaultQuotaBytes)
    ∧ requestCount (effectsOf 0 (Machine.outputs ts)) = 0
    ∧ (credits (effectsOf 0 (Machine.outputs ts))).isEmpty

theorem ready_of_isReady {addr : SocketAddr} {ts : List (Transition Device Event Output)}
    {d : Device} (h : isReady addr ts d = true)
    : ∃ p q, Ready d 0 addr clientIp p q ∧ q.blocked = false
        ∧ q.remainingBytes.toNat = 320 * 32768
        ∧ requestCount (effectsOf 0 (Machine.outputs ts)) = 0
        ∧ credits (effectsOf 0 (Machine.outputs ts)) = [] := by
  simp only [isReady, decide_eq_true_eq, List.isEmpty_iff] at h
  obtain ⟨⟨hserver, hudp4, hudp6, hwallet, hfind, p, hp, q, hq, hnonces, hsession, haddr, hconn, hip,
    hblocked, hquota⟩, hrequests, hcredits⟩ := h
  refine ⟨p, q, ?_, hblocked, ?_, hrequests, hcredits⟩
  . exact ⟨hserver, ⟨hudp4, hudp6⟩, hwallet, hfind, hp, hq, hnonces, hsession, haddr, hconn, hip⟩
  . rw [hquota]
    rfl

theorem exists_ready (addr : SocketAddr)
    (h : ((machine primitives).exec server (connected addr)).any (fun r => isReady addr r.1 r.2)
      = true)
    (n : Nat) (hn : n ≤ 320)
    : ∃ ts d p q,
        (machine primitives).Run server ts d
          ∧
        Ready d 0 addr clientIp p q
          ∧
        q.blocked = false
          ∧
        q.remainingBytes.toNat + n * 32768 = 320 * 32768
          ∧
        requestCount (effectsOf 0 (Machine.outputs ts)) = 0
          ∧
        credits (effectsOf 0 (Machine.outputs ts)) = [] := by
  obtain ⟨ts, d, hrun, h⟩ := Machine.Run.exists_of_exec (machine primitives) server _ _ h
  obtain ⟨p, q, hready, hblocked, hquota, hrequests, hcredits⟩ := ready_of_isReady h
  have hlen := length_tunPacket 32748 (by omega)
  have hdst := dstAddress_tunPacket 32748 (by omega)
  generalize tunPacket 32748 (by omega) = src at hlen hdst
  obtain ⟨ts', d', p', q', hrun', hready', hblocked', hremaining, hrequests', hcredits', _⟩ :=
    hready.forward_many (C := primitives) hblocked hdst (by omega) (by omega) env n (by rw [hlen]; omega)
  refine ⟨_, d', p', q', hrun.append hrun', hready', hblocked', by rw [hlen] at hremaining; omega,
    ?_, ?_⟩
  . simp [hrequests, hrequests']
  . simp [hcredits, hcredits']

theorem exists_exhausted (addr : SocketAddr)
    (h : ((machine primitives).exec server (connected addr)).any (fun r => isReady addr r.1 r.2)
      = true)
    : ∃ ts d p q src d' p' q' outputs,
        (machine primitives).Run server ts d
          ∧
        Ready d 0 addr clientIp p q ∧ q.blocked = false
          ∧
        (machine primitives).step d (.iface src env) = some (d', outputs)
          ∧
        Ready d' 0 addr clientIp p' q' ∧ q'.blocked = true := by
  obtain ⟨ts, d, p, q, hrun, hready, hunblocked, hremaining, _⟩ := exists_ready addr h 319 (by omega)
  have hlen := length_tunPacket 32749 (by omega)
  have hdst := dstAddress_tunPacket 32749 (by omega)
  generalize tunPacket 32749 (by omega) = src at hlen hdst
  have hlt : q.remainingBytes < UInt64.ofNat src.val.length := by
    rw [UInt64.lt_iff_toNat_lt, Ready.toNat_length]
    omega
  have hzero : q.remainingBytes ≠ 0 := by
    intro hzero
    rw [hzero, UInt64.toNat_zero] at hremaining
    omega
  obtain ⟨q', hconsume, hblocked⟩ := Payment.BandwidthQuota.consume_of_lt hzero hlt
  obtain ⟨d', p', outputs, hstep, hready', _⟩ :=
    hready.ask (C := primitives) hunblocked hdst hconsume env
  exact ⟨ts, d, p, q, src, d', p', q', outputs, hrun, hready, hunblocked, hstep, hready', hblocked⟩

end Sample

end Device
