import VeilVpn.Device.Impl.Handlers

namespace Device

/--
The part of a peer that is not about its connection.
-/
def Peer.account (p : Peer) : AllowedIps Unit × Option Payment.BandwidthQuota :=
  (p.allowedIps, p.quota)

def accountOf (d : Device) (id : PeerId)
    : Option (AllowedIps Unit × Option Payment.BandwidthQuota) :=
  (d.peerArena.get id).map Peer.account

/--
The tables and settings of a device, without the objects that its handlers work on.
-/
def static (d : Device) : Device :=
  { d with peerArena := .empty, limiterArena := .empty, connArena := .empty }

theorem accountOf_eq_some {d : Device} {id : PeerId} {p : Peer} (h : d.peerArena.get id = some p)
    : d.accountOf id = some p.account := by
  simp [accountOf, h]

theorem accountOf_setPeer {d : Device} {id : PeerId} {p : Peer} (h : d.peerArena.get id = some p)
    (p' : Peer) (j : PeerId)
    : (d.setPeer id p').accountOf j = if j = id then some p'.account else d.accountOf j := by
  unfold accountOf setPeer
  rw [Arena.get_set_of_get h]
  split <;> rfl

theorem accountOf_setPeer_of_account_eq {d : Device} {id : PeerId} {p p' : Peer}
    (h : d.peerArena.get id = some p) (haccount : p'.account = p.account) (j : PeerId)
    : (d.setPeer id p').accountOf j = d.accountOf j := by
  rw [accountOf_setPeer h]
  split
  . next hj => rw [hj, accountOf_eq_some h, haccount]
  . rfl

@[simp]
theorem accountOf_setLimiter (d : Device) (ref : Noise.RateLimiterRef) (rl : Noise.RateLimiter)
    (j : PeerId)
    : (d.setLimiter ref rl).accountOf j = d.accountOf j := rfl

def Peer.SameButTunnel (p p' : Peer) : Prop :=
  p' = { p with tunnel := p'.tunnel }

namespace Peer.SameButTunnel

variable {p p' p'' : Peer}

theorem refl (p : Peer) : p.SameButTunnel p := rfl

theorem of_tunnel (p : Peer) (tunnel : Noise.Tunn) : p.SameButTunnel { p with tunnel } := rfl

theorem trans (h : p.SameButTunnel p') (h' : p'.SameButTunnel p'') : p.SameButTunnel p'' := by
  unfold SameButTunnel at *
  rw [h', h]

theorem account (h : p.SameButTunnel p') : p'.account = p.account := by
  rw [h]
  rfl

theorem endpoint (h : p.SameButTunnel p') : p'.endpoint = p.endpoint := by
  rw [h]

theorem quota (h : p.SameButTunnel p') : p'.quota = p.quota := by
  rw [h]

theorem allowedIps (h : p.SameButTunnel p') : p'.allowedIps = p.allowedIps := by
  rw [h]

end Peer.SameButTunnel

def Peer.core (p : Peer) : Peer :=
  { p with endpoint := { addr := none, conn := none } }

def coreOf (d : Device) (id : PeerId) : Option Peer :=
  (d.peerArena.get id).map Peer.core

theorem map_eq_of_coreOf_eq {α : Type} {d d' : Device} {id : PeerId} (h : d'.coreOf id = d.coreOf id)
    (f : Peer → α) (hf : ∀ p, f p.core = f p)
    : (d'.peerArena.get id).map f = (d.peerArena.get id).map f := by
  have hmap := congrArg (Option.map f) h
  simp only [coreOf, Option.map_map, Function.comp_def, hf] at hmap
  exact hmap

structure SameCores (d d' : Device) : Prop where
  core : ∀ id, d'.coreOf id = d.coreOf id
  static : d'.static = d.static

namespace SameCores

variable {d d' d'' : Device}

theorem refl (d : Device) : SameCores d d :=
  ⟨fun _ => rfl, rfl⟩

theorem trans (h : SameCores d d') (h' : SameCores d' d'') : SameCores d d'' :=
  ⟨fun id => (h'.core id).trans (h.core id), h'.static.trans h.static⟩

theorem setPeer {id : PeerId} {p p' : Peer} (h : d.peerArena.get id = some p)
    (hcore : p'.core = p.core)
    : SameCores d (d.setPeer id p') := by
  refine ⟨?_, rfl⟩
  intro j
  unfold coreOf Device.setPeer
  rw [Arena.get_set_of_get h]
  split
  . next hj => rw [hj, h, Option.map_some, Option.map_some, hcore]
  . rfl

end SameCores

theorem sameCores_setLimiter (d : Device) (ref : Noise.RateLimiterRef) (rl : Noise.RateLimiter)
    : SameCores d (d.setLimiter ref rl) :=
  ⟨fun _ => rfl, rfl⟩

theorem sameCores_shutdown (d : Device) (conn : Option ConnId) : SameCores d (d.shutdown conn) := by
  unfold shutdown
  split
  . exact .refl d
  . split
    . exact .refl d
    . exact ⟨fun _ => rfl, rfl⟩

theorem sameCores_shutdownEndpoint (d : Device) (id : PeerId)
    : SameCores d (d.shutdownEndpoint id) := by
  unfold shutdownEndpoint
  split
  . exact .refl d
  . next p hp =>
    have hset : SameCores d (d.setPeer id p.shutdownEndpoint.1) := .setPeer hp rfl
    exact hset.trans (sameCores_shutdown _ _)

theorem sameCores_setEndpoint (d : Device) (id : PeerId) (addr : SocketAddr)
    : SameCores d (d.setEndpoint id addr) := by
  unfold setEndpoint
  split
  . exact .refl d
  . next p hp =>
    have hcore : (p.setEndpoint addr).1.core = p.core := by
      unfold Peer.setEndpoint
      split <;> rfl
    exact (SameCores.setPeer hp hcore).trans (sameCores_shutdown _ _)

theorem sameCores_connectEndpoint (d : Device) (id : PeerId) (peerAddr : IpAddr) (env : Env)
    : SameCores d (d.connectEndpoint id peerAddr env) := by
  unfold connectEndpoint
  split
  . exact .refl d
  . next p hp =>
    split
    . have hset : SameCores d (d.setPeer id (p.setConn d.connArena.size)) := .setPeer hp rfl
      exact hset.trans ⟨fun _ => rfl, rfl⟩
    . exact .refl d

theorem peers_shutdownEndpoint (d : Device) (id : PeerId) : (d.shutdownEndpoint id).peers = d.peers := by
  change (d.shutdownEndpoint id).static.peers = d.static.peers
  rw [(sameCores_shutdownEndpoint d id).static]

theorem peerArena_shutdown (d : Device) (conn : Option ConnId)
    : (d.shutdown conn).peerArena = d.peerArena := by
  unfold shutdown
  split
  . rfl
  . split
    . rfl
    . rfl

theorem map_get_shutdownEndpoint {α : Type} (d : Device) (id' id : PeerId) (g : Peer → α)
    (hg : ∀ p, g p.shutdownEndpoint.1 = g p)
    : ((d.shutdownEndpoint id').peerArena.get id).map g = (d.peerArena.get id).map g := by
  unfold shutdownEndpoint
  split
  . rfl
  . next p hp =>
    have hset : ((d.setPeer id' p.shutdownEndpoint.1).peerArena.get id).map g
        = (d.peerArena.get id).map g := by
      unfold setPeer
      rw [Arena.get_set_of_get hp]
      split
      . next hid => rw [hid, hp, Option.map_some, Option.map_some, hg]
      . rfl
    dsimp only
    rw [peerArena_shutdown, hset]

theorem coreOf_removePeer (d : Device) (pubKey : FixedBytes 32) (id : PeerId)
    : (d.removePeer pubKey).coreOf id = d.coreOf id := by
  unfold removePeer
  split
  . rfl
  . split
    . rfl
    . exact (sameCores_shutdownEndpoint d _).core id

theorem openListenSocket_induction (I : Device → Prop) {d : Device}
    (hlisten : ∀ acc udp4 udp6 listenPort, I acc → I { acc with udp4, udp6, listenPort })
    (hshutdown : ∀ acc id, I acc → I (acc.shutdownEndpoint id)) (hd : I d) (port : UInt16)
    (assigned : Option UInt16)
    : I (d.openListenSocket port assigned) := by
  have hfold : ∀ (ids : List PeerId) (held : PeerId → Bool) (acc : Device), I acc →
      I (ids.foldl (fun acc id => if held id then acc.shutdownEndpoint id else acc) acc) := by
    intro ids held
    induction ids with
    | nil =>
      intro acc hacc
      exact hacc
    | cons id ids ih =>
      intro acc hacc
      apply ih
      dsimp only
      split
      . exact hshutdown acc id hacc
      . exact hacc
  have hclosed : I { d with udp4 := false, udp6 := false } := hlisten d false false d.listenPort hd
  unfold openListenSocket
  split
  . exact hfold _ _ _ hclosed
  . exact hlisten _ true true _ (hfold _ _ _ hclosed)

theorem coreOf_openListenSocket (d : Device) (port : UInt16) (assigned : Option UInt16)
    (id : PeerId)
    : (d.openListenSocket port assigned).coreOf id = d.coreOf id := by
  apply openListenSocket_induction (·.coreOf id = d.coreOf id)
  . intro acc _ _ _ hacc
    exact hacc
  . intro acc id' hacc
    exact ((sameCores_shutdownEndpoint acc id').core id).trans hacc
  . rfl

theorem accountOf_eq_of_coreOf_eq {d d' : Device} {id : PeerId} (h : d'.coreOf id = d.coreOf id)
    : d'.accountOf id = d.accountOf id :=
  map_eq_of_coreOf_eq h Peer.account fun _ => rfl

structure SameAccounts (d d' : Device) : Prop where
  account : ∀ id, d'.accountOf id = d.accountOf id
  static : d'.static = d.static

theorem SameAccounts.refl (d : Device) : SameAccounts d d :=
  ⟨fun _ => rfl, rfl⟩

theorem SameAccounts.trans {d d' d'' : Device} (h : SameAccounts d d') (h' : SameAccounts d' d'')
    : SameAccounts d d'' :=
  ⟨fun id => (h'.account id).trans (h.account id), h'.static.trans h.static⟩

theorem SameAccounts.setPeer {d : Device} {id : PeerId} {p p' : Peer}
    (h : d.peerArena.get id = some p) (haccount : p'.account = p.account)
    : SameAccounts d (d.setPeer id p') :=
  ⟨accountOf_setPeer_of_account_eq h haccount, rfl⟩

theorem SameCores.sameAccounts {d d' : Device} (h : SameCores d d') : SameAccounts d d' :=
  ⟨fun id => accountOf_eq_of_coreOf_eq (h.core id), h.static⟩

section Config

variable (C : Primitives)

theorem get_setKey (d : Device) (privateKey : FixedBytes 32) (env : Env) (id : PeerId)
    : ∃ f : Peer → Peer,
        (d.setKey C privateKey env).peerArena.get id = (d.peerArena.get id).map f
          ∧
        ∀ p, p.SameButTunnel (f p) ∧
          (f p = p ∨ ∃ publicKey ref,
            p.tunnel.setStaticPrivate C.noise privateKey publicKey ref = some (f p).tunnel) := by
  unfold setKey
  dsimp only
  split
  . exact ⟨fun p => p, by simp, fun p => ⟨.refl p, .inl rfl⟩⟩
  . refine ⟨_, Arena.get_map _ _ _, ?_⟩
    intro p
    split
    . exact ⟨.of_tunnel p _, .inr ⟨_, _, (Option.some_get _).symm⟩⟩
    . exact ⟨.refl p, .inl rfl⟩

theorem map_get_setKey {α : Type} (d : Device) (privateKey : FixedBytes 32) (env : Env) (id : PeerId)
    (g : Peer → α) (hg : ∀ p tunnel, g { p with tunnel } = g p)
    : ((d.setKey C privateKey env).peerArena.get id).map g = (d.peerArena.get id).map g := by
  obtain ⟨f, hget, hf⟩ := get_setKey C d privateKey env id
  rw [hget, Option.map_map]
  congr 1
  funext p
  rw [Function.comp, (hf p).1, hg]

theorem accountOf_setKey (d : Device) (privateKey : FixedBytes 32) (env : Env) (id : PeerId)
    : (d.setKey C privateKey env).accountOf id = d.accountOf id :=
  map_get_setKey C d privateKey env id Peer.account fun _ _ => rfl

def addPeer (d : Device) (pubKey : FixedBytes 32) (lfsr : IndexLfsr) (limiter : Noise.RateLimiter)
    (p : Peer) (allowedIps : List AllowedIP) : Device :=
  { d with
    nextIndex := lfsr
    limiterArena := d.limiterArena.alloc limiter
    peerArena := d.peerArena.alloc p
    peers := d.peers.insert pubKey d.peerArena.size
    peersByIdx := d.peersByIdx.insert p.index d.peerArena.size
    peersByIp := allowedIps.foldl (fun table ip => table.insert ip d.peerArena.size) d.peersByIp
  }

inductive UpdateCase (d : Device) (pubKey : FixedBytes 32) (remove : Bool)
    (endpoint : Option SocketAddr) (allowedIps : List AllowedIP) (keepalive : Option UInt16)
    (presharedKey : Option (FixedBytes 32)) (env : Env) (d' : Device) : Prop where
  | remove (hremove : remove = true) (hdevice : d' = d.removePeer pubKey)
  | add (lfsr : IndexLfsr) (index : UInt32) (privateKey publicKey : FixedBytes 32)
    (limiter : Noise.RateLimiter) (stamper : Noise.TimeStamper) (p : Peer)
    (hremove : remove = false)
    (habsent : d.peers.lookup pubKey = none)
    (hnext : d.nextIndex.next = some (lfsr, index))
    (hkey : d.keyPair = some (privateKey, publicKey))
    (hpeer : p = { Peer.new (.new C.noise privateKey pubKey presharedKey keepalive index
      d.limiterArena.size true stamper env.now) index endpoint allowedIps presharedKey with
        quota := some (.new Payment.defaultQuotaBytes) })
    (hdevice : d' = d.addPeer pubKey lfsr limiter p allowedIps)

variable {C} {d d' : Device} {pubKey : FixedBytes 32} {remove : Bool} {endpoint : Option SocketAddr}
  {allowedIps : List AllowedIP} {keepalive : Option UInt16} {presharedKey : Option (FixedBytes 32)}
  {env : Env}

theorem updatePeer_cases
    (h : d.updatePeer C pubKey remove endpoint allowedIps keepalive presharedKey env = some d')
    : UpdateCase C d pubKey remove endpoint allowedIps keepalive presharedKey env d' := by
  unfold updatePeer at h
  split at h
  . next hremove =>
    cases h
    exact .remove hremove rfl
  . next hremove =>
    split at h
    . simp at h
    . next habsent =>
      split at h
      . next hnext hkey =>
        cases h
        exact .add _ _ _ _ _ _ _ (by simpa using hremove) (by simpa using habsent) hnext hkey rfl rfl
      . simp at h

theorem get_addPeer (d : Device) (pubKey : FixedBytes 32) (lfsr : IndexLfsr)
    (limiter : Noise.RateLimiter) (p : Peer) (allowedIps : List AllowedIP) (id : PeerId)
    : (d.addPeer pubKey lfsr limiter p allowedIps).peerArena.get id
        =
      if id = d.peerArena.size then some p else d.peerArena.get id :=
  Arena.get_alloc _ _ _

end Config

end Device
