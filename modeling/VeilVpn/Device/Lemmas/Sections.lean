import VeilVpn.Device.Lemmas.Uapi
import VeilVpn.Device.Lemmas.KeyText
import VeilVpn.Device.Lemmas.Roles

namespace Device

namespace Uapi

section Options

namespace PeerOption

def remove? : PeerOption → Option Bool
  | .remove b => some b
  | _ => none

def replaceAllowedIps? : PeerOption → Option Bool
  | .replaceAllowedIps b => some b
  | _ => none

def endpoint? : PeerOption → Option SocketAddr
  | .endpoint addr => some addr
  | _ => none

def keepalive? : PeerOption → Option UInt16
  | .persistentKeepaliveInterval interval => some interval
  | _ => none

def presharedKey? : PeerOption → Option (FixedBytes 32)
  | .presharedKey key => some key
  | _ => none

def allowedIp? : PeerOption → Option AllowedIP
  | .allowedIp ip => some ip
  | _ => none

end PeerOption

variable {α : Type}

def lastOf (kind : PeerOption → Option α) (options : List PeerOption) : Option α :=
  (options.filterMap kind).getLast?

theorem lastOf_append (kind : PeerOption → Option α) (os os' : List PeerOption)
    : lastOf kind (os ++ os') = (lastOf kind os').or (lastOf kind os) := by
  rw [lastOf, List.filterMap_append, List.getLast?_append, lastOf, lastOf]

theorem lastOf_cons (kind : PeerOption → Option α) (o : PeerOption) (os : List PeerOption)
    : lastOf kind (o :: os) = (lastOf kind os).or (kind o) := by
  rw [← List.singleton_append, lastOf_append]
  cases h : kind o <;> simp [lastOf, h]

open PeerOption

theorem foldl_apply (s : PeerSettings) (os : List PeerOption)
    : os.foldl PeerSettings.apply s
        =
      { publicKey := s.publicKey
        remove := (lastOf remove? os).getD s.remove
        replaceIps := (lastOf replaceAllowedIps? os).getD s.replaceIps
        endpoint := (lastOf endpoint? os).or s.endpoint
        keepalive := (lastOf keepalive? os).or s.keepalive
        presharedKey := (lastOf presharedKey? os).or s.presharedKey
        allowedIps := s.allowedIps ++ os.filterMap allowedIp? } := by
  induction os generalizing s with
  | nil => simp [lastOf]
  | cons o os ih =>
    rw [List.foldl_cons, ih]
    cases o <;> simp [PeerSettings.apply, lastOf_cons, remove?, replaceAllowedIps?, endpoint?, keepalive?,
      presharedKey?, allowedIp?, List.filterMap_cons]

end Options

/--
A section about one peer, with the meaning of its lines.
-/
structure PeerSection (F : TextFormat) where
  keyText : List Char
  key : FixedBytes 32
  options : List (List Char × PeerOption)
  keyBytes_keyText : keyBytes F keyText = some (some key)
  lineFeed_keyText : '\n' ∉ keyText
  equals_keyText : '=' ∉ keyText
  parse_options : ∀ line ∈ options, parsePeerLine F line.1 = some (.ok (.option line.2))
  lineFeed_options : ∀ line ∈ options, '\n' ∉ line.1

namespace PeerSection

variable {F : TextFormat}

def lines (p : PeerSection F) : List (List Char) :=
  field "public_key" p.keyText :: p.options.map Prod.fst

def settings (p : PeerSection F) : List PeerOption :=
  p.options.map Prod.snd

theorem lineFeed_lines (p : PeerSection F) : ∀ line ∈ p.lines, '\n' ∉ line := by
  rw [lines, List.forall_mem_cons]
  constructor
  . simp only [field, List.mem_append, List.mem_cons, not_or]
    exact ⟨by decide, by decide, p.lineFeed_keyText⟩
  . intro line hline
    obtain ⟨option, hoption, rfl⟩ := List.mem_map.mp hline
    exact p.lineFeed_options option hoption

def read (s : PeerSettings) (p : PeerSection F) : PeerSettings :=
  p.settings.foldl PeerSettings.apply { s with publicKey := p.key, allowedIps := [] }

def own (p : PeerSection F) : PeerSettings :=
  p.settings.foldl PeerSettings.apply (.new p.key)

def readAll (s : PeerSettings) : List (PeerSection F) → List PeerSettings
  | [] => []
  | p :: rest => p.read s :: readAll (p.read s) rest

end PeerSection

section Request

variable (C : Primitives) {F : TextFormat} (envs : Nat → ApiEnv)

def setRequest (sections : List (PeerSection F)) : List Char :=
  Lines.write ("set=1".toList :: (sections.flatMap PeerSection.lines ++ [[]]))

def requestEach (order : (m : HashMap (FixedBytes 32) PeerId) → HashMap.Iteration m) (d : Device)
    (n : Nat)
    : List (PeerSection F) → Option Device
  | [] => some d
  | p :: rest =>
    match apiHandler C F (fun i => envs (n + i)) d (order d.peers) (setRequest [p]) with
    | none => none
    | some (d, _) => requestEach order d (n + 1) rest

def commitAll (d : Device) (n : Nat) : List PeerSettings → Option Device
  | [] => some d
  | s :: rest =>
    match commit C d s (envs n).env with
    | none => none
    | some d => commitAll d (n + 1) rest

variable {C envs} {d d' : Device} {n : Nat} {rest : List (List Char)}

theorem apiSetPeer_options {options : List (List Char × PeerOption)}
    (hoptions : ∀ line ∈ options, parsePeerLine F line.1 = some (.ok (.option line.2)))
    (s : PeerSettings)
    : apiSetPeer C F envs d s n ((options.map Prod.fst).map (· ++ ['\n']) ++ rest)
        =
      apiSetPeer C F envs d ((options.map Prod.snd).foldl PeerSettings.apply s) n rest := by
  induction options generalizing s with
  | nil => rfl
  | cons line options ih =>
    rw [List.forall_mem_cons] at hoptions
    rw [List.map_cons, List.map_cons, List.cons_append, apiSetPeer_option hoptions.1, ih hoptions.2,
      List.map_cons, List.foldl_cons]

/--
The device is changed at the end of each section, by what was read in it and before it.
-/
theorem apiSetPeer_sections (s : PeerSettings) (sections : List (PeerSection F))
    : apiSetPeer C F envs d s n ((sections.flatMap PeerSection.lines ++ [[]]).map (· ++ ['\n']))
        =
      (commitAll C envs d n (s :: PeerSection.readAll s sections)).map fun d => (d, .success) := by
  induction sections generalizing d s n with
  | nil =>
    rw [List.flatMap_nil, List.nil_append, List.map_singleton, List.nil_append, apiSetPeer_end,
      PeerSection.readAll, commitAll]
    cases commit C d s (envs n).env <;> rfl
  | cons p sections ih =>
    rw [List.flatMap_cons, PeerSection.lines, List.cons_append, List.cons_append, List.append_assoc,
      List.map_cons, List.map_append, apiSetPeer_publicKey p.keyBytes_keyText, PeerSection.readAll,
      commitAll]
    cases commit C d s (envs n).env with
    | none => rfl
    | some d =>
      rw [Option.bind_some, apiSetPeer_options p.parse_options]
      exact ih _

theorem apiHandler_setRequest (order : HashMap.Iteration d.peers) (sections : List (PeerSection F))
    (key : FixedBytes 32)
    : apiHandler C F envs d order (setRequest sections)
        =
      (commitAll C envs d 0 (PeerSection.readAll (.new key) sections)).map
        fun d => (d, trailer .success) := by
  rw [setRequest, apiHandler_set]
  . cases sections with
    | nil => rfl
    | cons p sections =>
      rw [List.flatMap_cons, PeerSection.lines, List.cons_append, List.cons_append, List.append_assoc,
        List.map_cons, List.map_append, apiSet_publicKey p.keyBytes_keyText p.equals_keyText,
        apiSetPeer_options p.parse_options, apiSetPeer_sections, Option.map_map]
      rfl
  . intro line hline
    rw [List.mem_append, List.mem_flatMap, List.mem_singleton] at hline
    rcases hline with ⟨p, _, hline⟩ | rfl
    . exact p.lineFeed_lines line hline
    . exact List.not_mem_nil

theorem apiHandler_singleton (order : HashMap.Iteration d.peers) (p : PeerSection F)
    : apiHandler C F envs d order (setRequest [p])
        =
      (commit C d p.own (envs 0).env).map fun d => (d, trailer .success) := by
  have hread : PeerSection.readAll (.new p.key) [p] = [p.own] := rfl
  rw [apiHandler_setRequest order [p] p.key, hread, commitAll]
  cases commit C d p.own (envs 0).env with
  | none => rfl
  | some d => rfl

theorem requestEach_eq (order : (m : HashMap (FixedBytes 32) PeerId) → HashMap.Iteration m)
    (sections : List (PeerSection F))
    : requestEach C envs order d n sections = commitAll C envs d n (sections.map PeerSection.own) := by
  induction sections generalizing d n with
  | nil => rfl
  | cons p sections ih =>
    -- `rw [requestEach]` would first make Lean prove its equations, which takes seconds.
    dsimp only [requestEach]
    rw [apiHandler_singleton, List.map_cons, commitAll, Nat.add_zero]
    cases commit C d p.own (envs n).env with
    | none => rfl
    | some d => exact ih

end Request

section Outcome

variable {C : Primitives} {F : TextFormat} {envs : Nat → ApiEnv} {d d' : Device} {n : Nat}
  {key : FixedBytes 32} {s : PeerSettings} {ss : List PeerSettings} {env : Env}

structure PeerConfig where
  endpoint : Option SocketAddr
  presharedKey : Option (FixedBytes 32)
  keepalive : Nat

def Peer.config (p : Peer) : PeerConfig where
  endpoint := p.endpoint.addr
  presharedKey := p.presharedKey
  keepalive := p.tunnel.timers.persistentKeepalive

def configOf (d : Device) (key : FixedBytes 32) : Option PeerConfig :=
  match d.peers.lookup key with
  | none => none
  | some id => (d.peerArena.get id).map Peer.config

/--
How a peer that the device did not hold is configured by these settings.
-/
def PeerSettings.outcome (s : PeerSettings) : Option PeerConfig :=
  if s.remove then
    none
  else
    some {
      endpoint := s.endpoint
      presharedKey := s.presharedKey
      keepalive := (s.keepalive.getD 0).toNat
    }

theorem configOf_eq_none (h : d.peers.lookup key = none) : configOf d key = none := by
  rw [configOf, h]

theorem lookup_removePeer_of_ne {key' : FixedBytes 32} (hne : key ≠ key')
    : (d.removePeer key').peers.lookup key = d.peers.lookup key := by
  unfold removePeer
  split
  . rfl
  . split
    . rfl
    . simp only [peers_shutdownEndpoint, HashMap.lookup_erase, if_neg hne]

theorem configOf_removePeer_of_ne {key' : FixedBytes 32} (hne : key ≠ key')
    : configOf (d.removePeer key') key = configOf d key := by
  have hget : ∀ id, ((d.removePeer key').peerArena.get id).map Peer.config
      = (d.peerArena.get id).map Peer.config := by
    intro id
    unfold removePeer
    split
    . rfl
    . split
      . rfl
      . exact map_get_shutdownEndpoint d _ id Peer.config fun _ => rfl
  unfold configOf
  rw [lookup_removePeer_of_ne hne]
  split
  . rfl
  . exact hget _

theorem lookup_commit_of_ne (h : commit C d s env = some d') (hne : key ≠ s.publicKey)
    : d'.peers.lookup key = d.peers.lookup key := by
  cases updatePeer_cases h with
  | remove _ hdevice => rw [hdevice, lookup_removePeer_of_ne hne]
  | add _ _ _ _ _ _ _ _ _ _ _ _ hdevice =>
    rw [hdevice]
    exact (HashMap.lookup_insert _ _ _ _).trans (if_neg hne)

theorem configOf_commit_of_ne {config : PeerConfig} (h : commit C d s env = some d')
    (hne : key ≠ s.publicKey) (hconfig : configOf d key = some config)
    : configOf d' key = some config := by
  cases updatePeer_cases h with
  | remove _ hdevice => rw [hdevice, configOf_removePeer_of_ne hne, hconfig]
  | add _ _ _ _ _ _ _ _ _ _ _ _ hdevice =>
    have hlookup := lookup_commit_of_ne h hne
    unfold configOf at *
    rw [hlookup]
    split at hconfig
    . simp at hconfig
    . next id hid =>
      obtain ⟨p, hp, _⟩ := Option.map_eq_some_iff.mp hconfig
      have hlt := Arena.lt_size_of_get hp
      rw [hdevice, get_addPeer, if_neg (Nat.ne_of_lt hlt)]
      exact hconfig

theorem commit_of_absent (hremove : s.remove = true) (habsent : d.peers.lookup s.publicKey = none)
    : commit C d s env = some d := by
  rw [commit, updatePeer, if_pos hremove, removePeer, habsent]

theorem configOf_commit (h : commit C d s env = some d')
    (habsent : s.remove = true → d.peers.lookup s.publicKey = none)
    : configOf d' s.publicKey = s.outcome := by
  cases updatePeer_cases h with
  | remove hremove _ =>
    rw [commit_of_absent hremove (habsent hremove)] at h
    cases h
    rw [configOf_eq_none (habsent hremove), PeerSettings.outcome, if_pos hremove]
  | add _ _ _ _ _ _ p hremove _ _ _ hpeer hdevice =>
    have hlookup : d'.peers.lookup s.publicKey = some d.peerArena.size := by
      rw [hdevice]
      exact (HashMap.lookup_insert _ _ _ _).trans (if_pos rfl)
    rw [configOf, hlookup, hdevice, PeerSettings.outcome, hremove]
    dsimp only
    rw [get_addPeer, if_pos rfl, hpeer]
    rfl

theorem updatePeer_keepalive {keepalive keepalive' : Option UInt16} {remove : Bool}
    {endpoint : Option SocketAddr} {ips : List AllowedIP} {presharedKey : Option (FixedBytes 32)}
    (h : (keepalive.getD 0).toNat = (keepalive'.getD 0).toNat)
    : d.updatePeer C key remove endpoint ips keepalive presharedKey env
        =
      d.updatePeer C key remove endpoint ips keepalive' presharedKey env := by
  have htunn : ∀ privateKey index ref stamper,
      Noise.Tunn.new C.noise privateKey key presharedKey keepalive index ref true stamper env.now
        =
      Noise.Tunn.new C.noise privateKey key presharedKey keepalive' index ref true stamper env.now := by
    intro privateKey index ref stamper
    simp only [Noise.Tunn.new, Noise.Timers.new, h]
  unfold updatePeer
  simp only [htunn]

theorem commit_congr {s' : PeerSettings} (hkey : s.publicKey = s'.publicKey)
    (hips : s.allowedIps = s'.allowedIps) (houtcome : s.outcome = s'.outcome)
    : commit C d s env = commit C d s' env := by
  unfold PeerSettings.outcome at houtcome
  cases hremove : s.remove with
  | true =>
    cases hremove' : s'.remove with
    | true => rw [commit, commit, updatePeer, updatePeer, hremove, hremove', hkey, if_pos rfl, if_pos rfl]
    | false => simp [hremove, hremove'] at houtcome
  | false =>
    cases hremove' : s'.remove with
    | true => simp [hremove, hremove'] at houtcome
    | false =>
      simp only [hremove, hremove', Bool.false_eq_true, if_false, Option.some.injEq,
        PeerConfig.mk.injEq] at houtcome
      obtain ⟨hendpoint, hpresharedKey, hkeepalive⟩ := houtcome
      rw [commit, commit, hkey, hips, hendpoint, hpresharedKey, hremove, hremove',
        updatePeer_keepalive hkeepalive]

theorem commitAll_append (ss ss' : List PeerSettings)
    : commitAll C envs d n (ss ++ ss')
        =
      (commitAll C envs d n ss).bind fun d => commitAll C envs d (n + ss.length) ss' := by
  induction ss generalizing d n with
  | nil => rfl
  | cons s ss ih =>
    rw [List.cons_append, commitAll, commitAll]
    cases commit C d s (envs n).env with
    | none => rfl
    | some d =>
      dsimp only
      rw [ih, List.length_cons, Nat.add_assoc, Nat.add_comm 1]

theorem commitAll_of_notMem (h : commitAll C envs d n ss = some d')
    (hkey : key ∉ ss.map PeerSettings.publicKey)
    : d'.peers.lookup key = d.peers.lookup key
        ∧ ∀ config, configOf d key = some config → configOf d' key = some config := by
  induction ss generalizing d n with
  | nil =>
    cases h
    exact ⟨rfl, fun _ h => h⟩
  | cons s ss ih =>
    rw [List.map_cons, List.mem_cons, not_or] at hkey
    rw [commitAll] at h
    split at h
    . simp at h
    . next d₁ hcommit =>
      obtain ⟨hlookup, hconfig⟩ := ih h hkey.2
      refine ⟨hlookup.trans (lookup_commit_of_ne hcommit hkey.1), ?_⟩
      intro config h
      exact hconfig config (configOf_commit_of_ne hcommit hkey.1 h)

theorem configOf_commitAll {ss' : List PeerSettings}
    (h : commitAll C envs d n (ss ++ s :: ss') = some d')
    (hkeys : ((ss ++ s :: ss').map PeerSettings.publicKey).Nodup)
    (habsent : s.remove = true → d.peers.lookup s.publicKey = none)
    : configOf d' s.publicKey = s.outcome := by
  rw [List.map_append, List.map_cons, List.nodup_middle, List.nodup_cons, List.mem_append, not_or] at hkeys
  obtain ⟨⟨hbefore, hafter⟩, _⟩ := hkeys
  rw [commitAll_append, Option.bind_eq_some_iff] at h
  obtain ⟨d₁, h₁, h⟩ := h
  rw [commitAll] at h
  split at h
  . simp at h
  . next d₂ hcommit =>
    have habsent₁ : s.remove = true → d₁.peers.lookup s.publicKey = none := fun hremove =>
      (commitAll_of_notMem h₁ hbefore).1.trans (habsent hremove)
    obtain ⟨hlookup, hkept⟩ := commitAll_of_notMem h hafter
    cases houtcome : s.outcome with
    | some config => exact hkept config ((configOf_commit hcommit habsent₁).trans houtcome)
    | none =>
      have hremove : s.remove = true := by
        by_contra hremove
        rw [PeerSettings.outcome, if_neg hremove] at houtcome
        simp at houtcome
      rw [commit_of_absent hremove (habsent₁ hremove)] at hcommit
      cases hcommit
      exact configOf_eq_none (hlookup.trans (habsent₁ hremove))

end Outcome

section Independence

variable {C : Primitives} {F : TextFormat} {envs : Nat → ApiEnv} {d d' : Device} {n : Nat}

open PeerOption

/--
No option before a section is used in it, unless it makes no difference: an option that the section
gives itself, or any option if the section removes its peer.
-/
def Separate (before own : List PeerOption) : Prop :=
  lastOf remove? own ≠ some true →
    (lastOf remove? own = none → lastOf remove? before ≠ some true)
      ∧
    (lastOf endpoint? own = none → lastOf endpoint? before = none)
      ∧
    (lastOf presharedKey? own = none → lastOf presharedKey? before = none)
      ∧
    (lastOf keepalive? own = none → (lastOf keepalive? before).getD 0 = 0)

instance (before own : List PeerOption) : Decidable (Separate before own) :=
  inferInstanceAs (Decidable (_ → _))

namespace PeerSection

theorem read_eq (s : PeerSettings) (p : PeerSection F)
    : p.read s
        =
      { publicKey := p.key
        remove := (lastOf remove? p.settings).getD s.remove
        replaceIps := (lastOf replaceAllowedIps? p.settings).getD s.replaceIps
        endpoint := (lastOf endpoint? p.settings).or s.endpoint
        keepalive := (lastOf keepalive? p.settings).or s.keepalive
        presharedKey := (lastOf presharedKey? p.settings).or s.presharedKey
        allowedIps := p.settings.filterMap allowedIp? } := by
  rw [read, foldl_apply, List.nil_append]

theorem readAll_append (s : PeerSettings) (ps qs : List (PeerSection F))
    : readAll s (ps ++ qs) = readAll s ps ++ readAll (ps.foldl read s) qs := by
  induction ps generalizing s with
  | nil => rfl
  | cons p ps ih => rw [List.cons_append, readAll, ih, readAll, List.cons_append, List.foldl_cons]

theorem map_publicKey_readAll (s : PeerSettings) (ps : List (PeerSection F))
    : (readAll s ps).map PeerSettings.publicKey = ps.map key := by
  induction ps generalizing s with
  | nil => rfl
  | cons p ps ih => rw [readAll, List.map_cons, List.map_cons, ih, read_eq]

theorem map_publicKey_own (ps : List (PeerSection F))
    : (ps.map own).map PeerSettings.publicKey = ps.map key := by
  rw [List.map_map]
  apply List.map_congr_left
  intro p _
  rw [Function.comp, own, foldl_apply]
  rfl

theorem foldl_read (s : PeerSettings) (ps : List (PeerSection F))
    : (ps.foldl read s).remove = (lastOf remove? (ps.flatMap settings)).getD s.remove
        ∧
      (ps.foldl read s).endpoint = (lastOf endpoint? (ps.flatMap settings)).or s.endpoint
        ∧
      (ps.foldl read s).presharedKey = (lastOf presharedKey? (ps.flatMap settings)).or s.presharedKey
        ∧
      (ps.foldl read s).keepalive = (lastOf keepalive? (ps.flatMap settings)).or s.keepalive := by
  induction ps generalizing s with
  | nil => exact ⟨rfl, rfl, rfl, rfl⟩
  | cons p ps ih =>
    obtain ⟨hremove, hendpoint, hpresharedKey, hkeepalive⟩ := ih (p.read s)
    rw [List.foldl_cons, hremove, hendpoint, hpresharedKey, hkeepalive, List.flatMap_cons, read_eq]
    simp only [lastOf_append, Option.or_assoc, Option.getD_or, and_self]

theorem own_eq (p : PeerSection F) : p.own = p.read (.new p.key) := rfl

theorem or_eq_self_iff {α : Type} {a b : Option α} : a.or b = a ↔ (a = none → b = none) := by
  cases a <;> simp

theorem keepalive_getD_iff {a b : Option UInt16}
    : (a.getD (b.getD 0)).toNat = (a.getD 0).toNat ↔ (a = none → b.getD 0 = 0) := by
  cases a with
  | none => simp [← UInt16.toNat_inj]
  | some _ => simp

theorem outcome_read_iff (ps : List (PeerSection F)) (p : PeerSection F) (k : FixedBytes 32)
    : (p.read (ps.foldl read (.new k))).outcome = p.own.outcome
        ↔
      Separate (ps.flatMap settings) p.settings := by
  obtain ⟨hremove, hendpoint, hpresharedKey, hkeepalive⟩ := foldl_read (.new k) ps
  rw [own_eq, read_eq, read_eq, hremove, hendpoint, hpresharedKey, hkeepalive]
  simp only [PeerSettings.outcome, PeerSettings.new, Option.or_none, Separate]
  cases hown : lastOf remove? p.settings with
  | none =>
    cases hbefore : lastOf remove? (ps.flatMap settings) with
    | none => simp [or_eq_self_iff, keepalive_getD_iff]
    | some b => cases b <;> simp [or_eq_self_iff, keepalive_getD_iff]
  | some b => cases b <;> simp [or_eq_self_iff, keepalive_getD_iff]

theorem allowedIps_read (s s' : PeerSettings) (p : PeerSection F)
    : (p.read s).allowedIps = (p.read s').allowedIps := by
  rw [read_eq, read_eq]

theorem publicKey_read (s : PeerSettings) (p : PeerSection F) : (p.read s).publicKey = p.key := by
  rw [read_eq]

theorem commitAll_readAll (before ps : List (PeerSection F))
    (h : ∀ pre p post, ps = pre ++ p :: post →
      Separate ((before ++ pre).flatMap settings) p.settings)
    : commitAll C envs d n (readAll (before.foldl read (.new (.zero 32))) ps)
        =
      commitAll C envs d n (ps.map own) := by
  induction ps generalizing before d n with
  | nil => rfl
  | cons p ps ih =>
    have hfirst := h [] p ps rfl
    rw [List.append_nil, ← outcome_read_iff before p (.zero 32)] at hfirst
    have hrest : ∀ d n, commitAll C envs d n (readAll ((before ++ [p]).foldl read (.new (.zero 32))) ps)
        = commitAll C envs d n (ps.map own) := by
      intro d n
      apply ih
      rintro pre q post rfl
      have hq := h (p :: pre) q post rfl
      rw [List.append_cons] at hq
      exact hq
    have hkey := (publicKey_read (before.foldl read (.new (.zero 32))) p).trans
      (publicKey_read (.new p.key) p).symm
    rw [readAll, List.map_cons, commitAll, commitAll,
      commit_congr hkey (allowedIps_read _ (.new p.key) p) hfirst, ← own_eq]
    rw [List.foldl_append, List.foldl_cons, List.foldl_nil] at hrest
    cases commit C d p.own (envs n).env with
    | none => rfl
    | some d => exact hrest d (n + 1)

end PeerSection

/--
One request for all sections does the same as one request for each of them if and only if no section
uses an option of an earlier one.
-/
theorem peer_sections_independent_iff
    (order : (m : HashMap (FixedBytes 32) PeerId) → HashMap.Iteration m)
    {sections : List (PeerSection F)} (hkeys : (sections.map PeerSection.key).Nodup)
    (habsent : ∀ p ∈ sections, lastOf remove? p.settings = some true ∨ d.peers.lookup p.key = none)
    (heach : requestEach C envs order d 0 sections = some d')
    : (apiHandler C F envs d (order d.peers) (setRequest sections)).map Prod.fst = some d'
        ↔
      ∀ pre p post, sections = pre ++ p :: post →
        Separate (pre.flatMap PeerSection.settings) p.settings := by
  rw [requestEach_eq] at heach
  rw [apiHandler_setRequest _ _ (.zero 32), Option.map_map]
  change (commitAll C envs d 0 (PeerSection.readAll (.new (.zero 32)) sections)).map id = _ ↔ _
  rw [Option.map_id_apply]
  constructor
  . rintro hall pre p post rfl
    by_cases hremove : lastOf remove? p.settings = some true
    . exact fun hne => absurd hremove hne
    . have hmem : p ∈ pre ++ p :: post := List.mem_append_right pre List.mem_cons_self
      have habsent := (habsent p hmem).resolve_left hremove
      rw [← PeerSection.outcome_read_iff pre p (.zero 32)]
      -- Both sides are how the peer is configured in the end
      calc (p.read (pre.foldl PeerSection.read (.new (.zero 32)))).outcome
          = configOf d' p.key := by
            rw [← PeerSection.map_publicKey_readAll (.new (.zero 32))] at hkeys
            rw [PeerSection.readAll_append, PeerSection.readAll] at hall hkeys
            have hconfig := configOf_commitAll hall hkeys
            rw [PeerSection.publicKey_read] at hconfig
            exact (hconfig fun _ => habsent).symm
        _ = p.own.outcome := by
            rw [← PeerSection.map_publicKey_own] at hkeys
            rw [List.map_append, List.map_cons] at heach hkeys
            have hconfig := configOf_commitAll heach hkeys
            rw [PeerSection.own_eq, PeerSection.publicKey_read] at hconfig
            exact hconfig fun _ => habsent
  . intro hseparate
    rw [← heach]
    exact PeerSection.commitAll_readAll [] sections fun pre p post h => hseparate pre p post h

end Independence

end Uapi

namespace Sample

open Uapi (PeerSection hex notMem_hex keyBytes_hex)

def peerSection (key : FixedBytes 32) (options : List (List Char × Uapi.PeerOption))
    (hparse : ∀ line ∈ options, Uapi.parsePeerLine textFormat line.1 = some (.ok (.option line.2)))
    (hlineFeed : ∀ line ∈ options, '\n' ∉ line.1)
    : PeerSection textFormat where
  keyText := hex key.val
  key := key
  options := options
  keyBytes_keyText := keyBytes_hex textFormat key
  lineFeed_keyText := notMem_hex (by decide) _
  equals_keyText := notMem_hex (by decide) _
  parse_options := hparse
  lineFeed_options := hlineFeed

def removeOld : PeerSection textFormat :=
  peerSection (key 2) [("remove=true".toList, .remove true)] (by simp; rfl) (by decide)

def addNew : PeerSection textFormat :=
  peerSection (key 3)
    [(Uapi.field "allowed_ip" (textFormat.displayIp (.v4 clientIp) ++ "/32".toList),
      .allowedIp ⟨.v4 clientIp, 32, IpAddr.le_width_v4 clientIp⟩)]
    (by
      rw [List.forall_mem_singleton]
      exact Uapi.parsePeerLine_allowedIp textFormat clientIp)
    (by decide +kernel)

def withOld : List Event := [
  .setKey (key 1) env,
  .updatePeer (key 2) false none [⟨.v4 clientIp, 32, IpAddr.le_width_v4 clientIp⟩] none none env
]

def apiEnv (_ : Nat) : Uapi.ApiEnv where
  env := env
  assigned := some 7000
  marks := true

end Sample

namespace Uapi

/--
A request removes a peer and adds another one. The second peer is only added if it has a request of
its own.
-/
theorem exists_sections_dependent
    : ∃ ts d d₁ d₂, (machine Sample.primitives).Run Sample.server ts d
        ∧ d.keyPair.isSome ∧ d.peers.lookup (Sample.key 3) = none
        ∧
      ∀ order : (m : HashMap (FixedBytes 32) PeerId) → HashMap.Iteration m,
        requestEach Sample.primitives Sample.apiEnv order d 0 [Sample.removeOld, Sample.addNew] = some d₁
          ∧
        (d₁.peers.lookup (Sample.key 3)).isSome
          ∧
        apiHandler Sample.primitives Sample.textFormat Sample.apiEnv d (order d.peers)
          (setRequest [Sample.removeOld, Sample.addNew]) = some (d₂, trailer .success)
          ∧
        d₂.peers.lookup (Sample.key 3) = none := by
  let commits := fun (d : Device) => commitAll Sample.primitives Sample.apiEnv d 0
  obtain ⟨ts, d, hrun, h⟩ := Machine.Run.exists_of_exec (machine Sample.primitives) Sample.server
    Sample.withOld
    (fun _ d => d.keyPair.isSome && decide (d.peers.lookup (Sample.key 3) = none)
      && (commits d ([Sample.removeOld, Sample.addNew].map PeerSection.own)).any
        (fun (d₁ : Device) => (d₁.peers.lookup (Sample.key 3)).isSome)
      && (commits d (PeerSection.readAll (.new (.zero 32)) [Sample.removeOld, Sample.addNew])).any
        (fun (d₂ : Device) => decide (d₂.peers.lookup (Sample.key 3) = none)))
    (by decide +kernel)
  simp only [Bool.and_eq_true, Option.any_eq_true, decide_eq_true_eq] at h
  obtain ⟨⟨⟨hkeyPair, habsent⟩, d₁, heach, hadded⟩, d₂, hall, hmissing⟩ := h
  refine ⟨ts, d, d₁, d₂, hrun, hkeyPair, habsent, fun order => ⟨?_, hadded, ?_, hmissing⟩⟩
  . rw [requestEach_eq]
    exact heach
  . rw [apiHandler_setRequest _ _ (.zero 32)]
    exact congrArg (Option.map fun d => (d, trailer .success)) hall

theorem peer_sections_independent_iff_replace
    : ∃ ts d d', (machine Sample.primitives).Run Sample.server ts d
        ∧ (d.peers.lookup (Sample.key 2)).isSome
        ∧
      ∀ order : (m : HashMap (FixedBytes 32) PeerId) → HashMap.Iteration m,
        requestEach Sample.primitives Sample.apiEnv order d 0 [Sample.addNew, Sample.removeOld] = some d'
          ∧
        (apiHandler Sample.primitives Sample.textFormat Sample.apiEnv d (order d.peers)
          (setRequest [Sample.addNew, Sample.removeOld])).map Prod.fst = some d' := by
  obtain ⟨ts, d, hrun, h⟩ := Machine.Run.exists_of_exec (machine Sample.primitives) Sample.server
    Sample.withOld
    (fun _ d => decide (d.peers.lookup (Sample.key 3) = none)
      && (d.peers.lookup (Sample.key 2)).isSome
      && (commitAll Sample.primitives Sample.apiEnv d 0
        ([Sample.addNew, Sample.removeOld].map PeerSection.own)).isSome)
    (by decide +kernel)
  simp only [Bool.and_eq_true, decide_eq_true_eq, Option.isSome_iff_exists] at h
  obtain ⟨⟨habsent, hheld⟩, d', heach⟩ := h
  refine ⟨ts, d, d', hrun, Option.isSome_iff_exists.mpr hheld, fun order => ?_⟩
  rw [← requestEach_eq order] at heach
  refine ⟨heach, (peer_sections_independent_iff order ?_ ?_ heach).mpr ?_⟩
  . decide
  . rw [List.forall_mem_cons, List.forall_mem_singleton]
    exact ⟨.inr habsent, .inl rfl⟩
  . rintro (_ | ⟨q, _ | ⟨q', pre⟩⟩) p post hsections
    . cases hsections
      decide
    . cases hsections
      decide
    . simp at hsections

end Uapi

end Device
