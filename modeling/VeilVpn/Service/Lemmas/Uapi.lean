import VeilVpn.Device.Lemmas.Uapi
import VeilVpn.Device.Lemmas.KeyText
import VeilVpn.Registration.Impl.Uapi
import VeilVpn.Service.Lemmas.Stale

namespace Service

open Device.Uapi (TextFormat ApiEnv field hex notMem_hex peerLines deviceLines handshakeLines quotaLines
  displayBool)
open Registration (UapiReader)

/--
The line ends where it should, and is neither empty nor the end of the answer.
-/
structure Shown (line : List Char) : Prop where
  lineFeed : '\n' ∉ line
  carriageReturn : '\r' ∉ line
  nonempty : line.isEmpty = false
  notErrno : "errno=".toList.isPrefixOf line = false

structure Printable (val : List Char) : Prop where
  lineFeed : '\n' ∉ val
  carriageReturn : '\r' ∉ val

section Printable

theorem printable_display (n : Nat) : Printable (Decimal.display n) :=
  ⟨Decimal.notMem_display (by decide) n, Decimal.notMem_display (by decide) n⟩

theorem printable_displayBool (b : Bool) : Printable (displayBool b) := by
  cases b <;> exact ⟨by decide, by decide⟩

theorem printable_hex (b : Bytes) : Printable (hex b) :=
  ⟨notMem_hex (by decide) b, notMem_hex (by decide) b⟩

theorem Printable.append_cons {val val' : List Char} {c : Char} (h : Printable val)
    (hc : c ≠ '\n' ∧ c ≠ '\r') (h' : Printable val')
    : Printable (val ++ c :: val') where
  lineFeed := by
    simp only [List.mem_append, List.mem_cons, not_or]
    exact ⟨h.lineFeed, hc.1.symm, h'.lineFeed⟩
  carriageReturn := by
    simp only [List.mem_append, List.mem_cons, not_or]
    exact ⟨h.carriageReturn, hc.2.symm, h'.carriageReturn⟩

theorem printable_displayIp (F : TextFormat) (ip : IpAddr) : Printable (F.displayIp ip) where
  lineFeed := fun h => (F.printable_displayIp ip _ h).1 rfl
  carriageReturn := fun h => (F.printable_displayIp ip _ h).2.1 rfl

theorem printable_displaySocketAddr (F : TextFormat) (addr : SocketAddr)
    : Printable (F.displaySocketAddr addr) where
  lineFeed := fun h => (F.printable_displaySocketAddr addr _ h).1 rfl
  carriageReturn := fun h => (F.printable_displaySocketAddr addr _ h).2 rfl

def IsKey (key : String) : Prop :=
  '\n' ∉ key.toList ∧ '\r' ∉ key.toList ∧ '=' ∉ key.toList ∧ key ≠ "errno"

instance (key : String) : Decidable (IsKey key) :=
  inferInstanceAs (Decidable (_ ∧ _))

theorem shown_field {key : String} {val : List Char} (hkey : IsKey key) (hval : Printable val)
    : Shown (field key val) where
  lineFeed := by
    simp only [field, List.mem_append, List.mem_cons, not_or]
    exact ⟨hkey.1, by decide, hval.lineFeed⟩
  carriageReturn := by
    simp only [field, List.mem_append, List.mem_cons, not_or]
    exact ⟨hkey.2.1, by decide, hval.carriageReturn⟩
  nonempty := by simp [field]
  notErrno := by
    rw [← Bool.not_eq_true, List.isPrefixOf_iff_prefix]
    rintro ⟨rest, heq⟩
    have herrno : '=' ∉ "errno".toList := by decide
    have hsplit : some (key.toList, val) = some ("errno".toList, rest) := by
      rw [← Lines.splitOnce_append hkey.2.2.1, ← Lines.splitOnce_append herrno]
      exact congrArg (Lines.splitOnce '=') heq.symm
    rw [Option.some.injEq, Prod.mk.injEq, String.toList_inj] at hsplit
    exact hkey.2.2.2 hsplit.1

theorem shown_deviceLines (d : Device) : ∀ line ∈ deviceLines d, Shown line := by
  intro line hline
  simp only [deviceLines, List.mem_append, Option.mem_toList, Option.map_eq_some_iff] at hline
  rcases hline with (⟨_, _, rfl⟩ | hline) | ⟨_, _, rfl⟩
  . exact shown_field (by decide) (printable_hex _)
  . split at hline
    . rw [List.mem_singleton] at hline
      subst hline
      exact shown_field (by decide) (printable_display _)
    . simp at hline
  . exact shown_field (by decide) (printable_display _)

inductive PeerField (F : TextFormat) (p : Device.Peer) (key : FixedBytes 32) (now : Instant)
    : String → List Char → Prop where
  | publicKey : PeerField F p key now "public_key" (hex key.val)
  | presharedKey (presharedKey : FixedBytes 32)
    : PeerField F p key now "preshared_key" (hex presharedKey.val)
  | persistentKeepalive (keepalive : UInt16)
    : PeerField F p key now "persistent_keepalive_interval" (Decimal.display keepalive.toNat)
  | endpoint (addr : SocketAddr) : PeerField F p key now "endpoint" (F.displaySocketAddr addr)
  | allowedIp (ip : IpAddr) (cidr : Nat)
    : PeerField F p key now "allowed_ip" (F.displayIp ip ++ '/' :: Decimal.display cidr)
  | lastHandshakeSec (time : Duration) (htime : p.timeSinceLastHandshake now = some (some time))
    : PeerField F p key now "last_handshake_time_sec" (Decimal.display time.asSecs)
  | lastHandshakeNsec (time : Duration)
    : PeerField F p key now "last_handshake_time_nsec" (Decimal.display time.subsecNanos)
  | rxBytes : PeerField F p key now "rx_bytes" (Decimal.display p.tunnel.rxBytes)
  | txBytes : PeerField F p key now "tx_bytes" (Decimal.display p.tunnel.txBytes)
  | quotaRemaining (n : Nat) : PeerField F p key now "quota_remaining" (Decimal.display n)
  | quotaBlocked (blocked : Bool) : PeerField F p key now "quota_blocked" (displayBool blocked)
  | quotaTotalConsumed (n : Nat) : PeerField F p key now "quota_total_consumed" (Decimal.display n)
  | quotaPaymentCount (n : Nat) : PeerField F p key now "quota_payment_count" (Decimal.display n)

section PeerField

variable {F : TextFormat} {p : Device.Peer} {key : FixedBytes 32} {now : Instant}
  {lines : List (List Char)} {line : List Char}

theorem peerField_of_mem (h : peerLines F p key now = some lines) (hline : line ∈ lines)
    : ∃ name val, line = field name val ∧ PeerField F p key now name val := by
  unfold peerLines at h
  split at h
  . simp at h
  . next time htime =>
    cases h
    simp only [List.mem_cons, List.mem_append, Option.mem_toList, Option.map_eq_some_iff,
      List.mem_map, List.not_mem_nil, or_false] at hline
    rcases hline with rfl | (((((⟨_, _, rfl⟩ | ⟨_, _, rfl⟩) | ⟨_, _, rfl⟩) | ⟨_, _, rfl⟩) | hline)
      | rfl | rfl) | hline
    . exact ⟨_, _, rfl, .publicKey⟩
    . exact ⟨_, _, rfl, .presharedKey _⟩
    . exact ⟨_, _, rfl, .persistentKeepalive _⟩
    . exact ⟨_, _, rfl, .endpoint _⟩
    . exact ⟨_, _, rfl, .allowedIp _ _⟩
    . cases time with
      | none => simp at hline
      | some time =>
        simp only [Option.map_some, Option.getD_some, handshakeLines, List.mem_cons,
          List.not_mem_nil, or_false] at hline
        rcases hline with rfl | rfl
        . exact ⟨_, _, rfl, .lastHandshakeSec time htime⟩
        . exact ⟨_, _, rfl, .lastHandshakeNsec time⟩
    . exact ⟨_, _, rfl, .rxBytes⟩
    . exact ⟨_, _, rfl, .txBytes⟩
    . cases hquota : p.quota with
      | none => simp [hquota] at hline
      | some quota =>
        simp only [hquota, Option.map_some, Option.getD_some, quotaLines, List.mem_cons,
          List.not_mem_nil, or_false] at hline
        rcases hline with rfl | rfl | rfl | rfl
        . exact ⟨_, _, rfl, .quotaRemaining _⟩
        . exact ⟨_, _, rfl, .quotaBlocked _⟩
        . exact ⟨_, _, rfl, .quotaTotalConsumed _⟩
        . exact ⟨_, _, rfl, .quotaPaymentCount _⟩

theorem PeerField.isKey {name : String} {val : List Char} (h : PeerField F p key now name val)
    : IsKey name := by
  cases h <;> decide +kernel

theorem PeerField.printable {name : String} {val : List Char} (h : PeerField F p key now name val)
    : Printable val := by
  cases h with
  | publicKey => exact printable_hex _
  | presharedKey _ => exact printable_hex _
  | endpoint addr => exact printable_displaySocketAddr F addr
  | allowedIp ip _ => exact (printable_displayIp F ip).append_cons (by decide) (printable_display _)
  | quotaBlocked blocked => exact printable_displayBool blocked
  | _ => exact printable_display _

theorem shown_peerLines (h : peerLines F p key now = some lines) : ∀ line ∈ lines, Shown line := by
  intro line hline
  obtain ⟨name, val, rfl, hfield⟩ := peerField_of_mem h hline
  exact shown_field hfield.isKey hfield.printable

end PeerField

end Printable

section Read

variable {B : Registration.Base64} {F : TextFormat} {r : UapiReader} {lines rest : List (List Char)}

theorem readLine_field {key : String} (hkey : IsKey key) (val : List Char) (r : UapiReader)
    : r.readLine B (field key val) = r.readField B key val := by
  rw [UapiReader.readLine, field, Lines.splitOnce_append hkey.2.2.1]
  simp only [String.ofList_toList]

theorem readLines_map (hlines : ∀ line ∈ lines, Shown line) (r : UapiReader)
    : r.readLines B (lines.map (· ++ ['\n']) ++ rest)
        =
      (lines.foldl (UapiReader.readLine B) r).readLines B rest := by
  induction lines generalizing r with
  | nil => rfl
  | cons line lines ih =>
    have hline := hlines line List.mem_cons_self
    rw [List.map_cons, List.cons_append, UapiReader.readLines, Lines.strip_append hline.carriageReturn]
    simp only [hline.nonempty, hline.notErrno, Bool.false_eq_true, if_false]
    exact ih (fun l hl => hlines l (List.mem_cons_of_mem line hl)) _

theorem foldl_readLine_of_ignored (hlines : ∀ line ∈ lines, ∀ r, UapiReader.readLine B r line = r)
    (r : UapiReader)
    : lines.foldl (UapiReader.readLine B) r = r := by
  induction lines with
  | nil => rfl
  | cons line lines ih =>
    rw [List.foldl_cons, hlines line List.mem_cons_self]
    exact ih fun l hl => hlines l (List.mem_cons_of_mem line hl)

def readKeys : List String :=
  ["own_public_key", "listen_port", "public_key", "last_handshake_time_sec"]

theorem readLine_of_ignored {key : String} (hkey : IsKey key) (hignored : key ∉ readKeys)
    (val : List Char) (r : UapiReader)
    : r.readLine B (field key val) = r := by
  simp only [readKeys, List.mem_cons, List.not_mem_nil, or_false, not_or] at hignored
  obtain ⟨hown, hport, hkey', htime⟩ := hignored
  rw [readLine_field hkey, UapiReader.readField]
  . exact hown
  . exact hport
  . exact hkey'
  . exact htime

theorem foldl_readLine_option {α : Type} {key : String} (hkey : IsKey key) (hignored : key ∉ readKeys)
    (o : Option α) (val : α → List Char) (r : UapiReader)
    : (o.map fun a => field key (val a)).toList.foldl (UapiReader.readLine B) r = r := by
  apply foldl_readLine_of_ignored
  intro line hline r
  rw [Option.mem_toList, Option.map_eq_some_iff] at hline
  obtain ⟨a, _, rfl⟩ := hline
  exact readLine_of_ignored hkey hignored _ r

theorem foldl_readLine_quotaLines (quota : Option Payment.BandwidthQuota) (r : UapiReader)
    : ((quota.map quotaLines).getD []).foldl (UapiReader.readLine B) r = r := by
  cases quota with
  | none => rfl
  | some quota =>
    simp only [Option.map_some, Option.getD_some, quotaLines, List.foldl_cons, List.foldl_nil]
    rw [readLine_of_ignored (by decide) (by decide), readLine_of_ignored (by decide) (by decide),
      readLine_of_ignored (by decide) (by decide), readLine_of_ignored (by decide) (by decide)]

theorem foldl_readLine_handshakeLines {time : Option Duration}
    (htime : ∀ t ∈ time, Duration.asSecs t < 2 ^ 64) (hr : r.currentHandshake = none)
    : ((time.map handshakeLines).getD []).foldl (UapiReader.readLine B) r
        =
      { r with currentHandshake := time.map Duration.asSecs } := by
  cases time with
  | none =>
    cases r
    cases hr
    rfl
  | some time =>
    have hparse := Decimal.parseBelow_display (htime time rfl)
    have hnsec : ∀ val (r : UapiReader), r.readLine B (field "last_handshake_time_nsec" val) = r :=
      readLine_of_ignored (by decide) (by decide)
    simp only [Option.map_some, Option.getD_some, handshakeLines, List.foldl_cons, List.foldl_nil]
    rw [hnsec, readLine_field (by decide)]
    simp only [UapiReader.readField, hparse]

theorem asSecs_le_of_timeSinceLastHandshake {t : Noise.Tunn} {now : Instant} {time : Option Duration}
    (h : t.timeSinceLastHandshake now = some time)
    : ∀ age ∈ time, Duration.asSecs age ≤ Duration.asSecs now := by
  intro age hage
  rw [timeSinceLastHandshake_eq_some h] at hage
  split at hage
  . cases hage
    apply Nat.div_le_div_right
    unfold sessionAge Instant.durationSince
    omega
  . simp at hage

theorem exists_of_peerLines {p : Device.Peer} {key : FixedBytes 32} {now : Instant}
    (h : peerLines F p key now = some lines)
    : ∃ time, p.timeSinceLastHandshake now = some time := by
  unfold peerLines at h
  split at h
  . simp at h
  . next time htime => exact ⟨time, htime⟩

theorem foldl_readLine_peerLines {p : Device.Peer} {key : FixedBytes 32} {now : Instant}
    {time : Option Duration} (htime : p.timeSinceLastHandshake now = some time)
    (hclock : Duration.asSecs now < 2 ^ 64) (h : peerLines F p key now = some lines) (r : UapiReader)
    : lines.foldl (UapiReader.readLine B) r
        =
      { r.flush with
        currentPubkey := some (Hex.encode key.val)
        currentHandshake := time.map Duration.asSecs } := by
  have hages : ∀ t ∈ time, Duration.asSecs t < 2 ^ 64 := fun t ht =>
    Nat.lt_of_le_of_lt (asSecs_le_of_timeSinceLastHandshake htime t ht) hclock
  have hips : ∀ (ips : List (List Char)) (r : UapiReader),
      (∀ line ∈ ips, ∃ val, line = field "allowed_ip" val) →
        ips.foldl (UapiReader.readLine B) r = r := by
    intro ips r hips
    apply foldl_readLine_of_ignored
    intro line hline r
    obtain ⟨_, rfl⟩ := hips line hline
    exact readLine_of_ignored (by decide) (by decide) _ r
  have hbytes : ∀ val val' (r : UapiReader),
      [field "rx_bytes" val, field "tx_bytes" val'].foldl (UapiReader.readLine B) r = r := by
    intro val val' r
    rw [List.foldl_cons, List.foldl_cons, List.foldl_nil, readLine_of_ignored (by decide) (by decide),
      readLine_of_ignored (by decide) (by decide)]
  unfold peerLines at h
  rw [htime] at h
  cases h
  rw [List.foldl_cons, readLine_field (by decide), List.foldl_append, List.foldl_append, List.foldl_append,
    List.foldl_append, List.foldl_append, List.foldl_append,
    foldl_readLine_option (by decide) (by decide),
    foldl_readLine_option (by decide) (by decide), foldl_readLine_option (by decide) (by decide),
    hips (p.allowedIps.iter.map _),
    foldl_readLine_handshakeLines hages rfl, hbytes, foldl_readLine_quotaLines]
  . simp only [UapiReader.readField, hex, String.ofList_toList]
  . intro line hline
    obtain ⟨_, _, rfl⟩ := List.mem_map.mp hline
    exact ⟨_, rfl⟩

def finish (r : UapiReader) : Registration.UapiPeers where
  ownPubkey := r.flush.ownPubkey
  listenPort := r.flush.listenPort
  peers := r.flush.peers

theorem finish_flush (r : UapiReader) : finish r.flush = finish r := by
  have hflush : r.flush.flush = r.flush := by
    cases hpubkey : r.currentPubkey <;> simp [UapiReader.flush, hpubkey]
  rw [finish, hflush, finish]

theorem finish_foldl_peerLines {p : Device.Peer} {key : FixedBytes 32} {now : Instant}
    {time : Option Duration} (htime : p.timeSinceLastHandshake now = some time)
    (hclock : Duration.asSecs now < 2 ^ 64) (h : peerLines F p key now = some lines) (r : UapiReader)
    : finish (lines.foldl (UapiReader.readLine B) r)
        =
      { finish r with
        peers := (finish r).peers.insert (Hex.encode key.val) (time.map Duration.asSecs) } := by
  rw [foldl_readLine_peerLines htime hclock h]
  rfl

variable {d : Device} {now : Instant}

theorem finish_foldl_sections {entries : List (FixedBytes 32 × Device.PeerId)}
    {sections : List (List (List Char))} (hclock : Duration.asSecs now < 2 ^ 64)
    (h : entries.mapM (fun (key, id) => do peerLines F (← d.peerArena.get id) key now) = some sections)
    (r : UapiReader)
    : ∃ peers,
        entries.mapM (fun (key, id) => d.apiGetPeer now key id) = some peers
          ∧
        finish (sections.flatten.foldl (UapiReader.readLine B) r)
          =
        { finish r with
          peers := peers.foldl (fun peers p => peers.insert p.publicKey p.lastHandshakeTimeSec)
            (finish r).peers } := by
  induction entries generalizing sections r with
  | nil =>
    cases h
    exact ⟨[], rfl, rfl⟩
  | cons entry entries ih =>
    obtain ⟨key, id⟩ := entry
    obtain ⟨lines, rest, hlines, hrest, rfl⟩ := cons_mapM_eq_some h
    obtain ⟨p, hp, hlines⟩ := Option.bind_eq_some_iff.mp hlines
    obtain ⟨time, htime⟩ := exists_of_peerLines hlines
    obtain ⟨peers, hpeers, hfinish⟩ := ih hrest (lines.foldl (UapiReader.readLine B) r)
    let peer : Device.ApiPeer := {
      publicKey := Hex.encode key.val
      lastHandshakeTimeSec := time.map Duration.asSecs
    }
    have hpeer : d.apiGetPeer now key id = some peer := by
      rw [Device.Peer.timeSinceLastHandshake] at htime
      simp only [Device.apiGetPeer, hp, htime, peer]
    refine ⟨peer :: peers, ?_, ?_⟩
    . simp only [List.mapM_cons, hpeer, hpeers]
      rfl
    . rw [List.flatten_cons, List.foldl_append, hfinish, finish_foldl_peerLines htime hclock hlines]
      rfl

theorem foldl_readLine_ownPublicKey (keyPair : Option (FixedBytes 32 × FixedBytes 32))
    : (keyPair.map fun keyPair => field "own_public_key" (hex keyPair.2.val)).toList.foldl
          (UapiReader.readLine B) .new
        =
      { UapiReader.new with ownPubkey := keyPair.map fun keyPair => B.encode keyPair.2.val } := by
  cases keyPair with
  | none => rfl
  | some keyPair =>
    rw [Option.map_some, Option.toList_some, List.foldl_cons, List.foldl_nil,
      readLine_field (by decide)]
    simp only [UapiReader.readField, hex, String.ofList_toList, Hex.decode_encode, Option.map_some]

theorem foldl_readLine_listenPort (port : UInt16) (hr : r.listenPort = none)
    : (if port ≠ 0 then [field "listen_port" (Decimal.display port.toNat)] else []).foldl
          (UapiReader.readLine B) r
        =
      { r with listenPort := if port ≠ 0 then some port else none } := by
  split
  . have hparse := Decimal.parseBelow_display port.toNat_lt
    rw [List.foldl_cons, List.foldl_nil, readLine_field (by decide)]
    simp only [UapiReader.readField, hparse, Option.map_some, UInt16.ofNat_toNat]
  . cases r
    cases hr
    rfl

theorem finish_foldl_deviceLines (d : Device)
    : finish ((deviceLines d).foldl (UapiReader.readLine B) .new)
        =
      { ownPubkey := d.keyPair.map fun keyPair => B.encode keyPair.2.val
        listenPort := if d.listenPort ≠ 0 then some d.listenPort else none
        peers := ∅ } := by
  rw [deviceLines, List.foldl_append, List.foldl_append, foldl_readLine_ownPublicKey,
    foldl_readLine_listenPort _ rfl, foldl_readLine_option (by decide) (by decide)]
  rfl

theorem finish_readLines_trailer (r : UapiReader)
    : finish (r.readLines B (Lines.read (Device.Uapi.trailer .success))) = finish r := by
  have htrailer : Lines.read (Device.Uapi.trailer .success) = ["errno=0\n".toList, ['\n']] := by
    decide +kernel
  rw [htrailer]
  exact finish_flush r

theorem uapiGetPeers_write (hlines : ∀ line ∈ lines, Shown line)
    : Registration.uapiGetPeers B (Lines.write lines ++ Device.Uapi.trailer .success)
        =
      finish (lines.foldl (UapiReader.readLine B) .new) := by
  rw [← finish_readLines_trailer (B := B), ← readLines_map hlines,
    ← Lines.read_write fun line hline => (hlines line hline).lineFeed]
  rfl

theorem shown_apiGet {order : HashMap.Iteration d.peers}
    (h : Device.Uapi.apiGet F d order now = some lines)
    : ∀ line ∈ lines, Shown line := by
  unfold Device.Uapi.apiGet at h
  split at h
  . simp at h
  . next sections hsections =>
    cases h
    intro line hline
    rw [List.mem_append, List.mem_flatten] at hline
    rcases hline with hline | ⟨lines, hlines, hline⟩
    . exact shown_deviceLines d line hline
    . obtain ⟨⟨key, id⟩, _, hpeer⟩ := exists_of_mem_mapM hsections hlines
      obtain ⟨p, _, hpeer⟩ := Option.bind_eq_some_iff.mp hpeer
      exact shown_peerLines hpeer line hline

theorem uapiGetPeers_apiGet {order : HashMap.Iteration d.peers}
    (hclock : Duration.asSecs now < 2 ^ 64) (h : Device.Uapi.apiGet F d order now = some lines)
    : ∃ answer,
        d.apiGet order now = some answer
          ∧
        Registration.uapiGetPeers B (Lines.write lines ++ Device.Uapi.trailer .success)
          = readPeers B answer := by
  rw [uapiGetPeers_write (shown_apiGet h)]
  unfold Device.Uapi.apiGet at h
  split at h
  . simp at h
  . next sections hsections =>
    cases h
    obtain ⟨peers, hpeers, hfinish⟩ := finish_foldl_sections (B := B) hclock hsections
      ((deviceLines d).foldl (UapiReader.readLine B) .new)
    let answer : Device.ApiGet := {
      ownPublicKey := d.keyPair.map Prod.snd
      listenPort := if d.listenPort ≠ 0 then some d.listenPort else none
      peers
    }
    refine ⟨answer, by simp only [Device.apiGet, hpeers, answer], ?_⟩
    rw [List.foldl_append, hfinish, finish_foldl_deviceLines]
    simp only [readPeers, answer, Option.map_map]
    rfl

end Read

section Requests

variable {C : Primitives} {F : TextFormat} {envs : Nat → ApiEnv} {d : Device}

theorem lineFeed_request {key : FixedBytes 32} {options : List (List Char)}
    (h : ∀ line ∈ options, '\n' ∉ line)
    : ∀ line ∈ field "public_key" (hex key.val) :: options, '\n' ∉ line := by
  rw [List.forall_mem_cons]
  exact ⟨(shown_field (by decide) (printable_hex _)).lineFeed, h⟩

theorem apiHandler_uapiSetPeer (order : HashMap.Iteration d.peers) (pubkey : FixedBytes 32)
    (ip : Ipv4Addr)
    : Device.Uapi.apiHandler C F envs d order
          (Registration.uapiSetPeer F (Hex.encode pubkey.val) ip)
        =
      (d.apiSetPeer C (Hex.encode pubkey.val) ip (envs 0).env).map
        fun d => (d, Device.Uapi.trailer .success) := by
  have hreplace : Device.Uapi.parsePeerLine F "replace_allowed_ips=true".toList
      = some (.ok (.option (.replaceAllowedIps true))) := rfl
  rw [Registration.uapiSetPeer, Device.Uapi.apiHandler_set]
  . simp only [List.map_cons, List.map_nil, List.nil_append]
    rw [← hex, Device.Uapi.apiSet_publicKey (Device.Uapi.keyBytes_hex F pubkey)
      (notMem_hex (by decide) _), Device.Uapi.apiSetPeer_option hreplace,
      Device.Uapi.apiSetPeer_option (Device.Uapi.parsePeerLine_allowedIp F ip), Device.Uapi.apiSetPeer_end, Device.apiSetPeer,
      parseKey_encode, Option.map_map]
    rfl
  . apply lineFeed_request
    simp only [List.forall_mem_cons]
    refine ⟨by decide, ?_, by decide, by simp⟩
    exact (shown_field (by decide)
      ((printable_displayIp F (.v4 ip)).append_cons (by decide) ⟨by decide, by decide⟩)).lineFeed

theorem apiHandler_uapiRemovePeer (order : HashMap.Iteration d.peers) (pubkey : FixedBytes 32)
    : Device.Uapi.apiHandler C F envs d order (Registration.uapiRemovePeer (Hex.encode pubkey.val))
        =
      (d.apiRemovePeer C (Hex.encode pubkey.val) (envs 0).env).map
        fun d => (d, Device.Uapi.trailer .success) := by
  have hremove : Device.Uapi.parsePeerLine F "remove=true".toList
      = some (.ok (.option (.remove true))) := rfl
  rw [Registration.uapiRemovePeer, Device.Uapi.apiHandler_set]
  . simp only [List.map_cons, List.map_nil, List.nil_append]
    rw [← hex, Device.Uapi.apiSet_publicKey (Device.Uapi.keyBytes_hex F pubkey)
      (notMem_hex (by decide) _), Device.Uapi.apiSetPeer_option hremove, Device.Uapi.apiSetPeer_end,
      Device.apiRemovePeer, parseKey_encode, Option.map_map]
    rfl
  . exact lineFeed_request (by decide)

end Requests

section Faithful

variable {F : TextFormat} {d : Device} {order : HashMap.Iteration d.peers} {now : Instant}
  {lines : List (List Char)}

theorem exists_of_lookup_readPeers {B : Registration.Base64} {answer : Device.ApiGet}
    (hget : d.apiGet order now = some answer) {pubkey : String} {age : Option Nat}
    (h : (readPeers B answer).peers.lookup pubkey = some age)
    : ∃ key id, d.peers.lookup key = some id ∧ pubkey = Hex.encode key.val := by
  by_cases hmem : pubkey ∈ answer.peers.map Device.ApiPeer.publicKey
  . obtain ⟨peer, hpeer, rfl⟩ := List.mem_map.mp hmem
    obtain ⟨⟨key, id⟩, hentry, hapi⟩ := exists_of_mem_mapM (Device.apiGet_eq_some hget) hpeer
    obtain ⟨_, _, _, _, rfl⟩ := Device.apiGetPeer_eq_some hapi
    exact ⟨key, id, (order.mem_entries_iff key id).mp hentry, rfl⟩
  . have hnone := HashMap.lookup_foldl_insert_of_notMem Device.ApiPeer.publicKey
      Device.ApiPeer.lastHandshakeTimeSec hmem ∅
    rw [readPeers, hnone] at h
    simp at h

/--
The registration reads the public key and the port of the device, and of every peer of the device
and of no other one the time since its own last handshake.
-/
theorem uapiGetPeers_faithful (B : Registration.Base64) (hclock : Duration.asSecs now < 2 ^ 64)
    (h : Device.Uapi.apiGet F d order now = some lines)
    : let uapi := Registration.uapiGetPeers B (Lines.write lines ++ Device.Uapi.trailer .success)
      uapi.ownPubkey = d.keyPair.map (fun keyPair => B.encode keyPair.2.val)
        ∧
      uapi.listenPort = (if d.listenPort = 0 then none else some d.listenPort)
        ∧
      (∀ key id, d.peers.lookup key = some id →
        ∃ p time, d.peerArena.get id = some p
          ∧ p.timeSinceLastHandshake now = some time
          ∧ uapi.peers.lookup (Hex.encode key.val) = some (time.map Duration.asSecs))
        ∧
      ∀ pubkey age, uapi.peers.lookup pubkey = some age →
        ∃ key id, d.peers.lookup key = some id ∧ pubkey = Hex.encode key.val := by
  obtain ⟨answer, hget, hread⟩ := uapiGetPeers_apiGet (B := B) hclock h
  intro uapi
  have huapi : uapi = readPeers B answer := hread
  rw [huapi]
  refine ⟨?_, ?_, fun key id hid => lookup_readPeers hget hid, fun pubkey age hage =>
    exists_of_lookup_readPeers hget hage⟩
  . rw [readPeers, (Device.apiGet_device hget).1, Option.map_map]
    rfl
  . exact (Device.apiGet_device hget).2

theorem exists_uapi_apiGet (F : TextFormat)
    (h : ∀ key id, d.peers.lookup key = some id →
      ∃ p time, d.peerArena.get id = some p ∧ p.timeSinceLastHandshake now = some time)
    (order : HashMap.Iteration d.peers)
    : ∃ lines, Device.Uapi.apiGet F d order now = some lines := by
  have hsome : ∀ entry ∈ order.entries,
      (do peerLines F (← d.peerArena.get entry.2) entry.1 now).isSome := by
    intro entry hentry
    rw [order.mem_entries_iff] at hentry
    obtain ⟨p, time, hget, htime⟩ := h entry.1 entry.2 hentry
    simp only [hget, Option.bind_eq_bind, Option.bind_some, peerLines, htime, Option.isSome_some]
  obtain ⟨sections, hsections⟩ := exists_mapM_eq_some hsome
  simp only [Device.Uapi.apiGet, hsections]
  exact ⟨_, rfl⟩

end Faithful

theorem uapiGetPeers_faithful_connected
    : ∃ ts d order lines,
        (Device.machine Device.Sample.primitives).Run Device.Sample.server ts d
          ∧
        Device.Uapi.apiGet Device.Sample.textFormat d order (Duration.fromSecs 560) = some lines
          ∧
        (Registration.uapiGetPeers Registration.Sample.base64
          (Lines.write lines ++ Device.Uapi.trailer .success)).peers.lookup
            (Hex.encode (Device.Sample.key 2).val) = some (some 560) := by
  obtain ⟨ts, d, hrun, h⟩ := Machine.Run.exists_of_exec (Device.machine Device.Sample.primitives)
    Device.Sample.server (Sample.silence.take 5)
    (fun _ d => decide (d.peers = Finmap.insert (Device.Sample.key 2) 0 ∅)
      && (d.peerArena.get 0).any fun (p : Device.Peer) =>
        decide (p.timeSinceLastHandshake (Duration.fromSecs 560) = some (some (Duration.fromSecs 560))))
    (by decide +kernel)
  simp only [Bool.and_eq_true, Option.any_eq_true, decide_eq_true_eq] at h
  obtain ⟨hpeers, p, hp, htime⟩ := h
  have hid : d.peers.lookup (Device.Sample.key 2) = some 0 := by
    rw [hpeers, HashMap.lookup_insert, if_pos rfl]
  have htimes : ∀ key id, d.peers.lookup key = some id →
      ∃ p time, d.peerArena.get id = some p
        ∧ p.timeSinceLastHandshake (Duration.fromSecs 560) = some time := by
    intro key id hid
    rw [hpeers, HashMap.lookup_insert] at hid
    split at hid
    . cases hid
      exact ⟨p, _, hp, htime⟩
    . simp at hid
  obtain ⟨order⟩ := HashMap.nonempty_iteration d.peers
  obtain ⟨lines, hlines⟩ := exists_uapi_apiGet Device.Sample.textFormat htimes order
  obtain ⟨_, _, hread, _⟩ := uapiGetPeers_faithful Registration.Sample.base64 (by decide) hlines
  obtain ⟨p', time, hp', htime', hlookup⟩ := hread _ _ hid
  rw [hp] at hp'
  cases hp'
  rw [htime] at htime'
  cases htime'
  exact ⟨ts, d, order, lines, hrun, hlines, hlookup⟩

end Service
