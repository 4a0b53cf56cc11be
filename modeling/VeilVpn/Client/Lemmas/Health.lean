import VeilVpn.Client.Impl.Health
import VeilVpn.Service.Lemmas.Uapi

namespace Client

open Device.Uapi (TextFormat field peerLines handshakeLines)
open Service (sessionAge)

/--
What `wg show` prints about the handshake with a peer, which is the value that the device tells.
-/
def latestHandshakes (pubkey published : List Char) : List Char :=
  pubkey ++ '\t' :: published ++ ['\n']

section Published

variable {F : TextFormat} {p : Device.Peer} {key : FixedBytes 32} {now : Instant}
  {lines : List (List Char)} {val val' : List Char}

theorem field_inj {name name' : String} (hname : '=' ∉ name.toList) (hname' : '=' ∉ name'.toList)
    (h : field name val = field name' val')
    : name = name' ∧ val = val' := by
  have hsplit := congrArg (Lines.splitOnce '=') h
  rw [field, field, Lines.splitOnce_append hname, Lines.splitOnce_append hname', Option.some.injEq,
    Prod.mk.injEq, String.toList_inj] at hsplit
  exact hsplit

theorem published_eq (h : peerLines F p key now = some lines)
    (hval : field "last_handshake_time_sec" val ∈ lines)
    : ∃ time, p.timeSinceLastHandshake now = some (some time) ∧ val = Decimal.display time.asSecs := by
  obtain ⟨name, val', heq, hfield⟩ := Service.peerField_of_mem h hval
  obtain ⟨hname, hsame⟩ := field_inj (by decide) hfield.isKey.2.2.1 heq
  cases hfield with
  | lastHandshakeSec time htime => exact ⟨time, htime, hsame⟩
  | _ => simp at hname

theorem exists_published (h : peerLines F p key now = some lines)
    (hsession : p.tunnel.currentSession.isSome)
    : ∃ val, field "last_handshake_time_sec" val ∈ lines := by
  obtain ⟨time, htime⟩ := Service.exists_of_peerLines h
  have hsome := Service.timeSinceLastHandshake_eq_some htime
  rw [if_pos hsession] at hsome
  unfold peerLines at h
  rw [htime, hsome] at h
  cases h
  refine ⟨Decimal.display (sessionAge p.tunnel now).asSecs, ?_⟩
  simp [handshakeLines]

end Published

section Age

variable {F : TextFormat} {p : Device.Peer} {key : FixedBytes 32} {now : Instant}
  {lines : List (List Char)} {pubkey val : List Char} {n unixNow : Nat}

theorem getHandshakeAge_latestHandshakes (hpubkey : ∀ c ∈ pubkey, Text.isWhitespace c = false)
    (hne : pubkey ≠ []) (hn : n < 2 ^ 64)
    : getHandshakeAge (some ⟨true, latestHandshakes pubkey (Decimal.display n)⟩) (some unixNow)
        = if n = 0 then none else some (unixNow - n) := by
  have hdigits : ∀ c ∈ Decimal.display n, Text.isWhitespace c = false :=
    fun c hc => Lines.isWhitespace_of_isDigit (Decimal.isDigit_of_mem_display hc)
  have hwords : Lines.splitWhitespace (latestHandshakes pubkey (Decimal.display n))
      = [pubkey, Decimal.display n] := by
    rw [latestHandshakes, List.append_assoc, List.cons_append,
      Lines.splitWhitespace_append hpubkey hne (by decide),
      Lines.splitWhitespace_append hdigits Nat.toDigits_ne_nil (by decide)]
    rfl
  unfold getHandshakeAge
  simp only [hwords, Bool.not_true, Bool.false_eq_true, if_false, List.getElem?_cons_succ,
    List.getElem?_cons_zero, Decimal.parseBelow_display hn, Option.map_some]

/--
The client takes the age for a point in time. It gets the right age if and only if the clock shows
exactly twice this age.
-/
theorem getHandshakeAge_eq_iff (hsession : p.tunnel.currentSession.isSome)
    (hlines : peerLines F p key now = some lines)
    (hval : field "last_handshake_time_sec" val ∈ lines)
    (hpubkey : ∀ c ∈ pubkey, Text.isWhitespace c = false) (hne : pubkey ≠ [])
    (hclock : Duration.asSecs now < 2 ^ 64) (hunix : (sessionAge p.tunnel now).asSecs < unixNow)
    : let age := (sessionAge p.tunnel now).asSecs
      let read := getHandshakeAge (some ⟨true, latestHandshakes pubkey val⟩) (some unixNow)
      (read = some age ∧ ∀ alive, alive = true → age < 300 → (healthEvent alive read).connected = true)
        ↔
      0 < age ∧ unixNow = 2 * age := by
  obtain ⟨time, htime, rfl⟩ := published_eq hlines hval
  have hage : time = sessionAge p.tunnel now := by
    have hsome := Service.timeSinceLastHandshake_eq_some htime
    rw [if_pos hsession, Option.some.injEq] at hsome
    exact hsome
  subst hage
  have hle := Service.asSecs_le_of_timeSinceLastHandshake htime _ rfl
  intro age read
  have hread : read = if age = 0 then none else some (unixNow - age) :=
    getHandshakeAge_latestHandshakes hpubkey hne (Nat.lt_of_le_of_lt hle hclock)
  rw [hread]
  constructor
  . rintro ⟨heq, _⟩
    split at heq
    . simp at heq
    . rw [Option.some.injEq] at heq
      omega
  . rintro ⟨hpos, heq⟩
    have hright : unixNow - age = age := by omega
    rw [if_neg (Nat.ne_of_gt hpos), hright]
    refine ⟨rfl, ?_⟩
    rintro alive rfl hlt
    exact decide_eq_true hlt

end Age

namespace Sample

def pubkey : List Char :=
  "AgICAgICAgICAgICAgICAgICAgICAgICAgICAgICAgI=".toList

theorem isWhitespace_pubkey : ∀ c ∈ pubkey, Text.isWhitespace c = false := by
  have hall : pubkey.all (fun c => !Text.isWhitespace c) = true := by decide +kernel
  intro c hc
  have hnot := List.all_eq_true.mp hall c hc
  rw [Bool.not_eq_true'] at hnot
  exact hnot

theorem exists_session
    : ∃ ts d p lines val,
        (Device.machine Device.Sample.primitives).Run Device.Sample.server ts d
          ∧
        d.peerArena.get 0 = some p ∧ p.tunnel.currentSession.isSome
          ∧
        peerLines Device.Sample.textFormat p (Device.Sample.key 2) (Duration.fromSecs 60) = some lines
          ∧
        field "last_handshake_time_sec" val ∈ lines
          ∧
        (sessionAge p.tunnel (Duration.fromSecs 60)).asSecs = 60 := by
  obtain ⟨ts, d, hrun, h⟩ := Machine.Run.exists_of_exec (Device.machine Device.Sample.primitives)
    Device.Sample.server (Device.Sample.setup ++ [Device.Sample.sendPacket 0 [] Device.Sample.length_nil_le])
    (fun _ d => (d.peerArena.get 0).any fun (p : Device.Peer) =>
      p.tunnel.currentSession.isSome
        && (p.timeSinceLastHandshake (Duration.fromSecs 60)).isSome
        && decide ((sessionAge p.tunnel (Duration.fromSecs 60)).asSecs = 60))
    (by decide +kernel)
  simp only [Option.any_eq_true, Bool.and_eq_true, decide_eq_true_eq] at h
  obtain ⟨p, hp, ⟨hsession, htime⟩, hage⟩ := h
  obtain ⟨time, htime⟩ := Option.isSome_iff_exists.mp htime
  obtain ⟨lines, hlines⟩ : ∃ lines, peerLines Device.Sample.textFormat p (Device.Sample.key 2)
      (Duration.fromSecs 60) = some lines := by
    simp only [peerLines, htime]
    exact ⟨_, rfl⟩
  obtain ⟨val, hval⟩ := exists_published hlines hsession
  exact ⟨ts, d, p, lines, val, hrun, hp, hsession, hlines, hval, hage⟩

end Sample

/--
A handshake was 60 seconds ago, but the client believes that it was more than 50 years ago and that
the tunnel does not work.
-/
theorem exists_not_connected
    : ∃ ts d p lines val,
        (Device.machine Device.Sample.primitives).Run Device.Sample.server ts d
          ∧
        d.peerArena.get 0 = some p ∧ p.tunnel.currentSession.isSome
          ∧
        peerLines Device.Sample.textFormat p (Device.Sample.key 2) (Duration.fromSecs 60) = some lines
          ∧
        field "last_handshake_time_sec" val ∈ lines
          ∧
        (sessionAge p.tunnel (Duration.fromSecs 60)).asSecs = 60
          ∧
        let age := getHandshakeAge (some ⟨true, latestHandshakes Sample.pubkey val⟩) (some 1700000000)
        age = some 1699999940 ∧ (healthEvent true age).connected = false := by
  obtain ⟨ts, d, p, lines, val, hrun, hp, hsession, hlines, hval, hage⟩ := Sample.exists_session
  refine ⟨ts, d, p, lines, val, hrun, hp, hsession, hlines, hval, hage, ?_⟩
  obtain ⟨time, htime, rfl⟩ := published_eq hlines hval
  have hsome := Service.timeSinceLastHandshake_eq_some htime
  rw [if_pos hsession, Option.some.injEq] at hsome
  rw [hsome, hage, getHandshakeAge_latestHandshakes Sample.isWhitespace_pubkey (by decide) (by decide)]
  exact ⟨rfl, rfl⟩

theorem getHandshakeAge_eq_iff_1970
    : ∃ ts d p val,
        (Device.machine Device.Sample.primitives).Run Device.Sample.server ts d
          ∧
        d.peerArena.get 0 = some p ∧ p.tunnel.currentSession.isSome
          ∧
        getHandshakeAge (some ⟨true, latestHandshakes Sample.pubkey val⟩) (some 120) = some 60 := by
  obtain ⟨ts, d, p, lines, val, hrun, hp, hsession, hlines, hval, hage⟩ := Sample.exists_session
  have hunix : (sessionAge p.tunnel (Duration.fromSecs 60)).asSecs < 120 := by
    rw [hage]
    decide
  have hiff := getHandshakeAge_eq_iff hsession hlines hval Sample.isWhitespace_pubkey (by decide) (by decide) hunix
  refine ⟨ts, d, p, val, hrun, hp, hsession, ?_⟩
  rw [hage] at hiff
  exact (hiff.mpr ⟨by decide, by decide⟩).1

end Client
