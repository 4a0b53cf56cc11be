import Mathlib.Data.List.Rotate
import VeilVpn.Fifo
import VeilVpn.Noise.Lemmas.Lifetime

namespace Noise

def Call.flushes (c : Call) : Bool :=
  match c.operation with
  | .decapsulate _ _ datagram => datagram.isEmpty
  | _ => false

namespace Tunn

variable {P : Primitives} {t t' : Tunn} {r : TunnResult} {dstLen : Nat} {now : Instant}
  {ephemeral : FixedBytes 32}

section Flush

theorem formatHandshakeInitiation_cases (hdst : handshakeInitSz ≤ dstLen)
    (h : t.formatHandshakeInitiation P dstLen false now ephemeral = (t', r))
    : (t.handshake.isInProgress = true ∧ r = .done)
        ∨
      (t.handshake.isInProgress = false ∧ t'.handshake.isInProgress = true
        ∧ ∃ packet, r = .writeToNetwork packet) := by
  unfold formatHandshakeInitiation at h
  split at h
  . next hprogress =>
    cases h
    rw [Bool.not_false, Bool.and_true] at hprogress
    exact .inl ⟨hprogress, rfl⟩
  . next hprogress =>
    rw [Bool.not_false, Bool.and_true, Bool.not_eq_true] at hprogress
    dsimp only at h
    split at h
    . next hformat =>
      unfold Handshake.formatHandshakeInitiation at hformat
      rw [if_neg (Nat.not_lt_of_le hdst)] at hformat
      simp at hformat
    . next handshake packet hformat =>
      cases h
      refine .inr ⟨hprogress, ?_, packet, rfl⟩
      have hprogress : handshake.isInProgress = true := by
        unfold Handshake.formatHandshakeInitiation at hformat
        rw [if_neg (Nat.not_lt_of_le hdst)] at hformat
        cases hformat
        rfl
      split <;> split <;> exact hprogress

inductive SendQueuedCase (P : Primitives) (t : Tunn) (dstLen : Nat) (now : Instant)
    (ephemeral : FixedBytes 32) (t' : Tunn) (r : TunnResult) : Prop where
  | empty
    (hqueue : t.packetQueue = [])
    (htunnel : t' = t)
    (hresult : r = .done)
  | send (packet : Bytes) (s : Session)
    (hqueue : t.packetQueue = packet :: t'.packetQueue)
    (hs : t.currentSession = some s)
    (hs' : t'.currentSession = some s.bumped)
    (hresult : r = .writeToNetwork (s.sealPacket P packet))
  | putBack (packet : Bytes) (rest : List Bytes)
    (hqueue : t.packetQueue = packet :: rest)
    (hs : t.currentSession = none)
    (h : (queuePacket { t with packetQueue := rest } packet).formatHandshakeInitiation P dstLen false
      now ephemeral = (t', r))

theorem sendQueuedPacket_cases (hdst : t.currentSession = none → handshakeInitSz ≤ dstLen)
    (h : t.sendQueuedPacket P dstLen now ephemeral = some (t', r))
    : SendQueuedCase P t dstLen now ephemeral t' r := by
  unfold sendQueuedPacket at h
  split at h
  . next hqueue =>
    cases h
    exact .empty hqueue rfl rfl
  . next packet rest hqueue =>
    split at h
    . simp at h
    . next hencapsulate => exact absurd hencapsulate (encapsulate_ne_err hdst)
    . next hencapsulate =>
      cases h
      cases encapsulate_cases hencapsulate with
      | send s s' sealed hs hformat hsessions hcurrent hrest _ hresult =>
        obtain ⟨rfl, rfl⟩ := Session.formatPacketData_eq_some hformat
        refine .send packet s ?_ hs ?_ hresult
        . rw [hrest]
          exact hqueue
        . rw [currentSession, hcurrent, hsessions, Function.update_self]
      | queue hs h => exact .putBack packet rest hqueue hs h

theorem currentSession_formatHandshakeInitiation {forceResend : Bool}
    (h : t.formatHandshakeInitiation P dstLen forceResend now ephemeral = (t', r))
    : t'.currentSession = t.currentSession := by
  have hsessions := (slots_formatHandshakeInitiation (P := P) t dstLen forceResend now ephemeral).1
  have hdrops := drops_formatHandshakeInitiation (P := P) t dstLen forceResend now ephemeral
  rw [h] at hsessions hdrops
  rw [currentSession, hsessions, hdrops.current]
  rfl

theorem currentSession_queuePacket (t : Tunn) (packet : Bytes)
    : (t.queuePacket packet).currentSession = t.currentSession := by
  unfold queuePacket
  split <;> rfl

theorem isSome_sendQueuedPacket
    (hfits : ∀ packet ∈ t.packetQueue, packet.length + dataOverheadSz ≤ dstLen) (now : Instant)
    (ephemeral : FixedBytes 32)
    : (t.sendQueuedPacket P dstLen now ephemeral).isSome := by
  unfold sendQueuedPacket
  split
  . rfl
  . next packet rest hqueue =>
    have hsome := isSome_encapsulate (P := P) (hfits packet (hqueue ▸ List.mem_cons_self))
      { t with packetQueue := rest } now ephemeral
    split
    . next hnone => simp [hnone] at hsome
    . rfl
    . rfl

section Rounds

variable {rl : RateLimiter} {rounds : List (Instant × FixedBytes 32)}

theorem flush_of_done (h : t.sendQueuedPacket P dstLen now ephemeral = some (t', .done))
    : t.flush P rl dstLen ((now, ephemeral) :: rounds) = some (t', []) := by
  simp only [flush, decapsulate, List.isEmpty_nil, if_true, h, Option.map_some]

theorem flush_of_writeToNetwork {packet : Bytes} {packets : List Bytes} {t'' : Tunn}
    (h : t.sendQueuedPacket P dstLen now ephemeral = some (t', .writeToNetwork packet))
    (hflush : t'.flush P rl dstLen rounds = some (t'', packets))
    : t.flush P rl dstLen ((now, ephemeral) :: rounds) = some (t'', packet :: packets) := by
  simp only [flush, decapsulate, List.isEmpty_nil, if_true, h, Option.map_some, hflush]

theorem flush_of_isSome (rl : RateLimiter) (hs : t.currentSession.isSome)
    (hfits : ∀ packet ∈ t.packetQueue, packet.length + dataOverheadSz ≤ dstLen)
    (hrounds : t.packetQueue.length < rounds.length)
    : ∃ t' packets,
        t.flush P rl dstLen rounds = some (t', packets)
          ∧
        packets.length = t.packetQueue.length := by
  induction rounds generalizing t with
  | nil => simp at hrounds
  | cons round rounds ih =>
    obtain ⟨now, ephemeral⟩ := round
    obtain ⟨⟨t', r⟩, h⟩ := Option.isSome_iff_exists.mp
      (isSome_sendQueuedPacket (P := P) hfits now ephemeral)
    have hdst : t.currentSession = none → handshakeInitSz ≤ dstLen := by
      intro hnone
      simp [hnone] at hs
    cases sendQueuedPacket_cases hdst h with
    | empty hqueue _ hresult =>
      rw [hresult] at h
      exact ⟨t', [], flush_of_done h, by rw [hqueue]⟩
    | send packet s hqueue _ hs' hresult =>
      rw [hresult] at h
      rw [hqueue] at hfits hrounds
      obtain ⟨t'', packets, hflush, hlength⟩ := ih (Option.isSome_iff_exists.mpr ⟨_, hs'⟩)
        (fun packet' hpacket' => hfits packet' (List.mem_cons_of_mem _ hpacket'))
        (Nat.lt_of_succ_lt_succ hrounds)
      refine ⟨t'', _, flush_of_writeToNetwork h hflush, ?_⟩
      rw [hqueue, List.length_cons, List.length_cons, hlength]
    | putBack _ _ _ hnone _ => simp [hnone] at hs

theorem flush_of_isInProgress (rl : RateLimiter) (hs : t.currentSession = none)
    (hprogress : t.handshake.isInProgress = true) (hdst : handshakeInitSz ≤ dstLen)
    (hfits : ∀ packet ∈ t.packetQueue, packet.length + dataOverheadSz ≤ dstLen) (now : Instant)
    (ephemeral : FixedBytes 32) (rounds : List (Instant × FixedBytes 32))
    : ∃ t', t.flush P rl dstLen ((now, ephemeral) :: rounds) = some (t', []) := by
  obtain ⟨⟨t', r⟩, h⟩ := Option.isSome_iff_exists.mp
    (isSome_sendQueuedPacket (P := P) hfits now ephemeral)
  cases sendQueuedPacket_cases (fun _ => hdst) h with
  | empty _ _ hresult =>
    rw [hresult] at h
    exact ⟨t', flush_of_done h⟩
  | send _ s _ hsome _ _ => simp [hs] at hsome
  | putBack packet rest _ _ hformat =>
    rcases formatHandshakeInitiation_cases hdst hformat with ⟨_, hresult⟩ | ⟨hidle, _⟩
    . rw [hresult] at h
      exact ⟨t', flush_of_done h⟩
    . rw [handshake_queuePacket] at hidle
      simp [hprogress] at hidle

theorem flush_of_none (rl : RateLimiter) (hs : t.currentSession = none) (hdst : handshakeInitSz ≤ dstLen)
    (hfits : ∀ packet ∈ t.packetQueue, packet.length + dataOverheadSz ≤ dstLen)
    (hrounds : 1 < rounds.length)
    : ∃ t' packets, t.flush P rl dstLen rounds = some (t', packets) ∧ packets.length ≤ 1 := by
  obtain ⟨⟨now, ephemeral⟩, ⟨now', ephemeral'⟩, rounds, rfl⟩ : ∃ a b rest, rounds = a :: b :: rest := by
    rcases rounds with _ | ⟨a, _ | ⟨b, rest⟩⟩
    . exact absurd hrounds (Nat.not_lt_zero 1)
    . exact absurd hrounds (Nat.lt_irrefl 1)
    . exact ⟨a, b, rest, rfl⟩
  obtain ⟨⟨t', r⟩, h⟩ := Option.isSome_iff_exists.mp
    (isSome_sendQueuedPacket (P := P) hfits now ephemeral)
  cases sendQueuedPacket_cases (fun _ => hdst) h with
  | empty _ _ hresult =>
    rw [hresult] at h
    exact ⟨t', [], flush_of_done h, Nat.zero_le 1⟩
  | send _ s _ hsome _ _ => simp [hs] at hsome
  | putBack packet rest hqueue _ hformat =>
    rcases formatHandshakeInitiation_cases hdst hformat with ⟨_, hresult⟩
      | ⟨_, hprogress, sealed, hresult⟩
    . rw [hresult] at h
      exact ⟨t', [], flush_of_done h, Nat.zero_le 1⟩
    . rw [hresult] at h
      have hs' : t'.currentSession = none := by
        rw [currentSession_formatHandshakeInitiation hformat, currentSession_queuePacket]
        exact hs
      have hqueue' : ∀ packet' ∈ t'.packetQueue, packet' ∈ t.packetQueue := by
        have hqueue'' := packetQueue_formatHandshakeInitiation (P := P)
          (queuePacket { t with packetQueue := rest } packet) dstLen false now ephemeral
        rw [hformat] at hqueue''
        intro packet' hpacket'
        rw [hqueue'', queuePacket] at hpacket'
        rw [hqueue]
        split at hpacket'
        . simpa [or_comm] using hpacket'
        . exact List.mem_cons_of_mem _ hpacket'
      obtain ⟨t'', hflush⟩ := flush_of_isInProgress (P := P) rl hs' hprogress hdst
        (fun packet' hpacket' => hfits packet' (hqueue' packet' hpacket')) now' ephemeral' rounds
      exact ⟨t'', [sealed], flush_of_writeToNetwork h hflush, Nat.le_refl 1⟩

/--
The loop ends. With a session it sends the whole queue, without one it sends an initiation at most.
-/
theorem exists_flush (rl : RateLimiter) (hdst : handshakeInitSz ≤ dstLen)
    (hfits : ∀ packet ∈ t.packetQueue, packet.length + dataOverheadSz ≤ dstLen)
    (hrounds : max 1 t.packetQueue.length < rounds.length)
    : ∃ t' packets,
        t.flush P rl dstLen rounds = some (t', packets)
          ∧
        packets.length ≤ if t.currentSession.isSome then t.packetQueue.length else 1 := by
  cases hs : t.currentSession with
  | some s =>
    obtain ⟨t', packets, hflush, hlength⟩ := flush_of_isSome (P := P) rl
      (Option.isSome_iff_exists.mpr ⟨s, hs⟩) hfits (Nat.lt_of_le_of_lt (Nat.le_max_right _ _) hrounds)
    exact ⟨t', packets, hflush, Nat.le_of_eq hlength⟩
  | none =>
    exact flush_of_none rl hs hdst hfits (Nat.lt_of_le_of_lt (Nat.le_max_left _ _) hrounds)

/--
The loop that flushes the queue ends after at most as many packets for the network as there are in the
queue, or after a single one.
-/
theorem flush_terminates (P : Primitives) (rl : RateLimiter) (t : Tunn) (dstLen : Nat)
    (hdst : handshakeInitSz ≤ dstLen)
    (hfits : ∀ packet ∈ t.packetQueue, packet.length + dataOverheadSz ≤ dstLen)
    (rounds : List (Instant × FixedBytes 32))
    (hrounds : max 1 t.packetQueue.length < rounds.length)
    : ∃ t' packets,
        t.flush P rl dstLen rounds = some (t', packets)
          ∧
        packets.length ≤ max 1 t.packetQueue.length := by
  obtain ⟨t', packets, hflush, hlength⟩ := exists_flush (P := P) rl hdst hfits hrounds
  refine ⟨t', packets, hflush, Nat.le_trans hlength ?_⟩
  split
  . exact Nat.le_max_right _ _
  . exact Nat.le_max_left _ _

open Noise.Sample (primitives key) in
theorem flush_terminates_of_waiting
    : ∃ t' packets,
        Tunn.flush primitives (.new primitives (key 1) 100 (key 6) (.zero 16) 0) 148
            [(0, key 3), (0, key 3), (0, key 3)]
            { Sample.responder with packetQueue := [[1], [2]] }
          = some (t', packets)
          ∧
        packets.length ≤ 2 :=
  flush_terminates primitives _ { Sample.responder with packetQueue := [[1], [2]] } 148 (by decide)
    (by decide) _ (by decide)

end Rounds

end Flush

section Order

inductive Fate where
  /-- Encrypted with the session in use -/
  | sent
  /-- Together with all others when the connection expires -/
  | cleared
  deriving DecidableEq

/--
The packets that `encapsulate` puts into the queue: what the owner of the tunnel hands over, and the
keepalives of the timers.
-/
def entered (u : Step) : List Bytes :=
  match u.event.operation with
  | .encapsulate src =>
    if u.before.currentSession.isNone ∧ u.before.packetQueue.length < maxQueueDepth then
      [src]
    else
      []
  | .updateTimers _ _ => u.after.packetQueue.drop u.before.packetQueue.length
  | _ => []

/--
The packets that leave the queue: the empty datagram sends the first one, the timers clear it when
they expire the connection.
-/
def left (u : Step) : List (Bytes × Fate) :=
  match u.event.operation with
  | .decapsulate _ _ datagram =>
    if datagram.isEmpty ∧ u.before.currentSession.isSome then
      (u.before.packetQueue.take 1).map (·, .sent)
    else
      []
  | .updateTimers _ _ =>
    if u.before.handshake.isExpired = false ∧ u.after.handshake.isExpired = true then
      u.before.packetQueue.map (·, .cleared)
    else
      []
  | _ => []

/--
The packets have left the queue in the order in which they were put into it, except for those that
still wait.
-/
def QueueInOrder (ts : List Step) (t : Tunn) : Prop :=
  Machine.InOrder packetQueue entered (fun u => (left u).map Prod.fst) ts t

variable {c : Call} {u : Step} {ts : List Step}

theorem isExpired_formatHandshakeInitiation {forceResend : Bool}
    (hlive : t.handshake.isExpired = false)
    (h : t.formatHandshakeInitiation P dstLen forceResend now ephemeral = (t', r))
    : t'.handshake.isExpired = false := by
  unfold formatHandshakeInitiation at h
  split at h
  . cases h
    exact hlive
  . rw [hlive] at h
    simp only [Bool.false_eq_true, if_false] at h
    split at h
    . next hformat =>
      cases h
      unfold Handshake.formatHandshakeInitiation at hformat
      split at hformat
      . cases hformat
        exact hlive
      . simp at hformat
    . next handshake packet hformat =>
      have hsent : handshake.isExpired = false := by
        unfold Handshake.formatHandshakeInitiation at hformat
        split at hformat
        . simp at hformat
        . cases hformat
          rfl
      cases h
      split <;> exact hsent

theorem isExpired_encapsulate {src : Bytes} (hlive : t.handshake.isExpired = false)
    (h : t.encapsulate P src dstLen now ephemeral = some (t', r))
    : t'.handshake.isExpired = false := by
  cases encapsulate_cases h with
  | send _ _ _ _ _ _ _ _ hhandshake _ =>
    rw [hhandshake]
    exact hlive
  | queue _ h =>
    refine isExpired_formatHandshakeInitiation ?_ h
    rw [handshake_queuePacket]
    exact hlive

theorem Prepares.isExpired (h : t.Prepares t') : t'.handshake.isExpired = t.handshake.isExpired := by
  rcases h.handshake with heq | heq
  . rw [heq]
  . rw [heq]
    rfl

theorem packetQueue_queuePacket (t : Tunn) (packet : Bytes)
    : (t.queuePacket packet).packetQueue =
        t.packetQueue ++ if t.packetQueue.length < maxQueueDepth then [packet] else [] := by
  unfold queuePacket
  split
  . rfl
  . rw [List.append_nil]

theorem packetQueue_encapsulate {src : Bytes}
    (h : t.encapsulate P src dstLen now ephemeral = some (t', r))
    : t'.packetQueue =
        t.packetQueue ++ if t.currentSession.isNone ∧ t.packetQueue.length < maxQueueDepth then
            [src]
          else
            [] := by
  cases encapsulate_cases h with
  | send _ _ _ hs _ _ _ hqueue _ _ => simp [hs, hqueue]
  | queue hs h =>
    have hqueue := packetQueue_formatHandshakeInitiation (P := P) (t.queuePacket src) dstLen false now
      ephemeral
    rw [h, packetQueue_queuePacket] at hqueue
    simpa [hs] using hqueue

theorem packetQueue_updateTimers {rl rl' : RateLimiter} {later : Instant}
    (h : t.updateTimers P rl dstLen now later ephemeral = some (rl', t', r))
    : (t.handshake.isExpired = false ∧ t'.handshake.isExpired = true ∧ t'.packetQueue = [])
        ∨
      (¬(t.handshake.isExpired = false ∧ t'.handshake.isExpired = true)
        ∧ (t'.packetQueue = t.packetQueue
            ∨ (t.packetQueue.length < maxQueueDepth ∧ t'.packetQueue = t.packetQueue ++ [[]]))) := by
  obtain ⟨t₁, hages, hcase⟩ := updateTimers_cases h
  rw [← hages.packetQueue, ← hages.handshake]
  cases hcase with
  | expired hexpired htunnel _ => exact .inr ⟨by simp [hexpired], .inl (by rw [htunnel])⟩
  | expire t₂ hlive _ h =>
    cases h
    exact .inl ⟨hlive, rfl, rfl⟩
  | initiate t₂ hlive hprepares h =>
    have hlive' := isExpired_formatHandshakeInitiation (hprepares.isExpired.trans hlive) h
    have hqueue := packetQueue_formatHandshakeInitiation (P := P) t₂ dstLen true later ephemeral
    rw [h, hprepares.packetQueue] at hqueue
    exact .inr ⟨by simp [hlive'], .inl hqueue⟩
  | keepalive t₂ hlive hprepares h =>
    have hlive' := isExpired_encapsulate (hprepares.isExpired.trans hlive) h
    have hqueue := packetQueue_encapsulate h
    rw [hprepares.packetQueue] at hqueue
    refine .inr ⟨by simp [hlive'], ?_⟩
    split at hqueue
    . next hroom => exact .inr ⟨hroom.2, hqueue⟩
    . exact .inl (by rw [hqueue, List.append_nil])
  | done hlive hprepares _ =>
    exact .inr ⟨by simp [hprepares.isExpired, hlive], .inl hprepares.packetQueue⟩

/--
What a call does to the queue. Without a session, the first packet goes to the end of it.
-/
inductive QueueCase (u : Step) : Prop where
  | rotate
    (hflushes : u.event.flushes = true)
    (hs : u.before.currentSession = none)
    (hentered : entered u = [])
    (hleft : left u = [])
    (hqueue : u.after.packetQueue = u.before.packetQueue.rotate 1)
  | order
    (hspares : u.event.flushes = true → u.before.currentSession ≠ none)
    (horder : u.before.packetQueue ++ entered u = (left u).map Prod.fst ++ u.after.packetQueue)
    (hroom : u.before.packetQueue.length + (entered u).length ≤ maxQueueDepth)

theorem queueCase_of_eq (hspares : u.event.flushes = true → u.before.currentSession ≠ none)
    (hentered : entered u = []) (hleft : left u = [])
    (hlen : u.before.packetQueue.length ≤ maxQueueDepth)
    (hqueue : u.after.packetQueue = u.before.packetQueue)
    : QueueCase u :=
  .order hspares (by simp [hentered, hleft, hqueue]) (by simpa [hentered] using hlen)

theorem QueueCase.length_le (h : QueueCase u) (hlen : u.before.packetQueue.length ≤ maxQueueDepth)
    : u.after.packetQueue.length ≤ maxQueueDepth := by
  cases h with
  | rotate _ _ _ _ hqueue =>
    rw [hqueue, List.length_rotate]
    exact hlen
  | order _ horder hroom =>
    have hlength := congrArg List.length horder
    rw [List.length_append, List.length_append] at hlength
    omega

theorem queueCase_sendQueuedPacket {rl : RateLimiter} {srcAddr : Option IpAddr} {os : List TunnResult}
    (hop : c.operation = .decapsulate rl srcAddr []) (hlen : t.packetQueue.length ≤ maxQueueDepth)
    (hdst : handshakeInitSz ≤ c.dstLen)
    (h : t.sendQueuedPacket P c.dstLen c.now c.ephemeral = some (t', r))
    : QueueCase ⟨t, c, os, t'⟩ := by
  have hflushes : c.flushes = true := by simp only [Call.flushes, hop, List.isEmpty_nil]
  cases sendQueuedPacket_cases (fun _ => hdst) h with
  | empty hqueue htunnel _ =>
    cases hs : t.currentSession with
    | none =>
      refine .rotate hflushes hs ?_ ?_ ?_
      . simp only [entered, hop]
      . simp [left, hop, hs]
      . simp [htunnel, hqueue]
    | some s =>
      refine queueCase_of_eq (by simp [hs]) ?_ ?_ hlen (by rw [htunnel])
      . simp only [entered, hop]
      . simp [left, hop, hqueue]
  | send packet s hqueue hs _ _ =>
    have hentered : entered ⟨t, c, os, t'⟩ = [] := by simp only [entered, hop]
    refine .order (by simp [hs]) ?_ (by simpa [hentered] using hlen)
    simp [hentered, left, hop, hs, hqueue]
  | putBack packet rest hqueue hs hformat =>
    refine .rotate hflushes hs ?_ ?_ ?_
    . simp only [entered, hop]
    . simp [left, hop, hs]
    . have hqueue' := packetQueue_formatHandshakeInitiation (P := P)
        (queuePacket { t with packetQueue := rest } packet) c.dstLen false c.now c.ephemeral
      rw [hformat, packetQueue_queuePacket] at hqueue'
      rw [hqueue, List.length_cons] at hlen
      simp only at hqueue'
      rw [if_pos (Nat.lt_of_succ_le hlen)] at hqueue'
      rw [hqueue', hqueue]
      simp

theorem queueCase_updateTimers {rl rl' : RateLimiter} {later : Instant} {os : List TunnResult}
    (hop : c.operation = .updateTimers rl later) (hlen : t.packetQueue.length ≤ maxQueueDepth)
    (h : t.updateTimers P rl c.dstLen c.now later c.ephemeral = some (rl', t', r))
    : QueueCase ⟨t, c, os, t'⟩ := by
  have hspares : c.flushes = true → t.currentSession ≠ none := by simp [Call.flushes, hop]
  rcases packetQueue_updateTimers h with ⟨hlive, hexpired, hqueue⟩
    | ⟨hnot, hqueue | ⟨hroom, hqueue⟩⟩
  . refine .order hspares ?_ ?_
    . simp [entered, left, hop, hqueue, hlive, hexpired, Function.comp_def]
    . simpa [entered, hop, hqueue] using hlen
  . refine queueCase_of_eq hspares ?_ ?_ hlen hqueue
    . simp [entered, hop, hqueue]
    . simp only [left, hop, if_neg hnot]
  . have hleft : left ⟨t, c, os, t'⟩ = [] := by simp only [left, hop, if_neg hnot]
    have hentered : entered ⟨t, c, os, t'⟩ = [[]] := by simp [entered, hop, hqueue]
    refine .order hspares ?_ ?_
    . simp [hleft, hentered, hqueue]
    . rw [hentered]
      exact hroom

theorem queueCase_of_call (h : t.call P c = some (t', r))
    (hlen : t.packetQueue.length ≤ maxQueueDepth)
    (hdst : c.flushes = true → handshakeInitSz ≤ c.dstLen)
    : QueueCase ⟨t, c, [r], t'⟩ := by
  cases hop : c.operation with
  | encapsulate src =>
    simp only [call, hop] at h
    refine .order (by simp [Call.flushes, hop]) ?_ ?_
    . simp [entered, left, hop, packetQueue_encapsulate h]
    . simp only [entered, hop]
      split
      . next hroom => exact hroom.2
      . exact hlen
  | decapsulate rl srcAddr datagram =>
    simp only [call, hop, Option.map_eq_some_iff] at h
    obtain ⟨⟨rl', result⟩, h, rfl⟩ := h
    cases decapsulate_cases h with
    | queue hempty hsend =>
      rw [List.isEmpty_iff] at hempty
      subst hempty
      exact queueCase_sendQueuedPacket hop hlen (hdst (by simp [Call.flushes, hop])) hsend
    | reject hempty _ htunnel =>
      exact queueCase_of_eq (by simp [Call.flushes, hop, hempty]) (by simp [entered, hop])
        (by simp [left, hop, hempty]) hlen (by rw [htunnel])
    | packet _ hempty _ h =>
      exact queueCase_of_eq (by simp [Call.flushes, hop, hempty]) (by simp [entered, hop])
        (by simp [left, hop, hempty]) hlen (packetQueue_handleVerifiedPacket h)
  | handleVerifiedPacket packet =>
    simp only [call, hop] at h
    exact queueCase_of_eq (by simp [Call.flushes, hop]) (by simp [entered, hop])
      (by simp [left, hop]) hlen (packetQueue_handleVerifiedPacket h)
  | formatHandshakeInitiation forceResend =>
    simp only [call, hop, Option.some.injEq] at h
    have hqueue := packetQueue_formatHandshakeInitiation (P := P) t c.dstLen forceResend c.now
      c.ephemeral
    rw [h] at hqueue
    exact queueCase_of_eq (by simp [Call.flushes, hop]) (by simp [entered, hop])
      (by simp [left, hop]) hlen hqueue
  | updateTimers rl later =>
    simp only [call, hop, Option.map_eq_some_iff] at h
    obtain ⟨⟨rl', result⟩, h, rfl⟩ := h
    exact queueCase_updateTimers hop hlen h
  | setStaticPrivate staticPrivate staticPublic ref =>
    simp only [call, hop, Option.map_eq_some_iff] at h
    obtain ⟨t₁, h, heq⟩ := h
    cases heq
    refine queueCase_of_eq (by simp [Call.flushes, hop]) (by simp [entered, hop])
      (by simp [left, hop]) hlen ?_
    unfold setStaticPrivate at h
    split at h
    . simp at h
    . cases h
      rfl

theorem outputs_of_left {packet : Bytes} (h : t.call P c = some (t', r))
    (hsent : (packet, Fate.sent) ∈ left ⟨t, c, [r], t'⟩)
    : ∃ s, t.currentSession = some s ∧ r = .writeToNetwork (s.sealPacket P packet) := by
  cases hop : c.operation with
  | decapsulate rl srcAddr datagram =>
    simp only [left, hop, List.mem_ite_nil_right, List.mem_map, Prod.mk.injEq, and_true,
      exists_eq_right] at hsent
    obtain ⟨⟨hempty, hs⟩, hmem⟩ := hsent
    simp only [call, hop, Option.map_eq_some_iff] at h
    obtain ⟨⟨rl', result⟩, h, rfl⟩ := h
    cases decapsulate_cases h with
    | queue _ hsend =>
      cases sendQueuedPacket_cases (fun hnone => by simp [hnone] at hs) hsend with
      | empty hqueue _ _ => simp [hqueue] at hmem
      | send head s hqueue hs _ hresult =>
        rw [hqueue, List.take_succ_cons, List.take_zero, List.mem_singleton] at hmem
        exact ⟨s, hs, hmem ▸ hresult⟩
      | putBack _ _ _ hnone _ => simp [hnone] at hs
    | reject hnonempty _ _ => simp [hempty] at hnonempty
    | packet _ hnonempty _ _ => simp [hempty] at hnonempty
  | updateTimers rl later => simp [left, hop] at hsent
  | encapsulate | handleVerifiedPacket | formatHandshakeInitiation | setStaticPrivate =>
    simp [left, hop] at hsent

theorem queueCase_of_run {t₀ : Tunn} (hstart : t₀.packetQueue.length ≤ maxQueueDepth)
    (hrun : (machine P).Run t₀ ts t)
    (hdst : ∀ u ∈ ts, u.event.flushes = true → handshakeInitSz ≤ u.event.dstLen)
    : (∀ u ∈ ts, QueueCase u) ∧ t.packetQueue.length ≤ maxQueueDepth := by
  induction hrun with
  | nil => exact ⟨by simp, hstart⟩
  | @snoc ts t t' c os _ hstep ih =>
    obtain ⟨hcases, hlen⟩ := ih fun u hu => hdst u (List.mem_append_left _ hu)
    obtain ⟨r, rfl, hcall⟩ := call_of_step hstep
    have hcase := queueCase_of_call hcall hlen
      (hdst ⟨t, c, [r], t'⟩ (List.mem_append_right _ List.mem_cons_self))
    refine ⟨?_, hcase.length_le hlen⟩
    intro u hu
    rcases List.mem_append.mp hu with hu | hu
    . exact hcases u hu
    . rw [List.mem_singleton.mp hu]
      exact hcase

theorem QueueCase.order_iff (h : QueueCase u)
    : u.before.packetQueue ++ entered u = (left u).map Prod.fst ++ u.after.packetQueue
        ↔
      (u.event.flushes = true → u.before.currentSession = none →
        u.before.packetQueue.rotate 1 = u.before.packetQueue) := by
  cases h with
  | rotate hflushes hs hentered hleft hqueue =>
    simp only [hentered, hleft, hqueue, hflushes, hs, List.append_nil, List.map_nil, List.nil_append,
      forall_const]
    exact eq_comm
  | order hspares horder _ => exact ⟨fun _ hflushes hs => absurd hs (hspares hflushes), fun _ => horder⟩

/--
What leaves the queue goes to the network, encrypted with the session in use, or is cleared. The queue
keeps the order all along a run exactly if no packet is moved behind others, as happens to the first
one when the queue is flushed without a session.
-/
theorem queueInOrder_iff {staticPrivate peerStaticPublic : FixedBytes 32}
    {presharedKey : Option (FixedBytes 32)} {persistentKeepalive : Option UInt16} {index : UInt32}
    {rateLimiter : RateLimiterRef} {ownRateLimiter : Bool} {stamper : TimeStamper} {start : Instant}
    (hrun : (machine P).Run (.new P staticPrivate peerStaticPublic presharedKey persistentKeepalive
      index rateLimiter ownRateLimiter stamper start) ts t)
    (hdst : ∀ u ∈ ts, u.event.flushes = true → handshakeInitSz ≤ u.event.dstLen)
    : (∀ u ∈ ts, ∀ packet, (packet, Fate.sent) ∈ left u →
        ∃ s, u.before.currentSession = some s
          ∧ u.outputs = [.writeToNetwork (s.sealPacket P packet)])
        ∧
      ((∀ us s, us <+: ts →
          (machine P).Run (.new P staticPrivate peerStaticPublic presharedKey persistentKeepalive index
            rateLimiter ownRateLimiter stamper start) us s →
          QueueInOrder us s)
        ↔
      ∀ u ∈ ts, u.event.flushes = true → u.before.currentSession = none →
        u.before.packetQueue.rotate 1 = u.before.packetQueue) := by
  constructor
  . intro u hu packet hsent
    obtain ⟨r, hr, hcall⟩ := call_of_step (hrun.step_of_mem hu)
    obtain ⟨t₁, c, os, t₂⟩ := u
    simp only at hr hcall
    subst hr
    obtain ⟨s, hs, hresult⟩ := outputs_of_left hcall hsent
    exact ⟨s, hs, by rw [hresult]⟩
  . have hcases := (queueCase_of_run (Nat.zero_le _) hrun hdst).1
    unfold QueueInOrder
    rw [hrun.inOrder_iff rfl]
    exact forall₂_congr fun u hu => (hcases u hu).order_iff

namespace Sample

open Noise.Sample (primitives key side)

def caller : Tunn :=
  .new primitives (key 1) (key 2) none none 1 0 false ⟨0, 0⟩ 0

def callee : Handshake :=
  side (key 2) (key 1) 0x200

def ofOperation (operation : Operation) : Call :=
  ⟨operation, 148, Duration.fromSecs 1, key 5⟩

def waits : List Call :=
  [[1], [2], [3]].map fun src => ofOperation (.encapsulate src)

def flushCall : Call :=
  ofOperation (.decapsulate (.new primitives (key 1) 100 (key 6) (.zero 16) 0) none [])

def answer (calls : List Call) : List Call :=
  match (machine primitives).exec caller calls with
  | some (ts, _) =>
    match (Machine.outputs ts).filterMap (fun | .writeToNetwork msg => some msg | _ => none)
      |>.getLast? with
    | some msg =>
      match parseIncomingPacket msg with
      | .ok (.handshakeInit p) =>
        match callee.receiveHandshakeInitialization primitives p 148 (key 4) with
        | (_, .ok (reply, _)) =>
          match parseIncomingPacket reply with
          | .ok packet => [ofOperation (.handleVerifiedPacket packet)]
          | .error _ => []
        | (_, .error _) => []
      | _ => []
    | none => []
  | none => []

def answered : List Call :=
  waits ++ answer waits ++ List.replicate 4 flushCall

/--
Before its answer, the other side begins a handshake itself.
-/
def crossing : List Call :=
  match callee.formatHandshakeInitiation primitives 148 (Duration.fromSecs 1) (key 3) with
  | (_, .ok msg) =>
    match parseIncomingPacket msg with
    | .ok packet =>
      let calls := waits ++ [ofOperation (.handleVerifiedPacket packet), flushCall, flushCall]
      calls ++ answer calls ++ List.replicate 4 flushCall
    | .error _ => []
  | (_, .error _) => []

def answers (u : Step) : Bool :=
  (match u.event.operation with
    | .handleVerifiedPacket _ => true
    | .decapsulate _ _ _ => true
    | _ => false)
  && match u.outputs with
    | [.writeToNetwork _] => true
    | _ => false

/--
The queue is flushed right after each step of a receive handler with something for the network, and
at no other time.
-/
def asHandlers : List Step → Bool
  | u :: v :: ts => (v.event.flushes == answers u) && asHandlers (v :: ts)
  | [u] => !answers u
  | [] => true

end Sample

open Noise.Sample (primitives) in
theorem queueInOrder_iff_of_answered
    : ∃ ts t,
        (machine primitives).Run Sample.caller ts t
          ∧
        ts.flatMap left = [([1], .sent), ([2], .sent), ([3], .sent)]
          ∧
        QueueInOrder ts t := by
  obtain ⟨ts, t, hrun, h⟩ := Machine.Run.exists_of_exec (machine primitives) Sample.caller
    Sample.answered
    (fun ts _ => decide (ts.flatMap left = [([1], .sent), ([2], .sent), ([3], .sent)])
      && ts.all fun u => decide (handshakeInitSz ≤ u.event.dstLen)
        && (!u.event.flushes || u.before.currentSession.isSome))
    (by decide +kernel)
  simp only [Bool.and_eq_true, Bool.or_eq_true, decide_eq_true_eq, List.all_eq_true,
    Bool.not_eq_true'] at h
  obtain ⟨hleft, hall⟩ := h
  have horder := (queueInOrder_iff hrun fun u hu _ => (hall u hu).1).2.mpr
  refine ⟨ts, t, hrun, hleft, horder ?_ ts t (List.prefix_refl ts) hrun⟩
  intro u hu hflushes hs
  have hcase := (hall u hu).2
  simp [hflushes, hs] at hcase

open Noise.Sample (primitives) in
/--
Three packets wait when the handshakes of the two sides cross. The answer to the initiation of the
other side does not bring a session to send with, so that the flush after it moves two packets behind
the third one. The last one is sent first.
-/
theorem exists_queue_out_of_order
    : ∃ ts t,
        (machine primitives).Run Sample.caller ts t
          ∧
        Sample.asHandlers ts = true
          ∧
        (∀ u ∈ ts, handshakeInitSz ≤ u.event.dstLen)
          ∧
        ts.flatMap entered = [[1], [2], [3]]
          ∧
        ts.flatMap left = [([3], .sent), ([1], .sent), ([2], .sent)] := by
  obtain ⟨ts, t, hrun, h⟩ := Machine.Run.exists_of_exec (machine primitives) Sample.caller
    Sample.crossing
    (fun ts _ => Sample.asHandlers ts && (ts.all (fun u => decide (handshakeInitSz ≤ u.event.dstLen))
      && (decide (ts.flatMap entered = [[1], [2], [3]])
        && decide (ts.flatMap left = [([3], .sent), ([1], .sent), ([2], .sent)]))))
    (by decide +kernel)
  simp only [Bool.and_eq_true, decide_eq_true_eq, List.all_eq_true] at h
  exact ⟨ts, t, hrun, h⟩

end Order

end Tunn

end Noise
