import VeilVpn.Tee.Impl.Discovery
import VeilVpn.Tee.Lemmas.Registry

namespace Tee

section Numbers

theorem number_of_lt {n : Nat} (h : n < 2 ^ 53) : number n = n := by
  have hlog : n.log2 - 52 = 0 := by
    rcases Nat.eq_zero_or_pos n with rfl | hpos
    . simp
    . have := (Nat.log2_lt (by omega)).mpr h
      omega
  simp [number, hlog, Nat.mod_one]

theorem le_number_of_le {n : Nat} (h : 2 ^ 53 ≤ n) : 2 ^ 53 ≤ number n := by
  have hlog : 53 ≤ n.log2 := (Nat.le_log2 (by omega)).mpr h
  have hsplit : 2 ^ n.log2 = 2 ^ 52 * 2 ^ (n.log2 - 52) := by
    rw [← Nat.pow_add]
    congr 1
    omega
  have hulp : 2 ≤ 2 ^ (n.log2 - 52) := Nat.le_self_pow (by omega) 2
  have hdown : 2 ^ 52 ≤ n / 2 ^ (n.log2 - 52) := by
    rw [Nat.le_div_iff_mul_le (by omega), ← hsplit]
    exact Nat.log2_self_le (by omega)
  -- Rounding up or down keeps at least 53 bits
  have hle : 2 ^ 52 * 2 ≤ n / 2 ^ (n.log2 - 52) * 2 ^ (n.log2 - 52) := Nat.mul_le_mul hdown hulp
  unfold number
  simp only
  split
  . omega
  . rw [Nat.add_mul]
    omega

theorem toDate_number {n time : Nat} (h : toDate (number n) = some time) : time = n * 1000 := by
  unfold toDate maxTime at h
  split at h
  . next hle =>
    rcases Nat.lt_or_ge n (2 ^ 53) with hlt | hge
    . rw [number_of_lt hlt] at h
      simpa using h.symm
    . have := le_number_of_le hge
      omega
  . cases h

end Numbers

namespace World

variable {w w' : World} {e : Event} {os : List AttestationRegistered} {roflAppId : RoflAppId}
  {texts : Node → Bytes → Bytes} {ts us vs : List (Transition World Event AttestationRegistered)}
  {d d' : Discovery} {n : Node} {names : List Node} {nodes : List DiscoveredNode}

def Event.own : Event → Bool
  | .register _ _ _ | .setText _ _ _ => false
  | .getSubnames | .getAttestation | .text _ | .proceed => true

inductive Advance (w : World) : Discovery → Discovery → Prop where
  | getSubnames : Advance w .idle (.attesting w.registry.getSubnames [])
  | attested (n : Node) (todo : List Node) (results : List AttestationInfo) (info : AttestationInfo)
    : attestationInfo n (w.registry.getAttestation n) = some info →
      Advance w (.attesting (n :: todo) results) (.attesting todo (results ++ [info]))
  | notAttested (n : Node) (todo : List Node) (results : List AttestationInfo)
    : attestationInfo n (w.registry.getAttestation n) = none →
      Advance w (.attesting (n :: todo) results) .failed
  | attestedAll (results : List AttestationInfo)
    : Advance w (.attesting [] results) (.resolving results (fun _ => none) [])
  | answered (info : AttestationInfo) (todo : List AttestationInfo) (answers : TextKey → Option String)
      (nodes : List DiscoveredNode) (key : TextKey) (value : String)
    : answers key = none →
      Text.fromUTF8 (w.texts info.ensNode (Text.bytes key.key)) = some value →
      Advance w (.resolving (info :: todo) answers nodes)
        (.resolving (info :: todo) (Function.update answers key (some value)) nodes)
  | notAnswered (info : AttestationInfo) (todo : List AttestationInfo)
      (answers : TextKey → Option String) (nodes : List DiscoveredNode) (key : TextKey)
    : Text.fromUTF8 (w.texts info.ensNode (Text.bytes key.key)) = none →
      Advance w (.resolving (info :: todo) answers nodes) .failed
  | resolved (info : AttestationInfo) (todo : List AttestationInfo) (answers : TextKey → Option String)
      (nodes : List DiscoveredNode) (records : VpnTextRecords) (node : DiscoveredNode)
    : VpnTextRecords.ofAnswers answers = some records →
      discoveredNode info records = some node →
      Advance w (.resolving (info :: todo) answers nodes)
        (.resolving todo (fun _ => none) (nodes ++ [node]))
  | notResolved (info : AttestationInfo) (todo : List AttestationInfo) (answers : TextKey → Option String)
      (nodes : List DiscoveredNode) (records : VpnTextRecords)
    : VpnTextRecords.ofAnswers answers = some records →
      discoveredNode info records = none →
      Advance w (.resolving (info :: todo) answers nodes) .failed
  | done (answers : TextKey → Option String) (nodes : List DiscoveredNode)
    : Advance w (.resolving [] answers nodes) (.done nodes)

theorem advance_of_proceed (h : d.proceed = some d') : Advance w d d' := by
  unfold Discovery.proceed at h
  split at h
  . cases h
    exact .attestedAll _
  . cases h
    exact .done _ _
  . next info todo answers nodes =>
    rw [Option.map_eq_some_iff] at h
    obtain ⟨records, hrecords, rfl⟩ := h
    unfold Discovery.resolved
    split
    . next hnode => exact .notResolved info todo answers nodes records hrecords hnode
    . next node hnode => exact .resolved info todo answers nodes records node hrecords hnode
  . cases h

theorem advance_of_step (h : w.step e = some (w', os))
    : (e.own = false ∧ w'.discovery = w.discovery)
        ∨
      (e.own = true ∧ Advance w w.discovery w'.discovery) := by
  cases e with
  | register msg ensNode label =>
    simp only [step] at h
    split at h <;> cases h <;> exact .inl ⟨rfl, rfl⟩
  | setText node key value =>
    cases h
    exact .inl ⟨rfl, rfl⟩
  | getSubnames =>
    simp only [step] at h
    split at h
    . next hidle =>
      cases h
      rw [hidle]
      exact .inr ⟨rfl, .getSubnames⟩
    . cases h
  | getAttestation =>
    simp only [step] at h
    split at h
    . next ensNode todo results hattesting =>
      cases h
      rw [hattesting]
      refine .inr ⟨rfl, ?_⟩
      simp only [Discovery.attested]
      split
      . next hinfo => exact .notAttested ensNode todo results hinfo
      . next info hinfo => exact .attested ensNode todo results info hinfo
    . cases h
  | text key =>
    simp only [step] at h
    split at h
    . next info todo answers nodes hresolving =>
      split at h
      . cases h
      . next hnone =>
        cases h
        rw [hresolving]
        refine .inr ⟨rfl, ?_⟩
        simp only [Discovery.answered]
        split
        . next hvalue => exact .notAnswered info todo answers nodes key hvalue
        . next value hvalue =>
          exact .answered info todo answers nodes key value (by simpa using hnone) hvalue
    . cases h
  | proceed =>
    simp only [step, Option.map_eq_some_iff, Prod.mk.injEq] at h
    obtain ⟨d', hd', rfl, -⟩ := h
    exact .inr ⟨rfl, advance_of_proceed hd'⟩

theorem registry_of_step (h : w.step e = some (w', os))
    : (∃ msg ensNode label event,
        e = .register msg ensNode label
          ∧
        w.registry.register msg ensNode label = some (w'.registry, event)
          ∧
        os = [event])
        ∨
      (w'.registry = w.registry ∧ os = []) := by
  cases e with
  | register msg ensNode label =>
    simp only [step] at h
    split at h
    . cases h
      exact .inr ⟨rfl, rfl⟩
    . next registry event hregister =>
      cases h
      exact .inl ⟨msg, ensNode, label, event, rfl, hregister, rfl⟩
  | setText node key value =>
    cases h
    exact .inr ⟨rfl, rfl⟩
  | getSubnames =>
    simp only [step] at h
    split at h <;> cases h
    exact .inr ⟨rfl, rfl⟩
  | getAttestation =>
    simp only [step] at h
    split at h <;> cases h
    exact .inr ⟨rfl, rfl⟩
  | text key =>
    simp only [step] at h
    split at h
    . split at h <;> cases h
      exact .inr ⟨rfl, rfl⟩
    . cases h
  | proceed =>
    simp only [step, Option.map_eq_some_iff, Prod.mk.injEq] at h
    obtain ⟨_, _, rfl, rfl⟩ := h
    exact .inr ⟨rfl, rfl⟩

theorem roflAppId_of_run (hrun : machine.Run (start roflAppId texts) ts w)
    : w.registry.roflAppId = roflAppId := by
  apply hrun.invariant (·.registry.roflAppId = roflAppId) rfl
  intro w e w' os hw hstep
  rcases registry_of_step hstep with ⟨msg, ensNode, label, event, -, hregister, -⟩ | ⟨hsame, -⟩
  . obtain ⟨-, -, hregistry⟩ := AttestationRegistry.register_eq_some.mp hregister
    rw [hregistry, AttestationRegistry.addSubname_roflAppId]
    exact hw
  . rw [hsame, hw]

theorem follows_of_run (hrun : machine.Run (start roflAppId texts) ts w)
    : AttestationRegistry.Follows (Machine.outputs ts) w.registry := by
  induction hrun with
  | nil => exact .new roflAppId
  | snoc _ hstep ih =>
    rw [Machine.outputs_append, Machine.outputs_singleton]
    rcases registry_of_step hstep with ⟨msg, ensNode, label, event, -, hregister, rfl⟩ | ⟨hsame, rfl⟩
    . exact ih.register hregister
    . rw [List.append_nil, hsame]
      exact ih

/--
The transactions of `ts` have one of an authorized instance that registered what `event` says.
-/
def Authorized (roflAppId : RoflAppId) (ts : List (Transition World Event AttestationRegistered))
    (event : AttestationRegistered)
    : Prop :=
  ∃ t ∈ ts, ∃ msg : Msg,
    t.event = .register msg event.ensNode event.label
      ∧
    roflAppId ∈ msg.apps
      ∧
    event.attester = msg.sender
      ∧
    event.timestamp = msg.timestamp

theorem authorized_of_run (hrun : machine.Run (start roflAppId texts) ts w) {event : AttestationRegistered}
    (hevent : event ∈ Machine.outputs ts)
    : Authorized roflAppId ts event := by
  obtain ⟨t, ht, hout⟩ := List.mem_flatMap.mp hevent
  obtain ⟨⟨us, -, hbefore⟩, hstep⟩ := hrun.exists_run_before t ht
  rcases registry_of_step hstep with ⟨msg, ensNode, label, logged, he, hregister, hos⟩ | ⟨-, hos⟩
  . obtain ⟨happ, hlogged, -⟩ := AttestationRegistry.register_eq_some.mp hregister
    rw [roflAppId_of_run hbefore] at happ
    rw [hos, List.mem_singleton] at hout
    subst hout hlogged
    exact ⟨t, ht, msg, he, happ, rfl, rfl⟩
  . rw [hos] at hout
    cases hout

section Current

structure Attests (vs : List (Transition World Event AttestationRegistered)) (n : Node)
    (info : AttestationInfo) : Prop where
  ensNode : info.ensNode = n
  answer : ∃ t ∈ vs, attestationInfo n (t.before.registry.getAttestation n) = some info

/--
All that is shown of a node was there at some time during `vs`. The text records need not have been there
at the same time.
-/
structure Current (vs : List (Transition World Event AttestationRegistered)) (n : Node)
    (node : DiscoveredNode) : Prop where
  attestation : ∃ t ∈ vs,
    (t.before.registry.getAttestation n).label = Text.bytes node.label
      ∧
    (t.before.registry.getAttestation n).attester = node.attester
      ∧
    (t.before.registry.getAttestation n).timestamp * 1000 = node.attestedAt
  text : ∀ key : TextKey, ∃ t ∈ vs, ∃ value,
    t.before.texts n (Text.bytes key.key) = Text.bytes value
      ∧
    node.records.get key = orNotSet value

def Answered (vs : List (Transition World Event AttestationRegistered)) (todo : List AttestationInfo)
    (answers : TextKey → Option String)
    : Prop :=
  ∀ key value, answers key = some value →
    ∀ info ∈ todo.head?, ∃ t ∈ vs,
      t.before.texts info.ensNode (Text.bytes key.key) = Text.bytes value

theorem Attests.mono {info : AttestationInfo} (h : Attests vs n info) (hsub : vs ⊆ us)
    : Attests us n info := by
  obtain ⟨hnode, t, ht, hanswer⟩ := h
  exact ⟨hnode, t, hsub ht, hanswer⟩

theorem Current.mono {node : DiscoveredNode} (h : Current vs n node) (hsub : vs ⊆ us)
    : Current us n node := by
  obtain ⟨⟨t, ht, hattestation⟩, htext⟩ := h
  refine ⟨⟨t, hsub ht, hattestation⟩, ?_⟩
  intro key
  obtain ⟨t, ht, hvalue⟩ := htext key
  exact ⟨t, hsub ht, hvalue⟩

theorem Answered.mono {todo : List AttestationInfo} {answers : TextKey → Option String}
    (h : Answered vs todo answers) (hsub : vs ⊆ us)
    : Answered us todo answers := by
  intro key value hvalue info hinfo
  obtain ⟨t, ht, hkey⟩ := h key value hvalue info hinfo
  exact ⟨t, hsub ht, hkey⟩

theorem answered_none (todo : List AttestationInfo) : Answered vs todo (fun _ => none) := by
  intro key value hvalue
  cases hvalue

theorem Answered.update {info : AttestationInfo} {todo : List AttestationInfo}
    {answers : TextKey → Option String} (h : Answered vs (info :: todo) answers)
    {t : Transition World Event AttestationRegistered} (ht : t ∈ vs) {key : TextKey} {value : String}
    (hvalue : Text.fromUTF8 (t.before.texts info.ensNode (Text.bytes key.key)) = some value)
    : Answered vs (info :: todo) (Function.update answers key (some value)) := by
  intro key' value' hvalue' info' hinfo
  rw [Function.update_apply] at hvalue'
  split at hvalue'
  . next heq =>
    subst heq
    cases hvalue'
    cases hinfo
    exact ⟨t, ht, Text.eq_bytes_of_fromUTF8 hvalue⟩
  . exact h key' value' hvalue' info' hinfo

theorem answers_of_ofAnswers {answers : TextKey → Option String} {records : VpnTextRecords}
    (h : VpnTextRecords.ofAnswers answers = some records) (key : TextKey)
    : answers key = some (records.get key) := by
  simp only [VpnTextRecords.ofAnswers, Option.bind_eq_bind, Option.bind_eq_some_iff, Option.pure_def,
    Option.some.injEq] at h
  obtain ⟨publicKey, hpublicKey, endpoint, hendpoint, wsEndpoint, hwsEndpoint, httpUrl, hhttpUrl, rfl⟩ := h
  cases key with
  | publicKey => exact hpublicKey
  | endpoint => exact hendpoint
  | wsEndpoint => exact hwsEndpoint
  | httpUrl => exact hhttpUrl

theorem get_of_discoveredNode {info : AttestationInfo} {records : VpnTextRecords} {node : DiscoveredNode}
    (h : discoveredNode info records = some node)
    : node.label = info.label
        ∧
      node.attester = info.attester
        ∧
      toDate info.timestamp = some node.attestedAt
        ∧
      ∀ key, node.records.get key = orNotSet (records.get key) := by
  unfold discoveredNode at h
  split at h
  . cases h
  . next attestedAt hdate =>
    cases h
    refine ⟨rfl, rfl, hdate, ?_⟩
    intro key
    cases key <;> rfl

theorem eq_of_attestationInfo {a : Attestation} {info : AttestationInfo}
    (h : attestationInfo n a = some info)
    : info.ensNode = n
        ∧
      info.attester = a.attester
        ∧
      a.label = Text.bytes info.label
        ∧
      info.timestamp = number a.timestamp := by
  unfold attestationInfo at h
  split at h
  . cases h
  . next label hutf8 =>
    cases h
    exact ⟨rfl, rfl, Text.eq_bytes_of_fromUTF8 hutf8, rfl⟩

theorem current_of_resolved {info : AttestationInfo} {todo : List AttestationInfo}
    {answers : TextKey → Option String} {records : VpnTextRecords} {node : DiscoveredNode}
    (hattests : Attests vs n info) (hanswered : Answered vs (info :: todo) answers)
    (hrecords : VpnTextRecords.ofAnswers answers = some records)
    (hnode : discoveredNode info records = some node)
    : Current vs n node := by
  obtain ⟨hlabel, hattester, hdate, htext⟩ := get_of_discoveredNode hnode
  obtain ⟨rfl, t, ht, hanswer⟩ := hattests
  obtain ⟨-, hinfoAttester, hinfoLabel, hinfoTime⟩ := eq_of_attestationInfo hanswer
  constructor
  . rw [hinfoTime] at hdate
    refine ⟨t, ht, ?_, ?_, (toDate_number hdate).symm⟩
    . rw [hinfoLabel, hlabel]
    . rw [hattester, hinfoAttester]
  . intro key
    obtain ⟨t, ht, hvalue⟩ := hanswered key _ (answers_of_ofAnswers hrecords key) info rfl
    exact ⟨t, ht, records.get key, hvalue, htext key⟩

end Current

section Progress

def Progress (names : List Node) (vs : List (Transition World Event AttestationRegistered))
    : Discovery → Prop
  | .idle => False
  | .attesting todo results =>
    ∃ seen, names = seen ++ todo ∧ List.Forall₂ (Attests vs) seen results
  | .resolving todo answers nodes =>
    Answered vs todo answers
      ∧
    ∃ seen rest,
      names = seen ++ rest ∧ List.Forall₂ (Current vs) seen nodes ∧ List.Forall₂ (Attests vs) rest todo
  | .failed => True
  | .done nodes => List.Forall₂ (Current vs) names nodes

theorem Progress.mono (h : Progress names vs d) (hsub : vs ⊆ us) : Progress names us d := by
  cases d with
  | idle => exact h
  | attesting todo results =>
    obtain ⟨seen, hnames, hseen⟩ := h
    exact ⟨seen, hnames, hseen.imp fun _ _ h => h.mono hsub⟩
  | resolving todo answers nodes =>
    obtain ⟨hanswered, seen, rest, hnames, hseen, hrest⟩ := h
    exact ⟨hanswered.mono hsub, seen, rest, hnames, hseen.imp fun _ _ h => h.mono hsub,
      hrest.imp fun _ _ h => h.mono hsub⟩
  | failed => exact h
  | done nodes => exact List.Forall₂.imp (fun _ _ h => h.mono hsub) h

theorem Progress.advance {t : Transition World Event AttestationRegistered} (h : Progress names vs d)
    (ht : t ∈ vs) (hstep : Advance t.before d d')
    : Progress names vs d' := by
  cases hstep with
  | getSubnames => exact h.elim
  | notAttested => trivial
  | notAnswered => trivial
  | notResolved => trivial
  | attested n todo results info hinfo =>
    obtain ⟨seen, hnames, hseen⟩ := h
    refine ⟨seen ++ [n], by simp [hnames], List.rel_append hseen ?_⟩
    exact .cons ⟨(eq_of_attestationInfo hinfo).1, t, ht, hinfo⟩ .nil
  | attestedAll results =>
    obtain ⟨seen, hnames, hseen⟩ := h
    exact ⟨answered_none _, [], seen, by simpa using hnames, .nil, hseen⟩
  | answered info todo answers nodes key value _ hvalue =>
    obtain ⟨hanswered, hrest⟩ := h
    exact ⟨hanswered.update ht hvalue, hrest⟩
  | resolved info todo answers nodes records node hrecords hnode =>
    obtain ⟨hanswered, seen, rest, hnames, hseen, hrest⟩ := h
    cases hrest with
    | @cons n _ rest _ hfirst hrest =>
      have hcurrent := current_of_resolved hfirst hanswered hrecords hnode
      refine ⟨answered_none _, seen ++ [n], rest, by simp [hnames], ?_, hrest⟩
      exact List.rel_append hseen (.cons hcurrent .nil)
  | done answers nodes =>
    obtain ⟨-, seen, rest, hnames, hseen, hrest⟩ := h
    cases hrest
    rw [List.append_nil] at hnames
    rw [hnames]
    exact hseen

theorem step_of_idle (h : w.step e = some (w', os)) (hidle : w.discovery = .idle)
    : w'.discovery = .idle
        ∨
      (e = .getSubnames ∧ w'.discovery = .attesting w.registry.getSubnames []) := by
  rcases advance_of_step h with ⟨-, hsame⟩ | ⟨hown, hadvance⟩
  . exact .inl (hsame.trans hidle)
  . cases e with
    | register | setText => cases hown
    | getSubnames =>
      rw [hidle] at hadvance
      generalize w'.discovery = d' at hadvance
      cases hadvance
      exact .inr ⟨rfl, rfl⟩
    | getAttestation => simp [step, hidle] at h
    | text key => simp [step, hidle] at h
    | proceed => simp [step, hidle, Discovery.proceed] at h

/--
The part `vs` of a run in which the discovery takes place. It starts with the request for the names.
-/
structure Begins (roflAppId : RoflAppId) (texts : Node → Bytes → Bytes)
    (ts us vs : List (Transition World Event AttestationRegistered)) (w₀ : World) : Prop where
  split : ts = us ++ vs
  before : machine.Run (start roflAppId texts) us w₀
  idle : w₀.discovery = .idle
  request : vs.head?.map (·.event) = some .getSubnames

theorem Begins.snoc {w₀ : World} (h : Begins roflAppId texts ts us vs w₀)
    (t : Transition World Event AttestationRegistered)
    : Begins roflAppId texts (ts ++ [t]) us (vs ++ [t]) w₀ := by
  obtain ⟨rfl, hbefore, hidle, hrequest⟩ := h
  refine ⟨List.append_assoc us vs [t], hbefore, hidle, ?_⟩
  cases vs with
  | nil => cases hrequest
  | cons => exact hrequest

theorem begins_of_run
    (Q : List Node → List (Transition World Event AttestationRegistered) → Discovery → Prop)
    (hbegin : ∀ w w' os,
      Q w.registry.getSubnames [⟨w, .getSubnames, os, w'⟩] (.attesting w.registry.getSubnames []))
    (hstep : ∀ names vs w e os w',
      Q names vs w.discovery →
        w.step e = some (w', os) → Q names (vs ++ [⟨w, e, os, w'⟩]) w'.discovery)
    (hrun : machine.Run (start roflAppId texts) ts w)
    : w.discovery = .idle
        ∨
      ∃ us vs w₀,
        Begins roflAppId texts ts us vs w₀ ∧ Q w₀.registry.getSubnames vs w.discovery := by
  induction hrun with
  | nil => exact .inl rfl
  | @snoc ts w w' e os hrun h ih =>
    rcases ih with hidle | ⟨us, vs, w₀, hbegins, hQ⟩
    . rcases step_of_idle h hidle with hidle' | ⟨rfl, hattesting⟩
      . exact .inl hidle'
      . refine .inr ⟨ts, _, w, ⟨rfl, hrun, hidle, rfl⟩, ?_⟩
        rw [hattesting]
        exact hbegin w w' os
    . exact .inr ⟨us, _, w₀, hbegins.snoc ⟨w, e, os, w'⟩, hstep _ vs w e os w' hQ h⟩

theorem progress_of_run (hrun : machine.Run (start roflAppId texts) ts w)
    : w.discovery = .idle
        ∨
      ∃ us vs w₀,
        Begins roflAppId texts ts us vs w₀ ∧ Progress w₀.registry.getSubnames vs w.discovery := by
  apply begins_of_run Progress
  . intro w w' os
    exact ⟨[], rfl, .nil⟩
  . intro names vs w e os w' hprogress h
    have hlater := hprogress.mono (List.subset_append_left vs [⟨w, e, os, w'⟩])
    rcases advance_of_step h with ⟨-, hsame⟩ | ⟨-, hadvance⟩
    . rw [hsame]
      exact hlater
    . exact hlater.advance (t := ⟨w, e, os, w'⟩) (by simp) hadvance
  . exact hrun

end Progress

/--
What is shown of a node was registered for it by an authorized instance.
-/
def Vouched (roflAppId : RoflAppId) (ts : List (Transition World Event AttestationRegistered)) (n : Node)
    (node : DiscoveredNode)
    : Prop :=
  ∃ event,
    Authorized roflAppId ts event
      ∧
    event.ensNode = n
      ∧
    event.label = Text.bytes node.label
      ∧
    event.attester = node.attester
      ∧
    event.timestamp * 1000 = node.attestedAt

/--
A node that was attested before has not been forgotten, so that what the contract answers for it comes from
the log.
-/
theorem vouched_of_current {w₀ : World} (hrun : machine.Run (start roflAppId texts) ts w)
    (hbegins : Begins roflAppId texts ts us vs w₀) (hn : n ∈ w₀.registry.getSubnames)
    {node : DiscoveredNode} (h : Current vs n node)
    : Vouched roflAppId ts n node := by
  obtain ⟨rfl, hus, -, -⟩ := hbegins
  obtain ⟨⟨t, ht, hlabel, hattester, htime⟩, -⟩ := h
  obtain ⟨as, bs, rfl⟩ := List.append_of_mem ht
  rw [← List.append_assoc] at hrun
  obtain ⟨hbefore, -, -⟩ := hrun.of_append_cons
  have hlogged : ∃ event ∈ Machine.outputs (us ++ as), event.ensNode = n := by
    obtain ⟨event, hevent, heq⟩ := (follows_of_run hus).mem_getSubnames.mp hn
    exact ⟨event, by simp [hevent], heq⟩
  obtain ⟨event, hevent, hnode, hlatest⟩ := AttestationRegistry.exists_of_latest hlogged
  rw [(follows_of_run hbefore).attestation, hlatest] at hlabel hattester htime
  obtain ⟨u, hu, hauthorized⟩ := authorized_of_run hbefore hevent
  have hmem : u ∈ us ++ (as ++ t :: bs) := by
    rw [← List.append_assoc]
    exact List.mem_append_left _ hu
  exact ⟨event, ⟨u, hmem, hauthorized⟩, hnode, hlabel, hattester, htime⟩

theorem discovered_of_run (hrun : machine.Run (start roflAppId texts) ts w)
    (hdone : w.discovery = .done nodes)
    : ∃ us vs w₀,
        Begins roflAppId texts ts us vs w₀
          ∧
        List.Forall₂ (fun n node => Current vs n node ∧ Vouched roflAppId ts n node)
          w₀.registry.getSubnames nodes := by
  rcases progress_of_run hrun with hidle | ⟨us, vs, w₀, hbegins, hprogress⟩
  . rw [hdone] at hidle
    cases hidle
  . rw [hdone] at hprogress
    refine ⟨us, vs, w₀, hbegins, ?_⟩
    have hmem := (List.forall₂_and_left _ _).mpr
      ⟨fun n (hn : n ∈ w₀.registry.getSubnames) => hn, hprogress⟩
    apply hmem.imp
    rintro n node ⟨hn, hcurrent⟩
    exact ⟨hcurrent, vouched_of_current hrun hbegins hn hcurrent⟩

section Sample

def reversed (b : Bytes) : FixedBytes 32 :=
  ⟨(b.reverse ++ List.replicate 32 0).take 32, by simp⟩

def attest (roflAppId : RoflAppId) (label : String) : Event :=
  let args := registerAttestation reversed (.zero 32) label
  .register { sender := .zero 20, timestamp := 1700000000, apps := [roflAppId] } args.1 args.2

/--
Two nodes are discovered, one of which renews its attestation and changes a record at the same time, and
a third one comes too late.
-/
def renewal (roflAppId : RoflAppId) : List Event :=
  [attest roflAppId "a", attest roflAppId "b", .getSubnames, attest roflAppId "c", .getAttestation,
    attest roflAppId "b", .getAttestation, .proceed, .text .httpUrl, .text .publicKey, .text .endpoint,
    .text .wsEndpoint, .proceed, .text .publicKey,
    .setText (subnode reversed (.zero 32) "b") (Text.bytes "vpn.endpoint") (Text.bytes "10.0.0.1:51820"),
    .text .endpoint, .text .wsEndpoint, .text .httpUrl, .proceed, .proceed]

theorem register_of_mem_renewal {msg : Msg} {label : Bytes}
    (h : Event.register msg n label ∈ renewal roflAppId)
    : ∃ name,
        msg.timestamp = 1700000000 ∧ (n, label) = registerAttestation reversed (.zero 32) name := by
  simp only [renewal, attest, List.mem_cons, Event.register.injEq, reduceCtorEq, false_or, or_false,
    List.not_mem_nil] at h
  rcases h with ⟨rfl, hn, hl⟩ | ⟨rfl, hn, hl⟩ | ⟨rfl, hn, hl⟩ | ⟨rfl, hn, hl⟩
  . exact ⟨"a", rfl, Prod.ext hn hl⟩
  . exact ⟨"b", rfl, Prod.ext hn hl⟩
  . exact ⟨"c", rfl, Prod.ext hn hl⟩
  . exact ⟨"b", rfl, Prod.ext hn hl⟩

theorem setText_of_mem_renewal {key value : Bytes} (h : Event.setText n key value ∈ renewal roflAppId)
    : value = Text.bytes "10.0.0.1:51820" := by
  simp only [renewal, attest, List.mem_cons, Event.setText.injEq, reduceCtorEq, false_or, or_false,
    List.not_mem_nil] at h
  exact h.2.2

def shown : Discovery → List (String × String)
  | .done nodes => nodes.map fun node => (node.label, node.records.endpoint)
  | _ => []

theorem exists_of_shown {shownNodes : List (String × String)} (h : shown d = shownNodes)
    (hne : shownNodes ≠ [])
    : ∃ nodes,
        d = .done nodes
          ∧
        nodes.map (fun node => (node.label, node.records.endpoint)) = shownNodes := by
  cases d with
  | done nodes => exact ⟨nodes, rfl, h⟩
  | idle | attesting | resolving | failed => exact absurd h.symm hne

theorem renewal_run
    : ∃ ts w nodes,
        machine.Run (start (.zero 21) fun _ _ => []) ts w
          ∧
        w.discovery = .done nodes
          ∧
        nodes.map (fun node => (node.label, node.records.endpoint))
          =
        [("a", "(not set)"), ("b", "10.0.0.1:51820")]
          ∧
        ∀ t ∈ ts, t.event ∈ renewal (.zero 21) := by
  obtain ⟨ts, w, hrun, hshown⟩ := Machine.Run.exists_of_exec machine (start (.zero 21) fun _ _ => [])
    (renewal (.zero 21))
    (fun ts w => shown w.discovery = [("a", "(not set)"), ("b", "10.0.0.1:51820")]
      ∧ ∀ t ∈ ts, t.event ∈ renewal (.zero 21))
    (by decide +kernel)
  obtain ⟨hshown, hevents⟩ := of_decide_eq_true hshown
  obtain ⟨nodes, hdone, hnodes⟩ := exists_of_shown hshown (by simp)
  exact ⟨ts, w, nodes, hrun, hdone, hnodes, hevents⟩

end Sample

/--
At all times the contract answers what its log says, and the log has only what authorized instances of
the app have registered.
-/
theorem registry_follows_log (hrun : machine.Run (start roflAppId texts) ts w)
    : AttestationRegistry.Follows (Machine.outputs ts) w.registry
        ∧
      ∀ event ∈ Machine.outputs ts, Authorized roflAppId ts event := by
  constructor
  . exact follows_of_run hrun
  . intro event hevent
    exact authorized_of_run hrun hevent

theorem registry_follows_log_renewal
    : ∃ ts w,
        machine.Run (start (.zero 21) fun _ _ => []) ts w
          ∧
        AttestationRegistry.Follows (Machine.outputs ts) w.registry
          ∧
        ∀ event ∈ Machine.outputs ts, Authorized (.zero 21) ts event := by
  obtain ⟨ts, w, -, hrun, -⟩ := renewal_run
  exact ⟨ts, w, hrun, registry_follows_log hrun⟩

/--
A discovery shows each node once that was attested when it began, in the order in which they were attested
first. It shows them as they were at some time since then, and only what authorized instances have
registered.
-/
theorem discovery_current (hrun : machine.Run (start roflAppId texts) ts w)
    (hdone : w.discovery = .done nodes)
    : ∃ us vs w₀,
        Begins roflAppId texts ts us vs w₀
          ∧
        List.Forall₂ (fun n node => Current vs n node ∧ Vouched roflAppId ts n node)
          ((Machine.outputs us).map (·.ensNode)).eraseDups nodes := by
  obtain ⟨us, vs, w₀, hbegins, hshown⟩ := discovered_of_run hrun hdone
  rw [(follows_of_run hbegins.before).subnames] at hshown
  exact ⟨us, vs, w₀, hbegins, hshown⟩

theorem discovery_current_renewal
    : ∃ ts w nodes us vs w₀,
        machine.Run (start (.zero 21) fun _ _ => []) ts w
          ∧
        nodes.map (fun node => (node.label, node.records.endpoint))
          =
        [("a", "(not set)"), ("b", "10.0.0.1:51820")]
          ∧
        Begins (.zero 21) (fun _ _ => []) ts us vs w₀
          ∧
        List.Forall₂ (fun n node => Current vs n node ∧ Vouched (.zero 21) ts n node)
          ((Machine.outputs us).map (·.ensNode)).eraseDups nodes := by
  obtain ⟨ts, w, nodes, hrun, hdone, hnodes, -⟩ := renewal_run
  obtain ⟨us, vs, w₀, hbegins, hshown⟩ := discovery_current hrun hdone
  exact ⟨ts, w, nodes, us, vs, w₀, hrun, hnodes, hbegins, hshown⟩

section Labels

variable {keccak256 : Bytes → FixedBytes 32} {parentNode : Node}

/--
The authorized instances register what `registerAttestation` computes for names below the same parent.
-/
def SelfAttested (keccak256 : Bytes → FixedBytes 32) (parentNode : Node) (roflAppId : RoflAppId)
    (ts : List (Transition World Event AttestationRegistered))
    : Prop :=
  ∀ t ∈ ts, ∀ msg ensNode label,
    t.event = .register msg ensNode label →
      roflAppId ∈ msg.apps →
        ∃ name, (ensNode, label) = registerAttestation keccak256 parentNode name

theorem eq_subnode_of_vouched (hself : SelfAttested keccak256 parentNode roflAppId ts)
    {node : DiscoveredNode} (h : Vouched roflAppId ts n node)
    : n = subnode keccak256 parentNode node.label := by
  obtain ⟨event, ⟨t, ht, msg, hregister, happ, -, -⟩, rfl, hlabel, -, -⟩ := h
  obtain ⟨name, hname⟩ := hself t ht msg event.ensNode event.label hregister happ
  obtain ⟨hnode, hbytes⟩ := Prod.mk.inj hname
  rw [hnode, Text.bytes_injective (hbytes.symm.trans hlabel)]

theorem renewal_selfAttested (h : ∀ t ∈ ts, t.event ∈ renewal roflAppId)
    : SelfAttested reversed (.zero 32) roflAppId ts := by
  intro t ht msg ensNode label hregister _
  obtain ⟨name, -, hargs⟩ := register_of_mem_renewal (hregister ▸ h t ht)
  exact ⟨name, hargs⟩

/--
If authorized instances only register themselves, then the label that is shown for a node is the one that
its name was made from, and no label is shown twice. The contract does not check this.
-/
theorem labels_name_nodes (hrun : machine.Run (start roflAppId texts) ts w)
    (hself : SelfAttested keccak256 parentNode roflAppId ts) (hdone : w.discovery = .done nodes)
    : ∃ us vs w₀,
        Begins roflAppId texts ts us vs w₀
          ∧
        w₀.registry.getSubnames = nodes.map (fun node => subnode keccak256 parentNode node.label)
          ∧
        (nodes.map (·.label)).Nodup := by
  obtain ⟨us, vs, w₀, hbegins, hshown⟩ := discovered_of_run hrun hdone
  have hnames : w₀.registry.getSubnames
      = nodes.map (fun node => subnode keccak256 parentNode node.label) := by
    rw [← List.forall₂_eq_eq_eq, List.forall₂_map_right_iff]
    exact hshown.imp fun _ _ h => eq_subnode_of_vouched hself h.2
  refine ⟨us, vs, w₀, hbegins, hnames, ?_⟩
  -- The label determines the node, so that different nodes have different labels
  have hmap : nodes.map (fun node => subnode keccak256 parentNode node.label)
      = (nodes.map (·.label)).map (subnode keccak256 parentNode) := by
    rw [List.map_map]
    rfl
  have hnodup := (follows_of_run hbegins.before).nodup_getSubnames
  rw [hnames, hmap] at hnodup
  exact hnodup.of_map _

theorem labels_name_nodes_renewal
    : ∃ ts w nodes us vs w₀,
        machine.Run (start (.zero 21) fun _ _ => []) ts w
          ∧
        SelfAttested reversed (.zero 32) (.zero 21) ts
          ∧
        w.discovery = .done nodes
          ∧
        Begins (.zero 21) (fun _ _ => []) ts us vs w₀
          ∧
        w₀.registry.getSubnames = nodes.map (fun node => subnode reversed (.zero 32) node.label)
          ∧
        (nodes.map (·.label)).Nodup := by
  obtain ⟨ts, w, nodes, hrun, hdone, -, hevents⟩ := renewal_run
  have hself := renewal_selfAttested hevents
  obtain ⟨us, vs, w₀, hbegins, hnames, hnodup⟩ := labels_name_nodes hrun hself hdone
  exact ⟨ts, w, nodes, us, vs, w₀, hrun, hself, hdone, hbegins, hnames, hnodup⟩

end Labels

end World

end Tee
