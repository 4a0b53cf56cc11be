import VeilVpn.Tee.Lemmas.Discovery

namespace Tee

namespace Discovery

def unanswered (answers : TextKey → Option String) : Nat :=
  [TextKey.publicKey, .endpoint, .wsEndpoint, .httpUrl].countP fun key => (answers key).isNone

/--
The number of steps that a discovery still has to take, once it knows the names.
-/
def remaining : Discovery → Nat
  | idle | failed | done _ => 0
  | attesting todo results => 6 * todo.length + 5 * results.length + 2
  | resolving [] _ _ => 1
  | resolving (_ :: todo) answers _ => unanswered answers + 5 * todo.length + 2

theorem unanswered_none : unanswered (fun _ => none) = 4 := rfl

theorem unanswered_update {answers : TextKey → Option String} {key : TextKey} (h : answers key = none)
    (value : String)
    : unanswered (Function.update answers key (some value)) + 1 = unanswered answers := by
  cases key <;> simp [unanswered, List.countP_cons, Function.update_apply, h] <;> omega

theorem remaining_resolving (todo : List AttestationInfo) (nodes : List DiscoveredNode)
    : remaining (resolving todo (fun _ => none) nodes) = 5 * todo.length + 1 := by
  cases todo with
  | nil => rfl
  | cons info todo =>
    rw [remaining, unanswered_none, List.length_cons]
    omega

end Discovery

namespace World

open Discovery

variable {w w' : World} {e : Event} {os : List AttestationRegistered} {roflAppId : RoflAppId}
  {texts : Node → Bytes → Bytes} {ts : List (Transition World Event AttestationRegistered)}
  {d d' : Discovery}

theorem ne_idle_of_advance (h : Advance w d d') : d' ≠ .idle := by
  cases h <;> simp

theorem remaining_lt_of_advance (h : Advance w d d') (hd : d ≠ .idle) : remaining d' < remaining d := by
  cases h with
  | getSubnames => exact absurd rfl hd
  | attested n todo results info _ =>
    simp only [remaining, List.length_append, List.length_cons, List.length_nil]
    omega
  | notAttested n todo results _ => simp [remaining]
  | attestedAll results =>
    rw [remaining_resolving]
    simp [remaining]
  | answered info todo answers nodes key value hnone _ =>
    have := unanswered_update hnone value
    simp only [remaining]
    omega
  | notAnswered info todo answers nodes key _ => simp [remaining]
  | resolved info todo answers nodes records node _ _ =>
    rw [remaining_resolving]
    simp only [remaining]
    omega
  | notResolved info todo answers nodes records _ _ => simp [remaining]
  | done answers nodes => simp [remaining]

/--
With each node there are the request for its attestation, those for its four records and one more step.
-/
theorem own_le_of_run (hrun : machine.Run (start roflAppId texts) ts w)
    : w.discovery = .idle
        ∨
      ∃ us vs w₀,
        Begins roflAppId texts ts us vs w₀
          ∧
        w.discovery ≠ .idle
          ∧
        vs.countP (·.event.own) + remaining w.discovery
          ≤
        6 * w₀.registry.getSubnames.length + 3 := by
  apply begins_of_run fun names vs d =>
    d ≠ .idle ∧ vs.countP (·.event.own) + remaining d ≤ 6 * names.length + 3
  . intro w w' os
    refine ⟨by simp, ?_⟩
    simp only [List.countP_singleton, Event.own, if_true, remaining, List.length_nil]
    omega
  . rintro names vs w e os w' ⟨hbegun, hle⟩ h
    rw [List.countP_append, List.countP_singleton]
    rcases advance_of_step h with ⟨hother, hsame⟩ | ⟨hown, hadvance⟩
    . rw [hsame, hother]
      exact ⟨hbegun, by simpa using hle⟩
    . have hlt := remaining_lt_of_advance hadvance hbegun
      refine ⟨ne_idle_of_advance hadvance, ?_⟩
      rw [hown, if_pos rfl]
      omega
  . exact hrun

theorem exists_unanswered {answers : TextKey → Option String} (h : VpnTextRecords.ofAnswers answers = none)
    : ∃ key, answers key = none := by
  by_contra hall
  have hsome : ∀ key, ∃ value, answers key = some value := by
    intro key
    exact Option.ne_none_iff_exists'.mp fun hnone => hall ⟨key, hnone⟩
  obtain ⟨_, hpublicKey⟩ := hsome .publicKey
  obtain ⟨_, hendpoint⟩ := hsome .endpoint
  obtain ⟨_, hwsEndpoint⟩ := hsome .wsEndpoint
  obtain ⟨_, hhttpUrl⟩ := hsome .httpUrl
  simp [VpnTextRecords.ofAnswers, hpublicKey, hendpoint, hwsEndpoint, hhttpUrl] at h

theorem exists_own_step (hfailed : w.discovery ≠ .failed) (hdone : ∀ nodes, w.discovery ≠ .done nodes)
    : ∃ e : Event, e.own = true ∧ (w.step e).isSome := by
  cases hd : w.discovery with
  | idle => exact ⟨.getSubnames, rfl, by simp [step, hd]⟩
  | attesting todo results =>
    cases todo with
    | nil => exact ⟨.proceed, rfl, by simp [step, hd, proceed]⟩
    | cons n todo => exact ⟨.getAttestation, rfl, by simp [step, hd]⟩
  | resolving todo answers nodes =>
    cases todo with
    | nil => exact ⟨.proceed, rfl, by simp [step, hd, proceed]⟩
    | cons info todo =>
      cases hanswers : VpnTextRecords.ofAnswers answers with
      | none =>
        obtain ⟨key, hkey⟩ := exists_unanswered hanswers
        exact ⟨.text key, rfl, by simp [step, hd, hkey]⟩
      | some records => exact ⟨.proceed, rfl, by simp [step, hd, proceed, hanswers]⟩
  | failed => exact absurd hd hfailed
  | done nodes => exact absurd hd (hdone nodes)

section Showable

/--
An attestation that can be shown: its label is text, and its time is one that a `Date` can have.
-/
def Showable (a : Attestation) : Prop :=
  (Text.fromUTF8 a.label).isSome ∧ a.timestamp * 1000 ≤ maxTime

theorem showable_zero : Showable .zero := by
  refine ⟨?_, by decide⟩
  decide +kernel

def ShowableRegistrations (roflAppId : RoflAppId)
    (ts : List (Transition World Event AttestationRegistered))
    : Prop :=
  ∀ t ∈ ts, ∀ msg ensNode label,
    t.event = .register msg ensNode label →
      roflAppId ∈ msg.apps →
        Showable { attester := msg.sender, label, timestamp := msg.timestamp }

/--
The text records of the nodes that authorized instances have registered are texts, before the run and
whenever they are set.
-/
def ReadableRecords (roflAppId : RoflAppId) (texts : Node → Bytes → Bytes)
    (ts : List (Transition World Event AttestationRegistered))
    : Prop :=
  ∀ t ∈ ts, ∀ msg ensNode label,
    t.event = .register msg ensNode label →
      roflAppId ∈ msg.apps →
        ∀ key : TextKey,
          (Text.fromUTF8 (texts ensNode (Text.bytes key.key))).isSome
            ∧
          ∀ u ∈ ts, ∀ value,
            u.event = .setText ensNode (Text.bytes key.key) value → (Text.fromUTF8 value).isSome

theorem exists_attestationInfo {a : Attestation} (h : Showable a) (n : Node)
    : ∃ info, attestationInfo n a = some info := by
  obtain ⟨label, hlabel⟩ := Option.isSome_iff_exists.mp h.1
  exact ⟨_, by rw [attestationInfo, hlabel]⟩

theorem toDate_of_attestationInfo {a : Attestation} (h : Showable a) {n : Node} {info : AttestationInfo}
    (hinfo : attestationInfo n a = some info)
    : (toDate info.timestamp).isSome := by
  obtain ⟨-, -, -, htime⟩ := eq_of_attestationInfo hinfo
  have hle := h.2
  have hlt : a.timestamp < 2 ^ 53 := by
    unfold maxTime at hle
    omega
  simp only [htime, number_of_lt hlt, toDate, if_pos hle, Option.isSome_some]

/--
The discovery has not failed. The records of the nodes that are not done yet can be read, and the times
of those that have been answered can be shown.
-/
def Unfailing (readable : Node → Prop) : Discovery → Prop
  | .attesting todo results =>
    (∀ n ∈ todo, readable n)
      ∧
    ∀ info ∈ results, readable info.ensNode ∧ (toDate info.timestamp).isSome
  | .resolving todo _ _ => ∀ info ∈ todo, readable info.ensNode ∧ (toDate info.timestamp).isSome
  | .failed => False
  | .idle | .done _ => True

theorem Unfailing.advance {readable : Node → Prop} (hd : Unfailing readable d)
    (hnames : ∀ n ∈ w.registry.getSubnames, readable n)
    (hshowable : ∀ n, Showable (w.registry.getAttestation n))
    (hreadable : ∀ n, readable n →
      ∀ key : TextKey, (Text.fromUTF8 (w.texts n (Text.bytes key.key))).isSome)
    (h : Advance w d d')
    : Unfailing readable d' := by
  cases h with
  | getSubnames =>
    refine ⟨hnames, ?_⟩
    intro info hinfo
    cases hinfo
  | attested n todo results info hinfo =>
    obtain ⟨htodo, hresults⟩ := hd
    refine ⟨fun n hn => htodo n (List.mem_cons_of_mem _ hn), ?_⟩
    intro info' hinfo'
    rcases List.mem_append.mp hinfo' with hmem | hmem
    . exact hresults info' hmem
    . rw [List.mem_singleton.mp hmem, (eq_of_attestationInfo hinfo).1]
      exact ⟨htodo n List.mem_cons_self, toDate_of_attestationInfo (hshowable n) hinfo⟩
  | notAttested n todo results hnone =>
    obtain ⟨info, hinfo⟩ := exists_attestationInfo (hshowable n) n
    rw [hnone] at hinfo
    cases hinfo
  | attestedAll results => exact hd.2
  | answered info todo answers nodes key value _ _ => exact hd
  | notAnswered info todo answers nodes key hnone =>
    have hsome := hreadable info.ensNode (hd info List.mem_cons_self).1 key
    rw [hnone] at hsome
    cases hsome
  | resolved info todo answers nodes records node _ _ =>
    intro info' hinfo'
    exact hd info' (List.mem_cons_of_mem _ hinfo')
  | notResolved info todo answers nodes records _ hnone =>
    obtain ⟨time, htime⟩ := Option.isSome_iff_exists.mp (hd info List.mem_cons_self).2
    rw [discoveredNode, htime] at hnone
    cases hnone
  | done answers nodes => trivial

theorem texts_of_step (h : w.step e = some (w', os)) (n : Node) (key : Bytes)
    : w'.texts n key = w.texts n key ∨ e = .setText n key (w'.texts n key) := by
  cases e with
  | setText node key' value =>
    cases h
    by_cases hn : n = node
    . subst hn
      by_cases hkey : key = key'
      . subst hkey
        exact .inr (by simp)
      . exact .inl (by simp [hkey])
    . exact .inl (by simp [hn])
  | register msg ensNode label =>
    simp only [step] at h
    split at h <;> cases h <;> exact .inl rfl
  | getSubnames | getAttestation =>
    simp only [step] at h
    split at h <;> cases h
    exact .inl rfl
  | text key' =>
    simp only [step] at h
    split at h
    . split at h <;> cases h
      exact .inl rfl
    . cases h
  | proceed =>
    simp only [step, Option.map_eq_some_iff, Prod.mk.injEq] at h
    obtain ⟨_, _, rfl, -⟩ := h
    exact .inl rfl

theorem isSome_texts_of_run (hrun : machine.Run (start roflAppId texts) ts w) {n : Node} {key : Bytes}
    (hstart : (Text.fromUTF8 (texts n key)).isSome)
    (hset : ∀ t ∈ ts, ∀ value, t.event = .setText n key value → (Text.fromUTF8 value).isSome)
    : (Text.fromUTF8 (w.texts n key)).isSome := by
  refine hrun.invariant_of_mem (fun w => (Text.fromUTF8 (w.texts n key)).isSome) hstart ?_
  intro t ht hbefore hstep
  rcases texts_of_step hstep n key with hsame | hevent
  . rw [hsame]
    exact hbefore
  . exact hset t ht _ hevent

theorem showable_of_run (hrun : machine.Run (start roflAppId texts) ts w)
    (hshowable : ShowableRegistrations roflAppId ts) (n : Node)
    : Showable (w.registry.getAttestation n) := by
  rw [(follows_of_run hrun).attestation]
  by_cases hlogged : ∃ event ∈ Machine.outputs ts, event.ensNode = n
  . obtain ⟨event, hevent, -, hlatest⟩ := AttestationRegistry.exists_of_latest hlogged
    obtain ⟨t, ht, msg, hregister, happ, hattester, htime⟩ := authorized_of_run hrun hevent
    have := hshowable t ht msg event.ensNode event.label hregister happ
    rw [hlatest, AttestationRegistered.attestation, hattester, htime]
    exact this
  . rw [AttestationRegistry.latest_of_not_mem hlogged]
    exact showable_zero

theorem unfailing_of_run (readable : Node → Prop) (hrun : machine.Run (start roflAppId texts) ts w)
    (hshowable : ShowableRegistrations roflAppId ts)
    (hregistered : ∀ event, Authorized roflAppId ts event → readable event.ensNode)
    (hrecords : ∀ n, readable n → ∀ key : TextKey,
      (Text.fromUTF8 (texts n (Text.bytes key.key))).isSome
        ∧
      ∀ t ∈ ts, ∀ value, t.event = .setText n (Text.bytes key.key) value → (Text.fromUTF8 value).isSome)
    : Unfailing readable w.discovery := by
  induction hrun with
  | nil => trivial
  | @snoc ts w w' e os hrun h ih =>
    have hsub : ∀ t ∈ ts, t ∈ ts ++ [⟨w, e, os, w'⟩] := fun t ht => List.mem_append_left _ ht
    have hshowable : ShowableRegistrations roflAppId ts := fun t ht => hshowable t (hsub t ht)
    have hregistered : ∀ event, Authorized roflAppId ts event → readable event.ensNode := by
      rintro event ⟨t, ht, hauthorized⟩
      exact hregistered event ⟨t, hsub t ht, hauthorized⟩
    have hrecords : ∀ n, readable n → ∀ key : TextKey,
        (Text.fromUTF8 (texts n (Text.bytes key.key))).isSome
          ∧
        ∀ t ∈ ts, ∀ value,
          t.event = .setText n (Text.bytes key.key) value → (Text.fromUTF8 value).isSome :=
      fun n hn key => ⟨(hrecords n hn key).1, fun t ht => (hrecords n hn key).2 t (hsub t ht)⟩
    have hbefore := ih hshowable hregistered hrecords
    rcases advance_of_step h with ⟨-, hsame⟩ | ⟨-, hadvance⟩
    . rw [hsame]
      exact hbefore
    . refine hbefore.advance ?_ (showable_of_run hrun hshowable) ?_ hadvance
      . intro n hn
        obtain ⟨event, hevent, rfl⟩ := (follows_of_run hrun).mem_getSubnames.mp hn
        exact hregistered event (authorized_of_run hrun hevent)
      . intro n hn key
        exact isSome_texts_of_run hrun (hrecords n hn key).1 (hrecords n hn key).2

end Showable

/--
While authorized instances register only what can be shown and the records of the nodes are texts, a
discovery does not fail. It can always take a step until it is done, and it takes at most three steps and
six more for each node that was attested when it began, however many transactions there are in between.
-/
theorem discovery_completes (hrun : machine.Run (start roflAppId texts) ts w)
    (hshowable : ShowableRegistrations roflAppId ts) (hreadable : ReadableRecords roflAppId texts ts)
    : w.discovery ≠ .failed
        ∧
      ((∃ nodes, w.discovery = .done nodes) ∨ ∃ e : Event, e.own = true ∧ (w.step e).isSome)
        ∧
      (w.discovery = .idle
        ∨
      ∃ us vs w₀,
        Begins roflAppId texts ts us vs w₀
          ∧
        vs.countP (·.event.own) ≤ 6 * w₀.registry.getSubnames.length + 3) := by
  have hfailed : w.discovery ≠ .failed := by
    intro hd
    have hunfailing := unfailing_of_run
      (fun n => ∃ event, Authorized roflAppId ts event ∧ event.ensNode = n) hrun hshowable
      (fun event hevent => ⟨event, hevent, rfl⟩) (by
        rintro n ⟨event, ⟨t, ht, msg, hregister, happ, -, -⟩, rfl⟩ key
        exact hreadable t ht msg event.ensNode event.label hregister happ key)
    rw [hd] at hunfailing
    exact hunfailing
  refine ⟨hfailed, ?_, ?_⟩
  . by_cases hdone : ∃ nodes, w.discovery = .done nodes
    . exact .inl hdone
    . exact .inr (exists_own_step hfailed fun nodes h => hdone ⟨nodes, h⟩)
  . rcases own_le_of_run hrun with hidle | ⟨us, vs, w₀, hbegins, -, hle⟩
    . exact .inl hidle
    . exact .inr ⟨us, vs, w₀, hbegins, by omega⟩

theorem discovery_completes_renewal
    : ∃ ts w,
        machine.Run (start (.zero 21) fun _ _ => []) ts w
          ∧
        ShowableRegistrations (.zero 21) ts
          ∧
        ReadableRecords (.zero 21) (fun _ _ => []) ts
          ∧
        w.discovery ≠ .failed := by
  obtain ⟨ts, w, nodes, hrun, -, -, hevents⟩ := renewal_run
  have hshowable : ShowableRegistrations (.zero 21) ts := by
    intro t ht msg ensNode label hregister _
    obtain ⟨name, htime, hargs⟩ := register_of_mem_renewal (hregister ▸ hevents t ht)
    obtain ⟨-, rfl⟩ := Prod.mk.inj hargs
    refine ⟨?_, ?_⟩
    . rw [Text.fromUTF8_bytes]
      rfl
    . show msg.timestamp * 1000 ≤ maxTime
      rw [htime]
      decide
  have hreadable : ReadableRecords (.zero 21) (fun _ _ => []) ts := by
    intro t _ msg ensNode label _ _ key
    refine ⟨showable_zero.1, ?_⟩
    intro u hu value hset
    have hvalue := setText_of_mem_renewal (hset ▸ hevents u hu)
    rw [hvalue, Text.fromUTF8_bytes]
    rfl
  exact ⟨ts, w, hrun, hshowable, hreadable, (discovery_completes hrun hshowable hreadable).1⟩

end World

end Tee
