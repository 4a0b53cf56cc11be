import VeilVpn.Registration.Impl.WorldId
import VeilVpn.Registration.Lemmas.Pool
import Mathlib.Data.Set.Function

namespace Registration

variable {W : WorldApi} {B : Base64}

def HumanEvent.request (W : WorldApi) : HumanEvent → Option (String × Option Json)
  | .register body _ =>
    match W.fromStr (Text.trim body) with
    | .error _ => none
    | .ok json =>
      match (json.get "public_key").bind Json.asStr with
      | none => none
      | some pubkeyBase64 => some (pubkeyBase64, json.get "world_proof")
  | _ => none

/--
The event is a request to register a key, and its proof is verified to be from the human with the
nullifier.
-/
structure Verified (W : WorldApi) (B : Base64) (worldRpId : String) (e : HumanEvent)
    (proof : Json) (nullifier : String) (pubkey : FixedBytes 32) : Prop where
  request : ∃ pubkeyBase64, e.request W = some (pubkeyBase64, some proof)
    ∧ B.decode (Text.trim pubkeyBase64) = some pubkey.val
  verifies : verifyWorldProof W worldRpId proof = .ok nullifier

section Step

theorem registeredPeers_handleRegistration {state : RegistrationState} {pubkeyBase64 : String}
    {call : Call} {pubkeyHex : String}
    (h : pubkeyHex ∈ (handleRegistration B state pubkeyBase64 call).1.inner.registeredPeers)
    : pubkeyHex ∈ state.inner.registeredPeers
        ∨
      ∃ pubkey : FixedBytes 32, B.decode (Text.trim pubkeyBase64) = some pubkey.val
        ∧ pubkeyHex = Hex.encode pubkey.val := by
  unfold handleRegistration at h
  split at h
  . next state' response hprepare =>
    cases prepareRegistration_prepares hprepare with
    | respond _ htables _ _ =>
      simp only [RegistrationInner.tables, Prod.mk.injEq] at htables
      rw [htables.1] at h
      exact .inl h
  . next state' pubkey octet hprepare =>
    cases prepareRegistration_prepares hprepare with
    | setPeer _ _ hallocates =>
      have htables := hallocates.tables
      simp only [RegistrationInner.tables, Prod.mk.injEq] at htables
      unfold commitRegistration at h
      split at h
      . simp only [htables.1, Finset.mem_insert] at h
        rcases h with heq | hmem
        . exact .inr ⟨pubkey, hallocates.decode, heq⟩
        . exact .inl hmem
      . rw [htables.1] at h
        exact .inl h

variable {s s' : HumanThreads} {e : HumanEvent} {responses : List Response}

theorem registeredPeers_step {threads threads' : Threads} {event : Event} {pubkeyHex : String}
    (hregister : ∀ pubkeyBase64 call, event ≠ .register pubkeyBase64 call)
    (h : step B threads event = some (threads', responses))
    (hmem : pubkeyHex ∈ threads'.state.inner.registeredPeers)
    : pubkeyHex ∈ threads.state.inner.registeredPeers := by
  cases event with
  | register pubkeyBase64 call => exact absurd rfl (hregister pubkeyBase64 call)
  | query answer =>
    simp only [step] at h
    split at h
    . cases h
      exact hmem
    . cases h
      exact hmem
    . simp at h
  | lock nowInstant order =>
    simp only [step] at h
    split at h
    . cases h
      exact hmem
    . simp at h
  | remove answer =>
    simp only [step] at h
    split at h
    . cases h
      simp only [removeStale] at hmem
      split at hmem
      . exact Finset.mem_of_mem_erase hmem
      . exact hmem
      . exact hmem
    . simp at h

structure HumanSteps (W : WorldApi) (B : Base64) (s : HumanThreads) (e : HumanEvent)
    (s' : HumanThreads) : Prop where
  worldRpId : s'.worldRpId = s.worldRpId
  btHumanOnly : s'.btHumanOnly = s.btHumanOnly
  usedNullifiers : s.usedNullifiers ⊆ s'.usedNullifiers
  registeredPeers : ∀ pubkeyHex ∈ s'.threads.state.inner.registeredPeers,
    pubkeyHex ∈ s.threads.state.inner.registeredPeers
      ∨
    ∃ proof nullifier pubkey, Verified W B s.worldRpId e proof nullifier pubkey
      ∧ nullifier ∈ s'.usedNullifiers ∧ pubkeyHex = Hex.encode pubkey.val

theorem HumanSteps.of_reap {event : Event}
    (hregister : ∀ pubkeyBase64 call, event ≠ .register pubkeyBase64 call)
    (h : s.reap B event = some (s', responses))
    : HumanSteps W B s e s' := by
  unfold HumanThreads.reap at h
  split at h
  . simp at h
  . next threads _ hstep =>
    cases h
    refine ⟨rfl, rfl, Finset.Subset.refl _, ?_⟩
    intro pubkeyHex hmem
    exact .inl (registeredPeers_step hregister hstep hmem)

theorem verify_eq_ok {json : Json} (hhuman : isHumanOnly s.btHumanOnly)
    (h : s.verify W json = (s', .ok ()))
    : ∃ proof nullifier, json.get "world_proof" = some proof
        ∧ verifyWorldProof W s.worldRpId proof = .ok nullifier
        ∧ s' = { s with usedNullifiers := insert nullifier s.usedNullifiers } := by
  unfold HumanThreads.verify at h
  rw [if_pos hhuman] at h
  split at h
  . simp at h
  . next proof hproof =>
    split at h
    . simp at h
    . next nullifier hverify =>
      cases h
      exact ⟨proof, nullifier, hproof, hverify, rfl⟩

theorem verify_eq_error {json : Json} {response : Response} (hhuman : isHumanOnly s.btHumanOnly)
    (h : s.verify W json = (s', .error response))
    : s' = s := by
  unfold HumanThreads.verify at h
  rw [if_pos hhuman] at h
  split at h
  . cases h
    rfl
  . split at h
    . cases h
      rfl
    . simp at h

theorem HumanSteps.refl : HumanSteps W B s e s :=
  ⟨rfl, rfl, Finset.Subset.refl _, fun _ hmem => .inl hmem⟩

theorem handleRegistrationV2_steps {body : String} {call : Call}
    (hhuman : isHumanOnly s.btHumanOnly)
    : HumanSteps W B s (.register body call) (handleRegistrationV2 W B s body call).1 := by
  unfold handleRegistrationV2
  split
  . exact .refl
  . next json hjson =>
    split
    . exact .refl
    . next pubkeyBase64 hpubkey =>
      have hrequest (proof : Json) (hproof : json.get "world_proof" = some proof)
          : (HumanEvent.register body call).request W = some (pubkeyBase64, some proof) := by
        simp only [HumanEvent.request, hjson, hpubkey, hproof]
      split
      . next hverify =>
        rw [verify_eq_error hhuman hverify]
        exact .refl
      . next hverify =>
        obtain ⟨proof, nullifier, hproof, hverified, rfl⟩ := verify_eq_ok hhuman hverify
        refine ⟨rfl, rfl, Finset.subset_insert _ _, ?_⟩
        intro pubkeyHex hmem
        rcases registeredPeers_handleRegistration hmem with hold | ⟨pubkey, hdecode, heq⟩
        . exact .inl hold
        . refine .inr ⟨proof, nullifier, pubkey, ?_, Finset.mem_insert_self _ _, heq⟩
          exact ⟨⟨pubkeyBase64, hrequest proof hproof, hdecode⟩, hverified⟩

theorem request_eq_some {body pubkeyBase64 : String} {call : Call} {proof : Option Json}
    (h : (HumanEvent.register body call).request W = some (pubkeyBase64, proof))
    : ∃ json, W.fromStr (Text.trim body) = .ok json
        ∧ (json.get "public_key").bind Json.asStr = some pubkeyBase64
        ∧ json.get "world_proof" = proof := by
  simp only [HumanEvent.request] at h
  split at h
  . simp at h
  . next json hjson =>
    split at h
    . simp at h
    . next hpubkey =>
      cases h
      exact ⟨json, hjson, hpubkey, rfl⟩

/--
Whether the nullifier is already known makes no difference to the registration.
-/
theorem handleRegistrationV2_of_request {body pubkeyBase64 nullifier : String} {call : Call}
    {proof : Json} (hhuman : isHumanOnly s.btHumanOnly)
    (hrequest : (HumanEvent.register body call).request W = some (pubkeyBase64, some proof))
    (hverifies : verifyWorldProof W s.worldRpId proof = .ok nullifier)
    : (handleRegistrationV2 W B s body call).1
        =
      { s with
        threads := { s.threads with
          state := (handleRegistration B s.threads.state pubkeyBase64 call).1 }
        usedNullifiers := insert nullifier s.usedNullifiers } := by
  obtain ⟨json, hjson, hpubkey, hproof⟩ := request_eq_some hrequest
  simp only [handleRegistrationV2, hjson, hpubkey, HumanThreads.verify, hhuman, if_true, hproof,
    hverifies]

theorem humanSteps_of_step (hhuman : isHumanOnly s.btHumanOnly)
    (h : (humanMachine W B).step s e = some (s', responses))
    : HumanSteps W B s e s' := by
  cases e with
  | register body call =>
    simp only [humanMachine, humanStep] at h
    split at h
    . simp at h
    . cases h
      exact handleRegistrationV2_steps hhuman
  | query answer => exact .of_reap (by simp) h
  | lock nowInstant order => exact .of_reap (by simp) h
  | remove answer => exact .of_reap (by simp) h

end Step

section Run

variable {s₀ s : HumanThreads} {ts : List (Transition HumanThreads HumanEvent Response)}

theorem settings_of_run (hhuman : isHumanOnly s₀.btHumanOnly) (hrun : (humanMachine W B).Run s₀ ts s)
    : s.worldRpId = s₀.worldRpId ∧ s.btHumanOnly = s₀.btHumanOnly := by
  apply hrun.invariant (fun s => s.worldRpId = s₀.worldRpId ∧ s.btHumanOnly = s₀.btHumanOnly)
  . exact ⟨rfl, rfl⟩
  . intro s e s' responses hs h
    have hsteps := humanSteps_of_step (by rw [hs.2]; exact hhuman) h
    exact ⟨hsteps.worldRpId.trans hs.1, hsteps.btHumanOnly.trans hs.2⟩

def Registers (t : Transition HumanThreads HumanEvent Response) (pubkeyHex : String) : Prop :=
  pubkeyHex ∈ t.after.threads.state.inner.registeredPeers
    ∧
  pubkeyHex ∉ t.before.threads.state.inner.registeredPeers

theorem exists_verified_of_registers (hhuman : isHumanOnly s₀.btHumanOnly)
    (hrun : (humanMachine W B).Run s₀ ts s) {t : Transition HumanThreads HumanEvent Response}
    (ht : t ∈ ts) {pubkeyHex : String} (hregisters : Registers t pubkeyHex)
    : ∃ proof nullifier pubkey, Verified W B s₀.worldRpId t.event proof nullifier pubkey
        ∧ pubkeyHex = Hex.encode pubkey.val := by
  obtain ⟨⟨us, _, hbefore⟩, hstep⟩ := hrun.exists_run_before t ht
  obtain ⟨hrpId, hvar⟩ := settings_of_run hhuman hbefore
  have hsteps := humanSteps_of_step (by rw [hvar]; exact hhuman) hstep
  rcases hsteps.registeredPeers pubkeyHex hregisters.1 with hold | ⟨proof, nullifier, pubkey,
    hverified, _, heq⟩
  . exact absurd hold hregisters.2
  . rw [hrpId] at hverified
    exact ⟨proof, nullifier, pubkey, hverified, heq⟩

theorem Verified.proof_eq {worldRpId : String} {e : HumanEvent} {proof proof' : Json}
    {nullifier : String} {pubkey : FixedBytes 32} {pubkeyBase64 : String}
    (h : Verified W B worldRpId e proof nullifier pubkey)
    (hrequest : e.request W = some (pubkeyBase64, some proof'))
    : proof = proof' := by
  obtain ⟨_, hrequest', _⟩ := h.request
  rw [hrequest] at hrequest'
  cases hrequest'
  rfl

theorem Verified.unique {worldRpId : String} {e : HumanEvent} {proof proof' : Json}
    {nullifier nullifier' : String} {pubkey pubkey' : FixedBytes 32}
    (h : Verified W B worldRpId e proof nullifier pubkey)
    (h' : Verified W B worldRpId e proof' nullifier' pubkey')
    : nullifier = nullifier' ∧ pubkey = pubkey' := by
  obtain ⟨_, hrequest, hdecode⟩ := h.request
  obtain ⟨_, hrequest', hdecode'⟩ := h'.request
  rw [hrequest] at hrequest'
  cases hrequest'
  have hverifies := h.verifies
  rw [h'.verifies] at hverifies
  cases hverifies
  rw [hdecode] at hdecode'
  exact ⟨rfl, Subtype.ext (Option.some.inj hdecode')⟩

/--
No human presents their proof together with two different keys.
-/
def OneKeyPerHuman (W : WorldApi) (B : Base64) (worldRpId : String)
    (ts : List (Transition HumanThreads HumanEvent Response)) : Prop :=
  ∀ t ∈ ts, ∀ u ∈ ts, ∀ proof proof' nullifier pubkey pubkey',
    Verified W B worldRpId t.event proof nullifier pubkey →
    Verified W B worldRpId u.event proof' nullifier pubkey' →
    pubkey = pubkey'

/--
A human presents another key only when the keys that they presented before are not registered.
-/
def OneKeyAtATime (W : WorldApi) (B : Base64) (worldRpId : String)
    (ts : List (Transition HumanThreads HumanEvent Response)) : Prop :=
  ts.Pairwise fun u t => ∀ proof proof' nullifier pubkey pubkey',
    Verified W B worldRpId u.event proof nullifier pubkey →
    Verified W B worldRpId t.event proof' nullifier pubkey' → pubkey ≠ pubkey' →
    Hex.encode pubkey.val ∉ t.before.threads.state.inner.registeredPeers

theorem OneKeyPerHuman.oneKeyAtATime {worldRpId : String}
    (h : OneKeyPerHuman W B worldRpId ts)
    : OneKeyAtATime W B worldRpId ts := by
  apply List.pairwise_of_forall_mem_list
  intro u hu t ht proof proof' nullifier pubkey pubkey' hverified hverified' hne
  exact absurd (h u hu t ht _ _ _ _ _ hverified hverified') hne

/--
Every registered key belongs to a human of its own, who presented it.
-/
structure Owned (W : WorldApi) (B : Base64) (worldRpId : String)
    (ts : List (Transition HumanThreads HumanEvent Response)) (s : HumanThreads)
    (human : String → String) : Prop where
  injOn : Set.InjOn human s.threads.state.inner.registeredPeers
  presented : ∀ pubkeyHex ∈ s.threads.state.inner.registeredPeers,
    human pubkeyHex ∈ s.usedNullifiers
      ∧
    ∃ t ∈ ts, ∃ proof pubkey, Verified W B worldRpId t.event proof (human pubkeyHex) pubkey
      ∧ pubkeyHex = Hex.encode pubkey.val

variable {worldRpId : String} {human : String → String}
  {t : Transition HumanThreads HumanEvent Response}

theorem Owned.of_subset (h : Owned W B worldRpId ts t.before human)
    (hsubset : t.after.threads.state.inner.registeredPeers
      ⊆ t.before.threads.state.inner.registeredPeers)
    (hused : t.before.usedNullifiers ⊆ t.after.usedNullifiers)
    : Owned W B worldRpId (ts ++ [t]) t.after human where
  injOn := h.injOn.mono (Finset.coe_subset.mpr hsubset)
  presented := by
    intro pubkeyHex hmem
    obtain ⟨hnullifier, u, hu, hverified⟩ := h.presented pubkeyHex (hsubset hmem)
    exact ⟨hused hnullifier, u, List.mem_append_left _ hu, hverified⟩

/--
The human who has their key registered has no other one registered.
-/
theorem Owned.update (h : Owned W B worldRpId ts t.before human) {proof : Json}
    {nullifier : String} {pubkey : FixedBytes 32}
    (hverified : Verified W B worldRpId t.event proof nullifier pubkey)
    (hnew : Hex.encode pubkey.val ∉ t.before.threads.state.inner.registeredPeers)
    (hsubset : ∀ pubkeyHex ∈ t.after.threads.state.inner.registeredPeers,
      pubkeyHex ∈ t.before.threads.state.inner.registeredPeers ∨ pubkeyHex = Hex.encode pubkey.val)
    (hused : insert nullifier t.before.usedNullifiers ⊆ t.after.usedNullifiers)
    (hother : ∀ pubkeyHex ∈ t.before.threads.state.inner.registeredPeers,
      human pubkeyHex ≠ nullifier)
    : Owned W B worldRpId (ts ++ [t]) t.after
        (Function.update human (Hex.encode pubkey.val) nullifier) := by
  have hupdate : ∀ pubkeyHex ∈ t.before.threads.state.inner.registeredPeers,
      Function.update human (Hex.encode pubkey.val) nullifier pubkeyHex = human pubkeyHex := by
    intro pubkeyHex hmem
    apply Function.update_of_ne
    rintro rfl
    exact hnew hmem
  constructor
  . intro pubkeyHex hmem pubkeyHex' hmem' heq
    rcases hsubset _ hmem with hold | rfl
    . rcases hsubset _ hmem' with hold' | rfl
      . rw [hupdate _ hold, hupdate _ hold'] at heq
        exact h.injOn hold hold' heq
      . rw [hupdate _ hold, Function.update_self] at heq
        exact absurd heq (hother _ hold)
    . rcases hsubset _ hmem' with hold' | rfl
      . rw [hupdate _ hold', Function.update_self] at heq
        exact absurd heq.symm (hother _ hold')
      . rfl
  . intro pubkeyHex hmem
    rcases hsubset _ hmem with hold | rfl
    . rw [hupdate _ hold]
      obtain ⟨hnullifier, u, hu, hpresented⟩ := h.presented pubkeyHex hold
      exact ⟨hused (Finset.mem_insert_of_mem hnullifier), u, List.mem_append_left _ hu, hpresented⟩
    . rw [Function.update_self]
      exact ⟨hused (Finset.mem_insert_self _ _), t, by simp, proof, pubkey, hverified, rfl⟩

theorem Owned.step (h : Owned W B t.before.worldRpId ts t.before human)
    (hsteps : HumanSteps W B t.before t.event t.after)
    (hkeys : ∀ u ∈ ts, ∀ proof proof' nullifier pubkey pubkey',
      Verified W B t.before.worldRpId u.event proof nullifier pubkey →
      Verified W B t.before.worldRpId t.event proof' nullifier pubkey' → pubkey ≠ pubkey' →
      Hex.encode pubkey.val ∉ t.before.threads.state.inner.registeredPeers)
    : ∃ human', Owned W B t.before.worldRpId (ts ++ [t]) t.after human' := by
  by_cases hsubset : t.after.threads.state.inner.registeredPeers
      ⊆ t.before.threads.state.inner.registeredPeers
  . exact ⟨human, h.of_subset hsubset hsteps.usedNullifiers⟩
  . obtain ⟨pubkeyHex, hmem, hnew⟩ := Finset.not_subset.mp hsubset
    obtain ⟨proof, nullifier, pubkey, hverified, hused, rfl⟩ :=
      (hsteps.registeredPeers pubkeyHex hmem).resolve_left hnew
    refine ⟨_, h.update hverified hnew ?_ ?_ ?_⟩
    . intro pubkeyHex hmem
      apply (hsteps.registeredPeers pubkeyHex hmem).imp_right
      rintro ⟨_, _, _, hverified', _, rfl⟩
      rw [(hverified.unique hverified').2]
    . exact Finset.insert_subset hused hsteps.usedNullifiers
    . intro pubkeyHex hold heq
      obtain ⟨_, u, hu, _, pubkey', hpresented, rfl⟩ := h.presented pubkeyHex hold
      rw [heq] at hpresented
      refine hkeys u hu _ _ _ _ _ hpresented hverified ?_ hold
      rintro rfl
      exact hnew hold

theorem exists_owned_of_run (hhuman : isHumanOnly s₀.btHumanOnly)
    (hregistered : s₀.threads.state.inner.registeredPeers = ∅)
    (hrun : (humanMachine W B).Run s₀ ts s) (hkeys : OneKeyAtATime W B s₀.worldRpId ts)
    : ∃ human, Owned W B s₀.worldRpId ts s human := by
  induction hrun with
  | nil => exact ⟨id, by simp [hregistered], by simp [hregistered]⟩
  | @snoc ts s s' e responses hbefore h ih =>
    obtain ⟨hrpId, hvar⟩ := settings_of_run hhuman hbefore
    obtain ⟨hkeys, _, hlast⟩ := List.pairwise_append.mp hkeys
    obtain ⟨human, howned⟩ := ih hkeys
    rw [← hrpId] at howned hlast ⊢
    exact howned.step (t := ⟨s, e, responses, s'⟩)
      (humanSteps_of_step (by rw [hvar]; exact hhuman) h)
      (fun u hu => hlast u hu _ (List.mem_singleton_self _))

/--
One human = one connection, as long as every human keeps to one key at a time: the node itself lets a
known human reconnect with any other key. The same proof registers no second key, as long as every
human keeps to one key for good.
-/
theorem oneConnection_of_run (hhuman : isHumanOnly s₀.btHumanOnly)
    (hregistered : s₀.threads.state.inner.registeredPeers = ∅)
    (hrun : (humanMachine W B).Run s₀ ts s)
    : (OneKeyAtATime W B s₀.worldRpId ts →
        ∃ human : String → String,
          Set.InjOn human s.threads.state.inner.registeredPeers
            ∧
          ∀ pubkeyHex ∈ s.threads.state.inner.registeredPeers,
            human pubkeyHex ∈ s.usedNullifiers
              ∧
            ∃ t ∈ ts, ∃ proof pubkey,
              Verified W B s₀.worldRpId t.event proof (human pubkeyHex) pubkey
                ∧ pubkeyHex = Hex.encode pubkey.val)
        ∧
      (OneKeyPerHuman W B s₀.worldRpId ts →
        OneKeyAtATime W B s₀.worldRpId ts
          ∧
        ∀ t ∈ ts, ∀ u ∈ ts, ∀ pubkeyBase64 pubkeyBase64' proof pubkeyHex pubkeyHex',
          t.event.request W = some (pubkeyBase64, some proof) → Registers t pubkeyHex →
          u.event.request W = some (pubkeyBase64', some proof) → Registers u pubkeyHex' →
          pubkeyHex = pubkeyHex') := by
  constructor
  . intro hkeys
    obtain ⟨human, howned⟩ := exists_owned_of_run hhuman hregistered hrun hkeys
    exact ⟨human, howned.injOn, howned.presented⟩
  . intro hkeys
    refine ⟨hkeys.oneKeyAtATime, ?_⟩
    intro t ht u hu pubkeyBase64 pubkeyBase64' proof pubkeyHex pubkeyHex' htrequest htregisters
      hurequest huregisters
    obtain ⟨tproof, nullifier, pubkey, htverified, rfl⟩ :=
      exists_verified_of_registers hhuman hrun ht htregisters
    obtain ⟨uproof, nullifier', pubkey', huverified, rfl⟩ :=
      exists_verified_of_registers hhuman hrun hu huregisters
    obtain rfl := htverified.proof_eq htrequest
    obtain rfl := huverified.proof_eq hurequest
    have hnullifier := htverified.verifies
    rw [huverified.verifies] at hnullifier
    cases hnullifier
    rw [hkeys t ht u hu _ _ _ _ _ htverified huverified]

end Run

namespace Sample

def thirdPubkeyText : String := "Q0NDQ0NDQ0NDQ0NDQ0NDQ0NDQ0NDQ0NDQ0NDQ0NDQ0M="

def thirdPubkey : FixedBytes 32 :=
  .replicate 32 67

theorem encode_pubkey_ne : Hex.encode pubkey.val ≠ Hex.encode otherPubkey.val := by
  decide +kernel

def bodyText (key nullifier : String) : String :=
  "\x7b\"public_key\":\"" ++ key ++ "\",\"world_proof\":\x7b\"nullifier\":\"" ++ nullifier
    ++ "\"\x7d\x7d"

def worldProof (nullifier : String) : Json :=
  .object [("nullifier", .string nullifier)]

def verifiedText (nullifier : String) : String :=
  "\x7b\"success\":true,\"nullifier\":\"" ++ nullifier ++ "\"\x7d"

def rejectedText : String :=
  "\x7b\"success\":false,\"detail\":\"Invalid proof\"\x7d"

/--
The JSON texts that the threads come across, and their values.
-/
def jsonTexts : List (String × Json) :=
  (rejectedText, .object [("success", .bool false), ("detail", .string "Invalid proof")])
    :: ["0x1a", "0x2b"].flatMap fun nullifier =>
      (verifiedText nullifier, .object [("success", .bool true), ("nullifier", .string nullifier)])
        :: [pubkeyText, otherPubkeyText, thirdPubkeyText].map fun key =>
          (bodyText key nullifier,
            .object [("public_key", .string key), ("world_proof", worldProof nullifier)])

def worldApi : WorldApi where
  fromStr := fun text =>
    match jsonTexts.lookup text with
    | some json => .ok json
    | none => .error "expected value at line 1 column 1"
  post := fun _ proof =>
    match (proof.get "nullifier").bind Json.asStr with
    | some nullifier => .ok (verifiedText nullifier)
    | none => .ok rejectedText

def humanInitial : HumanThreads where
  threads := initial
  usedNullifiers := ∅
  worldRpId := "rp"
  btHumanOnly := some "1"

theorem verified_first
    : Verified worldApi base64 "rp" (.register (bodyText pubkeyText "0x1a") call)
        (worldProof "0x1a") "0x1a" pubkey where
  request := ⟨pubkeyText, by rfl, decode_pubkeyText⟩
  verifies := by rfl

theorem verified_second
    : Verified worldApi base64 "rp" (.register (bodyText otherPubkeyText "0x1a") call)
        (worldProof "0x1a") "0x1a" otherPubkey where
  request := ⟨otherPubkeyText, by rfl, decode_otherPubkeyText⟩
  verifies := by rfl

structure Open (s : HumanThreads) : Prop where
  worldRpId : s.worldRpId = "rp"
  btHumanOnly : s.btHumanOnly = some "1"
  reaper : s.threads.reaper = .sleeping

theorem exists_step_of_free {s : HumanThreads} (hs : Open s) {body nullifier : String}
    {proof : Json} {key : FixedBytes 32}
    (hverified : Verified worldApi base64 "rp" (.register body call) proof nullifier key)
    (hnew : Hex.encode key.val ∉ s.threads.state.inner.registeredPeers)
    (hfree : s.threads.state.inner.availableIps.Nonempty)
    : ∃ s' responses, (humanMachine worldApi base64).step s (.register body call)
        = some (s', responses)
        ∧
      Open s'
        ∧
      s'.usedNullifiers = insert nullifier s.usedNullifiers
        ∧
      s'.threads.state.inner.registeredPeers
        = insert (Hex.encode key.val) s.threads.state.inner.registeredPeers
        ∧
      ∃ octet, s'.threads.state.inner.availableIps
        = s.threads.state.inner.availableIps.erase octet := by
  obtain ⟨pubkeyBase64, hrequest, hdecode⟩ := hverified.request
  have heq := handleRegistrationV2_of_request (B := base64) (s := s)
    (by rw [hs.btHumanOnly]; rfl) hrequest (by rw [hs.worldRpId]; exact hverified.verifies)
  obtain ⟨hregistered, hips⟩ := handleRegistration_of_free s.threads.state hdecode hnew hfree
  refine ⟨(handleRegistrationV2 worldApi base64 s body call).1,
    [(handleRegistrationV2 worldApi base64 s body call).2], ?_, ?_⟩
  . simp only [humanMachine, humanStep, hs.reaper]
  . simp only [heq, hregistered, hips, and_true]
    exact ⟨hs.worldRpId, hs.btHumanOnly, hs.reaper⟩

theorem open_humanInitial : Open humanInitial :=
  ⟨rfl, rfl, rfl⟩

theorem nonempty_humanInitial_erase (octet : UInt8)
    : (humanInitial.threads.state.inner.availableIps.erase octet).Nonempty := by
  simp only [humanInitial, initial, RegistrationState.new]
  exact nonempty_octets_erase octet

def keys : List String :=
  [pubkey, otherPubkey, thirdPubkey].map fun key => Hex.encode key.val

theorem nodup_keys : keys.Nodup := by
  decide +kernel

/--
The known keys come in a fixed order.
-/
noncomputable def order (m : HashMap String UInt8) : HashMap.Iteration m :=
  if hkeys : ∀ key ∈ m.keys, key ∈ keys then
    { entries := keys.filterMap fun key => (m.lookup key).map (key, ·)
      nodup_keys := by
        rw [List.Nodup, List.pairwise_map, List.pairwise_filterMap]
        apply nodup_keys.imp
        intro key key' hne entry hentry entry' hentry'
        obtain ⟨_, _, rfl⟩ := Option.map_eq_some_iff.mp hentry
        obtain ⟨_, _, rfl⟩ := Option.map_eq_some_iff.mp hentry'
        exact hne
      mem_entries_iff := by
        intro key octet
        simp only [List.mem_filterMap, Option.map_eq_some_iff, Prod.mk.injEq]
        constructor
        . rintro ⟨_, _, _, hlookup, rfl, rfl⟩
          exact hlookup
        . intro hlookup
          have hmem : key ∈ m.keys := by
            rw [Finmap.mem_keys, ← Finmap.lookup_isSome, hlookup]
            rfl
          exact ⟨key, hkeys key hmem, octet, hlookup, rfl, rfl⟩ }
  else
    Classical.choice (HashMap.nonempty_iteration m)

/--
The free addresses of the start as a list, with which the threads are evaluated faster.
-/
def listed : HashSet UInt8 where
  val := ↑((List.range' 2 253).map UInt8.ofNat)
  nodup := by
    rw [Multiset.coe_nodup]
    apply List.Nodup.map_on _ List.nodup_range'
    intro n hn n' hn' heq
    rw [List.mem_range'_1] at hn hn'
    have hnat := congrArg UInt8.toNat heq
    rwa [UInt8.toNat_ofNat_of_lt' (by simp [UInt8.size]; omega),
      UInt8.toNat_ofNat_of_lt' (by simp [UInt8.size]; omega)] at hnat

def listedInitial : HumanThreads :=
  { humanInitial with threads.state.inner.availableIps := listed }

theorem humanInitial_eq : humanInitial = listedInitial := by
  have hips : octets = listed := by
    ext octet
    rw [octets, mem_foldl_insert]
    simp [listed]
  unfold listedInitial
  rw [← hips]
  rfl

/--
Two humans register, the reaper removes the first one, who never connected and who comes back with
the key.
-/
noncomputable def comingBack (key : String) : List HumanEvent :=
  [.register (bodyText pubkeyText "0x1a") call,
    .register (bodyText otherPubkeyText "0x2b") call,
    .query (.ok
      { ownPubkey := some "server"
        listenPort := some 51820
        peers := (Finmap.singleton (Hex.encode pubkey.val) none).insert
          (Hex.encode otherPubkey.val) (some 5) }),
    .lock (Duration.fromSecs 690) order,
    .remove (.ok true),
    .register (bodyText key "0x1a") call]

def presented (e : HumanEvent) : Option (String × FixedBytes 32) :=
  match e.request worldApi with
  | some (pubkeyBase64, some proof) =>
    match verifyWorldProof worldApi "rp" proof, base64.decode (Text.trim pubkeyBase64) with
    | .ok nullifier, some bytes =>
      if h : bytes.length = 32 then some (nullifier, ⟨bytes, h⟩) else none
    | _, _ => none
  | _ => none

/--
A test that two transitions keep to one key at a time, and to one key for good.
-/
def keeps (forGood : Bool) (u t : Transition HumanThreads HumanEvent Response) : Bool :=
  match presented u.event, presented t.event with
  | some (nullifier, key), some (nullifier', key') =>
    nullifier ≠ nullifier' || key = key'
      || !forGood && Hex.encode key.val ∉ t.before.threads.state.inner.registeredPeers
  | _, _ => true

theorem presented_of_verified {e : HumanEvent} {proof : Json} {nullifier : String}
    {key : FixedBytes 32} (h : Verified worldApi base64 "rp" e proof nullifier key)
    : presented e = some (nullifier, key) := by
  obtain ⟨_, hrequest, hdecode⟩ := h.request
  simp only [presented, hrequest, h.verifies, hdecode, key.property, dite_true]
  rfl

theorem oneKeyAtATime_of_keeps {ts : List (Transition HumanThreads HumanEvent Response)}
    (h : ts.Pairwise fun u t => keeps false u t = true)
    : OneKeyAtATime worldApi base64 "rp" ts := by
  refine h.imp ?_
  intro u t hkeeps proof proof' nullifier key key' hverified hverified' hne
  rw [keeps, presented_of_verified hverified, presented_of_verified hverified'] at hkeeps
  simpa [hne] using hkeeps

theorem oneKeyPerHuman_of_keeps {ts : List (Transition HumanThreads HumanEvent Response)}
    (h : ∀ t ∈ ts, ∀ u ∈ ts, keeps true t u = true)
    : OneKeyPerHuman worldApi base64 "rp" ts := by
  intro t ht u hu proof proof' nullifier key key' hverified hverified'
  have hkeeps := h t ht u hu
  rw [keeps, presented_of_verified hverified, presented_of_verified hverified'] at hkeeps
  simpa using hkeeps

end Sample

theorem oneConnection_of_run_registered
    : (∃ s ts, (humanMachine Sample.worldApi Sample.base64).Run Sample.humanInitial ts s ∧
        s.threads.state.inner.registeredPeers
          = {Hex.encode Sample.otherPubkey.val, Hex.encode Sample.thirdPubkey.val} ∧
        OneKeyAtATime Sample.worldApi Sample.base64 Sample.humanInitial.worldRpId ts ∧
        ∃ human : String → String,
          Set.InjOn human s.threads.state.inner.registeredPeers
            ∧
          ∀ pubkeyHex ∈ s.threads.state.inner.registeredPeers, human pubkeyHex ∈ s.usedNullifiers)
        ∧
      ∃ s ts, (humanMachine Sample.worldApi Sample.base64).Run Sample.humanInitial ts s ∧
        s.threads.state.inner.registeredPeers
          = {Hex.encode Sample.otherPubkey.val, Hex.encode Sample.pubkey.val} ∧
        OneKeyPerHuman Sample.worldApi Sample.base64 Sample.humanInitial.worldRpId ts ∧
        ∀ t ∈ ts, ∀ u ∈ ts, ∀ pubkeyBase64 pubkeyBase64' proof pubkeyHex pubkeyHex',
          t.event.request Sample.worldApi = some (pubkeyBase64, some proof) →
          Registers t pubkeyHex →
          u.event.request Sample.worldApi = some (pubkeyBase64', some proof) →
          Registers u pubkeyHex' →
          pubkeyHex = pubkeyHex' := by
  constructor
  . obtain ⟨ts, s, hrun, h⟩ := Machine.Run.exists_of_exec
      (humanMachine Sample.worldApi Sample.base64) Sample.listedInitial
      (Sample.comingBack Sample.thirdPubkeyText)
      (fun ts s =>
        s.threads.state.inner.registeredPeers
          = {Hex.encode Sample.otherPubkey.val, Hex.encode Sample.thirdPubkey.val}
          ∧
        ts.Pairwise fun u t => Sample.keeps false u t = true)
      (by decide +kernel)
    rw [← Sample.humanInitial_eq] at hrun
    obtain ⟨hregistered, hkeeps⟩ := of_decide_eq_true h
    have hkeys := Sample.oneKeyAtATime_of_keeps hkeeps
    obtain ⟨human, hinj, hhuman⟩ := (oneConnection_of_run rfl rfl hrun).1 hkeys
    exact ⟨s, ts, hrun, hregistered, hkeys, human, hinj, fun _ hmem => (hhuman _ hmem).1⟩
  . obtain ⟨ts, s, hrun, h⟩ := Machine.Run.exists_of_exec
      (humanMachine Sample.worldApi Sample.base64) Sample.listedInitial
      (Sample.comingBack Sample.pubkeyText)
      (fun ts s =>
        s.threads.state.inner.registeredPeers
          = {Hex.encode Sample.otherPubkey.val, Hex.encode Sample.pubkey.val}
          ∧
        ∀ t ∈ ts, ∀ u ∈ ts, Sample.keeps true t u = true)
      (by decide +kernel)
    rw [← Sample.humanInitial_eq] at hrun
    obtain ⟨hregistered, hkeeps⟩ := of_decide_eq_true h
    have hkeys := Sample.oneKeyPerHuman_of_keeps hkeeps
    exact ⟨s, ts, hrun, hregistered, hkeys, ((oneConnection_of_run rfl rfl hrun).2 hkeys).2⟩

/--
A human registers two keys with the same proof.
-/
theorem exists_two_connections
    : ∃ s ts, (humanMachine Sample.worldApi Sample.base64).Run Sample.humanInitial ts s ∧
        isHumanOnly Sample.humanInitial.btHumanOnly = true ∧
        s.threads.state.inner.registeredPeers
          = {Hex.encode Sample.otherPubkey.val, Hex.encode Sample.pubkey.val} ∧
        (¬∃ human : String → String,
          Set.InjOn human s.threads.state.inner.registeredPeers
            ∧
          ∀ pubkeyHex ∈ s.threads.state.inner.registeredPeers, human pubkeyHex ∈ s.usedNullifiers) ∧
        ∃ t ∈ ts, ∃ u ∈ ts, ∃ proof nullifier,
          Verified Sample.worldApi Sample.base64 Sample.humanInitial.worldRpId t.event proof
            nullifier Sample.pubkey
            ∧
          Verified Sample.worldApi Sample.base64 Sample.humanInitial.worldRpId u.event proof
            nullifier Sample.otherPubkey
            ∧
          Registers t (Hex.encode Sample.pubkey.val)
            ∧
          Registers u (Hex.encode Sample.otherPubkey.val) := by
  obtain ⟨s₁, responses₁, hstep₁, hopen, hused₁, hregistered₁, octet, hips₁⟩ :=
    Sample.exists_step_of_free Sample.open_humanInitial Sample.verified_first
      (Finset.notMem_empty _) Sample.nonempty_initial
  have hempty : Sample.humanInitial.threads.state.inner.registeredPeers = ∅ := rfl
  rw [hempty] at hregistered₁
  have hnew : Hex.encode Sample.otherPubkey.val ∉ s₁.threads.state.inner.registeredPeers := by
    rw [hregistered₁]
    simpa using Sample.encode_pubkey_ne.symm
  obtain ⟨s₂, responses₂, hstep₂, _, hused₂, hregistered₂, _⟩ :=
    Sample.exists_step_of_free hopen Sample.verified_second hnew
      (by rw [hips₁]; exact Sample.nonempty_humanInitial_erase octet)
  rw [hregistered₁] at hregistered₂
  refine ⟨s₂, _, (Machine.Run.single hstep₁).append (.single hstep₂), rfl, hregistered₂, ?_, ?_⟩
  . rintro ⟨human, hinj, hhuman⟩
    have hone (pubkeyHex : String) (hmem : pubkeyHex ∈ s₂.threads.state.inner.registeredPeers)
        : human pubkeyHex = "0x1a" := by
      have hmem := hhuman pubkeyHex hmem
      rw [hused₂, hused₁] at hmem
      simpa [Sample.humanInitial] using hmem
    have hfirst : Hex.encode Sample.pubkey.val ∈ s₂.threads.state.inner.registeredPeers := by
      simp [hregistered₂]
    have hsecond : Hex.encode Sample.otherPubkey.val ∈ s₂.threads.state.inner.registeredPeers := by
      simp [hregistered₂]
    apply Sample.encode_pubkey_ne
    exact hinj hfirst hsecond ((hone _ hfirst).trans (hone _ hsecond).symm)
  . refine ⟨_, List.mem_cons_self, _, List.mem_cons_of_mem _ List.mem_cons_self, _, _,
      Sample.verified_first, Sample.verified_second, ⟨?_, ?_⟩, ⟨?_, hnew⟩⟩
    . simp [hregistered₁]
    . exact Finset.notMem_empty _
    . simp [hregistered₂]

end Registration
