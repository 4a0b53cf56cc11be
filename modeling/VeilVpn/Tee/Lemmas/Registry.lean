import VeilVpn.Tee.Impl.Registry
import Mathlib.Data.List.Induction
import Mathlib.Data.List.Nodup

namespace List

variable {α : Type} [DecidableEq α]

theorem eraseDups_concat (xs : List α) (a : α)
    : (xs ++ [a]).eraseDups = if a ∈ xs then xs.eraseDups else xs.eraseDups ++ [a] := by
  rw [List.eraseDups_append]
  split
  . next h => simp [List.removeAll, h]
  . next h => simp [List.removeAll, h, List.eraseDups_cons]

theorem nodup_eraseDups (xs : List α) : xs.eraseDups.Nodup := by
  induction xs using List.reverseRecOn with
  | nil => simp
  | append_singleton xs a ih =>
    rw [eraseDups_concat]
    split
    . exact ih
    . next h =>
      rw [← List.concat_eq_append]
      exact ih.concat (by simpa using h)

end List

namespace Tee

namespace AttestationRegistry

variable {r r' : AttestationRegistry} {msg : Msg} {ensNode n : Node} {label : Bytes}
  {e : AttestationRegistered} {log : List AttestationRegistered}

theorem register_eq_some
    : r.register msg ensNode label = some (r', e)
        ↔
      r.roflAppId ∈ msg.apps
        ∧
      e = { ensNode, label, attester := msg.sender, timestamp := msg.timestamp }
        ∧
      r' = (r.setAttestation ensNode e.attestation).addSubname ensNode := by
  unfold register roflEnsureAuthorizedOrigin
  split
  . next h =>
    simp only [Option.bind_eq_bind, Option.bind_some, Option.pure_def, Option.some.injEq, Prod.mk.injEq, h,
      true_and]
    constructor
    . rintro ⟨rfl, rfl⟩
      exact ⟨rfl, rfl⟩
    . rintro ⟨rfl, rfl⟩
      exact ⟨rfl, rfl⟩
  . next h => simp [h]

@[simp]
theorem addSubname_attestations : (r.addSubname ensNode).attestations = r.attestations := by
  unfold addSubname
  split <;> rfl

@[simp]
theorem addSubname_roflAppId : (r.addSubname ensNode).roflAppId = r.roflAppId := by
  unfold addSubname
  split <;> rfl

theorem addSubname_registered
    : (r.addSubname ensNode).registered n = true ↔ n = ensNode ∨ r.registered n = true := by
  unfold addSubname
  split
  . simp only [Function.update_apply]
    split
    . next h => simp [h]
    . next h => simp [h]
  . next h =>
    constructor
    . exact Or.inr
    . rintro (rfl | hn)
      . simpa using h
      . exact hn

theorem addSubname_subnameNodes
    : (r.addSubname ensNode).subnameNodes
        =
      if r.registered ensNode then r.subnameNodes else r.subnameNodes ++ [ensNode] := by
  unfold addSubname
  cases r.registered ensNode <;> rfl

@[simp]
theorem setAttestation_registered {a : Attestation}
    : (r.setAttestation ensNode a).registered = r.registered := rfl

@[simp]
theorem setAttestation_subnameNodes {a : Attestation}
    : (r.setAttestation ensNode a).subnameNodes = r.subnameNodes := rfl

def latest (log : List AttestationRegistered) (n : Node) : Attestation :=
  ((log.reverse.find? (·.ensNode = n)).map (·.attestation)).getD .zero

theorem latest_concat
    : latest (log ++ [e]) n = if e.ensNode = n then e.attestation else latest log n := by
  unfold latest
  rw [List.reverse_append, List.reverse_singleton, List.singleton_append, List.find?_cons]
  split
  . next h => simp_all
  . next h => simp_all

theorem exists_of_latest (h : ∃ e ∈ log, e.ensNode = n)
    : ∃ e ∈ log, e.ensNode = n ∧ latest log n = e.attestation := by
  obtain ⟨e, he, hn⟩ := h
  unfold latest
  cases hfind : log.reverse.find? (·.ensNode = n) with
  | none =>
    rw [List.find?_eq_none] at hfind
    simp only [List.mem_reverse, decide_eq_true_eq] at hfind
    exact absurd hn (hfind e he)
  | some e =>
    have hlast := List.find?_some hfind
    simp only [decide_eq_true_eq] at hlast
    exact ⟨e, List.mem_reverse.mp (List.mem_of_find?_eq_some hfind), hlast, rfl⟩

theorem latest_of_not_mem (h : ¬ ∃ e ∈ log, e.ensNode = n) : latest log n = .zero := by
  have hfind : log.reverse.find? (·.ensNode = n) = none := by
    rw [List.find?_eq_none]
    intro e he
    simpa using fun hn => h ⟨e, List.mem_reverse.mp he, hn⟩
  rw [latest, hfind]
  rfl

/--
What the contract answers is what can be read off the log.
-/
structure Follows (log : List AttestationRegistered) (r : AttestationRegistry) : Prop where
  /-- Nodes are enumerated once each, in the order in which they were attested first -/
  subnames : r.getSubnames = (log.map (·.ensNode)).eraseDups
  attested : ∀ n, r.isAttested n = true ↔ ∃ e ∈ log, e.ensNode = n
  attestation : ∀ n, r.getAttestation n = latest log n

namespace Follows

theorem new (roflAppId : RoflAppId) : Follows [] (new roflAppId) where
  subnames := rfl
  attested := by simp [isAttested, AttestationRegistry.new]
  attestation := fun _ => rfl

theorem register (h : Follows log r) (hregister : r.register msg ensNode label = some (r', e))
    : Follows (log ++ [e]) r' := by
  obtain ⟨-, he, rfl⟩ := register_eq_some.mp hregister
  have hnode : e.ensNode = ensNode := by rw [he]
  constructor
  . have hmem : r.registered ensNode = true ↔ ensNode ∈ log.map (·.ensNode) := by
      simpa [isAttested] using h.attested ensNode
    have hnodes := h.subnames
    unfold getSubnames at hnodes ⊢
    rw [addSubname_subnameNodes, setAttestation_registered, setAttestation_subnameNodes, hnodes,
      List.map_append, List.map_singleton, hnode, List.eraseDups_concat]
    simp only [hmem]
  . intro n
    have hn := h.attested n
    unfold isAttested at hn ⊢
    rw [addSubname_registered, setAttestation_registered, hn]
    simp only [List.mem_append, List.mem_singleton, or_and_right, exists_or, exists_eq_left, hnode]
    rw [or_comm, eq_comm]
  . intro n
    have hn := h.attestation n
    unfold getAttestation at hn ⊢
    rw [addSubname_attestations, latest_concat, hnode, ← hn]
    unfold setAttestation
    simp only [Function.update_apply, eq_comm]

theorem mem_getSubnames (h : Follows log r)
    : n ∈ r.getSubnames ↔ ∃ e ∈ log, e.ensNode = n := by
  rw [h.subnames, List.mem_eraseDups, List.mem_map]

theorem nodup_getSubnames (h : Follows log r) : r.getSubnames.Nodup := by
  rw [h.subnames]
  exact List.nodup_eraseDups _

end Follows

end AttestationRegistry

end Tee
