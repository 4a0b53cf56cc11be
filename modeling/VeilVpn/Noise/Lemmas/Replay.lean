import VeilVpn.Noise.Lemmas.Window

namespace Noise

namespace ReceivingKeyCounterValidator

variable {v v' : ReceivingKeyCounterValidator} {counter : UInt64}

section Exactness

def markAll (v : ReceivingKeyCounterValidator)
    : List UInt64 → List (UInt64 × Except WireGuardError Unit)
  | [] => []
  | counter :: counters =>
    (counter, (v.markDidReceive counter).2) :: (v.markDidReceive counter).1.markAll counters

def accepted (calls : List (UInt64 × Except WireGuardError Unit)) : List Nat :=
  (calls.filter (·.2.isOk)).map (·.1.toNat)

variable {calls earlier later : List (UInt64 × Except WireGuardError Unit)}
  {call : UInt64 × Except WireGuardError Unit} {counters : List UInt64}

theorem accepted_append : accepted (calls ++ later) = accepted calls ++ accepted later := by
  simp [accepted]

theorem accepted_singleton_ok : accepted [(counter, .ok ())] = [counter.toNat] := rfl

theorem accepted_singleton_error {e : WireGuardError} : accepted [(counter, .error e)] = [] := rfl

theorem Represents.mark (h : v.Represents {c | c ∈ accepted calls})
    (hcounter : counter.toNat + 1024 < 2 ^ 64)
    : ((v.markDidReceive counter).2 = .ok ()
          ↔
        counter.toNat ∉ accepted calls
          ∧ Window.nextOf (accepted calls) ≤ counter.toNat + 1024)
        ∧
      (v.markDidReceive counter).1.Represents
        {c | c ∈ accepted (calls ++ [(counter, (v.markDidReceive counter).2)])} := by
  have hnext := h.next_eq
  rcases h.markDidReceive hcounter with ⟨hfresh, v', hmark, hseen⟩ | ⟨hfresh, e, hmark⟩
  . rw [hmark, ← hnext]
    refine ⟨⟨fun _ => ⟨hfresh.2, hfresh.1⟩, fun _ => rfl⟩, ?_⟩
    rw [accepted_append, accepted_singleton_ok]
    have hinsert : insert counter.toNat {c | c ∈ accepted calls}
        = {c | c ∈ accepted calls ++ [counter.toNat]} := by
      ext c
      simp [or_comm]
    rw [← hinsert]
    exact hseen
  . rw [hmark, ← hnext]
    refine ⟨⟨nofun, fun h => absurd ⟨h.2, h.1⟩ hfresh⟩, ?_⟩
    rw [accepted_append, accepted_singleton_error, List.append_nil]
    exact h

theorem markAll_split (h : v.Represents {c | c ∈ accepted calls})
    (hcounters : ∀ c ∈ counters, c.toNat + 1024 < 2 ^ 64)
    (heq : v.markAll counters = earlier ++ call :: later)
    : call.2 = .ok ()
        ↔
      call.1.toNat ∉ accepted (calls ++ earlier)
        ∧ Window.nextOf (accepted (calls ++ earlier)) ≤ call.1.toNat + 1024 := by
  induction counters generalizing v calls earlier with
  | nil => simp [markAll] at heq
  | cons counter counters ih =>
    obtain ⟨hiff, hseen⟩ := h.mark (hcounters counter List.mem_cons_self)
    rw [markAll] at heq
    cases earlier with
    | nil =>
      obtain ⟨rfl, _⟩ := List.cons.inj heq
      rw [List.append_nil]
      exact hiff
    | cons first earlier =>
      obtain ⟨rfl, hrest⟩ := List.cons.inj heq
      rw [List.append_cons]
      exact ih hseen (fun c hc => hcounters c (List.mem_cons_of_mem _ hc)) hrest

theorem nodup_accepted_markAll (h : v.Represents {c | c ∈ accepted calls})
    (hcounters : ∀ c ∈ counters, c.toNat + 1024 < 2 ^ 64) (hnodup : (accepted calls).Nodup)
    : (accepted (calls ++ v.markAll counters)).Nodup := by
  induction counters generalizing v calls with
  | nil => simpa [markAll] using hnodup
  | cons counter counters ih =>
    obtain ⟨hiff, hseen⟩ := h.mark (hcounters counter List.mem_cons_self)
    rw [markAll, List.append_cons]
    apply ih hseen fun c hc => hcounters c (List.mem_cons_of_mem _ hc)
    rw [accepted_append]
    cases hresult : (v.markDidReceive counter).2 with
    | error e => simpa [accepted_singleton_error] using hnodup
    | ok _ =>
      have hnew := (hiff.mp hresult).1
      rw [accepted_singleton_ok, List.nodup_append]
      refine ⟨hnodup, by simp, ?_⟩
      intro c hc c' hc' heq
      rw [heq, List.mem_singleton.mp hc'] at hc
      exact hnew hc

theorem length_markAll : (v.markAll counters).length = counters.length := by
  induction counters generalizing v with
  | nil => rfl
  | cons counter counters ih => simp [markAll, ih]

theorem getElem?_markAll {i : Nat} {call : UInt64 × Except WireGuardError Unit}
    (h : (v.markAll counters)[i]? = some call)
    : counters[i]? = some call.1 := by
  induction counters generalizing v i with
  | nil => simp [markAll] at h
  | cons counter counters ih =>
    rw [markAll] at h
    cases i with
    | zero =>
      cases Option.some.inj h
      rfl
    | succ i => exact ih h

/--
The window accepts exactly the counters that are new and not more than its width behind.
-/
theorem markAll_default_exact (counters : List UInt64) (h : ∀ c ∈ counters, c.toNat ≤ 2 ^ 64 - 1025)
    : (∀ i (hi : i < counters.length), ∃ result,
        (default.markAll counters)[i]? = some (counters[i], result)
          ∧
        (result = .ok ()
            ↔
          counters[i].toNat ∉ accepted ((default.markAll counters).take i)
            ∧
          Window.nextOf (accepted ((default.markAll counters).take i)) ≤ counters[i].toNat + 1024))
        ∧
      (accepted (default.markAll counters)).Nodup := by
  have hcounters : ∀ c ∈ counters, c.toNat + 1024 < 2 ^ 64 := by
    intro c hc
    have := h c hc
    omega
  have hempty : default.Represents {c | c ∈ accepted []} := by
    simpa [accepted] using represents_default
  constructor
  . intro i hi
    have hlt : i < (default.markAll counters).length := by
      rw [length_markAll]
      exact hi
    have hget := List.getElem?_eq_getElem hlt
    have hcounter := getElem?_markAll hget
    rw [List.getElem?_eq_getElem hi, Option.some.injEq] at hcounter
    refine ⟨(default.markAll counters)[i].2, ?_, ?_⟩
    . rw [hget, hcounter]
    . rw [hcounter]
      apply markAll_split hempty hcounters
      rw [List.getElem_cons_drop, List.take_append_drop]
  . have hnodup := nodup_accepted_markAll hempty hcounters List.nodup_nil
    exact hnodup

theorem markAll_default_exact_late
    : (∀ c ∈ [(6 : UInt64), 1028, 5, 1028], c.toNat ≤ 2 ^ 64 - 1025)
        ∧
      (default.markAll [6, 1028, 5, 1028])[2]? = some (5, .ok ())
        ∧
      (accepted (default.markAll [6, 1028, 5, 1028])).Nodup := by
  have hcounters : ∀ c ∈ [(6 : UInt64), 1028, 5, 1028], c.toNat ≤ 2 ^ 64 - 1025 := by
    simp
  obtain ⟨hexact, hnodup⟩ := markAll_default_exact [6, 1028, 5, 1028] hcounters
  obtain ⟨result, hget, hiff⟩ := hexact 2 (by decide)
  have hok : result = .ok () := hiff.mpr (by decide +kernel)
  rw [hok] at hget
  exact ⟨hcounters, hget, hnodup⟩

end Exactness

section Overflow

/--
An addition that reports an overflow, as the arithmetic of a debug build does.
-/
def checkedAdd (a b : UInt64) : Option UInt64 :=
  if a.toNat + b.toNat < 2 ^ 64 then some (a + b) else none

theorem checkedAdd_of_lt {a b : UInt64} (h : a.toNat + b.toNat < 2 ^ 64)
    : checkedAdd a b = some (a + b) :=
  if_pos h

def willAcceptChecked (v : ReceivingKeyCounterValidator) (counter : UInt64)
    : Option (Except WireGuardError Unit) :=
  if v.next ≤ counter then
    some (.ok ())
  else
    match checkedAdd counter nBits with
    | none => none
    | some bound =>
      if bound < v.next then
        some (.error .invalidCounter)
      else if !v.checkBit counter then
        some (.ok ())
      else
        some (.error .duplicateCounter)

def clearSkippedChecked (v : ReceivingKeyCounterValidator) (counter : UInt64)
    : Option ReceivingKeyCounterValidator :=
  let fuel := 2 ^ 64
  let clearBits := fun s : ReceivingKeyCounterValidator × UInt64 =>
    (checkedAdd s.2 1).map fun i => (s.1.clearBit s.2, i)
  let clearWords := fun s : ReceivingKeyCounterValidator × UInt64 =>
    (checkedAdd s.2 wordSize).map fun i => (s.1.clearWord s.2, i &&& (0 - wordSize))
  (whileLoopM (fun s => some (s.2 % wordSize ≠ 0 && s.2 < counter)) clearBits fuel (v, v.next)).bind
    fun s =>
      (whileLoopM (fun s => (checkedAdd s.2 wordSize).map fun i => i < counter) clearWords fuel
        s).bind fun s =>
          (whileLoopM (fun s => some (s.2 < counter)) clearBits fuel s).map fun s => s.1

def markDidReceiveChecked (v : ReceivingKeyCounterValidator) (counter : UInt64)
    : Option (ReceivingKeyCounterValidator × Except WireGuardError Unit) :=
  match checkedAdd counter nBits with
  | none => none
  | some bound =>
    if bound < v.next then
      some (v, .error .invalidCounter)
    else if counter = v.next then
      (checkedAdd v.next 1).map fun next => ({ v.setBit counter with next }, .ok ())
    else if counter < v.next then
      if v.checkBit counter then
        some (v, .error .invalidCounter)
      else
        some (v.setBit counter, .ok ())
    else
      let cleared :=
        if nBits ≤ counter - v.next then
          some { v with bitmap := fun _ => 0 }
        else
          v.clearSkippedChecked counter
      cleared.bind fun cleared =>
        (checkedAdd counter 1).map fun next => ({ cleared.setBit counter with next }, .ok ())

theorem willAcceptChecked_eq (v : ReceivingKeyCounterValidator)
    (hcounter : counter.toNat + 1024 < 2 ^ 64)
    : v.willAcceptChecked counter = some (v.willAccept counter) := by
  unfold willAcceptChecked willAccept
  rw [checkedAdd_of_lt hcounter]
  dsimp only
  split
  . rfl
  . split
    . rfl
    . split <;> rfl

theorem whileLoopM_clearBit (cond : ReceivingKeyCounterValidator × UInt64 → Bool)
    (hcond : ∀ s, cond s = true → s.2 < counter) (fuel : Nat)
    {s : ReceivingKeyCounterValidator × UInt64} (hs : s.2.toNat ≤ counter.toNat)
    : whileLoopM (fun s => some (cond s))
          (fun s => (checkedAdd s.2 1).map fun i => (s.1.clearBit s.2, i)) fuel s
        =
      some (whileLoop cond (fun s => (s.1.clearBit s.2, s.2 + 1)) fuel s)
        ∧
      (whileLoop cond (fun s => (s.1.clearBit s.2, s.2 + 1)) fuel s).2.toNat ≤ counter.toNat := by
  have hmax := counter.toNat_lt
  apply whileLoopM_eq_some (fun s : ReceivingKeyCounterValidator × UInt64 => s.2.toNat ≤ counter.toNat)
  . intro s _
    rfl
  . intro s _ htrue
    have hlt : s.2.toNat < counter.toNat := hcond s htrue
    have hadd : s.2.toNat + (1 : UInt64).toNat < 2 ^ 64 := by
      simp
      omega
    rw [checkedAdd_of_lt hadd, toNat_add_of_lt hadd]
    exact ⟨rfl, hlt⟩
  . exact hs

theorem whileLoopM_clearWord (hcounter : counter.toNat + 64 < 2 ^ 64) (fuel : Nat)
    {s : ReceivingKeyCounterValidator × UInt64} (hs : s.2.toNat ≤ counter.toNat)
    : whileLoopM (fun s => (checkedAdd s.2 wordSize).map fun i => i < counter)
          (fun s => (checkedAdd s.2 wordSize).map fun i => (s.1.clearWord s.2, i &&& (0 - wordSize)))
          fuel s
        =
      some (whileLoop (fun s => decide (s.2 + wordSize < counter))
        (fun s => (s.1.clearWord s.2, (s.2 + wordSize) &&& (0 - wordSize))) fuel s)
        ∧
      (whileLoop (fun s => decide (s.2 + wordSize < counter))
        (fun s => (s.1.clearWord s.2, (s.2 + wordSize) &&& (0 - wordSize))) fuel s).2.toNat
        ≤ counter.toNat := by
  have hadd (s : ReceivingKeyCounterValidator × UInt64) (hs : s.2.toNat ≤ counter.toNat)
      : s.2.toNat + wordSize.toNat < 2 ^ 64 := by
    simp only [wordSize, UInt64.reduceToNat]
    omega
  apply whileLoopM_eq_some (fun s : ReceivingKeyCounterValidator × UInt64 => s.2.toNat ≤ counter.toNat)
  . intro s hs
    rw [checkedAdd_of_lt (hadd s hs)]
    rfl
  . intro s hs htrue
    have hlt : (s.2 + wordSize).toNat < counter.toNat := of_decide_eq_true htrue
    rw [checkedAdd_of_lt (hadd s hs), UInt64.toNat_and]
    exact ⟨rfl, Nat.le_trans Nat.and_le_left (Nat.le_of_lt hlt)⟩
  . exact hs

theorem clearSkippedChecked_eq (hle : v.next.toNat ≤ counter.toNat)
    (hcounter : counter.toNat + 64 < 2 ^ 64)
    : v.clearSkippedChecked counter = some (v.clearSkipped counter) := by
  obtain ⟨fuel, hfuel⟩ : ∃ fuel, fuel = 2 ^ 64 := ⟨_, rfl⟩
  unfold clearSkippedChecked clearSkipped
  rw [← hfuel]
  dsimp only
  obtain ⟨heq₁, hle₁⟩ := whileLoopM_clearBit
    (fun s => decide (s.2 % wordSize ≠ 0) && decide (s.2 < counter)) (by simp) fuel
    (s := (v, v.next)) hle
  obtain ⟨heq₂, hle₂⟩ := whileLoopM_clearWord hcounter fuel hle₁
  obtain ⟨heq₃, _⟩ := whileLoopM_clearBit (fun s => decide (s.2 < counter)) (by simp) fuel hle₂
  rw [heq₁, Option.bind_some, heq₂, Option.bind_some, heq₃, Option.map_some]

/--
The first addition is the one that overflows, if any does.
-/
theorem markDidReceiveChecked_eq (v : ReceivingKeyCounterValidator) (counter : UInt64)
    : v.markDidReceiveChecked counter
        =
      if counter.toNat + 1024 < 2 ^ 64 then some (v.markDidReceive counter) else none := by
  by_cases hcounter : counter.toNat + 1024 < 2 ^ 64
  . have hone : counter.toNat + (1 : UInt64).toNat < 2 ^ 64 := by
      simp
      omega
    unfold markDidReceiveChecked markDidReceive
    rw [if_pos hcounter, checkedAdd_of_lt hcounter]
    dsimp only
    split
    . rfl
    . split
      . next heq =>
        rw [← heq, checkedAdd_of_lt hone, Option.map_some]
      . split
        . split <;> rfl
        . next hnotLt =>
          have hle : v.next.toNat ≤ counter.toNat := UInt64.not_lt.mp hnotLt
          rw [clearSkippedChecked_eq hle (by omega), checkedAdd_of_lt hone]
          split <;> rfl
  . have hnone : checkedAdd counter nBits = none := if_neg hcounter
    unfold markDidReceiveChecked
    rw [if_neg hcounter, hnone]

/--
The counter is known as received, and not too far back.
-/
structure Marked (v : ReceivingKeyCounterValidator) (counter : UInt64) : Prop where
  lt : counter.toNat < v.next.toNat
  le : v.next.toNat ≤ counter.toNat + 1024
  bit : v.bitAt counter.toNat = true

theorem bitAt_setBit_self (v : ReceivingKeyCounterValidator) (counter next : UInt64)
    : bitAt { v.setBit counter with next } counter.toNat = true := by
  have hbit := bitAt_setBit v counter counter.toNat
  rw [decide_eq_true rfl, Bool.true_or] at hbit
  exact hbit

theorem marked_of_markDidReceive (hcounter : counter.toNat + 1024 < 2 ^ 64)
    (h : v.markDidReceive counter = (v', .ok ()))
    : v'.Marked counter := by
  have hadd := toNat_add_nBits hcounter
  have hnext : (counter + 1).toNat = counter.toNat + 1 := toNat_add_of_lt (by simp; omega)
  unfold markDidReceive at h
  split at h
  . simp at h
  . next hback =>
    have hwindow : v.next.toNat ≤ (counter + nBits).toNat := UInt64.not_lt.mp hback
    split at h
    . next heq =>
      cases h
      rw [← heq]
      refine ⟨?_, ?_, bitAt_setBit_self v counter _⟩
      . dsimp only
        omega
      . dsimp only
        omega
    . split at h
      . next hlt =>
        split at h
        . simp at h
        . cases h
          exact ⟨hlt, by rw [← hadd]; exact hwindow, bitAt_setBit_self v counter _⟩
      . cases h
        refine ⟨?_, ?_, bitAt_setBit_self _ counter _⟩
        . dsimp only
          omega
        . dsimp only
          omega

theorem Marked.markDidReceive (h : v.Marked counter) (hcounter : counter.toNat + 1024 < 2 ^ 64)
    : v.markDidReceive counter = (v, .error .invalidCounter) := by
  have hadd := toNat_add_nBits hcounter
  have hback : ¬counter + nBits < v.next := by
    rw [UInt64.lt_iff_toNat_lt, hadd, Nat.not_lt]
    exact h.le
  have hne : counter ≠ v.next := by
    intro heq
    have hlt := h.lt
    rw [heq] at hlt
    exact Nat.lt_irrefl _ hlt
  unfold ReceivingKeyCounterValidator.markDidReceive
  rw [if_neg hback, if_neg hne, if_pos (UInt64.lt_iff_toNat_lt.mpr h.lt), checkBit_eq, if_pos h.bit]

theorem willAccept_eq_ok_iff (v : ReceivingKeyCounterValidator)
    (hcounter : counter.toNat + 1024 < 2 ^ 64)
    : v.willAccept counter = .ok () ↔ (v.markDidReceive counter).2 = .ok () := by
  have hadd := toNat_add_nBits hcounter
  unfold willAccept markDidReceive
  by_cases hle : v.next ≤ counter
  . have hback : ¬counter + nBits < v.next := by
      have hle : v.next.toNat ≤ counter.toNat := hle
      rw [UInt64.lt_iff_toNat_lt, hadd]
      omega
    rw [if_pos hle, if_neg hback]
    split
    . simp
    . rw [if_neg (UInt64.not_lt.mpr hle)]
  . have hlt : counter < v.next := UInt64.not_le.mp hle
    have hne : counter ≠ v.next := UInt64.ne_of_lt hlt
    rw [if_neg hle, if_neg hne, if_pos hlt]
    split
    . simp
    . cases v.checkBit counter <;> simp

/--
The quick check and the final check agree for all counters but the last ones, for which the sum with
the width of the window overflows.
-/
theorem checks_agree_iff (v : ReceivingKeyCounterValidator) (counter : UInt64)
    : ((v.willAccept counter = .ok () ↔ (v.markDidReceive counter).2 = .ok ())
          ∧
        (v.willAcceptChecked counter).isSome
          ∧
        (v.markDidReceiveChecked counter).isSome
          ∧
        ((v.markDidReceive counter).2 = .ok () →
          ((v.markDidReceive counter).1.markDidReceive counter).2 ≠ .ok ()))
        ↔
      counter.toNat + 1024 < 2 ^ 64 := by
  rw [markDidReceiveChecked_eq]
  constructor
  . rintro ⟨_, _, hsome, _⟩
    split at hsome
    . next hcounter => exact hcounter
    . simp at hsome
  . intro hcounter
    refine ⟨willAccept_eq_ok_iff v hcounter, ?_, ?_, ?_⟩
    . rw [willAcceptChecked_eq v hcounter]
      rfl
    . rw [if_pos hcounter]
      rfl
    . intro hok
      have hmarked : (v.markDidReceive counter).1.Marked counter :=
        marked_of_markDidReceive hcounter (Prod.ext rfl hok)
      rw [hmarked.markDidReceive hcounter]
      nofun

/--
The last counter is accepted as often as it comes, and a debug build stops at it.
-/
theorem last_counter_replayed
    : default.willAccept 0xFFFFFFFFFFFFFFFF = .ok ()
        ∧
      default.markDidReceiveChecked 0xFFFFFFFFFFFFFFFF = none
        ∧
      (default.markDidReceive 0xFFFFFFFFFFFFFFFF).2 = .ok ()
        ∧
      ((default.markDidReceive 0xFFFFFFFFFFFFFFFF).1.markDidReceive 0xFFFFFFFFFFFFFFFF).2
        = .ok () := by
  rw [markDidReceiveChecked_eq]
  decide +kernel

end Overflow

end ReceivingKeyCounterValidator

end Noise
