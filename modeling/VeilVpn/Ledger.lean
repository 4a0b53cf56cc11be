import VeilVpn.Machine
import Mathlib.Algebra.GroupWithZero.Nat
import Mathlib.Data.Finset.Card
import Mathlib.Data.Finset.Option

/-!
This module contains prepaid ledgers: what is spent was granted before, and a grant beyond the
first one redeems a voucher that can not be redeemed again.
-/

structure Ledger (N : Type) where
  granted : Nat
  spent : Nat
  redeemed : Finset N
  spent_le : spent ≤ granted

namespace Ledger

variable {N : Type} [DecidableEq N]

inductive Action (N : Type) where
  | idle
  | spend (amount : Nat)
  | redeem (voucher : N) (amount : Nat)

def new (granted : Nat) : Ledger N where
  granted := granted
  spent := 0
  redeemed := ∅
  spent_le := Nat.zero_le _

def step (l : Ledger N) : Action N → Option (Ledger N × List Unit)
  | .idle => some (l, [])
  | .spend amount =>
    if h : l.spent + amount ≤ l.granted then
      some ({ l with spent := l.spent + amount, spent_le := h }, [])
    else
      none
  | .redeem voucher amount =>
    if voucher ∈ l.redeemed then
      none
    else
      some ({ l with
        granted := l.granted + amount
        redeemed := insert voucher l.redeemed
        spent_le := Nat.le_trans l.spent_le (Nat.le_add_right _ _)
      }, [])

def machine (N : Type) [DecidableEq N] : Machine (Ledger N) (Action N) Unit where
  step := step

def Action.spent : Action N → Nat
  | .spend amount => amount
  | _ => 0

def Action.voucher : Action N → Option N
  | .redeem voucher _ => some voucher
  | _ => none

def Action.granted : Action N → Nat
  | .redeem _ amount => amount
  | _ => 0

def spentIn (ts : List (Transition (Ledger N) (Action N) Unit)) : Nat :=
  (ts.map fun t => t.event.spent).sum

def grantedIn (ts : List (Transition (Ledger N) (Action N) Unit)) : Nat :=
  (ts.map fun t => t.event.granted).sum

def vouchersIn (ts : List (Transition (Ledger N) (Action N) Unit)) : List N :=
  ts.filterMap fun t => t.event.voucher

theorem step_eq_some {l l' : Ledger N} {a : Action N} {os : List Unit}
    (h : l.step a = some (l', os))
    : l'.spent = l.spent + a.spent
        ∧
      l'.granted = l.granted + a.granted
        ∧
      (∀ v ∈ a.voucher, v ∉ l.redeemed)
        ∧
      l'.redeemed = l.redeemed ∪ a.voucher.toFinset := by
  cases a with
  | idle =>
    simp only [step, Option.some.injEq, Prod.mk.injEq] at h
    simp [← h.1, Action.spent, Action.granted, Action.voucher]
  | spend amount =>
    simp only [step, Option.dite_none_right_eq_some, Option.some.injEq, Prod.mk.injEq] at h
    obtain ⟨_, rfl, _⟩ := h
    simp [Action.spent, Action.granted, Action.voucher]
  | redeem voucher amount =>
    simp only [step, Option.ite_none_left_eq_some, Option.some.injEq, Prod.mk.injEq] at h
    obtain ⟨hnot, rfl, _⟩ := h
    simp [Action.spent, Action.granted, Action.voucher, hnot]

theorem totals_of_run {l l' : Ledger N} {ts : List (Transition (Ledger N) (Action N) Unit)}
    (hrun : (machine N).Run l ts l')
    : l'.spent = l.spent + spentIn ts ∧ l'.granted = l.granted + grantedIn ts := by
  induction hrun with
  | nil => simp [spentIn, grantedIn]
  | snoc _ hstep ih =>
    obtain ⟨hspent, hgranted, _, _⟩ := step_eq_some hstep
    simp only [spentIn, grantedIn, List.map_append, List.map_cons, List.map_nil, List.sum_append,
      List.sum_cons, List.sum_nil] at *
    omega

theorem nodup_vouchers_of_run {l l' : Ledger N}
    {ts : List (Transition (Ledger N) (Action N) Unit)} (hrun : (machine N).Run l ts l')
    : (vouchersIn ts).Nodup ∧ l'.redeemed = l.redeemed ∪ (vouchersIn ts).toFinset := by
  induction hrun with
  | nil => simp [vouchersIn]
  | @snoc ts s s' e os _ hstep ih =>
    obtain ⟨hnodup, hredeemed⟩ := ih
    obtain ⟨_, _, hfresh, hinsert⟩ := step_eq_some hstep
    have hsplit : vouchersIn (ts ++ [⟨s, e, os, s'⟩]) = vouchersIn ts ++ e.voucher.toList := by
      simp only [vouchersIn, List.filterMap_append]
      cases hv : e.voucher <;> simp [hv]
    rw [hsplit]
    constructor
    . rw [List.nodup_append]
      refine ⟨hnodup, by cases e.voucher <;> simp, ?_⟩
      intro a ha b hb hab
      subst hab
      apply hfresh a (by simpa using hb)
      simp [hredeemed, ha]
    . rw [hinsert, hredeemed, Finset.union_assoc, List.toFinset_append]
      congr 2
      cases e.voucher <;> rfl

end Ledger
