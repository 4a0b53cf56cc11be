/-!
This module contains computations that can fail and keep the state that they have reached, and rules
of pre- and postconditions for them.
-/

/--
A computation that ends with a value or an error, and in both cases with a state.
-/
def Attempt (σ ε α : Type) : Type :=
  σ → Except ε α × σ

namespace Attempt

variable {σ τ ε α β : Type}

protected def pure (a : α) : Attempt σ ε α :=
  fun s => (.ok a, s)

protected def bind (x : Attempt σ ε α) (f : α → Attempt σ ε β) : Attempt σ ε β :=
  fun s =>
    match x s with
    | (.ok a, s) => f a s
    | (.error e, s) => (.error e, s)

instance : Monad (Attempt σ ε) where
  pure := Attempt.pure
  bind := Attempt.bind

def fail (e : ε) : Attempt σ ε α :=
  fun s => (.error e, s)

def ofExcept (r : Except ε α) : Attempt σ ε α :=
  fun s => (r, s)

def get : Attempt σ ε σ :=
  fun s => (.ok s, s)

def modify (f : σ → σ) : Attempt σ ε Unit :=
  fun s => (.ok (), f s)

def onError (x : Attempt σ ε α) (f : ε → σ → σ) : Attempt σ ε α :=
  fun s =>
    match x s with
    | (.ok a, s) => (.ok a, s)
    | (.error e, s) => (.error e, f e s)

def atEnd (x : Attempt σ ε α) (f : σ → σ) : Attempt σ ε α :=
  fun s => ((x s).1, f (x s).2)

/--
A computation on a part of the state. It fails with errors of its own.
-/
def zoom {ε' : Type} (get : τ → σ) (set : τ → σ → τ) (error : ε → ε') (x : Attempt σ ε α)
    : Attempt τ ε' α :=
  fun t =>
    match x (get t) with
    | (.ok a, s) => (.ok a, set t s)
    | (.error e, s) => (.error (error e), set t s)

/--
From a state with `P`, the computation ends well in a state with `Q` or fails in one with `E`.
-/
def Spec (P : σ → Prop) (x : Attempt σ ε α) (Q : α → σ → Prop) (E : ε → σ → Prop) : Prop :=
  ∀ s, P s →
    match x s with
    | (.ok a, s') => Q a s'
    | (.error e, s') => E e s'

namespace Spec

variable {P P' : σ → Prop} {x : Attempt σ ε α} {Q Q' : α → σ → Prop} {E E' : ε → σ → Prop}

theorem ok (h : Spec P x Q E) {s s' : σ} {a : α} (hs : P s) (hx : x s = (.ok a, s')) : Q a s' := by
  have hspec := h s hs
  rw [hx] at hspec
  exact hspec

theorem error (h : Spec P x Q E) {s s' : σ} {e : ε} (hs : P s) (hx : x s = (.error e, s'))
    : E e s' := by
  have hspec := h s hs
  rw [hx] at hspec
  exact hspec

theorem of_cases (hok : ∀ s a s', P s → x s = (.ok a, s') → Q a s')
    (herror : ∀ s e s', P s → x s = (.error e, s') → E e s')
    : Spec P x Q E := by
  intro s hs
  split
  . next hx => exact hok _ _ _ hs hx
  . next hx => exact herror _ _ _ hs hx

theorem conseq (h : Spec P' x Q' E') (hP : ∀ s, P s → P' s) (hQ : ∀ a s, Q' a s → Q a s)
    (hE : ∀ e s, E' e s → E e s)
    : Spec P x Q E :=
  of_cases (fun _ _ _ hs hx => hQ _ _ (h.ok (hP _ hs) hx))
    (fun _ _ _ hs hx => hE _ _ (h.error (hP _ hs) hx))

theorem of_and {c : Prop} (h : c → Spec P x Q E) : Spec (fun s => P s ∧ c) x Q E :=
  fun s hs => h hs.2 s hs.1

theorem fail {e : ε} (h : ∀ s, P s → E e s) : Spec P (Attempt.fail e : Attempt σ ε α) Q E :=
  h

theorem get {Q : σ → σ → Prop} (h : ∀ s, P s → Q s s) : Spec P (Attempt.get : Attempt σ ε σ) Q E :=
  h

theorem modify {Q : Unit → σ → Prop} {f : σ → σ} (h : ∀ s, P s → Q () (f s))
    : Spec P (Attempt.modify f : Attempt σ ε Unit) Q E :=
  h

theorem bind {R : β → σ → Prop} {f : α → Attempt σ ε β} (hx : Spec P x Q E)
    (hf : ∀ a, Spec (Q a) (f a) R E)
    : Spec P (x >>= f) R E := by
  intro s hs
  change match (match x s with
    | (.ok a, s) => f a s
    | (.error e, s) => (.error e, s)) with
    | (.ok b, s') => R b s'
    | (.error e, s') => E e s'
  have hspec := hx s hs
  cases h : x s with
  | mk r s' =>
    rw [h] at hspec
    cases r with
    | ok a => exact hf a s' hspec
    | error e => exact hspec

theorem bind_of {R : β → σ → Prop} {f : α → Attempt σ ε β} (hx : Spec P x Q E')
    (hE : ∀ e s, E' e s → E e s) (hf : ∀ a, Spec (Q a) (f a) R E)
    : Spec P (x >>= f) R E :=
  (hx.conseq (fun _ h => h) (fun _ _ h => h) hE).bind hf

theorem onError {f : ε → σ → σ} (h : Spec P x Q E) (hE : ∀ e s, E e s → E' e (f e s))
    : Spec P (x.onError f) Q E' := by
  intro s hs
  have hspec := h s hs
  unfold Attempt.onError
  cases hx : x s with
  | mk r s' =>
    rw [hx] at hspec
    cases r with
    | ok a => exact hspec
    | error e => exact hE e s' hspec

theorem atEnd {f : σ → σ} (h : Spec P x Q E) (hQ : ∀ a s, Q a s → Q' a (f s))
    (hE : ∀ e s, E e s → E' e (f s))
    : Spec P (x.atEnd f) Q' E' := by
  intro s hs
  have hspec := h s hs
  unfold Attempt.atEnd
  cases hx : x s with
  | mk r s' =>
    rw [hx] at hspec
    cases r with
    | ok a => exact hQ a s' hspec
    | error e => exact hE e s' hspec

end Spec

end Attempt
