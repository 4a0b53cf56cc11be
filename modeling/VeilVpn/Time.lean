import Mathlib.Data.Nat.Notation

/-!
This module contains instants and durations, both counted in nanoseconds.
-/

abbrev Instant := Nat

abbrev Duration := Nat

namespace Duration

def nanosPerSec : Nat := 1000000000

def fromSecs (secs : Nat) : Duration :=
  secs * nanosPerSec

def asSecs (d : Duration) : Nat :=
  d / nanosPerSec

def subsecNanos (d : Duration) : Nat :=
  d % nanosPerSec

def asMillis (d : Duration) : Nat :=
  d / 1000000

/--
Subtraction of durations panics if the result would be negative.
-/
def sub (a b : Duration) : Option Duration :=
  if b ≤ a then some (a - b) else none

end Duration

/--
The time from `earlier` to `now`, or zero if `earlier` is later than `now`.
-/
def Instant.durationSince (now earlier : Instant) : Duration :=
  now - earlier

namespace Duration

theorem fromSecs_asSecs_le (d : Duration) : fromSecs d.asSecs ≤ d :=
  Nat.div_mul_le_self d nanosPerSec

theorem add_fromSecs_lt_of_lt_asSecs {a b secs : Nat} (h : secs < asSecs (b - a))
    : a + fromSecs secs < b := by
  simp only [asSecs, fromSecs, nanosPerSec] at *
  omega

theorem add_fromSecs_lt_of_lt {a b secs secs' : Nat} (h : a + fromSecs secs' < b + fromSecs 1)
    (hsecs : secs < secs')
    : a + fromSecs secs < b := by
  have hmul : (secs + 1) * nanosPerSec ≤ secs' * nanosPerSec := Nat.mul_le_mul_right _ hsecs
  rw [Nat.succ_mul] at hmul
  unfold fromSecs at *
  rw [Nat.one_mul] at h
  omega

end Duration
