import Mathlib.Algebra.GroupWithZero.Nat
import Mathlib.Data.List.Basic
import Mathlib.Data.List.Infix
import Mathlib.Data.Nat.Notation
import VeilVpn.Text

/-!
This module contains texts that are written and read line by line, lines that give a value to a key,
and numbers in decimal digits.
-/

namespace Lines

/--
The lines of a text, each with the line feed that ends it. The last one may lack it.
-/
def read : List Char → List (List Char)
  | [] => []
  | c :: rest =>
    if c = '\n' then
      [c] :: read rest
    else
      match read rest with
      | [] => [[c]]
      | line :: lines => (c :: line) :: lines

/--
A line without its end, which is a line feed or a carriage return and a line feed.
-/
def strip (line : List Char) : List Char :=
  match line.reverse with
  | '\n' :: '\r' :: front => front.reverse
  | '\n' :: front => front.reverse
  | _ => line

def write (lines : List (List Char)) : List Char :=
  lines.flatMap (· ++ ['\n'])

def splitOnce (c : Char) (s : List Char) : Option (List Char × List Char) :=
  match s.dropWhile (· ≠ c) with
  | [] => none
  | _ :: val => some (s.takeWhile (· ≠ c), val)

def splitWhitespace (s : List Char) : List (List Char) :=
  (s.splitOnP Text.isWhitespace).filter fun word => !word.isEmpty

def lines (s : List Char) : List (List Char) :=
  (read s).map strip

def afterFront (front s : List Char) : Option (List Char) :=
  if front.isPrefixOf s then some (s.drop front.length) else none

variable {c : Char} {line key val : List Char} {lines : List (List Char)}

theorem read_append (hline : '\n' ∉ line) (rest : List Char)
    : read (line ++ '\n' :: rest) = (line ++ ['\n']) :: read rest := by
  induction line with
  | nil => rw [List.nil_append, read, if_pos rfl, List.nil_append]
  | cons c line ih =>
    rw [List.mem_cons, not_or] at hline
    rw [List.cons_append, read, if_neg (Ne.symm hline.1), ih hline.2]
    rfl

theorem read_write (hlines : ∀ line ∈ lines, '\n' ∉ line) (rest : List Char)
    : read (write lines ++ rest) = lines.map (· ++ ['\n']) ++ read rest := by
  induction lines with
  | nil => rfl
  | cons line lines ih =>
    have hrest : ∀ line ∈ lines, '\n' ∉ line := fun l hl => hlines l (List.mem_cons_of_mem line hl)
    have happend : write (line :: lines) ++ rest = line ++ '\n' :: (write lines ++ rest) := by
      simp [write]
    rw [happend, read_append (hlines line List.mem_cons_self), ih hrest]
    rfl

theorem strip_append (hline : '\r' ∉ line) : strip (line ++ ['\n']) = line := by
  unfold strip
  rw [List.reverse_append, List.reverse_singleton, List.singleton_append]
  split
  . next front hfront =>
    rw [List.cons.injEq] at hfront
    rw [← List.mem_reverse, hfront.2] at hline
    exact absurd List.mem_cons_self hline
  . next front _ hfront =>
    rw [List.cons.injEq] at hfront
    rw [← hfront.2, List.reverse_reverse]
  . next hnot =>
    exact absurd rfl (hnot line.reverse)

theorem splitOnce_append (hkey : c ∉ key) : splitOnce c (key ++ c :: val) = some (key, val) := by
  have hall : ∀ x ∈ key, decide (x ≠ c) = true := by
    intro x hx
    rw [decide_eq_true_eq]
    rintro rfl
    exact hkey hx
  unfold splitOnce
  rw [List.dropWhile_append_of_pos hall, List.takeWhile_append_of_pos hall]
  simp

theorem splitOn_append (hkey : c ∉ key) (hval : c ∉ val) : (key ++ c :: val).splitOn c = [key, val] := by
  have hne : ∀ s : List Char, c ∉ s → ∀ x ∈ s, (x == c) = false := by
    intro s hs x hx
    rw [beq_eq_false_iff_ne]
    rintro rfl
    exact hs hx
  rw [List.splitOn_eq_splitOnP, List.splitOnP_append_cons_of_forall_mem (hne key hkey) c (by simp),
    List.splitOnP_eq_singleton (hne val hval)]

theorem isWhitespace_of_isDigit (hc : c.isDigit = true) : Text.isWhitespace c = false := by
  have hrange : 48 ≤ c.toNat ∧ c.toNat ≤ 57 := by
    simp only [Char.isDigit, Bool.and_eq_true, decide_eq_true_eq, ge_iff_le, UInt32.le_iff_toNat_le] at hc
    exact hc
  simp only [Text.isWhitespace, Bool.or_eq_false_iff, Bool.and_eq_false_iff, decide_eq_false_iff_not]
  omega

theorem splitWhitespace_append (hkey : ∀ x ∈ key, Text.isWhitespace x = false) (hne : key ≠ [])
    (hc : Text.isWhitespace c = true) (rest : List Char)
    : splitWhitespace (key ++ c :: rest) = key :: splitWhitespace rest := by
  rw [splitWhitespace, List.splitOnP_append_cons_of_forall_mem hkey c hc, List.filter_cons_of_pos]
  . rfl
  . rw [Bool.not_eq_true', List.isEmpty_eq_false_iff]
    exact hne

theorem dropWhile_of_head? {s : List Char} (hs : ∀ c ∈ s.head?, Text.isWhitespace c = false)
    : s.dropWhile Text.isWhitespace = s := by
  cases s with
  | nil => rfl
  | cons c rest =>
    apply List.dropWhile_cons_of_neg
    simp [hs c rfl]

theorem trim_append (hfirst : ∀ c ∈ line.head?, Text.isWhitespace c = false)
    (hlast : ∀ c ∈ line.getLast?, Text.isWhitespace c = false) (hne : line ≠ [])
    (hc : Text.isWhitespace c = true)
    : Text.trimChars (line ++ [c]) = line := by
  have hhead : ∀ d ∈ (line ++ [c]).head?, Text.isWhitespace d = false := by
    rw [List.head?_append_of_ne_nil _ hne]
    exact hfirst
  have hback : ∀ d ∈ line.reverse.head?, Text.isWhitespace d = false := by
    rw [List.head?_reverse]
    exact hlast
  rw [Text.trimChars, dropWhile_of_head? hhead, List.reverse_append, List.reverse_singleton,
    List.singleton_append, List.dropWhile_cons_of_pos hc, dropWhile_of_head? hback, List.reverse_reverse]

structure Word (w : List Char) : Prop where
  ne_nil : w ≠ []
  isWhitespace : ∀ c ∈ w, Text.isWhitespace c = false

namespace Word

variable {w : List Char}

theorem notMem (hw : Word w) (hc : Text.isWhitespace c = true) : c ∉ w := by
  intro hmem
  rw [hw.isWhitespace c hmem] at hc
  simp at hc

theorem head? (hw : Word w) : ∀ c ∈ w.head?, Text.isWhitespace c = false :=
  fun c hc => hw.isWhitespace c (List.mem_of_mem_head? hc)

theorem getLast? (hw : Word w) : ∀ c ∈ w.getLast?, Text.isWhitespace c = false :=
  fun c hc => hw.isWhitespace c (List.mem_of_mem_getLast? hc)

theorem trim_eq (hw : Word w) : Text.trimChars w = w := by
  have hback : ∀ c ∈ w.reverse.head?, Text.isWhitespace c = false := by
    rw [List.head?_reverse]
    exact hw.getLast?
  rw [Text.trimChars, dropWhile_of_head? hw.head?, dropWhile_of_head? hback, List.reverse_reverse]

theorem read_eq (hw : Word w) : read w = [w] := by
  have hread : ∀ s : List Char, s ≠ [] → '\n' ∉ s → read s = [s] := by
    intro s
    induction s with
    | nil => simp
    | cons c s ih =>
      intro _ hmem
      rw [List.mem_cons, not_or] at hmem
      rw [read, if_neg (Ne.symm hmem.1)]
      cases s with
      | nil => rfl
      | cons d s => rw [ih (by simp) hmem.2]
  exact hread w hw.ne_nil (hw.notMem (by decide))

theorem strip_eq (hw : Word w) : strip w = w := by
  have hmem : '\n' ∉ w.reverse := by
    rw [List.mem_reverse]
    exact hw.notMem (by decide)
  unfold strip
  split
  . next hrev => simp [hrev] at hmem
  . next hrev => simp [hrev] at hmem
  . rfl

end Word

theorem lines_trim_write {words : List (List Char)} (hwords : ∀ w ∈ words, Word w) (hne : words ≠ [])
    : Lines.lines (Text.trimChars (write words)) = words := by
  obtain ⟨front, last, rfl⟩ := (List.eq_nil_or_concat words).resolve_left hne
  have hlast : Word last := hwords last (by simp)
  have hfront : ∀ w ∈ front, Word w := by
    intro w hw
    apply hwords
    simp [hw]
  have htrim : Text.trimChars (write (front ++ [last])) = write front ++ last := by
    have hwrite : write (front ++ [last]) = (write front ++ last) ++ ['\n'] := by
      simp [write]
    rw [hwrite]
    apply trim_append
    . cases front with
      | nil => exact hlast.head?
      | cons w front =>
        have hw := hfront w List.mem_cons_self
        have hhead : (write (w :: front) ++ last).head? = w.head? := by
          cases hcons : w with
          | nil => exact absurd hcons hw.ne_nil
          | cons c rest => rfl
        rw [hhead]
        exact hw.head?
    . rw [List.getLast?_append_of_ne_nil _ hlast.ne_nil]
      exact hlast.getLast?
    . simp [hlast.ne_nil]
    . decide
  have hstrip : ∀ w ∈ front, strip (w ++ ['\n']) = w :=
    fun w hw => strip_append ((hfront w hw).notMem (by decide))
  rw [List.concat_eq_append, htrim, Lines.lines, read_write, hlast.read_eq, List.map_append,
    List.map_map, List.map_singleton, hlast.strip_eq, List.append_cancel_right_eq]
  . have hid : front.map (strip ∘ (· ++ ['\n'])) = front.map id := List.map_congr_left hstrip
    rw [hid, List.map_id]
  . exact fun w hw => (hfront w hw).notMem (by decide)

end Lines

namespace Decimal

def display (n : Nat) : List Char :=
  Nat.toDigits 10 n

/--
The number that the digits stand for, which may have a plus sign.
-/
def parse (s : List Char) : Option Nat :=
  let digits :=
    match s with
    | '+' :: rest => rest
    | _ => s
  if !digits.isEmpty && digits.all Char.isDigit then
    some (Nat.ofDigitChars 10 digits 0)
  else
    none

def parseBelow (bound : Nat) (s : List Char) : Option Nat :=
  match parse s with
  | none => none
  | some n => if n < bound then some n else none

theorem isDigit_of_mem_display {n : Nat} {c : Char} (h : c ∈ display n) : c.isDigit = true :=
  Nat.isDigit_of_mem_toDigits (by decide) (by decide) h

theorem notMem_display {c : Char} (hc : c.isDigit = false) (n : Nat) : c ∉ display n := by
  intro h
  rw [isDigit_of_mem_display h] at hc
  simp at hc

theorem parse_display (n : Nat) : parse (display n) = some n := by
  have hdigits : (match display n with | '+' :: rest => rest | _ => display n) = display n := by
    split
    . next rest hplus =>
      have hmem : '+' ∈ display n := by
        rw [hplus]
        exact List.mem_cons_self
      exact absurd hmem (notMem_display (by decide) n)
    . rfl
  have hall : (display n).all Char.isDigit = true := by
    rw [List.all_eq_true]
    exact fun c hc => isDigit_of_mem_display hc
  have hne : (display n).isEmpty = false := by
    rw [List.isEmpty_eq_false_iff]
    exact Nat.toDigits_ne_nil
  have hvalue : Nat.ofDigitChars 10 (display n) 0 = n := Nat.ofDigitChars_ten_toDigits
  unfold parse
  rw [hdigits]
  simp only [hall, hne, hvalue, Bool.not_false, Bool.and_true, if_true]

theorem parseBelow_display {bound n : Nat} (h : n < bound) : parseBelow bound (display n) = some n := by
  unfold parseBelow
  rw [parse_display]
  exact if_pos h

end Decimal
