import Mathlib.Data.List.Basic

/-!
This module contains arenas: growing stores of objects that are referred to by number and are never
freed, so that a reference stays valid.
-/

structure Arena (α : Type) where
  cells : List α

namespace Arena

variable {α : Type}

def empty : Arena α where
  cells := []

def size (a : Arena α) : Nat :=
  a.cells.length

def get (a : Arena α) (i : Nat) : Option α :=
  a.cells[i]?

def set (a : Arena α) (i : Nat) (x : α) : Arena α where
  cells := a.cells.set i x

def alloc (a : Arena α) (x : α) : Arena α where
  cells := a.cells ++ [x]

def map (a : Arena α) (f : Nat → α → α) : Arena α where
  cells := a.cells.mapIdx f

theorem lt_size_of_get {a : Arena α} {i : Nat} {x : α} (h : a.get i = some x) : i < a.size :=
  (List.getElem?_eq_some_iff.mp h).1

theorem get_set_of_get {a : Arena α} {i : Nat} {x : α} (h : a.get i = some x) (y : α) (j : Nat)
    : (a.set i y).get j = if j = i then some y else a.get j := by
  have hi : i < a.cells.length := lt_size_of_get h
  simp only [get, set, List.getElem?_set]
  by_cases hij : i = j
  . subst hij
    simp [hi]
  . rw [if_neg hij, if_neg (fun hji => hij hji.symm)]

theorem get_alloc (a : Arena α) (x : α) (j : Nat)
    : (a.alloc x).get j = if j = a.size then some x else a.get j := by
  by_cases hj : j = a.size
  . rw [if_pos hj]
    simp [get, alloc, hj, size]
  . rw [if_neg hj]
    unfold size at hj
    simp only [get, alloc]
    by_cases hlt : j < a.cells.length
    . rw [List.getElem?_append_left hlt]
    . rw [List.getElem?_eq_none (by simp; omega), List.getElem?_eq_none (by omega)]

theorem get_size (a : Arena α) : a.get a.size = none := by
  simp [get, size]

theorem get_map (a : Arena α) (f : Nat → α → α) (j : Nat)
    : (a.map f).get j = (a.get j).map (f j) := by
  simp [get, map]

theorem get_empty (j : Nat) : (empty : Arena α).get j = none := by
  simp [get, empty]

end Arena
