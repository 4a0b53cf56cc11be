import Mathlib.Data.Finmap

/-!
This module contains the hash maps and hash sets of the program. Their iteration order is not
specified, so whoever iterates over one is given an order from outside.
-/

abbrev HashMap (κ ν : Type) := Finmap (fun _ : κ => ν)

abbrev HashSet (κ : Type) := Finset κ

/--
One order in which the entries of a map can be visited.
-/
structure HashMap.Iteration {κ ν : Type} [DecidableEq κ] (m : HashMap κ ν) where
  entries : List (κ × ν)
  nodup_keys : (entries.map Prod.fst).Nodup
  mem_entries_iff : ∀ (k : κ) (v : ν), (k, v) ∈ entries ↔ m.lookup k = some v

/--
The element that an iteration over a set visits first, if there is one.
-/
structure HashSet.First {κ : Type} (s : HashSet κ) where
  get : Option κ
  mem_of_get : ∀ (k : κ), get = some k → k ∈ s
  get_eq_none : get = none → s = ∅

namespace HashMap

variable {κ α : Type} [DecidableEq κ]

theorem lookup_insert (m : HashMap κ α) (k k' : κ) (a : α)
    : (m.insert k a).lookup k' = if k' = k then some a else m.lookup k' := by
  split
  . next h =>
    subst h
    exact Finmap.lookup_insert m
  . next h => exact Finmap.lookup_insert_of_ne m h

theorem lookup_erase (m : HashMap κ α) (k k' : κ)
    : (m.erase k).lookup k' = if k' = k then none else m.lookup k' := by
  split
  . next h =>
    subst h
    exact Finmap.lookup_erase k' m
  . next h => exact Finmap.lookup_erase_ne h

theorem any_of_lookup {m : HashMap κ α} {f : κ → α → Bool} {k : κ} {a : α}
    (h : m.lookup k = some a) (hf : f k a = true)
    : m.any f = true := by
  have hfold : ∀ (entries : List ((_ : κ) × α)) (found : Bool),
      entries.foldl (fun found e => found || f e.1 e.2) found
        = (found || entries.any fun e => f e.1 e.2) := by
    intro entries
    induction entries with
    | nil => simp
    | cons e entries ih =>
      intro found
      rw [List.foldl_cons, ih, List.any_cons, Bool.or_assoc]
  rw [Finmap.lookup_eq_some_iff] at h
  induction m using Finmap.induction_on with
  | _ m =>
    refine (hfold m.entries false).trans ?_
    rw [Bool.false_or, List.any_eq_true]
    exact ⟨⟨k, a⟩, h, hf⟩

theorem nonempty_iteration (m : HashMap κ α) : Nonempty (Iteration m) := by
  have hkeys := m.nodupKeys
  rw [← Multiset.coe_toList m.entries, Multiset.coe_nodupKeys] at hkeys
  have hmem : ∀ k v, (k, v) ∈ m.entries.toList.map (fun e => (e.1, e.2)) ↔
      (⟨k, v⟩ : (_ : κ) × α) ∈ m.entries := by
    intro k v
    rw [List.mem_map]
    constructor
    . rintro ⟨⟨k', v'⟩, hmem, heq⟩
      cases heq
      exact Multiset.mem_toList.mp hmem
    . intro hmem
      exact ⟨⟨k, v⟩, Multiset.mem_toList.mpr hmem, rfl⟩
  refine ⟨m.entries.toList.map (fun e => (e.1, e.2)), ?_, ?_⟩
  . rw [List.map_map]
    exact hkeys
  . intro k v
    rw [hmem]
    exact (Finmap.lookup_eq_some_iff).symm

theorem nonempty_order : Nonempty ((m : HashMap κ α) → Iteration m) :=
  ⟨fun m => Classical.choice (nonempty_iteration m)⟩

section Fold

variable {β : Type} (key : β → κ) (value : β → α)

theorem lookup_foldl_insert_of_notMem {l : List β} {k : κ} (hk : k ∉ l.map key) (m : HashMap κ α)
    : (l.foldl (fun m b => m.insert (key b) (value b)) m).lookup k = m.lookup k := by
  induction l generalizing m with
  | nil => rfl
  | cons b l ih =>
    rw [List.map_cons, List.mem_cons, not_or] at hk
    rw [List.foldl_cons, ih hk.2, lookup_insert, if_neg hk.1]

theorem lookup_foldl_insert {l : List β} (hnodup : (l.map key).Nodup) {b : β} (hb : b ∈ l)
    (m : HashMap κ α)
    : (l.foldl (fun m b => m.insert (key b) (value b)) m).lookup (key b) = some (value b) := by
  induction l generalizing m with
  | nil => simp at hb
  | cons b' l ih =>
    rw [List.map_cons, List.nodup_cons] at hnodup
    rw [List.foldl_cons]
    rcases List.mem_cons.mp hb with rfl | hb
    . rw [lookup_foldl_insert_of_notMem key value hnodup.1, lookup_insert, if_pos rfl]
    . exact ih hnodup.2 hb _

end Fold

end HashMap
