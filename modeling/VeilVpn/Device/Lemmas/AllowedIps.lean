import VeilVpn.Device.Impl.AllowedIps

namespace Device

namespace IpNetwork

variable {a b : IpNetwork}

theorem family_of_lt (h : a.lt b = true) (hb : b.networkAddress.family = .v4)
    : a.networkAddress.family = .v4 := by
  cases ha : a.networkAddress with
  | v4 => rfl
  | v6 =>
    cases hb' : b.networkAddress with
    | v4 => simp [lt, ha, hb'] at h
    | v6 => simp [hb', IpAddr.family] at hb

theorem family_of_not_lt (h : ¬a.lt b = true) (ha : a.networkAddress.family = .v4)
    : b.networkAddress.family = .v4 := by
  cases hb : b.networkAddress with
  | v4 => rfl
  | v6 =>
    cases ha' : a.networkAddress with
    | v4 => simp [lt, ha', hb] at h
    | v6 => simp [ha', IpAddr.family] at ha

end IpNetwork

namespace AllowedIps

variable {D : Type} {table : AllowedIps D} {ip : IpAddr} {entry : IpNetwork × D}

theorem longestMatch_eq_none {entries : List (IpNetwork × D)}
    : longestMatch ip entries = none ↔ ∀ entry ∈ entries, entry.1.contains ip = false := by
  induction entries with
  | nil => simp [longestMatch]
  | cons first rest ih =>
    rw [longestMatch, List.forall_mem_cons, ← ih]
    cases longestMatch ip rest with
    | none => simp
    | some best =>
      simp only [reduceCtorEq, and_false, iff_false]
      split <;> simp

theorem longestMatch_eq_some {entries : List (IpNetwork × D)}
    (h : longestMatch ip entries = some entry)
    : entry ∈ entries
        ∧
      entry.1.contains ip = true
        ∧
      ∀ other ∈ entries, other.1.contains ip = true → other.1.netmask ≤ entry.1.netmask := by
  induction entries generalizing entry with
  | nil => simp [longestMatch] at h
  | cons first rest ih =>
    rw [longestMatch] at h
    split at h
    . next hnone =>
      rw [longestMatch_eq_none] at hnone
      obtain ⟨hcontains, h⟩ := Option.ite_none_right_eq_some.mp h
      cases h
      refine ⟨List.mem_cons_self, hcontains, ?_⟩
      intro other hother hmatch
      rcases List.mem_cons.mp hother with rfl | hother
      . exact Nat.le_refl _
      . simp [hnone other hother] at hmatch
    . next best hbest =>
      obtain ⟨hmem, hcontains, hlongest⟩ := ih hbest
      split at h
      . next hfirst =>
        cases h
        simp only [Bool.and_eq_true, decide_eq_true_eq] at hfirst
        refine ⟨List.mem_cons_self, hfirst.1, ?_⟩
        intro other hother hmatch
        rcases List.mem_cons.mp hother with rfl | hother
        . exact Nat.le_refl _
        . have hle := hlongest other hother hmatch
          omega
      . next hfirst =>
        cases h
        refine ⟨List.mem_cons_of_mem _ hmem, hcontains, ?_⟩
        intro other hother hmatch
        rcases List.mem_cons.mp hother with rfl | hother
        . simp only [hmatch, Bool.true_and, decide_eq_true_eq] at hfirst
          omega
        . exact hlongest other hother hmatch

theorem find_eq_none : table.find ip = none ↔ ∀ entry ∈ table.ips, entry.1.contains ip = false := by
  rw [find, Option.map_eq_none_iff, longestMatch_eq_none]

theorem exists_of_find {data : D} (h : table.find ip = some data)
    : ∃ net, (net, data) ∈ table.ips ∧ net.contains ip = true := by
  obtain ⟨entry, hentry, rfl⟩ := Option.map_eq_some_iff.mp h
  obtain ⟨hmem, hcontains, _⟩ := longestMatch_eq_some hentry
  exact ⟨entry.1, hmem, hcontains⟩

theorem isSome_find : (table.find ip).isSome ↔ ∃ entry ∈ table.ips, entry.1.contains ip = true := by
  rw [Option.isSome_iff_ne_none, ne_eq, find_eq_none]
  simp

variable {allowed : AllowedIP} {data : D}

theorem mem_insert (h : entry ∈ (table.insert allowed data).ips)
    : entry = (.newTruncate allowed, data) ∨ entry ∈ table.ips := by
  have hgo : ∀ entries : List (IpNetwork × D),
      entry ∈ insert.go data (.newTruncate allowed) entries →
        entry = (.newTruncate allowed, data) ∨ entry ∈ entries := by
    intro entries
    induction entries with
    | nil => simp [insert.go]
    | cons first rest ih =>
      intro hmem
      rw [insert.go] at hmem
      split at hmem
      . rcases List.mem_cons.mp hmem with hmem | hmem
        . exact .inl hmem
        . exact .inr (List.mem_cons_of_mem _ hmem)
      . split at hmem
        . exact List.mem_cons.mp hmem
        . rcases List.mem_cons.mp hmem with rfl | hmem
          . exact .inr List.mem_cons_self
          . exact (ih hmem).imp_right (List.mem_cons_of_mem _)
  exact hgo table.ips h

theorem mem_insert_self (table : AllowedIps D) (allowed : AllowedIP) (data : D)
    : (.newTruncate allowed, data) ∈ (table.insert allowed data).ips := by
  have hgo : ∀ entries : List (IpNetwork × D),
      (.newTruncate allowed, data) ∈ insert.go data (.newTruncate allowed) entries := by
    intro entries
    induction entries with
    | nil => simp [insert.go]
    | cons first rest ih =>
      rw [insert.go]
      split
      . exact List.mem_cons_self
      . split
        . exact List.mem_cons_self
        . exact List.mem_cons_of_mem _ ih
  exact hgo table.ips

theorem mem_insert_of_mem (h : entry ∈ table.ips) (hne : entry.1 ≠ .newTruncate allowed)
    : entry ∈ (table.insert allowed data).ips := by
  have hgo : ∀ entries : List (IpNetwork × D), entry ∈ entries →
      entry ∈ insert.go data (.newTruncate allowed) entries := by
    intro entries
    induction entries with
    | nil => simp
    | cons first rest ih =>
      intro hmem
      rw [insert.go]
      split
      . next hfirst =>
        rcases List.mem_cons.mp hmem with rfl | hmem
        . exact absurd hfirst hne
        . exact List.mem_cons_of_mem _ hmem
      . split
        . exact List.mem_cons_of_mem _ hmem
        . rcases List.mem_cons.mp hmem with rfl | hmem
          . exact List.mem_cons_self
          . exact List.mem_cons_of_mem _ (ih hmem)
  exact hgo table.ips h

section Fold

variable {ips : List AllowedIP}

theorem mem_foldl_insert
    (h : entry ∈ (ips.foldl (fun table ip => table.insert ip data) table).ips)
    : (∃ allowed ∈ ips, entry = (.newTruncate allowed, data)) ∨ entry ∈ table.ips := by
  induction ips generalizing table with
  | nil => exact .inr h
  | cons allowed ips ih =>
    rcases ih h with ⟨other, hother, heq⟩ | hmem
    . exact .inl ⟨other, List.mem_cons_of_mem _ hother, heq⟩
    . rcases mem_insert hmem with heq | hmem
      . exact .inl ⟨allowed, List.mem_cons_self, heq⟩
      . exact .inr hmem

theorem mem_foldl_insert_of_mem (h : entry ∈ table.ips)
    (hne : ∀ allowed ∈ ips, entry.1 = .newTruncate allowed → entry.2 = data)
    : entry ∈ (ips.foldl (fun table ip => table.insert ip data) table).ips := by
  induction ips generalizing table with
  | nil => exact h
  | cons allowed ips ih =>
    apply ih
    . by_cases heq : entry.1 = .newTruncate allowed
      . have hdata := hne allowed List.mem_cons_self heq
        rw [← Prod.eta entry, heq, hdata]
        exact mem_insert_self table allowed data
      . exact mem_insert_of_mem h heq
    . intro other hother
      exact hne other (List.mem_cons_of_mem _ hother)

theorem mem_foldl_insert_self (table : AllowedIps D) (h : allowed ∈ ips)
    : (.newTruncate allowed, data) ∈ (ips.foldl (fun table ip => table.insert ip data) table).ips := by
  induction ips generalizing table with
  | nil => simp at h
  | cons first ips ih =>
    rw [List.foldl_cons]
    rcases List.mem_cons.mp h with rfl | h
    . exact mem_foldl_insert_of_mem (mem_insert_self table allowed data) fun _ _ _ => rfl
    . exact ih (table.insert first data) h

theorem mem_ofList
    : entry ∈ (ofList ips data).ips ↔ ∃ allowed ∈ ips, entry = (.newTruncate allowed, data) := by
  constructor
  . intro h
    exact (mem_foldl_insert h).resolve_right (by simp [new])
  . rintro ⟨allowed, h, rfl⟩
    exact mem_foldl_insert_self new h

end Fold

def V4First (table : AllowedIps D) : Prop :=
  table.ips.Pairwise fun a b =>
    b.1.networkAddress.family = .v4 → a.1.networkAddress.family = .v4

theorem V4First.insert (h : table.V4First) (allowed : AllowedIP) (data : D)
    : (table.insert allowed data).V4First := by
  obtain ⟨entries⟩ := table
  unfold V4First at *
  change (insert.go data (.newTruncate allowed) entries).Pairwise _
  dsimp only at h
  induction entries with
  | nil => exact List.pairwise_singleton _ _
  | cons first rest ih =>
    obtain ⟨hfirst, hrest⟩ := List.pairwise_cons.mp h
    rw [insert.go]
    split
    . next heq =>
      rw [← heq]
      exact List.pairwise_cons.mpr ⟨hfirst, hrest⟩
    . split
      . next hlt =>
        refine List.pairwise_cons.mpr ⟨?_, h⟩
        intro entry hentry hv4
        apply IpNetwork.family_of_lt hlt
        rcases List.mem_cons.mp hentry with rfl | hentry
        . exact hv4
        . exact hfirst entry hentry hv4
      . next hlt =>
        refine List.pairwise_cons.mpr ⟨?_, ih hrest⟩
        intro entry hentry hv4
        rcases @mem_insert _ ⟨rest⟩ _ _ _ hentry with rfl | hentry
        . exact IpNetwork.family_of_not_lt hlt hv4
        . exact hfirst entry hentry hv4

theorem v4First_ofList (ips : List AllowedIP) (data : D) : (ofList ips data).V4First := by
  have hfold : ∀ table : AllowedIps D, table.V4First →
      (ips.foldl (fun table ip => table.insert ip data) table).V4First := by
    induction ips with
    | nil =>
      intro table h
      exact h
    | cons allowed ips ih =>
      intro table h
      exact ih _ (h.insert allowed data)
  exact hfold new .nil

theorem V4First.head (h : table.V4First) (hmem : entry ∈ table.ips)
    (hv4 : entry.1.networkAddress.family = .v4)
    : ∃ data ip mask rest, table.iter = (data, .v4 ip, mask) :: rest := by
  obtain ⟨entries⟩ := table
  cases entries with
  | nil => simp at hmem
  | cons first rest =>
    have hfirst : first.1.networkAddress.family = .v4 := by
      rcases List.mem_cons.mp hmem with rfl | hmem
      . exact hv4
      . exact (List.pairwise_cons.mp h).1 entry hmem hv4
    simp only [iter, List.map_cons]
    cases hip : first.1.networkAddress with
    | v4 ip => exact ⟨_, ip, _, _, rfl⟩
    | v6 ip => simp [hip, IpAddr.family] at hfirst

theorem mem_remove {predicate : D → Bool}
    : entry ∈ (table.remove predicate).ips ↔ entry ∈ table.ips ∧ predicate entry.2 = false := by
  simp [remove]

end AllowedIps

end Device
