import VeilVpn.HashMap

/-!
This module contains the part of an operating system that hands out file descriptors and tells a program
which of the files behind them are ready.
-/

abbrev Fd := Nat

namespace Epoll

/--
An entry of the interest list. `data` is what the program gets back when the file is ready.
-/
structure Interest (π : Type) where
  data : π
  /-- Whether the entry is disarmed when it is delivered -/
  oneshot : Bool
  armed : Bool

end Epoll

structure Epoll (π : Type) where
  /-- The open file that each descriptor refers to -/
  files : HashMap Fd Nat
  nextFile : Nat
  /-- The files that were shut down -/
  hungUp : Nat → Bool
  /-- The interest list, an entry belongs to a descriptor and to the file it referred to -/
  interest : Fd → Nat → Option (Epoll.Interest π)

namespace Epoll

variable {π : Type}

def new : Epoll π where
  files := ∅
  nextFile := 0
  hungUp := fun _ => false
  interest := fun _ _ => none

def file (s : Epoll π) (fd : Fd) : Option Nat :=
  s.files.lookup fd

/--
Open a new file. Any descriptor that is not used can be given to it.
-/
def openAt (s : Epoll π) (fd : Fd) : Option (Epoll π) :=
  match s.file fd with
  | some _ => none
  | none => some { s with files := s.files.insert fd s.nextFile, nextFile := s.nextFile + 1 }

def dup (s : Epoll π) (fd fd' : Fd) : Option (Epoll π) :=
  match s.file fd, s.file fd' with
  | some file, none => some { s with files := s.files.insert fd' file }
  | _, _ => none

/--
Close a descriptor. Entries of the interest list only go away with the last descriptor of their file.
-/
def close (s : Epoll π) (fd : Fd) : Epoll π :=
  match s.file fd with
  | none => s
  | some file =>
    let files := s.files.erase fd
    if files.any fun _ file' => file' == file then
      { s with files }
    else
      { s with files, interest := fun fd' file' => if file' = file then none else s.interest fd' file' }

def shutdown (s : Epoll π) (fd : Fd) : Epoll π :=
  match s.file fd with
  | none => s
  | some file => { s with hungUp := Function.update s.hungUp file true }

def setInterest (s : Epoll π) (fd : Fd) (file : Nat) (entry : Option (Interest π)) : Epoll π :=
  { s with interest := fun fd' file' =>
      if fd' = fd ∧ file' = file then entry else s.interest fd' file' }

def add (s : Epoll π) (fd : Fd) (data : π) (oneshot : Bool) : Option (Epoll π) :=
  match s.file fd with
  | none => none
  | some file =>
    match s.interest fd file with
    | some _ => none
    | none => some (s.setInterest fd file (some { data, oneshot, armed := true }))

def modify (s : Epoll π) (fd : Fd) (data : π) (oneshot : Bool) : Epoll π :=
  match s.file fd with
  | none => s
  | some file =>
    match s.interest fd file with
    | none => s
    | some _ => s.setInterest fd file (some { data, oneshot, armed := true })

def delete (s : Epoll π) (fd : Fd) : Epoll π :=
  match s.file fd with
  | none => s
  | some file => s.setInterest fd file none

/--
An entry that was delivered is disarmed if it asks for this.
-/
def disarm (s : Epoll π) (fd : Fd) (file : Nat) (entry : Interest π) : Epoll π :=
  if entry.oneshot then s.setInterest fd file (some { entry with armed := false }) else s

def wait (s : Epoll π) (fd : Fd) (file : Nat) : Option (Epoll π × π × Bool) :=
  match s.interest fd file with
  | none => none
  | some entry =>
    if entry.armed then
      some (s.disarm fd file entry, entry.data, s.hungUp file)
    else
      none

/--
The descriptor has an entry with this data, for the file that it refers to.
-/
def Lists (s : Epoll π) (fd : Fd) (data : π) : Prop :=
  ∃ f entry, s.file fd = some f ∧ s.interest fd f = some entry ∧ entry.data = data

section Lemmas

variable {s s' : Epoll π} {fd fd' k : Fd} {f f' : Nat} {entry : Interest π}

theorem file_of_openAt (h : s.openAt fd = some s')
    : s.file fd = none
        ∧
      s' = { s with files := s.files.insert fd s.nextFile, nextFile := s.nextFile + 1 } := by
  unfold openAt at h
  split at h
  . cases h
  . next hnone => exact ⟨hnone, (Option.some.inj h).symm⟩

theorem file_of_dup (h : s.dup fd fd' = some s')
    : ∃ f, s.file fd = some f ∧ s.file fd' = none ∧ s' = { s with files := s.files.insert fd' f } := by
  unfold dup at h
  split at h
  . next f hf hnone => exact ⟨f, hf, hnone, (Option.some.inj h).symm⟩
  . cases h

theorem interest_of_add {data : π} {oneshot : Bool} (h : s.add fd data oneshot = some s')
    : ∃ f, s.file fd = some f
        ∧
      s.interest fd f = none
        ∧
      s' = s.setInterest fd f (some { data, oneshot, armed := true }) := by
  unfold add at h
  split at h
  . cases h
  . next f hf =>
    split at h
    . cases h
    . next hnone => exact ⟨f, hf, hnone, (Option.some.inj h).symm⟩

theorem interest_of_wait {data : π} {hup : Bool} (h : s.wait fd f = some (s', data, hup))
    : ∃ entry, s.interest fd f = some entry
        ∧
      entry.armed = true
        ∧
      s' = s.disarm fd f entry
        ∧
      data = entry.data
        ∧
      hup = s.hungUp f := by
  unfold wait at h
  split at h
  . cases h
  . next entry hentry =>
    split at h
    . next harmed =>
      cases h
      exact ⟨entry, hentry, harmed, rfl, rfl, rfl⟩
    . cases h

@[simp]
theorem file_setInterest (entry : Option (Interest π))
    : (s.setInterest fd f entry).file k = s.file k := rfl

@[simp]
theorem interest_setInterest (entry : Option (Interest π))
    : (s.setInterest fd f entry).interest k f'
        =
      if k = fd ∧ f' = f then entry else s.interest k f' := rfl

@[simp]
theorem file_disarm : (s.disarm fd f entry).file k = s.file k := by
  unfold disarm
  split <;> rfl

@[simp]
theorem hungUp_disarm : (s.disarm fd f entry).hungUp = s.hungUp := by
  unfold disarm
  split <;> rfl

@[simp]
theorem nextFile_disarm : (s.disarm fd f entry).nextFile = s.nextFile := by
  unfold disarm
  split <;> rfl

theorem interest_disarm_of_ne (hk : k ≠ fd)
    : (s.disarm fd f entry).interest k f' = s.interest k f' := by
  unfold disarm
  split
  . exact if_neg fun hkf => hk hkf.1
  . rfl

theorem interest_disarm_self (hentry : s.interest fd f = some entry)
    : ∃ entry', (s.disarm fd f entry).interest fd f = some entry'
        ∧
      entry'.data = entry.data
        ∧
      entry'.oneshot = entry.oneshot := by
  unfold disarm
  split
  . exact ⟨_, if_pos ⟨rfl, rfl⟩, rfl, rfl⟩
  . exact ⟨entry, hentry, rfl, rfl⟩

theorem exists_interest_of_disarm {entry' : Interest π} (hentry : s.interest fd f = some entry)
    (h : (s.disarm fd f entry).interest k f' = some entry')
    : ∃ old, s.interest k f' = some old ∧ old.data = entry'.data := by
  unfold disarm at h
  split at h
  . rw [interest_setInterest] at h
    split at h
    . next hkf =>
      obtain ⟨rfl, rfl⟩ := hkf
      cases h
      exact ⟨entry, hentry, rfl⟩
    . exact ⟨entry', h, rfl⟩
  . exact ⟨entry', h, rfl⟩

theorem interest_of_disarm {entry' : Interest π}
    (h : (s.disarm fd f entry).interest k f' = some entry') (harmed : entry'.armed = true)
    : s.interest k f' = some entry' ∧ (entry.oneshot = true → ¬(k = fd ∧ f' = f)) := by
  unfold disarm at h
  split at h
  . rw [interest_setInterest] at h
    split at h
    . cases h
      cases harmed
    . next hkf => exact ⟨h, fun _ => hkf⟩
  . next honeshot => exact ⟨h, fun h => absurd h honeshot⟩

@[simp]
theorem file_close : (s.close fd).file k = if k = fd then none else s.file k := by
  unfold close
  split
  . next hnone =>
    split
    . next hk => rw [hk, hnone]
    . rfl
  . dsimp only
    split <;> exact HashMap.lookup_erase s.files fd k

theorem interest_of_close (h : (s.close fd).interest k f = some entry)
    : s.interest k f = some entry := by
  unfold close at h
  split at h
  . exact h
  . dsimp only at h
    split at h
    . exact h
    . dsimp only at h
      split at h
      . cases h
      . exact h

/--
The entries of a file stay as long as another descriptor refers to it.
-/
theorem interest_close (hfd : fd' ≠ fd) (hf : s.file fd' = some f)
    : (s.close fd).interest k f = s.interest k f := by
  unfold close
  split
  . rfl
  . next file hfile =>
    dsimp only
    by_cases hsame : f = file
    . subst hsame
      have hlookup : (s.files.erase fd).lookup fd' = some f := by
        rw [HashMap.lookup_erase, if_neg hfd]
        exact hf
      rw [if_pos (HashMap.any_of_lookup hlookup (by simp))]
    . split
      . rfl
      . exact if_neg hsame

@[simp]
theorem hungUp_close : (s.close fd).hungUp = s.hungUp := by
  unfold close
  split
  . rfl
  . dsimp only
    split <;> rfl

@[simp]
theorem nextFile_close : (s.close fd).nextFile = s.nextFile := by
  unfold close
  split
  . rfl
  . dsimp only
    split <;> rfl

theorem delete_cases (s : Epoll π) (fd : Fd)
    : s.delete fd = s ∨ ∃ f, s.delete fd = s.setInterest fd f none := by
  unfold delete
  split
  . exact .inl rfl
  . next f _ => exact .inr ⟨f, rfl⟩

theorem modify_of_interest {data : π} {oneshot : Bool} (hf : s.file fd = some f)
    (hentry : s.interest fd f = some entry)
    : s.modify fd data oneshot = s.setInterest fd f (some { data, oneshot, armed := true }) := by
  unfold modify
  rw [hf]
  dsimp only
  rw [hentry]

namespace Lists

variable {data : π}

theorem insert (h : s.Lists k data) (hnone : s.file fd = none) (f n : Nat)
    : ({ s with files := s.files.insert fd f, nextFile := n } : Epoll π).Lists k data := by
  obtain ⟨f', entry, hfile, hentry⟩ := h
  refine ⟨f', entry, ?_, hentry⟩
  refine (HashMap.lookup_insert s.files fd k f).trans ((if_neg ?_).trans hfile)
  rintro rfl
  rw [hnone] at hfile
  cases hfile

theorem close (h : s.Lists k data) (hk : k ≠ fd) : (s.close fd).Lists k data := by
  obtain ⟨f, entry, hfile, hentry⟩ := h
  refine ⟨f, entry, ?_, ?_⟩
  . rw [file_close, if_neg hk, hfile]
  . rw [interest_close hk hfile]
    exact hentry

theorem setInterest (h : s.Lists k data) {entry : Option (Interest π)}
    (hentry : k = fd → entry.map Interest.data = some data)
    : (s.setInterest fd f entry).Lists k data := by
  obtain ⟨f', entry', hfile, hentry', hdata⟩ := h
  by_cases hkf : k = fd ∧ f' = f
  . obtain ⟨entry'', rfl, hdata'⟩ := Option.map_eq_some_iff.mp (hentry hkf.1)
    exact ⟨f', entry'', hfile, if_pos hkf, hdata'⟩
  . exact ⟨f', entry', hfile, (if_neg hkf).trans hentry', hdata⟩

theorem delete (h : s.Lists k data) (hk : k ≠ fd) : (s.delete fd).Lists k data := by
  rcases s.delete_cases fd with heq | ⟨f, heq⟩
  . rw [heq]
    exact h
  . rw [heq]
    exact h.setInterest fun heq => absurd heq hk

theorem disarm (h : s.Lists k data) (hentry : s.interest fd f = some entry)
    (hfile : s.file fd = some f)
    : (s.disarm fd f entry).Lists k data := by
  unfold Epoll.disarm
  split
  . apply h.setInterest
    rintro rfl
    obtain ⟨f', entry', hfile', hentry', hdata⟩ := h
    cases hfile.symm.trans hfile'
    cases hentry.symm.trans hentry'
    exact congrArg some hdata
  . exact h

end Lists

theorem shutdown_of_file (hf : s.file fd = some f)
    : s.shutdown fd = { s with hungUp := Function.update s.hungUp f true } := by
  unfold shutdown
  rw [hf]

end Lemmas

end Epoll
