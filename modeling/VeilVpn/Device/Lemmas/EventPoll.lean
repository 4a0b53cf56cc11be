import VeilVpn.Device.Impl.EventPoll

namespace Device

namespace EventPoll

variable {ι : Type}

def Slot.hangsUp : Slot ι → Option Bool
  | .conn _ => some true
  | .udp4 | .udp6 => some false
  | .dropping _ => none

/--
The event is waited for or being handled, or it never will be.
-/
inductive Served (guards : ι → Option EventGuard) (p : EventPtr) (e : Event)
    : Option (Epoll.Interest EventPtr) → Prop where
  | listed {entry : Epoll.Interest EventPtr} (hdata : entry.data = p)
    (honeshot : entry.oneshot = e.handler.oneshot)
    (hserved : entry.armed = true ∨ ∃ i g, guards i = some g ∧ g.event = p)
    : Served guards p e (some entry)
  | unlisted {interest : Option (Epoll.Interest EventPtr)}
    (hentry : ∀ entry ∈ interest, entry.armed = false ∧ entry.data ≠ p)
    (hguards : ∀ i g, guards i = some g → g.event ≠ p)
    : Served guards p e interest

structure Registered (q : EventPoll ι) (hangable : Nat → Bool) (fd : Fd) (p : EventPtr) : Prop where
  exists_event : ∃ e f,
    q.heap p = some e
      ∧
    e.fd = fd
      ∧
    q.epoll.file fd = some f
      ∧
    hangable f = e.handler.hangsUp
      ∧
    Served q.guards p e (q.epoll.interest fd f)

/--
The pointers that can still be used lead to events, and the descriptors of events are not those that the
device keeps for itself. `hangable` are the files that can be shut down.
-/
structure Inv (q : EventPoll ι) (hangable : Nat → Bool) : Prop where
  file_lt : ∀ fd f, q.epoll.file fd = some f → f < q.epoll.nextFile
  hungUp : ∀ f, q.epoll.hungUp f = true → f < q.epoll.nextFile ∧ hangable f = true
  ptr_lt : ∀ p e, q.heap p = some e → p < q.nextPtr
  data_lt : ∀ fd f entry, q.epoll.interest fd f = some entry → entry.data < q.nextPtr
  registered : ∀ fd p, q.eventAt fd = some p → Registered q hangable fd p
  armed : ∀ fd f entry, q.epoll.interest fd f = some entry → entry.armed = true →
    q.epoll.file fd = some f ∧ q.eventAt fd = some entry.data
  guard : ∀ i g, q.guards i = some g → ∃ e, q.heap g.event = some e
    ∧ q.eventAt e.fd = some g.event
    ∧ (g.eof = true → e.handler.hangsUp = true)
    ∧ (e.handler.oneshot = true →
      ∀ f entry, q.epoll.interest e.fd f = some entry → entry.armed = false)
  exclusive : ∀ i j g g' e, q.guards i = some g → q.guards j = some g' → g.event = g'.event →
    q.heap g.event = some e → e.handler.oneshot = true → i = j
  slot : ∀ s fd, q.slots s = some fd →
    q.eventAt fd = none ∧ ∃ f, q.epoll.file fd = some f ∧ ∀ b ∈ s.hangsUp, hangable f = b
  slot_inj : ∀ s s' fd, q.slots s = some fd → q.slots s' = some fd → s = s'
  deleting : ∀ i fd, q.deleting = some (i, fd) → q.eventAt fd = none

/--
The events of files that cannot be shut down stay where they are, in the table and on the interest list.
-/
def Keeps (q q' : EventPoll ι) : Prop :=
  ∀ fd p e, q.eventAt fd = some p → q.heap p = some e → e.handler.hangsUp = false →
    q'.eventAt fd = some p ∧ q'.heap p = some e ∧ (q.epoll.Lists fd p → q'.epoll.Lists fd p)

theorem Keeps.of_eq {q q' : EventPoll ι} (hevents : q'.events = q.events) (hheap : q'.heap = q.heap)
    (hlists : ∀ fd p, q.eventAt fd = some p → q.epoll.Lists fd p → q'.epoll.Lists fd p)
    : Keeps q q' := by
  intro fd p e hp he _
  exact ⟨by rw [eventAt, hevents]; exact hp, by rw [hheap, he], hlists fd p hp⟩

theorem Keeps.trans {q q' q'' : EventPoll ι} (h : Keeps q q') (h' : Keeps q' q'') : Keeps q q'' := by
  intro fd p e hp he hhangs
  obtain ⟨hp', he', hlists⟩ := h fd p e hp he hhangs
  obtain ⟨hp'', he'', hlists'⟩ := h' fd p e hp' he' hhangs
  exact ⟨hp'', he'', fun hlisted => hlists' (hlists hlisted)⟩

theorem inv_new : Inv (new : EventPoll ι) fun _ => false where
  file_lt := by simp [new, Epoll.new, Epoll.file]
  hungUp := by simp [new, Epoll.new]
  ptr_lt := by simp [new]
  data_lt := by simp [new, Epoll.new]
  registered := by simp [new, eventAt]
  armed := by simp [new, Epoll.new]
  guard := by simp [new]
  exclusive := by simp [new]
  slot := by simp [new]
  slot_inj := by simp [new]
  deleting := by simp [new]

theorem of_update_none {α β : Type} [DecidableEq α] {f : α → Option β} {a a' : α} {b : β}
    (h : Function.update f a none a' = some b)
    : a' ≠ a ∧ f a' = some b := by
  rw [Function.update_apply] at h
  split at h
  . cases h
  . next hne => exact ⟨hne, h⟩

section Table

variable {q : EventPoll ι} {fd : Fd} {p : EventPtr}

theorem join_getElem?_set {events : List (Option EventPtr)} {i : Nat} (v : Option EventPtr)
    (h : i < events.length) (k : Nat)
    : (events.set i v)[k]?.join = if k = i then v else events[k]?.join := by
  rw [List.getElem?_set]
  split
  . next hk =>
    subst hk
    simp
  . next hk => rw [if_neg (fun h => hk h.symm)]

theorem join_getElem?_resized (events : List (Option EventPtr)) (n k : Nat)
    : (events ++ List.replicate n none)[k]?.join = events[k]?.join := by
  by_cases hk : k < events.length
  . rw [List.getElem?_append_left hk]
  . rw [List.getElem?_append_right (by omega), List.getElem?_eq_none (l := events) (by omega),
      List.getElem?_replicate]
    split <;> rfl

theorem lt_length_resized (events : List (Option EventPtr)) (i : Nat)
    : i < (events ++ List.replicate (i + 1 - events.length) none).length := by
  rw [List.length_append, List.length_replicate]
  omega

theorem lt_length_of_eventAt (h : q.eventAt fd = some p) : fd < q.events.length := by
  by_contra hge
  unfold eventAt at h
  rw [List.getElem?_eq_none (Nat.le_of_not_lt hge)] at h
  cases h

theorem ne_of_eventAt {k : Fd} (hnone : q.eventAt fd = none) (h : q.eventAt k = some p) : k ≠ fd := by
  rintro rfl
  cases hnone.symm.trans h

theorem takeEvent_of_some {e : Event} (h : q.eventAt fd = some p) (he : q.heap p = some e)
    (hfd : e.fd = fd)
    : q.takeEvent fd
        =
      { q with
        events := q.events.set fd none
        heap := Function.update q.heap p none
        epoll := if e.handler.ownsFd then q.epoll.close fd else q.epoll
      } := by
  unfold takeEvent dropEvent
  rw [h]
  dsimp only
  rw [he]
  dsimp only
  rw [hfd]

theorem deleting_of_clearEventByFd {q' : EventPoll ι} {i : ι} (h : q.clearEventByFd i fd = some q')
    : q.deleting = none := by
  unfold clearEventByFd at h
  split at h
  . cases h
  . next hlocked =>
    rw [Bool.or_eq_true, not_or, Bool.not_eq_true, Option.isSome_eq_false_iff,
      Option.isNone_iff_eq_none] at hlocked
    exact hlocked.1

theorem clearEventByFd_of_some {e : Event} {i : ι} (hfree : q.deleting = none)
    (h : q.eventAt fd = some p) (he : q.heap p = some e) (hfd : e.fd = fd)
    : q.clearEventByFd i fd
        =
      some { q with
        events := q.events.set fd none
        heap := Function.update q.heap p none
        epoll := if e.handler.ownsFd then q.epoll.close fd else q.epoll
        deleting := some (i, fd)
      } := by
  have hlt := lt_length_of_eventAt h
  simp [clearEventByFd, hfree, hlt, h, takeEvent_of_some h he hfd]

theorem clearEventByFd_of_none {q' : EventPoll ι} {i : ι} (hnone : q.eventAt fd = none)
    (h : q.clearEventByFd i fd = some q')
    : q' = q := by
  unfold clearEventByFd at h
  rw [hnone] at h
  split at h
  . cases h
  . exact (Option.some.inj h).symm

theorem of_registerEvent {q' : EventPoll ι} {handler : Handler} {added : Bool}
    (hnone : q.eventAt fd = none) (h : q.registerEvent fd handler added = some q')
    : q.deleting = none
        ∧
      ∃ events epoll,
        (∀ k, events[k]?.join = if k = fd then some q.nextPtr else q.eventAt k)
          ∧
        q' = { q with
          epoll
          events
          heap := Function.update q.heap q.nextPtr (some { fd, handler })
          nextPtr := q.nextPtr + 1
        }
          ∧
        if added then
          ∃ f, q.epoll.file fd = some f ∧ epoll = q.epoll.setInterest fd f
            (some { data := q.nextPtr, oneshot := handler.oneshot, armed := true })
        else
          epoll = q.epoll := by
  have hresized : ({ q with
      events := q.events ++ List.replicate (fd + 1 - q.events.length) none
      heap := Function.update q.heap q.nextPtr (some { fd, handler })
      nextPtr := q.nextPtr + 1
    } : EventPoll ι).eventAt fd = none := by
    unfold eventAt at hnone ⊢
    rw [join_getElem?_resized, hnone]
  have hevents : ∀ k,
      ((q.events ++ List.replicate (fd + 1 - q.events.length) none).set fd (some q.nextPtr))[k]?.join
        = if k = fd then some q.nextPtr else q.eventAt k := by
    intro k
    rw [join_getElem?_set _ (lt_length_resized _ _), join_getElem?_resized]
    rfl
  unfold registerEvent insertAt at h
  dsimp only at h
  rw [hresized] at h
  split at h
  . cases h
  . next hfree =>
    refine ⟨by simpa using hfree, ?_⟩
    split at h
    . next hadded =>
      obtain ⟨epoll, hadd, rfl⟩ := Option.map_eq_some_iff.mp h
      obtain ⟨f, hfile, _, rfl⟩ := Epoll.interest_of_add hadd
      refine ⟨_, _, hevents, rfl, ?_⟩
      rw [if_pos hadded]
      exact ⟨f, hfile, rfl⟩
    . next hadded =>
      cases h
      refine ⟨_, _, hevents, rfl, ?_⟩
      rw [if_neg hadded]
      rfl

end Table

namespace Served

variable [DecidableEq ι] {guards : ι → Option EventGuard} {p : EventPtr} {e : Event}
  {interest : Option (Epoll.Interest EventPtr)} {i : ι} {g : EventGuard}

theorem update (h : Served guards p e interest) (hi : guards i = none) (hg : g.event ≠ p)
    : Served (Function.update guards i (some g)) p e interest := by
  cases h with
  | listed hdata honeshot hserved =>
    refine .listed hdata honeshot (hserved.imp_right ?_)
    rintro ⟨j, g', hj, hgp⟩
    refine ⟨j, g', (Function.update_of_ne ?_ ..).trans hj, hgp⟩
    rintro rfl
    rw [hi] at hj
    cases hj
  | unlisted hentry hguards =>
    refine .unlisted hentry ?_
    intro j g' hj
    rw [Function.update_apply] at hj
    split at hj
    . cases hj
      exact hg
    . exact hguards j g' hj

theorem clear (h : Served guards p e interest) (hi : guards i = some g) (hg : g.event ≠ p)
    : Served (Function.update guards i none) p e interest := by
  cases h with
  | listed hdata honeshot hserved =>
    refine .listed hdata honeshot (hserved.imp_right ?_)
    rintro ⟨j, g', hj, hgp⟩
    refine ⟨j, g', (Function.update_of_ne ?_ ..).trans hj, hgp⟩
    rintro rfl
    cases hi.symm.trans hj
    exact hg hgp
  | unlisted hentry hguards =>
    refine .unlisted hentry ?_
    intro j g' hj
    exact hguards j g' (of_update_none hj).2

end Served

namespace Inv

variable {q q' : EventPoll ι} {hangable hangable' : Nat → Bool} {fd : Fd} {f n : Nat}

theorem eventAt_eq_none (hq : Inv q hangable) (hnone : q.epoll.file fd = none)
    : q.eventAt fd = none := by
  by_contra hsome
  obtain ⟨p, hp⟩ := Option.ne_none_iff_exists'.mp hsome
  obtain ⟨e, f, _, _, hfile, _⟩ := (hq.registered fd p hp).exists_event
  rw [hnone] at hfile
  cases hfile

theorem slots_ne (hq : Inv q hangable) (hnone : q.epoll.file fd = none) (s : Slot ι)
    : q.slots s ≠ some fd := by
  intro hs
  obtain ⟨_, f, hfile, _⟩ := hq.slot s fd hs
  rw [hnone] at hfile
  cases hfile

theorem eventAt_inj (hq : Inv q hangable) {k : Fd} {p : EventPtr} (h : q.eventAt k = some p)
    (h' : q.eventAt fd = some p)
    : k = fd := by
  obtain ⟨e, _, he, hk, _⟩ := (hq.registered k p h).exists_event
  obtain ⟨e', _, he', hfd, _⟩ := (hq.registered fd p h').exists_event
  cases he.symm.trans he'
  exact hk.symm.trans hfd

/--
What the system is about to deliver is registered, and if only one thread may handle it then none does.
-/
theorem of_armed (hq : Inv q hangable) {entry : Epoll.Interest EventPtr}
    (hentry : q.epoll.interest fd f = some entry) (harmed : entry.armed = true)
    : q.epoll.file fd = some f
        ∧
      q.eventAt fd = some entry.data
        ∧
      ∃ e, q.heap entry.data = some e
        ∧ e.fd = fd
        ∧ hangable f = e.handler.hangsUp
        ∧ entry.oneshot = e.handler.oneshot
        ∧ (e.handler.oneshot = true → ∀ j g, q.guards j = some g → g.event ≠ entry.data) := by
  obtain ⟨hfile, hp⟩ := hq.armed fd f entry hentry harmed
  obtain ⟨e, f', he, hfd, hfile', hhangs, hserved⟩ := (hq.registered fd _ hp).exists_event
  cases hfile.symm.trans hfile'
  refine ⟨hfile, hp, e, he, hfd, hhangs, ?_, ?_⟩
  . rw [hentry] at hserved
    cases hserved with
    | listed _ honeshot _ => exact honeshot
    | unlisted hunarmed _ =>
      rw [(hunarmed entry rfl).1] at harmed
      cases harmed
  . -- A thread that handled the event before would have disarmed it
    intro hone j g hg hsame
    obtain ⟨e', he', _, _, hdisarmed⟩ := hq.guard j g hg
    rw [hsame, he] at he'
    cases he'
    rw [hfd] at hdisarmed
    rw [hdisarmed hone f entry hentry] at harmed
    cases harmed

theorem insert (hq : Inv q hangable) (hnone : q.epoll.file fd = none) (hf : f < n)
    (hn : q.epoll.nextFile ≤ n) (hagree : ∀ f < q.epoll.nextFile, hangable' f = hangable f)
    : Inv { q with epoll := { q.epoll with
        files := q.epoll.files.insert fd f
        nextFile := n
      } } hangable' := by
  have hfile : ∀ k, ({ q.epoll with files := q.epoll.files.insert fd f, nextFile := n }
      : Epoll EventPtr).file k = if k = fd then some f else q.epoll.file k :=
    fun k => HashMap.lookup_insert q.epoll.files fd k f
  have hkeeps : ∀ k f', q.epoll.file k = some f' →
      ({ q.epoll with files := q.epoll.files.insert fd f, nextFile := n } : Epoll EventPtr).file k
        = some f' := by
    intro k f' hk
    rw [hfile, if_neg, hk]
    rintro rfl
    rw [hnone] at hk
    cases hk
  refine ⟨?_, ?_, hq.ptr_lt, hq.data_lt, ?_, ?_, hq.guard, hq.exclusive, ?_, hq.slot_inj,
    hq.deleting⟩
  . intro k f' hk
    rw [hfile] at hk
    split at hk
    . cases hk
      exact hf
    . exact lt_of_lt_of_le (hq.file_lt k f' hk) hn
  . intro f' hf'
    obtain ⟨hlt, hhangable⟩ := hq.hungUp f' hf'
    exact ⟨lt_of_lt_of_le hlt hn, by rw [hagree f' hlt, hhangable]⟩
  . intro k p hp
    obtain ⟨e, f', he, hek, hk, hhangs, hserved⟩ := (hq.registered k p hp).exists_event
    refine ⟨e, f', he, hek, hkeeps k f' hk, ?_, hserved⟩
    rw [hagree f' (hq.file_lt k f' hk), hhangs]
  . intro k f' entry hentry harmed
    obtain ⟨hk, hp⟩ := hq.armed k f' entry hentry harmed
    exact ⟨hkeeps k f' hk, hp⟩
  . intro s k hs
    obtain ⟨hevent, f', hk, hhangs⟩ := hq.slot s k hs
    refine ⟨hevent, f', hkeeps k f' hk, ?_⟩
    rw [hagree f' (hq.file_lt k f' hk)]
    exact hhangs

theorem openAt (hq : Inv q hangable) {epoll : Epoll EventPtr} (h : q.epoll.openAt fd = some epoll)
    (b : Bool)
    : Inv { q with epoll } (Function.update hangable q.epoll.nextFile b)
        ∧
      Keeps q { q with epoll }
        ∧
      epoll.file fd = some q.epoll.nextFile
        ∧
      q.eventAt fd = none
        ∧
      ∀ s, q.slots s ≠ some fd := by
  obtain ⟨hnone, rfl⟩ := Epoll.file_of_openAt h
  refine ⟨hq.insert hnone (Nat.lt_succ_self _) (Nat.le_succ _) ?_,
    .of_eq rfl rfl fun _ _ _ hlists => hlists.insert hnone _ _, ?_, hq.eventAt_eq_none hnone,
    hq.slots_ne hnone⟩
  . intro f hf
    rw [Function.update_of_ne (Nat.ne_of_lt hf)]
  . exact (HashMap.lookup_insert q.epoll.files fd fd _).trans (if_pos rfl)

theorem dup (hq : Inv q hangable) {fd' : Fd} {epoll : Epoll EventPtr}
    (h : q.epoll.dup fd fd' = some epoll)
    : Inv { q with epoll } hangable
        ∧
      Keeps q { q with epoll }
        ∧
      (∃ f, q.epoll.file fd = some f ∧ epoll.file fd = some f ∧ epoll.file fd' = some f)
        ∧
      fd ≠ fd'
        ∧
      q.eventAt fd' = none
        ∧
      ∀ s, q.slots s ≠ some fd' := by
  obtain ⟨f, hfile, hnone, rfl⟩ := Epoll.file_of_dup h
  have hne : fd ≠ fd' := by
    rintro rfl
    rw [hnone] at hfile
    cases hfile
  refine ⟨hq.insert hnone (hq.file_lt fd f hfile) le_rfl fun _ _ => rfl,
    .of_eq rfl rfl fun _ _ _ hlists => hlists.insert hnone _ _, ⟨f, hfile, ?_, ?_⟩, hne,
    hq.eventAt_eq_none hnone, hq.slots_ne hnone⟩
  . exact (HashMap.lookup_insert q.epoll.files fd' fd _).trans ((if_neg hne).trans hfile)
  . exact (HashMap.lookup_insert q.epoll.files fd' fd' _).trans (if_pos rfl)

section RegisterEvent

variable {handler : Handler} {events : List (Option EventPtr)}

/--
The event is in the table, and the system was not asked to add it to the interest list yet.
-/
theorem insertEvent (hq : Inv q hangable) (hnone : q.eventAt fd = none)
    (hslots : ∀ s, q.slots s ≠ some fd) (hfile : q.epoll.file fd = some f)
    (hhangs : hangable f = handler.hangsUp) (hfree : q.deleting = none)
    (hevents : ∀ k, events[k]?.join = if k = fd then some q.nextPtr else q.eventAt k)
    : Inv { q with
        events
        heap := Function.update q.heap q.nextPtr (some { fd, handler })
        nextPtr := q.nextPtr + 1
      } hangable := by
  have hne : ∀ {p e}, q.heap p = some e → p ≠ q.nextPtr := fun he => Nat.ne_of_lt (hq.ptr_lt _ _ he)
  have hkept : ∀ {k p}, q.eventAt k = some p → events[k]?.join = some p := by
    intro k p hp
    rw [hevents k, if_neg (ne_of_eventAt hnone hp), hp]
  have hunarmed : ∀ {entry}, q.epoll.interest fd f = some entry → entry.armed = false := by
    intro entry hentry
    by_contra harmed
    rw [(hq.armed fd f entry hentry (Bool.not_eq_false _ ▸ harmed)).2] at hnone
    cases hnone
  refine ⟨hq.file_lt, hq.hungUp, ?_, ?_, ?_, ?_, ?_, ?_, ?_, hq.slot_inj, ?_⟩
  . intro p e he
    by_cases hp : p = q.nextPtr
    . exact Nat.lt_succ_of_le (Nat.le_of_eq hp)
    . dsimp only at he
      rw [Function.update_of_ne hp] at he
      exact Nat.lt_succ_of_lt (hq.ptr_lt p e he)
  . intro k f' entry hentry
    exact Nat.lt_succ_of_lt (hq.data_lt k f' entry hentry)
  . intro k p hp
    rw [eventAt, hevents k] at hp
    split at hp
    . next hk =>
      subst hk
      cases hp
      refine ⟨_, f, Function.update_self .., rfl, hfile, hhangs, .unlisted ?_ ?_⟩
      . intro entry hentry
        exact ⟨hunarmed hentry, Nat.ne_of_lt (hq.data_lt k f entry hentry)⟩
      . intro i g hg
        obtain ⟨e, he, _⟩ := hq.guard i g hg
        exact hne he
    . obtain ⟨e, f', he, hrest⟩ := (hq.registered k p hp).exists_event
      exact ⟨e, f', (Function.update_of_ne (hne he) ..).trans he, hrest⟩
  . intro k f' entry hentry harmed
    obtain ⟨hkfile, hp⟩ := hq.armed k f' entry hentry harmed
    exact ⟨hkfile, hkept hp⟩
  . intro i g hg
    obtain ⟨e, he, hp, hrest⟩ := hq.guard i g hg
    exact ⟨e, (Function.update_of_ne (hne he) ..).trans he, hkept hp, hrest⟩
  . intro i j g g' e hg hg' hsame he
    obtain ⟨e', he', _⟩ := hq.guard i g hg
    dsimp only at he
    rw [Function.update_of_ne (hne he')] at he
    exact hq.exclusive i j g g' e hg hg' hsame he
  . intro s k hs
    obtain ⟨hevent, hkfile⟩ := hq.slot s k hs
    refine ⟨?_, hkfile⟩
    rw [eventAt, hevents k, if_neg, hevent]
    rintro rfl
    exact hslots s hs
  . intro i k hdeleting
    cases hfree.symm.trans hdeleting

/--
The event is waited for, and the threads that go on to handle it do so without a claim to be the only
one.
-/
theorem arm (hq : Inv q hangable) {p : EventPtr} {e : Event} (hp : q.eventAt fd = some p)
    (he : q.heap p = some e) (hfile : q.epoll.file fd = some f) {guards : ι → Option EventGuard}
    (hguards : ∀ i g, guards i = some g →
      q.guards i = some g ∧ (g.event = p → e.handler.oneshot = false))
    (hserved : ∀ p' e' interest, p ≠ p' → Served q.guards p' e' interest → Served guards p' e' interest)
    : let q' := { q with
        epoll := q.epoll.setInterest fd f
          (some { data := p, oneshot := e.handler.oneshot, armed := true })
        guards
      }
      Inv q' hangable ∧ Keeps q q' := by
  refine ⟨⟨hq.file_lt, hq.hungUp, hq.ptr_lt, ?_, ?_, ?_, ?_, ?_, hq.slot, hq.slot_inj, hq.deleting⟩,
    .of_eq rfl rfl fun k p' hk hlists => hlists.setInterest ?_⟩
  . intro k f' entry hentry
    dsimp only at hentry
    rw [Epoll.interest_setInterest] at hentry
    split at hentry
    . cases hentry
      exact hq.ptr_lt p e he
    . exact hq.data_lt k f' entry hentry
  . intro k p' hk
    obtain ⟨e', f', he', hek, hkfile, hhangs, hserved'⟩ := (hq.registered k p' hk).exists_event
    refine ⟨e', f', he', hek, hkfile, hhangs, ?_⟩
    dsimp only
    by_cases hkfd : k = fd
    . subst hkfd
      cases hp.symm.trans hk
      cases he.symm.trans he'
      cases hfile.symm.trans hkfile
      rw [Epoll.interest_setInterest, if_pos ⟨rfl, rfl⟩]
      exact .listed rfl rfl (.inl rfl)
    . rw [Epoll.interest_setInterest, if_neg fun hkf => hkfd hkf.1]
      refine hserved p' e' _ ?_ hserved'
      rintro rfl
      exact hkfd (hq.eventAt_inj hk hp)
  . intro k f' entry hentry harmed
    dsimp only at hentry
    rw [Epoll.interest_setInterest] at hentry
    split at hentry
    . next hkf =>
      obtain ⟨rfl, rfl⟩ := hkf
      cases hentry
      exact ⟨hfile, hp⟩
    . exact hq.armed k f' entry hentry harmed
  . intro i g hg
    obtain ⟨hg, hshared⟩ := hguards i g hg
    obtain ⟨e', he', hp', heof, hunarmed⟩ := hq.guard i g hg
    refine ⟨e', he', hp', heof, ?_⟩
    intro honeshot f' entry hentry
    dsimp only at hentry
    rw [Epoll.interest_setInterest, if_neg] at hentry
    . exact hunarmed honeshot f' entry hentry
    . rintro ⟨hfd, _⟩
      rw [hfd] at hp'
      cases hp'.symm.trans hp
      cases he.symm.trans he'
      rw [hshared rfl] at honeshot
      cases honeshot
  . intro i j g g' e' hg hg'
    exact hq.exclusive i j g g' e' (hguards i g hg).1 (hguards j g' hg').1
  . rintro rfl
    exact hp.symm.trans hk

theorem registerEvent (hq : Inv q hangable) {added : Bool} (hnone : q.eventAt fd = none)
    (hslots : ∀ s, q.slots s ≠ some fd) (hfile : q.epoll.file fd = some f)
    (hhangs : hangable f = handler.hangsUp) (h : q.registerEvent fd handler added = some q')
    : Inv q' hangable ∧ Keeps q q' := by
  obtain ⟨hfree, events, epoll, hevents, rfl, hepoll⟩ := of_registerEvent hnone h
  have hinserted := hq.insertEvent hnone hslots hfile hhangs hfree hevents
  have hkeeps : Keeps q { q with
      events
      heap := Function.update q.heap q.nextPtr (some { fd, handler })
      nextPtr := q.nextPtr + 1
    } := by
    intro k p e hp he _
    refine ⟨?_, (Function.update_of_ne (Nat.ne_of_lt (hq.ptr_lt p e he)) ..).trans he, id⟩
    rw [eventAt, hevents k, if_neg (ne_of_eventAt hnone hp), hp]
  cases added with
  | false =>
    subst hepoll
    exact ⟨hinserted, hkeeps⟩
  | true =>
    obtain ⟨f', hfile', rfl⟩ := hepoll
    have hguards : ∀ i g, q.guards i = some g →
        q.guards i = some g ∧ (g.event = q.nextPtr → handler.oneshot = false) := by
      intro i g hg
      obtain ⟨e, he, _⟩ := hq.guard i g hg
      exact ⟨hg, fun heq => absurd heq (Nat.ne_of_lt (hq.ptr_lt _ _ he))⟩
    have harm := hinserted.arm (p := q.nextPtr) ((hevents fd).trans (if_pos rfl))
      (Function.update_self ..) hfile' hguards fun _ _ _ _ => id
    exact ⟨harm.1, hkeeps.trans harm.2⟩

end RegisterEvent

theorem setSlot [DecidableEq ι] (hq : Inv q hangable) {s : Slot ι} (hnone : q.eventAt fd = none)
    (hfile : q.epoll.file fd = some f) (hhangs : ∀ b ∈ s.hangsUp, hangable f = b)
    (hslots : ∀ s', q.slots s' ≠ some fd)
    : Inv { q with slots := Function.update q.slots s (some fd) } hangable := by
  refine ⟨hq.file_lt, hq.hungUp, hq.ptr_lt, hq.data_lt,
    fun k p hp => ⟨(hq.registered k p hp).exists_event⟩, hq.armed, hq.guard, hq.exclusive, ?_, ?_,
    hq.deleting⟩
  . intro s' k hs'
    dsimp only at hs'
    by_cases hs : s' = s
    . subst hs
      rw [Function.update_self] at hs'
      cases hs'
      exact ⟨hnone, f, hfile, hhangs⟩
    . rw [Function.update_of_ne hs] at hs'
      exact hq.slot s' k hs'
  . intro s₁ s₂ k h₁ h₂
    dsimp only at h₁ h₂
    rw [Function.update_apply] at h₁ h₂
    split at h₁ <;> split at h₂
    . next hs₁ hs₂ => rw [hs₁, hs₂]
    . cases h₁
      exact absurd h₂ (hslots s₂)
    . cases h₂
      exact absurd h₁ (hslots s₁)
    . exact hq.slot_inj s₁ s₂ k h₁ h₂

theorem clearSlot [DecidableEq ι] (hq : Inv q hangable) (s : Slot ι)
    : Inv { q with slots := Function.update q.slots s none } hangable := by
  exact ⟨hq.file_lt, hq.hungUp, hq.ptr_lt, hq.data_lt,
    fun k p hp => ⟨(hq.registered k p hp).exists_event⟩, hq.armed, hq.guard, hq.exclusive,
    fun s' k hs' => hq.slot s' k (of_update_none hs').2,
    fun s₁ s₂ k h₁ h₂ => hq.slot_inj s₁ s₂ k (of_update_none h₁).2 (of_update_none h₂).2, hq.deleting⟩

theorem slots_clearSlot_ne [DecidableEq ι] (hq : Inv q hangable) {s : Slot ι}
    (hs : q.slots s = some fd) (s' : Slot ι)
    : Function.update q.slots s none s' ≠ some fd := by
  intro hs'
  obtain ⟨hne, hs'⟩ := of_update_none hs'
  exact hne (hq.slot_inj s' s fd hs' hs)

theorem close (hq : Inv q hangable) (hnone : q.eventAt fd = none) (hslots : ∀ s, q.slots s ≠ some fd)
    : Inv { q with epoll := q.epoll.close fd } hangable := by
  have hfile : ∀ {k f'}, k ≠ fd → q.epoll.file k = some f' → (q.epoll.close fd).file k = some f' := by
    intro k f' hk hf'
    rw [Epoll.file_close, if_neg hk, hf']
  refine ⟨?_, ?_, hq.ptr_lt, ?_, ?_, ?_, ?_, hq.exclusive, ?_, hq.slot_inj, hq.deleting⟩
  . intro k f' hk
    dsimp only at hk ⊢
    rw [Epoll.file_close] at hk
    rw [Epoll.nextFile_close]
    split at hk
    . cases hk
    . exact hq.file_lt k f' hk
  . intro f' hf'
    dsimp only at hf' ⊢
    rw [Epoll.hungUp_close] at hf'
    rw [Epoll.nextFile_close]
    exact hq.hungUp f' hf'
  . intro k f' entry hentry
    exact hq.data_lt k f' entry (Epoll.interest_of_close hentry)
  . intro k p hp
    obtain ⟨e, f', he, hek, hkfile, hhangs, hserved⟩ := (hq.registered k p hp).exists_event
    refine ⟨e, f', he, hek, hfile (ne_of_eventAt hnone hp) hkfile, hhangs, ?_⟩
    dsimp only
    rw [Epoll.interest_close (ne_of_eventAt hnone hp) hkfile]
    exact hserved
  . intro k f' entry hentry harmed
    obtain ⟨hkfile, hp⟩ := hq.armed k f' entry (Epoll.interest_of_close hentry) harmed
    exact ⟨hfile (ne_of_eventAt hnone hp) hkfile, hp⟩
  . intro i g hg
    obtain ⟨e, he, hp, heof, hunarmed⟩ := hq.guard i g hg
    exact ⟨e, he, hp, heof, fun honeshot f' entry hentry =>
      hunarmed honeshot f' entry (Epoll.interest_of_close hentry)⟩
  . intro s k hs
    obtain ⟨hevent, f', hkfile, hhangs⟩ := hq.slot s k hs
    refine ⟨hevent, f', hfile ?_ hkfile, hhangs⟩
    rintro rfl
    exact hslots s hs

theorem keeps_close (hnone : q.eventAt fd = none) : Keeps q { q with epoll := q.epoll.close fd } := by
  exact .of_eq rfl rfl fun _ _ hp hlists => hlists.close (ne_of_eventAt hnone hp)

theorem deleteInterest (hq : Inv q hangable) (hnone : q.eventAt fd = none)
    : Inv { q with epoll := q.epoll.setInterest fd f none } hangable := by
  have hentry : ∀ {k f' entry}, (q.epoll.setInterest fd f none).interest k f' = some entry →
      q.epoll.interest k f' = some entry := by
    intro k f' entry h
    rw [Epoll.interest_setInterest] at h
    split at h
    . cases h
    . exact h
  refine ⟨hq.file_lt, hq.hungUp, hq.ptr_lt, fun k f' entry h => hq.data_lt k f' entry (hentry h), ?_,
    fun k f' entry h => hq.armed k f' entry (hentry h), ?_, hq.exclusive, hq.slot, hq.slot_inj,
    hq.deleting⟩
  . intro k p hp
    obtain ⟨e, f', he, hek, hkfile, hhangs, hserved⟩ := (hq.registered k p hp).exists_event
    refine ⟨e, f', he, hek, hkfile, hhangs, ?_⟩
    dsimp only
    rw [Epoll.interest_setInterest, if_neg fun hkf => ne_of_eventAt hnone hp hkf.1]
    exact hserved
  . intro i g hg
    obtain ⟨e, he, hp, heof, hunarmed⟩ := hq.guard i g hg
    exact ⟨e, he, hp, heof, fun honeshot f' entry h => hunarmed honeshot f' entry (hentry h)⟩

theorem shutdown (hq : Inv q hangable) (hfile : q.epoll.file fd = some f) (hhangs : hangable f = true)
    : Inv { q with epoll := q.epoll.shutdown fd } hangable
        ∧
      Keeps q { q with epoll := q.epoll.shutdown fd } := by
  rw [Epoll.shutdown_of_file hfile]
  refine ⟨⟨hq.file_lt, ?_, hq.ptr_lt, hq.data_lt,
    fun k p hp => ⟨(hq.registered k p hp).exists_event⟩, hq.armed, hq.guard, hq.exclusive, hq.slot,
    hq.slot_inj, hq.deleting⟩, .of_eq rfl rfl fun _ _ _ hlists => hlists⟩
  intro f' hf'
  by_cases hsame : f' = f
  . subst hsame
    exact ⟨hq.file_lt fd f' hfile, hhangs⟩
  . dsimp only at hf'
    rw [Function.update_of_ne hsame] at hf'
    exact hq.hungUp f' hf'

theorem registerClone (hq : Inv q hangable) {s : Slot ι} {clone : Fd} {handler : Handler}
    {added : Bool} (hs : q.slots s = some fd) (hhangs : s.hangsUp = some handler.hangsUp)
    (h : ((q.epoll.dup fd clone).bind fun epoll =>
      { q with epoll }.registerEvent clone handler added) = some q')
    : Inv q' hangable
        ∧
      Keeps q q'
        ∧
      ∃ p, q'.eventAt clone = some p ∧ q'.heap p = some { fd := clone, handler }
        ∧ (added = true → q'.epoll.Lists clone p) := by
  obtain ⟨epoll, hdup, h⟩ := Option.bind_eq_some_iff.mp h
  obtain ⟨hq₁, hkeeps, ⟨f, hf, _, hclone⟩, _, hevent, hslots⟩ := hq.dup hdup
  have hhangable : hangable f = handler.hangsUp := by
    obtain ⟨_, f₀, hf₀, hhangable⟩ := hq.slot s fd hs
    cases hf.symm.trans hf₀
    exact hhangable _ hhangs
  obtain ⟨hq', hkeeps'⟩ := hq₁.registerEvent hevent hslots hclone hhangable h
  refine ⟨hq', hkeeps.trans hkeeps', ?_⟩
  obtain ⟨_, events, epoll', hevents, rfl, hepoll⟩ := of_registerEvent (q := { q with epoll }) hevent h
  refine ⟨_, (hevents clone).trans (if_pos rfl), Function.update_self .., ?_⟩
  rintro rfl
  obtain ⟨f', hf', rfl⟩ := hepoll
  exact ⟨f', _, hf', if_pos ⟨rfl, rfl⟩, rfl⟩

theorem registerUdpHandler (hq : Inv q hangable) {s : Slot ι} {clone : Fd} {port : UInt16}
    {added : Bool} (h : q.registerUdpHandler s clone port added = some q')
    : Inv q' hangable
        ∧
      Keeps q q'
        ∧
      ∃ p, q'.eventAt clone = some p ∧ q'.heap p = some { fd := clone, handler := .udp port }
        ∧ (added = true → q'.epoll.Lists clone p) := by
  unfold EventPoll.registerUdpHandler at h
  split at h
  . next hs => exact hq.registerClone hs rfl h
  . next hs => exact hq.registerClone hs rfl h
  . cases h

theorem register (hq : Inv q hangable) {handler : Handler} {added : Bool}
    (h : q.register fd handler added = some q')
    : (∃ hangable', Inv q' hangable') ∧ Keeps q q' := by
  have hnew : ((q.epoll.openAt fd).bind fun epoll => { q with epoll }.registerEvent fd handler added)
      = some q' := by
    unfold EventPoll.register at h
    split at h
    . cases h
    . cases h
    . exact h
  obtain ⟨epoll, hopen, h⟩ := Option.bind_eq_some_iff.mp hnew
  obtain ⟨hq₁, hkeeps, hfile, hevent, hslots⟩ := hq.openAt hopen handler.hangsUp
  obtain ⟨hq', hkeeps'⟩ := hq₁.registerEvent hevent hslots hfile (Function.update_self ..) h
  exact ⟨⟨_, hq'⟩, hkeeps.trans hkeeps'⟩

theorem hangUp (hq : Inv q hangable) (h : q.hangUp fd = some q')
    : Inv q' hangable ∧ Keeps q q' := by
  have hshutdown : ∀ {e}, (q.eventAt fd).bind q.heap = some e → e.handler.hangsUp = true →
      Inv { q with epoll := q.epoll.shutdown fd } hangable
        ∧
      Keeps q { q with epoll := q.epoll.shutdown fd } := by
    intro e hevent hhangs
    obtain ⟨p, hp, he⟩ := Option.bind_eq_some_iff.mp hevent
    obtain ⟨e', f, he', _, hfile, hhangable, _⟩ := (hq.registered fd p hp).exists_event
    cases he.symm.trans he'
    exact hq.shutdown hfile (hhangable.trans hhangs)
  unfold EventPoll.hangUp at h
  split at h
  . next hiface =>
    cases h
    exact hshutdown hiface rfl
  . next hstream =>
    cases h
    exact hshutdown hstream rfl
  . cases h

variable [DecidableEq ι] {i : ι}

theorem deliver (hq : Inv q hangable) (hguard : q.guards i = none)
    {entry : Epoll.Interest EventPtr} (hentry : q.epoll.interest fd f = some entry)
    (harmed : entry.armed = true)
    : let q' := { q with
        epoll := q.epoll.disarm fd f entry
        guards := Function.update q.guards i (some { event := entry.data, eof := q.epoll.hungUp f })
      }
      Inv q' hangable ∧ Keeps q q' := by
  obtain ⟨hfile, hp, e, he, hfd, hhangs, honeshot, hfree⟩ := hq.of_armed hentry harmed
  have hunarmed : e.handler.oneshot = true → ∀ f' entry',
      (q.epoll.disarm fd f entry).interest e.fd f' = some entry' → entry'.armed = false := by
    intro hone f' entry' h'
    by_contra harmed'
    obtain ⟨hold, hdisarmed⟩ := Epoll.interest_of_disarm h' (Bool.not_eq_false _ ▸ harmed')
    have hf' := (hq.armed e.fd f' entry' hold (Bool.not_eq_false _ ▸ harmed')).1
    rw [hfd, hfile] at hf'
    cases hf'
    exact hdisarmed (honeshot.trans hone) ⟨hfd, rfl⟩
  refine ⟨⟨?_, ?_, hq.ptr_lt, ?_, ?_, ?_, ?_, ?_, ?_, hq.slot_inj, hq.deleting⟩,
    .of_eq rfl rfl fun _ _ _ hlists => hlists.disarm hentry hfile⟩
  . intro k f' hk
    dsimp only at hk ⊢
    rw [Epoll.file_disarm] at hk
    rw [Epoll.nextFile_disarm]
    exact hq.file_lt k f' hk
  . intro f' hf'
    dsimp only at hf' ⊢
    rw [Epoll.hungUp_disarm] at hf'
    rw [Epoll.nextFile_disarm]
    exact hq.hungUp f' hf'
  . intro k f' entry' h'
    obtain ⟨old, hold, hdata⟩ := Epoll.exists_interest_of_disarm hentry h'
    rw [← hdata]
    exact hq.data_lt k f' old hold
  . intro k p hkp
    by_cases hk : k = fd
    . subst hk
      cases hp.symm.trans hkp
      obtain ⟨entry', hentry', hdata, hone⟩ := Epoll.interest_disarm_self hentry
      refine ⟨e, f, he, hfd, Epoll.file_disarm.trans hfile, hhangs, ?_⟩
      dsimp only
      rw [hentry']
      exact .listed hdata (hone.trans honeshot) (.inr ⟨i, _, Function.update_self .., rfl⟩)
    . obtain ⟨e', f', he', hek, hkfile, hhangs', hserved'⟩ := (hq.registered k p hkp).exists_event
      refine ⟨e', f', he', hek, Epoll.file_disarm.trans hkfile, hhangs', ?_⟩
      dsimp only
      rw [Epoll.interest_disarm_of_ne hk]
      refine hserved'.update hguard ?_
      rintro rfl
      exact hk (hq.eventAt_inj hkp hp)
  . intro k f' entry' h' harmed'
    obtain ⟨hold, _⟩ := Epoll.interest_of_disarm h' harmed'
    dsimp only
    rw [Epoll.file_disarm]
    exact hq.armed k f' entry' hold harmed'
  . intro j g hg
    dsimp only at hg
    rw [Function.update_apply] at hg
    split at hg
    . cases hg
      refine ⟨e, he, hfd ▸ hp, ?_, hunarmed⟩
      intro heof
      rw [← hhangs]
      exact (hq.hungUp f heof).2
    . obtain ⟨e', he', hp', heof, hdisarmed⟩ := hq.guard j g hg
      refine ⟨e', he', hp', heof, ?_⟩
      intro hone f' entry' h'
      by_contra harmed'
      obtain ⟨hold, _⟩ := Epoll.interest_of_disarm h' (Bool.not_eq_false _ ▸ harmed')
      exact harmed' (hdisarmed hone f' entry' hold)
  . intro j₁ j₂ g₁ g₂ e' h₁ h₂ hsame he' hone
    dsimp only at h₁ h₂
    rw [Function.update_apply] at h₁ h₂
    split at h₁ <;> split at h₂
    . next hj₁ hj₂ => rw [hj₁, hj₂]
    . cases h₁
      cases he.symm.trans he'
      exact absurd hsame.symm (hfree hone j₂ g₂ h₂)
    . cases h₂
      dsimp only at hsame he'
      rw [hsame] at he'
      cases he.symm.trans he'
      exact absurd hsame (hfree hone j₁ g₁ h₁)
    . exact hq.exclusive j₁ j₂ g₁ g₂ e' h₁ h₂ hsame he' hone
  . intro s k hs
    dsimp only
    rw [Epoll.file_disarm]
    exact hq.slot s k hs

theorem wait (hq : Inv q hangable) (h : q.wait i fd f = some q')
    : Inv q' hangable ∧ Keeps q q' := by
  unfold EventPoll.wait at h
  split at h
  . split at h
    . next epoll p eof hguard hwait =>
      obtain ⟨entry, hentry, harmed, rfl, rfl, rfl⟩ := Epoll.interest_of_wait hwait
      cases h
      exact hq.deliver hguard hentry harmed
    . cases h
  . cases h

theorem rearm (hq : Inv q hangable) {g : EventGuard} {e : Event} (hg : q.guards i = some g)
    (he : q.heap g.event = some e) (hp : q.eventAt e.fd = some g.event)
    (hfile : q.epoll.file e.fd = some f)
    : let q' := { q with
        epoll := q.epoll.setInterest e.fd f
          (some { data := g.event, oneshot := e.handler.oneshot, armed := true })
        guards := Function.update q.guards i none
      }
      Inv q' hangable ∧ Keeps q q' := by
  refine hq.arm hp he hfile ?_ fun _ _ _ hne hserved => hserved.clear hg hne
  intro j g' hj
  obtain ⟨hji, hj⟩ := of_update_none hj
  refine ⟨hj, ?_⟩
  intro hsame
  -- Two threads would handle the event at once
  by_contra hone
  exact hji (hq.exclusive j i g' g e hj hg hsame (hsame ▸ he) (Bool.not_eq_false _ ▸ hone))

theorem dropGuard (hq : Inv q hangable) (h : q.dropGuard i = some q')
    : Inv q' hangable ∧ Keeps q q' := by
  unfold EventPoll.dropGuard at h
  split at h
  . cases h
  . next g hg =>
    obtain ⟨e, he, hp, _, _⟩ := hq.guard i g hg
    rw [he] at h
    dsimp only at h
    split at h
    . cases h
    . cases h
      obtain ⟨e', f, he', _, hfile, _, hserved⟩ := (hq.registered e.fd g.event hp).exists_event
      cases he.symm.trans he'
      obtain ⟨entry, hentry⟩ : ∃ entry, q.epoll.interest e.fd f = some entry := by
        generalize q.epoll.interest e.fd f = interest at hserved
        cases hserved with
        | listed _ _ _ => exact ⟨_, rfl⟩
        | unlisted _ hguards => exact absurd rfl (hguards i g hg)
      rw [Epoll.modify_of_interest hfile hentry]
      exact hq.rearm hg he hp hfile

theorem oneshot_of_hangsUp {handler : Handler} (h : handler.hangsUp = true) : handler.oneshot = true := by
  cases handler <;> first | rfl | cases h

theorem forget (hq : Inv q hangable) {g : EventGuard} {e : Event}
    (hg : q.guards i = some g) (heof : g.eof = true) (he : q.heap g.event = some e)
    : let q' := { q with
        events := q.events.set e.fd none
        heap := Function.update q.heap g.event none
        guards := Function.update q.guards i none
        deleting := some (i, e.fd)
      }
      Inv q' hangable ∧ Keeps q q' := by
  obtain ⟨_, hheap, hp, hhangs, hdisarmed⟩ := hq.guard i g hg
  cases he.symm.trans hheap
  have hone := oneshot_of_hangsUp (hhangs heof)
  have hevents : ∀ k, (q.events.set e.fd none)[k]?.join = if k = e.fd then none else q.eventAt k :=
    join_getElem?_set none (lt_length_of_eventAt hp)
  have hother : ∀ {k p'}, (q.events.set e.fd none)[k]?.join = some p' →
      k ≠ e.fd ∧ q.eventAt k = some p' := by
    intro k p' hk
    rw [hevents] at hk
    split at hk
    . cases hk
    . next hne => exact ⟨hne, hk⟩
  have hguards : ∀ {j g'}, Function.update q.guards i none j = some g' →
      q.guards j = some g' ∧ g'.event ≠ g.event := by
    intro j g' hj
    obtain ⟨hji, hj⟩ := of_update_none hj
    refine ⟨hj, ?_⟩
    intro hsame
    exact hji (hq.exclusive j i g' g e hj hg hsame (hsame ▸ he) hone)
  refine ⟨⟨hq.file_lt, hq.hungUp, ?_, hq.data_lt, ?_, ?_, ?_, ?_, ?_, hq.slot_inj, ?_⟩, ?_⟩
  . intro p' e' he'
    exact hq.ptr_lt p' e' (of_update_none he').2
  . intro k p' hk
    obtain ⟨hne, hk⟩ := hother hk
    obtain ⟨e', f', he', hek, hkfile, hhangs', hserved⟩ := (hq.registered k p' hk).exists_event
    have hpp : g.event ≠ p' := by
      rintro rfl
      exact hne (hq.eventAt_inj hk hp)
    exact ⟨e', f', (Function.update_of_ne hpp.symm ..).trans he', hek, hkfile, hhangs',
      hserved.clear hg hpp⟩
  . intro k f' entry hentry harmed
    obtain ⟨hkfile, hk⟩ := hq.armed k f' entry hentry harmed
    refine ⟨hkfile, ?_⟩
    rw [eventAt, hevents k, if_neg, hk]
    rintro rfl
    rw [hdisarmed hone f' entry hentry] at harmed
    cases harmed
  . intro j g' hj
    obtain ⟨hj, hne⟩ := hguards hj
    obtain ⟨e', he', hp', heof', hdisarmed'⟩ := hq.guard j g' hj
    refine ⟨e', (Function.update_of_ne hne ..).trans he', ?_, heof', hdisarmed'⟩
    rw [eventAt, hevents e'.fd, if_neg, hp']
    intro hfd
    rw [hfd, hp] at hp'
    exact hne (Option.some.inj hp').symm
  . intro j₁ j₂ g₁ g₂ e' h₁ h₂ hsame he'
    obtain ⟨h₁, hne⟩ := hguards h₁
    dsimp only at he'
    rw [Function.update_of_ne hne] at he'
    exact hq.exclusive j₁ j₂ g₁ g₂ e' h₁ (hguards h₂).1 hsame he'
  . intro s k hs
    obtain ⟨hnone, hkfile⟩ := hq.slot s k hs
    refine ⟨?_, hkfile⟩
    rw [eventAt, hevents k, hnone, ite_self]
  . intro j k hdeleting
    cases hdeleting
    exact (hevents e.fd).trans (if_pos rfl)
  . intro k p' e' hk he' hhangs'
    have hne : p' ≠ g.event := by
      rintro rfl
      cases he.symm.trans he'
      rw [hhangs heof] at hhangs'
      cases hhangs'
    refine ⟨?_, (Function.update_of_ne hne ..).trans he', id⟩
    rw [eventAt, hevents k, if_neg, hk]
    rintro rfl
    exact hne (Option.some.inj (hk.symm.trans hp))

theorem cancel (hq : Inv q hangable) (h : q.cancel i = some q')
    : Inv q' hangable ∧ Keeps q q' := by
  unfold EventPoll.cancel at h
  split at h
  . cases h
  . next g hg =>
    obtain ⟨e, he, hp, _⟩ := hq.guard i g hg
    rw [he] at h
    dsimp only at h
    split at h
    . next hcancels =>
      have heof : g.eof = true := (Bool.and_eq_true_iff.mp hcancels).1
      obtain ⟨_, hclear, rfl⟩ := Option.map_eq_some_iff.mp h
      have hfree := deleting_of_clearEventByFd hclear
      rw [clearEventByFd_of_some hfree hp he rfl] at hclear
      cases hclear
      obtain ⟨hq', hkeeps⟩ := hq.forget hg heof he
      have hnone := hq'.deleting i e.fd rfl
      have hslots : ∀ s, q.slots s ≠ some e.fd := by
        intro s hs
        rw [(hq.slot s e.fd hs).1] at hp
        cases hp
      cases e.handler.ownsFd with
      | true => exact ⟨hq'.close hnone hslots, hkeeps.trans (keeps_close hnone)⟩
      | false => exact ⟨hq', hkeeps⟩
    . cases h

theorem deleteEvent (hq : Inv q hangable) (h : q.deleteEvent i = some q')
    : Inv q' hangable ∧ Keeps q q' := by
  unfold EventPoll.deleteEvent at h
  split at h
  . cases h
  . next j fd hdeleting =>
    split at h
    . cases h
      have hnone := hq.deleting j fd hdeleting
      have hunlocked : ∀ {q : EventPoll ι}, Inv q hangable → Inv { q with deleting := none } hangable := by
        intro q hq
        exact ⟨hq.file_lt, hq.hungUp, hq.ptr_lt, hq.data_lt,
          fun k p hp => ⟨(hq.registered k p hp).exists_event⟩, hq.armed, hq.guard, hq.exclusive,
          hq.slot, hq.slot_inj, by simp⟩
      refine ⟨?_, .of_eq rfl rfl fun _ _ hp hlists => hlists.delete (ne_of_eventAt hnone hp)⟩
      rcases q.epoll.delete_cases fd with heq | ⟨f, heq⟩
      . rw [heq]
        exact hunlocked hq
      . rw [heq]
        exact hunlocked (hq.deleteInterest hnone)
    . cases h

theorem closeSlot (hq : Inv q hangable) {s : Slot ι} (hs : q.slots s = some fd)
    : Inv (q.closeSlot s fd) hangable ∧ Keeps q (q.closeSlot s fd) := by
  have hnone := (hq.slot s fd hs).1
  exact ⟨(hq.clearSlot s).close hnone (hq.slots_clearSlot_ne hs), keeps_close hnone⟩

theorem takeSlot (hq : Inv q hangable) {s : Slot ι} (hs : q.slots s = some fd)
    : Inv (q.takeSlot i s fd) hangable := by
  obtain ⟨hnone, f, hfile, _⟩ := hq.slot s fd hs
  exact (hq.clearSlot s).setSlot (s := .dropping i) hnone hfile (by simp [Slot.hangsUp])
    (hq.slots_clearSlot_ne hs)

theorem connectEndpoint (hq : Inv q hangable) {peer : Nat} {sock clone : Fd} {added : Bool}
    (h : q.connectEndpoint peer sock clone added = some q')
    : (∃ hangable', Inv q' hangable') ∧ Keeps q q' := by
  unfold EventPoll.connectEndpoint at h
  split at h
  . cases h
  . obtain ⟨epoll, hopen, h⟩ := Option.bind_eq_some_iff.mp h
    obtain ⟨epoll', hdup, h⟩ := Option.bind_eq_some_iff.mp h
    obtain ⟨hq₁, hkeeps₁, hfile, hevent, hslots⟩ := hq.openAt hopen true
    obtain ⟨hq₂, hkeeps₂, ⟨f, hf, hsock, hclone⟩, hne, hevent', hslots'⟩ := hq₁.dup hdup
    cases hfile.symm.trans hf
    have hhangable : Function.update hangable q.epoll.nextFile true q.epoll.nextFile
        = (Handler.conn peer).hangsUp :=
      Function.update_self ..
    have hq₃ := hq₂.setSlot (s := .conn peer) hevent' hclone (by simp [Slot.hangsUp]) hslots'
    obtain ⟨hq', hkeeps₃⟩ := hq₃.registerEvent hevent (by
      intro s hs
      dsimp only at hs
      rw [Function.update_apply] at hs
      split at hs
      . exact hne (Option.some.inj hs).symm
      . exact hslots s hs) hsock hhangable h
    exact ⟨⟨_, hq'⟩, (hkeeps₁.trans hkeeps₂).trans hkeeps₃⟩

theorem shutdownEndpoint (hq : Inv q hangable) {peer : Nat} (h : q.shutdownEndpoint i peer = some q')
    : Inv q' hangable ∧ Keeps q q' := by
  unfold EventPoll.shutdownEndpoint at h
  split at h
  . next fd _ hs _ =>
    cases h
    obtain ⟨_, f, hfile, hhangs⟩ := hq.slot _ fd hs
    exact (hq.takeSlot hs).shutdown hfile (hhangs true rfl)
  . cases h

theorem dropSocket (hq : Inv q hangable) (h : q.dropSocket i = some q')
    : Inv q' hangable ∧ Keeps q q' := by
  unfold EventPoll.dropSocket at h
  split at h
  . next hs =>
    cases h
    exact hq.closeSlot hs
  . cases h

/--
The handler of a listener is registered for a clone of its socket, so none is removed with it.
-/
theorem closeListener (hq : Inv q hangable) {s : Slot ι} (h : q.closeListener i s = some q')
    : Inv q' hangable ∧ Keeps q q' := by
  have hclear : ∀ {fd}, q.slots s = some fd → (q.takeSlot i s fd).clearEventByFd i fd = some q' →
      Inv q' hangable ∧ Keeps q q' := by
    intro fd hs hclear
    have hnone : (q.takeSlot i s fd).eventAt fd = none := (hq.slot s fd hs).1
    rw [clearEventByFd_of_none hnone hclear]
    exact ⟨hq.takeSlot hs, .of_eq rfl rfl fun _ _ _ hlists => hlists⟩
  unfold EventPoll.closeListener at h
  split at h
  . next hs => exact hclear hs h
  . next hs => exact hclear hs h
  . cases h

theorem openSocket (hq : Inv q hangable) {s : Slot ι} (h : q.openSocket s fd = some q')
    : (∃ hangable', Inv q' hangable') ∧ Keeps q q' := by
  have hopen : s.hangsUp = some false → ((q.epoll.openAt fd).map fun epoll =>
      { q with epoll, slots := Function.update q.slots s (some fd) }) = some q' →
      (∃ hangable', Inv q' hangable') ∧ Keeps q q' := by
    intro hhangs h
    obtain ⟨epoll, hopen, rfl⟩ := Option.map_eq_some_iff.mp h
    obtain ⟨hq₁, hkeeps, hfile, hevent, hslots⟩ := hq.openAt hopen false
    exact ⟨⟨_, hq₁.setSlot hevent hfile (by simp [hhangs]) hslots⟩, hkeeps⟩
  unfold EventPoll.openSocket at h
  split at h
  . exact hopen rfl h
  . exact hopen rfl h
  . cases h

theorem dropListener (hq : Inv q hangable) {s : Slot ι} (h : q.dropListener s = some q')
    : Inv q' hangable ∧ Keeps q q' := by
  unfold EventPoll.dropListener at h
  split at h
  . next hs =>
    cases h
    exact hq.closeSlot hs
  . next hs =>
    cases h
    exact hq.closeSlot hs
  . cases h

end Inv

section Run

variable [DecidableEq ι] {q q' : EventPoll ι} {ts : List (Transition (EventPoll ι) (Act ι) Empty)}

theorem inv_step {hangable : Nat → Bool} (hq : Inv q hangable) {a : Act ι} (h : q.step a = some q')
    : (∃ hangable', Inv q' hangable') ∧ Keeps q q' := by
  cases a with
  | wait i fd file => exact (hq.wait h).imp (fun hq' => ⟨_, hq'⟩) id
  | dropGuard i => exact (hq.dropGuard h).imp (fun hq' => ⟨_, hq'⟩) id
  | cancel i => exact (hq.cancel h).imp (fun hq' => ⟨_, hq'⟩) id
  | deleteEvent i => exact (hq.deleteEvent h).imp (fun hq' => ⟨_, hq'⟩) id
  | connectEndpoint peer sock clone added => exact hq.connectEndpoint h
  | shutdownEndpoint i peer => exact (hq.shutdownEndpoint h).imp (fun hq' => ⟨_, hq'⟩) id
  | dropSocket i => exact (hq.dropSocket h).imp (fun hq' => ⟨_, hq'⟩) id
  | closeListener i slot => exact (hq.closeListener h).imp (fun hq' => ⟨_, hq'⟩) id
  | openSocket slot fd => exact hq.openSocket h
  | dropListener slot => exact (hq.dropListener h).imp (fun hq' => ⟨_, hq'⟩) id
  | registerUdpHandler slot clone port added =>
    obtain ⟨hq', hkeeps, _⟩ := hq.registerUdpHandler h
    exact ⟨⟨_, hq'⟩, hkeeps⟩
  | register fd handler added => exact hq.register h
  | hangUp fd => exact (hq.hangUp h).imp (fun hq' => ⟨_, hq'⟩) id

theorem step_of_machine {a : Act ι} {os : List Empty} (h : (machine ι).step q a = some (q', os))
    : q.step a = some q' := by
  obtain ⟨q₀, hstep, heq⟩ := Option.map_eq_some_iff.mp h
  cases heq
  exact hstep

theorem inv_of_run (hrun : (machine ι).Run new ts q) : ∃ hangable, Inv q hangable := by
  refine hrun.invariant (fun q => ∃ hangable, Inv q hangable) ⟨_, inv_new⟩ ?_
  rintro q a q' os ⟨hangable, hq⟩ hstep
  exact (inv_step hq (step_of_machine hstep)).1

theorem keeps_of_run {hangable : Nat → Bool} (hq : Inv q hangable) (hrun : (machine ι).Run q ts q')
    : Keeps q q' := by
  obtain ⟨_, hkeeps⟩ := hrun.invariant (fun q' => (∃ hangable, Inv q' hangable) ∧ Keeps q q')
    ⟨⟨_, hq⟩, fun _ _ _ hp he _ => ⟨hp, he, fun hlists => hlists⟩⟩ (by
      rintro q₁ a q₂ os ⟨⟨_, hq₁⟩, hkeeps⟩ hstep
      obtain ⟨hq₂, hkeeps'⟩ := inv_step hq₁ (step_of_machine hstep)
      exact ⟨hq₂, hkeeps.trans hkeeps'⟩)
  exact hkeeps

/--
No thread ever follows a pointer to an event that was dropped, although events are dropped before they
are taken off the interest list: what the system delivers is an event that is registered, and the guard
of a thread refers to one until the thread lets go of it, for which it waits for at most one step of a
thread that has the table locked. Except for notices, no event is handled by two threads at once.
-/
theorem events_alive (hrun : (machine ι).Run new ts q)
    : (∀ i fd file q', q.wait i fd file = some q' →
        ∃ g e, q'.guards i = some g ∧ q'.heap g.event = some e ∧ e.fd = fd)
        ∧
      (∀ i g, q.guards i = some g → ∃ e, q.heap g.event = some e
        ∧ q.eventAt e.fd = some g.event
        ∧ (g.cancels e = false → (q.dropGuard i).isSome = true)
        ∧ (q.deleting = none → g.cancels e = true → (q.cancel i).isSome = true)
        ∧ ∀ j fd, q.deleting = some (j, fd) → ∃ q', q.deleteEvent j = some q'
          ∧ (g.cancels e = true → (q'.cancel i).isSome = true))
        ∧
      ∀ i j g g' e, q.guards i = some g → q.guards j = some g' → g.event = g'.event →
        q.heap g.event = some e → e.handler ≠ .notice → i = j := by
  obtain ⟨hangable, hq⟩ := inv_of_run hrun
  refine ⟨?_, ?_, ?_⟩
  . intro i fd file q' h
    unfold wait at h
    split at h
    . split at h
      . next hwait =>
        obtain ⟨entry, hentry, harmed, _, rfl, _⟩ := Epoll.interest_of_wait hwait
        cases h
        obtain ⟨_, _, e, he, hfd, _⟩ := hq.of_armed hentry harmed
        exact ⟨_, e, Function.update_self .., he, hfd⟩
      . cases h
    . cases h
  . intro i g hg
    obtain ⟨e, he, hp, _⟩ := hq.guard i g hg
    have hcancel : ∀ q' : EventPoll ι, q'.guards = q.guards → q'.heap = q.heap →
        q'.events = q.events → q'.deleting = none → g.cancels e = true →
        (q'.cancel i).isSome = true := by
      intro q' hguards hheap hevents hfree hcancels
      have hp' : q'.eventAt e.fd = some g.event := by
        rw [eventAt, hevents]
        exact hp
      have he' : q'.heap g.event = some e := by
        rw [hheap, he]
      simp [cancel, hguards, hg, he', hcancels, clearEventByFd_of_some hfree hp' he' rfl]
    refine ⟨e, he, hp, ?_, hcancel q rfl rfl rfl, ?_⟩
    . intro hkept
      simp [dropGuard, hg, he, hkept]
    . intro j fd hdeleting
      refine ⟨{ q with epoll := q.epoll.delete fd, deleting := none }, ?_, hcancel _ rfl rfl rfl rfl⟩
      simp [deleteEvent, hdeleting]
  . intro i j g g' e hg hg' hsame he hnotice
    refine hq.exclusive i j g g' e hg hg' hsame he ?_
    cases hhandler : e.handler with
    | notice => exact absurd hhandler hnotice
    | _ => rfl

/--
Thread `j` is told to listen on a port while `i` handles a datagram of a connection. The new socket gets
the descriptor of that connection before it is taken off the interest list, and `k`, which handles the
end of the interface, waits for this.
-/
def roaming (i j k : ι) : List (Act ι) :=
  [.register 3 .apiFd true, .register 6 .iface true, .connectEndpoint 1 4 5 true, .wait i 4 2,
    .wait j 3 0, .shutdownEndpoint j 1, .dropSocket j, .dropGuard i, .wait i 4 2, .cancel i,
    .openSocket .udp4 4, .hangUp 6, .wait k 6 1]

theorem events_alive_roaming
    : ∃ ts q, (machine (Fin 3)).Run new ts q
        ∧
      q.deleting = some (0, 4)
        ∧
      q.epoll.file 4 = some 3
        ∧
      q.guards 1 = some { event := 0, eof := false }
        ∧
      q.guards 2 = some { event := 1, eof := true }
        ∧
      (∀ i fd file q', q.wait i fd file = some q' →
        ∃ g e, q'.guards i = some g ∧ q'.heap g.event = some e ∧ e.fd = fd)
        ∧
      (∀ i g, q.guards i = some g → ∃ e, q.heap g.event = some e
        ∧ q.eventAt e.fd = some g.event
        ∧ (g.cancels e = false → (q.dropGuard i).isSome = true)
        ∧ (q.deleting = none → g.cancels e = true → (q.cancel i).isSome = true)
        ∧ ∀ j fd, q.deleting = some (j, fd) → ∃ q', q.deleteEvent j = some q'
          ∧ (g.cancels e = true → (q'.cancel i).isSome = true))
        ∧
      ∀ i j g g' e, q.guards i = some g → q.guards j = some g' → g.event = g'.event →
        q.heap g.event = some e → e.handler ≠ .notice → i = j := by
  obtain ⟨ts, q, hrun, hq⟩ := Machine.Run.exists_of_exec (machine (Fin 3)) new (roaming 0 1 2)
    (fun _ q => decide (q.deleting = some (0, 4) ∧ q.epoll.file 4 = some 3
      ∧ q.guards 1 = some { event := 0, eof := false }
      ∧ q.guards 2 = some { event := 1, eof := true })) (by decide +kernel)
  obtain ⟨hdeleting, hfile, hguard, hguard'⟩ := of_decide_eq_true hq
  exact ⟨ts, q, hrun, hdeleting, hfile, hguard, hguard', events_alive hrun⟩

/--
Once a handler for datagrams to a port is registered it stays: its descriptor refers to an open file,
and it is either waited for or being handled by a thread. In particular the device goes on to serve the
ports that it listened on before it was told to listen on another one.
-/
theorem listeners_served (hrun : (machine ι).Run new ts q)
    {t : Transition (EventPoll ι) (Act ι) Empty} (ht : t ∈ ts) {slot : Slot ι} {clone : Fd}
    {port : UInt16} (hevent : t.event = .registerUdpHandler slot clone port true)
    : ∃ p f entry, q.eventAt clone = some p
        ∧
      q.heap p = some { fd := clone, handler := .udp port }
        ∧
      q.epoll.file clone = some f
        ∧
      q.epoll.interest clone f = some entry
        ∧
      entry.data = p
        ∧
      (entry.armed = true ∨ ∃ i g, q.guards i = some g ∧ g.event = p) := by
  obtain ⟨before, after, rfl⟩ := List.append_of_mem ht
  obtain ⟨hbefore, hstep, hafter⟩ := hrun.of_append_cons
  rw [hevent] at hstep
  obtain ⟨hangable, hq₀⟩ := inv_of_run hbefore
  obtain ⟨hq₁, _, p, hp, he, hlists⟩ := hq₀.registerUdpHandler (step_of_machine hstep)
  obtain ⟨hp', he', hkept⟩ := keeps_of_run hq₁ hafter clone p _ hp he rfl
  obtain ⟨f, entry, hfile, hentry, hdata⟩ := hkept (hlists rfl)
  obtain ⟨_, hq⟩ := inv_of_run hrun
  obtain ⟨_, f', _, _, hfile', _, hserved⟩ := (hq.registered clone p hp').exists_event
  cases hfile.symm.trans hfile'
  rw [hentry] at hserved
  refine ⟨p, f, entry, hp', he', hfile, hentry, hdata, ?_⟩
  cases hserved with
  | listed _ _ hserved => exact hserved
  | unlisted hunlisted _ => exact absurd hdata (hunlisted entry rfl).2

theorem listeners_served_moved
    : ∃ ts q t, (machine (Fin 2)).Run new ts q
        ∧
      t ∈ ts
        ∧
      t.event = .registerUdpHandler .udp4 8 51820 true
        ∧
      q.slots .udp4 = some 9
        ∧
      ∃ p f entry, q.eventAt 8 = some p
        ∧
      q.heap p = some { fd := 8, handler := .udp 51820 }
        ∧
      q.epoll.file 8 = some f
        ∧
      q.epoll.interest 8 f = some entry
        ∧
      entry.data = p
        ∧
      (entry.armed = true ∨ ∃ i g, q.guards i = some g ∧ g.event = p) := by
  obtain ⟨ts, q, hrun, hq⟩ := Machine.Run.exists_of_exec (machine (Fin 2)) new
    [.register 3 .api true, .openSocket .udp4 7, .registerUdpHandler .udp4 8 51820 true,
      .closeListener 0 .udp4, .dropSocket 0, .openSocket .udp4 9,
      .registerUdpHandler .udp4 7 51821 true]
    (fun ts q => (ts.any fun t => t.event = .registerUdpHandler .udp4 8 51820 true)
      && decide (q.slots .udp4 = some 9)) (by decide +kernel)
  obtain ⟨hany, hslot⟩ := Bool.and_eq_true_iff.mp hq
  obtain ⟨t, ht, hevent⟩ := List.any_eq_true.mp hany
  have hevent := of_decide_eq_true hevent
  exact ⟨ts, q, t, hrun, ht, hevent, of_decide_eq_true hslot, listeners_served hrun ht hevent⟩

end Run

end EventPoll

end Device
