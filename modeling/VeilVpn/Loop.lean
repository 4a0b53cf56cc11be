import Mathlib.Logic.Function.Iterate

/-!
This module contains loops with a bound on the number of their iterations, and computations that stop
at the first failure.
-/

/--
Run `body` as long as `cond` holds, at most `fuel` times.
-/
def whileLoop {σ : Type} (cond : σ → Bool) (body : σ → σ) : Nat → σ → σ
  | 0, s => s
  | fuel + 1, s => if cond s then whileLoop cond body fuel (body s) else s

/--
A loop ends where its condition fails, and what its body preserves holds there.
-/
theorem whileLoop_spec {σ : Type} {cond : σ → Bool} {body : σ → σ} (I : σ → Prop)
    (measure : σ → Nat)
    (hbody : ∀ s, I s → cond s = true → I (body s) ∧ measure (body s) < measure s)
    {fuel : Nat} {s : σ} (hfuel : measure s ≤ fuel) (hs : I s)
    : I (whileLoop cond body fuel s) ∧ cond (whileLoop cond body fuel s) = false := by
  induction fuel generalizing s with
  | zero =>
    refine ⟨hs, ?_⟩
    rw [whileLoop, Bool.eq_false_iff]
    intro hcond
    have hlt := (hbody s hs hcond).2
    omega
  | succ fuel ih =>
    rw [whileLoop]
    split
    . next hcond =>
      obtain ⟨hs', hlt⟩ := hbody s hs hcond
      exact ih (by omega) hs'
    . next hcond => exact ⟨hs, Bool.eq_false_iff.mpr hcond⟩

theorem whileLoop_eq_iterate {σ : Type} {cond : σ → Bool} {body : σ → σ} {s : σ} {k fuel : Nat}
    (hrounds : ∀ j < k, cond (body^[j] s) = true) (hend : cond (body^[k] s) = false)
    (hfuel : k ≤ fuel)
    : whileLoop cond body fuel s = body^[k] s := by
  induction fuel generalizing s k with
  | zero =>
    have hzero : k = 0 := by omega
    rw [hzero]
    rfl
  | succ fuel ih =>
    cases k with
    | zero =>
      rw [Function.iterate_zero_apply] at hend ⊢
      rw [whileLoop, hend]
      rfl
    | succ k =>
      have hfirst : cond s = true := hrounds 0 (by omega)
      rw [Function.iterate_succ_apply] at hend ⊢
      rw [whileLoop, if_pos hfirst]
      apply ih _ hend (by omega)
      intro j hj
      rw [← Function.iterate_succ_apply]
      exact hrounds (j + 1) (by omega)

/--
A loop whose condition and body can fail.
-/
def whileLoopM {σ : Type} (cond : σ → Option Bool) (body : σ → Option σ) : Nat → σ → Option σ
  | 0, s => some s
  | fuel + 1, s =>
    match cond s with
    | none => none
    | some false => some s
    | some true =>
      match body s with
      | none => none
      | some s' => whileLoopM cond body fuel s'

theorem whileLoopM_eq_some {σ : Type} {cond : σ → Bool} {body : σ → σ} {condM : σ → Option Bool}
    {bodyM : σ → Option σ} (I : σ → Prop) (hcond : ∀ s, I s → condM s = some (cond s))
    (hbody : ∀ s, I s → cond s = true → bodyM s = some (body s) ∧ I (body s))
    (fuel : Nat) {s : σ} (hs : I s)
    : whileLoopM condM bodyM fuel s = some (whileLoop cond body fuel s)
        ∧
      I (whileLoop cond body fuel s) := by
  induction fuel generalizing s with
  | zero => exact ⟨rfl, hs⟩
  | succ fuel ih =>
    rw [whileLoopM, whileLoop, hcond s hs]
    cases htrue : cond s with
    | false => exact ⟨rfl, hs⟩
    | true =>
      obtain ⟨heq, hs'⟩ := hbody s hs htrue
      simp only [heq, if_true]
      exact ih hs'

theorem forall_mem_bind {α β : Type} {x : Option α} {f : α → Option β} {Q : β → Prop}
    (h : ∀ a ∈ x, ∀ b ∈ f a, Q b)
    : ∀ b ∈ x >>= f, Q b := by
  intro b hb
  obtain ⟨a, ha, hb⟩ := Option.bind_eq_some_iff.mp hb
  exact h a ha b hb

theorem forall_mem_pure {β : Type} {b : β} {Q : β → Prop} (h : Q b)
    : ∀ b' ∈ (pure b : Option β), Q b' := by
  rintro b' ⟨⟩
  exact h

theorem isSome_bind_of_forall {α β : Type} {x : Option α} {f : α → Option β} (hx : x.isSome)
    (h : ∀ a ∈ x, (f a).isSome)
    : (x >>= f).isSome := by
  obtain ⟨a, ha⟩ := Option.isSome_iff_exists.mp hx
  rw [ha, Option.bind_eq_bind, Option.bind_some]
  exact h a ha

section MapM

variable {α β γ : Type} {f : α → Option β} {l : List α} {l' : List β}

theorem exists_mapM_eq_some (h : ∀ a ∈ l, (f a).isSome) : ∃ l', l.mapM f = some l' := by
  induction l with
  | nil => exact ⟨[], rfl⟩
  | cons a l ih =>
    obtain ⟨b, hb⟩ := Option.isSome_iff_exists.mp (h a List.mem_cons_self)
    obtain ⟨l', hl'⟩ := ih fun a ha => h a (List.mem_cons_of_mem _ ha)
    exact ⟨b :: l', by simp [List.mapM_cons, hb, hl']⟩

theorem cons_mapM_eq_some {a : α} (h : (a :: l).mapM f = some l')
    : ∃ b bs, f a = some b ∧ l.mapM f = some bs ∧ l' = b :: bs := by
  simp only [List.mapM_cons, Option.bind_eq_bind, Option.bind_eq_some_iff, Option.pure_def,
    Option.some.injEq] at h
  obtain ⟨b, hb, bs, hbs, rfl⟩ := h
  exact ⟨b, bs, hb, hbs, rfl⟩

theorem exists_mem_of_mapM (h : l.mapM f = some l') {a : α} (ha : a ∈ l)
    : ∃ b ∈ l', f a = some b := by
  induction l generalizing l' with
  | nil => simp at ha
  | cons a' l ih =>
    obtain ⟨b, bs, hb, hbs, rfl⟩ := cons_mapM_eq_some h
    rcases List.mem_cons.mp ha with rfl | ha
    . exact ⟨b, List.mem_cons_self, hb⟩
    . obtain ⟨b', hmem, hb'⟩ := ih hbs ha
      exact ⟨b', List.mem_cons_of_mem _ hmem, hb'⟩

theorem exists_of_mem_mapM (h : l.mapM f = some l') {b : β} (hb : b ∈ l')
    : ∃ a ∈ l, f a = some b := by
  induction l generalizing l' with
  | nil =>
    cases h
    simp at hb
  | cons a l ih =>
    obtain ⟨b', bs, hb', hbs, rfl⟩ := cons_mapM_eq_some h
    rcases List.mem_cons.mp hb with rfl | hb
    . exact ⟨a, List.mem_cons_self, hb'⟩
    . obtain ⟨a', hmem, ha'⟩ := ih hbs hb
      exact ⟨a', List.mem_cons_of_mem _ hmem, ha'⟩

theorem map_eq_map_of_mapM {g : β → γ} {g' : α → γ} (hg : ∀ a b, f a = some b → g b = g' a)
    (h : l.mapM f = some l')
    : l'.map g = l.map g' := by
  induction l generalizing l' with
  | nil =>
    cases h
    rfl
  | cons a l ih =>
    obtain ⟨b, bs, hb, hbs, rfl⟩ := cons_mapM_eq_some h
    rw [List.map_cons, List.map_cons, hg a b hb, ih hbs]

end MapM
