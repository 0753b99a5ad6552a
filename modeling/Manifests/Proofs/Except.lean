import Mathlib.Data.List.Forall2

/-! # Steps that can fail

What a sequence of steps gives is taken apart at its steps: it gives a value if each step does, and else the error
of the first step that fails. -/

namespace Manifests

variable {ε ε' α β : Type}

theorem bind_eq_ok_iff {x : Except ε α} {f : α → Except ε β} {b : β} :
    x >>= f = .ok b ↔ ∃ a, x = .ok a ∧ f a = .ok b := by
  cases x <;> simp [bind, Except.bind]

theorem bind_eq_error_iff {x : Except ε α} {f : α → Except ε β} {e : ε} :
    x >>= f = .error e ↔ x = .error e ∨ ∃ a, x = .ok a ∧ f a = .error e := by
  cases x <;> simp [bind, Except.bind]

theorem map_eq_ok_iff {x : Except ε α} {f : α → β} {b : β} : x.map f = .ok b ↔ ∃ a, x = .ok a ∧ f a = b := by
  cases x <;> simp [Except.map]

theorem map_eq_error_iff {x : Except ε α} {f : α → β} {e : ε} : x.map f = .error e ↔ x = .error e := by
  cases x <;> simp [Except.map]

theorem isOk_bind {x : Except ε α} {f : α → Except ε β} :
    (∃ b, x >>= f = .ok b) ↔ ∃ a, x = .ok a ∧ ∃ b, f a = .ok b := by
  cases x <;> simp [bind, Except.bind]

theorem isOk_map {x : Except ε α} {f : α → β} : (∃ b, x.map f = .ok b) ↔ ∃ a, x = .ok a := by
  cases x <;> simp [Except.map]

@[simp] theorem isOk_pure {a : α} : ∃ b, (pure a : Except ε α) = .ok b := ⟨a, rfl⟩

/-- A value is changed in the last step. -/
theorem except_map_bind {γ : Type} {x : Except ε α} {f : α → Except ε β} {g : β → γ} :
    (x >>= f).map g = x >>= fun a => (f a).map g := by
  cases x <;> rfl

theorem mapError_eq_ok_iff {x : Except ε α} {f : ε → ε'} {a : α} : x.mapError f = .ok a ↔ x = .ok a := by
  cases x with
  | ok b =>
    constructor
    · intro h
      rw [Except.ok.inj h]
    · rintro ⟨⟩
      rfl
  | error e => exact ⟨(fun h => by cases h), fun h => by cases h⟩

theorem mapError_eq_error_iff {x : Except ε α} {f : ε → ε'} {e : ε'} :
    x.mapError f = .error e ↔ ∃ e', x = .error e' ∧ f e' = e := by
  cases x with
  | ok b => exact ⟨(fun h => by cases h), fun ⟨_, h, _⟩ => by cases h⟩
  | error e' =>
    constructor
    · intro h
      exact ⟨e', rfl, Except.error.inj h⟩
    · rintro ⟨_, h, rfl⟩
      cases h
      rfl

theorem pure_eq_ok_iff {a b : α} : (pure a : Except ε α) = .ok b ↔ a = b :=
  ⟨fun h => by cases h; rfl, fun h => by rw [h]; rfl⟩

@[simp] theorem throw_ne_ok {e : ε} {a : α} : (throw e : Except ε α) ≠ .ok a := fun h => by cases h

theorem pure_ne_error {a : α} {e : ε} : (pure a : Except ε α) ≠ .error e := fun h => by cases h

/-! ### One step for each value -/

theorem mapM_eq_ok_iff {f : α → Except ε β} {as : List α} {bs : List β} :
    as.mapM f = .ok bs ↔ List.Forall₂ (fun a b => f a = .ok b) as bs := by
  induction as generalizing bs with
  | nil => rw [List.mapM_nil, pure_eq_ok_iff, List.forall₂_nil_left_iff, eq_comm]
  | cons a as ih =>
    simp only [List.mapM_cons, bind_eq_ok_iff, pure_eq_ok_iff, ih, List.forall₂_cons_left_iff]
    constructor
    · rintro ⟨b, hb, bs, hbs, rfl⟩
      exact ⟨b, bs, hb, hbs, rfl⟩
    · rintro ⟨b, bs, hb, hbs, rfl⟩
      exact ⟨b, hb, bs, hbs, rfl⟩

theorem option_mapM_eq_ok_iff {f : α → Except ε β} {a : Option α} {b : Option β} :
    a.mapM f = .ok b ↔ Option.Rel (fun a b => f a = .ok b) a b := by
  cases a with
  | none =>
    refine Iff.trans pure_eq_ok_iff ⟨?_, ?_⟩
    · rintro rfl
      exact .none
    · rintro ⟨⟩
      rfl
  | some a =>
    refine Iff.trans map_eq_ok_iff ⟨?_, ?_⟩
    · rintro ⟨b, hb, rfl⟩
      exact .some hb
    · rintro ⟨⟩
      exact ⟨_, ‹_›, rfl⟩

/-! ### What steps keep -/

/-- What holds from each step to the next holds from the first to the last, and what each step reaches stays. -/
theorem foldlM_related {f : β → α → Except ε β} {R : β → β → Prop} {Q : β → α → Prop} (hrefl : ∀ b, R b b)
    (htrans : ∀ {b₁ b₂ b₃}, R b₁ b₂ → R b₂ b₃ → R b₁ b₃) (hkeep : ∀ {b b' a}, R b b' → Q b a → Q b' a)
    (hstep : ∀ {b a b'}, f b a = .ok b' → R b b' ∧ Q b' a) {as : List α} {b b' : β} (h : as.foldlM f b = .ok b') :
    R b b' ∧ ∀ a ∈ as, Q b' a := by
  induction as generalizing b with
  | nil =>
    cases h
    exact ⟨hrefl _, by simp⟩
  | cons a as ih =>
    rw [List.foldlM_cons, bind_eq_ok_iff] at h
    obtain ⟨next, hnext, h⟩ := h
    obtain ⟨hfirst, hreached⟩ := hstep hnext
    obtain ⟨hrest, hall⟩ := ih h
    exact ⟨htrans hfirst hrest, List.forall_mem_cons.mpr ⟨hkeep hrest hreached, hall⟩⟩

/-! ### Steps in another order -/

/-- Two steps give the same value in either order, if they give one. -/
def Exchange (f : β → α → Except ε β) (a a' : α) : Prop :=
  ∀ b b', f b a >>= (f · a') = .ok b' ↔ f b a' >>= (f · a) = .ok b'

theorem Exchange.symm {f : β → α → Except ε β} {a a' : α} (h : Exchange f a a') : Exchange f a' a :=
  fun b b' => (h b b').symm

/-- Steps of which any two may be exchanged give the same value in any order. -/
theorem foldlM_eq_ok_of_perm {f : β → α → Except ε β} {as as' : List α} {b b' : β} (hperm : as.Perm as')
    (hexchange : as.Pairwise (Exchange f)) (h : as.foldlM f b = .ok b') : as'.foldlM f b = .ok b' := by
  induction hperm generalizing b with
  | nil => exact h
  | cons a _ ih =>
    rw [List.foldlM_cons] at h ⊢
    obtain ⟨b₁, hb₁, h⟩ := bind_eq_ok_iff.mp h
    exact bind_eq_ok_iff.mpr ⟨b₁, hb₁, ih (List.pairwise_cons.mp hexchange).2 h⟩
  | swap a a' as =>
    have hfirst : Exchange f a' a := (List.pairwise_cons.mp hexchange).1 a List.mem_cons_self
    simp only [List.foldlM_cons, ← bind_assoc] at h ⊢
    obtain ⟨b₂, hb₂, h⟩ := bind_eq_ok_iff.mp h
    exact bind_eq_ok_iff.mpr ⟨b₂, (hfirst b b₂).mp hb₂, h⟩
  | trans hfirst _ ih ih' => exact ih' ((hfirst.pairwise_iff Exchange.symm).mp hexchange) (ih hexchange h)

/-- A step that may be exchanged with each of several steps can be taken before all of them. -/
theorem foldlM_bind_eq_ok_iff {f : β → α → Except ε β} {g : β → Except ε β} {as : List α}
    (h : ∀ a ∈ as, ∀ b b', f b a >>= g = .ok b' ↔ g b >>= (f · a) = .ok b') {b b' : β} :
    as.foldlM f b >>= g = .ok b' ↔ (g b >>= fun b₁ => as.foldlM f b₁) = .ok b' := by
  induction as generalizing b with
  | nil => simp
  | cons a as ih =>
    obtain ⟨hhead, htail⟩ := List.forall_mem_cons.mp h
    calc (a :: as).foldlM f b >>= g = .ok b'
      _ ↔ ∃ b₁, f b a = .ok b₁ ∧ as.foldlM f b₁ >>= g = .ok b' := by
          rw [List.foldlM_cons, bind_assoc, bind_eq_ok_iff]
      _ ↔ ∃ b₁, f b a = .ok b₁ ∧ (g b₁ >>= fun b₂ => as.foldlM f b₂) = .ok b' := by simp only [ih htail]
      _ ↔ ∃ b₂, f b a >>= g = .ok b₂ ∧ as.foldlM f b₂ = .ok b' := by
          rw [← bind_eq_ok_iff, ← bind_assoc, bind_eq_ok_iff]
      _ ↔ ∃ b₂, g b >>= (f · a) = .ok b₂ ∧ as.foldlM f b₂ = .ok b' := by simp only [hhead]
      _ ↔ (g b >>= fun b₁ => (a :: as).foldlM f b₁) = .ok b' := by
          rw [← bind_eq_ok_iff, bind_assoc]
          simp only [List.foldlM_cons]

/-- A step can stand in for another that gives the same value. -/
theorem foldlM_eq_ok_of_replace {f : β → α → Except ε β} {a a' : α} {before after : List α} {b b' : β}
    (hstep : ∀ b b', f b a = .ok b' → f b a' = .ok b') (h : (before ++ a :: after).foldlM f b = .ok b') :
    (before ++ a' :: after).foldlM f b = .ok b' := by
  rw [List.foldlM_append] at h ⊢
  obtain ⟨b₁, hb₁, h⟩ := bind_eq_ok_iff.mp h
  refine bind_eq_ok_iff.mpr ⟨b₁, hb₁, ?_⟩
  rw [List.foldlM_cons] at h ⊢
  obtain ⟨b₂, hb₂, h⟩ := bind_eq_ok_iff.mp h
  exact bind_eq_ok_iff.mpr ⟨b₂, hstep b₁ b₂ hb₂, h⟩

theorem foldlM_replace_eq_ok_iff {f : β → α → Except ε β} {a a' : α} {before after : List α} {b b' : β}
    (hstep : ∀ b b', f b a = .ok b' ↔ f b a' = .ok b') :
    (before ++ a :: after).foldlM f b = .ok b' ↔ (before ++ a' :: after).foldlM f b = .ok b' :=
  ⟨foldlM_eq_ok_of_replace fun b b' => (hstep b b').mp, foldlM_eq_ok_of_replace fun b b' => (hstep b b').mpr⟩

/-! ### Steps that run in no other monad -/

theorem run_bind (x : ExceptT ε Id α) (f : α → ExceptT ε Id β) :
    (x >>= f).run.run = x.run.run >>= fun a => (f a).run.run := by
  change Except ε α at x
  cases x <;> rfl

theorem run_foldlM (f : β → α → ExceptT ε Id β) (b : β) (as : List α) :
    (as.foldlM f b).run.run = as.foldlM (fun b a => (f b a).run.run) b := by
  induction as generalizing b with
  | nil => rfl
  | cons a as ih =>
    rw [List.foldlM_cons, List.foldlM_cons, run_bind]
    congr
    funext b
    exact ih b

end Manifests
