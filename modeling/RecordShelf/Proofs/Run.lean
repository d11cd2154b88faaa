import Mathlib.Logic.Relation
import RecordShelf.Error

/-!
# Running actions

An action that can fail gives a result and a state, and keeps what it changed before it failed. A
sequence of two stops at the first failure. What an action does to the state is a sequence of single
steps, so what every step keeps every action keeps.
-/

namespace RecordShelf
variable {σ α β ε : Type}

theorem ok_bind (a : α) (f : α → Except ε β) : (Except.ok a >>= f) = f a := rfl

theorem error_bind (e : ε) (f : α → Except ε β) : (Except.error e >>= f) = .error e := rfl

theorem throw_eq_error (e : ε) : (throw e : Except ε α) = .error e := rfl

theorem ok_of_bind {x : Except ε α} {f : α → Except ε β} {b : β} (h : (x >>= f) = .ok b) :
    ∃ a, x = .ok a ∧ f a = .ok b := by
  cases x with
  | error e => exact absurd h (by simp [error_bind])
  | ok a => exact ⟨a, rfl, h⟩

theorem error_of_bind {x : Except ε α} {f : α → Except ε β} {e : ε} (h : (x >>= f) = .error e) :
    x = .error e ∨ ∃ a, x = .ok a ∧ f a = .error e := by
  cases x with
  | error e' => exact .inl (congrArg Except.error (Except.error.inj h))
  | ok a => exact .inr ⟨a, rfl, h⟩

theorem ok_of_map {x : Except ε α} {f : α → β} {b : β} (h : f <$> x = .ok b) :
    ∃ a, x = .ok a ∧ f a = b := by
  cases x with
  | error e => exact absurd h (by simp [Functor.map, Except.map])
  | ok a => exact ⟨a, rfl, Except.ok.inj h⟩

instance instDecidableEqExcept [DecidableEq ε] [DecidableEq α] : DecidableEq (Except ε α)
  | .ok a, .ok b => decidable_of_iff (a = b) (by simp)
  | .error a, .error b => decidable_of_iff (a = b) (by simp)
  | .ok _, .error _ => isFalse (by simp)
  | .error _, .ok _ => isFalse (by simp)

section
variable {act : ExceptT ε (StateM σ) α} {f : α → ExceptT ε (StateM σ) β} {s s' : σ}

theorem run_bind_of_ok {a : α} (h : act.run s = (.ok a, s')) :
    (act >>= f).run s = (f a).run s' := by
  have hrun : (act >>= f).run s = (ExceptT.bindCont f (act.run s).1).run (act.run s).2 := rfl
  rw [hrun, h]
  rfl

theorem run_bind_of_error {e : ε} (h : act.run s = (.error e, s')) :
    (act >>= f).run s = (.error e, s') := by
  have hrun : (act >>= f).run s = (ExceptT.bindCont f (act.run s).1).run (act.run s).2 := rfl
  rw [hrun, h]
  rfl

/-- A sequence succeeds only when both of its parts do. -/
theorem run_bind_ok {b : β} (h : (act >>= f).run s = (.ok b, s')) :
    ∃ a s₁, act.run s = (.ok a, s₁) ∧ (f a).run s₁ = (.ok b, s') := by
  cases hact : act.run s with
  | mk result s₁ =>
    cases result with
    | error e =>
      rw [run_bind_of_error hact] at h
      exact absurd (Prod.mk.inj h).1 (by simp)
    | ok a =>
      rw [run_bind_of_ok hact] at h
      exact ⟨a, s₁, rfl, h⟩

theorem run_map_eq (act : ExceptT ε (StateM σ) α) (f : α → β) (s : σ) :
    (do return f (← act)).run s = ((act.run s).1.map f, (act.run s).2) := by
  cases hact : act.run s with
  | mk result s₁ =>
    cases result with
    | ok a => rw [run_bind_of_ok hact]; rfl
    | error e => rw [run_bind_of_error hact]; rfl

theorem run_map (act : ExceptT ε (StateM σ) α) (f : α → β) (s : σ) :
    ((do return f (← act)).run s).1 = (act.run s).1.map f := by
  rw [run_map_eq]

/-! ## Steps -/

/-- An action changes the state by single steps, whether it fails or not. -/
def Moves (step : σ → σ → Prop) (act : ExceptT ε (StateM σ) α) : Prop :=
  ∀ s, Relation.ReflTransGen step s (act.run s).2

namespace Moves
variable {step : σ → σ → Prop}

theorem pure (a : α) : Moves step (Pure.pure a : ExceptT ε (StateM σ) α) := fun _ => .refl

theorem throw (e : ε) : Moves step (MonadExcept.throw e : ExceptT ε (StateM σ) α) := fun _ => .refl

/-- What follows a part may use how that part has run. -/
theorem bind_at (h : Relation.ReflTransGen step s (act.run s).2)
    (hf : ∀ a s', act.run s = (.ok a, s') → Relation.ReflTransGen step s' ((f a).run s').2) :
    Relation.ReflTransGen step s ((act >>= f).run s).2 := by
  cases hrun : act.run s with
  | mk result s₁ =>
    rw [hrun] at h
    cases result with
    | error e => rw [run_bind_of_error hrun]; exact h
    | ok a => rw [run_bind_of_ok hrun]; exact h.trans (hf a s₁ hrun)

theorem bind (h : Moves step act) (hf : ∀ a, Moves step (f a)) : Moves step (act >>= f) :=
  fun s => bind_at (h s) fun a s' _ => hf a s'

/-- What follows a look at the state may use that nothing has changed since. -/
theorem get_bind {f : σ → ExceptT ε (StateM σ) β}
    (hf : ∀ s, Relation.ReflTransGen step s ((f s).run s).2) : Moves step (getThe σ >>= f) := hf

theorem ite {c : Prop} [Decidable c] {first second : ExceptT ε (StateM σ) α}
    (hfirst : Moves step first) (hsecond : Moves step second) :
    Moves step (if c then first else second) := by
  by_cases hc : c
  · rw [if_pos hc]; exact hfirst
  · rw [if_neg hc]; exact hsecond

theorem forM {act : α → ExceptT ε (StateM σ) PUnit} (h : ∀ a, Moves step (act a)) (as : List α) :
    Moves step (as.forM act) := by
  induction as with
  | nil => exact pure _
  | cons a as ih => exact bind (h a) fun _ => ih

/-- What every step keeps every action keeps. -/
theorem keeps (h : Moves step act) {P : σ → Prop} (hstep : ∀ s s', step s s' → P s → P s') {s : σ}
    (hs : P s) : P (act.run s).2 := by
  have hmoves := h s
  generalize (act.run s).2 = s' at hmoves ⊢
  induction hmoves with
  | refl => exact hs
  | tail _ hlast ih => exact hstep _ _ hlast ih

end Moves

/-! ## Errors and results -/

/-- Every error that an action can end with is of one kind. -/
def Raises (kind : ε → Prop) (act : ExceptT ε (StateM σ) α) : Prop :=
  ∀ s e s', act.run s = (.error e, s') → kind e

namespace Raises
variable {kind : ε → Prop}

theorem pure (a : α) : Raises kind (Pure.pure a : ExceptT ε (StateM σ) α) :=
  fun _ _ _ h => absurd (Prod.mk.inj h).1 (by simp)

theorem get : Raises kind (getThe σ : ExceptT ε (StateM σ) σ) :=
  fun _ _ _ h => absurd (Prod.mk.inj h).1 (by simp)

theorem throw {e : ε} (h : kind e) :
    Raises kind (MonadExcept.throw e : ExceptT ε (StateM σ) α) := by
  intro s e' s' hrun
  obtain rfl := Except.error.inj (Prod.mk.inj hrun).1
  exact h

theorem mono {kind' : ε → Prop} (h : Raises kind act) (hkind : ∀ e, kind e → kind' e) :
    Raises kind' act :=
  fun s e s' hrun => hkind e (h s e s' hrun)

theorem bind (h : Raises kind act) (hf : ∀ a, Raises kind (f a)) : Raises kind (act >>= f) := by
  intro s e s' hrun
  cases hact : act.run s with
  | mk result s₁ =>
    cases result with
    | error e₁ =>
      rw [run_bind_of_error hact] at hrun
      obtain rfl := Except.error.inj (Prod.mk.inj hrun).1
      exact h s e₁ s₁ hact
    | ok a =>
      rw [run_bind_of_ok hact] at hrun
      exact hf a s₁ e s' hrun

end Raises

/-- An action that succeeds has a value with a property, and one that fails an error of one kind. -/
structure Gives (p : α → Prop) (kind : ε → Prop) (act : ExceptT ε (StateM σ) α) : Prop where
  value : ∀ s a s', act.run s = (.ok a, s') → p a
  error : Raises kind act

namespace Gives
variable {p : α → Prop} {q : β → Prop} {kind : ε → Prop}

theorem pure {a : α} (h : p a) : Gives p kind (Pure.pure a : ExceptT ε (StateM σ) α) := by
  refine ⟨fun s a' s' hrun => ?_, .pure a⟩
  obtain rfl := Except.ok.inj (Prod.mk.inj hrun).1
  exact h

theorem throw {e : ε} (h : kind e) :
    Gives p kind (MonadExcept.throw e : ExceptT ε (StateM σ) α) :=
  ⟨fun _ _ _ hrun => absurd (Prod.mk.inj hrun).1 (by simp), .throw h⟩

theorem bind (h : Raises kind act) (hf : ∀ a, Gives q kind (f a)) : Gives q kind (act >>= f) := by
  refine ⟨fun s b s' hrun => ?_, h.bind fun a => (hf a).error⟩
  obtain ⟨a, s₁, -, hb⟩ := run_bind_ok hrun
  exact (hf a).value s₁ b s' hb

end Gives

/-- An action that fails does so with an error of one kind, or with an error of another kind and no
change of the state. -/
def Spares (kind refusal : ε → Prop) (act : ExceptT ε (StateM σ) α) (s : σ) : Prop :=
  ∀ e s', act.run s = (.error e, s') → kind e ∨ refusal e ∧ s' = s

namespace Spares
variable {kind refusal : ε → Prop}

theorem of_raises (h : Raises kind act) (s : σ) : Spares kind refusal act s :=
  fun e s' hrun => .inl (h s e s' hrun)

theorem pure (a : α) (s : σ) :
    Spares kind refusal (Pure.pure a : ExceptT ε (StateM σ) α) s :=
  of_raises (.pure a) s

theorem throw {e : ε} (h : refusal e) (s : σ) :
    Spares kind refusal (MonadExcept.throw e : ExceptT ε (StateM σ) α) s := by
  intro e' s' hrun
  obtain ⟨rfl, rfl⟩ : e = e' ∧ s = s' := by
    cases hrun
    exact ⟨rfl, rfl⟩
  exact .inr ⟨h, rfl⟩

/-- The first part has changed nothing, or what follows fails with errors of the one kind only. -/
theorem bind (h : Spares kind refusal act s)
    (hf : ∀ a s', act.run s = (.ok a, s') →
      (s' = s ∧ Spares kind refusal (f a) s) ∨ Raises kind (f a)) :
    Spares kind refusal (act >>= f) s := by
  intro e s' hrun
  cases hact : act.run s with
  | mk result s₁ =>
    cases result with
    | error e₁ =>
      rw [run_bind_of_error hact] at hrun
      obtain ⟨rfl, rfl⟩ : e₁ = e ∧ s₁ = s' := by
        cases hrun
        exact ⟨rfl, rfl⟩
      exact h e₁ s₁ hact
    | ok a =>
      rw [run_bind_of_ok hact] at hrun
      rcases hf a s₁ hact with ⟨rfl, hspares⟩ | hraises
      · exact hspares e s' hrun
      · exact .inl (hraises s₁ e s' hrun)

end Spares

end

end RecordShelf
