import Mathlib.Logic.Basic

/-!
# Computations with a state and failures

`Eff ε σ α` is a computation over the state `σ` that returns an `α` or fails
with an `ε`. A failure does not undo anything: the state reached so far is part
of the outcome, as it is for an exception thrown in the middle of a method that
has already changed its object.

Two families of rules are provided. The inversion rules take a successful or a
failing sequence apart. `Keeps R x` says that whatever the outcome of `x`, the
state before and the state after are related by `R`; it is closed under
sequencing as soon as `R` is reflexive and transitive, so a property of whole
computations follows from the property of their primitive steps.
-/

/-- A computation over the state `σ` with failures in `ε`. -/
def Eff (ε σ α : Type) : Type := σ → Except ε α × σ

namespace Eff

variable {ε σ α β : Type}

def ret (a : α) : Eff ε σ α := fun s => (.ok a, s)

/-- Run `x`, then `f` on its value; a failure of `x` is final. -/
def andThen (x : Eff ε σ α) (f : α → Eff ε σ β) : Eff ε σ β := fun s =>
  match x s with
  | (.ok a, s') => f a s'
  | (.error e, s') => (.error e, s')

instance : Monad (Eff ε σ) where
  pure := ret
  bind := andThen

def fail (e : ε) : Eff ε σ α := fun s => (.error e, s)

def getState : Eff ε σ σ := fun s => (.ok s, s)

def modifyState (f : σ → σ) : Eff ε σ Unit := fun s => (.ok (), f s)

def ofExcept (x : Except ε α) : Eff ε σ α := fun s => (x, s)

@[simp] theorem pure_apply (a : α) (s : σ) :
    (pure a : Eff ε σ α) s = (.ok a, s) := rfl

@[simp] theorem fail_apply (e : ε) (s : σ) :
    (fail e : Eff ε σ α) s = (.error e, s) := rfl

@[simp] theorem getState_apply (s : σ) :
    (getState : Eff ε σ σ) s = (.ok s, s) := rfl

@[simp] theorem modifyState_apply (f : σ → σ) (s : σ) :
    (modifyState f : Eff ε σ Unit) s = (.ok (), f s) := rfl

@[simp] theorem ofExcept_apply (x : Except ε α) (s : σ) :
    (ofExcept x : Eff ε σ α) s = (x, s) := rfl

theorem bind_apply (x : Eff ε σ α) (f : α → Eff ε σ β) (s : σ) :
    (x >>= f) s = match x s with
      | (.ok a, s') => f a s'
      | (.error e, s') => (.error e, s') := rfl

theorem bind_of_ok {x : Eff ε σ α} {s s' : σ} {a : α} (h : x s = (.ok a, s'))
    (f : α → Eff ε σ β) : (x >>= f) s = f a s' := by
  rw [bind_apply, h]

theorem bind_of_error {x : Eff ε σ α} {s s' : σ} {e : ε} (h : x s = (.error e, s'))
    (f : α → Eff ε σ β) : (x >>= f) s = (.error e, s') := by
  rw [bind_apply, h]

/-- A sequence succeeds exactly when both its parts do. -/
theorem bind_eq_ok_iff {x : Eff ε σ α} {f : α → Eff ε σ β} {s s' : σ} {b : β} :
    (x >>= f) s = (.ok b, s') ↔
      ∃ a t, x s = (.ok a, t) ∧ f a t = (.ok b, s') := by
  constructor
  · intro h
    rcases hx : x s with ⟨_ | a, t⟩
    · rw [bind_of_error hx] at h
      cases h
    · rw [bind_of_ok hx] at h
      exact ⟨a, t, rfl, h⟩
  · rintro ⟨a, t, hx, hf⟩
    rw [bind_of_ok hx, hf]

theorem bind_assoc {γ : Type} (x : Eff ε σ α) (f : α → Eff ε σ β) (g : β → Eff ε σ γ) :
    (x >>= f) >>= g = x >>= fun a => f a >>= g := by
  funext s
  rw [bind_apply, bind_apply, bind_apply]
  rcases x s with ⟨_ | a, t⟩
  · rfl
  · rfl

theorem ok_inj {a b : α} {s s' : σ} (h : ((.ok a, s) : Except ε α × σ) = (.ok b, s')) :
    a = b ∧ s = s' := by
  cases h
  exact ⟨rfl, rfl⟩

theorem ok_bind (a : α) (f : α → Except ε β) : (Except.ok a >>= f) = f a := rfl

theorem except_bind_eq_ok_iff {x : Except ε α} {f : α → Except ε β} {b : β} :
    (x >>= f) = .ok b ↔ ∃ a, x = .ok a ∧ f a = .ok b := by
  constructor
  · intro h
    cases x with
    | error e => cases h
    | ok a => exact ⟨a, rfl, h⟩
  · rintro ⟨a, rfl, h⟩
    exact h

/-- Whatever the outcome of `x`, the states before and after are related. -/
def Keeps (R : σ → σ → Prop) (x : Eff ε σ α) : Prop :=
  ∀ s, R s (x s).2

namespace Keeps

variable {R : σ → σ → Prop}

theorem pure (hrefl : ∀ s, R s s) (a : α) : Keeps R (Pure.pure a : Eff ε σ α) :=
  fun s => hrefl s

theorem fail (hrefl : ∀ s, R s s) (e : ε) : Keeps R (Eff.fail e : Eff ε σ α) :=
  fun s => hrefl s

theorem getState (hrefl : ∀ s, R s s) : Keeps R (Eff.getState : Eff ε σ σ) :=
  fun s => hrefl s

theorem ofExcept (hrefl : ∀ s, R s s) (x : Except ε α) :
    Keeps R (Eff.ofExcept x : Eff ε σ α) :=
  fun s => hrefl s

theorem bind (htrans : ∀ s t u, R s t → R t u → R s u)
    {x : Eff ε σ α} {f : α → Eff ε σ β}
    (hx : Keeps R x) (hf : ∀ a, Keeps R (f a)) : Keeps R (x >>= f) := by
  intro s
  have hxs := hx s
  rcases h : x s with ⟨_ | a, t⟩
  · rw [bind_of_error h]
    rwa [h] at hxs
  · rw [bind_of_ok h]
    rw [h] at hxs
    exact htrans s t _ hxs (hf a t)

end Keeps

end Eff
