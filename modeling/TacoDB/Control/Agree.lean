import TacoDB.Control.Eff

/-!
# Computations that agree on an invariant

`Avoids Bad x` says that the outcome `x` is not a failure in `Bad`, and `Agree I Bad x y`
that on the states that satisfy `I` the computations `x` and `y` do the same, that `I`
holds afterwards and that they avoid `Bad`. Both are closed under sequencing, so two
programs that differ in one of their parts agree as soon as the parts do.
-/

namespace Eff

variable {ε σ τ α β : Type} {Bad : ε → Prop}

def Avoids (Bad : ε → Prop) (x : Except ε α) : Prop := ∀ e, x = .error e → ¬ Bad e

namespace Avoids

theorem ok (a : α) : Avoids Bad (.ok a : Except ε α) := nofun

theorem error {e : ε} (h : ¬ Bad e) : Avoids Bad (.error e : Except ε α) := by
  intro e' he
  cases he
  exact h

theorem ite {c : Prop} [Decidable c] {x y : Except ε α} (hx : Avoids Bad x)
    (hy : Avoids Bad y) : Avoids Bad (if c then x else y) := by
  split
  · exact hx
  · exact hy

theorem bind {x : Except ε α} {f : α → Except ε β} (hx : Avoids Bad x)
    (hf : ∀ a, Avoids Bad (f a)) : Avoids Bad (x >>= f) := by
  cases x with
  | error e => exact error (hx e rfl)
  | ok a => exact hf a

theorem map {x : Except ε α} (f : α → β) (hx : Avoids Bad x) : Avoids Bad (f <$> x) := by
  cases x with
  | error e => exact error (hx e rfl)
  | ok a => exact ok (f a)

theorem mapM {f : α → Except ε β} (h : ∀ a, Avoids Bad (f a)) (l : List α) :
    Avoids Bad (l.mapM f) := by
  induction l with
  | nil => exact ok []
  | cons a l ih =>
      rw [List.mapM_cons]
      exact bind (h a) fun _ => bind ih fun _ => ok _

end Avoids

/-- On the states of the invariant two computations do the same, keep the invariant and
avoid the bad failures. -/
def Agree (I : σ → Prop) (Bad : ε → Prop) (x y : Eff ε σ α) : Prop :=
  ∀ s, I s → x s = y s ∧ I (x s).2 ∧ Avoids Bad (x s).1

namespace Agree

variable {I : σ → Prop}

theorem ret (a : α) : Agree I Bad (Pure.pure a : Eff ε σ α) (Pure.pure a) :=
  fun _ h => ⟨rfl, h, .ok a⟩

theorem failure {e : ε} (h : ¬ Bad e) : Agree I Bad (fail e : Eff ε σ α) (fail e) :=
  fun _ hs => ⟨rfl, hs, .error h⟩

theorem state : Agree I Bad (getState : Eff ε σ σ) getState := fun s h => ⟨rfl, h, .ok s⟩

theorem modify {f : σ → σ} (hf : ∀ s, I s → I (f s)) :
    Agree I Bad (modifyState f : Eff ε σ Unit) (modifyState f) :=
  fun s h => ⟨rfl, hf s h, .ok ()⟩

theorem lift {x : Except ε α} (hx : Avoids Bad x) :
    Agree I Bad (ofExcept x : Eff ε σ α) (ofExcept x) :=
  fun _ h => ⟨rfl, h, hx⟩

theorem ite {c : Prop} [Decidable c] {x y x' y' : Eff ε σ α} (hx : Agree I Bad x x')
    (hy : Agree I Bad y y') : Agree I Bad (if c then x else y) (if c then x' else y') := by
  split
  · exact hx
  · exact hy

/-- The sequencing rule when the second part only agrees on what the first can return. -/
theorem bind_of {x y : Eff ε σ α} {f g : α → Eff ε σ β} {Q : α → Prop} (hx : Agree I Bad x y)
    (hQ : ∀ s a, I s → (x s).1 = .ok a → Q a) (hf : ∀ a, Q a → Agree I Bad (f a) (g a)) :
    Agree I Bad (x >>= f) (y >>= g) := by
  intro s hs
  obtain ⟨heq, hI, havoid⟩ := hx s hs
  have hret := hQ s
  rcases h : x s with ⟨e | a, t⟩
  · rw [h] at heq hI havoid
    rw [bind_of_error h, bind_of_error heq.symm]
    exact ⟨rfl, hI, .error (havoid e rfl)⟩
  · rw [h] at heq hI hret
    rw [bind_of_ok h, bind_of_ok heq.symm]
    exact hf a (hret a hs rfl) t hI

theorem bind {x y : Eff ε σ α} {f g : α → Eff ε σ β} (hx : Agree I Bad x y)
    (hf : ∀ a, Agree I Bad (f a) (g a)) : Agree I Bad (x >>= f) (y >>= g) :=
  bind_of (Q := fun _ => True) hx (fun _ _ _ _ => trivial) fun a _ => hf a

end Agree

end Eff
