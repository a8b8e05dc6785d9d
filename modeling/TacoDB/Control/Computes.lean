import TacoDB.Control.Eff

/-!
# Computations with a known outcome

`Computes I x y` says that on the states that satisfy `I` the computation `x` has the
outcome `y`, which does not depend on the state, and leaves a state that satisfies `I`. The
invariant holds what the outcome is computed from; the rest of the state, such as the
entries of a cache, may change.

`Extends x y` orders outcomes: `y` returns whatever `x` returns, and may return more.
-/

namespace Eff

variable {ε σ τ α β : Type}

/-- The computation has the outcome `y` on the states of the invariant, and keeps it. -/
def Computes (I : σ → Prop) (x : Eff ε σ α) (y : Except ε α) : Prop :=
  ∀ s, I s → (x s).1 = y ∧ I (x s).2

namespace Computes

variable {I : σ → Prop}

theorem ret (a : α) : Computes I (Pure.pure a : Eff ε σ α) (.ok a) := fun _ h => ⟨rfl, h⟩

theorem failure (e : ε) : Computes I (fail e : Eff ε σ α) (.error e) := fun _ h => ⟨rfl, h⟩

theorem lift (x : Except ε α) : Computes I (ofExcept x : Eff ε σ α) x := fun _ h => ⟨rfl, h⟩

theorem modify {f : σ → σ} (hf : ∀ s, I s → I (f s)) :
    Computes I (modifyState f : Eff ε σ Unit) (.ok ()) :=
  fun s h => ⟨rfl, hf s h⟩

theorem state {f : σ → Eff ε σ β} {y : Except ε β}
    (h : ∀ s, I s → (f s s).1 = y ∧ I (f s s).2) : Computes I (getState >>= f) y :=
  h

theorem bind {x : Eff ε σ α} {y : Except ε α} {f : α → Eff ε σ β} {g : α → Except ε β}
    (hx : Computes I x y) (hf : ∀ a, y = .ok a → Computes I (f a) (g a)) :
    Computes I (x >>= f) (y >>= g) := by
  intro s hs
  obtain ⟨hy, hI⟩ := hx s hs
  rcases h : x s with ⟨e | a, t⟩
  · rw [h] at hy hI
    rw [bind_of_error h]
    simp only at hy
    subst hy
    exact ⟨rfl, hI⟩
  · rw [h] at hy hI
    rw [bind_of_ok h]
    simp only at hy
    subst hy
    exact hf a rfl t hI

theorem bind_ok {x : Eff ε σ α} {a : α} {f : α → Eff ε σ β} {y : Except ε β}
    (hx : Computes I x (.ok a)) (hf : Computes I (f a) y) : Computes I (x >>= f) y :=
  bind (g := fun _ => y) hx fun b hb => by
    cases hb
    exact hf

theorem bind_error {x : Eff ε σ α} {e : ε} {f : α → Eff ε σ β}
    (hx : Computes I x (.error e)) : Computes I (x >>= f) (.error e) :=
  bind (g := fun _ => .error e) hx fun b hb => by cases hb

theorem branch {c c' : Prop} [Decidable c] [Decidable c'] {x x' : Eff ε σ α}
    {y y' : Except ε α} (hc : c ↔ c') (hx : Computes I x y) (hx' : Computes I x' y') :
    Computes I (if c then x else x') (if c' then y else y') := by
  by_cases h : c
  · rw [if_pos h, if_pos (hc.mp h)]
    exact hx
  · rw [if_neg h, if_neg fun h' => h (hc.mpr h')]
    exact hx'

theorem congr {x : Eff ε σ α} {y y' : Except ε α} (h : Computes I x y) (heq : y = y') :
    Computes I x y' :=
  heq ▸ h

end Computes

def Extends (x y : Except ε α) : Prop := ∀ a, x = .ok a → y = .ok a

namespace Extends

theorem refl (x : Except ε α) : Extends x x := fun _ h => h

theorem ite {c : Prop} [Decidable c] {x y x' y' : Except ε α} (hx : Extends x x')
    (hy : Extends y y') : Extends (if c then x else y) (if c then x' else y') := by
  split
  · exact hx
  · exact hy

theorem bind {x y : Except ε α} {f g : α → Except ε β} (hx : Extends x y)
    (hf : ∀ a, Extends (f a) (g a)) : Extends (x >>= f) (y >>= g) := by
  intro b hb
  obtain ⟨a, ha, hfa⟩ := except_bind_eq_ok_iff.mp hb
  rw [hx a ha, ok_bind]
  exact hf a b hfa

theorem mapM {f g : α → Except ε β} (h : ∀ a, Extends (f a) (g a)) (l : List α) :
    Extends (l.mapM f) (l.mapM g) := by
  induction l with
  | nil => exact refl _
  | cons a l ih =>
      rw [List.mapM_cons, List.mapM_cons]
      exact bind (h a) fun _ => bind ih fun _ => refl _

end Extends

theorem mapM_eq_ok {f : α → Except ε β} {l : List α} {bs : List β} (h : l.mapM f = .ok bs) :
    bs.length = l.length ∧ ∀ (i : Nat) (a : α), l[i]? = some a → ∃ b, bs[i]? = some b ∧ f a = .ok b := by
  induction l generalizing bs with
  | nil =>
      cases h
      exact ⟨rfl, nofun⟩
  | cons a l ih =>
      rw [List.mapM_cons] at h
      obtain ⟨b, hb, h⟩ := except_bind_eq_ok_iff.mp h
      obtain ⟨bs', hbs, h⟩ := except_bind_eq_ok_iff.mp h
      cases h
      obtain ⟨hlen, hget⟩ := ih hbs
      refine ⟨by rw [List.length_cons, hlen, List.length_cons], ?_⟩
      intro i c hc
      cases i with
      | zero =>
          cases hc
          exact ⟨b, rfl, hb⟩
      | succ i => exact hget i c hc

end Eff
