import TacoDB.Control.Eff

/-!
# Checks

A check returns a value for what is valid and raises an error otherwise. It refuses most of what
is not valid, but it can be at fault itself and do something else. Checks that are made one after
another do what the first one of them does that does not return.
-/

namespace Eff

variable {ε α β κ : Type} {refusal fault : ε → Prop}

/-- The check `x` returns `a` for what is `valid`. For the rest it raises an error: a refusal, or a
fault for what is `faulty`. -/
structure Checks (refusal fault : ε → Prop) (valid faulty : Prop) (x : Except ε α) (a : α) :
    Prop where
  accepts : valid → x = .ok a
  refuses : ¬ valid → ¬ faulty → ∃ e, refusal e ∧ x = .error e
  faults : ¬ valid → faulty → ∃ e, fault e ∧ x = .error e

def FirstFaulty (valid faulty : κ → Prop) (l : List κ) : Prop :=
  ∃ l₁ k l₂, l = l₁ ++ k :: l₂ ∧ (∀ k' ∈ l₁, valid k') ∧ ¬ valid k ∧ faulty k

theorem firstFaulty_cons {valid faulty : κ → Prop} {k : κ} {l : List κ} :
    FirstFaulty valid faulty (k :: l) ↔
      (¬ valid k ∧ faulty k) ∨ (valid k ∧ FirstFaulty valid faulty l) := by
  constructor
  · rintro ⟨l₁, x, l₂, heq, hbefore, hnot, hfaulty⟩
    cases l₁ with
    | nil =>
        cases heq
        exact .inl ⟨hnot, hfaulty⟩
    | cons y l₁ =>
        cases heq
        exact .inr ⟨hbefore _ List.mem_cons_self, l₁, x, l₂, rfl,
          fun k' hk' => hbefore k' (List.mem_cons_of_mem _ hk'), hnot, hfaulty⟩
  · rintro (⟨hnot, hfaulty⟩ | ⟨hvalid, l₁, x, l₂, rfl, hbefore, hnot, hfaulty⟩)
    · exact ⟨[], k, l, rfl, fun k' hk' => (by cases hk'), hnot, hfaulty⟩
    · refine ⟨k :: l₁, x, l₂, rfl, fun k' hk' => ?_, hnot, hfaulty⟩
      rcases List.mem_cons.mp hk' with rfl | hk'
      · exact hvalid
      · exact hbefore k' hk'

namespace Checks

variable {valid faulty valid' faulty' : Prop} {x : Except ε α} {a : α}

theorem ret (a : α) : Checks refusal fault True False (.ok a) a :=
  ⟨fun _ => rfl, fun hnot => absurd trivial hnot, fun hnot => absurd trivial hnot⟩

theorem of_refuses (haccepts : valid → x = .ok a)
    (hrefuses : ¬ valid → ∃ e, refusal e ∧ x = .error e) :
    Checks refusal fault valid False x a :=
  ⟨haccepts, fun hnot _ => hrefuses hnot, fun _ hfaulty => hfaulty.elim⟩

theorem congr (h : Checks refusal fault valid faulty x a) (hvalid : valid' ↔ valid)
    (hfaulty : ¬ valid → (faulty' ↔ faulty)) : Checks refusal fault valid' faulty' x a := by
  constructor
  · exact fun hv => h.accepts (hvalid.mp hv)
  · intro hnot hnotFaulty
    have hnot' := fun hv => hnot (hvalid.mpr hv)
    exact h.refuses hnot' fun hf => hnotFaulty ((hfaulty hnot').mpr hf)
  · intro hnot hf
    have hnot' := fun hv => hnot (hvalid.mpr hv)
    exact h.faults hnot' ((hfaulty hnot').mp hf)

theorem bind {f : α → Except ε β} {b : β} (hx : Checks refusal fault valid faulty x a)
    (hf : valid → Checks refusal fault valid' faulty' (f a) b) :
    Checks refusal fault (valid ∧ valid') ((¬ valid ∧ faulty) ∨ (valid ∧ faulty')) (x >>= f) b := by
  by_cases hv : valid
  · have hx' : (x >>= f) = f a := by rw [hx.accepts hv, ok_bind]
    rw [hx']
    refine (hf hv).congr (and_iff_right hv) fun _ => ?_
    constructor
    · rintro (⟨hnot, -⟩ | ⟨-, hfaulty⟩)
      · exact absurd hv hnot
      · exact hfaulty
    · exact fun hfaulty => .inr ⟨hv, hfaulty⟩
  · have hraise : ∀ {e : ε}, x = .error e → (x >>= f) = .error e := by
      intro e he
      rw [he]
      rfl
    constructor
    · exact fun h => absurd h.1 hv
    · intro _ hnot
      obtain ⟨e, he, hxe⟩ := hx.refuses hv fun hfaulty => hnot (.inl ⟨hv, hfaulty⟩)
      exact ⟨e, he, hraise hxe⟩
    · rintro - (⟨-, hfaulty⟩ | ⟨hv', -⟩)
      · obtain ⟨e, he, hxe⟩ := hx.faults hv hfaulty
        exact ⟨e, he, hraise hxe⟩
      · exact absurd hv' hv

theorem mapM {valid faulty : κ → Prop} {check : κ → Except ε α} {value : κ → α}
    (h : ∀ k, Checks refusal fault (valid k) (faulty k) (check k) (value k)) (l : List κ) :
    Checks refusal fault (∀ k ∈ l, valid k) (FirstFaulty valid faulty l) (l.mapM check)
      (l.map value) := by
  induction l with
  | nil =>
      refine (ret []).congr ?_ fun hnot => absurd trivial hnot
      simp
  | cons k l ih =>
      rw [List.mapM_cons]
      have hrest := ih.bind (f := fun as => .ok (value k :: as)) fun _ => ret _
      refine ((h k).bind (f := fun a => l.mapM check >>= fun as => pure (a :: as))
        fun _ => hrest).congr ?_ fun _ => ?_
      · rw [List.forall_mem_cons, and_true]
      · rw [firstFaulty_cons]
        have hlater : FirstFaulty valid faulty l → ¬ ∀ k' ∈ l, valid k' := by
          rintro ⟨l₁, x, l₂, rfl, -, hnot, -⟩ hall
          exact hnot (hall x (by simp))
        constructor
        · rintro (hfirst | ⟨hvalid, hlist⟩)
          · exact .inl hfirst
          · exact .inr ⟨hvalid, .inl ⟨hlater hlist, hlist⟩⟩
        · rintro (hfirst | ⟨hvalid, ⟨-, hlist⟩ | ⟨-, hfalse⟩⟩)
          · exact .inl hfirst
          · exact .inr ⟨hvalid, hlist⟩
          · exact hfalse.elim

theorem eq_ok_iff (h : Checks refusal fault valid faulty x a) {b : α} :
    x = .ok b ↔ valid ∧ b = a := by
  constructor
  · intro hx
    by_cases hv : valid
    · rw [h.accepts hv] at hx
      exact ⟨hv, (Except.ok.inj hx).symm⟩
    · by_cases hf : faulty
      · obtain ⟨e, -, he⟩ := h.faults hv hf
        rw [he] at hx
        cases hx
      · obtain ⟨e, -, he⟩ := h.refuses hv hf
        rw [he] at hx
        cases hx
  · rintro ⟨hv, rfl⟩
    exact h.accepts hv

end Checks

end Eff
