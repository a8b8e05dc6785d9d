import TacoDB.Control.Run
import TacoDB.Base.Core

/-!
# The allocation of object identifiers

`AllocateOid` as the interleaving of any number of calls. The calls share the
counter `m_next_oid` of the meta page; the steps of a call are its initial load,
each compare-exchange, which reloads the expected value when it fails, and the
return of `InvalidOid` when the loop finds the counter exhausted.
-/

namespace Taco

open Run

def maxSysOid : Nat := 19999

/-- How far a call of `AllocateOid` has come. -/
inductive OidCall where
  /-- The call has not loaded the counter yet. -/
  | start
  /-- The call is at the top of its loop with this value in `next_oid`. -/
  | loop (nextOid : Nat)
  /-- The call has returned. -/
  | returned (oid : Nat)
  deriving DecidableEq

structure OidState (ι : Type) where
  nextOid : Nat
  call : ι → OidCall

namespace OidState

variable {ι : Type} [DecidableEq ι]

/-- The state `CreateDBMeta` leaves, with no call begun. -/
def init (ι : Type) : OidState ι := { nextOid := maxSysOid + 1, call := fun _ => .start }

def setCall (st : OidState ι) (i : ι) (c : OidCall) : OidState ι :=
  { st with call := Function.update st.call i c }

/-- The next step of call `i`. A call that has returned takes no more steps. -/
def step (st : OidState ι) (i : ι) : OidState ι :=
  match st.call i with
  | .start => st.setCall i (.loop st.nextOid)
  | .loop nextOid =>
      if nextOid > maxOid then
        st.setCall i (.returned invalidOid)
      else if st.nextOid = nextOid then
        { st.setCall i (.returned nextOid) with nextOid := (nextOid + 1) % 2 ^ 32 }
      else
        st.setCall i (.loop st.nextOid)
  | .returned _ => st

@[simp] theorem setCall_nextOid (st : OidState ι) (i : ι) (c : OidCall) :
    (st.setCall i c).nextOid = st.nextOid := rfl

theorem setCall_call (st : OidState ι) (i j : ι) (c : OidCall) :
    (st.setCall i c).call j = if j = i then c else st.call j := by
  simp only [setCall, Function.update_apply]

/-- Everything a step can do: load or reload the counter, take the object
identifier it holds, give up on the exhausted counter, or nothing. -/
theorem step_cases (st : OidState ι) (i : ι) :
    ((∀ oid, st.call i ≠ .returned oid) ∧
      (st.call i = .start ∨ ∃ x, st.call i = .loop x ∧ x ≤ maxOid ∧ x ≠ st.nextOid) ∧
      st.step i = st.setCall i (.loop st.nextOid)) ∨
    (st.call i = .loop st.nextOid ∧ st.nextOid ≤ maxOid ∧
      st.step i = { st.setCall i (.returned st.nextOid) with
        nextOid := (st.nextOid + 1) % 2 ^ 32 }) ∨
    (∃ x, st.call i = .loop x ∧ maxOid < x ∧
      st.step i = st.setCall i (.returned invalidOid)) ∨
    (∃ oid, st.call i = .returned oid ∧ st.step i = st) := by
  unfold step
  cases hcall : st.call i with
  | start => exact Or.inl ⟨by simp, Or.inl rfl, rfl⟩
  | loop x =>
      by_cases hmax : x > maxOid
      · exact Or.inr (Or.inr (Or.inl ⟨x, rfl, hmax, by simp [hmax]⟩))
      · by_cases heq : st.nextOid = x
        · subst heq
          exact Or.inr (Or.inl ⟨rfl, by omega, by simp [hmax]⟩)
        · refine Or.inl ⟨by simp, Or.inr ⟨x, rfl, by omega, fun h => heq h.symm⟩, ?_⟩
          simp [hmax, heq]
  | returned oid => exact Or.inr (Or.inr (Or.inr ⟨oid, rfl, rfl⟩))

/-- What holds at every moment: the counter has not wrapped, no call has seen a
value the counter has not reached, and the identifiers that were handed out are
different and below the counter. -/
structure Sound (st : OidState ι) : Prop where
  lower : maxSysOid < st.nextOid
  upper : st.nextOid ≤ maxOid + 1
  loop_le : ∀ i x, st.call i = .loop x → x ≤ st.nextOid
  returned_range : ∀ i oid, st.call i = .returned oid → oid ≠ invalidOid →
    maxSysOid < oid ∧ oid < st.nextOid
  returned_injective : ∀ i j oid, st.call i = .returned oid → st.call j = .returned oid →
    oid ≠ invalidOid → i = j
  exhausted : ∀ i, st.call i = .returned invalidOid → st.nextOid = maxOid + 1

omit [DecidableEq ι] in
theorem sound_init : Sound (init ι) := by
  constructor <;> simp [init, maxSysOid, maxOid]

theorem Sound.load {st : OidState ι} (h : Sound st) (i : ι) :
    Sound (st.setCall i (.loop st.nextOid)) := by
  have hcall : ∀ j c, (st.setCall i (.loop st.nextOid)).call j = c →
      c = .loop st.nextOid ∨ st.call j = c := by
    intro j c hj
    rw [setCall_call] at hj
    split at hj
    · exact Or.inl hj.symm
    · exact Or.inr hj
  refine ⟨h.lower, h.upper, ?_, ?_, ?_, ?_⟩
  · intro j x hj
    rcases hcall j _ hj with hx | hx
    · exact le_of_eq (OidCall.loop.inj hx)
    · exact h.loop_le j x hx
  · intro j oid hj
    rcases hcall j _ hj with hx | hx
    · cases hx
    · exact h.returned_range j oid hx
  · intro j k oid hj hk
    rcases hcall j _ hj with hx | hx
    · cases hx
    · rcases hcall k _ hk with hy | hy
      · cases hy
      · exact h.returned_injective j k oid hx hy
  · intro j hj
    rcases hcall j _ hj with hx | hx
    · cases hx
    · exact h.exhausted j hx

/-- The value a successful compare-exchange takes is above all values handed out
before. -/
theorem Sound.take {st : OidState ι} (h : Sound st) {i : ι}
    (hi : st.call i = .loop st.nextOid) (hmax : st.nextOid ≤ maxOid) :
    Sound { st.setCall i (.returned st.nextOid) with nextOid := (st.nextOid + 1) % 2 ^ 32 } := by
  have hlower := h.lower
  have hnext : (st.nextOid + 1) % 2 ^ 32 = st.nextOid + 1 := by
    apply Nat.mod_eq_of_lt
    unfold maxOid at hmax
    omega
  have hvalid : st.nextOid ≠ invalidOid := by
    unfold invalidOid
    omega
  have hcall : ∀ j c, (st.setCall i (.returned st.nextOid)).call j = c →
      (j = i ∧ c = .returned st.nextOid) ∨ (j ≠ i ∧ st.call j = c) := by
    intro j c hj
    rw [setCall_call] at hj
    split at hj
    · exact Or.inl ⟨by assumption, hj.symm⟩
    · exact Or.inr ⟨by assumption, hj⟩
  rw [hnext]
  refine ⟨by dsimp only; omega, by dsimp only; omega, ?_, ?_, ?_, ?_⟩
  · intro j x hj
    rcases hcall j _ hj with ⟨-, hx⟩ | ⟨-, hx⟩
    · cases hx
    · have := h.loop_le j x hx
      dsimp only
      omega
  · intro j oid hj hoid
    dsimp only
    rcases hcall j _ hj with ⟨-, hx⟩ | ⟨-, hx⟩
    · cases hx
      omega
    · have := h.returned_range j oid hx hoid
      omega
  · intro j k oid hj hk hoid
    rcases hcall j _ hj with ⟨rfl, hx⟩ | ⟨hji, hx⟩ <;>
      rcases hcall k _ hk with ⟨rfl, hy⟩ | ⟨hki, hy⟩
    · rfl
    · cases hx
      have := (h.returned_range k _ hy hoid).2
      omega
    · cases hy
      have := (h.returned_range j _ hx hoid).2
      omega
    · exact h.returned_injective j k oid hx hy hoid
  · intro j hj
    rcases hcall j _ hj with ⟨-, hx⟩ | ⟨-, hx⟩
    · exact absurd (OidCall.returned.inj hx).symm hvalid
    · have := h.exhausted j hx
      omega

theorem Sound.giveUp {st : OidState ι} (h : Sound st) {i : ι} {x : Nat}
    (hi : st.call i = .loop x) (hmax : maxOid < x) :
    Sound (st.setCall i (.returned invalidOid)) := by
  have hupper := h.upper
  have hle := h.loop_le i x hi
  have hcall : ∀ j c, (st.setCall i (.returned invalidOid)).call j = c →
      c = .returned invalidOid ∨ st.call j = c := by
    intro j c hj
    rw [setCall_call] at hj
    split at hj
    · exact Or.inl hj.symm
    · exact Or.inr hj
  refine ⟨h.lower, h.upper, ?_, ?_, ?_, ?_⟩
  · intro j y hj
    rcases hcall j _ hj with hx | hx
    · cases hx
    · exact h.loop_le j y hx
  · intro j oid hj hoid
    rcases hcall j _ hj with hx | hx
    · exact absurd (OidCall.returned.inj hx) hoid
    · exact h.returned_range j oid hx hoid
  · intro j k oid hj hk hoid
    rcases hcall j _ hj with hx | hx
    · exact absurd (OidCall.returned.inj hx) hoid
    · rcases hcall k _ hk with hy | hy
      · exact absurd (OidCall.returned.inj hy) hoid
      · exact h.returned_injective j k oid hx hy hoid
  · intro j _
    rw [setCall_nextOid]
    omega

theorem Sound.step {st : OidState ι} (h : Sound st) (i : ι) : Sound (st.step i) := by
  rcases step_cases st i with ⟨-, -, heq⟩ | ⟨hi, hmax, heq⟩ | ⟨x, hi, hmax, heq⟩ | ⟨_, _, heq⟩
  · rw [heq]
    exact h.load i
  · rw [heq]
    exact h.take hi hmax
  · rw [heq]
    exact h.giveUp hi hmax
  · rw [heq]
    exact h

theorem sound_run (sched : List ι) : Sound (run step (init ι) sched) :=
  run_invariant (fun _ i h => h.step i) sound_init sched

/-- The counter never decreases, and a call that has returned stays so. -/
theorem run_mono {st : OidState ι} (h : Sound st) (sched : List ι) :
    st.nextOid ≤ (run step st sched).nextOid ∧
      ∀ i oid, st.call i = .returned oid → (run step st sched).call i = .returned oid := by
  refine run_rel (I := Sound) (R := fun s t => s.nextOid ≤ t.nextOid ∧
    ∀ i oid, s.call i = .returned oid → t.call i = .returned oid) ?_ ?_ ?_ ?_ h sched
  · exact fun s => ⟨le_rfl, fun _ _ h => h⟩
  · exact fun s t u h₁ h₂ => ⟨h₁.1.trans h₂.1, fun i oid h => h₂.2 i oid (h₁.2 i oid h)⟩
  · exact fun s i hs => hs.step i
  · intro s i hs
    have hkeep : ∀ c, (∀ oid, s.call i ≠ .returned oid) → ∀ j oid,
        s.call j = .returned oid → (s.setCall i c).call j = .returned oid := by
      intro c hi j oid hj
      rw [setCall_call, if_neg]
      · exact hj
      · rintro rfl
        exact hi oid hj
    rcases step_cases s i with ⟨hi, -, heq⟩ | ⟨hi, hmax, heq⟩ | ⟨x, hi, hmax, heq⟩ | ⟨_, _, heq⟩
    · rw [heq]
      exact ⟨le_rfl, hkeep _ hi⟩
    · have hnext : (s.nextOid + 1) % 2 ^ 32 = s.nextOid + 1 := by
        apply Nat.mod_eq_of_lt
        unfold maxOid at hmax
        omega
      rw [heq, hnext]
      exact ⟨Nat.le_succ _, hkeep _ (by simp [hi])⟩
    · rw [heq]
      exact ⟨le_rfl, hkeep _ (by simp [hi])⟩
    · rw [heq]
      exact ⟨le_rfl, fun _ _ h => h⟩

/-- The steps a call still has to take once the counter is exhausted. -/
def pending : OidCall → Nat
  | .start => 2
  | .loop x => if maxOid < x then 1 else 2
  | .returned _ => 0

theorem step_call_of_ne (st : OidState ι) {i j : ι} (hij : j ≠ i) :
    (st.step i).call j = st.call j := by
  rcases step_cases st i with ⟨-, -, heq⟩ | ⟨-, -, heq⟩ | ⟨_, -, -, heq⟩ | ⟨_, -, heq⟩
  · rw [heq, setCall_call, if_neg hij]
  · rw [heq]
    change (st.setCall i _).call j = _
    rw [setCall_call, if_neg hij]
  · rw [heq, setCall_call, if_neg hij]
  · rw [heq]

/-- On the exhausted counter a step of a call brings it closer to returning
`InvalidOid`, and changes the counter no more. -/
theorem step_exhausted {st : OidState ι} (hnext : st.nextOid = maxOid + 1) (i : ι)
    (hi : ∀ oid, st.call i = .returned oid → oid = invalidOid) :
    (st.step i).nextOid = maxOid + 1 ∧
      (∀ oid, (st.step i).call i = .returned oid → oid = invalidOid) ∧
      pending ((st.step i).call i) ≤ pending (st.call i) - 1 := by
  rcases step_cases st i with ⟨-, hbefore, heq⟩ | ⟨-, hmax, -⟩ | ⟨x, hx, hmax, heq⟩ |
    ⟨oid, hoid, heq⟩
  · have hpending : pending (st.call i) = 2 := by
      rcases hbefore with hs | ⟨x, hx, hle, -⟩
      · rw [hs]
        rfl
      · rw [hx, pending, if_neg (by omega)]
    rw [heq, setCall_call, if_pos rfl, hpending, hnext]
    exact ⟨hnext, by simp, by simp [pending]⟩
  · omega
  · rw [heq, setCall_call, if_pos rfl]
    exact ⟨hnext, fun oid h => (OidCall.returned.inj h).symm, Nat.zero_le _⟩
  · rw [heq, hoid]
    exact ⟨hnext, fun oid' h => by rw [← OidCall.returned.inj h]; exact hi oid hoid,
      Nat.zero_le _⟩

/-- From the exhausted counter on a call can only return `InvalidOid`, and does so
after its pending steps. -/
theorem run_exhausted {st : OidState ι} (hnext : st.nextOid = maxOid + 1) (j : ι)
    (hj : ∀ oid, st.call j = .returned oid → oid = invalidOid) (sched : List ι) :
    (∀ oid, (run step st sched).call j = .returned oid → oid = invalidOid) ∧
      (pending (st.call j) ≤ sched.count j →
        (run step st sched).call j = .returned invalidOid) := by
  induction sched generalizing st with
  | nil =>
      refine ⟨hj, fun hle => ?_⟩
      change st.call j = .returned invalidOid
      have hzero : pending (st.call j) = 0 := Nat.le_zero.mp hle
      cases hcall : st.call j with
      | start => rw [hcall] at hzero; cases hzero
      | loop x =>
          rw [hcall, pending] at hzero
          split at hzero <;> cases hzero
      | returned oid => rw [hj oid hcall]
  | cons i sched ih =>
      rw [run_cons]
      by_cases hij : j = i
      · subst hij
        obtain ⟨hnext', hj', hpending⟩ := step_exhausted hnext j hj
        obtain ⟨hsafe, hdone⟩ := ih hnext' hj'
        refine ⟨hsafe, fun hle => hdone ?_⟩
        rw [List.count_cons_self] at hle
        omega
      · have hcall := step_call_of_ne st hij
        have hnext' : (st.step i).nextOid = maxOid + 1 := by
          rcases step_cases st i with ⟨-, -, heq⟩ | ⟨-, hmax, -⟩ | ⟨_, -, -, heq⟩ | ⟨_, -, heq⟩
          · rw [heq, setCall_nextOid, hnext]
          · omega
          · rw [heq, setCall_nextOid, hnext]
          · rw [heq, hnext]
        obtain ⟨hsafe, hdone⟩ := ih hnext' (by rw [hcall]; exact hj)
        refine ⟨hsafe, fun hle => hdone ?_⟩
        rwa [hcall, ← List.count_cons_of_ne (Ne.symm hij)]

theorem pending_le (c : OidCall) : pending c ≤ 2 := by
  cases c with
  | start => exact le_rfl
  | loop x => rw [pending]; split <;> decide
  | returned oid => exact Nat.zero_le 2

/-- Whatever the interleaving of any number of calls, the identifiers handed out
are different and between `max_sys_oid` and `MaxOid`, the counter never decreases
and stays within `MaxOid + 1`, and after a call has returned `InvalidOid` every
call that has not returned yet can only return `InvalidOid`, and does so with its
second step from there at the latest. -/
theorem allocateOid_interleaving (before after : List ι) :
    (∀ i j oid, (run step (init ι) before).call i = .returned oid →
      (run step (init ι) before).call j = .returned oid → oid ≠ invalidOid → i = j) ∧
    (∀ i oid, (run step (init ι) before).call i = .returned oid → oid ≠ invalidOid →
      maxSysOid < oid ∧ oid ≤ maxOid) ∧
    (run step (init ι) before).nextOid ≤ (run step (init ι) (before ++ after)).nextOid ∧
    (run step (init ι) (before ++ after)).nextOid ≤ maxOid + 1 ∧
    ∀ i, (run step (init ι) before).call i = .returned invalidOid →
      ∀ j, (∀ oid, (run step (init ι) before).call j ≠ .returned oid) →
        (∀ oid, (run step (init ι) (before ++ after)).call j = .returned oid →
          oid = invalidOid) ∧
        (2 ≤ after.count j →
          (run step (init ι) (before ++ after)).call j = .returned invalidOid) := by
  have hsound : Sound (run step (init ι) before) := sound_run before
  have hupper := (sound_run (before ++ after) : Sound (run step (init ι) _)).upper
  rw [run_append] at hupper ⊢
  refine ⟨hsound.returned_injective, ?_, (run_mono hsound after).1, hupper, ?_⟩
  · intro i oid hi hoid
    have hrange := hsound.returned_range i oid hi hoid
    have := hsound.upper
    omega
  · intro i hi j hj
    obtain ⟨hsafe, hdone⟩ := run_exhausted (hsound.exhausted i hi) j
      (fun oid h => absurd h (hj oid)) after
    exact ⟨hsafe, fun hle => hdone ((pending_le _).trans hle)⟩

-- Two calls race for the first identifier; the loser retries.
example : ((run step (init Bool) [true, false, true, false, false]).call true,
    (run step (init Bool) [true, false, true, false, false]).call false) =
      (.returned 20000, .returned 20001) := by decide

end OidState

end Taco
