import Mathlib.Data.List.Induction

/-!
# Runs

A system that takes one step after another, where each step is chosen from
outside: which party moves, or which call is made. What every step preserves is
preserved by every run.
-/

namespace Run

variable {σ ι : Type*} (step : σ → ι → σ)

def run (s : σ) (ls : List ι) : σ := ls.foldl step s

variable {step}

theorem run_cons (s : σ) (l : ι) (ls : List ι) :
    run step s (l :: ls) = run step (step s l) ls := rfl

theorem run_append (s : σ) (ls ms : List ι) :
    run step s (ls ++ ms) = run step (run step s ls) ms :=
  List.foldl_append

theorem run_invariant {I : σ → Prop} (hstep : ∀ s l, I s → I (step s l)) {s : σ} (h : I s)
    (ls : List ι) : I (run step s ls) := by
  induction ls generalizing s with
  | nil => exact h
  | cons l ls ih => exact ih (hstep s l h)

/-- An invariant of the steps of a kind holds after every run of such steps. -/
theorem run_invariant_of_forall {I : σ → Prop} {Q : ι → Prop}
    (hstep : ∀ s l, I s → Q l → I (step s l)) {s : σ} (h : I s) {ls : List ι}
    (hls : ∀ l ∈ ls, Q l) : I (run step s ls) := by
  induction ls generalizing s with
  | nil => exact h
  | cons l ls ih =>
      have hl := hstep s l h (hls l List.mem_cons_self)
      exact ih hl fun m hm => hls m (List.mem_cons_of_mem l hm)

/-- A reflexive and transitive relation between the states around every step, in
states that satisfy an invariant, holds around every run. -/
theorem run_rel {I : σ → Prop} {R : σ → σ → Prop} (hrefl : ∀ s, R s s)
    (htrans : ∀ s t u, R s t → R t u → R s u) (hinv : ∀ s l, I s → I (step s l))
    (hstep : ∀ s l, I s → R s (step s l)) {s : σ} (h : I s) (ls : List ι) :
    R s (run step s ls) := by
  induction ls generalizing s with
  | nil => exact hrefl s
  | cons l ls ih => exact htrans _ _ _ (hstep s l h) (ih (hinv s l h))

variable (step)

def outputs {ω : Type*} (out : σ → ι → Option ω) : σ → List ι → List ω
  | _, [] => []
  | s, l :: ls => (out s l).toList ++ outputs out (step s l) ls

variable {step}

theorem outputs_append {ω : Type*} (out : σ → ι → Option ω) (s : σ) (ls ms : List ι) :
    outputs step out s (ls ++ ms) =
      outputs step out s ls ++ outputs step out (run step s ls) ms := by
  induction ls generalizing s with
  | nil => rfl
  | cons l ls ih =>
      rw [List.cons_append, outputs, outputs, run_cons, ih, List.append_assoc]

/-- When a counter never decreases and passes every number that is returned, the numbers that a
run returns increase. -/
theorem outputs_increasing {I : σ → Prop} {Q : ι → Prop} {out : σ → ι → Option Nat}
    {counter : σ → Nat} (hinv : ∀ s l, I s → Q l → I (step s l))
    (hmono : ∀ s l, I s → Q l → counter s ≤ counter (step s l))
    (hout : ∀ s l n, I s → Q l → out s l = some n → counter s ≤ n ∧ n < counter (step s l))
    {s : σ} (h : I s) {ls : List ι} (hls : ∀ l ∈ ls, Q l) :
    (outputs step out s ls).Pairwise (· < ·) ∧ counter s ≤ counter (run step s ls) ∧
      ∀ n ∈ outputs step out s ls, counter s ≤ n ∧ n < counter (run step s ls) := by
  induction ls generalizing s with
  | nil => exact ⟨.nil, Nat.le_refl _, fun n hn => (by cases hn)⟩
  | cons l ls ih =>
      have hl := hls l List.mem_cons_self
      obtain ⟨hpairwise, hle, hrest⟩ :=
        ih (hinv s l h hl) fun m hm => hls m (List.mem_cons_of_mem l hm)
      have hstep := hmono s l h hl
      rw [outputs, run_cons]
      cases hsome : out s l with
      | none =>
          refine ⟨hpairwise, Nat.le_trans hstep hle, fun n hn => ?_⟩
          have hn := hrest n hn
          omega
      | some m =>
          have hm := hout s l m h hl hsome
          refine ⟨List.pairwise_cons.mpr ⟨fun n hn => ?_, hpairwise⟩, Nat.le_trans hstep hle,
            fun n hn => ?_⟩
          · have hn := hrest n hn
            omega
          · rcases List.mem_cons.mp hn with rfl | hn
            · omega
            · have hn := hrest n hn
              omega

variable (step)

def Throughout (P : σ → Prop) (s : σ) (ls : List ι) : Prop :=
  ∀ pre, pre <+: ls → P (run step s pre)

/-- Every step of the run meets the condition `Q` in the state before it. -/
def EachStep (Q : σ → ι → Prop) (s : σ) (ls : List ι) : Prop :=
  ∀ pre l, pre ++ [l] <+: ls → Q (run step s pre) l

variable {step}

theorem EachStep.of_prefix {Q : σ → ι → Prop} {s : σ} {ls ms : List ι}
    (h : EachStep step Q s ls) (hpre : ms <+: ls) : EachStep step Q s ms :=
  fun pre l hl => h pre l (hl.trans hpre)

theorem EachStep.cons {Q : σ → ι → Prop} {s : σ} {l : ι} {ls : List ι}
    (h : EachStep step Q s (l :: ls)) : Q s l ∧ EachStep step Q (step s l) ls := by
  refine ⟨h [] l (List.prefix_append [l] ls), fun pre m hm => ?_⟩
  exact h (l :: pre) m (List.cons_prefix_cons.mpr ⟨rfl, hm⟩)

theorem EachStep.nil {Q : σ → ι → Prop} (s : σ) : EachStep step Q s [] :=
  fun pre _ hl => absurd (List.prefix_nil.mp hl) (List.append_ne_nil_of_right_ne_nil pre (by simp))

theorem EachStep.of_cons {Q : σ → ι → Prop} {s : σ} {l : ι} {ls : List ι} (hl : Q s l)
    (h : EachStep step Q (step s l) ls) : EachStep step Q s (l :: ls) := by
  intro pre m hpre
  cases pre with
  | nil =>
      obtain ⟨rfl, _⟩ := List.cons_prefix_cons.mp hpre
      exact hl
  | cons x pre =>
      obtain ⟨rfl, hrest⟩ := List.cons_prefix_cons.mp hpre
      exact h pre m hrest

/-- What a step preserves under a condition holds throughout the runs whose steps all meet
it. -/
theorem throughout_of_eachStep {P : σ → Prop} {Q : σ → ι → Prop}
    (hstep : ∀ s l, P s → Q s l → P (step s l)) {s : σ} (h : P s) {ls : List ι}
    (hQ : EachStep step Q s ls) : Throughout step P s ls := by
  intro pre
  -- induction on the run from its end
  induction pre using List.reverseRecOn with
  | nil => exact fun _ => h
  | append_singleton pre l ih =>
      intro hpre
      have hbefore := ih ((List.prefix_append pre [l]).trans hpre)
      rw [run_append]
      exact hstep _ l hbefore (hQ pre l hpre)

/-- When the condition is also necessary for each step of a kind, in states that satisfy an
invariant, it is so for the run. -/
theorem throughout_iff_eachStep_of {I P : σ → Prop} {K : ι → Prop} {Q : σ → ι → Prop}
    (hinv : ∀ s l, I s → K l → I (step s l))
    (hstep : ∀ s l, I s → K l → P s → (P (step s l) ↔ Q s l)) {s : σ} (h : I s) {ls : List ι}
    (hls : ∀ l ∈ ls, K l) :
    Throughout step P s ls ↔ P s ∧ EachStep step Q s ls := by
  have hbefore : ∀ {pre : List ι}, pre <+: ls → I (run step s pre) := fun hpre =>
    run_invariant_of_forall hinv h fun l hl => hls l (hpre.subset hl)
  have hkind : ∀ {pre : List ι} {l : ι}, pre ++ [l] <+: ls → K l := fun hpre =>
    hls _ (hpre.subset (List.mem_append_right _ (List.mem_singleton_self _)))
  constructor
  · refine fun hP => ⟨hP [] (List.nil_prefix), fun pre l hpre => ?_⟩
    have hpre' := (List.prefix_append pre [l]).trans hpre
    have hafter := hP (pre ++ [l]) hpre
    rw [run_append] at hafter
    exact (hstep _ l (hbefore hpre') (hkind hpre) (hP pre hpre')).mp hafter
  · rintro ⟨hP, hQ⟩ pre
    -- induction on the run from its end
    induction pre using List.reverseRecOn with
    | nil => exact fun _ => hP
    | append_singleton pre l ih =>
        intro hpre
        have hpre' := (List.prefix_append pre [l]).trans hpre
        rw [run_append]
        exact (hstep _ l (hbefore hpre') (hkind hpre) (ih hpre')).mpr (hQ pre l hpre)

/-- When the condition is also necessary for each step, it is so for the run. -/
theorem throughout_iff_eachStep {P : σ → Prop} {Q : σ → ι → Prop}
    (hstep : ∀ s l, P s → (P (step s l) ↔ Q s l)) {s : σ} (h : P s) {ls : List ι} :
    Throughout step P s ls ↔ EachStep step Q s ls := by
  rw [throughout_iff_eachStep_of (I := fun _ => True) (K := fun _ => True)
    (fun _ _ _ _ => trivial) (fun s l _ _ => hstep s l) trivial fun _ _ => trivial]
  exact and_iff_right h

/-- When each step changes a view of the state by what it returns, the view after a run is what
the returned values make of the view before it. -/
theorem run_view {ω μ : Type*} {I : σ → Prop} {Q : σ → ι → Prop} {out : σ → ι → Option ω}
    {view : σ → μ} {upd : μ → ω → μ}
    (hstep : ∀ s l, I s → Q s l →
      I (step s l) ∧ view (step s l) = (out s l).toList.foldl upd (view s))
    {s : σ} (h : I s) {ls : List ι} (hQ : EachStep step Q s ls) :
    I (run step s ls) ∧ view (run step s ls) = (outputs step out s ls).foldl upd (view s) := by
  induction ls generalizing s with
  | nil => exact ⟨h, rfl⟩
  | cons l ls ih =>
      obtain ⟨hl, hls⟩ := hQ.cons
      obtain ⟨hI, hview⟩ := hstep s l h hl
      obtain ⟨hIrun, hviewRun⟩ := ih hI hls
      rw [run_cons, outputs, List.foldl_append, ← hview]
      exact ⟨hIrun, hviewRun⟩

end Run
