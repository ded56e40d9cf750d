import Mathlib.Logic.Basic

/-!
Runs of a deterministic system.

A system has a state and a function `step` that says what each call does to it.
`Throughout P` says that a property holds at the start of a run and after every
call; `AllSteps C` says that every call meets a condition on the state it finds.
When a condition is exactly what one call needs to keep a property, it is
exactly what a run needs to keep it throughout.
-/

namespace FetchTask.Runs

universe u v

variable {σ : Type u} {κ : Type v} (step : κ → σ → σ)

/-- The state after a sequence of calls. -/
def run : List κ → σ → σ
  | [], s => s
  | call :: calls, s => run calls (step call s)

/-- `P` holds at the start and after every call. -/
def Throughout (P : σ → Prop) : List κ → σ → Prop
  | [], s => P s
  | call :: calls, s => P s ∧ Throughout P calls (step call s)

/-- Every call meets `C` in the state that it finds. -/
def AllSteps (C : κ → σ → Prop) : List κ → σ → Prop
  | [], _ => True
  | call :: calls, s => C call s ∧ AllSteps C calls (step call s)

variable {step} {P Q : σ → Prop} {C : κ → σ → Prop} {calls : List κ} {s : σ}

theorem Throughout.start (h : Throughout step P calls s) : P s := by
  cases calls with
  | nil => exact h
  | cons call calls => exact h.1

theorem Throughout.final (h : Throughout step P calls s) : P (run step calls s) := by
  induction calls generalizing s with
  | nil => exact h
  | cons call calls ih => exact ih h.2

theorem Throughout.mono (hPQ : ∀ s, P s → Q s) (h : Throughout step P calls s) :
    Throughout step Q calls s := by
  induction calls generalizing s with
  | nil => exact hPQ s h
  | cons call calls ih => exact ⟨hPQ s h.1, ih h.2⟩

theorem Throughout.and (hP : Throughout step P calls s) (hQ : Throughout step Q calls s) :
    Throughout step (fun s => P s ∧ Q s) calls s := by
  induction calls generalizing s with
  | nil => exact ⟨hP, hQ⟩
  | cons call calls ih => exact ⟨⟨hP.1, hQ.1⟩, ih hP.2 hQ.2⟩

theorem AllSteps.mono {D : κ → σ → Prop} (hCD : ∀ call s, C call s → D call s)
    (h : AllSteps step C calls s) : AllSteps step D calls s := by
  induction calls generalizing s with
  | nil => trivial
  | cons call calls ih => exact ⟨hCD call s h.1, ih h.2⟩

theorem AllSteps.and {D : κ → σ → Prop} (hC : AllSteps step C calls s) (hD : AllSteps step D calls s) :
    AllSteps step (fun call s => C call s ∧ D call s) calls s := by
  induction calls generalizing s with
  | nil => trivial
  | cons call calls ih => exact ⟨⟨hC.1, hD.1⟩, ih hC.2 hD.2⟩

instance AllSteps.decidable [∀ call s, Decidable (C call s)] :
    (calls : List κ) → (s : σ) → Decidable (AllSteps step C calls s)
  | [], _ => .isTrue trivial
  | call :: calls, s =>
    have := AllSteps.decidable calls (step call s)
    inferInstanceAs (Decidable (C call s ∧ AllSteps step C calls (step call s)))

/-- The invariant rule, with a condition on the calls. -/
theorem throughout_of_allSteps (hstep : ∀ call s, P s → C call s → P (step call s))
    (hs : P s) (hC : AllSteps step C calls s) : Throughout step P calls s := by
  induction calls generalizing s with
  | nil => exact hs
  | cons call calls ih => exact ⟨hs, ih (hstep call s hs hC.1) hC.2⟩

/-- The invariant rule, where every call keeps the property. -/
theorem throughout_of_step (hstep : ∀ call s, P s → P (step call s)) (hs : P s) :
    Throughout step P calls s := by
  induction calls generalizing s with
  | nil => exact hs
  | cons call calls ih => exact ⟨hs, ih (hstep call s hs)⟩

/-- What the steps do, by an invariant and a condition on the calls. -/
theorem allSteps_of_invariant {D : κ → σ → Prop}
    (hstep : ∀ call s, P s → C call s → P (step call s)) (hD : ∀ call s, P s → C call s → D call s)
    (hs : P s) (hC : AllSteps step C calls s) : AllSteps step D calls s := by
  induction calls generalizing s with
  | nil => trivial
  | cons call calls ih => exact ⟨hD call s hs hC.1, ih (hstep call s hs hC.1) hC.2⟩

/-- The exact rule for a property of the states and one of the steps, over an invariant. -/
theorem throughout_and_allSteps_iff {Inv : σ → Prop} {D : κ → σ → Prop} (hP : ∀ s, Inv s → P s)
    (hinv : ∀ call s, Inv s → C call s → Inv (step call s))
    (hstep : ∀ call s, Inv s → (P (step call s) ∧ D call s ↔ C call s)) (hs : Inv s) :
    Throughout step P calls s ∧ AllSteps step D calls s ↔ AllSteps step C calls s := by
  induction calls generalizing s with
  | nil => exact ⟨fun _ => trivial, fun _ => ⟨hP s hs, trivial⟩⟩
  | cons call calls ih =>
    constructor
    · rintro ⟨⟨-, hrest⟩, hD, hDs⟩
      have hC := (hstep call s hs).mp ⟨hrest.start, hD⟩
      exact ⟨hC, (ih (hinv call s hs hC)).mp ⟨hrest, hDs⟩⟩
    · rintro ⟨hC, hCs⟩
      obtain ⟨hrest, hDs⟩ := (ih (hinv call s hs hC)).mpr hCs
      exact ⟨⟨hP s hs, hrest⟩, ((hstep call s hs).mpr hC).2, hDs⟩

theorem Throughout.allSteps (hPC : ∀ call s, P s → C call s) (h : Throughout step P calls s) :
    AllSteps step C calls s := by
  induction calls generalizing s with
  | nil => trivial
  | cons call calls ih => exact ⟨hPC call s h.1, ih h.2⟩

theorem throughout_append {calls' : List κ} (h : Throughout step P (calls ++ calls') s) :
    Throughout step P calls' (run step calls s) := by
  induction calls generalizing s with
  | nil => exact h
  | cons call calls ih => exact ih h.2

/-- The exact rule: a condition that decides each step decides every run. -/
theorem throughout_iff_allSteps (hstep : ∀ call s, P s → (P (step call s) ↔ C call s)) (hs : P s) :
    Throughout step P calls s ↔ AllSteps step C calls s := by
  refine ⟨fun h => ?_, throughout_of_allSteps (fun call s hP hC => (hstep call s hP).mpr hC) hs⟩
  induction calls generalizing s with
  | nil => trivial
  | cons call calls ih => exact ⟨(hstep call s hs).mp h.2.start, ih h.2.start h.2⟩

/-- The exact rule over an invariant that every call keeps. -/
theorem throughout_iff_allSteps_of_invariant {Inv : σ → Prop}
    (hinv : ∀ call s, Inv s → Inv (step call s))
    (hstep : ∀ call s, Inv s → P s → (P (step call s) ↔ C call s)) (hs : Inv s) (hP : P s) :
    Throughout step P calls s ↔ AllSteps step C calls s := by
  induction calls generalizing s with
  | nil => exact iff_of_true hP trivial
  | cons call calls ih =>
    constructor
    · rintro ⟨-, hrest⟩
      exact ⟨(hstep call s hs hP).mp hrest.start, (ih (hinv call s hs) hrest.start).mp hrest⟩
    · rintro ⟨hC, hrest⟩
      have hnext := (hstep call s hs hP).mpr hC
      exact ⟨hP, (ih (hinv call s hs) hnext).mpr hrest⟩

/-- The exact rule over an invariant that the calls which meet the condition keep, for runs whose
calls all meet another condition. -/
theorem throughout_iff_allSteps_under {Inv : σ → Prop} {N : κ → σ → Prop} (hP : ∀ s, Inv s → P s)
    (hinv : ∀ call s, Inv s → N call s → C call s → Inv (step call s))
    (hstep : ∀ call s, Inv s → N call s → P (step call s) → C call s) (hs : Inv s)
    (hN : AllSteps step N calls s) : Throughout step P calls s ↔ AllSteps step C calls s := by
  induction calls generalizing s with
  | nil => exact iff_of_true (hP s hs) trivial
  | cons call calls ih =>
    constructor
    · rintro ⟨-, hrest⟩
      have hC := hstep call s hs hN.1 hrest.start
      exact ⟨hC, (ih (hinv call s hs hN.1 hC) hN.2).mp hrest⟩
    · rintro ⟨hC, hrest⟩
      exact ⟨hP s hs, (ih (hinv call s hs hN.1 hC) hN.2).mpr hrest⟩

/-- The exact rule over an invariant that the calls which meet the condition keep. -/
theorem throughout_iff_allSteps_of_kept {Inv : σ → Prop} (hP : ∀ s, Inv s → P s)
    (hinv : ∀ call s, Inv s → C call s → Inv (step call s))
    (hstep : ∀ call s, Inv s → P (step call s) → C call s) (hs : Inv s) :
    Throughout step P calls s ↔ AllSteps step C calls s := by
  refine ⟨fun h => ?_, fun h => (throughout_of_allSteps hinv hs h).mono hP⟩
  induction calls generalizing s with
  | nil => trivial
  | cons call calls ih =>
    have hC := hstep call s hs h.2.start
    exact ⟨hC, ih (hinv call s hs hC) h.2⟩

theorem run_append (calls calls' : List κ) (s : σ) :
    run step (calls ++ calls') s = run step calls' (run step calls s) := by
  induction calls generalizing s with
  | nil => rfl
  | cons call calls ih => exact ih (step call s)

theorem allSteps_append {calls' : List κ} :
    AllSteps step C (calls ++ calls') s ↔
      AllSteps step C calls s ∧ AllSteps step C calls' (run step calls s) := by
  induction calls generalizing s with
  | nil => simp [AllSteps, run]
  | cons call calls ih => simp [AllSteps, run, ih, and_assoc]

/-- A condition on all steps, read at one step with what came before it. -/
theorem allSteps_iff : AllSteps step C calls s ↔
    ∀ before call after, calls = before ++ call :: after → C call (run step before s) := by
  constructor
  · rintro h before call after rfl
    exact (allSteps_append.mp h).2.1
  · intro h
    induction calls generalizing s with
    | nil => trivial
    | cons call calls ih =>
      refine ⟨h [] call calls rfl, ih fun before call' after heq => ?_⟩
      exact h (call :: before) call' after (by rw [heq]; rfl)

/-- The invariant rule, where each of the calls of a run keeps the property. -/
theorem throughout_of_forall (hstep : ∀ call ∈ calls, ∀ s, P s → P (step call s)) (hs : P s) :
    Throughout step P calls s := by
  induction calls generalizing s with
  | nil => exact hs
  | cons call calls ih =>
    have hcall := hstep call List.mem_cons_self s hs
    exact ⟨hs, ih (fun call' hmem => hstep call' (List.mem_cons_of_mem _ hmem)) hcall⟩

/-- What a run brings about, one of its steps brings about. -/
theorem exists_turn (hs : ¬ Q s) (h : Q (run step calls s)) :
    ∃ before call after, calls = before ++ call :: after ∧ ¬ Q (run step before s) ∧
      Q (step call (run step before s)) := by
  induction calls generalizing s with
  | nil => exact absurd h hs
  | cons call calls ih =>
    by_cases hnext : Q (step call s)
    · exact ⟨[], call, calls, rfl, hs, hnext⟩
    · obtain ⟨before, call', after, rfl, hbefore, hturn⟩ := ih hnext h
      exact ⟨call :: before, call', after, rfl, hbefore, hturn⟩

end FetchTask.Runs
