import FetchTask.Lib.Runs
import Mathlib.Data.List.Infix

/-!
Two kinds of work, mixed in bursts.

Each step of a system may take a piece of work of one of two kinds. A counter of what
was taken of the first kind since the second decides which kind is preferred: from `n`
on it is the second. If a step never takes the other kind while the preferred one is
there to be taken, then at most `n` pieces of the first kind follow each other while
the second is there, and a piece of the second kind that is taken while the first is
there comes after at least `n` of the first.
-/

namespace FetchTask.Bursts

open Runs

universe u v

/-! ### Sequences of two kinds -/

/-- How many of the first kind (`false`) have come since the last of the second (`true`). -/
def since (kinds : List Bool) : Nat := (kinds.reverse.takeWhile fun kind => !kind).length

@[simp] theorem since_nil : since [] = 0 := rfl

@[simp] theorem since_append_true (kinds : List Bool) : since (kinds ++ [true]) = 0 := by
  simp [since]

@[simp] theorem since_append_false (kinds : List Bool) :
    since (kinds ++ [false]) = since kinds + 1 := by
  simp [since]

theorem since_append_replicate (kinds : List Bool) (n : Nat) :
    since (kinds ++ List.replicate n false) = since kinds + n := by
  induction n with
  | zero => simp
  | succ n ih => rw [List.replicate_succ', ← List.append_assoc, since_append_false, ih, Nat.add_assoc]

/-! ### Systems that take work -/

section Taken

variable {σ : Type u} {κ : Type v} (step : κ → σ → σ) (takes : κ → σ → Option Bool)

/-- The kinds of what a run takes, in order. -/
def taken : List κ → σ → List Bool
  | [], _ => []
  | call :: calls, s => (takes call s).toList ++ taken calls (step call s)

/-- The promise of a mix: bursts of the first kind are no longer than `n` while the second waits,
and the second does not interrupt them earlier while the first waits. `waits kind call s` says
that work of the kind is there for the call to take. -/
structure Mixed (waits : Bool → κ → σ → Prop) (n : Nat) (calls : List κ) (s : σ) : Prop where
  bursts : ∀ before window after, calls = before ++ window ++ after →
    AllSteps step (waits true) window (run step before s) →
      ¬ List.replicate (n + 1) false <:+: taken step takes window (run step before s)
  turns : ∀ before call after, calls = before ++ call :: after →
    waits false call (run step before s) → takes call (run step before s) = some true →
      n ≤ since (taken step takes before s)

/-- What a counter makes of what is taken. -/
def count (streak : Nat) : Option Bool → Nat
  | none => streak
  | some true => 0
  | some false => streak + 1

variable {step takes} {calls : List κ} {s : σ}

theorem taken_append (calls calls' : List κ) (s : σ) :
    taken step takes (calls ++ calls') s =
      taken step takes calls s ++ taken step takes calls' (run step calls s) := by
  induction calls generalizing s with
  | nil => rfl
  | cons call calls ih => rw [List.cons_append, taken, taken, ih, List.append_assoc, run]

/-- The call that takes one piece of what a run takes. -/
theorem exists_taking {kinds kinds' : List Bool} {kind : Bool}
    (h : taken step takes calls s = kinds ++ kind :: kinds') :
    ∃ before call after, calls = before ++ call :: after ∧ taken step takes before s = kinds ∧
      takes call (run step before s) = some kind := by
  induction calls generalizing s kinds with
  | nil => exact absurd h.symm (by simp [taken])
  | cons call calls ih =>
    rw [taken] at h
    cases htakes : takes call s with
    | none =>
      rw [htakes] at h
      obtain ⟨before, call', after, rfl, hbefore, hcall⟩ := ih h
      exact ⟨call :: before, call', after, rfl, by rw [taken, htakes, hbefore]; rfl, hcall⟩
    | some taking =>
      rw [htakes] at h
      cases kinds with
      | nil =>
        obtain ⟨rfl, -⟩ := List.cons.inj h
        exact ⟨[], call, calls, rfl, rfl, htakes⟩
      | cons first kinds =>
        obtain ⟨rfl, hrest⟩ := List.cons.inj h
        obtain ⟨before, call', after, rfl, hbefore, hcall⟩ := ih hrest
        exact ⟨call :: before, call', after, rfl, by rw [taken, htakes, hbefore]; rfl, hcall⟩

variable {streak : σ → Nat}

/-- The counter counts. -/
theorem streak_run (hcount : ∀ call s, streak (step call s) = count (streak s) (takes call s))
    (kinds : List Bool) (hstart : streak s = since kinds) :
    streak (run step calls s) = since (kinds ++ taken step takes calls s) := by
  induction calls generalizing s kinds with
  | nil => simpa [run, taken] using hstart
  | cons call calls ih =>
    have hnext : streak (step call s) = since (kinds ++ (takes call s).toList) := by
      rw [hcount call s, hstart]
      rcases takes call s with - | - | -
      · simp [count]
      · simp [count]
      · simp [count]
    rw [run, taken, ← List.append_assoc]
    exact ih _ hnext

/-- The rule: the counter counts what is taken, and a call for which work of the kind that the
counter prefers is there takes none of the other kind. -/
theorem mixed_of_counter {waits : Bool → κ → σ → Prop} {n : Nat}
    (hcount : ∀ call s, streak (step call s) = count (streak s) (takes call s))
    (hprefers : ∀ call s (preferred kind : Bool), waits preferred call s →
      decide (n ≤ streak s) = preferred → takes call s = some kind → kind = preferred)
    (hstart : streak s = 0) : Mixed step takes waits n calls s where
  bursts := by
    rintro before window after rfl hwaits ⟨kinds, kinds', hburst⟩
    rw [List.replicate_succ'] at hburst
    have htaken : taken step takes window (run step before s) =
        (kinds ++ List.replicate n false) ++ false :: kinds' := by
      rw [← hburst]
      simp
    obtain ⟨earlier, call, later, rfl, hearlier, hcall⟩ := exists_taking htaken
    -- The last task of the burst is taken when the counter stands at `n` at least.
    have hstreak : streak (run step (before ++ earlier) s) =
        since (taken step takes before s ++ kinds) + n := by
      rw [streak_run hcount [] hstart, List.nil_append, taken_append, hearlier, ← List.append_assoc,
        since_append_replicate]
    have hwait : waits true call (run step (before ++ earlier) s) := by
      rw [run_append]
      exact (allSteps_append.mp hwaits).2.1
    rw [← run_append] at hcall
    exact nomatch hprefers call _ true false hwait (decide_eq_true (by omega)) hcall
  turns := by
    rintro before call after rfl hwaits hcall
    by_contra hlt
    have hstreak : streak (run step before s) = since (taken step takes before s) :=
      streak_run hcount [] hstart
    exact nomatch hprefers call _ false true hwaits (decide_eq_false (by omega)) hcall

end Taken

end FetchTask.Bursts
