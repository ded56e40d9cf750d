import FetchTask.Lib.Prog

/-!
What threads learn from the results of their operations.

A thread keeps an account of what the results since the start of its call have
told it. `Ensures` says of a program that, whatever the results are that
operations can have, it performs only operations that it may perform with what
it then knows, and ends with knowledge that satisfies a postcondition; `Does` is
the same for programs that may end with an exception. An invariant relates the
shared state to what all threads know. If every operation that a thread may
perform keeps the invariant, then runs do.
-/

namespace FetchTask

open Runs

/-- What threads learn, and what they may do with it. -/
structure Knowledge (S : Sig) (K : Type) where
  start : K
  /-- The operations that may be performed with this knowledge. -/
  may : K → S.Op → Prop
  /-- The results that an operation can have. -/
  can : (o : S.Op) → S.Res o → Prop
  learn : K → (o : S.Op) → S.Res o → K

namespace Knowledge

variable {S : Sig} {K : Type} (G : Knowledge S K) {α β F : Type}

/-! ### Programs -/

/-- The program keeps to `may`, and returns with the postcondition. -/
def Ensures (Q : α → K → Prop) : K → Prog S α → Prop
  | k, .ret a => Q a k
  | k, .act o c => G.may k o ∧ ∀ r, G.can o r → Ensures Q (G.learn k o r) (c r)

/-- The same for a program that may throw: `E` is the postcondition of exceptions. -/
def Does (Q : α → K → Prop) (E : F → K → Prop) (k : K) (p : ExceptT F (Prog S) α) : Prop :=
  G.Ensures (fun (r : Except F α) k => match r with
    | .ok a => Q a k
    | .error e => E e k) k p

variable {G}

theorem Ensures.mono {Q Q' : α → K → Prop} (h : ∀ a k, Q a k → Q' a k) {k : K} {p : Prog S α}
    (hp : G.Ensures Q k p) : G.Ensures Q' k p := by
  induction p generalizing k with
  | ret a => exact h a k hp
  | act o c ih => exact ⟨hp.1, fun r hr => ih r (hp.2 r hr)⟩

theorem Ensures.bind {Q : α → K → Prop} {R : β → K → Prop} {k : K} {p : Prog S α}
    {f : α → Prog S β} (hp : G.Ensures Q k p) (hf : ∀ a k, Q a k → G.Ensures R k (f a)) :
    G.Ensures R k (p >>= f) := by
  induction p generalizing k with
  | ret a => exact hf a k hp
  | act o c ih => exact ⟨hp.1, fun r hr => ih r (hp.2 r hr)⟩

section Does

variable {Q Q' : α → K → Prop} {R : β → K → Prop} {E E' : F → K → Prop} {k : K}

theorem Does.mono (hQ : ∀ a k, Q a k → Q' a k) (hE : ∀ e k, E e k → E' e k)
    {p : ExceptT F (Prog S) α} (hp : G.Does Q E k p) : G.Does Q' E' k p := by
  refine Ensures.mono (fun r k hr => ?_) hp
  cases r with
  | ok a => exact hQ a k hr
  | error e => exact hE e k hr

theorem does_pure {a : α} (h : Q a k) : G.Does Q E k (pure a) := h

theorem does_throw {e : F} (h : E e k) : G.Does Q E k (throw e) := h

/-- One operation whose result is returned. -/
theorem does_act {o : S.Op} {f : S.Res o → α} (ho : G.may k o)
    (h : ∀ r, G.can o r → Q (f r) (G.learn k o r)) :
    G.Does Q E k (Prog.act o fun r => .ret (.ok (f r)) : Prog S (Except F α)) :=
  ⟨ho, h⟩

theorem Does.bind {p : ExceptT F (Prog S) α} {f : α → ExceptT F (Prog S) β}
    (hp : G.Does Q E k p) (hf : ∀ a k, Q a k → G.Does R E k (f a)) : G.Does R E k (p >>= f) := by
  refine Ensures.bind hp fun r k hr => ?_
  cases r with
  | ok a => exact hf a k hr
  | error e => exact hr

theorem Does.tryCatch {p : ExceptT F (Prog S) α} {handler : F → ExceptT F (Prog S) α}
    (hp : G.Does Q E k p) (hh : ∀ e k, E e k → G.Does Q E' k (handler e)) :
    G.Does Q E' k (tryCatch p handler) := by
  refine Ensures.bind hp fun r k hr => ?_
  cases r with
  | ok a => exact hr
  | error e => exact hh e k hr

end Does

/-! ### Programs that learn nothing -/

/-- The program ends, either way, with what it knew at its start. -/
def Still (G : Knowledge S K) (k : K) (p : ExceptT F (Prog S) α) : Prop :=
  G.Does (fun _ k' => k' = k) (fun _ k' => k' = k) k p

/-- The operation may be performed, and teaches nothing. -/
def Neutral (G : Knowledge S K) (k : K) (o : S.Op) : Prop :=
  G.may k o ∧ ∀ r, G.can o r → G.learn k o r = k

section Still

variable {k : K}

/-- Where no operation teaches anything, every program ends with what it knew at its start. -/
theorem ensures_of_neutral (h : ∀ o, G.Neutral k o) (p : Prog S α) :
    G.Ensures (fun _ k' => k' = k) k p := by
  induction p with
  | ret a => rfl
  | act o c ih =>
    refine ⟨(h o).1, fun r hr => ?_⟩
    rw [(h o).2 r hr]
    exact ih r

theorem Still.pure (a : α) : G.Still k (pure a : ExceptT F (Prog S) α) := rfl

theorem Still.throw (e : F) : G.Still k (throw e : ExceptT F (Prog S) α) := rfl

theorem Still.act {o : S.Op} {f : S.Res o → Except F α} (ho : G.Neutral k o) :
    G.Still k (Prog.act o fun r => .ret (f r) : Prog S (Except F α)) := by
  refine ⟨ho.1, fun r hr => ?_⟩
  show match f r with
    | .ok a => _
    | .error e => _
  cases f r with
  | ok a => exact ho.2 r hr
  | error e => exact ho.2 r hr

theorem Still.bind {p : ExceptT F (Prog S) α} {f : α → ExceptT F (Prog S) β} (hp : G.Still k p)
    (hf : ∀ a, G.Still k (f a)) : G.Still k (p >>= f) := by
  refine Does.bind hp ?_
  rintro a _ rfl
  exact hf a

theorem Still.tryCatch {p : ExceptT F (Prog S) α} {handler : F → ExceptT F (Prog S) α}
    (hp : G.Still k p) (hh : ∀ e, G.Still k (handler e)) : G.Still k (tryCatch p handler) := by
  refine Does.tryCatch hp ?_
  rintro e _ rfl
  exact hh e

theorem Still.ite {c : Prop} [Decidable c] {p q : ExceptT F (Prog S) α} (hp : G.Still k p)
    (hq : G.Still k q) : G.Still k (if c then p else q) := by
  split
  · exact hp
  · exact hq

theorem Still.does {Q : α → K → Prop} {E : F → K → Prop} {p : ExceptT F (Prog S) α}
    (hp : G.Still k p) (hQ : ∀ a, Q a k) (hE : ∀ e, E e k) : G.Does Q E k p := by
  refine Does.mono ?_ ?_ hp
  · rintro a _ rfl
    exact hQ a
  · rintro e _ rfl
    exact hE e

end Still

/-! ### Threads -/

variable (G) {σ κ ε : Type} (handle : Handler S σ ε) (prog : κ → Prog S Unit)

/-- A configuration, with what its threads know. -/
structure Tracked (S : Sig) (σ K : Type) where
  config : Config S σ
  known : Nat → K

/-- What is known after a step: a new call knows nothing yet. -/
def track (label : Label κ ε) (t : Tracked S σ K) : Nat → K :=
  match label with
  | .spawn i _ =>
    match t.config.threads i with
    | .ret _ => Function.update t.known i G.start
    | .act .. => t.known
  | .act i e =>
    match t.config.threads i with
    | .ret _ => t.known
    | .act o _ =>
      Function.update t.known i (G.learn (t.known i) o (handle e o t.config.shared).1)

def step (label : Label κ ε) (t : Tracked S σ K) : Tracked S σ K :=
  { config := Config.step handle prog label t.config, known := G.track handle label t }

variable {G handle prog}

theorem step_act {i : Nat} {e : ε} {t : Tracked S σ K} {o : S.Op} {c : S.Res o → Prog S Unit}
    (h : t.config.threads i = .act o c) :
    G.step handle prog (.act i e) t =
      { config :=
          { shared := (handle e o t.config.shared).2
            threads := Function.update t.config.threads i (c (handle e o t.config.shared).1) }
        known := Function.update t.known i
          (G.learn (t.known i) o (handle e o t.config.shared).1) } := by
  simp only [step, Config.step, track, h]

theorem step_idle {i : Nat} {e : ε} {t : Tracked S σ K} {u : Unit}
    (h : t.config.threads i = .ret u) : G.step handle prog (.act i e) t = t := by
  simp only [step, Config.step, track, h]

theorem step_spawn {i : Nat} {call : κ} {t : Tracked S σ K} {u : Unit}
    (h : t.config.threads i = .ret u) :
    G.step handle prog (.spawn i call) t =
      { config := { t.config with threads := Function.update t.config.threads i (prog call) }
        known := Function.update t.known i G.start } := by
  simp only [step, Config.step, track, h]

theorem step_spawn_busy {i : Nat} {call : κ} {t : Tracked S σ K} {o : S.Op}
    {c : S.Res o → Prog S Unit} (h : t.config.threads i = .act o c) :
    G.step handle prog (.spawn i call) t = t := by
  simp only [step, Config.step, track, h]

/-- A step teaches the other threads nothing. -/
theorem step_known {label : Label κ ε} {i : Nat} (h : i ≠ label.thread) (t : Tracked S σ K) :
    (G.step handle prog label t).known i = t.known i := by
  cases label with
  | spawn j call =>
    have hne : i ≠ j := h
    cases hj : t.config.threads j with
    | ret u =>
      rw [step_spawn hj]
      exact Function.update_of_ne hne _ _
    | act o c => rw [step_spawn_busy hj]
  | act j e =>
    have hne : i ≠ j := h
    cases hj : t.config.threads j with
    | ret u => rw [step_idle hj]
    | act o c =>
      rw [step_act hj]
      exact Function.update_of_ne hne _ _

theorem run_config {labels : List (Label κ ε)} {t : Tracked S σ K} :
    (run (G.step handle prog) labels t).config = run (Config.step handle prog) labels t.config := by
  induction labels generalizing t with
  | nil => rfl
  | cons label labels ih => exact ih

theorem throughout_config {P : Config S σ → Prop} {labels : List (Label κ ε)} {t : Tracked S σ K} :
    Throughout (G.step handle prog) (fun t => P t.config) labels t ↔
      Throughout (Config.step handle prog) P labels t.config := by
  induction labels generalizing t with
  | nil => rfl
  | cons label labels ih => exact and_congr Iff.rfl ih

theorem allSteps_config {D : Label κ ε → Config S σ → Prop} {labels : List (Label κ ε)}
    {t : Tracked S σ K} :
    AllSteps (G.step handle prog) (fun label t => D label t.config) labels t ↔
      AllSteps (Config.step handle prog) D labels t.config := by
  induction labels generalizing t with
  | nil => rfl
  | cons label labels ih => exact and_congr Iff.rfl ih

/-- Every thread keeps to what it may do and ends with `Q`, and the invariant holds. -/
structure Follows (G : Knowledge S K) (Q : K → Prop) (Inv : σ → (Nat → K) → Prop)
    (t : Tracked S σ K) : Prop where
  programs : ∀ i, G.Ensures (fun _ => Q) (t.known i) (t.config.threads i)
  inv : Inv t.config.shared t.known

/-- A condition on the operation that a step of thread `i` performs, with what all threads know. -/
def OnThreads (C : (Nat → K) → (i : Nat) → (e : ε) → (o : S.Op) → σ → Prop) :
    Label κ ε → Tracked S σ K → Prop
  | .spawn .., _ => True
  | .act i e, t =>
    match t.config.threads i with
    | .ret _ => True
    | .act o _ => C t.known i e o t.config.shared

instance OnThreads.decidable {C : (Nat → K) → (i : Nat) → (e : ε) → (o : S.Op) → σ → Prop}
    [∀ known i e o s, Decidable (C known i e o s)] (label : Label κ ε) (t : Tracked S σ K) :
    Decidable (OnThreads C label t) :=
  match label with
  | .spawn .. => .isTrue trivial
  | .act i e =>
    match h : t.config.threads i with
    | .ret _ => .isTrue (by simp [OnThreads, h])
    | .act o _ => decidable_of_iff (C t.known i e o t.config.shared) (by simp [OnThreads, h])

/-- A condition on the operation that a step performs, with what its thread knows. -/
def OnKnown (C : K → (e : ε) → (o : S.Op) → σ → Prop) : Label κ ε → Tracked S σ K → Prop
  | .spawn .., _ => True
  | .act i e, t =>
    match t.config.threads i with
    | .ret _ => True
    | .act o _ => C (t.known i) e o t.config.shared

instance OnKnown.decidable {C : K → (e : ε) → (o : S.Op) → σ → Prop}
    [∀ k e o s, Decidable (C k e o s)] (label : Label κ ε) (t : Tracked S σ K) :
    Decidable (OnKnown C label t) :=
  match label with
  | .spawn .. => .isTrue trivial
  | .act i e =>
    match h : t.config.threads i with
    | .ret _ => .isTrue (by simp [OnKnown, h])
    | .act o _ => decidable_of_iff (C (t.known i) e o t.config.shared) (by simp [OnKnown, h])

theorem onThreads_iff {C : K → (e : ε) → (o : S.Op) → σ → Prop} {label : Label κ ε}
    {t : Tracked S σ K} :
    OnThreads (fun known i e o s => C (known i) e o s) label t ↔ OnKnown C label t := by
  cases label <;> rfl

/-- A condition that does not look at what the thread knows. -/
theorem onKnown_iff {C : (e : ε) → (o : S.Op) → σ → Prop} {label : Label κ ε} {t : Tracked S σ K} :
    OnKnown (fun _ e o s => C e o s) label t ↔
      OnAct (fun _ e o c => C e o c.shared) label t.config := by
  cases label <;> rfl

/-- Every operation that a thread may perform has a result that it can have, and keeps the
invariant. -/
def Keeps (G : Knowledge S K) (handle : Handler S σ ε) (Inv : σ → (Nat → K) → Prop)
    (C : K → (e : ε) → (o : S.Op) → σ → Prop) : Prop :=
  ∀ i e o s known, Inv s known → G.may (known i) o → C (known i) e o s →
    G.can o (handle e o s).1 ∧
      Inv (handle e o s).2 (Function.update known i (G.learn (known i) o (handle e o s).1))

/-- The same under a condition that looks at what all threads know. -/
def KeepsWith (G : Knowledge S K) (handle : Handler S σ ε) (Inv : σ → (Nat → K) → Prop)
    (C : (Nat → K) → (i : Nat) → (e : ε) → (o : S.Op) → σ → Prop) : Prop :=
  ∀ i e o s known, Inv s known → G.may (known i) o → C known i e o s →
    G.can o (handle e o s).1 ∧
      Inv (handle e o s).2 (Function.update known i (G.learn (known i) o (handle e o s).1))

section Rules

variable {Q : K → Prop} {Inv : σ → (Nat → K) → Prop}
  {D : (Nat → K) → (i : Nat) → (e : ε) → (o : S.Op) → σ → Prop}
  (hprog : ∀ call, G.Ensures (fun _ => Q) G.start (prog call))
  (hspawn : ∀ s known i, Inv s known → Q (known i) → Inv s (Function.update known i G.start))

include hprog hspawn

/-- The invariant rule: one step. -/
theorem follows_step_with (hkeeps : G.KeepsWith handle Inv D) (label : Label κ ε)
    (t : Tracked S σ K) (ht : G.Follows Q Inv t) (hD : OnThreads D label t) :
    G.Follows Q Inv (G.step handle prog label t) := by
  obtain ⟨hprograms, hinv⟩ := ht
  cases label with
  | spawn i call =>
    cases hi : t.config.threads i with
    | act o c =>
      rw [step_spawn_busy hi]
      exact ⟨hprograms, hinv⟩
    | ret u =>
      have hidle := hprograms i
      rw [hi] at hidle
      rw [step_spawn hi]
      refine ⟨fun j => ?_, hspawn _ _ i hinv hidle⟩
      by_cases hj : j = i
      · subst hj
        simpa using hprog call
      · simpa [hj] using hprograms j
  | act i e =>
    cases hi : t.config.threads i with
    | ret u =>
      rw [step_idle hi]
      exact ⟨hprograms, hinv⟩
    | act o c =>
      have hnext := hprograms i
      rw [hi] at hnext
      obtain ⟨hmay, hrest⟩ := hnext
      simp only [OnThreads, hi] at hD
      obtain ⟨hcan, hinv'⟩ := hkeeps i e o t.config.shared t.known hinv hmay hD
      rw [step_act hi]
      refine ⟨fun j => ?_, hinv'⟩
      by_cases hj : j = i
      · subst hj
        simpa using hrest _ hcan
      · simpa [hj] using hprograms j

/-- The invariant rule: a run. -/
theorem follows_run_with (hkeeps : G.KeepsWith handle Inv D) {labels : List (Label κ ε)}
    {t : Tracked S σ K} (ht : G.Follows Q Inv t)
    (hD : AllSteps (G.step handle prog) (OnThreads D) labels t) :
    Throughout (G.step handle prog) (G.Follows Q Inv) labels t :=
  throughout_of_allSteps
    (fun label t => follows_step_with hprog hspawn hkeeps label t) ht hD

/-- What the operations of a run do: by the invariant and the condition at each. -/
theorem follows_allSteps_with {E : (Nat → K) → (i : Nat) → (e : ε) → (o : S.Op) → σ → Prop}
    (hkeeps : G.KeepsWith handle Inv D)
    (hE : ∀ known i e o s, Inv s known → G.may (known i) o → D known i e o s → E known i e o s)
    {labels : List (Label κ ε)} {t : Tracked S σ K} (ht : G.Follows Q Inv t)
    (hD : AllSteps (G.step handle prog) (OnThreads D) labels t) :
    AllSteps (G.step handle prog) (OnThreads E) labels t := by
  refine allSteps_of_invariant
    (fun label t => follows_step_with hprog hspawn hkeeps label t) (fun label t ht hD => ?_) ht hD
  cases label with
  | spawn i call => trivial
  | act i e =>
    cases hi : t.config.threads i with
    | ret u => simp [OnThreads, hi]
    | act o c =>
      have hnext := ht.programs i
      rw [hi] at hnext
      simp only [OnThreads, hi] at hD ⊢
      exact hE t.known i e o t.config.shared ht.inv hnext.1 hD

variable {C : K → (e : ε) → (o : S.Op) → σ → Prop}

/-- One step, where the condition looks at the thread itself only. -/
theorem follows_step (hkeeps : G.Keeps handle Inv C) (label : Label κ ε) (t : Tracked S σ K)
    (ht : G.Follows Q Inv t) (hC : OnKnown C label t) :
    G.Follows Q Inv (G.step handle prog label t) :=
  follows_step_with (D := fun known i e o s => C (known i) e o s) hprog hspawn hkeeps label t ht
    (onThreads_iff.mpr hC)

theorem follows_run (hkeeps : G.Keeps handle Inv C) {labels : List (Label κ ε)}
    {t : Tracked S σ K} (ht : G.Follows Q Inv t)
    (hC : AllSteps (G.step handle prog) (OnKnown C) labels t) :
    Throughout (G.step handle prog) (G.Follows Q Inv) labels t :=
  throughout_of_allSteps (fun label t => follows_step hprog hspawn hkeeps label t) ht hC

end Rules

/-! ### Calls under way -/

/-- What is known of the calls under way: a thread whose call has ended knows nothing. -/
def current (G : Knowledge S K) (t : Tracked S σ K) (i : Nat) : K :=
  match t.config.threads i with
  | .ret _ => G.start
  | .act .. => t.known i

/-- A condition on the operation that a step of thread `i` performs, with what is known of all
calls under way. -/
def OnCurrent (G : Knowledge S K) (C : (Nat → K) → (i : Nat) → (e : ε) → (o : S.Op) → σ → Prop) :
    Label κ ε → Tracked S σ K → Prop
  | .spawn .., _ => True
  | .act i e, t =>
    match t.config.threads i with
    | .ret _ => True
    | .act o _ => C (G.current t) i e o t.config.shared

instance OnCurrent.decidable {C : (Nat → K) → (i : Nat) → (e : ε) → (o : S.Op) → σ → Prop}
    [∀ known i e o s, Decidable (C known i e o s)] (label : Label κ ε) (t : Tracked S σ K) :
    Decidable (G.OnCurrent C label t) :=
  match label with
  | .spawn .. => .isTrue trivial
  | .act i e =>
    match h : t.config.threads i with
    | .ret _ => .isTrue (by simp [OnCurrent, h])
    | .act o _ => decidable_of_iff (C (G.current t) i e o t.config.shared) (by simp [OnCurrent, h])

theorem current_done {t : Tracked S σ K} {i : Nat} {u : Unit} (h : t.config.threads i = .ret u) :
    G.current t i = G.start := by
  simp only [current, h]

theorem current_act {t : Tracked S σ K} {i : Nat} {o : S.Op} {c : S.Res o → Prog S Unit}
    (h : t.config.threads i = .act o c) : G.current t i = t.known i := by
  simp only [current, h]

/-- A thread that has learnt nothing is no call under way. -/
theorem current_start {t : Tracked S σ K} {i : Nat} (h : t.known i = G.start) :
    G.current t i = G.start := by
  cases hi : t.config.threads i with
  | ret u => exact current_done hi
  | act o c => exact (current_act hi).trans h

/-- A thread goes on with its program, or begins one. -/
theorem current_update {t : Tracked S σ K} {i : Nat} {k : K} {p : Prog S Unit} (shared : σ)
    (h : p.isDone = false ∨ k = G.start) :
    G.current { config := { shared, threads := Function.update t.config.threads i p },
                known := Function.update t.known i k } =
      Function.update (G.current t) i k := by
  funext j
  rcases eq_or_ne j i with rfl | hj
  · rw [Function.update_self]
    cases p with
    | act o c => exact (current_act (Function.update_self ..)).trans (Function.update_self ..)
    | ret u =>
      obtain hfalse | rfl := h
      · cases hfalse
      · exact current_done (Function.update_self ..)
  · simp only [current, Function.update_of_ne hj]

/-- A thread ends its program. -/
theorem current_update_ret {t : Tracked S σ K} {i : Nat} {k : K} {u : Unit} (shared : σ) :
    G.current { config := { shared, threads := Function.update t.config.threads i (.ret u) },
                known := Function.update t.known i k } =
      Function.update (G.current t) i G.start := by
  funext j
  rcases eq_or_ne j i with rfl | hj
  · rw [Function.update_self]
    exact current_done (Function.update_self ..)
  · simp only [current, Function.update_of_ne hj]

/-- Every thread keeps to what it may do and ends with `Q`, and the invariant holds of what is
known of the calls under way. -/
structure Attends (G : Knowledge S K) (Q : K → Prop) (Inv : σ → (Nat → K) → Prop)
    (t : Tracked S σ K) : Prop where
  programs : ∀ i, G.Ensures (fun _ => Q) (t.known i) (t.config.threads i)
  inv : Inv t.config.shared (G.current t)

section Rules

variable {Q : K → Prop} {Inv : σ → (Nat → K) → Prop}
  {D : (Nat → K) → (i : Nat) → (e : ε) → (o : S.Op) → σ → Prop}
  (hprog : ∀ call, G.Ensures (fun _ => Q) G.start (prog call))
  (hend : ∀ s known i, Inv s known → Q (known i) → Inv s (Function.update known i G.start))

include hprog hend

/-- The invariant rule: one step. A call that ends is forgotten. -/
theorem attends_step (hkeeps : G.KeepsWith handle Inv D) (label : Label κ ε) (t : Tracked S σ K)
    (ht : G.Attends Q Inv t) (hD : G.OnCurrent D label t) :
    G.Attends Q Inv (G.step handle prog label t) := by
  obtain ⟨hprograms, hinv⟩ := ht
  cases label with
  | spawn i call =>
    cases hi : t.config.threads i with
    | act o c =>
      rw [step_spawn_busy hi]
      exact ⟨hprograms, hinv⟩
    | ret u =>
      rw [step_spawn hi]
      refine ⟨fun j => ?_, ?_⟩
      · by_cases hj : j = i
        · subst hj
          simpa using hprog call
        · simpa [hj] using hprograms j
      · have hsame : Function.update (G.current t) i G.start = G.current t := by
          rw [← current_done (G := G) hi]
          exact Function.update_eq_self ..
        rw [current_update _ (.inr rfl), hsame]
        exact hinv
  | act i e =>
    cases hi : t.config.threads i with
    | ret u =>
      rw [step_idle hi]
      exact ⟨hprograms, hinv⟩
    | act o c =>
      have hnext := hprograms i
      rw [hi] at hnext
      obtain ⟨hmay, hrest⟩ := hnext
      have hcurrent := current_act (G := G) hi
      simp only [OnCurrent, hi] at hD
      obtain ⟨hcan, hinv'⟩ :=
        hkeeps i e o t.config.shared (G.current t) hinv (hcurrent ▸ hmay) hD
      rw [hcurrent] at hinv'
      have hlast := hrest _ hcan
      rw [step_act hi]
      generalize hr : (handle e o t.config.shared).1 = r at hcan hinv' hlast
      refine ⟨fun j => ?_, ?_⟩
      · by_cases hj : j = i
        · subst hj
          simpa using hlast
        · simpa [hj] using hprograms j
      · cases hc : c r with
        | act o' c' =>
          rw [current_update _ (.inl rfl)]
          exact hinv'
        | ret u =>
          rw [hc] at hlast
          have hQ : Q (G.learn (t.known i) o r) := hlast
          rw [current_update_ret]
          simpa using hend _ _ i hinv' (by simpa using hQ)

/-- The invariant rule: a run. -/
theorem attends_run (hkeeps : G.KeepsWith handle Inv D) {labels : List (Label κ ε)}
    {t : Tracked S σ K} (ht : G.Attends Q Inv t)
    (hD : AllSteps (G.step handle prog) (G.OnCurrent D) labels t) :
    Throughout (G.step handle prog) (G.Attends Q Inv) labels t :=
  throughout_of_allSteps (fun label t => attends_step hprog hend hkeeps label t) ht hD

end Rules

/-! ### Threads that never run -/

/-- A step leaves what threads that never run know, so a condition may count on them. -/
theorem allSteps_of_idle {P R : Label κ ε → Tracked S σ K → Prop} {n : Nat} {k₀ : K}
    {labels : List (Label κ ε)} {t : Tracked S σ K} (hthreads : ∀ label ∈ labels, label.thread < n)
    (hidle : ∀ i, n ≤ i → t.known i = k₀)
    (hPR : ∀ label t, (∀ i, n ≤ i → t.known i = k₀) → P label t → R label t)
    (h : AllSteps (G.step handle prog) P labels t) :
    AllSteps (G.step handle prog) R labels t := by
  induction labels generalizing t with
  | nil => trivial
  | cons label labels ih =>
    refine ⟨hPR label t hidle h.1,
      ih (fun l hl => hthreads l (List.mem_cons_of_mem _ hl)) (fun i hi => ?_) h.2⟩
    have hthread := hthreads label List.mem_cons_self
    exact (step_known (by omega) t).trans (hidle i hi)

/-- The same of a condition on the calls under way. -/
theorem allSteps_current_of_idle
    {C D : (Nat → K) → (i : Nat) → (e : ε) → (o : S.Op) → σ → Prop} {n : Nat}
    {labels : List (Label κ ε)} {t : Tracked S σ K} (hthreads : ∀ label ∈ labels, label.thread < n)
    (hidle : ∀ i, n ≤ i → t.known i = G.start)
    (hCD : ∀ known i e o s, (∀ j, n ≤ j → known j = G.start) → C known i e o s → D known i e o s)
    (h : AllSteps (G.step handle prog) (G.OnCurrent C) labels t) :
    AllSteps (G.step handle prog) (G.OnCurrent D) labels t := by
  refine allSteps_of_idle hthreads hidle (fun label t hidle hC => ?_) h
  cases label with
  | spawn i call => trivial
  | act i e =>
    cases hi : t.config.threads i with
    | ret u => simp [OnCurrent, hi]
    | act o c =>
      simp only [OnCurrent, hi] at hC ⊢
      exact hCD _ i e o _ (fun j hj => current_start (hidle j hj)) hC

/-- Threads that never run keep what they know, so a condition may count on them. -/
theorem allSteps_of_bounded {C D : (Nat → K) → (i : Nat) → (e : ε) → (o : S.Op) → σ → Prop}
    {n : Nat} {k₀ : K} {labels : List (Label κ ε)} {t : Tracked S σ K}
    (hthreads : ∀ label ∈ labels, label.thread < n) (hidle : ∀ i, n ≤ i → t.known i = k₀)
    (hCD : ∀ known i e o s, (∀ j, n ≤ j → known j = k₀) → C known i e o s → D known i e o s)
    (h : AllSteps (G.step handle prog) (OnThreads C) labels t) :
    AllSteps (G.step handle prog) (OnThreads D) labels t := by
  refine allSteps_of_idle hthreads hidle (fun label t hidle hC => ?_) h
  cases label with
  | spawn i call => trivial
  | act i e =>
    cases hi : t.config.threads i with
    | ret u => simp [OnThreads, hi]
    | act o c =>
      simp only [OnThreads, hi] at hC ⊢
      exact hCD t.known i e o t.config.shared hidle hC

variable {Q : K → Prop} {Inv : σ → (Nat → K) → Prop}

/-- The operation that a thread performs next is one that it may perform. -/
theorem Follows.may {t : Tracked S σ K} (ht : G.Follows Q Inv t) {i : Nat} {o : S.Op}
    {c : S.Res o → Prog S Unit} (hi : t.config.threads i = .act o c) : G.may (t.known i) o := by
  have h := ht.programs i
  rw [hi] at h
  exact h.1

/-- An idle thread has ended its last call. -/
theorem Follows.ended {t : Tracked S σ K} (ht : G.Follows Q Inv t) {i : Nat}
    (hi : (t.config.threads i).isDone = true) : Q (t.known i) := by
  have h := ht.programs i
  cases hp : t.config.threads i with
  | ret u => rwa [hp] at h
  | act o c => simp [hp, Prog.isDone] at hi

end Knowledge

end FetchTask
