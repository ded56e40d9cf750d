import FetchTask.Lib.Prog

/-!
Obligations that pass between a shared state and the threads that work on it.

An item is at risk when something must be done for it, and safe when the shared
state itself makes sure of that. Where a thread takes an item out of safety, it
owes to put it back: the rest of its program must carry the item. A program
carries an item when its next operation is on the item and either pays the debt
or, whatever the operation can return while the item stays at risk, the rest of
the program carries it. `Sound` says of a program that it carries all it comes
to owe. Sound threads that drop nothing lose nothing.
-/

namespace FetchTask

open Runs

/-- What operations mean for the items of type `T`. -/
structure Handover (S : Sig) (T : Type) where
  /-- The item that an operation is about. -/
  on : S.Op → T → Prop
  /-- The operation makes the item safe. -/
  pays : S.Op → T → Prop
  /-- What the operation can return while the item is at risk and stays so. -/
  sees : (o : S.Op) → S.Res o → T → Prop
  /-- With this result the thread has come to owe the item. -/
  owes : (o : S.Op) → S.Res o → T → Prop

namespace Handover

variable {S : Sig} {T : Type} (H : Handover S T) {α β : Type}

/-- The program is bound to make the item safe. -/
def Carries (t : T) : Prog S α → Prop
  | .ret _ => False
  | .act o k => H.on o t ∧ (H.pays o t ∨ ∀ r, H.sees o r t → Carries t (k r))

/-- The program carries every item that it comes to owe. -/
def Sound : Prog S α → Prop
  | .ret _ => True
  | .act o k => ∀ r, (∀ t, H.owes o r t → H.Carries t (k r)) ∧ Sound (k r)

/-- The next operation of the program is about the item. -/
def Busy (t : T) : Prog S α → Prop
  | .ret _ => False
  | .act o _ => H.on o t

variable {H}

theorem Carries.busy {t : T} {p : Prog S α} (h : H.Carries t p) : H.Busy t p := by
  cases p with
  | ret a => exact h
  | act o k => exact h.1

theorem not_busy_of_isDone {t : T} {p : Prog S α} (h : p.isDone = true) : ¬ H.Busy t p := by
  cases p with
  | ret a => exact id
  | act o k => cases h

theorem Carries.bind {t : T} {p : Prog S α} (h : H.Carries t p) (f : α → Prog S β) :
    H.Carries t (p >>= f) := by
  induction p with
  | ret a => exact h.elim
  | act o k ih =>
    obtain ⟨hon, hpays | hrest⟩ := h
    · exact ⟨hon, .inl hpays⟩
    · exact ⟨hon, .inr fun r hr => ih r (hrest r hr)⟩

theorem Sound.bind {p : Prog S α} {f : α → Prog S β} (hp : H.Sound p) (hf : ∀ a, H.Sound (f a)) :
    H.Sound (p >>= f) := by
  induction p with
  | ret a => exact hf a
  | act o k ih => exact fun r => ⟨fun t ht => ((hp r).1 t ht).bind f, ih r (hp r).2⟩

/-- One operation after which nothing is owed. -/
theorem sound_act {o : S.Op} {k : S.Res o → Prog S α} (ho : ∀ r t, ¬ H.owes o r t)
    (hk : ∀ r, H.Sound (k r)) : H.Sound (.act o k) :=
  fun r => ⟨fun t ht => absurd ht (ho r t), hk r⟩

/-! ### Threads -/

variable {σ κ ε : Type} {handle : Handler S σ ε} {prog : κ → Prog S Unit}
  {atRisk safe : σ → T → Prop} {drop : S.Op → σ → T → Prop}

/-- Every thread is sound, and what is at risk is safe or carried by a thread. -/
structure Kept (H : Handover S T) (atRisk safe : σ → T → Prop) (c : Config S σ) : Prop where
  sound : ∀ i, H.Sound (c.threads i)
  carried : ∀ t, atRisk c.shared t → safe c.shared t ∨ ∃ i, H.Carries t (c.threads i)

/-- An item that an operation drops is carried by another thread. -/
def DropsCarried (H : Handover S T) (drop : S.Op → σ → T → Prop) : Label κ ε → Config S σ → Prop :=
  OnAct fun i _ o c => ∀ t, drop o c.shared t → ∃ j, j ≠ i ∧ H.Carries t (c.threads j)

/-- What must be known of the operations: an item that is at risk after one is safe, or owed
by the thread that performed it, or dropped by the operation, or was at risk all along and
what the thread then sees is accounted for. -/
def Accounted (H : Handover S T) (handle : Handler S σ ε) (atRisk safe : σ → T → Prop)
    (drop : S.Op → σ → T → Prop) : Prop :=
  ∀ e o s t, atRisk (handle e o s).2 t →
    safe (handle e o s).2 t ∨ H.owes o (handle e o s).1 t ∨ drop o s t ∨
      (atRisk s t ∧ ¬ safe s t ∧ (H.on o t → ¬ H.pays o t ∧ H.sees o (handle e o s).1 t))

/-- The invariant rule: one step. -/
theorem kept_step (hacc : Accounted H handle atRisk safe drop) (hprog : ∀ call, H.Sound (prog call))
    (label : Label κ ε) (c : Config S σ) (hc : Kept H atRisk safe c)
    (hdrop : DropsCarried H drop label c) : Kept H atRisk safe (Config.step handle prog label c) := by
  cases label with
  | spawn i call =>
    cases hi : c.threads i with
    | act o k =>
      have hsame : Config.step handle prog (.spawn i call) c = c := by simp only [Config.step, hi]
      rw [hsame]
      exact hc
    | ret a =>
      have hstep : Config.step handle prog (.spawn i call) c =
          { c with threads := Function.update c.threads i (prog call) } := by
        simp only [Config.step, hi]
      rw [hstep]
      constructor
      · intro j
        by_cases hj : j = i
        · subst hj
          simpa using hprog call
        · simpa [hj] using hc.sound j
      · intro t ht
        rcases hc.carried t ht with hsafe | ⟨j, hj⟩
        · exact .inl hsafe
        · -- The thread that starts the call was idle, so it carried nothing.
          have hne : j ≠ i := by
            rintro rfl
            rw [hi] at hj
            exact hj
          exact .inr ⟨j, by simpa [hne] using hj⟩
  | act i e =>
    cases hi : c.threads i with
    | ret a => rw [Config.step_idle hi]; exact hc
    | act o k =>
      have hsound := hc.sound i
      rw [hi] at hsound
      obtain ⟨howed, hrest⟩ := hsound (handle e o c.shared).1
      simp only [DropsCarried, OnAct, hi] at hdrop
      rw [Config.step_act hi]
      have hother : ∀ t j, j ≠ i → H.Carries t (c.threads j) → ∃ j,
          H.Carries t (Function.update c.threads i (k (handle e o c.shared).1) j) :=
        fun t j hne hj => ⟨j, by simpa [hne] using hj⟩
      constructor
      · intro j
        by_cases hj : j = i
        · subst hj
          simpa using hrest
        · simpa [hj] using hc.sound j
      · intro t ht
        rcases hacc e o c.shared t ht with hsafe | howes | hdropped | ⟨hrisk, hunsafe, hsees⟩
        · exact .inl hsafe
        · exact .inr ⟨i, by simpa using howed t howes⟩
        · obtain ⟨j, hne, hj⟩ := hdrop t hdropped
          exact .inr (hother t j hne hj)
        · rcases hc.carried t hrisk with hsafe | ⟨j, hj⟩
          · exact absurd hsafe hunsafe
          · by_cases hne : j = i
            · subst hne
              rw [hi] at hj
              obtain ⟨hon, hpays | hcont⟩ := hj
              · exact absurd hpays (hsees hon).1
              · exact .inr ⟨j, by simpa using hcont _ (hsees hon).2⟩
            · exact .inr (hother t j hne hj)

/-- The invariant rule: a run. -/
theorem kept_run (hacc : Accounted H handle atRisk safe drop) (hprog : ∀ call, H.Sound (prog call))
    {labels : List (Label κ ε)} {c : Config S σ} (hc : Kept H atRisk safe c)
    (hdrop : AllSteps (Config.step handle prog) (DropsCarried H drop) labels c) :
    Throughout (Config.step handle prog) (Kept H atRisk safe) labels c :=
  throughout_of_allSteps (fun label c hc hd => kept_step hacc hprog label c hc hd) hc hdrop

/-- An item at risk that no thread is about is safe. -/
theorem Kept.safe_of_idle {c : Config S σ} (hc : Kept H atRisk safe c) {t : T}
    (ht : atRisk c.shared t) (hidle : ∀ i, ¬ H.Busy t (c.threads i)) : safe c.shared t := by
  rcases hc.carried t ht with hsafe | ⟨i, hi⟩
  · exact hsafe
  · exact absurd hi.busy (hidle i)

end Handover

end FetchTask
