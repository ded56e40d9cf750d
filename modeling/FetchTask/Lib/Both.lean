import FetchTask.Lib.Knowledge

/-!
Two accounts of what threads learn, kept side by side.

A program that keeps to both accounts keeps to their pair. A run that is tracked
with the pair is, seen through one of the two, the run tracked with that one; so
a condition on what is known can speak of one account while the invariant of the
run speaks of both.
-/

namespace FetchTask.Knowledge

open Runs

variable {S : Sig} {K L : Type} {α σ κ ε : Type}

def both (G : Knowledge S K) (H : Knowledge S L) : Knowledge S (K × L) where
  start := (G.start, H.start)
  may k o := G.may k.1 o ∧ H.may k.2 o
  can o r := G.can o r ∧ H.can o r
  learn k o r := (G.learn k.1 o r, H.learn k.2 o r)

variable {G : Knowledge S K} {H : Knowledge S L}

theorem Ensures.both {Q : α → K → Prop} {R : α → L → Prop} {k : K} {l : L} {p : Prog S α}
    (hp : G.Ensures Q k p) (hq : H.Ensures R l p) :
    (G.both H).Ensures (fun a k => Q a k.1 ∧ R a k.2) (k, l) p := by
  induction p generalizing k l with
  | ret a => exact ⟨hp, hq⟩
  | act o c ih => exact ⟨⟨hp.1, hq.1⟩, fun r hr => ih r (hp.2 r hr.1) (hq.2 r hr.2)⟩

/-! ### One of the two accounts -/

/-- The first account of a tracked configuration. -/
def Tracked.left (t : Tracked S σ (K × L)) : Tracked S σ K := ⟨t.config, fun i => (t.known i).1⟩

variable {handle : Handler S σ ε} {prog : κ → Prog S Unit} {label : Label κ ε}
  {t : Tracked S σ (K × L)}

theorem step_left :
    ((G.both H).step handle prog label t).left = G.step handle prog label t.left := by
  have hknown : ∀ (i : Nat) (k : K × L), (fun j => (Function.update t.known i k j).1) =
      Function.update (fun j => (t.known j).1) i k.1 :=
    fun i k => Function.comp_update Prod.fst t.known i k
  cases label with
  | spawn i call =>
    cases hi : t.config.threads i with
    | ret u =>
      rw [step_spawn hi, step_spawn (t := t.left) hi]
      simp only [Tracked.left, hknown, both]
    | act o c => rw [step_spawn_busy hi, step_spawn_busy (t := t.left) hi]
  | act i e =>
    cases hi : t.config.threads i with
    | ret u => rw [step_idle hi, step_idle (t := t.left) hi]
    | act o c =>
      rw [step_act hi, step_act (t := t.left) hi]
      simp only [Tracked.left, hknown, both]

theorem current_left (i : Nat) : G.current t.left i = ((G.both H).current t i).1 := by
  simp only [current, Tracked.left]
  cases t.config.threads i <;> rfl

theorem onCurrent_left
    {C : (Nat → K) → (i : Nat) → (e : ε) → (o : S.Op) → σ → Prop} :
    G.OnCurrent C label t.left ↔
      (G.both H).OnCurrent (fun known => C fun j => (known j).1) label t := by
  cases label with
  | spawn i call => rfl
  | act i e =>
    have hcurrent : G.current t.left = fun j => ((G.both H).current t j).1 :=
      funext current_left
    simp only [OnCurrent, hcurrent]
    rfl

/-- A condition on the calls under way that looks at the first account only. -/
theorem allSteps_left {C : (Nat → K) → (i : Nat) → (e : ε) → (o : S.Op) → σ → Prop}
    {labels : List (Label κ ε)}
    (h : AllSteps (G.step handle prog) (G.OnCurrent C) labels t.left) :
    AllSteps ((G.both H).step handle prog)
      ((G.both H).OnCurrent fun known => C fun j => (known j).1) labels t := by
  induction labels generalizing t with
  | nil => trivial
  | cons label labels ih =>
    refine ⟨onCurrent_left.mp h.1, ih ?_⟩
    rw [step_left]
    exact h.2

end FetchTask.Knowledge
