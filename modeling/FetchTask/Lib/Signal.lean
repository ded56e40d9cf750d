import FetchTask.Lib.Sum

/-!
Evidence that a thread has seen, and when.

A `Signal` says which results are evidence of something that can pass again.
Programs are checked as if evidence lasted: `seen` rises and does not fall. In a
run the operations carry who performs them, and every result carries a value of
the state at that moment, so that a thread that has seen evidence knows the
moment it is of; whether it still holds then is a matter of comparing moments.
-/

namespace FetchTask

/-- The operations of `S`, each with who performs it; a result carries a value of the state. -/
def Sig.tagged (A γ : Type) (S : Sig) : Sig where
  Op := A × S.Op
  Res o := S.Res o.2 × γ

namespace Prog

variable {S T : Sig} {A γ α β : Type}

/-- The program, performed by `a`; it does not look at the values. -/
def tagged (a : A) : Prog S α → Prog (S.tagged A γ) α
  | .ret x => .ret x
  | .act o k => .act (a, o) fun r => (k r.1).tagged a

end Prog

/-- What is evidence, and what may be done with and without it. -/
structure Signal (S : Sig) where
  may : Bool → S.Op → Prop
  shows : (o : S.Op) → S.Res o → Bool

namespace Signal

open Knowledge

variable {S T : Sig} {A γ α β : Type}

/-- A program that has seen evidence goes on having seen it. -/
def knowledge (σ : Signal S) : Knowledge S Bool where
  start := false
  may := σ.may
  can _ _ := True
  learn seen o r := seen || σ.shows o r

def sum (σ : Signal S) (τ : Signal T) : Signal (S.sum T) where
  may
    | seen, .inl o => σ.may seen o
    | seen, .inr o => τ.may seen o
  shows
    | .inl o, r => σ.shows o r
    | .inr o, r => τ.shows o r

/-- The moment of the last evidence. Only those who are `bound` keep to what they may do. -/
def stamped (σ : Signal S) (bound : A → Prop) : Knowledge (S.tagged A γ) (Option γ) where
  start := none
  may k o := bound o.1 → σ.may k.isSome o.2
  can _ _ := True
  learn k o r := if σ.shows o.2 r.1 then some r.2 else k

variable {σ : Signal S} {τ : Signal T}

theorem ensures_raised {Q : α → Bool → Prop} {p : Prog S α}
    (hp : σ.knowledge.Ensures Q true p) :
    σ.knowledge.Ensures (fun a seen => seen = true ∧ Q a seen) true p := by
  induction p with
  | ret a => exact ⟨rfl, hp⟩
  | act o c ih => exact ⟨hp.1, fun r hr => ih r (hp.2 r hr)⟩

theorem ensures_inl {Q : α → Bool → Prop} {seen : Bool} {p : Prog S α}
    (hp : σ.knowledge.Ensures Q seen p) : (σ.sum τ).knowledge.Ensures Q seen p.inl := by
  induction p generalizing seen with
  | ret a => exact hp
  | act o c ih => exact ⟨hp.1, fun r hr => ih r (hp.2 r hr)⟩

/-! ### Checking programs -/

/-- The program keeps to what it may do, if evidence has been seen whenever `P`. -/
def Cautious (σ : Signal S) (P : Prop) (p : Prog S α) : Prop :=
  ∀ seen, (P → seen = true) → σ.knowledge.Ensures (fun _ _ => True) seen p

section Cautious

variable {P P' : Prop}

theorem Cautious.mono {p : Prog S α} (hp : σ.Cautious P p) (h : P → P') : σ.Cautious P' p :=
  fun seen hseen => hp seen fun hP => hseen (h hP)

theorem cautious_pure (x : α) : σ.Cautious P (pure x : Prog S α) := fun _ _ => trivial

theorem Cautious.bind {p : Prog S α} {f : α → Prog S β} (hp : σ.Cautious P p)
    (hf : ∀ a, σ.Cautious P (f a)) : σ.Cautious P (p >>= f) := by
  intro seen hseen
  by_cases hP : P
  · obtain rfl := hseen hP
    have hraised := ensures_raised (hp true fun _ => rfl)
    exact Ensures.bind hraised fun a seen hseen => hf a seen fun _ => hseen.1
  · exact Ensures.bind (hp seen hseen) fun a seen _ => hf a seen fun h => absurd h hP

/-- One operation; what it shows counts for the rest. -/
theorem cautious_act {o : S.Op} {f : S.Res o → Prog S α}
    (ho : ∀ seen, (P → seen = true) → σ.may seen o)
    (hf : ∀ r, σ.Cautious (P ∨ σ.shows o r = true) (f r)) :
    σ.Cautious P (.act o f) := by
  intro seen hseen
  refine ⟨ho seen hseen, fun r _ => hf r _ ?_⟩
  show _ → (seen || σ.shows o r) = true
  rintro (hP | hshows)
  · simp [hseen hP]
  · simp [hshows]

theorem Cautious.inl {p : Prog S α} (hp : σ.Cautious P p) : (σ.sum τ).Cautious P p.inl :=
  fun seen hseen => ensures_inl (hp seen hseen)

end Cautious

/-! ### Tagged programs -/

variable {bound : A → Prop} {a : A}

theorem ensures_tagged {Q : α → Bool → Prop} {k : Option γ} {p : Prog S α}
    (hp : σ.knowledge.Ensures Q k.isSome p) :
    (σ.stamped bound).Ensures (fun x k => Q x k.isSome) k (p.tagged a) := by
  induction p generalizing k with
  | ret x => exact hp
  | act o c ih =>
    refine ⟨fun _ => hp.1, fun r _ => ih r.1 ?_⟩
    have hnext := hp.2 r.1 trivial
    have hseen : ((σ.stamped bound).learn k (a, o) r).isSome = (k.isSome || σ.shows o r.1) := by
      show (if σ.shows o r.1 then some r.2 else k).isSome = _
      cases σ.shows o r.1 <;> simp
    rw [hseen]
    exact hnext

/-- Who is not bound may do anything. -/
theorem ensures_unbound {k : Option γ} {p : Prog S α} (ha : ¬ bound a) :
    (σ.stamped bound).Ensures (fun _ _ => True) k (p.tagged a) := by
  induction p generalizing k with
  | ret x => trivial
  | act o c ih => exact ⟨fun hbound => absurd hbound ha, fun r _ => ih r.1⟩

end Signal

end FetchTask
