import FetchTask.Lib.Knowledge

/-!
Programs of two kinds on one shared state.

`S.sum T` has the operations of both signatures, and a program of either is a
program of the sum. What the programs of the first kind learn about themselves
stays what it is in the sum.
-/

namespace FetchTask

/-- The operations of two signatures. -/
def Sig.sum (S T : Sig) : Sig where
  Op := S.Op ⊕ T.Op
  Res
    | .inl o => S.Res o
    | .inr o => T.Res o

namespace Prog

variable {S T : Sig} {α : Type}

def inl : Prog S α → Prog (S.sum T) α
  | .ret a => .ret a
  | .act o k => .act (.inl o) fun r => (k r).inl

def inr : Prog T α → Prog (S.sum T) α
  | .ret a => .ret a
  | .act o k => .act (.inr o) fun r => (k r).inr

end Prog

namespace Knowledge

variable {S T : Sig} {K α : Type} {G : Knowledge S K} {H : Knowledge T K}

/-- What operations of both kinds teach the threads. -/
def sum (G : Knowledge S K) (H : Knowledge T K) : Knowledge (S.sum T) K where
  start := G.start
  may
    | k, .inl o => G.may k o
    | k, .inr o => H.may k o
  can
    | .inl o, r => G.can o r
    | .inr o, r => H.can o r
  learn
    | k, .inl o, r => G.learn k o r
    | k, .inr o, r => H.learn k o r

theorem Ensures.inl {Q : α → K → Prop} {k : K} {p : Prog S α} (hp : G.Ensures Q k p) :
    (G.sum H).Ensures Q k (p.inl (T := T)) := by
  induction p generalizing k with
  | ret a => exact hp
  | act o c ih => exact ⟨hp.1, fun r hr => ih r (hp.2 r hr)⟩

theorem Ensures.inr {Q : α → K → Prop} {k : K} {p : Prog T α} (hp : H.Ensures Q k p) :
    (G.sum H).Ensures Q k (p.inr (S := S)) := by
  induction p generalizing k with
  | ret a => exact hp
  | act o c ih => exact ⟨hp.1, fun r hr => ih r (hp.2 r hr)⟩

/-- Operations that teach nothing, of which `may` says which may be performed. -/
def mute (start : K) (may : T.Op → Prop) : Knowledge T K where
  start := start
  may _ o := may o
  can _ _ := True
  learn k _ _ := k

/-- The knowledge of the first kind; programs of the second may perform what `may` allows. -/
abbrev sumLeft (G : Knowledge S K) (may : T.Op → Prop) : Knowledge (S.sum T) K :=
  G.sum (mute G.start may)

/-- A program of the second kind that performs allowed operations, whatever their results are. -/
def Allowed (may : T.Op → Prop) : Prog T α → Prop
  | .ret _ => True
  | .act o c => may o ∧ ∀ r, Allowed may (c r)

theorem Allowed.bind {β : Type} {may : T.Op → Prop} {p : Prog T α} {f : α → Prog T β}
    (hp : Allowed may p) (hf : ∀ a, Allowed may (f a)) : Allowed may (p >>= f) := by
  induction p with
  | ret a => exact hf a
  | act o c ih => exact ⟨hp.1, fun r => ih r (hp.2 r)⟩

/-- Where everything is allowed. -/
theorem allowed_all (p : Prog T α) : Allowed (fun _ => True) p := by
  induction p with
  | ret a => trivial
  | act o c ih => exact ⟨trivial, ih⟩

theorem Allowed.inr {may : T.Op → Prop} {Q : K → Prop} {k : K} {p : Prog T α}
    (hp : Allowed may p) (hk : Q k) :
    (G.sumLeft may).Ensures (fun _ => Q) k (p.inr (S := S)) := by
  refine Ensures.inr ?_
  induction p with
  | ret a => exact hk
  | act o c ih => exact ⟨hp.1, fun r _ => ih r (hp.2 r)⟩

end Knowledge

end FetchTask
