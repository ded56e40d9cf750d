import FetchTask.Lib.Prog

/-!
Coroutines that hand their work to helper threads, and their cancellation.

A coroutine is a tree: it changes its notes, it hands an operation to a helper
thread and waits for the result, or it waits for something outside. It can be
cancelled wherever it waits, and then goes on with another program. A helper that
has not begun is withdrawn with the wait. One that has begun is not stopped: it
finishes when nobody waits for it any more.

`Custody` says which items of a shared state an operation frees, and which ones a
coroutine must free once it has a result. A coroutine `Carries` an item when it is
bound to hand over an operation that frees it, however it is cancelled. What is
taken is then carried or about to be freed in every run in which no helper's result
is lost that somebody must free, and no freeing is withdrawn (`kept_run`).
-/

namespace FetchTask

open Runs

/-- A coroutine over operations `S`, that waits for values `V` from outside and keeps notes `L`. -/
inductive Coro (S : Sig) (V L : Type)
  | ret
  | tell (f : L → L) (c : Coro S V L)
  /-- Go on with the result, or with `stop` when the wait is cancelled. -/
  | offload (o : S.Op) (k : S.Res o → Coro S V L) (stop : Coro S V L)
  | wait (k : V → Coro S V L) (stop : Coro S V L)

/-- Where a coroutine waits. -/
inductive Waiting (S : Sig) (V L : Type)
  | ended
  | queued (o : S.Op) (k : S.Res o → Coro S V L) (stop : Coro S V L)
  | working (o : S.Op) (k : S.Res o → Coro S V L) (stop : Coro S V L)
  /-- The helper has finished, and the coroutine has not gone on yet. -/
  | done (o : S.Op) (r : S.Res o) (k : S.Res o → Coro S V L) (stop : Coro S V L)
  | outside (k : V → Coro S V L) (stop : Coro S V L)

namespace Coro

variable {S : Sig} {V L : Type}

/-- A coroutine runs to its next wait. -/
def launch : Coro S V L → L → Waiting S V L × L
  | .ret, notes => (.ended, notes)
  | .tell f c, notes => c.launch (f notes)
  | .offload o k stop, notes => (.queued o k stop, notes)
  | .wait k stop, notes => (.outside k stop, notes)

end Coro

/-- A shared state, one coroutine, and the helpers that nobody waits for. -/
structure Host (S : Sig) (V L σ : Type) where
  shared : σ
  notes : L
  task : Waiting S V L
  left : List S.Op

inductive Event (κ ε V ω : Type)
  /-- A coroutine is started; there is one at a time. -/
  | start (call : κ)
  | begin
  | work (e : ε)
  | resume
  | happen (v : V)
  | cancel
  /-- One of the helpers that nobody waits for does its work. -/
  | finish (i : Nat) (e : ε)
  /-- Somebody else changes the shared state. -/
  | other (w : ω)

section Host

variable {S : Sig} {V L σ κ ε ω : Type}

def Host.launch (h : Host S V L σ) (c : Coro S V L) : Host S V L σ :=
  let (task, notes) := c.launch h.notes
  { h with task, notes }

@[simp] theorem Host.launch_shared (h : Host S V L σ) (c : Coro S V L) :
    (h.launch c).shared = h.shared := rfl

@[simp] theorem Host.launch_left (h : Host S V L σ) (c : Coro S V L) :
    (h.launch c).left = h.left := rfl

@[simp] theorem Host.launch_task (h : Host S V L σ) (c : Coro S V L) :
    (h.launch c).task = (c.launch h.notes).1 := rfl

variable (handle : Handler S σ ε) (coro : κ → Coro S V L) (others : ω → σ → σ)

/-- One step; an event that the coroutine is not waiting for does nothing. -/
def Host.step : Event κ ε V ω → Host S V L σ → Host S V L σ
  | .start call, h =>
    match h.task with
    | .ended => h.launch (coro call)
    | _ => h
  | .begin, h =>
    match h.task with
    | .queued o k stop => { h with task := .working o k stop }
    | _ => h
  | .work e, h =>
    match h.task with
    | .working o k stop =>
      let (r, shared) := handle e o h.shared
      { h with shared, task := .done o r k stop }
    | _ => h
  | .resume, h =>
    match h.task with
    | .done _ r k _ => h.launch (k r)
    | _ => h
  | .happen v, h =>
    match h.task with
    | .outside k _ => h.launch (k v)
    | _ => h
  | .cancel, h =>
    match h.task with
    | .ended => h
    | .queued _ _ stop => h.launch stop
    | .working o _ stop => { h with left := o :: h.left }.launch stop
    | .done _ _ _ stop => h.launch stop
    | .outside _ stop => h.launch stop
  | .finish i e, h =>
    match h.left[i]? with
    | some o => { h with shared := (handle e o h.shared).2, left := h.left.eraseIdx i }
    | none => h
  | .other w, h => { h with shared := others w h.shared }

variable {handle coro others}

/-- What every operation and everybody else keeps of the shared state, every step keeps. -/
theorem Host.step_inv {P : σ → σ → Prop} (hrefl : ∀ s, P s s)
    (hhandle : ∀ e o s, P s (handle e o s).2) (hothers : ∀ w s, P s (others w s))
    (event : Event κ ε V ω) (h : Host S V L σ) :
    P h.shared (Host.step handle coro others event h).shared := by
  cases event with
  | start call =>
    simp only [Host.step]
    split <;> exact hrefl _
  | begin =>
    simp only [Host.step]
    split <;> exact hrefl _
  | work e =>
    simp only [Host.step]
    split
    · exact hhandle e _ _
    · exact hrefl _
  | resume =>
    simp only [Host.step]
    split <;> exact hrefl _
  | happen v =>
    simp only [Host.step]
    split <;> exact hrefl _
  | cancel =>
    simp only [Host.step]
    split <;> exact hrefl _
  | finish i e =>
    simp only [Host.step]
    split
    · exact hhandle e _ _
    · exact hrefl _
  | other w => exact hothers w _

end Host

/-! ### Custody -/

/-- What operations mean for the items of type `T`. -/
structure Custody (S : Sig) (T : Type) where
  /-- The operation makes sure that the item is free. -/
  frees : S.Op → T → Prop
  /-- With this result somebody must free the item. -/
  owes : (o : S.Op) → S.Res o → T → Prop

namespace Custody

variable {S : Sig} {T V L : Type} (C : Custody S T)

/-- The coroutine is bound to free the item, however it is cancelled. -/
def Carries (t : T) : Coro S V L → Prop
  | .ret => False
  | .tell _ c => Carries t c
  | .offload o k stop => C.frees o t ∨ ((∀ r, Carries t (k r)) ∧ Carries t stop)
  | .wait k stop => (∀ v, Carries t (k v)) ∧ Carries t stop

/-- The coroutine carries every item that it comes to owe. -/
def Sound : Coro S V L → Prop
  | .ret => True
  | .tell _ c => Sound c
  | .offload o k stop => (∀ r, (∀ t, C.owes o r t → C.Carries t (k r)) ∧ Sound (k r)) ∧ Sound stop
  | .wait k stop => (∀ v, Sound (k v)) ∧ Sound stop

/-- `Carries`, where the coroutine waits. A result may be lost, so what was owed before it must
be carried by both ways on. -/
def WaitCarries (t : T) : Waiting S V L → Prop
  | .ended => False
  | .queued o k stop => C.Carries t (.offload o k stop)
  | .working o k stop => C.Carries t (.offload o k stop)
  | .done o r k stop => C.Carries t (k r) ∧ (C.owes o r t ∨ C.Carries t stop)
  | .outside k stop => C.Carries t (.wait k stop)

def WaitSound : Waiting S V L → Prop
  | .ended => True
  | .queued o k stop => C.Sound (.offload o k stop)
  | .working o k stop => C.Sound (.offload o k stop)
  | .done _ r k stop => C.Sound (k r) ∧ C.Sound stop
  | .outside k stop => C.Sound (.wait k stop)

variable {C}

theorem waitCarries_launch (t : T) (c : Coro S V L) (notes : L) :
    C.WaitCarries t (c.launch notes).1 ↔ C.Carries t c := by
  induction c generalizing notes with
  | ret => exact Iff.rfl
  | tell f c ih => exact ih (f notes)
  | offload o k stop => exact Iff.rfl
  | wait k stop => exact Iff.rfl

theorem waitSound_launch (c : Coro S V L) (notes : L) :
    C.WaitSound (c.launch notes).1 ↔ C.Sound c := by
  induction c generalizing notes with
  | ret => exact Iff.rfl
  | tell f c ih => exact ih (f notes)
  | offload o k stop => exact Iff.rfl
  | wait k stop => exact Iff.rfl

/-! ### Runs -/

section Runs

variable {σ κ ε ω : Type} {handle : Handler S σ ε} {coro : κ → Coro S V L} {others : ω → σ → σ}
  {taken : σ → T → Prop} {before : T → Prop} {D : ε → S.Op → σ → Prop}

/-- The coroutine is sound, and what is taken was taken before, is carried by the coroutine, or
is freed by a helper that nobody waits for. -/
structure Kept (C : Custody S T) (taken : σ → T → Prop) (before : T → Prop)
    (h : Host S V L σ) : Prop where
  sound : C.WaitSound h.task
  carried : ∀ t, taken h.shared t → before t ∨ C.WaitCarries t h.task ∨ ∃ o ∈ h.left, C.frees o t

/-- What must be known of the operations: under `D`, what is taken after one was taken all along
and is not freed by it, or is owed. -/
def Accounted (C : Custody S T) (handle : Handler S σ ε) (taken : σ → T → Prop)
    (D : ε → S.Op → σ → Prop) : Prop :=
  ∀ e o s t, D e o s → taken (handle e o s).2 t →
    (taken s t ∧ ¬ C.frees o t) ∨ C.owes o (handle e o s).1 t

/-- Nothing goes wrong: the operations are accounted for, a cancellation withdraws no operation
that would free a taken item and loses no result with which one must be freed, and a helper that
nobody waits for has no such result either. -/
def Undisturbed (C : Custody S T) (handle : Handler S σ ε) (taken : σ → T → Prop)
    (D : ε → S.Op → σ → Prop) : Event κ ε V ω → Host S V L σ → Prop
  | .work e, h =>
    match h.task with
    | .working o _ _ => D e o h.shared
    | _ => True
  | .cancel, h =>
    match h.task with
    | .queued o _ _ => ∀ t, taken h.shared t → ¬ C.frees o t
    | .done o r _ _ => ∀ t, taken h.shared t → ¬ C.owes o r t
    | _ => True
  | .finish i e, h => ∀ o ∈ h.left[i]?, D e o h.shared ∧ ∀ t, ¬ C.owes o (handle e o h.shared).1 t
  | _, _ => True

/-- The coroutine goes on with a program that is sound and carries what it carried. -/
theorem Kept.launch {h : Host S V L σ} (hkept : Kept C taken before h) {c : Coro S V L}
    (hsound : C.Sound c)
    (hcarried : ∀ t, taken h.shared t → C.WaitCarries t h.task → C.Carries t c) :
    Kept C taken before (h.launch c) := by
  refine ⟨(waitSound_launch c h.notes).mpr hsound, fun t ht => ?_⟩
  rcases hkept.carried t ht with hbefore | htask | hleft
  · exact .inl hbefore
  · exact .inr (.inl ((waitCarries_launch t c h.notes).mpr (hcarried t ht htask)))
  · exact .inr (.inr hleft)

/-- The invariant rule: the helper that the coroutine waits for does its work. -/
theorem Kept.work (hacc : Accounted C handle taken D) {h : Host S V L σ}
    (hkept : Kept C taken before h) {o : S.Op} {k : S.Res o → Coro S V L} {stop : Coro S V L}
    (htask : h.task = .working o k stop) {e : ε} (hD : D e o h.shared) :
    Kept C taken before
      { h with
        shared := (handle e o h.shared).2, task := .done o (handle e o h.shared).1 k stop } := by
  obtain ⟨hsound, hcarried⟩ := hkept
  rw [htask] at hsound hcarried
  obtain ⟨hresult, hstop⟩ := hsound
  refine ⟨⟨(hresult _).2, hstop⟩, fun t ht => ?_⟩
  rcases hacc e o h.shared t hD ht with ⟨hbefore, hfrees⟩ | howes
  · rcases hcarried t hbefore with hbefore | hfree | hleft
    · exact .inl hbefore
    · -- The operation does not free the item, so both ways on carry it.
      obtain ⟨hk, hs⟩ := hfree.resolve_left hfrees
      exact .inr (.inl ⟨hk _, .inr hs⟩)
    · exact .inr (.inr hleft)
  · exact .inr (.inl ⟨(hresult _).1 t howes, .inl howes⟩)

/-- The invariant rule: a cancellation. -/
theorem Kept.cancel {h : Host S V L σ} (hkept : Kept C taken before h)
    (hC : Undisturbed C handle taken D (.cancel : Event κ ε V ω) h) :
    Kept C taken before (Host.step handle coro others (.cancel : Event κ ε V ω) h) := by
  have hsound := hkept.sound
  simp only [Undisturbed] at hC
  simp only [Host.step]
  cases htask : h.task with
  | ended => exact hkept
  | queued o k stop =>
    rw [htask] at hsound hC
    refine hkept.launch hsound.2 fun t ht hcarries => ?_
    rw [htask] at hcarries
    exact (hcarries.resolve_left (hC t ht)).2
  | working o k stop =>
    rw [htask] at hsound
    refine ⟨(waitSound_launch stop h.notes).mpr hsound.2, fun t ht => ?_⟩
    rcases hkept.carried t ht with hbefore | hcarries | ⟨o', hmem, hfrees⟩
    · exact .inl hbefore
    · rw [htask] at hcarries
      rcases hcarries with hfrees | ⟨-, hstop⟩
      · -- The helper is not stopped, and frees the item when it finishes.
        exact .inr (.inr ⟨o, List.mem_cons_self, hfrees⟩)
      · exact .inr (.inl ((waitCarries_launch t stop h.notes).mpr hstop))
    · exact .inr (.inr ⟨o', List.mem_cons_of_mem _ hmem, hfrees⟩)
  | done o r k stop =>
    rw [htask] at hsound hC
    refine hkept.launch hsound.2 fun t ht hcarries => ?_
    rw [htask] at hcarries
    exact hcarries.2.resolve_left (hC t ht)
  | outside k stop =>
    rw [htask] at hsound
    refine hkept.launch hsound.2 fun t _ hcarries => ?_
    rw [htask] at hcarries
    exact hcarries.2

/-- The invariant rule: a helper that nobody waits for does its work. -/
theorem Kept.finish (hacc : Accounted C handle taken D) {h : Host S V L σ}
    (hkept : Kept C taken before h) {i : Nat} {o : S.Op} (hi : h.left[i]? = some o) {e : ε}
    (hD : D e o h.shared) (howes : ∀ t, ¬ C.owes o (handle e o h.shared).1 t) :
    Kept C taken before
      { h with shared := (handle e o h.shared).2, left := h.left.eraseIdx i } := by
  refine ⟨hkept.sound, fun t ht => ?_⟩
  obtain ⟨hbefore, hfrees⟩ := (hacc e o h.shared t hD ht).resolve_right (howes t)
  rcases hkept.carried t hbefore with hbefore | hcarries | ⟨o', hmem, hfree⟩
  · exact .inl hbefore
  · exact .inr (.inl hcarries)
  · -- The helper that frees the item is another one.
    obtain ⟨j, hj⟩ := List.getElem?_of_mem hmem
    have hne : j ≠ i := by
      rintro rfl
      rw [hi] at hj
      exact hfrees (Option.some.inj hj ▸ hfree)
    exact .inr (.inr ⟨o', List.mem_eraseIdx_iff_getElem?.mpr ⟨j, hne, hj⟩, hfree⟩)

/-- The invariant rule: one step. -/
theorem kept_step (hacc : Accounted C handle taken D) (hcoro : ∀ call, C.Sound (coro call))
    (hothers : ∀ w s t, taken (others w s) t → taken s t) (event : Event κ ε V ω)
    (h : Host S V L σ) (hkept : Kept C taken before h)
    (hC : Undisturbed C handle taken D event h) :
    Kept C taken before (Host.step handle coro others event h) := by
  cases event with
  | start call =>
    simp only [Host.step]
    split
    · rename_i htask
      refine hkept.launch (hcoro call) fun t _ hcarries => ?_
      rw [htask] at hcarries
      exact hcarries.elim
    · exact hkept
  | begin =>
    simp only [Host.step]
    split
    · rename_i htask
      obtain ⟨hsound, hcarried⟩ := hkept
      rw [htask] at hsound hcarried
      exact ⟨hsound, hcarried⟩
    · exact hkept
  | work e =>
    simp only [Undisturbed] at hC
    simp only [Host.step]
    split
    · rename_i o k stop htask
      rw [htask] at hC
      exact hkept.work hacc htask hC
    · exact hkept
  | resume =>
    simp only [Host.step]
    split
    · rename_i htask
      have hsound := hkept.sound
      rw [htask] at hsound
      refine hkept.launch hsound.1 fun t _ hcarries => ?_
      rw [htask] at hcarries
      exact hcarries.1
    · exact hkept
  | happen v =>
    simp only [Host.step]
    split
    · rename_i htask
      have hsound := hkept.sound
      rw [htask] at hsound
      refine hkept.launch (hsound.1 v) fun t _ hcarries => ?_
      rw [htask] at hcarries
      exact hcarries.1 v
    · exact hkept
  | cancel => exact hkept.cancel hC
  | finish i e =>
    simp only [Host.step]
    cases hi : h.left[i]? with
    | none => exact hkept
    | some o =>
      obtain ⟨hD, howes⟩ := hC o hi
      exact hkept.finish hacc hi hD howes
  | other w => exact ⟨hkept.sound, fun t ht => hkept.carried t (hothers w h.shared t ht)⟩

/-- The invariant rule: a run. -/
theorem kept_run (hacc : Accounted C handle taken D) (hcoro : ∀ call, C.Sound (coro call))
    (hothers : ∀ w s t, taken (others w s) t → taken s t) {events : List (Event κ ε V ω)}
    {h : Host S V L σ} (hkept : Kept C taken before h)
    (hC : AllSteps (Host.step handle coro others) (Undisturbed C handle taken D) events h) :
    Throughout (Host.step handle coro others) (Kept C taken before) events h :=
  throughout_of_allSteps (fun event h hkept hC => kept_step hacc hcoro hothers event h hkept hC)
    hkept hC

/-- When the coroutine has ended and all helpers have finished, nothing is taken that was not
taken before. -/
theorem Kept.free_of_ended {h : Host S V L σ} (hkept : Kept C taken before h)
    (htask : h.task = .ended) (hleft : h.left = []) {t : T} (ht : taken h.shared t) : before t := by
  rcases hkept.carried t ht with hbefore | hcarries | ⟨o, hmem, -⟩
  · exact hbefore
  · rw [htask] at hcarries
    exact hcarries.elim
  · rw [hleft] at hmem
    cases hmem

end Runs

end Custody

end FetchTask
