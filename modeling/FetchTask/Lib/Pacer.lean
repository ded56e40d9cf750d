import FetchTask.Lib.Runs
import Mathlib.Algebra.Order.Group.Basic
import Mathlib.Algebra.Order.Group.Defs
import Mathlib.Data.List.NodupEquivFin
import Mathlib.Order.WellFounded
import Mathlib.Tactic.Abel

/-!
Pacers.

A pacer lets its callers pass one at a time and keeps them apart. A caller that
finds the lock free takes it, reads an interval, sleeps until the last pass is
that interval ago and passes; the others queue for the lock. A caller may give
up while it queues and while it sleeps.

Passes are as far apart as the intervals say (`Log.Spaced`), whatever the callers
do, so that no stretch of time holds many of them (`Log.Spaced.countP_le`). And
where everybody is on time, who comes behind `n` others passes within `n + 1`
intervals (`Timely`).
-/

namespace FetchTask.Pacer

universe u

variable {K : Type u} [AddCommGroup K] [LinearOrder K]

/-! ### Passes -/

/-- A caller that came at a time, when some were before it. -/
structure Caller (K : Type u) where
  id : Nat
  joined : K
  ahead : Nat

/-- When a caller has to have passed if no interval is longer than `longest`. -/
def Caller.due (longest : K) (c : Caller K) : K := c.joined + (c.ahead + 1) • longest

structure Pass (K : Type u) where
  caller : Caller K
  time : K
  interval : K

/-- The last pass, and all of them, the newest first. -/
structure Log (K : Type u) where
  last : K
  passes : List (Pass K)

def Log.pass (now interval : K) (caller : Caller K) (log : Log K) : Log K :=
  { last := now, passes := ⟨caller, now, interval⟩ :: log.passes }

/-- Every pass came an interval after the ones before it. -/
structure Log.Spaced (log : Log K) : Prop where
  earlier : ∀ p ∈ log.passes, p.time ≤ log.last
  apart : log.passes.Pairwise fun newer older => older.time + newer.interval ≤ newer.time

section Spaced

variable [IsOrderedAddMonoid K] {log : Log K} {now interval : K} {caller : Caller K}

theorem Log.Spaced.pass (h : log.Spaced) (hlast : log.last ≤ now)
    (hnow : log.last + interval ≤ now) : (log.pass now interval caller).Spaced where
  earlier p hp := by
    rcases List.mem_cons.mp hp with rfl | hp
    · exact le_refl now
    · exact (h.earlier p hp).trans hlast
  apart := by
    refine List.pairwise_cons.mpr ⟨fun older holder => ?_, h.apart⟩
    calc older.time + interval
      _ ≤ log.last + interval := add_le_add_left (h.earlier older holder) interval
      _ ≤ now := hnow

/-- Passes in a stretch of time, of which all but the first took an interval each. -/
theorem countP_le_of_apart {least start stop : K} {passes : List (Pass K)}
    (hapart : passes.Pairwise fun newer older => older.time + newer.interval ≤ newer.time)
    (hleast : ∀ p ∈ passes, least ≤ p.interval) (hpos : 0 ≤ least)
    (hsome : passes.countP (fun p => decide (start ≤ p.time ∧ p.time ≤ stop)) ≠ 0) :
    passes.countP (fun p => decide (start ≤ p.time ∧ p.time ≤ stop)) • least ≤
      stop - start + least := by
  induction passes generalizing stop with
  | nil => exact absurd rfl hsome
  | cons p passes ih =>
    obtain ⟨hp, hrest⟩ := List.pairwise_cons.mp hapart
    have hold : ∀ older ∈ passes, older.time ≤ p.time - least := fun older holder =>
      le_sub_iff_add_le.mpr <|
        (add_le_add_right (hleast p List.mem_cons_self) older.time).trans (hp older holder)
    have hleast' := fun q hq => hleast q (List.mem_cons_of_mem p hq)
    by_cases hin : start ≤ p.time ∧ p.time ≤ stop
    · -- What came before `p` ended an interval before it.
      have hcut : passes.countP (fun q => decide (start ≤ q.time ∧ q.time ≤ stop)) =
          passes.countP fun q => decide (start ≤ q.time ∧ q.time ≤ p.time - least) := by
        refine List.countP_congr fun q hq => ?_
        have hqle := hold q hq
        have hqstop : q.time ≤ stop := hqle.trans ((sub_le_self _ hpos).trans hin.2)
        simp [hqle, hqstop]
      rw [List.countP_cons_of_pos (by simpa using hin), hcut, succ_nsmul]
      by_cases hnone : passes.countP
          (fun q => decide (start ≤ q.time ∧ q.time ≤ p.time - least)) = 0
      · rw [hnone, zero_nsmul, zero_add]
        exact le_add_of_nonneg_left (sub_nonneg.mpr (hin.1.trans hin.2))
      · refine add_le_add_left ?_ least
        calc _ ≤ p.time - least - start + least := ih hrest hleast' hnone
          _ = p.time - start := by abel
          _ ≤ stop - start := sub_le_sub_right hin.2 start
    · rw [List.countP_cons_of_neg (by simpa using hin)] at hsome ⊢
      exact ih hrest hleast' hsome

/-- No stretch of time holds more passes than it is long in intervals, and one. -/
theorem Log.Spaced.countP_le (h : log.Spaced) {least start stop : K} (hpos : 0 ≤ least)
    (hleast : ∀ p ∈ log.passes, least ≤ p.interval)
    (hsome : log.passes.countP (fun p => decide (start ≤ p.time ∧ p.time ≤ stop)) ≠ 0) :
    log.passes.countP (fun p => decide (start ≤ p.time ∧ p.time ≤ stop)) • least ≤
      stop - start + least :=
  countP_le_of_apart h.apart hleast hpos hsome

end Spaced

/-! ### The lock -/

/-- The caller that has the lock and sleeps. -/
structure Holder (K : Type u) where
  caller : Caller K
  interval : K
  wake : K

structure Gate (K : Type u) extends Log K where
  queue : List (Caller K)
  holder : Option (Holder K)

inductive Event (K : Type u)
  /-- A caller queues for the lock. -/
  | call (id : Nat)
  /-- The first in the queue takes the free lock and reads an interval. -/
  | enter (interval : K)
  /-- The sleep is over. -/
  | wake
  /-- A caller gives up. -/
  | cancel (id : Nat)

namespace Gate

/-- How many a caller that comes now has before it. -/
def waiting (g : Gate K) : Nat := g.queue.length + (if g.holder.isSome then 1 else 0)

/-- Whether a caller queues or sleeps. -/
def holds (g : Gate K) (id : Nat) : Bool :=
  g.queue.any (fun c => c.id == id) || g.holder.any fun h => h.caller.id == id

def call (now : K) (id : Nat) (g : Gate K) : Gate K :=
  if g.holds id then g else { g with queue := g.queue ++ [⟨id, now, g.waiting⟩] }

def enter (now interval : K) (g : Gate K) : Gate K :=
  match g.holder, g.queue with
  | none, caller :: queue =>
    let delay := interval - (now - g.last)
    if 0 < delay then { g with queue, holder := some ⟨caller, interval, now + delay⟩ }
    else { g.toLog.pass now interval caller with queue, holder := none }
  | _, _ => g

def wake (now : K) (g : Gate K) : Gate K :=
  match g.holder with
  | some h =>
    if h.wake ≤ now then
      { g.toLog.pass now h.interval h.caller with queue := g.queue, holder := none }
    else g
  | none => g

def cancel (id : Nat) (g : Gate K) : Gate K :=
  { g with
    queue := g.queue.filter fun c => c.id != id
    holder := g.holder.filter fun h => h.caller.id != id }

def step (now : K) (g : Gate K) : Event K → Gate K
  | .call id => g.call now id
  | .enter interval => g.enter now interval
  | .wake => g.wake now
  | .cancel id => g.cancel id

/-- The sleeper wakes an interval after the last pass. -/
structure Kept (now : K) (g : Gate K) : Prop where
  spaced : g.toLog.Spaced
  last : g.last ≤ now
  wakes : ∀ h ∈ g.holder, h.wake = g.last + h.interval

section Kept

variable {now later interval : K} {g : Gate K} {id : Nat}

/-- What taking the lock does: nothing, or the first of the queue sleeps, or it passes. -/
theorem enter_cases [IsOrderedAddMonoid K] (now interval : K) (g : Gate K) :
    g.enter now interval = g ∨
    g.holder = none ∧ ∃ caller queue, g.queue = caller :: queue ∧
      (now < g.last + interval ∧
          g.enter now interval =
            { g with queue, holder := some ⟨caller, interval, g.last + interval⟩ } ∨
        g.last + interval ≤ now ∧
          g.enter now interval =
            { g.toLog.pass now interval caller with queue, holder := none }) := by
  rcases hholder : g.holder with - | h
  · rcases hqueue : g.queue with - | ⟨caller, queue⟩
    · exact .inl (by simp only [enter, hholder, hqueue])
    · refine .inr ⟨rfl, caller, queue, rfl, ?_⟩
      have hwake : now + (interval - (now - g.last)) = g.last + interval := by abel
      have hdelay : 0 < interval - (now - g.last) ↔ now < g.last + interval := by
        rw [sub_pos, sub_lt_iff_lt_add']
      by_cases hlate : now < g.last + interval
      · exact .inl ⟨hlate, by simp only [enter, hholder, hqueue, if_pos (hdelay.mpr hlate), hwake]⟩
      · exact .inr ⟨not_lt.mp hlate, by
          simp only [enter, hholder, hqueue, if_neg (mt hdelay.mp hlate)]⟩
  · exact .inl (by simp only [enter, hholder])

omit [AddCommGroup K] in
theorem wake_cases (now : K) (g : Gate K) : g.wake now = g ∨
    ∃ h, g.holder = some h ∧ h.wake ≤ now ∧
      g.wake now =
        { g.toLog.pass now h.interval h.caller with queue := g.queue, holder := none } := by
  rcases hholder : g.holder with - | h
  · exact .inl (by simp only [wake, hholder])
  · by_cases hwake : h.wake ≤ now
    · exact .inr ⟨h, rfl, hwake, by simp only [wake, hholder, if_pos hwake]⟩
    · exact .inl (by simp only [wake, hholder, if_neg hwake])

omit [AddCommGroup K] [LinearOrder K] in
theorem call_cases (now : K) (id : Nat) (g : Gate K) : g.call now id = g ∨
    g.call now id = { g with queue := g.queue ++ [⟨id, now, g.waiting⟩] } := by
  rw [call]
  split_ifs
  · exact .inl rfl
  · exact .inr rfl

omit [AddCommGroup K] [LinearOrder K] in
theorem mem_cancel_holder {h : Holder K} (hh : h ∈ (g.cancel id).holder) : h ∈ g.holder :=
  (Option.filter_eq_some_iff.mp hh).1

theorem Kept.after (h : g.Kept now) (hnow : now ≤ later) : g.Kept later :=
  { h with last := h.last.trans hnow }

variable [IsOrderedAddMonoid K]

/-- Every step of a gate keeps the passes apart. -/
theorem Kept.step (h : g.Kept now) (event : Event K) : (g.step now event).Kept now := by
  cases event with
  | call id =>
    show (g.call now id).Kept now
    rcases call_cases now id g with heq | heq
    · rwa [heq]
    · rw [heq]
      exact { h with }
  | enter interval =>
    show (g.enter now interval).Kept now
    rcases enter_cases now interval g with
      heq | ⟨-, caller, queue, -, ⟨-, heq⟩ | ⟨hnow, heq⟩⟩
    · rwa [heq]
    · rw [heq]
      refine { h with wakes := ?_ }
      rintro _ ⟨⟩
      rfl
    · rw [heq]
      refine ⟨h.spaced.pass h.last hnow, le_refl now, ?_⟩
      rintro _ ⟨⟩
  | wake =>
    show (g.wake now).Kept now
    rcases wake_cases now g with heq | ⟨sleeper, hholder, hwake, heq⟩
    · rwa [heq]
    · rw [heq]
      refine ⟨h.spaced.pass h.last ?_, le_refl now, ?_⟩
      · rwa [← h.wakes sleeper hholder]
      · rintro _ ⟨⟩
  | cancel id =>
    exact { h with wakes := fun sleeper hsleeper => h.wakes sleeper (mem_cancel_holder hsleeper) }

/-- The intervals that the passes took are intervals that were read. -/
structure Within (p : K → Prop) (g : Gate K) : Prop where
  passes : ∀ pass ∈ g.passes, p pass.interval
  holder : ∀ h ∈ g.holder, p h.interval

theorem Within.step {p : K → Prop} (h : g.Within p) {event : Event K}
    (hevent : ∀ interval, event = .enter interval → p interval) :
    (g.step now event).Within p := by
  cases event with
  | call id =>
    show (g.call now id).Within p
    rcases call_cases now id g with heq | heq
    · rwa [heq]
    · rw [heq]
      exact { h with }
  | enter interval =>
    have hp := hevent interval rfl
    show (g.enter now interval).Within p
    rcases enter_cases now interval g with
      heq | ⟨-, caller, queue, -, ⟨-, heq⟩ | ⟨-, heq⟩⟩
    · rwa [heq]
    · rw [heq]
      refine { h with holder := ?_ }
      rintro _ ⟨⟩
      exact hp
    · rw [heq]
      refine ⟨List.forall_mem_cons.mpr ⟨hp, h.passes⟩, ?_⟩
      rintro _ ⟨⟩
  | wake =>
    show (g.wake now).Within p
    rcases wake_cases now g with heq | ⟨sleeper, hholder, -, heq⟩
    · rwa [heq]
    · rw [heq]
      refine ⟨List.forall_mem_cons.mpr ⟨h.holder sleeper hholder, h.passes⟩, ?_⟩
      rintro _ ⟨⟩
  | cancel id =>
    exact { h with holder := fun sleeper hsleeper => h.holder sleeper (mem_cancel_holder hsleeper) }

end Kept

/-! ### Callers in time -/

section Timely

variable [IsOrderedAddMonoid K] {longest now later : K} {g : Gate K}

/-- When the lock can be taken next. -/
def free (now : K) (g : Gate K) : K := g.holder.elim now Holder.wake

/-- Nobody is late: time does not pass over the end of a sleep, nor while the lock can be taken. -/
def OnTime (later : K) (g : Gate K) : Prop :=
  match g.holder with
  | some h => later ≤ h.wake
  | none => g.queue = []

instance OnTime.decidable (later : K) (g : Gate K) : Decidable (g.OnTime later) :=
  match h : g.holder with
  | some sleeper => decidable_of_iff (later ≤ sleeper.wake) (by simp only [OnTime, h])
  | none => decidable_of_iff (g.queue.isEmpty = true) (by simp only [OnTime, h, List.isEmpty_iff])

/-- Whoever waits can still pass when it has to, and whoever passed did. -/
structure Timely (longest now : K) (g : Gate K) : Prop where
  soon : now ≤ g.free now ∧ g.free now ≤ now + longest
  queue : ∀ i c, g.queue[i]? = some c → g.free now + (i + 1) • longest ≤ c.due longest
  holder : ∀ h ∈ g.holder, h.wake ≤ h.caller.due longest
  passes : ∀ p ∈ g.passes, p.time ≤ p.caller.due longest

theorem Timely.after (h : g.Timely longest now) (hnow : now ≤ later) (htime : g.OnTime later) :
    g.Timely longest later := by
  rcases hholder : g.holder with - | sleeper
  · have hnone : g.queue = [] := by simpa only [OnTime, hholder] using htime
    have hlongest : 0 ≤ longest := nonneg_of_le_add_right (h.soon.1.trans h.soon.2)
    refine ⟨?_, fun i c hc => ?_, h.holder, h.passes⟩
    · simp [free, hholder, hlongest]
    · rw [hnone] at hc
      cases hc
  · have hfree : g.free later = g.free now := by simp [free, hholder]
    have hwake : g.free now = sleeper.wake := by simp [free, hholder]
    have hsleep : later ≤ sleeper.wake := by simpa only [OnTime, hholder] using htime
    refine ⟨?_, fun i c hc => hfree ▸ h.queue i c hc, h.holder, h.passes⟩
    rw [hfree]
    exact ⟨hwake ▸ hsleep, h.soon.2.trans (add_le_add_left hnow longest)⟩

theorem Timely.longest_nonneg (h : g.Timely longest now) : 0 ≤ longest :=
  nonneg_of_le_add_right (h.soon.1.trans h.soon.2)

omit [AddCommGroup K] [LinearOrder K] [IsOrderedAddMonoid K] in
/-- Who is still in the queue has not moved back in it. -/
theorem exists_of_cancel {id i : Nat} {c : Caller K} (hc : (g.cancel id).queue[i]? = some c) :
    ∃ j, i ≤ j ∧ g.queue[j]? = some c := by
  obtain ⟨f, hf⟩ := List.sublist_iff_exists_orderEmbedding_getElem?_eq.mp
    (List.filter_sublist (p := fun c => c.id != id) (l := g.queue))
  exact ⟨f i, f.strictMono.le_apply, (hf i).symm.trans hc⟩

theorem Timely.cancel (h : g.Timely longest now) (id : Nat) :
    (g.cancel id).Timely longest now := by
  have hfree : (g.cancel id).free now = g.free now ∨ (g.cancel id).free now = now := by
    rcases hholder : g.holder with - | sleeper
    · exact .inr (by simp [free, Gate.cancel, hholder])
    · by_cases hid : sleeper.caller.id = id
      · exact .inr (by simp [free, Gate.cancel, hholder, Option.filter, hid])
      · exact .inl (by simp [free, Gate.cancel, hholder, Option.filter, hid])
  have hle : (g.cancel id).free now ≤ g.free now := by
    rcases hfree with heq | heq
    · exact heq.le
    · exact heq.le.trans h.soon.1
  refine ⟨?_, fun i c hc => ?_, fun sleeper hsleeper => ?_, h.passes⟩
  · rcases hfree with heq | heq
    · exact heq ▸ h.soon
    · rw [heq]
      exact ⟨le_refl now, le_add_of_nonneg_right h.longest_nonneg⟩
  · obtain ⟨j, hij, hj⟩ := exists_of_cancel hc
    calc (g.cancel id).free now + (i + 1) • longest
      _ ≤ g.free now + (j + 1) • longest :=
        add_le_add hle (nsmul_le_nsmul_left h.longest_nonneg (Nat.succ_le_succ hij))
      _ ≤ c.due longest := h.queue j c hj
  · exact h.holder sleeper (mem_cancel_holder hsleeper)

theorem Timely.call (h : g.Timely longest now) (id : Nat) : (g.call now id).Timely longest now := by
  rcases call_cases now id g with heq | heq
  · rwa [heq]
  · rw [heq]
    refine { h with queue := fun i c hc => ?_ }
    rcases lt_trichotomy i g.queue.length with hlt | heq | hgt
    · rw [List.getElem?_append_left hlt] at hc
      exact h.queue i c hc
    · -- The caller that came now.
      subst heq
      rw [List.getElem?_concat_length] at hc
      cases hc
      show g.free now + (g.queue.length + 1) • longest ≤ now + (g.waiting + 1) • longest
      rcases hholder : g.holder with - | sleeper
      · have hfree : g.free now = now := by simp [free, hholder]
        have hwaiting : g.waiting = g.queue.length := by simp [waiting, hholder]
        rw [hfree, hwaiting]
      · have hwaiting : g.waiting = g.queue.length + 1 := by simp [waiting, hholder]
        rw [hwaiting, succ_nsmul _ (g.queue.length + 1), add_comm _ longest, ← add_assoc]
        exact add_le_add_left h.soon.2 _
    · rw [List.getElem?_eq_none (by rw [List.length_append]; exact hgt)] at hc
      cases hc

theorem Timely.enter (h : g.Timely longest now) (hkept : g.Kept now) {interval : K}
    (hinterval : interval ≤ longest) : (g.enter now interval).Timely longest now := by
  rcases enter_cases now interval g with
    heq | ⟨hholder, caller, queue, hqueue, ⟨hlate, heq⟩ | ⟨hnow, heq⟩⟩
  · rwa [heq]
  · have hfree : g.free now = now := by simp [free, hholder]
    have hsoon : g.last + interval ≤ now + longest := add_le_add hkept.last hinterval
    rw [heq]
    refine ⟨⟨hlate.le, hsoon⟩, fun i c hc => ?_, ?_, h.passes⟩
    · have hold := h.queue (i + 1) c (by rw [hqueue]; exact hc)
      rw [hfree, succ_nsmul _ (i + 1), add_comm _ longest, ← add_assoc] at hold
      exact (add_le_add_left hsoon _).trans hold
    · rintro _ ⟨⟩
      have hold := h.queue 0 caller (by rw [hqueue]; rfl)
      rw [hfree, zero_add, one_nsmul] at hold
      exact hsoon.trans hold
  · have hfree : g.free now = now := by simp [free, hholder]
    have hpos := h.longest_nonneg
    rw [heq]
    refine ⟨⟨le_refl now, le_add_of_nonneg_right hpos⟩, fun i c hc => ?_, ?_,
      List.forall_mem_cons.mpr ⟨?_, h.passes⟩⟩
    · have hold := h.queue (i + 1) c (by rw [hqueue]; exact hc)
      rw [hfree] at hold
      exact (add_le_add_right (nsmul_le_nsmul_left hpos (Nat.le_succ _)) now).trans hold
    · rintro _ ⟨⟩
    · have hold := h.queue 0 caller (by rw [hqueue]; rfl)
      rw [hfree, zero_add, one_nsmul] at hold
      exact (le_add_of_nonneg_right hpos).trans hold

theorem Timely.wake (h : g.Timely longest now) : (g.wake now).Timely longest now := by
  rcases wake_cases now g with heq | ⟨sleeper, hholder, hwake, heq⟩
  · rwa [heq]
  · have hfree : g.free now = sleeper.wake := by simp [free, hholder]
    have hnow : sleeper.wake = now := le_antisymm hwake (hfree ▸ h.soon.1)
    rw [heq]
    refine ⟨⟨le_refl now, le_add_of_nonneg_right h.longest_nonneg⟩, fun i c hc => ?_, ?_,
      List.forall_mem_cons.mpr ⟨?_, h.passes⟩⟩
    · have hold := h.queue i c hc
      rwa [hfree, hnow] at hold
    · rintro _ ⟨⟩
    · exact hnow ▸ h.holder sleeper hholder

theorem Timely.step (h : g.Timely longest now) (hkept : g.Kept now) {event : Event K}
    (hevent : ∀ interval, event = .enter interval → interval ≤ longest) :
    (g.step now event).Timely longest now := by
  cases event with
  | call id => exact h.call id
  | enter interval => exact h.enter hkept (hevent interval rfl)
  | wake => exact h.wake
  | cancel id => exact h.cancel id

omit [IsOrderedAddMonoid K] in
theorem Timely.awake (h : g.Timely longest now) {sleeper : Holder K} (hsleeper : sleeper ∈ g.holder) :
    now ≤ sleeper.wake := by
  have hnow := h.soon.1
  rwa [free, Option.mem_def.mp hsleeper] at hnow

/-- Nobody who waits is overdue. -/
theorem Timely.not_overdue (h : g.Timely longest now) {c : Caller K} (hc : c ∈ g.queue) :
    now ≤ c.due longest := by
  obtain ⟨i, hi⟩ := List.mem_iff_getElem?.mp hc
  have hstep : 0 ≤ (i + 1) • longest := nsmul_nonneg h.longest_nonneg _
  exact (h.soon.1.trans (le_add_of_nonneg_right hstep)).trans (h.queue i c hi)

end Timely

end Gate

end FetchTask.Pacer
