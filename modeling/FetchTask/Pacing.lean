import FetchTask.Lib.Pacer
import FetchTask.Runtime
import Mathlib.Algebra.Order.Ring.Rat
import Mathlib.Tactic.Linarith

/-!
Submissions of a worker process (`app/worker.py`, `app/config.py`).

The worker loops of a process are coroutines of one event loop. Before one of
them submits a generation it waits for a slot of its platform, and before it
polls a result it waits for a slot of the polls. Each kind of slot has an
asyncio lock and remembers when the last slot was given. A preparation of a Dola
task does not wait: it is admitted or put off for a number of seconds.

Times are those of `loop.time()`, in seconds; a sleep of the event loop does not
end early. A worker loop can be cancelled wherever it waits, and the settings are
read anew for each slot.
-/

namespace FetchTask.Pacing

open Pacer Runs

/-! ### Settings -/

/-- The values of the configuration file that are read here, `none` where the file has none; an
empty value counts as 0. -/
structure RawConfig where
  dolaSubmitIntervalSeconds : Option Rat := none
  dolaGlobalSubmitIntervalSeconds : Option Rat := none
  dolaExitSubmitIntervalSeconds : Option Rat := none
  qianwenSubmitIntervalSeconds : Option Rat := none

structure Settings where
  dolaSubmitIntervalSeconds : Rat
  dolaGlobalSubmitIntervalSeconds : Rat
  qianwenSubmitIntervalSeconds : Rat

/-- `max(low, min(high, float(value or default)))`. -/
def bounded (low high default value : Rat) : Rat :=
  max low (min high (if value = 0 then default else value))

/-- `load_settings`, over the defaults of `config.py`; the interval of the exits stands in for
the global one in files that do not have that yet. -/
def loadSettings (raw : RawConfig) : Settings where
  dolaSubmitIntervalSeconds := bounded 1 5 5 (raw.dolaSubmitIntervalSeconds.getD 5)
  dolaGlobalSubmitIntervalSeconds :=
    bounded 3 30 12 <|
      (raw.dolaGlobalSubmitIntervalSeconds.or raw.dolaExitSubmitIntervalSeconds).getD 12
  qianwenSubmitIntervalSeconds := bounded 1 30 5 (raw.qianwenSubmitIntervalSeconds.getD 5)

theorem bounded_bounds (low high default value : Rat) (h : low ≤ high) :
    low ≤ bounded low high default value ∧ bounded low high default value ≤ high :=
  ⟨le_max_left .., max_le h (min_le_left ..)⟩

/-! ### Slots -/

/-- What a coroutine waits for: `_wait_for_dola_submit_slot`, `_wait_for_doubao_submit_slot`,
`_wait_for_qianwen_submit_slot` and `_pace_result_poll`. -/
inductive Slot
  | dolaSubmit
  | doubaoSubmit
  | qianwenSubmit
  | resultPoll
  deriving DecidableEq

theorem forall_slot {p : Slot → Prop} : (∀ slot, p slot) ↔
    p .dolaSubmit ∧ p .doubaoSubmit ∧ p .qianwenSubmit ∧ p .resultPoll := by
  refine ⟨fun h => ⟨h _, h _, h _, h _⟩, fun h slot => ?_⟩
  cases slot with
  | dolaSubmit => exact h.1
  | doubaoSubmit => exact h.2.1
  | qianwenSubmit => exact h.2.2.1
  | resultPoll => exact h.2.2.2

/-- `RESULT_POLL_RATE_PER_SECOND`. -/
structure PollRate where
  perSecond : Nat
  bounds : 1 ≤ perSecond ∧ perSecond ≤ 32

variable (rate : PollRate)

/-- The interval that a slot keeps from the last one of its kind. -/
def Slot.interval (settings : Settings) : Slot → Rat
  | .dolaSubmit => settings.dolaGlobalSubmitIntervalSeconds
  | .doubaoSubmit => max 5 settings.dolaSubmitIntervalSeconds
  | .qianwenSubmit => settings.qianwenSubmitIntervalSeconds
  | .resultPoll => 1 / rate.perSecond

/-- The shortest interval that can be configured. -/
def Slot.least : Slot → Rat
  | .dolaSubmit => 3
  | .doubaoSubmit => 5
  | .qianwenSubmit => 1
  | .resultPoll => 1 / rate.perSecond

/-- The longest one. -/
def Slot.longest : Slot → Rat
  | .dolaSubmit => 30
  | .doubaoSubmit => 5
  | .qianwenSubmit => 30
  | .resultPoll => 1 / rate.perSecond

/-- Whatever the file says, the intervals are within their bounds. -/
theorem interval_bounds (raw : RawConfig) (slot : Slot) :
    slot.least rate ≤ slot.interval rate (loadSettings raw) ∧
      slot.interval rate (loadSettings raw) ≤ slot.longest rate := by
  cases slot with
  | dolaSubmit => exact bounded_bounds 3 30 _ _ (by norm_num)
  | doubaoSubmit =>
    exact ⟨le_max_left .., max_le (le_refl 5) (bounded_bounds 1 5 _ _ (by norm_num)).2⟩
  | qianwenSubmit => exact bounded_bounds 1 30 _ _ (by norm_num)
  | resultPoll => exact ⟨le_refl _, le_refl _⟩

theorem least_nonneg (slot : Slot) : 0 ≤ slot.least rate := by
  cases slot with
  | resultPoll => exact div_nonneg zero_le_one (Nat.cast_nonneg _)
  | _ => norm_num [Slot.least]

/-! ### Admission -/

/-- `_admit_dola_preparation`: for how long a preparation is put off, 0 when it is admitted. -/
def admitDolaPreparation (settings : Settings) (now : Rat) (caller : Caller Rat) (log : Log Rat) :
    Int × Log Rat :=
  let delay := settings.dolaGlobalSubmitIntervalSeconds - (now - log.last)
  if 0 < delay then (max 1 (truncate (delay + 999 / 1000)), log)
  else (0, log.pass now settings.dolaGlobalSubmitIntervalSeconds caller)

/-! ### The process -/

structure Process where
  now : Rat
  gates : Slot → Gate Rat
  dolaAdmissions : Log Rat

/-- A manager that was just made: every `_last_…_at` is 0. -/
def Process.new (now : Rat) : Process where
  now
  gates _ := { last := 0, passes := [], queue := [], holder := none }
  dolaAdmissions := { last := 0, passes := [] }

inductive Event
  /-- Time goes on. -/
  | pass (time : Rat)
  /-- A coroutine asks for a slot. -/
  | call (slot : Slot) (coroutine : Nat)
  /-- The first that waits takes the lock and reads the settings. -/
  | enter (slot : Slot) (raw : RawConfig)
  | wake (slot : Slot)
  | cancel (slot : Slot) (coroutine : Nat)
  | admitPreparation (coroutine : Nat) (raw : RawConfig)

def Process.atGate (slot : Slot) (e : Pacer.Event Rat) (s : Process) : Process :=
  { s with gates := Function.update s.gates slot ((s.gates slot).step s.now e) }

def step : Event → Process → Process
  | .pass time, s => if s.now ≤ time then { s with now := time } else s
  | .call slot coroutine, s => s.atGate slot (.call coroutine)
  | .enter slot raw, s => s.atGate slot (.enter (slot.interval rate (loadSettings raw)))
  | .wake slot, s => s.atGate slot .wake
  | .cancel slot coroutine, s => s.atGate slot (.cancel coroutine)
  | .admitPreparation coroutine raw, s =>
    let caller := ⟨coroutine, s.now, 0⟩
    { s with
      dolaAdmissions :=
        (admitDolaPreparation (loadSettings raw) s.now caller s.dolaAdmissions).2 }

/-! ### Slots are apart -/

/-- Passes are an interval apart, each of which is at least `least`, so that there are few of
them in any stretch of time. -/
structure Paced (least : Rat) (log : Log Rat) : Prop where
  apart : log.passes.Pairwise fun newer older => older.time + newer.interval ≤ newer.time
  long : ∀ p ∈ log.passes, least ≤ p.interval
  few : ∀ start stop,
    log.passes.countP (fun p => decide (start ≤ p.time ∧ p.time ≤ stop)) ≠ 0 →
    log.passes.countP (fun p => decide (start ≤ p.time ∧ p.time ≤ stop)) * least ≤
      stop - start + least

structure Process.Paced (s : Process) : Prop where
  slots : ∀ slot, FetchTask.Pacing.Paced (slot.least rate) (s.gates slot).toLog
  admissions : FetchTask.Pacing.Paced 3 s.dolaAdmissions

/-- What every step keeps. -/
structure Process.Kept (s : Process) : Prop where
  gates : ∀ slot, (s.gates slot).Kept s.now
  within : ∀ slot,
    (s.gates slot).Within fun i => slot.least rate ≤ i ∧ i ≤ slot.longest rate
  admissions : s.dolaAdmissions.Spaced
  lastAdmission : s.dolaAdmissions.last ≤ s.now
  admissionIntervals : ∀ p ∈ s.dolaAdmissions.passes, 3 ≤ p.interval

variable {rate} {s : Process}

theorem paced_of_spaced {least : Rat} {log : Log Rat} (hpos : 0 ≤ least) (h : log.Spaced)
    (hleast : ∀ p ∈ log.passes, least ≤ p.interval) : Paced least log where
  apart := h.apart
  long := hleast
  few start stop hsome := by
    have hcount := h.countP_le hpos hleast hsome
    rwa [nsmul_eq_mul] at hcount

theorem Process.Kept.paced (h : s.Kept rate) : s.Paced rate where
  slots slot := paced_of_spaced (least_nonneg rate slot) (h.gates slot).spaced
    fun p hp => ((h.within slot).passes p hp).1
  admissions := paced_of_spaced (by norm_num) h.admissions h.admissionIntervals

theorem kept_admit (h : s.Kept rate) (raw : RawConfig) (caller : Caller Rat) :
    { s with
      dolaAdmissions :=
        (admitDolaPreparation (loadSettings raw) s.now caller s.dolaAdmissions).2 }.Kept rate := by
  simp only [admitDolaPreparation]
  split_ifs with hdelay
  · exact h
  · have hnow : s.dolaAdmissions.last + (loadSettings raw).dolaGlobalSubmitIntervalSeconds ≤ s.now := by
      linarith
    exact { h with
      admissions := h.admissions.pass h.lastAdmission hnow
      lastAdmission := le_refl s.now
      admissionIntervals :=
        List.forall_mem_cons.mpr ⟨(interval_bounds rate raw .dolaSubmit).1, h.admissionIntervals⟩ }

theorem kept_atGate (h : s.Kept rate) (slot : Slot) {e : Pacer.Event Rat}
    (he : ∀ interval, e = .enter interval →
      slot.least rate ≤ interval ∧ interval ≤ slot.longest rate) : (s.atGate slot e).Kept rate := by
  refine { h with gates := fun other => ?_, within := fun other => ?_ }
  · show (Function.update s.gates slot _ other).Kept s.now
    by_cases hother : other = slot
    · subst hother
      rw [Function.update_self]
      exact (h.gates other).step e
    · rw [Function.update_of_ne hother]
      exact h.gates other
  · show (Function.update s.gates slot _ other).Within _
    by_cases hother : other = slot
    · subst hother
      rw [Function.update_self]
      exact (h.within other).step he
    · rw [Function.update_of_ne hother]
      exact h.within other

theorem kept_step (event : Event) (s : Process) (h : s.Kept rate) :
    (step rate event s).Kept rate := by
  cases event with
  | pass time =>
    rw [step]
    split_ifs with hlater
    · exact { h with
        gates := fun slot => (h.gates slot).after hlater
        lastAdmission := h.lastAdmission.trans hlater }
    · exact h
  | call slot coroutine => exact kept_atGate h slot fun interval he => by cases he
  | enter slot raw =>
    refine kept_atGate h slot fun interval he => ?_
    cases he
    exact interval_bounds rate raw slot
  | wake slot => exact kept_atGate h slot fun interval he => by cases he
  | cancel slot coroutine => exact kept_atGate h slot fun interval he => by cases he
  | admitPreparation coroutine raw => exact kept_admit h raw _

theorem kept_new {now : Rat} (hnow : 0 ≤ now) : (Process.new now).Kept rate where
  gates _ := ⟨⟨by simp [Process.new], by simp [Process.new]⟩, hnow, by simp [Process.new]⟩
  within _ := ⟨by simp [Process.new], by simp [Process.new]⟩
  admissions := ⟨by simp [Process.new], by simp [Process.new]⟩
  lastAdmission := hnow
  admissionIntervals := by simp [Process.new]

/-- In every state of a run of a process, whatever its coroutines do and whenever they are
cancelled, and whatever the settings become, slots are as far apart as the settings say. -/
theorem submissions_paced (rate : PollRate) {now : Rat} (hnow : 0 ≤ now) (events : List Event) :
    Throughout (step rate) (fun s => s.Paced rate) events (.new now) :=
  (throughout_of_step kept_step (kept_new hnow)).mono fun _ h => h.paced

/-! ### Who waits is served -/

/-- No coroutine is late: time goes on only when nothing is left to do at a lock. -/
def OnTime : Event → Process → Prop
  | .pass time, s => ∀ slot, (s.gates slot).OnTime time
  | _, _ => True

/-- Who came behind `n` others has its slot within `n + 1` of the longest intervals, or still has
that time; who holds the lock sleeps until a time within them. -/
structure Process.Served (rate : PollRate) (s : Process) : Prop where
  passed : ∀ slot, ∀ p ∈ (s.gates slot).passes, p.time ≤ p.caller.due (slot.longest rate)
  sleeping : ∀ slot, ∀ h ∈ (s.gates slot).holder,
    s.now ≤ h.wake ∧ h.wake ≤ h.caller.due (slot.longest rate)
  waiting : ∀ slot, ∀ c ∈ (s.gates slot).queue, s.now ≤ c.due (slot.longest rate)

structure Process.InTime (rate : PollRate) (s : Process) : Prop extends s.Kept rate where
  timely : ∀ slot, (s.gates slot).Timely (slot.longest rate) s.now

theorem Process.InTime.served (h : s.InTime rate) : s.Served rate where
  passed slot := (h.timely slot).passes
  sleeping slot _ hh := ⟨(h.timely slot).awake hh, (h.timely slot).holder _ hh⟩
  waiting slot _ hc := (h.timely slot).not_overdue hc

theorem timely_atGate (h : s.InTime rate) (slot : Slot) {e : Pacer.Event Rat}
    (he : ∀ interval, e = .enter interval → interval ≤ slot.longest rate) (other : Slot) :
    ((s.atGate slot e).gates other).Timely (other.longest rate) s.now := by
  show (Function.update s.gates slot _ other).Timely _ s.now
  by_cases hother : other = slot
  · subst hother
    rw [Function.update_self]
    exact (h.timely other).step (h.gates other) he
  · rw [Function.update_of_ne hother]
    exact h.timely other

theorem inTime_step (event : Event) (s : Process) (h : s.InTime rate) (htime : OnTime event s) :
    (step rate event s).InTime rate := by
  refine { toKept := kept_step event s h.toKept, timely := fun other => ?_ }
  cases event with
  | pass time =>
    rw [step]
    split_ifs with hlater
    · exact (h.timely other).after hlater (htime other)
    · exact h.timely other
  | call slot coroutine => exact timely_atGate h slot (fun interval he => by cases he) other
  | enter slot raw =>
    refine timely_atGate h slot (fun interval he => ?_) other
    cases he
    exact (interval_bounds rate raw slot).2
  | wake slot => exact timely_atGate h slot (fun interval he => by cases he) other
  | cancel slot coroutine => exact timely_atGate h slot (fun interval he => by cases he) other
  | admitPreparation coroutine raw => exact h.timely other

theorem inTime_new {now : Rat} (hnow : 0 ≤ now) : (Process.new now).InTime rate where
  toKept := kept_new hnow
  timely slot :=
    { soon := ⟨le_refl now, le_add_of_nonneg_right <|
        (least_nonneg rate slot).trans <| (interval_bounds rate {} slot).1.trans
          (interval_bounds rate {} slot).2⟩
      queue := by simp [Process.new]
      holder := by simp [Process.new]
      passes := by simp [Process.new] }

/-- Where no coroutine is late, each waits for the ones before it and once more. -/
theorem coroutines_served (rate : PollRate) {now : Rat} (hnow : 0 ≤ now) {events : List Event}
    (htime : AllSteps (step rate) OnTime events (.new now)) :
    Throughout (step rate) (fun s => s.Served rate) events (.new now) :=
  (throughout_of_allSteps inTime_step (inTime_new hnow) htime).mono fun _ h => h.served

/-! ### Two submissions -/

section Sample

def sampleRate : PollRate := ⟨8, by decide⟩

/-- Two coroutines wait to submit to Doubao; the first finds the slot free. -/
def twoSubmissions : List Event :=
  [.call .doubaoSubmit 1, .call .doubaoSubmit 2, .enter .doubaoSubmit {}, .enter .doubaoSubmit {},
    .pass 105, .wake .doubaoSubmit, .pass 110]

theorem two_submissions_paced :
    Throughout (step sampleRate) (fun s => s.Paced sampleRate) twoSubmissions (.new 100) :=
  submissions_paced sampleRate (by norm_num) twoSubmissions

instance onTime_decidable (event : Event) (s : Process) : Decidable (OnTime event s) :=
  match event with
  | .pass time =>
    decidable_of_iff' _ (forall_slot (p := fun slot => (s.gates slot).OnTime time))
  | .call .. | .enter .. | .wake .. | .cancel .. | .admitPreparation .. => .isTrue trivial

theorem two_submissions_served :
    Throughout (step sampleRate) (fun s => s.Served sampleRate) twoSubmissions (.new 100) :=
  coroutines_served sampleRate (by norm_num) (by decide +kernel)

example : (((run (step sampleRate) twoSubmissions (.new 100)).gates .doubaoSubmit).passes.map
    (·.time)) = [105, 100] := by
  decide +kernel

end Sample

end FetchTask.Pacing
