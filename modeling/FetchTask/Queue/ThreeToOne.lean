import FetchTask.Lib.Bursts
import FetchTask.Queue.FileClaims

/-!
New and retried tasks are claimed three to one.

Both queues count first-time claims since the last retry, and prefer retries from three
on. A claim that could return a task of the kind that it prefers returns no task of the
other (`claimFrom_prefers`, `claimNextPending_prefers`), so the rule of `Bursts`
applies to any sequence of claims, whatever happens to the queue between them.
-/

namespace FetchTask.Queue

open Bursts Prog Runs Store

/-! ### Claims in sequence -/

/-- The records and the queue, and the streak of the one claimer. -/
structure Claimer where
  world : World
  streak : Nat := 0

/-! ### The Redis queue -/

/-- What happens to a queue with one claimer; `times` are the readings of the clock in a call.
Whatever else happens is a change of the records and the lists. -/
inductive RedisEvent
  | claim (worker : WorkerId) (limits : Limits) (times : List Int)
  | enqueue (t : TaskId) (availableAt : Option Int) (times : List Int)
  | requeue (t : TaskId) (availableAt : Option Int) (retrying : Option Bool) (times : List Int)
  | change (world : World)

/-- The program of `requeue`, with its keyword argument. -/
def requeueCall (t : TaskId) (availableAt : Option Int) : Option Bool → Call Unit
  | none => requeue t availableAt
  | some retrying => requeueAs retrying t availableAt

section Redis

variable (u : Chars)

/-- What a claim takes, and from which list, and what it leaves. -/
def redisOutcome (worker : WorkerId) (limits : Limits) (times : List Int) (s : Claimer) :
    Option (Option (TaskId × Bool) × World) :=
  alone (handle u) (claimFrom worker limits s.streak) times s.world

def redisStep : RedisEvent → Claimer → Claimer
  | .claim worker limits times, s =>
    match redisOutcome u worker limits times s with
    | none => s
    | some (claimed, world) => { world, streak := nextStreak s.streak claimed }
  | .enqueue t availableAt times, s =>
    { s with world := (alone (handle u) (enqueue t availableAt) times s.world).elim s.world Prod.snd }
  | .requeue t availableAt retrying times, s =>
    { s with
      world := (alone (handle u) (requeueCall t availableAt retrying) times s.world).elim s.world
        Prod.snd }
  | .change world, s => { s with world }

/-- The kind of the list that a claim takes from, `claimed_from_retry`. -/
def redisTakes : RedisEvent → Claimer → Option Bool
  | .claim worker limits times, s =>
    (redisOutcome u worker limits times s).bind fun (claimed, _) => claimed.map Prod.snd
  | _, _ => none

/-- What a claim takes from a list is of its kind, as the record says. -/
def TakesByRecord : RedisEvent → Claimer → Prop
  | .claim worker limits times, s =>
    ∀ t fromRetry world, redisOutcome u worker limits times s = some (some (t, fromRetry), world) →
      ∃ m, world.tasks.get? t = some m ∧ metaIsRetry m = fromRetry
  | _, _ => True

/-- A task of the kind exists that the claim could return. -/
def redisWaits (retrying : Bool) : RedisEvent → Claimer → Prop
  | .claim _ limits times, s => ∃ t, Claimable (· ∈ times) limits retrying t s.world
  | _, _ => True

/-- A caller that says of which kind the task is says it by the record, and what happens besides
leaves no task in a line of the other kind. -/
def RedisEvent.Proper : RedisEvent → Claimer → Prop
  | .requeue t _ (some retrying) _, s => IsKind retrying t s.world
  | .change world, _ => Sorted world
  | _, _ => True

variable {u}

/-- A claim in the interleaved system, while no other thread acts. -/
theorem run_claim {worker : WorkerId} {limits : Limits} {times : List Int} {s : Claimer}
    {claimed : Option (TaskId × Bool)} {world : World}
    (hrun : redisOutcome u worker limits times s = some (claimed, world)) (i : Nat)
    (threads : Nat → Call Unit) :
    run (step u) (.spawn i (.claim worker limits s.streak) :: times.map fun now => .act i now)
        ⟨s.world, Function.update threads i (.ret ())⟩ =
      ⟨world, Function.update threads i (.ret ())⟩ := by
  have hcall : alone (handle u) (QueueCall.prog (.claim worker limits s.streak)) times s.world =
      some ((), world) := by
    rw [QueueCall.prog, claim_eq]
    exact alone_map _ _ (alone_map _ _ (alone_map _ _ hrun))
  have hspawn : step u (.spawn i (.claim worker limits s.streak))
      ⟨s.world, Function.update threads i (.ret ())⟩ =
        ⟨s.world, Function.update threads i (QueueCall.prog (.claim worker limits s.streak))⟩ := by
    simp [step, Config.step]
  rw [run, hspawn]
  exact run_alone (handle u) i threads hcall

theorem sorted_elim {α : Type} {call : Call α} {times : List Int} {w : World} (h : Sorted w)
    (hcall : EndsSorted u (· ∈ times) call w) :
    Sorted ((alone (handle u) call times w).elim w Prod.snd) := by
  cases hrun : alone (handle u) call times w with
  | none => exact h
  | some result => exact hcall.alone (fun _ hmem => hmem) hrun

theorem redis_claimed {worker : WorkerId} {limits : Limits} {times : List Int} {s : Claimer}
    (h : Sorted s.world) {claimed : Option (TaskId × Bool)} {world : World}
    (hrun : redisOutcome u worker limits times s = some (claimed, world)) :
    Sorted world ∧ ∀ t fromRetry, claimed = some (t, fromRetry) →
      ∃ m, world.tasks.get? t = some m ∧ metaIsRetry m = fromRetry :=
  (sorted_claimFrom h worker limits s.streak).alone (fun _ hmem => hmem) hrun

theorem redis_sorted (event : RedisEvent) (s : Claimer) (h : Sorted s.world) (hproper : event.Proper s) :
    Sorted (redisStep u event s).world := by
  cases event with
  | claim worker limits times =>
    simp only [redisStep]
    cases hrun : redisOutcome u worker limits times s with
    | none => exact h
    | some outcome => exact (redis_claimed h hrun).1
  | enqueue t availableAt times => exact sorted_elim h (sorted_enqueue h availableAt)
  | requeue t availableAt retrying times =>
    refine sorted_elim h ?_
    cases retrying with
    | none => exact sorted_requeue h availableAt
    | some retrying => exact sorted_requeueAs h hproper availableAt
  | change world => exact hproper

/-- The claims keep to the records, as long as nobody puts a task into a line of the other kind. -/
theorem redis_byRecord (events : List RedisEvent) (s : Claimer) (h : Sorted s.world)
    (hproper : AllSteps (redisStep u) RedisEvent.Proper events s) :
    AllSteps (redisStep u) (TakesByRecord u) events s := by
  refine allSteps_of_invariant (P := fun s => Sorted s.world) redis_sorted ?_ h hproper
  intro event s h _
  cases event with
  | claim worker limits times =>
    exact fun t fromRetry world hrun => (redis_claimed h hrun).2 t fromRetry rfl
  | enqueue t availableAt times => trivial
  | requeue t availableAt retrying times => trivial
  | change world => trivial

theorem redis_streak (event : RedisEvent) (s : Claimer) :
    (redisStep u event s).streak = count s.streak (redisTakes u event s) := by
  cases event with
  | claim worker limits times =>
    simp only [redisStep, redisTakes]
    rcases redisOutcome u worker limits times s with - | ⟨- | ⟨t, fromRetry⟩, world⟩
    · rfl
    · rfl
    · cases fromRetry <;> rfl
  | enqueue t availableAt times => rfl
  | requeue t availableAt retrying times => rfl
  | change world => rfl

/-- The kind that the claim prefers, where it could return a task of that kind. -/
theorem redis_prefers {event : RedisEvent} {s : Claimer} {retrying kind : Bool}
    (hwaits : redisWaits retrying event s) (hprefer : decide (3 ≤ s.streak) = retrying)
    (htakes : redisTakes u event s = some kind) : kind = retrying := by
  cases event with
  | claim worker limits times =>
    obtain ⟨t, hclaimable⟩ := hwaits
    obtain ⟨⟨claimed, world⟩, hrun, hkind⟩ := Option.bind_eq_some_iff.mp htakes
    obtain ⟨⟨i, fromRetry⟩, rfl, rfl⟩ := Option.map_eq_some_iff.mp hkind
    have hprefers := (claimFrom_prefers hclaimable hprefer worker).alone (fun _ hmem => hmem) hrun
    exact hprefers i fromRetry rfl
  | enqueue t availableAt times => cases htakes
  | requeue t availableAt retrying times => cases htakes
  | change world => cases htakes

theorem redis_mixed (events : List RedisEvent) (s : Claimer) (hstart : s.streak = 0) :
    Mixed (redisStep u) (redisTakes u) redisWaits 3 events s :=
  mixed_of_counter redis_streak (fun _ _ _ _ => redis_prefers) hstart

end Redis

/-! ### The file queue -/

/-- What happens to the records; enqueuing and requeuing do nothing in the file queue. -/
inductive FileEvent
  | claim (c : FileClaim) (moments : List Moment)
  | change (world : World)

/-- What a claim that has run alone returns, and what it leaves. -/
abbrev Outcome := Option ((Option TaskId × Nat) × World)

def Claimer.after (s : Claimer) : Outcome → Claimer
  | none => s
  | some ((_, streak), world) => { world, streak }

/-- The kind of the task that was claimed, by its record. -/
def Outcome.kind (outcome : Outcome) : Option Bool :=
  outcome.bind fun (result, w) => result.1.bind fun t => (w.tasks.get? t).map metaIsRetry

theorem Counted.kind {streak : Nat} {result : Option TaskId × Nat} {w : World}
    (h : Counted streak result w) :
    result.2 = count streak (Outcome.kind (some (result, w))) := by
  rcases h with ⟨hnone, hsame⟩ | ⟨t, m, hsome, hget, hstreak⟩
  · simp [Outcome.kind, hnone, hsame, count]
  · rw [hstreak]
    cases hm : metaIsRetry m <;> simp [Outcome.kind, hsome, hget, hm, count]

theorem streak_after {s : Claimer} {outcome : Outcome}
    (h : ∀ result w, outcome = some (result, w) → Counted s.streak result w) :
    (s.after outcome).streak = count s.streak outcome.kind := by
  rcases outcome with - | ⟨result, w⟩
  · rfl
  · exact (h result w rfl).kind

/-- Where the counter tells what kind was claimed. -/
theorem kind_of_takesKind {streak : Nat} {retrying kind : Bool} {outcome : Outcome}
    (h : ∀ result w, outcome = some (result, w) →
      Counted streak result w ∧ TakesKind streak retrying result)
    (hkind : outcome.kind = some kind) : kind = retrying := by
  rcases outcome with - | ⟨result, w⟩
  · cases hkind
  · obtain ⟨hcounted, htakes⟩ := h result w rfl
    have hstreak := hcounted.kind
    rw [hkind] at hstreak
    have hsome : result.1 ≠ none := by
      intro hnone
      simp [Outcome.kind, hnone] at hkind
    rw [htakes hsome] at hstreak
    cases kind <;> cases retrying <;> simp [count] at hstreak ⊢

section Files

variable (u : Chars)

def fileOutcome (c : FileClaim) (moments : List Moment) (s : Claimer) : Outcome :=
  alone (fileHandle u) (claimNextPending c s.streak) moments s.world

def fileStep : FileEvent → Claimer → Claimer
  | .claim c moments, s => s.after (fileOutcome u c moments s)
  | .change world, s => { s with world }

def fileTakes : FileEvent → Claimer → Option Bool
  | .claim c moments, s => (fileOutcome u c moments s).kind
  | _, _ => none

/-- A task of the kind exists that the claim could return. -/
def fileWaits (retrying : Bool) : FileEvent → Claimer → Prop
  | .claim c moments, s =>
    ∃ t m, FileStartable (fun now => ∃ e ∈ moments, e.now = now) c t m s.world ∧ t ∉ c.claimed ∧
      metaIsRetry m = retrying
  | _, _ => True

variable {u}

theorem file_counted {c : FileClaim} {moments : List Moment} {s : Claimer}
    (result : Option TaskId × Nat) (w : World) (hrun : fileOutcome u c moments s = some (result, w)) :
    Counted s.streak result w :=
  (counted_claimNextPending (E := fun now => ∃ e ∈ moments, e.now = now) s.streak).alone
    (fun e hmem => ⟨e, hmem, rfl⟩) hrun

theorem file_streak (event : FileEvent) (s : Claimer) :
    (fileStep u event s).streak = count s.streak (fileTakes u event s) := by
  cases event with
  | claim c moments => exact streak_after file_counted
  | change world => rfl

theorem file_prefers {event : FileEvent} {s : Claimer} {retrying kind : Bool}
    (hwaits : fileWaits retrying event s) (hprefer : decide (3 ≤ s.streak) = retrying)
    (htakes : fileTakes u event s = some kind) : kind = retrying := by
  cases event with
  | claim c moments =>
    obtain ⟨t, m, hstartable, hclaimed, hkind⟩ := hwaits
    refine kind_of_takesKind (fun result w hrun => ⟨file_counted result w hrun, ?_⟩) htakes
    exact (claimNextPending_prefers hstartable hclaimed hkind hprefer).alone
      (fun e hmem => ⟨e, hmem, rfl⟩) hrun
  | change world => cases htakes

theorem file_mixed (events : List FileEvent) (s : Claimer) (hstart : s.streak = 0) :
    Mixed (fileStep u) (fileTakes u) fileWaits 3 events s :=
  mixed_of_counter file_streak (fun _ _ _ _ => file_prefers) hstart

end Files

/-- In either queue, with any changes between the claims: while a retry could be claimed, at most
three first-time tasks are claimed in a row, and while a first-time task could be claimed, a retry
is claimed only after at least three first-time tasks since the last. The lists that a claim of the
Redis queue takes from hold the tasks whose records say so. -/
theorem three_to_one (u : Chars) :
    (∀ (events : List RedisEvent) (s : Claimer), s.streak = 0 →
      Mixed (redisStep u) (redisTakes u) redisWaits 3 events s ∧
        (Sorted s.world → AllSteps (redisStep u) RedisEvent.Proper events s →
          AllSteps (redisStep u) (TakesByRecord u) events s)) ∧
    ∀ (events : List FileEvent) (s : Claimer), s.streak = 0 →
      Mixed (fileStep u) (fileTakes u) fileWaits 3 events s :=
  ⟨fun events s hstart => ⟨redis_mixed events s hstart, redis_byRecord events s⟩, file_mixed⟩

/-- A first-time task and a retry. -/
def sampleClaimer : Claimer where
  world :=
    { redis := { ready := ["a"], retryReady := ["b"] }
      tasks := ⟨[("a", { status := .pending }), ("b", { status := .pending, retryCount := 1 })], by decide⟩
      results := fun _ => {}
      paused := false }

theorem sorted_sample : Sorted sampleClaimer.world := by
  intro retrying t m hline hget
  have hmem : t ∈ if retrying then ["b"] else ["a"] := by
    cases retrying <;> exact hline.resolve_right (by simp [sampleClaimer, Redis.delayedOf])
  cases retrying with
  | false =>
    obtain rfl := List.mem_singleton.mp hmem
    obtain rfl : { status := .pending } = m := Option.some.inj hget
    rfl
  | true =>
    obtain rfl := List.mem_singleton.mp hmem
    obtain rfl : { status := .pending, retryCount := 1 } = m := Option.some.inj hget
    rfl

/-- The second claim looks into both lists. -/
def sampleEvents : List RedisEvent :=
  [.claim "w" (fun _ => none) (List.replicate 15 0), .claim "w" (fun _ => none) (List.replicate 16 0)]

example : taken (redisStep .ascii) (redisTakes .ascii) sampleEvents sampleClaimer = [false, true] := by
  decide +kernel

example : fileTakes .ascii (.claim { worker := "w" } (List.replicate 14 { now := 0 })) sampleClaimer =
    some false := by decide +kernel

theorem three_to_one_sample :
    (Mixed (redisStep .ascii) (redisTakes .ascii) redisWaits 3 sampleEvents sampleClaimer ∧
      AllSteps (redisStep .ascii) (TakesByRecord .ascii) sampleEvents sampleClaimer) ∧
    Mixed (fileStep .ascii) (fileTakes .ascii) fileWaits 3
      [.claim { worker := "w" } (List.replicate 14 { now := 0 })] sampleClaimer :=
  ⟨⟨((three_to_one .ascii).1 _ sampleClaimer rfl).1,
    ((three_to_one .ascii).1 _ sampleClaimer rfl).2 sorted_sample ⟨trivial, trivial, trivial⟩⟩,
    (three_to_one .ascii).2 _ sampleClaimer rfl⟩

end FetchTask.Queue
