import FetchTask.RegistrationSecurity

/-!
When the two backends of the registration blocker say the same.

A counter in Redis expires a fixed time after the first failure that it counts;
an entry of the table stops counting when its last failure is that old. So they
say the same exactly as long as no failure finds one of them counting and the
other not.
-/

namespace FetchTask.RegistrationSecurity

open Expiring Runs

/-! ### An entry as a call finds it -/

@[simp] theorem refresh_failures (now : Nat) (state : LocalState) :
    (state.refresh now).failures =
      if failureWindowSeconds ≤ now - state.lastFailure then 0 else state.failures := rfl

@[simp] theorem refresh_blockedUntil (now : Nat) (state : LocalState) :
    (state.refresh now).blockedUntil =
      if state.blockedUntil ≤ now then 0 else state.blockedUntil := rfl

/-- Refreshing an entry does not change what is found later. -/
theorem refresh_refresh {now later : Nat} (h : now ≤ later) (state : LocalState) :
    (state.refresh now).refresh later = state.refresh later := by
  obtain ⟨failures, lastFailure, blockedUntil⟩ := state
  simp only [LocalState.refresh, LocalState.mk.injEq]
  refine ⟨?_, trivial, ?_⟩
  · split_ifs <;> omega
  · split_ifs <;> omega

theorem refresh_left (now : Nat) (state : LocalState) :
    (state.refresh now).blockedUntil - now = state.blockedUntil - now := by
  rw [refresh_blockedUntil]
  split_ifs <;> omega

/-- What is left of a block is rounded to itself. -/
theorem retryAfter_eq (now : Nat) (state : LocalState) :
    state.retryAfter now = ((state.blockedUntil - now : Nat) : Int) := by
  rw [LocalState.retryAfter, Int.tdiv_eq_ediv]
  by_cases hleft : 0 ≤ ((state.blockedUntil : Int) - now) * 1000 + 999
  · rw [if_pos (.inl hleft)]
    omega
  · have hsign : (1000 : Int).sign = 1 := rfl
    split_ifs <;> omega

theorem redisBlockRetry_eq (lasting : Bool) (now : Nat) (keys : RedisKeys) :
    redisBlockRetry lasting now keys = ((ttl lasting now keys.blocked).toNat : Int) := by
  rw [redisBlockRetry]
  omega

@[simp] theorem countFailure_value (lasting : Bool) (window now : Nat)
    (failures : Option (Key Nat Nat)) :
    (countFailure lasting window now failures).value = count lasting now failures + 1 := by
  rw [← incr_value, countFailure]
  split_ifs <;> rfl

theorem prune_of_le {table : Table} (h : table.size ≤ maxLocalKeys) (now : Nat) :
    prune now table = table := if_neg (not_lt.mpr h)

/-! ### What a failure does -/

section Failure

variable {lasting : Bool} {client : String} {now : Nat} {keys : RedisKeys} {table : Table}

theorem redisRecordFailure_of_blocked (h : 0 < ttl lasting now keys.blocked) :
    redisRecordFailure lasting now keys =
      (⟨failureThreshold, ttl lasting now keys.blocked, false⟩, keys) := by
  simp [redisRecordFailure, failureScript, h]

theorem localRecordFailure_of_blocked (h : now < ((entry client table).refresh now).blockedUntil)
    (hidle : ((entry client table).refresh now).failures = 0) :
    localRecordFailure client now table =
      (⟨failureThreshold, (((entry client table).refresh now).blockedUntil - now : Nat), false⟩,
        table.set client ((entry client table).refresh now)) := by
  have hretry : ((entry client table).refresh now).retryAfter now ≠ 0 := by
    rw [retryAfter_eq]
    omega
  rw [localRecordFailure, localState]
  simp only [if_pos hretry, if_pos hidle]
  rw [retryAfter_eq]

/-- A failure that blocks the client on Redis. -/
theorem redisRecordFailure_full (h : ttl lasting now keys.blocked ≤ 0)
    (hfull : failureThreshold ≤ count lasting now keys.failures + 1) :
    redisRecordFailure lasting now keys =
      (⟨(count lasting now keys.failures + 1 : Nat), blockSeconds, true⟩,
        { failures := none, blocked := some ⟨"1", some (now + blockSeconds)⟩ }) := by
  simp only [redisRecordFailure, failureScript, if_neg (not_lt.mpr h), countFailure_value,
    if_pos hfull]
  rfl

/-- A failure that Redis only counts. -/
theorem redisRecordFailure_counted (h : ttl lasting now keys.blocked ≤ 0)
    (hbelow : count lasting now keys.failures + 1 < failureThreshold) :
    redisRecordFailure lasting now keys =
      (⟨(count lasting now keys.failures + 1 : Nat), 0, false⟩,
        { keys with
          failures := some (countFailure lasting failureWindowSeconds now keys.failures) }) := by
  simp only [redisRecordFailure, failureScript, if_neg (not_lt.mpr h), countFailure_value,
    if_neg (not_le.mpr hbelow)]
  rfl

/-- The table with the entry of a client, where the other clients leave room for it. -/
theorem size_set_le_max (hroom : (table.erase client).size < maxLocalKeys) (state : LocalState) :
    (table.set client state).size ≤ maxLocalKeys := by
  have hsize := Dict.size_le_erase (table.set client state) client
  rw [Dict.erase_set] at hsize
  omega

/-- A failure that blocks the client in the table. -/
theorem localRecordFailure_full (hroom : (table.erase client).size < maxLocalKeys)
    (h : ((entry client table).refresh now).blockedUntil ≤ now)
    (hfull : failureThreshold ≤ ((entry client table).refresh now).failures + 1) :
    localRecordFailure client now table =
      (⟨failureThreshold, blockSeconds, true⟩,
        (table.set client ((entry client table).refresh now)).set client
          ⟨0, now, now + blockSeconds⟩) := by
  have hretry : ¬ ((entry client table).refresh now).retryAfter now ≠ 0 := by
    rw [retryAfter_eq]
    omega
  rw [localRecordFailure, localState]
  simp only [if_neg hretry, decide_eq_true hfull, if_true]
  rw [prune_of_le (size_set_le_max (by rwa [Dict.erase_set]) _)]

/-- A failure that the table only counts. -/
theorem localRecordFailure_counted (hroom : (table.erase client).size < maxLocalKeys)
    (h : ((entry client table).refresh now).blockedUntil ≤ now)
    (hbelow : ((entry client table).refresh now).failures + 1 < failureThreshold) :
    localRecordFailure client now table =
      (⟨(((entry client table).refresh now).failures + 1 : Nat), 0, false⟩,
        (table.set client ((entry client table).refresh now)).set client
          { (entry client table).refresh now with
            failures := ((entry client table).refresh now).failures + 1, lastFailure := now }) := by
  have hretry : ¬ ((entry client table).refresh now).retryAfter now ≠ 0 := by
    rw [retryAfter_eq]
    omega
  rw [localRecordFailure, localState]
  simp only [if_neg hretry, decide_eq_false (not_le.mpr hbelow), Bool.false_eq_true, if_false]
  rw [prune_of_le (size_set_le_max (by rwa [Dict.erase_set]) _)]

end Failure

/-! ### The relation between the backends -/

/-- What the keys and an entry, refreshed, have in common at `now`. Where both count, they count
the same. -/
structure Agree (lasting : Bool) (now : Nat) (keys : RedisKeys) (state : LocalState) : Prop where
  left : (ttl lasting now keys.blocked).toNat = state.blockedUntil - now
  counts : 0 < count lasting now keys.failures → 0 < state.failures →
    count lasting now keys.failures = state.failures
  redisBelow : count lasting now keys.failures < failureThreshold
  localBelow : state.failures < failureThreshold
  idle : now < state.blockedUntil → state.failures = 0

variable {lasting : Bool} {client : String}

/-- The backends agree from now on, and the other clients leave room in the table. -/
structure Related (lasting : Bool) (client : String) (w : World) : Prop where
  agree : ∀ now, w.now ≤ now → Agree lasting now w.keys ((entry client w.table).refresh now)
  room : (w.table.erase client).size < maxLocalKeys

/-- A failure of a client that is not blocked finds the counter of Redis there if and only if the
entry of the table counts failures. -/
def Aligned (lasting : Bool) (client : String) (c : TimedCall) (w : World) : Prop :=
  match c.call with
  | .recordFailure =>
    let now := w.now + c.wait
    ttl lasting now w.keys.blocked ≤ 0 →
      (0 < count lasting now w.keys.failures ↔ 0 < ((entry client w.table).refresh now).failures)
  | _ => True

/-- Both backends answer a call with the same. -/
def SameAnswer (lasting : Bool) (client : String) (c : TimedCall) (w : World) : Prop :=
  (redisCall lasting (w.now + c.wait) w.keys c.call).1 =
    (localCall client (w.now + c.wait) w.table c.call).1

/-- From now on both backends say the same of a block, so it ends on both at the same time. -/
def SameBlock (lasting : Bool) (client : String) (w : World) : Prop :=
  ∀ now, w.now ≤ now →
    redisBlockRetry lasting now w.keys = (localBlockRetry client now w.table).1

instance (c : TimedCall) (w : World) : Decidable (SameAnswer lasting client c w) :=
  inferInstanceAs (Decidable (_ = _))

theorem Agree.sameRetry {now : Nat} {keys : RedisKeys} {table : Table}
    (h : Agree lasting now keys ((entry client table).refresh now)) :
    redisBlockRetry lasting now keys = (localBlockRetry client now table).1 := by
  calc redisBlockRetry lasting now keys
      = (((entry client table).refresh now).blockedUntil - now : Nat) := by
        rw [redisBlockRetry_eq, h.left]
    _ = ((entry client table).refresh now).retryAfter now := (retryAfter_eq _ _).symm

theorem Related.sameBlock {w : World} (h : Related lasting client w) :
    SameBlock lasting client w := fun now hnow => (h.agree now hnow).sameRetry

/-- What is found after an entry was refreshed. -/
theorem refresh_entry_set {now later : Nat} (h : now ≤ later) (table : Table) :
    (entry client (table.set client ((entry client table).refresh now))).refresh later =
      (entry client table).refresh later := by
  rw [entry, Dict.get?_set_self, Option.getD_some, refresh_refresh h]

/-- Where only the entry was refreshed, the backends stay related. -/
theorem Related.refreshed {w : World} {now : Nat} (h : Related lasting client w)
    (hnow : w.now ≤ now) :
    Related lasting client
      ⟨now, w.keys, w.table.set client ((entry client w.table).refresh now)⟩ where
  agree later hlater := by
    rw [refresh_entry_set hlater]
    exact h.agree later (hnow.trans hlater)
  room := by
    rw [Dict.erase_set]
    exact h.room

/-- A block of Redis that starts now, and one of the table. -/
theorem Related.blocked {table : Table} {now : Nat}
    (hroom : (table.erase client).size < maxLocalKeys)
    (hentry : entry client table = ⟨0, now, now + blockSeconds⟩) :
    Related lasting client
      ⟨now, { failures := none, blocked := some ⟨"1", some (now + blockSeconds)⟩ }, table⟩ where
  agree later hlater := by
    have hcount : count lasting later (none : Option (Key Nat Nat)) = 0 := rfl
    refine ⟨?_, ?_, ?_, ?_, ?_⟩
    · rw [hentry, ttl_some, refresh_left]
    · intro hpos
      rw [hcount] at hpos
      exact absurd hpos (lt_irrefl 0)
    · rw [hcount]
      decide
    · rw [hentry, refresh_failures, ite_self]
      decide
    · intro _
      rw [hentry, refresh_failures, ite_self]
  room := hroom

/-- Both backends have counted one more failure. -/
theorem Related.counted {w : World} {now n : Nat} {table : Table} {counter : Key Nat Nat}
    (h : Related lasting client w) (hnow : w.now ≤ now)
    (hroom : (table.erase client).size < maxLocalKeys)
    (hentry : entry client table = { (entry client w.table).refresh now with
      failures := n, lastFailure := now })
    (hopen : ((entry client w.table).refresh now).blockedUntil ≤ now)
    (hvalue : counter.value = n) (hn : n < failureThreshold) :
    Related lasting client ⟨now, { w.keys with failures := some counter }, table⟩ where
  agree later hlater := by
    have hlater : now ≤ later := hlater
    have hredis := count_some lasting later counter
    have hbefore := (h.agree later (hnow.trans hlater)).left
    have hgone : (entry client w.table).blockedUntil ≤ now := by
      rw [refresh_blockedUntil] at hopen
      split_ifs at hopen with hle
      · exact hle
      · exact hopen
    have hopen' : (entry client table).blockedUntil = 0 := by
      rw [hentry]
      exact if_pos hgone
    refine ⟨?_, ?_, ?_, ?_, ?_⟩
    · rw [hbefore, refresh_left, refresh_left, hopen']
      omega
    · rw [hentry, refresh_failures]
      simp only
      split_ifs <;> omega
    · show count lasting later (some counter) < failureThreshold
      omega
    · rw [hentry, refresh_failures]
      simp only
      split_ifs <;> omega
    · intro hblocked
      rw [refresh_blockedUntil, hopen', ite_self] at hblocked
      omega
  room := hroom

/-! ### One call -/

theorem Agree.count_eq_iff {now : Nat} {keys : RedisKeys} {state : LocalState}
    (h : Agree lasting now keys state) :
    (0 < count lasting now keys.failures ↔ 0 < state.failures) ↔
      count lasting now keys.failures = state.failures := by
  constructor
  · intro hiff
    by_cases hpos : 0 < count lasting now keys.failures
    · exact h.counts hpos (hiff.mp hpos)
    · have hnot := fun hlocal => hpos (hiff.mpr hlocal)
      omega
  · intro heq
    rw [heq]

section OneFailure

variable {w : World} {wait : Nat}

/-- A failure of a blocked client. -/
theorem Related.failure_blocked (h : Related lasting client w)
    (hblocked : 0 < ttl lasting (w.now + wait) w.keys.blocked) :
    SameAnswer lasting client ⟨wait, .recordFailure⟩ w ∧
      Related lasting client (step lasting client ⟨wait, .recordFailure⟩ w) := by
  have hagree := h.agree (w.now + wait) (Nat.le_add_right ..)
  have hleft := hagree.left
  have hlocal : w.now + wait < ((entry client w.table).refresh (w.now + wait)).blockedUntil := by
    omega
  have hstep := localRecordFailure_of_blocked hlocal (hagree.idle hlocal)
  have hretry : ttl lasting (w.now + wait) w.keys.blocked =
      (((entry client w.table).refresh (w.now + wait)).blockedUntil - (w.now + wait) : Nat) := by
    omega
  constructor
  · simp only [SameAnswer, redisCall, localCall, redisRecordFailure_of_blocked hblocked, hstep,
      hretry]
  · simp only [step, redisCall, localCall, redisRecordFailure_of_blocked hblocked, hstep]
    exact h.refreshed (Nat.le_add_right ..)

/-- A failure that both backends count to the same. -/
theorem Related.failure_counted (h : Related lasting client w)
    (hopen : ttl lasting (w.now + wait) w.keys.blocked ≤ 0)
    (hsame : count lasting (w.now + wait) w.keys.failures =
      ((entry client w.table).refresh (w.now + wait)).failures) :
    SameAnswer lasting client ⟨wait, .recordFailure⟩ w ∧
      Related lasting client (step lasting client ⟨wait, .recordFailure⟩ w) := by
  have hagree := h.agree (w.now + wait) (Nat.le_add_right ..)
  have hleft := hagree.left
  have hlocal : ((entry client w.table).refresh (w.now + wait)).blockedUntil ≤ w.now + wait := by
    omega
  have hbelow := hagree.localBelow
  by_cases hfull : failureThreshold ≤
      ((entry client w.table).refresh (w.now + wait)).failures + 1
  · have hredis := redisRecordFailure_full hopen (hsame ▸ hfull)
    have htable := localRecordFailure_full h.room hlocal hfull
    have hcount : count lasting (w.now + wait) w.keys.failures + 1 = failureThreshold := by
      omega
    constructor
    · simp only [SameAnswer, redisCall, localCall, hredis, htable, hcount]
    · simp only [step, redisCall, localCall, hredis, htable]
      refine Related.blocked ?_ (by simp [entry])
      rw [Dict.erase_set, Dict.erase_set]
      exact h.room
  · have hredis := redisRecordFailure_counted hopen (hsame ▸ not_le.mp hfull)
    have htable := localRecordFailure_counted h.room hlocal (not_le.mp hfull)
    constructor
    · simp only [SameAnswer, redisCall, localCall, hredis, htable, hsame]
    · simp only [step, redisCall, localCall, hredis, htable]
      refine Related.counted h (Nat.le_add_right ..) ?_ (by simp [entry]) hlocal ?_
        (not_le.mp hfull)
      · rw [Dict.erase_set, Dict.erase_set]
        exact h.room
      · rw [countFailure_value, hsame]

/-- Where both backends answer a failure with the same, they counted the same. -/
theorem Related.count_of_sameAnswer (h : Related lasting client w)
    (hopen : ttl lasting (w.now + wait) w.keys.blocked ≤ 0)
    (hanswer : SameAnswer lasting client ⟨wait, .recordFailure⟩ w) :
    count lasting (w.now + wait) w.keys.failures =
      ((entry client w.table).refresh (w.now + wait)).failures := by
  have hagree := h.agree (w.now + wait) (Nat.le_add_right ..)
  have hleft := hagree.left
  have hlocal : ((entry client w.table).refresh (w.now + wait)).blockedUntil ≤ w.now + wait := by
    omega
  have hredisBelow := hagree.redisBelow
  have hlocalBelow := hagree.localBelow
  -- Each backend answers with one more than it counted, also when that blocks the client.
  have hredis : ((redisRecordFailure lasting (w.now + wait) w.keys).1.failures : Int) =
      (count lasting (w.now + wait) w.keys.failures + 1 : Nat) := by
    by_cases hfull : failureThreshold ≤ count lasting (w.now + wait) w.keys.failures + 1
    · rw [redisRecordFailure_full hopen hfull]
    · rw [redisRecordFailure_counted hopen (not_le.mp hfull)]
  have htable : ((localRecordFailure client (w.now + wait) w.table).1.failures : Int) =
      (((entry client w.table).refresh (w.now + wait)).failures + 1 : Nat) := by
    by_cases hfull : failureThreshold ≤
        ((entry client w.table).refresh (w.now + wait)).failures + 1
    · rw [localRecordFailure_full h.room hlocal hfull]
      show (failureThreshold : Int) = _
      omega
    · rw [localRecordFailure_counted h.room hlocal (not_le.mp hfull)]
  have hequal : (redisRecordFailure lasting (w.now + wait) w.keys).1 =
      (localRecordFailure client (w.now + wait) w.table).1 := Answer.recorded.inj hanswer
  rw [hequal, htable] at hredis
  omega

end OneFailure

/-- Both backends know nothing of the client. -/
theorem Related.fresh {table : Table} {now : Nat} (hroom : (table.erase client).size < maxLocalKeys)
    (hentry : entry client table = {}) : Related lasting client ⟨now, {}, table⟩ where
  agree later _ := by
    rw [hentry]
    refine ⟨?_, ?_, ?_, ?_, ?_⟩
    · simp [ttl]
    · intro hpos
      exact absurd hpos (lt_irrefl 0)
    · show 0 < failureThreshold
      decide
    · rw [refresh_failures, ite_self]
      decide
    · intro _
      rw [refresh_failures, ite_self]
  room := hroom

theorem Related.reset {w : World} {now : Nat} (h : Related lasting client w) :
    Related lasting client ⟨now, {}, w.table.erase client⟩ :=
  .fresh ((Dict.size_erase_le ..).trans_lt h.room) (by simp [entry])

/-- An aligned call keeps the backends related, and only such a call is answered alike. -/
theorem Related.call {w : World} (h : Related lasting client w) (c : TimedCall) :
    (SameAnswer lasting client c w ↔ Aligned lasting client c w) ∧
      (Aligned lasting client c w → Related lasting client (step lasting client c w)) := by
  obtain ⟨wait, call⟩ := c
  have hagree := h.agree (w.now + wait) (Nat.le_add_right ..)
  cases call with
  | recordFailure =>
    by_cases hopen : ttl lasting (w.now + wait) w.keys.blocked ≤ 0
    · have hcount := hagree.count_eq_iff
      refine ⟨⟨fun hanswer _ => hcount.mpr (h.count_of_sameAnswer hopen hanswer), ?_⟩, ?_⟩
      · exact fun haligned => (h.failure_counted hopen (hcount.mp (haligned hopen))).1
      · exact fun haligned => (h.failure_counted hopen (hcount.mp (haligned hopen))).2
    · obtain ⟨hanswer, hrelated⟩ := h.failure_blocked (not_le.mp hopen)
      exact ⟨⟨fun _ hnot => absurd hnot hopen, fun _ => hanswer⟩, fun _ => hrelated⟩
  | blockRetryAfter =>
    refine ⟨iff_of_true ?_ trivial, fun _ => h.refreshed (Nat.le_add_right ..)⟩
    exact congrArg Answer.retryAfter hagree.sameRetry
  | resetFailures => exact ⟨iff_of_true rfl trivial, fun _ => h.reset⟩

/-! ### Whole runs -/

/-- For every sequence of calls of a client, among fewer other clients than the table holds: both
backends answer every call alike, and a block ends on both at the same time, if and only if the
counters are aligned at every failure of the client while it is not blocked. -/
theorem same_answers_iff (lasting : Bool) (client : String) (start : Nat) (others : Table)
    (calls : List TimedCall) (hroom : others.size < maxLocalKeys)
    (hnew : others.contains client = false) :
    Throughout (step lasting client) (SameBlock lasting client) calls ⟨start, {}, others⟩ ∧
        AllSteps (step lasting client) (SameAnswer lasting client) calls ⟨start, {}, others⟩ ↔
      AllSteps (step lasting client) (Aligned lasting client) calls ⟨start, {}, others⟩ := by
  have hentry : entry client others = {} := by
    rw [Dict.contains, Option.isSome_eq_false_iff, Option.isNone_iff_eq_none] at hnew
    rw [entry, hnew, Option.getD_none]
  have hstart : Related lasting client ⟨start, {}, others⟩ :=
    .fresh ((Dict.size_erase_le ..).trans_lt hroom) hentry
  refine throughout_and_allSteps_iff (fun w hw => hw.sameBlock)
    (fun c w hw => (hw.call c).2) (fun c w hw => ⟨fun h => (hw.call c).1.mp h.2, fun h => ?_⟩) hstart
  exact ⟨((hw.call c).2 h).sameBlock, (hw.call c).1.mpr h⟩

/-- Two failures five minutes apart. -/
theorem same_answers_iff_two_failures :
    (Throughout (step false "a") (SameBlock false "a")
          [⟨0, .recordFailure⟩, ⟨300, .recordFailure⟩] ⟨0, {}, .empty⟩ ∧
        AllSteps (step false "a") (SameAnswer false "a")
          [⟨0, .recordFailure⟩, ⟨300, .recordFailure⟩] ⟨0, {}, .empty⟩) ↔
      AllSteps (step false "a") (Aligned false "a")
        [⟨0, .recordFailure⟩, ⟨300, .recordFailure⟩] ⟨0, {}, .empty⟩ :=
  same_answers_iff false "a" 0 .empty [⟨0, .recordFailure⟩, ⟨300, .recordFailure⟩] (by decide) rfl

/-- Five failures, each within ten minutes of the one before: the table blocks the client, Redis
has started anew. -/
theorem spread_failures_differ :
    ¬ AllSteps (step false "a") (SameAnswer false "a")
        [⟨0, .recordFailure⟩, ⟨300, .recordFailure⟩, ⟨200, .recordFailure⟩, ⟨200, .recordFailure⟩,
          ⟨200, .recordFailure⟩] ⟨0, {}, .empty⟩ ∧
      ¬ AllSteps (step true "a") (SameAnswer true "a")
        [⟨0, .recordFailure⟩, ⟨300, .recordFailure⟩, ⟨200, .recordFailure⟩, ⟨200, .recordFailure⟩,
          ⟨200, .recordFailure⟩] ⟨0, {}, .empty⟩ := by
  decide +kernel

end FetchTask.RegistrationSecurity
