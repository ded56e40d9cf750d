import FetchTask.Lib.Runs
import FetchTask.RateLimit.Backends

/-!
The limiter over whole sequences of requests.

Each backend knows of a key what its log has of the last window, as long as no
request makes it lose something: Redis by cutting a time to milliseconds, the
table by rounding the age of a stamp up to a window, or by dropping a key whose
stamps still count.
-/

namespace FetchTask.RateLimit

open Expiring Runs SlidingWindow

variable {lasting : Bool} {rules : String → Rule}

/-! ### Redis -/

/-- Redis knows what was admitted in the last window. -/
structure RedisKept (lasting : Bool) (rules : String → Rule) (now : Rat)
    (redis : String → SortedSet) (log : String → List Rat) : Prop where
  past : ∀ key, ∀ t ∈ log key, 0 ≤ t ∧ t ≤ now
  found : ∀ key later, now ≤ later → foundScores lasting (rules key) later (redis key) =
    recent ((rules key).window * 1000 : Int) (milliseconds later) ((log key).map milliseconds)
  spaced : ∀ key, Spaced ((rules key).window : Rat) (rules key).limit (log key)
  spacedMs : ∀ key, Spaced ((rules key).window * 1000 : Int) (rules key).limit
    ((log key).map milliseconds)

theorem RedisKept.past_ms {now : Rat} {redis : String → SortedSet} {log : String → List Rat}
    (h : RedisKept lasting rules now redis log) {key : String} {later : Rat} (hnow : now ≤ later) :
    ∀ score ∈ (log key).map milliseconds, score ≤ milliseconds later := by
  intro score hscore
  obtain ⟨t, ht, rfl⟩ := List.mem_map.mp hscore
  exact milliseconds_mono (h.past key t ht).1 ((h.past key t ht).2.trans hnow)

/-- A request that Redis refuses leaves what it knows. -/
theorem RedisKept.refused {now later : Rat} {redis : String → SortedSet} {log : String → List Rat}
    (h : RedisKept lasting rules now redis log) (hstart : 0 ≤ now) (hnow : now ≤ later)
    (key : String) :
    RedisKept lasting rules later (Function.update redis key (removeUpTo lasting
      (milliseconds later) (milliseconds later - (rules key).window * 1000) (redis key))) log where
  past other t ht := ⟨(h.past other t ht).1, (h.past other t ht).2.trans hnow⟩
  found other latest hlatest := by
    rw [← h.found other latest (hnow.trans hlatest)]
    by_cases hother : other = key
    · rw [hother, Function.update_self, foundScores, foundScores]
      exact recent_scores_removeUpTo (milliseconds_mono (hstart.trans hnow) hlatest)
    · rw [Function.update_of_ne hother]
  spaced := h.spaced
  spacedMs := h.spacedMs

/-- A request that Redis admits. -/
theorem RedisKept.admitted {now later : Rat} {redis : String → SortedSet}
    {log : String → List Rat} {key : String}
    (h : RedisKept lasting rules now redis log) (hstart : 0 ≤ now) (hnow : now ≤ later)
    (hexact : ∀ t ∈ log key, later - t < (rules key).window →
      milliseconds later - milliseconds t < (rules key).window * 1000)
    (hroom : (foundScores lasting (rules key) later (redis key)).length < (rules key).limit) :
    RedisKept lasting rules later
      (Function.update redis key
        (some ⟨foundScores lasting (rules key) later (redis key) ++ [milliseconds later],
          some (milliseconds later + (rules key).window * 1000)⟩))
      (Function.update log key (log key ++ [later])) where
  past other t ht := by
    by_cases hother : other = key
    · rw [hother, Function.update_self, List.mem_append, List.mem_singleton] at ht
      rcases ht with hold | rfl
      · exact ⟨(h.past key t hold).1, (h.past key t hold).2.trans hnow⟩
      · exact ⟨hstart.trans hnow, le_refl t⟩
    · rw [Function.update_of_ne hother] at ht
      exact ⟨(h.past other t ht).1, (h.past other t ht).2.trans hnow⟩
  found other latest hlatest := by
    by_cases hother : other = key
    · have hmono := milliseconds_mono (hstart.trans hnow) hlatest
      rw [hother, Function.update_self, Function.update_self, foundScores, List.map_append,
        List.map_singleton, recent_append]
      cases hthere : there lasting (milliseconds latest)
          (some (milliseconds later + (rules key).window * 1000)) with
      | true =>
        rw [scores_of_there hthere, recent_append, h.found key later hnow, recent_recent hmono]
      | false =>
        -- The key expires when its last score is a window old.
        have hgone : milliseconds later + (rules key).window * 1000 ≤ milliseconds latest := by
          refine not_lt.mp fun hlt => ?_
          rw [there_of_lt hlt] at hthere
          cases hthere
        rw [scores_of_gone hthere, recent_nil, recent_eq_nil, recent_eq_nil, List.append_nil]
        · intro t ht
          rw [List.mem_singleton.mp ht]
          omega
        · intro t ht
          have hpast := h.past_ms hnow t ht
          omega
    · rw [Function.update_of_ne hother, Function.update_of_ne hother]
      exact h.found other latest (hnow.trans hlatest)
  spaced other := by
    by_cases hother : other = key
    · rw [hother, Function.update_self]
      refine .snoc (h.spaced key) (fun t ht => (h.past key t ht).2.trans hnow) ?_
      rw [h.found key later hnow] at hroom
      exact lt_of_le_of_lt (length_recent_le_map hexact) hroom
    · rw [Function.update_of_ne hother]
      exact h.spaced other
  spacedMs other := by
    by_cases hother : other = key
    · rw [hother, Function.update_self, List.map_append, List.map_singleton]
      refine .snoc (h.spacedMs key) (h.past_ms hnow) ?_
      rwa [h.found key later hnow] at hroom
    · rw [Function.update_of_ne hother]
      exact h.spacedMs other

/-! ### The table -/

/-- The table knows what was admitted in the last window. -/
structure MemoryKept (rules : String → Rule) (now : Rat) (buckets : RateBuckets)
    (log : String → List Rat) : Prop where
  past : ∀ key, ∀ t ∈ log key, t ≤ now
  found : ∀ key later, now ≤ later →
    foundStamps key (rules key) later buckets = recent ((rules key).window : Rat) later (log key)
  spaced : ∀ key, Spaced ((rules key).window : Rat) (rules key).limit (log key)
  size : buckets.size ≤ rateBucketLimit

theorem MemoryKept.refused {now later : Rat} {buckets : RateBuckets} {log : String → List Rat}
    (h : MemoryKept rules now buckets log) (hnow : now ≤ later) :
    MemoryKept rules later buckets log where
  past key t ht := (h.past key t ht).trans hnow
  found key latest hlatest := h.found key latest (hnow.trans hlatest)
  spaced := h.spaced
  size := h.size

/-- What a full table drops for a new key does not count any more. -/
def ForgetsNothing (rules : String → Rule) (r : Request) (buckets : RateBuckets) : Prop :=
  buckets.contains r.key = false → buckets.size = rateBucketLimit →
    ∀ item ∈ buckets.items, Dropped r.now (rules r.key).window buckets item →
      ∀ t ∈ item.2, ((rules item.1).window : Rat) ≤ r.now - t

/-- A request that the table admits. -/
theorem MemoryKept.admitted {now : Rat} {r : Request} {buckets : RateBuckets}
    {log : String → List Rat} (h : MemoryKept rules now buckets log) (hnow : now ≤ r.now)
    (hforgets : ForgetsNothing rules r buckets)
    (hroom : (foundStamps r.key (rules r.key) r.now buckets).length < (rules r.key).limit) :
    MemoryKept rules r.now
      (evict r.now (rules r.key).window
        (buckets.set r.key (foundStamps r.key (rules r.key) r.now buckets ++ [r.now])))
      (Function.update log r.key (log r.key ++ [r.now])) where
  past key t ht := by
    by_cases hkey : key = r.key
    · rw [hkey, Function.update_self, List.mem_append, List.mem_singleton] at ht
      rcases ht with hold | rfl
      · exact (h.past r.key t hold).trans hnow
      · exact le_refl _
    · rw [Function.update_of_ne hkey] at ht
      exact (h.past key t ht).trans hnow
  found key latest hlatest := by
    by_cases hkey : key = r.key
    · rw [hkey, Function.update_self, foundStamps,
        get?_evict_self (rules r.key).window_pos h.size, Option.getD_some, recent_append,
        h.found r.key r.now hnow, recent_recent hlatest, recent_append]
    · rw [Function.update_of_ne hkey, ← h.found key latest (hnow.trans hlatest)]
      generalize foundStamps r.key (rules r.key) r.now buckets = found
      rw [foundStamps, foundStamps]
      rcases get?_evict_of_ne r.now (rules r.key).window_pos h.size (Ne.symm hkey) found
        with hsame | ⟨hnone, hnew, hfull, hdropped⟩
      · rw [hsame]
      · -- What is dropped was a window old already.
        obtain ⟨stamps, hget, hdrop⟩ := hdropped
        rw [hnone, hget, Option.getD_none, Option.getD_some, recent_nil]
        refine (recent_eq_nil fun t ht => ?_).symm
        have hold := hforgets hnew hfull (key, stamps) ((Dict.get?_eq_some_iff _).mp hget) hdrop t ht
        exact hold.trans (sub_le_sub_right hlatest t)
  spaced key := by
    by_cases hkey : key = r.key
    · rw [hkey, Function.update_self]
      refine .snoc (h.spaced r.key) (fun t ht => (h.past r.key t ht).trans hnow) ?_
      rwa [h.found r.key r.now hnow] at hroom
    · rw [Function.update_of_ne hkey]
      exact h.spaced key
  size := size_evict_le _

/-! ### One request -/

/-- Both backends know what they admitted in the last window. -/
structure Kept (lasting : Bool) (rules : String → Rule) (w : World) : Prop where
  start : 0 ≤ w.now
  redis : RedisKept lasting rules w.now w.redis w.redisLog
  memory : MemoryKept rules w.now w.buckets w.memoryLog

/-- A request that makes no backend lose anything and waits for a whole number of seconds. -/
structure Smooth (rules : String → Rule) (r : Request) (w : World) : Prop where
  later : w.now ≤ r.now
  /-- Times and windows stay below some 140000 years. -/
  inRange : (r.now + (rules r.key).window) * 1000 ≤ 2 ^ 52
  /-- What is a window old in milliseconds is a window old. -/
  exact : ∀ t ∈ w.redisLog r.key, r.now - t < (rules r.key).window →
    milliseconds r.now - milliseconds t < (rules r.key).window * 1000
  /-- Nor does the table take what is not a window old for that. -/
  sees : SeesStamps r.key (rules r.key) r.now w.buckets
  forgets : ForgetsNothing rules r w.buckets
  /-- The oldest stamp of a full window has whole seconds left, or at most one. -/
  wait : (rules r.key).limit ≤ (foundStamps r.key (rules r.key) r.now w.buckets).length →
    ∀ oldest, (foundStamps r.key (rules r.key) r.now w.buckets).head? = some oldest →
      (rules r.key).window - (r.now - oldest) ≤ 1 ∨
        ∃ n : Int, (rules r.key).window - (r.now - oldest) = n

theorem Kept.initial (lasting : Bool) (rules : String → Rule) : Kept lasting rules {} where
  start := le_refl 0
  redis := ⟨by simp, fun _ _ _ => rfl, fun _ => .nil, fun _ => .nil⟩
  memory := ⟨by simp, fun _ _ _ => rfl, fun _ => .nil, by decide⟩

/-- A full window has an oldest entry. -/
theorem exists_oldest {K : Type} {rule : Rule} {entries : List K}
    (h : rule.limit ≤ entries.length) : ∃ oldest, entries.head? = some oldest := by
  cases entries with
  | nil => exact absurd (rule.limit_pos.trans_le h) (lt_irrefl 0)
  | cons oldest rest => exact ⟨oldest, rfl⟩

section OneRequest

variable {w : World} {r : Request}

theorem Kept.window_le (h : Kept lasting rules w) (hr : Smooth rules r w) :
    (rules r.key).window * 1000 ≤ 2 ^ 52 := by
  have hrange := hr.inRange
  have hbound : ((rules r.key).window : Rat) * 1000 ≤ 2 ^ 52 := by
    linarith [h.start.trans hr.later]
  exact_mod_cast hbound

/-- Redis admits exactly where its log has room. -/
theorem Kept.redisAnswer_allowed (h : Kept lasting rules w) (hlater : w.now ≤ r.now) :
    (w.redisAnswer lasting rules r).allowed = true ↔
      (recent ((rules r.key).window * 1000 : Int) (milliseconds r.now)
        ((w.redisLog r.key).map milliseconds)).length < (rules r.key).limit := by
  have hfound := h.redis.found r.key r.now hlater
  rw [World.redisAnswer, ← hfound]
  rcases lt_or_ge (foundScores lasting (rules r.key) r.now (w.redis r.key)).length
    (rules r.key).limit with hroom | hfull
  · rw [redisRateLimit_admitted hroom]
    · exact iff_of_true rfl hroom
    · intro score hscore
      rw [hfound] at hscore
      exact h.redis.past_ms hlater score (List.mem_of_mem_filter hscore)
  · obtain ⟨oldest, holdest⟩ := exists_oldest hfull
    rw [redisRateLimit_refused hfull holdest]
    exact iff_of_false (by simp) (not_lt.mpr hfull)

/-- The table admits exactly where its log has room. -/
theorem Kept.memoryAnswer_allowed (h : Kept lasting rules w) (hr : Smooth rules r w) :
    (w.memoryAnswer rules r).allowed = true ↔
      (recent ((rules r.key).window : Rat) r.now (w.memoryLog r.key)).length <
        (rules r.key).limit := by
  have hwindow : (rules r.key).window ≤ 2 ^ 53 := by have := h.window_le hr; omega
  rw [World.memoryAnswer, ← h.memory.found r.key r.now hr.later]
  rcases lt_or_ge (foundStamps r.key (rules r.key) r.now w.buckets).length
    (rules r.key).limit with hroom | hfull
  · rw [memoryRateLimit_admitted hwindow hr.sees hroom]
    exact iff_of_true rfl hroom
  · obtain ⟨oldest, holdest⟩ := exists_oldest hfull
    rw [memoryRateLimit_refused hwindow hr.sees hfull holdest]
    exact iff_of_false (by simp) (not_lt.mpr hfull)

/-- A smooth request leaves both backends with what they need to know. -/
theorem Kept.step (h : Kept lasting rules w) (hr : Smooth rules r w) :
    Kept lasting rules (step lasting rules r w) where
  start := h.start.trans hr.later
  redis := by
    have hpast : ∀ score ∈ foundScores lasting (rules r.key) r.now (w.redis r.key),
        score ≤ milliseconds r.now := by
      rw [h.redis.found r.key r.now hr.later]
      exact fun score hscore => h.redis.past_ms hr.later score (List.mem_of_mem_filter hscore)
    simp only [RateLimit.step, World.redisAnswer]
    rcases lt_or_ge (foundScores lasting (rules r.key) r.now (w.redis r.key)).length
      (rules r.key).limit with hroom | hfull
    · rw [redisRateLimit_admitted hroom hpast]
      exact h.redis.admitted h.start hr.later hr.exact hroom
    · obtain ⟨oldest, holdest⟩ := exists_oldest hfull
      rw [redisRateLimit_refused hfull holdest]
      exact h.redis.refused h.start hr.later r.key
  memory := by
    have hwindow : (rules r.key).window ≤ 2 ^ 53 := by have := h.window_le hr; omega
    simp only [RateLimit.step, World.memoryAnswer]
    rcases lt_or_ge (foundStamps r.key (rules r.key) r.now w.buckets).length
      (rules r.key).limit with hroom | hfull
    · rw [memoryRateLimit_admitted hwindow hr.sees hroom]
      exact h.memory.admitted hr.later hr.forgets hroom
    · obtain ⟨oldest, holdest⟩ := exists_oldest hfull
      rw [memoryRateLimit_refused hwindow hr.sees hfull holdest]
      exact h.memory.refused hr.later

/-- A refusal of Redis tells the seconds until its oldest score is a window old. -/
theorem Kept.redis_retryAfter (h : Kept lasting rules w) (hr : Smooth rules r w)
    (hrefused : (w.redisAnswer lasting rules r).allowed = false) :
    ∃ oldest, (recent ((rules r.key).window * 1000 : Int) (milliseconds r.now)
        ((w.redisLog r.key).map milliseconds)).head? = some oldest ∧
      ∃ seconds : Nat, (w.redisAnswer lasting rules r).retryAfter = seconds ∧
        oldest + (rules r.key).window * 1000 - milliseconds r.now ≤ seconds * 1000 := by
  have hfull : (rules r.key).limit ≤
      (foundScores lasting (rules r.key) r.now (w.redis r.key)).length := by
    rw [h.redis.found r.key r.now hr.later, ← not_lt, ← h.redisAnswer_allowed hr.later, hrefused]
    exact Bool.false_ne_true
  obtain ⟨oldest, holdest⟩ := exists_oldest hfull
  refine ⟨oldest, by rwa [← h.redis.found r.key r.now hr.later], ?_⟩
  have hpast : oldest ≤ milliseconds r.now := by
    have hmem := List.mem_of_mem_head? holdest
    rw [h.redis.found r.key r.now hr.later] at hmem
    exact h.redis.past_ms hr.later oldest (List.mem_of_mem_filter hmem)
  have hceil : oldest + (rules r.key).window * 1000 - milliseconds r.now ≤ _ :=
    le_ceil_div (by have := h.window_le hr; omega)
  rw [World.redisAnswer, redisRateLimit_refused hfull holdest]
  obtain ⟨seconds, hseconds⟩ := Int.eq_ofNat_of_zero_le (le_trans zero_le_one (le_max_left 1
    (Rounding.binary64.div ((oldest + (rules r.key).window * 1000 - milliseconds r.now : Int) : Rat)
      1000).ceil))
  rw [hseconds] at hceil ⊢
  exact ⟨seconds, rfl, hceil⟩

/-- A request that waits on Redis as it was told is admitted. -/
theorem Kept.redis_waited (h : Kept lasting rules w) (hr : Smooth rules r w) {w' : World}
    {again : Request} (h' : Kept lasting rules w') (hr' : Smooth rules again w')
    (hkey : again.key = r.key) (hlog : w'.redisLog r.key = w.redisLog r.key)
    (hrefused : (w.redisAnswer lasting rules r).allowed = false)
    (hwait : r.now + (w.redisAnswer lasting rules r).retryAfter ≤ again.now) :
    (w'.redisAnswer lasting rules again).allowed = true := by
  obtain ⟨oldest, holdest, seconds, hretry, henough⟩ := h.redis_retryAfter hr hrefused
  have hstart : 0 ≤ r.now := h.start.trans hr.later
  rw [hretry, Int.cast_natCast] at hwait
  have hbound : (r.now + seconds) * 1000 ≤ 2 ^ 53 := by
    have hwindow : (0 : Rat) ≤ (rules again.key).window := Nat.cast_nonneg _
    linarith [hr'.inRange]
  have hms := (milliseconds_add hstart hbound).trans
    (milliseconds_mono (add_nonneg hstart (Nat.cast_nonneg seconds)) hwait)
  rw [h'.redisAnswer_allowed hr'.later, hkey, hlog]
  exact (h.redis.spacedMs r.key).room_later (h.redis.past_ms hr.later) (by omega) holdest (by omega)

/-- A refusal of the table tells the seconds until its oldest stamp is a window old. -/
theorem Kept.memory_retryAfter (h : Kept lasting rules w) (hr : Smooth rules r w)
    (hrefused : (w.memoryAnswer rules r).allowed = false) :
    ∃ oldest, (recent ((rules r.key).window : Rat) r.now (w.memoryLog r.key)).head? =
        some oldest ∧
      1 ≤ (w.memoryAnswer rules r).retryAfter ∧
      (rules r.key).window - (r.now - oldest) ≤ (w.memoryAnswer rules r).retryAfter := by
  have hwindow : (rules r.key).window ≤ 2 ^ 53 := by have := h.window_le hr; omega
  have hfull : (rules r.key).limit ≤
      (foundStamps r.key (rules r.key) r.now w.buckets).length := by
    rw [h.memory.found r.key r.now hr.later, ← not_lt, ← h.memoryAnswer_allowed hr, hrefused]
    exact Bool.false_ne_true
  obtain ⟨oldest, holdest⟩ := exists_oldest hfull
  refine ⟨oldest, by rwa [← h.memory.found r.key r.now hr.later], ?_⟩
  rw [World.memoryAnswer, memoryRateLimit_refused hwindow hr.sees hfull holdest]
  refine ⟨le_max_left .., ?_⟩
  rcases hr.wait hfull oldest holdest with hone | ⟨n, hn⟩
  · refine hone.trans ?_
    exact_mod_cast le_max_left 1 _
  · -- A whole number of seconds is not rounded.
    have hage : 0 ≤ r.now - oldest ∧ r.now - oldest < (rules r.key).window := by
      have hmem := List.mem_of_mem_head? holdest
      refine ⟨?_, by simpa using (List.mem_filter.mp hmem).2⟩
      rw [h.memory.found r.key r.now hr.later] at hmem
      exact sub_nonneg.mpr ((h.memory.past r.key oldest (List.mem_of_mem_filter hmem)).trans hr.later)
    rw [sub_sub_of_whole hwindow hage.1 hage.2.le hn, hn]
    exact_mod_cast le_max_right 1 n

/-- A request that waits on the table as it was told is admitted. -/
theorem Kept.memory_waited (h : Kept lasting rules w) (hr : Smooth rules r w) {w' : World}
    {again : Request} (h' : Kept lasting rules w') (hr' : Smooth rules again w')
    (hkey : again.key = r.key) (hlog : w'.memoryLog r.key = w.memoryLog r.key)
    (hrefused : (w.memoryAnswer rules r).allowed = false)
    (hwait : r.now + (w.memoryAnswer rules r).retryAfter ≤ again.now) :
    (w'.memoryAnswer rules again).allowed = true := by
  obtain ⟨oldest, holdest, hone, hretry⟩ := h.memory_retryAfter hr hrefused
  have hone' : (1 : Rat) ≤ (w.memoryAnswer rules r).retryAfter := by exact_mod_cast hone
  rw [h'.memoryAnswer_allowed hr', hkey, hlog]
  exact (h.memory.spaced r.key).room_later
    (fun t ht => (h.memory.past r.key t ht).trans hr.later) (by linarith) holdest (by linarith)

end OneRequest

/-! ### Sequences of requests -/

theorem logged_of_ne {log : String → List Rat} {r : Request} {answer : Answer} {key : String}
    (h : r.key ≠ key) : logged log r answer key = log key := by
  rw [logged]
  split_ifs
  · exact Function.update_of_ne (Ne.symm h) ..
  · rfl

theorem logged_refused {log : String → List Rat} {r : Request} {answer : Answer}
    (h : answer.allowed = false) : logged log r answer = log := by
  rw [logged, h]
  rfl

/-- Requests on other keys leave the logs of a key. -/
theorem logs_run_of_ne {others : List Request} {w : World} {key : String}
    (h : ∀ other ∈ others, other.key ≠ key) :
    (run (step lasting rules) others w).redisLog key = w.redisLog key ∧
      (run (step lasting rules) others w).memoryLog key = w.memoryLog key := by
  induction others generalizing w with
  | nil => exact ⟨rfl, rfl⟩
  | cons r others ih =>
    obtain ⟨hredis, hmemory⟩ := ih (w := step lasting rules r w) fun other hother =>
      h other (List.mem_cons_of_mem _ hother)
    exact ⟨hredis.trans (logged_of_ne (h r List.mem_cons_self)),
      hmemory.trans (logged_of_ne (h r List.mem_cons_self))⟩

/-- No window of a key holds more than its limit, whichever end of it is open. -/
def WithinLimit (rule : Rule) (log : List Rat) : Prop :=
  ∀ start : Rat,
    (log.countP fun t => decide (start ≤ t) && decide (t < start + rule.window)) ≤ rule.limit ∧
      (log.countP fun t => decide (start < t) && decide (t ≤ start + rule.window)) ≤ rule.limit

theorem withinLimit_of_spaced {rule : Rule} {log : List Rat}
    (h : Spaced (rule.window : Rat) rule.limit log) : WithinLimit rule log := by
  intro start
  constructor
  · refine h.countP_le fun s _ t _ hs ht _ => ?_
    simp only [Bool.and_eq_true, decide_eq_true_eq] at hs ht
    linarith
  · refine h.countP_le fun s _ t _ hs ht _ => ?_
    simp only [Bool.and_eq_true, decide_eq_true_eq] at hs ht
    linarith

/-- A request that was refused, waits at least as long as it was told and is made again, with no
other on its key meanwhile, is admitted. -/
def HonestWaits (step : Request → World → World) (answer : World → Request → Answer)
    (requests : List Request) : Prop :=
  ∀ before r others again after, requests = before ++ r :: (others ++ again :: after) →
    (∀ other ∈ others, other.key ≠ r.key) → again.key = r.key →
    (answer (run step before {}) r).allowed = false →
    r.now + (answer (run step before {}) r).retryAfter ≤ again.now →
    (answer (run step (before ++ r :: others) {}) again).allowed = true

/-- What the limiter promises of a sequence of requests. -/
structure Promise (lasting : Bool) (rules : String → Rule) (requests : List Request) : Prop where
  redisWithin : ∀ key,
    WithinLimit (rules key) ((run (step lasting rules) requests {}).redisLog key)
  memoryWithin : ∀ key,
    WithinLimit (rules key) ((run (step lasting rules) requests {}).memoryLog key)
  redisHonest : HonestWaits (step lasting rules) (World.redisAnswer lasting rules) requests
  memoryHonest : HonestWaits (step lasting rules) (World.memoryAnswer rules) requests
  same : (∀ r ∈ requests, ∃ n : Int, r.now = n) → ∀ before r after,
    requests = before ++ r :: after →
      ((run (step lasting rules) before {}).redisAnswer lasting rules r).allowed =
        ((run (step lasting rules) before {}).memoryAnswer rules r).allowed

/-! ### Whole seconds -/

/-- Both logs are the same and hold whole seconds. -/
structure Whole (w : World) : Prop where
  same : w.redisLog = w.memoryLog
  whole : ∀ key, ∀ t ∈ w.memoryLog key, ∃ n : Int, t = n

theorem Kept.same_of_whole {w : World} {r : Request} (h : Kept lasting rules w) (hw : Whole w)
    (hsmooth : Smooth rules r w) (hr : ∃ n : Int, r.now = n) :
    (w.redisAnswer lasting rules r).allowed = (w.memoryAnswer rules r).allowed := by
  rw [Bool.eq_iff_iff, h.redisAnswer_allowed hsmooth.later, h.memoryAnswer_allowed hsmooth, hw.same]
  have hscale : ∀ t ∈ w.memoryLog r.key,
      milliseconds r.now - milliseconds t < ((rules r.key).window * 1000 : Int) ↔
        r.now - t < (rules r.key).window := by
    intro t ht
    obtain ⟨n, hn⟩ := hr
    obtain ⟨m, rfl⟩ := hw.whole r.key t ht
    have hstart : 0 ≤ r.now := h.start.trans hsmooth.later
    have hbound : r.now * 1000 ≤ 2 ^ 53 := by
      have hwindow : (0 : Rat) ≤ (rules r.key).window := Nat.cast_nonneg _
      linarith [hsmooth.inRange]
    obtain ⟨hpos, hpast⟩ := h.redis.past r.key m (by rwa [hw.same])
    rw [milliseconds_whole hstart hbound hn,
      milliseconds_whole hpos (by linarith [hsmooth.later]) rfl, hn]
    have hcast : (n : Rat) - m < (rules r.key).window ↔ n - m < ((rules r.key).window : Int) := by
      exact_mod_cast Iff.rfl
    rw [hcast]
    omega
  rw [recent_map hscale, List.length_map]

theorem Whole.step {w : World} {r : Request} (hw : Whole w)
    (hsame : (w.redisAnswer lasting rules r).allowed = (w.memoryAnswer rules r).allowed)
    (hr : ∃ n : Int, r.now = n) : Whole (step lasting rules r w) where
  same := by
    show logged w.redisLog r _ = logged w.memoryLog r _
    rw [logged, logged, hsame, hw.same]
  whole key t ht := by
    change t ∈ logged w.memoryLog r _ key at ht
    rw [logged] at ht
    split_ifs at ht
    · by_cases hkey : key = r.key
      · rw [hkey, Function.update_self, List.mem_append, List.mem_singleton] at ht
        rcases ht with hold | rfl
        · exact hw.whole r.key t hold
        · exact hr
      · rw [Function.update_of_ne hkey] at ht
        exact hw.whole key t ht
    · exact hw.whole key t ht

theorem same_of_smooth {requests : List Request}
    (h : AllSteps (step lasting rules) (Smooth rules) requests {})
    (hwhole : ∀ r ∈ requests, ∃ n : Int, r.now = n) :
    AllSteps (step lasting rules) (fun r w =>
      (w.redisAnswer lasting rules r).allowed = (w.memoryAnswer rules r).allowed) requests {} := by
  have hboth : AllSteps (step lasting rules) (fun r w => Smooth rules r w ∧ ∃ n : Int, r.now = n)
      requests {} := by
    refine allSteps_iff.mpr fun before r after heq => ⟨allSteps_iff.mp h before r after heq, ?_⟩
    exact hwhole r (by simp [heq])
  refine allSteps_of_invariant (P := fun w => Kept lasting rules w ∧ Whole w) ?_ ?_
    ⟨.initial lasting rules, rfl, by simp⟩ hboth
  · rintro r w ⟨hkept, hw⟩ ⟨hr, hnow⟩
    exact ⟨hkept.step hr, hw.step (hkept.same_of_whole hw hr hnow) hnow⟩
  · rintro r w ⟨hkept, hw⟩ ⟨hr, hnow⟩
    exact hkept.same_of_whole hw hr hnow

/-! ### The promise -/

/-- For every sequence of smooth requests, over any keys with any limits and windows, the limiter
keeps what it promises on both backends. -/
theorem promise_of_smooth (lasting : Bool) (rules : String → Rule) (requests : List Request)
    (h : AllSteps (step lasting rules) (Smooth rules) requests {}) :
    Promise lasting rules requests := by
  have hthroughout : Throughout (step lasting rules) (Kept lasting rules) requests {} :=
    throughout_of_allSteps (fun _ _ hw hr => hw.step hr) (.initial lasting rules) h
  have hkept : ∀ before after, requests = before ++ after →
      Kept lasting rules (run (step lasting rules) before {}) := by
    rintro before after rfl
    exact (throughout_append hthroughout).start
  have hsmooth : ∀ before r after, requests = before ++ r :: after →
      Smooth rules r (run (step lasting rules) before {}) := allSteps_iff.mp h
  have hagain : ∀ {before r others again after},
      requests = before ++ r :: (others ++ again :: after) →
        requests = (before ++ r :: others) ++ again :: after := by
    rintro before r others again after rfl
    simp
  refine ⟨fun key => ?_, fun key => ?_, ?_, ?_, fun hwhole => ?_⟩
  · exact withinLimit_of_spaced (hthroughout.final.redis.spaced key)
  · exact withinLimit_of_spaced (hthroughout.final.memory.spaced key)
  · intro before r others again after heq hothers hkey hrefused hwait
    refine (hkept before _ heq).redis_waited (hsmooth before r _ heq) (hkept _ _ (hagain heq))
      (hsmooth _ again after (hagain heq)) hkey ?_ hrefused hwait
    rw [run_append, run, (logs_run_of_ne hothers).1]
    exact congrFun (logged_refused hrefused) r.key
  · intro before r others again after heq hothers hkey hrefused hwait
    refine (hkept before _ heq).memory_waited (hsmooth before r _ heq) (hkept _ _ (hagain heq))
      (hsmooth _ again after (hagain heq)) hkey ?_ hrefused hwait
    rw [run_append, run, (logs_run_of_ne hothers).2]
    exact congrFun (logged_refused hrefused) r.key
  · exact allSteps_iff.mp (same_of_smooth h hwhole)

/-- One request a minute. -/
def oneAMinute (_ : String) : Rule := ⟨1, 60, by decide, by decide⟩

theorem promise_of_smooth_two :
    Promise false oneAMinute [⟨"a", 0⟩, ⟨"a", 30⟩] := by
  refine promise_of_smooth false oneAMinute [⟨"a", 0⟩, ⟨"a", 30⟩] ⟨?_, ?_, trivial⟩
  · refine ⟨le_refl 0, by decide +kernel, by simp, fun _ hstamp => by simp at hstamp,
      fun _ hfull => absurd hfull (by decide), fun hfull => ?_⟩
    exact absurd hfull (by decide)
  · have hlog : (step false oneAMinute ⟨"a", 0⟩ {}).redisLog "a" = [0] := by decide +kernel
    have hfound : foundStamps "a" (oneAMinute "a") 30
        (step false oneAMinute ⟨"a", 0⟩ {}).buckets = [0] := by decide +kernel
    have hbucket : ((step false oneAMinute ⟨"a", 0⟩ {}).buckets.get? "a").getD [] = [0] := by
      decide +kernel
    refine ⟨by decide +kernel, by decide +kernel, ?_, ?_,
      fun _ hfull => absurd hfull (by decide +kernel), ?_⟩
    · intro t ht _
      rw [hlog, List.mem_singleton] at ht
      rw [ht]
      decide +kernel
    · intro stamp hstamp _
      rw [hbucket, List.mem_singleton] at hstamp
      rw [hstamp]
      decide +kernel
    · intro _ oldest holdest
      rw [hfound] at holdest
      cases holdest
      exact .inr ⟨30, by decide +kernel⟩

/-- The table tells a request at half a second to wait 59 seconds of the 59 and a half. -/
theorem half_second_dishonest :
    ¬ Promise false oneAMinute [⟨"a", 0⟩, ⟨"a", 1 / 2⟩, ⟨"a", 119 / 2⟩] := by
  intro h
  have hadmitted := h.memoryHonest [⟨"a", 0⟩] ⟨"a", 1 / 2⟩ [] ⟨"a", 119 / 2⟩ [] rfl (by simp) rfl
    (by decide +kernel) (by decide +kernel)
  revert hadmitted
  decide +kernel

end FetchTask.RateLimit
