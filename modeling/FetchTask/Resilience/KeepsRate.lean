import FetchTask.Lib.Expiring
import FetchTask.Lib.TokenBucket
import FetchTask.Resilience
import FetchTask.Runtime
import Mathlib.Tactic.FieldSimp
import Mathlib.Tactic.Ring

/-!
The rate of a platform (`PlatformGuard._take_token`, `app/resilience.py`).

The tokens of a platform are in the table of the process or in Redis, where the
key of the bucket is given two minutes with every call. A key that is gone is
read as a full bucket, so Redis keeps the rate exactly when two minutes refill a
bucket.

Times and tokens are exact. A reply of the script is an integer: what it returns
of the tokens is truncated.
-/

namespace FetchTask.Resilience

open Expiring

/-! ### The policy -/

/-- `_env_int`, of the number that the environment has. -/
def envInt (value : Option Int) (default minimum : Int) : Int := max minimum (value.getD default)

/-- `load_policy`, of what the environment has for the platforms. -/
def loadPolicy (ratePerMinute burst failureThreshold recoverySeconds : Option Int) :
    ResiliencePolicy where
  platformRatePerMinute := envInt ratePerMinute 30 1
  platformBurst := envInt burst 5 1
  circuitFailureThreshold := envInt failureThreshold 5 1
  circuitRecoverySeconds := envInt recoverySeconds 60 1

/-! ### The bucket in Redis -/

def bucketSeconds : Rat := 120

/-- The script of `_take_token`. -/
def tokenScript (lasting : Bool) (now burst refill expiry : Rat)
    (key : Option (Key Rat Bucket)) : (Bool × Int) × Key Rat Bucket :=
  let values := (live lasting now key).map Key.value
  let tokens := (values.map Bucket.tokens).getD burst
  let updated := (values.map Bucket.updated).getD now
  let tokens := min burst (tokens + max 0 (now - updated) * refill)
  let allowed := decide (1 ≤ tokens)
  let tokens := if allowed then tokens - 1 else tokens
  ((allowed, truncate tokens), expire (now + expiry) ⟨⟨tokens, now⟩, none⟩)

/-- `_take_token` on Redis. -/
def redisTakeToken (policy : ResiliencePolicy) (lasting : Bool) (now : Rat)
    (key : Option (Key Rat Bucket)) : Admission × Option (Key Rat Bucket) :=
  let refill : Rat := policy.platformRatePerMinute / 60
  let ((allowed, tokens), key) :=
    tokenScript lasting now policy.platformBurst refill bucketSeconds key
  let retryAfter := if allowed then 0 else max 1 (((1 : Rat) - tokens) / refill).ceil
  (⟨allowed, if allowed then "" else "rate_limited", retryAfter⟩, some key)

/-! ### Sequences of calls -/

section Calls

variable {σ : Type} (take : Rat → σ → Admission × σ)

/-- What is stored after calls at these times. -/
def after : List Rat → σ → σ
  | [], s => s
  | now :: times, s => after times (take now s).2

/-- The times of the calls that are allowed. -/
def allowedTimes : List Rat → σ → List Rat
  | [], _ => []
  | now :: times, s =>
    let next := allowedTimes times (take now s).2
    if (take now s).1.allowed then now :: next else next

/-- A refused call that is made again after the seconds it was told is allowed. -/
def HonestRefusal (now : Rat) (s : σ) : Prop :=
  (take now s).1.allowed = false →
    (take (now + (take now s).1.retryAfter) (take now s).2).1.allowed = true

/-- The rate is kept from `fresh` on. -/
structure KeepsRate (policy : ResiliencePolicy) (fresh : σ) : Prop where
  bounded : ∀ times : List Rat, times.Pairwise (· ≤ ·) → ∀ start length : Rat, 0 ≤ length →
    (((allowedTimes take times fresh).countP fun t =>
        decide (start ≤ t) && decide (t ≤ start + length) : ℕ) : Rat) ≤
      policy.platformBurst + policy.platformRatePerMinute / 60 * length
  honest : ∀ (times : List Rat) (now : Rat), (times ++ [now]).Pairwise (· ≤ ·) →
    HonestRefusal take now (after take times fresh)

end Calls

/-! ### Calls on an exact bucket -/

section Exact

variable {policy : ResiliencePolicy}

/-- What a bucket of the table or of Redis holds. -/
def Bucket.held (b : Bucket) : TokenBucket.Bucket Rat := ⟨b.tokens, b.updated⟩

/-- A call on a bucket that never expires. -/
def ResiliencePolicy.take (policy : ResiliencePolicy) (now : Rat)
    (bucket : Option (TokenBucket.Bucket Rat)) : Bool × TokenBucket.Bucket Rat :=
  TokenBucket.take (policy.platformBurst : Rat) (policy.platformRatePerMinute / 60) now bucket

@[simp] theorem ResiliencePolicy.take_updated (policy : ResiliencePolicy) (now : Rat)
    (bucket : Option (TokenBucket.Bucket Rat)) : (policy.take now bucket).2.updated = now :=
  TokenBucket.take_updated ..

/-- The bucket is not in debt, and none of the calls to come is before its last one. -/
def Ready (bucket : Option (TokenBucket.Bucket Rat)) (times : List Rat) : Prop :=
  ∀ b ∈ bucket, 0 ≤ b.tokens ∧ ∀ t ∈ times, b.updated ≤ t

/-- What `load_policy` makes sure of. -/
structure ResiliencePolicy.Positive (policy : ResiliencePolicy) : Prop where
  rate : 1 ≤ policy.platformRatePerMinute
  burst : 1 ≤ policy.platformBurst

theorem loadPolicy_positive (ratePerMinute burst failureThreshold recoverySeconds : Option Int) :
    (loadPolicy ratePerMinute burst failureThreshold recoverySeconds).Positive :=
  ⟨le_max_left .., le_max_left ..⟩

theorem ResiliencePolicy.Positive.refill_pos (h : policy.Positive) :
    (0 : Rat) < policy.platformRatePerMinute / 60 := by
  have hrate : (1 : Rat) ≤ policy.platformRatePerMinute := by exact_mod_cast h.rate
  linarith

theorem ResiliencePolicy.Positive.one_le_burst (h : policy.Positive) :
    (1 : Rat) ≤ policy.platformBurst := by exact_mod_cast h.burst

theorem ready_nil (times : List Rat) : Ready none times := by simp [Ready]

theorem Ready.next (hpolicy : policy.Positive) {now : Rat} {times : List Rat}
    {bucket : Option (TokenBucket.Bucket Rat)} (h : Ready bucket (now :: times))
    (hsorted : (now :: times).Pairwise (· ≤ ·)) : Ready (some (policy.take now bucket).2) times := by
  intro b hb
  cases hb
  refine ⟨TokenBucket.take_nonneg (le_trans zero_le_one hpolicy.one_le_burst)
    (le_of_lt hpolicy.refill_pos) now fun b hb => (h b hb).1, fun t ht => ?_⟩
  rw [ResiliencePolicy.take_updated]
  exact List.rel_of_pairwise_cons hsorted ht

/-- Enough whole seconds refill what a token lacks. -/
theorem refilled {tokens refill : Rat} {seconds : Int} (hrefill : 0 < refill)
    (h : ((1 - tokens) / refill).ceil ≤ seconds) : 1 ≤ tokens + seconds * refill := by
  have hceil : (1 - tokens) / refill ≤ seconds := (Rat.le_ceil).trans (by exact_mod_cast h)
  have hneeded := (div_le_iff₀ hrefill).mp hceil
  linarith

/-- A call that waits for what a token lacks, a second or more, is granted. -/
theorem take_waited (hpolicy : policy.Positive) {bucket : TokenBucket.Bucket Rat} {seconds : Int}
    (hone : 1 ≤ seconds)
    (h : ((1 - bucket.tokens) / (policy.platformRatePerMinute / 60)).ceil ≤ seconds) :
    (policy.take (bucket.updated + seconds) (some bucket)).1 = true := by
  have hseconds : (1 : Rat) ≤ seconds := by exact_mod_cast hone
  refine TokenBucket.take_of_refilled hpolicy.one_le_burst (by linarith) ?_
  rw [add_sub_cancel_left]
  exact refilled hpolicy.refill_pos h

variable {σ : Type} {take : Rat → σ → Admission × σ}
  {Holds : σ → Option (TokenBucket.Bucket Rat) → Prop}

/-- A backend grants what an exact bucket grants, where each call does and keeps what is stored
in step with the bucket. -/
theorem allowedTimes_eq (hpolicy : policy.Positive)
    (hstep : ∀ now s bucket, Holds s bucket → Ready bucket [now] →
      (take now s).1.allowed = (policy.take now bucket).1 ∧
        Holds (take now s).2 (some (policy.take now bucket).2))
    {times : List Rat} (hsorted : times.Pairwise (· ≤ ·)) {s : σ}
    {bucket : Option (TokenBucket.Bucket Rat)} (hholds : Holds s bucket)
    (hready : Ready bucket times) :
    allowedTimes take times s =
      TokenBucket.granted (policy.platformBurst : Rat) (policy.platformRatePerMinute / 60) times
        bucket := by
  induction times generalizing s bucket with
  | nil => rfl
  | cons now times ih =>
    have hfirst : Ready bucket [now] := fun b hb =>
      ⟨(hready b hb).1, fun t ht => (hready b hb).2 t (by simp_all)⟩
    obtain ⟨hallowed, hnext⟩ := hstep now s bucket hholds hfirst
    rw [allowedTimes, TokenBucket.granted, hallowed,
      ih hsorted.of_cons hnext (hready.next hpolicy hsorted)]
    rfl

/-- Such a backend keeps the bound. -/
theorem bounded_of_exact (hpolicy : policy.Positive) {fresh : σ} {times : List Rat}
    (hsorted : times.Pairwise (· ≤ ·))
    (hexact : allowedTimes take times fresh =
      TokenBucket.granted (policy.platformBurst : Rat) (policy.platformRatePerMinute / 60) times
        none) (start : Rat) {length : Rat} (hlength : 0 ≤ length) :
    (((allowedTimes take times fresh).countP fun t =>
        decide (start ≤ t) && decide (t ≤ start + length) : ℕ) : Rat) ≤
      policy.platformBurst + policy.platformRatePerMinute / 60 * length := by
  have hnone : ∀ b ∈ (none : Option (TokenBucket.Bucket Rat)), 0 ≤ b.tokens := by simp
  have hle := TokenBucket.granted_le (le_trans zero_le_one hpolicy.one_le_burst)
    (le_of_lt hpolicy.refill_pos) (le_add_of_nonneg_right (a := start) hlength) hsorted hnone
  rw [add_sub_cancel_left, mul_comm] at hle
  rwa [hexact]

end Exact

/-! ### The table of the process -/

section Table

variable {policy : ResiliencePolicy} {platform : String}

theorem takeToken_level (policy : ResiliencePolicy) (now : Rat) (platform : String) (g : Guard) :
    min (policy.platformBurst : Rat)
        (((g.buckets platform).getD ⟨policy.platformBurst, now⟩).tokens +
          max 0 (now - ((g.buckets platform).getD ⟨policy.platformBurst, now⟩).updated) *
            (policy.platformRatePerMinute / 60)) =
      TokenBucket.level (policy.platformBurst : Rat) (policy.platformRatePerMinute / 60) now
        ((g.buckets platform).map Bucket.held) := by
  cases g.buckets platform with
  | none => simp [TokenBucket.level]
  | some bucket => rfl

/-- A call on the table is a call on the bucket that it holds. -/
theorem takeToken_eq (policy : ResiliencePolicy) (now : Rat) (platform : String) (g : Guard) :
    (takeToken policy now platform g).1.allowed =
        (policy.take now ((g.buckets platform).map Bucket.held)).1 ∧
      ((takeToken policy now platform g).2.buckets platform).map Bucket.held =
        some (policy.take now ((g.buckets platform).map Bucket.held)).2 := by
  simp only [takeToken, takeToken_level, ResiliencePolicy.take, TokenBucket.take]
  split_ifs
  · simp [Guard.setBucket, Bucket.held]
  · simp [Guard.setBucket, Bucket.held]

/-- A refusal of the table tells when the bucket that it leaves has a token. -/
theorem takeToken_retryAfter {now : Rat} {g : Guard}
    (h : (takeToken policy now platform g).1.allowed = false) :
    (takeToken policy now platform g).1.retryAfter =
      max 1 ((1 - (policy.take now ((g.buckets platform).map Bucket.held)).2.tokens) /
        ((policy.platformRatePerMinute : Rat) / 60)).ceil := by
  simp only [takeToken, takeToken_level, ResiliencePolicy.take, TokenBucket.take] at h ⊢
  split_ifs at h ⊢
  rfl

theorem honest_takeToken (hpolicy : policy.Positive) (now : Rat) (g : Guard) :
    HonestRefusal (fun now g => takeToken policy now platform g) now g := by
  intro hrefused
  obtain ⟨-, hnext⟩ := takeToken_eq policy now platform g
  have hwaited := take_waited hpolicy (le_max_left 1 _) (le_max_right 1
    ((1 - (policy.take now ((g.buckets platform).map Bucket.held)).2.tokens) /
      ((policy.platformRatePerMinute : Rat) / 60)).ceil)
  simp only
  rw [(takeToken_eq ..).1, hnext, takeToken_retryAfter hrefused]
  rwa [ResiliencePolicy.take_updated] at hwaited

/-- The table keeps the rate under every policy. -/
theorem keepsRate_takeToken (hpolicy : policy.Positive) :
    KeepsRate (fun now g => takeToken policy now platform g) policy {} where
  bounded times hsorted start length hlength := by
    refine bounded_of_exact hpolicy hsorted ?_ start hlength
    have hstep : ∀ now (g : Guard) bucket, (g.buckets platform).map Bucket.held = bucket →
        Ready bucket [now] →
        (takeToken policy now platform g).1.allowed = (policy.take now bucket).1 ∧
          ((takeToken policy now platform g).2.buckets platform).map Bucket.held =
            some (policy.take now bucket).2 := by
      rintro now g _ rfl -
      exact takeToken_eq policy now platform g
    exact allowedTimes_eq hpolicy hstep hsorted rfl (ready_nil times)
  honest times now _ := honest_takeToken hpolicy now _

end Table

/-! ### Redis -/

section Redis

variable {policy : ResiliencePolicy} {lasting : Bool}

/-- What a call reads of the key. -/
def readBucket (lasting : Bool) (now : Rat) (key : Option (Key Rat Bucket)) :
    Option (TokenBucket.Bucket Rat) :=
  (live lasting now key).map fun k => k.value.held

/-- The key after a call that leaves this bucket. -/
def written (bucket : TokenBucket.Bucket Rat) : Key Rat Bucket :=
  ⟨⟨bucket.tokens, bucket.updated⟩, some (bucket.updated + bucketSeconds)⟩

theorem tokenScript_level (now burst refill : Rat) (key : Option (Key Rat Bucket)) :
    min burst ((((live lasting now key).map Key.value).map Bucket.tokens).getD burst +
        max 0 (now - (((live lasting now key).map Key.value).map Bucket.updated).getD now) *
          refill) =
      TokenBucket.level burst refill now (readBucket lasting now key) := by
  rw [readBucket]
  cases live lasting now key with
  | none => simp [TokenBucket.level]
  | some key => rfl

/-- A call on Redis is a call on what it reads, a full bucket when the key is gone. -/
theorem redisTakeToken_eq (policy : ResiliencePolicy) (lasting : Bool) (now : Rat)
    (key : Option (Key Rat Bucket)) :
    (redisTakeToken policy lasting now key).1.allowed =
        (policy.take now (readBucket lasting now key)).1 ∧
      (redisTakeToken policy lasting now key).2 =
        some (written (policy.take now (readBucket lasting now key)).2) := by
  simp only [redisTakeToken, tokenScript, tokenScript_level, ResiliencePolicy.take,
    TokenBucket.take]
  by_cases h : 1 ≤ TokenBucket.level (policy.platformBurst : Rat)
      (policy.platformRatePerMinute / 60) now (readBucket lasting now key)
  · simp [h, written, expire]
  · simp [h, written, expire]

theorem truncate_eq_zero {q : Rat} (hnonneg : 0 ≤ q) (hlt : q < 1) : truncate q = 0 :=
  Int.tdiv_eq_zero_of_lt (Rat.num_nonneg.mpr hnonneg) (Rat.num_lt_denom_iff.mpr hlt)

/-- What is read of a key is not in debt when the key is not. -/
theorem readBucket_nonneg {now : Rat} {key : Option (Key Rat Bucket)}
    (htokens : ∀ k ∈ key, 0 ≤ k.value.tokens) : ∀ b ∈ readBucket lasting now key, 0 ≤ b.tokens := by
  intro b hb
  obtain ⟨k, hlive, rfl⟩ := Option.mem_map.mp hb
  cases key with
  | none => cases hlive
  | some stored =>
    rw [live] at hlive
    split_ifs at hlive with hthere
    · cases hlive
      exact htokens _ rfl
    · cases hlive

/-- Nothing in Redis is in debt. -/
theorem redisTakeToken_nonneg (hpolicy : policy.Positive) {now : Rat}
    {key : Option (Key Rat Bucket)} (htokens : ∀ k ∈ key, 0 ≤ k.value.tokens) :
    ∀ k ∈ (redisTakeToken policy lasting now key).2, 0 ≤ k.value.tokens := by
  rw [(redisTakeToken_eq policy lasting now key).2]
  intro k hk
  cases hk
  exact TokenBucket.take_nonneg (le_trans zero_le_one hpolicy.one_le_burst)
    (le_of_lt hpolicy.refill_pos) now (readBucket_nonneg htokens)

/-- A refusal of Redis tells when an empty bucket has a token. -/
theorem redisTakeToken_retryAfter (hpolicy : policy.Positive) {now : Rat}
    {key : Option (Key Rat Bucket)} (htokens : ∀ k ∈ key, 0 ≤ k.value.tokens)
    (h : (redisTakeToken policy lasting now key).1.allowed = false) :
    (redisTakeToken policy lasting now key).1.retryAfter =
      max 1 (((1 : Rat) - 0) / (policy.platformRatePerMinute / 60)).ceil := by
  have hread : ∀ b ∈ readBucket lasting now key, 0 ≤ b.tokens := readBucket_nonneg htokens
  have hnonneg := TokenBucket.level_nonneg (le_trans zero_le_one hpolicy.one_le_burst)
    (le_of_lt hpolicy.refill_pos) now hread
  simp only [redisTakeToken, tokenScript, tokenScript_level, decide_eq_false_iff_not] at h ⊢
  rw [if_neg (by simpa using h), if_neg (by simpa using h),
    truncate_eq_zero hnonneg (not_le.mp h), Int.cast_zero]

/-- A written key is read as it was written, or it is gone. -/
theorem readBucket_written (lasting : Bool) (now : Rat) (bucket : TokenBucket.Bucket Rat) :
    readBucket lasting now (some (written bucket)) = some bucket ∨
      readBucket lasting now (some (written bucket)) = none ∧
        bucket.updated + bucketSeconds ≤ now := by
  by_cases hthere : there lasting now (some (bucket.updated + bucketSeconds)) = true
  · exact .inl (by simp [readBucket, live, written, hthere, Bucket.held])
  · refine .inr ⟨by simp [readBucket, live, written, hthere], ?_⟩
    exact not_lt.mp fun hlt => hthere (there_of_lt hlt)

theorem honest_redisTakeToken (hpolicy : policy.Positive) {now : Rat}
    {key : Option (Key Rat Bucket)} (htokens : ∀ k ∈ key, 0 ≤ k.value.tokens) :
    HonestRefusal (redisTakeToken policy lasting) now key := by
  intro hrefused
  have hrefill := hpolicy.refill_pos
  rw [(redisTakeToken_eq ..).1, (redisTakeToken_eq policy lasting now key).2,
    redisTakeToken_retryAfter hpolicy htokens hrefused]
  rcases readBucket_written lasting (now + (max 1 (((1 : Rat) - 0) /
    (policy.platformRatePerMinute / 60)).ceil : Int))
      (policy.take now (readBucket lasting now key)).2 with hread | ⟨hread, -⟩
  · -- The wait is the one of an empty bucket, and this one holds no less.
    have hnonneg : 0 ≤ (policy.take now (readBucket lasting now key)).2.tokens :=
      TokenBucket.take_nonneg (le_trans zero_le_one hpolicy.one_le_burst) (le_of_lt hrefill) now
        (readBucket_nonneg htokens)
    have hshorter : ((1 - (policy.take now (readBucket lasting now key)).2.tokens) /
          (policy.platformRatePerMinute / 60)).ceil ≤
        (((1 : Rat) - 0) / (policy.platformRatePerMinute / 60)).ceil :=
      Rat.ceil_le_iff.mpr
        ((div_le_div_of_nonneg_right (by linarith) (le_of_lt hrefill)).trans Rat.le_ceil)
    have hwaited := take_waited hpolicy (le_max_left 1 _) (hshorter.trans (le_max_right 1 _))
    rw [hread]
    rwa [ResiliencePolicy.take_updated] at hwaited
  · rw [hread]
    exact (TokenBucket.take_granted ..).mpr hpolicy.one_le_burst

/-- A bucket that two minutes refill is full when its key is gone. -/
theorem take_readBucket (hpolicy : policy.Positive)
    (hrefill : policy.platformBurst ≤ 2 * policy.platformRatePerMinute) {now : Rat}
    {bucket : Option (TokenBucket.Bucket Rat)} (hready : Ready bucket [now]) :
    policy.take now (readBucket lasting now (bucket.map written)) = policy.take now bucket := by
  cases bucket with
  | none => rfl
  | some b =>
    rw [Option.map_some]
    rcases readBucket_written lasting now b with hread | ⟨hread, hgone⟩
    · rw [hread]
    · have htokens := (hready b rfl).1
      have htwo : (policy.platformBurst : Rat) ≤ 2 * policy.platformRatePerMinute := by
        exact_mod_cast hrefill
      have helapsed : bucketSeconds * ((policy.platformRatePerMinute : Rat) / 60) ≤
          (now - b.updated) * (policy.platformRatePerMinute / 60) :=
        mul_le_mul_of_nonneg_right (by linarith) (le_of_lt hpolicy.refill_pos)
      have hfull : TokenBucket.level (policy.platformBurst : Rat)
          (policy.platformRatePerMinute / 60) now (some b) = policy.platformBurst := by
        refine le_antisymm (TokenBucket.level_le ..) ?_
        refine TokenBucket.le_level (le_refl _) ((hready b rfl).2 now List.mem_cons_self) ?_
        rw [bucketSeconds] at helapsed
        linarith
      rw [hread, ResiliencePolicy.take, TokenBucket.take, ResiliencePolicy.take, TokenBucket.take,
        hfull]
      rfl

theorem after_nonneg (hpolicy : policy.Positive) (times : List Rat)
    {key : Option (Key Rat Bucket)} (htokens : ∀ k ∈ key, 0 ≤ k.value.tokens) :
    ∀ k ∈ after (redisTakeToken policy lasting) times key, 0 ≤ k.value.tokens := by
  induction times generalizing key with
  | nil => exact htokens
  | cons now times ih => exact ih (redisTakeToken_nonneg hpolicy htokens)

/-- Where two minutes refill a bucket, Redis keeps the rate. -/
theorem keepsRate_redisTakeToken (hpolicy : policy.Positive)
    (hrefill : policy.platformBurst ≤ 2 * policy.platformRatePerMinute) :
    KeepsRate (redisTakeToken policy lasting) policy none where
  bounded times hsorted start length hlength := by
    refine bounded_of_exact hpolicy hsorted ?_ start hlength
    have hstep : ∀ now key (bucket : Option (TokenBucket.Bucket Rat)), key = bucket.map written →
        Ready bucket [now] →
        (redisTakeToken policy lasting now key).1.allowed = (policy.take now bucket).1 ∧
          (redisTakeToken policy lasting now key).2 =
            Option.map written (some (policy.take now bucket).2) := by
      rintro now _ bucket rfl hready
      have hcall := redisTakeToken_eq policy lasting now (bucket.map written)
      rwa [take_readBucket hpolicy hrefill hready] at hcall
    exact allowedTimes_eq hpolicy hstep hsorted rfl (ready_nil times)
  honest times now _ :=
    honest_redisTakeToken hpolicy (after_nonneg hpolicy times fun _ hk => by cases hk)

/-! ### A bucket that two minutes do not refill -/

theorem allowedTimes_append {σ : Type} (take : Rat → σ → Admission × σ) (times times' : List Rat)
    (s : σ) : allowedTimes take (times ++ times') s =
      allowedTimes take times s ++ allowedTimes take times' (after take times s) := by
  induction times generalizing s with
  | nil => rfl
  | cons now times ih =>
    rw [List.cons_append, allowedTimes, allowedTimes, after, ih]
    split_ifs <;> rfl

/-- As many calls at one time as there are tokens are all allowed. -/
theorem allowedTimes_replicate (now : Rat) (n : Nat) {key : Option (Key Rat Bucket)}
    (h : (n : Rat) ≤ TokenBucket.level (policy.platformBurst : Rat)
      (policy.platformRatePerMinute / 60) now (readBucket lasting now key)) :
    allowedTimes (redisTakeToken policy lasting) (List.replicate n now) key =
      List.replicate n now := by
  induction n generalizing key with
  | zero => rfl
  | succ n ih =>
    rw [Nat.cast_succ] at h
    have hone : 1 ≤ TokenBucket.level (policy.platformBurst : Rat)
        (policy.platformRatePerMinute / 60) now (readBucket lasting now key) := by
      have hn : (0 : Rat) ≤ n := Nat.cast_nonneg n
      linarith
    have hbucket : (policy.take now (readBucket lasting now key)).2 =
        ⟨TokenBucket.level (policy.platformBurst : Rat) (policy.platformRatePerMinute / 60) now
          (readBucket lasting now key) - 1, now⟩ := by
      rw [ResiliencePolicy.take, TokenBucket.take, if_pos hone]
    have htake : (policy.take now (readBucket lasting now key)).1 = true :=
      (TokenBucket.take_granted ..).mpr hone
    obtain ⟨hallowed, hnext⟩ := redisTakeToken_eq policy lasting now key
    have hread : readBucket lasting now (redisTakeToken policy lasting now key).2 =
        some (policy.take now (readBucket lasting now key)).2 := by
      rw [hnext]
      refine (readBucket_written lasting now _).resolve_right fun hgone => ?_
      have hlate := hgone.2
      rw [ResiliencePolicy.take_updated, bucketSeconds] at hlate
      linarith
    rw [List.replicate_succ, allowedTimes, hallowed, if_pos htake, ih]
    rw [hread, hbucket]
    have hle := TokenBucket.level_le (policy.platformBurst : Rat)
      (policy.platformRatePerMinute / 60) now (readBucket lasting now key)
    exact TokenBucket.le_level (by linarith) (le_refl now) (by linarith)

/-- After calls at one time the key expires two minutes later. -/
theorem after_replicate (policy : ResiliencePolicy) (lasting : Bool) (now : Rat) (n : Nat) (key : Option (Key Rat Bucket)) :
    ∃ bucket : TokenBucket.Bucket Rat, bucket.updated = now ∧
      after (redisTakeToken policy lasting) (List.replicate (n + 1) now) key =
        some (written bucket) := by
  induction n generalizing key with
  | zero =>
    exact ⟨_, policy.take_updated now _, (redisTakeToken_eq policy lasting now key).2⟩
  | succ n ih => exact ih (redisTakeToken policy lasting now key).2

/-- A time after the key is gone and before the bucket is refilled, in a bucket that two minutes
do not refill. -/
theorem exists_unfilled (hpolicy : policy.Positive)
    (h : 2 * policy.platformRatePerMinute < policy.platformBurst) :
    ∃ late : Rat, bucketSeconds < late ∧
      policy.platformRatePerMinute / 60 * late < policy.platformBurst := by
  have hrate : (0 : Rat) < policy.platformRatePerMinute := by
    exact_mod_cast lt_of_lt_of_le zero_lt_one hpolicy.rate
  have hburst : (2 : Rat) * policy.platformRatePerMinute + 1 ≤ policy.platformBurst := by
    exact_mod_cast h
  refine ⟨120 + 30 / policy.platformRatePerMinute, ?_, ?_⟩
  · have hpos : (0 : Rat) < 30 / policy.platformRatePerMinute := div_pos (by norm_num) hrate
    rw [bucketSeconds]
    linarith
  · have hhalf : (policy.platformRatePerMinute : Rat) / 60 *
        (120 + 30 / policy.platformRatePerMinute) = 2 * policy.platformRatePerMinute + 1 / 2 := by
      field_simp
      ring
    linarith

/-- A bucket that two minutes do not refill is used up, forgotten, and used up again too soon. -/
theorem not_bounded (hpolicy : policy.Positive)
    (h : 2 * policy.platformRatePerMinute < policy.platformBurst) :
    ¬ KeepsRate (redisTakeToken policy lasting) policy none := by
  intro hkeeps
  obtain ⟨late, hlate, hunfilled⟩ := exists_unfilled hpolicy h
  obtain ⟨n, hn⟩ : ∃ n : Nat, policy.platformBurst = (n : Int) + 1 :=
    ⟨(policy.platformBurst - 1).toNat, by have := hpolicy.burst; omega⟩
  have hburst : (policy.platformBurst : Rat) = ((n + 1 : Nat) : Rat) := by
    rw [hn]
    push_cast
    ring
  have hpositive : (0 : Rat) ≤ late := by
    rw [bucketSeconds] at hlate
    linarith
  have hsorted : (List.replicate (n + 1) (0 : Rat) ++ List.replicate (n + 1) late).Pairwise
      (· ≤ ·) := by
    refine List.pairwise_append.mpr ⟨?_, ?_, ?_⟩
    · exact List.pairwise_replicate.mpr (.inr (le_refl _))
    · exact List.pairwise_replicate.mpr (.inr (le_refl _))
    · intro a ha b hb
      rw [List.eq_of_mem_replicate ha, List.eq_of_mem_replicate hb]
      exact hpositive
  obtain ⟨bucket, hupdated, hafter⟩ := after_replicate policy lasting 0 n none
  have hgone : readBucket lasting late (some (written bucket)) = none := by
    rw [readBucket, live, written, hupdated, not_there_of_lt (by linarith)]
    rfl
  have hfresh : ((n + 1 : Nat) : Rat) ≤ TokenBucket.level (policy.platformBurst : Rat)
      (policy.platformRatePerMinute / 60) 0 (readBucket lasting 0 none) := le_of_eq hburst.symm
  have hallowed : allowedTimes (redisTakeToken policy lasting)
      (List.replicate (n + 1) 0 ++ List.replicate (n + 1) late) none =
        List.replicate (n + 1) 0 ++ List.replicate (n + 1) late := by
    rw [allowedTimes_append, allowedTimes_replicate 0 (n + 1) hfresh, hafter,
      allowedTimes_replicate late (n + 1)]
    rw [hgone]
    exact le_of_eq hburst.symm
  have hbound := hkeeps.bounded _ hsorted 0 late hpositive
  rw [hallowed, List.countP_eq_length.mpr, List.length_append, List.length_replicate,
    List.length_replicate, Nat.cast_add, hburst] at hbound
  · rw [hburst] at hunfilled
    linarith
  · intro t ht
    rcases List.mem_append.mp ht with hearly | hlater
    · rw [List.eq_of_mem_replicate hearly]
      simpa using hpositive
    · rw [List.eq_of_mem_replicate hlater]
      simpa using hpositive

end Redis

/-- For every environment: over all non-decreasing sequences of calls both backends keep the rate
and tell a time at which a call is allowed, if and only if two minutes refill a bucket. -/
theorem keeps_rate_iff (lasting : Bool) (platform : String)
    (ratePerMinute burst failureThreshold recoverySeconds : Option Int) :
    let policy := loadPolicy ratePerMinute burst failureThreshold recoverySeconds
    KeepsRate (fun now g => takeToken policy now platform g) policy {} ∧
        KeepsRate (redisTakeToken policy lasting) policy none ↔
      policy.platformBurst ≤ 2 * policy.platformRatePerMinute := by
  intro policy
  have hpolicy : policy.Positive := loadPolicy_positive ..
  constructor
  · rintro ⟨-, hredis⟩
    exact not_lt.mp fun hlt => not_bounded hpolicy hlt hredis
  · intro hrefill
    exact ⟨keepsRate_takeToken hpolicy, keepsRate_redisTakeToken hpolicy hrefill⟩

/-- Five calls, and five more two minutes and a second later, where a token takes a minute: Redis
allows all of them. -/
theorem forgotten_bucket :
    ((allowedTimes (redisTakeToken (loadPolicy (some 1) none none none) false)
        (List.replicate 5 0 ++ List.replicate 5 121) none).countP fun t =>
          decide (0 ≤ t) && decide (t ≤ 0 + 121)) = 10 ∧
      ¬ KeepsRate (redisTakeToken (loadPolicy (some 1) none none none) false)
        (loadPolicy (some 1) none none none) none :=
  ⟨by decide +kernel, not_bounded ⟨by decide, by decide⟩ (by decide)⟩

end FetchTask.Resilience
