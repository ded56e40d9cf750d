import Mathlib.Algebra.Order.Field.Basic
import Mathlib.Data.List.Sort
import Mathlib.Tactic.Linarith

/-!
Token buckets.

A bucket of a capacity is refilled at a rate up to its capacity, and each grant
takes a token out of it. A bucket that was never used is full. Over any stretch
of time it grants no more than its capacity and what was refilled meanwhile
(`granted_le`).
-/

namespace FetchTask.TokenBucket

universe u

variable {K : Type u} [Field K] [LinearOrder K]

/-- What a bucket held when it was last asked. -/
structure Bucket (K : Type u) where
  tokens : K
  updated : K

/-- What a bucket holds at `now`. -/
def level (capacity rate now : K) : Option (Bucket K) → K
  | none => capacity
  | some bucket => min capacity (bucket.tokens + max 0 (now - bucket.updated) * rate)

/-- Whether a token is granted, and the bucket after it. -/
def take (capacity rate now : K) (bucket : Option (Bucket K)) : Bool × Bucket K :=
  let tokens := level capacity rate now bucket
  if 1 ≤ tokens then (true, ⟨tokens - 1, now⟩) else (false, ⟨tokens, now⟩)

/-- The times at which a token was granted. -/
def granted (capacity rate : K) : List K → Option (Bucket K) → List K
  | [], _ => []
  | now :: times, bucket =>
    let next := granted capacity rate times (some (take capacity rate now bucket).2)
    if (take capacity rate now bucket).1 then now :: next else next

section Level

variable {capacity rate : K}

theorem level_le (capacity rate now : K) (bucket : Option (Bucket K)) :
    level capacity rate now bucket ≤ capacity := by
  cases bucket with
  | none => exact le_refl capacity
  | some bucket => exact min_le_left ..

@[simp] theorem take_updated (now : K) (bucket : Option (Bucket K)) :
    (take capacity rate now bucket).2.updated = now := by
  rw [take]
  split_ifs <;> rfl

theorem take_granted (now : K) (bucket : Option (Bucket K)) :
    (take capacity rate now bucket).1 = true ↔ 1 ≤ level capacity rate now bucket := by
  rw [take]
  split_ifs with h <;> simp [h]

/-- What is taken out is what is granted. -/
theorem take_tokens (capacity rate now : K) (bucket : Option (Bucket K)) :
    ((if (take capacity rate now bucket).1 then 1 else 0 : ℕ) : K) +
      (take capacity rate now bucket).2.tokens = level capacity rate now bucket := by
  by_cases h : 1 ≤ level capacity rate now bucket
  · simp [take, h]
  · simp [take, h]

/-- Nothing is granted but at a time of a call. -/
theorem granted_subset (times : List K) (bucket : Option (Bucket K)) :
    granted capacity rate times bucket ⊆ times := by
  induction times generalizing bucket with
  | nil => exact List.Subset.refl _
  | cons now times ih =>
    rw [granted]
    split_ifs
    · exact List.cons_subset_cons now (ih _)
    · exact List.Subset.trans (ih _) (List.subset_cons_self ..)

/-- A call at `now` and what is granted up to `stop` after it. -/
theorem countP_granted_cons {now stop : K} {times : List K} {bucket : Option (Bucket K)}
    (h : now ≤ stop) :
    (granted capacity rate (now :: times) bucket).countP (fun t => decide (t ≤ stop)) =
      (if (take capacity rate now bucket).1 then 1 else 0) +
        (granted capacity rate times (some (take capacity rate now bucket).2)).countP
          fun t => decide (t ≤ stop) := by
  rw [granted]
  by_cases htake : (take capacity rate now bucket).1 = true
  · simp [htake, h, Nat.add_comm]
  · simp [htake]

/-- No call is granted after the last one. -/
theorem countP_granted_of_lt {now stop : K} {times : List K} {bucket : Option (Bucket K)}
    (hsorted : (now :: times).Pairwise (· ≤ ·)) (h : stop < now) :
    (granted capacity rate (now :: times) bucket).countP (fun t => decide (t ≤ stop)) = 0 := by
  rw [List.countP_eq_zero]
  intro t ht
  have hnow : now ≤ t := by
    rcases List.mem_cons.mp (granted_subset _ _ ht) with rfl | hmem
    · exact le_refl t
    · exact List.rel_of_pairwise_cons hsorted hmem
  simpa using h.trans_le hnow

end Level

variable [IsStrictOrderedRing K] {capacity rate : K}

theorem level_some_le (capacity rate : K) {bucket : Bucket K} {now : K} (h : bucket.updated ≤ now) :
    level capacity rate now (some bucket) ≤ bucket.tokens + (now - bucket.updated) * rate := by
  refine (min_le_right _ _).trans_eq ?_
  rw [max_eq_right (sub_nonneg.mpr h)]

theorem le_level {bucket : Bucket K} {now tokens : K} (hcapacity : tokens ≤ capacity)
    (hlater : bucket.updated ≤ now)
    (htokens : tokens ≤ bucket.tokens + (now - bucket.updated) * rate) :
    tokens ≤ level capacity rate now (some bucket) := by
  refine le_min hcapacity ?_
  rwa [max_eq_right (sub_nonneg.mpr hlater)]

theorem level_nonneg (hcapacity : 0 ≤ capacity) (hrate : 0 ≤ rate) (now : K)
    {bucket : Option (Bucket K)} (hbucket : ∀ b ∈ bucket, 0 ≤ b.tokens) :
    0 ≤ level capacity rate now bucket := by
  cases bucket with
  | none => exact hcapacity
  | some b =>
    exact le_min hcapacity (add_nonneg (hbucket b rfl) (mul_nonneg (le_max_left ..) hrate))

theorem take_nonneg (hcapacity : 0 ≤ capacity) (hrate : 0 ≤ rate) (now : K)
    {bucket : Option (Bucket K)} (hbucket : ∀ b ∈ bucket, 0 ≤ b.tokens) :
    0 ≤ (take capacity rate now bucket).2.tokens := by
  have hlevel := level_nonneg hcapacity hrate now hbucket
  rw [take]
  split_ifs with h
  · exact sub_nonneg.mpr h
  · exact hlevel

/-- A call that comes once a token is there is granted. -/
theorem take_of_refilled (hcapacity : 1 ≤ capacity) {bucket : Bucket K} {now : K}
    (hlater : bucket.updated ≤ now)
    (htoken : 1 ≤ bucket.tokens + (now - bucket.updated) * rate) :
    (take capacity rate now (some bucket)).1 = true :=
  (take_granted ..).mpr (le_level hcapacity hlater htoken)

/-- Up to `stop` a bucket grants what it holds and what it is refilled with until then. -/
theorem countP_granted_le (hcapacity : 0 ≤ capacity) (hrate : 0 ≤ rate) {stop : K}
    {times : List K} (hsorted : times.Pairwise (· ≤ ·)) {bucket : Bucket K}
    (htokens : 0 ≤ bucket.tokens) (hlater : ∀ t ∈ times, bucket.updated ≤ t)
    (hstop : bucket.updated ≤ stop) :
    (((granted capacity rate times (some bucket)).countP fun t => decide (t ≤ stop) : ℕ) : K) ≤
      bucket.tokens + (stop - bucket.updated) * rate := by
  have hnonneg : 0 ≤ bucket.tokens + (stop - bucket.updated) * rate :=
    add_nonneg htokens (mul_nonneg (sub_nonneg.mpr hstop) hrate)
  induction times generalizing bucket with
  | nil => simpa [granted] using hnonneg
  | cons now times ih =>
    rcases lt_or_ge stop now with hover | hin
    · rw [countP_granted_of_lt hsorted hover, Nat.cast_zero]
      exact hnonneg
    · -- What the call leaves bounds the rest, and it leaves what it finds less what it grants.
      have hnext : 0 ≤ (take capacity rate now (some bucket)).2.tokens :=
        take_nonneg hcapacity hrate now (by simpa using htokens)
      have hspan : 0 ≤ (stop - now) * rate := mul_nonneg (sub_nonneg.mpr hin) hrate
      have hrest := ih hsorted.of_cons hnext
        (by simpa using fun t ht => List.rel_of_pairwise_cons hsorted ht) (by simpa using hin)
        (by simpa using add_nonneg hnext hspan)
      have htake := take_tokens capacity rate now (some bucket)
      have hlevel := level_some_le capacity rate (hlater now List.mem_cons_self)
      rw [take_updated] at hrest
      rw [countP_granted_cons hin, Nat.cast_add]
      linarith

/-- In any stretch of time a bucket grants no more than its capacity and what it is refilled with
meanwhile. -/
theorem granted_le (hcapacity : 0 ≤ capacity) (hrate : 0 ≤ rate) {start stop : K}
    (hspan : start ≤ stop) {times : List K} (hsorted : times.Pairwise (· ≤ ·))
    {bucket : Option (Bucket K)} (htokens : ∀ b ∈ bucket, 0 ≤ b.tokens) :
    (((granted capacity rate times bucket).countP fun t =>
        decide (start ≤ t) && decide (t ≤ stop) : ℕ) : K) ≤
      capacity + (stop - start) * rate := by
  have hnonneg : 0 ≤ capacity + (stop - start) * rate :=
    add_nonneg hcapacity (mul_nonneg (sub_nonneg.mpr hspan) hrate)
  induction times generalizing bucket with
  | nil => simpa [granted] using hnonneg
  | cons now times ih =>
    have hnext := take_nonneg hcapacity hrate now htokens
    rcases lt_or_ge now start with hbefore | hin
    · have hready : ∀ b ∈ some (take capacity rate now bucket).2, 0 ≤ b.tokens := by
        simpa using hnext
      refine le_of_eq_of_le ?_ (ih hsorted.of_cons hready)
      rw [granted]
      split_ifs
      · simp [not_le.mpr hbefore]
      · rfl
    · -- From the first call on, every call is in the stretch until it is over.
      have hcount : ((granted capacity rate (now :: times) bucket).countP fun t =>
            decide (start ≤ t) && decide (t ≤ stop)) =
          (granted capacity rate (now :: times) bucket).countP fun t => decide (t ≤ stop) := by
        refine List.countP_congr fun t ht => ?_
        have hnow : now ≤ t := by
          rcases List.mem_cons.mp (granted_subset _ _ ht) with rfl | hmem
          · exact le_refl t
          · exact List.rel_of_pairwise_cons hsorted hmem
        simp [hin.trans hnow]
      rw [hcount]
      rcases lt_or_ge stop now with hover | hwithin
      · rw [countP_granted_of_lt hsorted hover, Nat.cast_zero]
        exact hnonneg
      · have hrest := countP_granted_le hcapacity hrate hsorted.of_cons hnext
          (by simpa using fun t ht => List.rel_of_pairwise_cons hsorted ht)
          (by simpa using hwithin)
        have htake := take_tokens capacity rate now bucket
        have hlevel := level_le capacity rate now bucket
        have hshorter : (stop - now) * rate ≤ (stop - start) * rate :=
          mul_le_mul_of_nonneg_right (sub_le_sub_left hin stop) hrate
        rw [take_updated] at hrest
        rw [countP_granted_cons hwithin, Nat.cast_add]
        linarith

end FetchTask.TokenBucket
