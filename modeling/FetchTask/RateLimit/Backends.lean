import FetchTask.Lib.SlidingWindow
import FetchTask.RateLimit

/-!
What one request does to each backend of the limiter, in terms of the recent
entries that the backend finds.
-/

namespace FetchTask.RateLimit

open Expiring SlidingWindow

/-! ### Whole numbers -/

theorem truncate_of_nonneg {q : Rat} (h : 0 ≤ q) : truncate q = ⌊q⌋ := by
  rw [truncate, Rat.floor_def', Int.tdiv_eq_ediv_of_nonneg (Rat.num_nonneg.mpr h)]

theorem milliseconds_of_nonneg {now : Rat} (h : 0 ≤ now) :
    milliseconds now = ⌊Binary64.round (now * 1000)⌋ :=
  truncate_of_nonneg (Binary64.round_nonneg (mul_nonneg h (by norm_num)))

theorem milliseconds_mono {now later : Rat} (h : 0 ≤ now) (hnow : now ≤ later) :
    milliseconds now ≤ milliseconds later := by
  rw [milliseconds_of_nonneg h, milliseconds_of_nonneg (h.trans hnow)]
  exact Int.floor_mono (Binary64.round_mono (mul_le_mul_of_nonneg_right hnow (by norm_num)))

theorem milliseconds_nonneg {now : Rat} (h : 0 ≤ now) : 0 ≤ milliseconds now := by
  rw [milliseconds_of_nonneg h]
  exact Int.floor_nonneg.mpr (Binary64.round_nonneg (mul_nonneg h (by norm_num)))

/-- Whole seconds are at least that many milliseconds, however the times are rounded. -/
theorem milliseconds_add {now : Rat} (h : 0 ≤ now) {seconds : Nat}
    (hbound : (now + seconds) * 1000 ≤ 2 ^ 53) :
    milliseconds now + seconds * 1000 ≤ milliseconds (now + seconds) := by
  have hlater : (0 : Rat) ≤ now + seconds := add_nonneg h (Nat.cast_nonneg seconds)
  obtain ⟨n, hn⟩ := Int.eq_ofNat_of_zero_le (milliseconds_nonneg h)
  have hfloor : (n : Rat) ≤ Binary64.round (now * 1000) := by
    have hle := Int.floor_le (Binary64.round (now * 1000))
    rw [← milliseconds_of_nonneg h, hn] at hle
    exact_mod_cast hle
  have hsplit : (now + seconds) * 1000 = now * 1000 + ((seconds * 1000 : Nat) : Rat) := by
    push_cast
    ring
  rw [hn, milliseconds_of_nonneg hlater, Int.le_floor, hsplit]
  rw [hsplit] at hbound
  exact_mod_cast Binary64.add_le_round_add (mul_nonneg h (by norm_num)) hfloor (by omega) hbound

theorem milliseconds_natCast {n : Nat} (hbound : (n : Rat) * 1000 ≤ 2 ^ 53) :
    milliseconds n = n * 1000 := by
  have hcast : (n : Rat) * 1000 = ((n * 1000 : Nat) : Rat) := by push_cast; ring
  rw [hcast] at hbound
  rw [milliseconds_of_nonneg (Nat.cast_nonneg n), hcast,
    Binary64.round_natCast (by exact_mod_cast hbound), Int.floor_natCast]
  push_cast
  rfl

theorem milliseconds_whole {now : Rat} (h : 0 ≤ now) (hbound : now * 1000 ≤ 2 ^ 53) {n : Int}
    (hn : now = n) : milliseconds now = n * 1000 := by
  subst hn
  obtain ⟨m, rfl⟩ := Int.eq_ofNat_of_zero_le (show 0 ≤ n by exact_mod_cast h)
  exact milliseconds_natCast hbound

/-- The seconds that the script tells are enough. -/
theorem le_ceil_div {m : Int} (h : m ≤ 2 ^ 52) :
    m ≤ max 1 (Rounding.binary64.div (m : Rat) 1000).ceil * 1000 := by
  by_contra hlt
  obtain ⟨n, hn⟩ : ∃ n : Nat, max 1 (Rounding.binary64.div (m : Rat) 1000).ceil = n :=
    Int.eq_ofNat_of_zero_le (le_trans zero_le_one (le_max_left ..))
  rw [hn, not_le] at hlt
  have habove : (n : Rat) + 1 / 1024 ≤ (m : Rat) / 1000 := by
    have hcast : (n : Rat) * 1000 + 1 ≤ m := by exact_mod_cast hlt
    rw [le_div_iff₀ (by norm_num)]
    linarith
  have hround : (n : Rat) < (Rounding.binary64.div (m : Rat) 1000).ceil :=
    (Binary64.lt_round (by omega) habove).trans_le Rat.le_ceil
  have hmax := le_max_right 1 (Rounding.binary64.div (m : Rat) 1000).ceil
  rw [hn] at hmax
  have hless : (n : Int) < (Rounding.binary64.div (m : Rat) 1000).ceil := by exact_mod_cast hround
  omega

/-! ### The sorted set -/

section SortedSet

variable {lasting : Bool} {now later window : Int} {key : SortedSet}

theorem scores_of_there {value : List Int} {deadline : Option Int}
    (h : there lasting now deadline = true) : scores lasting now (some ⟨value, deadline⟩) = value := by
  simp [scores, live, h]

theorem scores_of_gone {value : List Int} {deadline : Option Int}
    (h : there lasting now deadline = false) : scores lasting now (some ⟨value, deadline⟩) = [] := by
  simp [scores, live, h]

@[simp] theorem scores_none : scores lasting now none = [] := rfl

theorem filter_eq_recent (members : List Int) :
    members.filter (fun score => decide (now - window < score)) = recent window now members := by
  refine List.filter_congr fun score _ => ?_
  simp only [decide_eq_decide]
  omega

/-- Removing what is a window old leaves what is recent later. -/
theorem recent_scores_removeUpTo (h : now ≤ later) :
    recent window later (scores lasting later (removeUpTo lasting now (now - window) key)) =
      recent window later (scores lasting later key) := by
  rcases key with _ | ⟨members, deadline⟩
  · rfl
  cases hnow : there lasting now deadline with
  | false =>
    have hlater : there lasting later deadline = false := by
      rw [Bool.eq_false_iff] at hnow ⊢
      exact fun hthere => hnow (there_anti h hthere)
    simp [removeUpTo, live, hnow, scores_of_gone hlater]
  | true =>
    simp only [removeUpTo, live, hnow, if_true, filter_eq_recent]
    cases hlater : there lasting later deadline with
    | false =>
      rw [scores_of_gone hlater]
      split_ifs
      · rfl
      · rw [scores_of_gone hlater]
    | true =>
      rw [scores_of_there hlater, ← recent_recent h members]
      split_ifs with hkept
      · rw [hkept, scores_none]
      · rw [scores_of_there hlater]

/-- What is left of a sorted set is what was recent. -/
theorem scores_removeUpTo :
    scores lasting now (removeUpTo lasting now (now - window) key) =
      recent window now (scores lasting now key) := by
  rcases key with _ | ⟨members, deadline⟩
  · rfl
  cases hnow : there lasting now deadline with
  | false => simp [removeUpTo, live, hnow, scores_of_gone hnow]
  | true =>
    simp only [removeUpTo, live, hnow, if_true, filter_eq_recent, scores_of_there hnow]
    split_ifs with hkept
    · rw [hkept, scores_none]
    · rw [scores_of_there hnow]

/-- The latest score goes to the end. -/
theorem orderedInsert_of_le {members : List Int} (h : ∀ score ∈ members, score ≤ now) :
    members.orderedInsert (· < ·) now = members ++ [now] := by
  induction members with
  | nil => rfl
  | cons score members ih =>
    rw [List.orderedInsert, if_neg (not_lt.mpr (h score List.mem_cons_self)),
      ih fun s hs => h s (List.mem_cons_of_mem _ hs), List.cons_append]

end SortedSet

/-! ### A request on Redis -/

section Redis

variable {lasting : Bool} {rule : Rule} {now : Rat} {key : SortedSet}

/-- What a request finds recent in Redis. -/
def foundScores (lasting : Bool) (rule : Rule) (now : Rat) (key : SortedSet) : List Int :=
  recent (rule.window * 1000) (milliseconds now) (scores lasting (milliseconds now) key)

theorem redisRateLimit_refused {oldest : Int}
    (hfull : rule.limit ≤ (foundScores lasting rule now key).length)
    (holdest : (foundScores lasting rule now key).head? = some oldest) :
    redisRateLimit lasting rule now key =
      (⟨false, max 1 (Rounding.binary64.div
          ((oldest + rule.window * 1000 - milliseconds now : Int) : Rat) 1000).ceil⟩,
        removeUpTo lasting (milliseconds now) (milliseconds now - rule.window * 1000) key) := by
  rw [foundScores, ← scores_removeUpTo] at hfull holdest
  simp only [redisRateLimit, rateLimitScript, if_pos hfull, holdest]
  rw [max_eq_right (le_trans zero_le_one (le_max_left ..))]
  rfl

theorem redisRateLimit_admitted
    (hroom : (foundScores lasting rule now key).length < rule.limit)
    (hpast : ∀ score ∈ foundScores lasting rule now key, score ≤ milliseconds now) :
    redisRateLimit lasting rule now key =
      (⟨true, 0⟩, some ⟨foundScores lasting rule now key ++ [milliseconds now],
        some (milliseconds now + rule.window * 1000)⟩) := by
  rw [← orderedInsert_of_le hpast]
  rw [foundScores, ← scores_removeUpTo] at hroom ⊢
  simp only [redisRateLimit, rateLimitScript, if_neg (not_le.mpr hroom)]
  rfl

end Redis

/-! ### A request on the table -/

section Table

variable {rule : Rule} {key : String} {now : Rat} {buckets : RateBuckets}

/-- What a request finds recent in the table. -/
def foundStamps (key : String) (rule : Rule) (now : Rat) (buckets : RateBuckets) : List Rat :=
  recent (rule.window : Rat) now ((buckets.get? key).getD [])

/-- The difference of a stamp and the time is not rounded up to a window. -/
def SeesStamps (key : String) (rule : Rule) (now : Rat) (buckets : RateBuckets) : Prop :=
  ∀ stamp ∈ (buckets.get? key).getD [], now - stamp < rule.window →
    Rounding.binary64.sub now stamp < rule.window

/-- A difference of at least a window is not rounded below it. -/
theorem le_sub_of_le {stamp : Rat} (hwindow : rule.window ≤ 2 ^ 53)
    (h : (rule.window : Rat) ≤ now - stamp) :
    (rule.window : Rat) ≤ Rounding.binary64.sub now stamp := by
  have hround := Binary64.round_mono h
  rwa [Binary64.round_natCast hwindow] at hround

theorem filter_eq_foundStamps (hwindow : rule.window ≤ 2 ^ 53)
    (hsees : SeesStamps key rule now buckets) :
    (((buckets.get? key).getD []).filter fun stamp =>
      decide (Rounding.binary64.sub now stamp < rule.window)) = foundStamps key rule now buckets := by
  refine List.filter_congr fun stamp hstamp => ?_
  rw [decide_eq_decide]
  refine ⟨fun hsub => ?_, hsees stamp hstamp⟩
  exact lt_of_not_ge fun hle => absurd hsub (not_lt.mpr (le_sub_of_le hwindow hle))

/-- A whole number of seconds that is left of a window is told as it is. -/
theorem sub_sub_of_whole {stamp : Rat} (hwindow : rule.window ≤ 2 ^ 53) (hpast : 0 ≤ now - stamp)
    (hrecent : now - stamp ≤ rule.window) {n : Int} (hn : rule.window - (now - stamp) = n) :
    truncate (Rounding.binary64.sub rule.window (Rounding.binary64.sub now stamp)) = n := by
  obtain ⟨m, hm⟩ : ∃ m : Nat, n = m := Int.eq_ofNat_of_zero_le (by
    have hcast : (0 : Rat) ≤ n := by linarith
    exact_mod_cast hcast)
  have hle : m ≤ rule.window := by
    have hcast : (n : Rat) ≤ rule.window := by linarith
    rw [hm] at hcast
    exact_mod_cast hcast
  have hage : Rounding.binary64.sub now stamp = ((rule.window - m : Nat) : Rat) := by
    have hexact : now - stamp = ((rule.window - m : Nat) : Rat) := by
      rw [hm, Int.cast_natCast] at hn
      rw [Nat.cast_sub hle]
      linarith
    rw [Rounding.sub, hexact]
    exact Binary64.round_natCast (by omega)
  have hleft : (rule.window : Rat) - ((rule.window - m : Nat) : Rat) = m := by
    rw [Nat.cast_sub hle]
    ring
  have hround : Rounding.binary64.sub rule.window ((rule.window - m : Nat) : Rat) = m := by
    rw [Rounding.sub, hleft]
    exact Binary64.round_natCast (by omega)
  rw [hage, hround, hm, truncate, Rat.num_natCast, Rat.den_natCast, Nat.cast_one, Int.tdiv_one]

theorem memoryRateLimit_refused {oldest : Rat} (hwindow : rule.window ≤ 2 ^ 53)
    (hsees : SeesStamps key rule now buckets)
    (hfull : rule.limit ≤ (foundStamps key rule now buckets).length)
    (holdest : (foundStamps key rule now buckets).head? = some oldest) :
    memoryRateLimit key rule now buckets =
      (⟨false, max 1 (truncate (Rounding.binary64.sub rule.window
        (Rounding.binary64.sub now oldest)))⟩, buckets) := by
  rw [memoryRateLimit, filter_eq_foundStamps hwindow hsees]
  simp only [if_pos hfull, List.headD_eq_head?_getD, holdest, Option.getD_some]

theorem memoryRateLimit_admitted (hwindow : rule.window ≤ 2 ^ 53)
    (hsees : SeesStamps key rule now buckets)
    (hroom : (foundStamps key rule now buckets).length < rule.limit) :
    memoryRateLimit key rule now buckets =
      (⟨true, 0⟩,
        evict now rule.window (buckets.set key (foundStamps key rule now buckets ++ [now]))) := by
  rw [memoryRateLimit, filter_eq_foundStamps hwindow hsees]
  simp only [if_neg (not_le.mpr hroom)]

end Table

/-! ### What the table gives up -/

section Evict

variable {now : Rat} {window : Nat} {buckets : RateBuckets} {key : String}

/-- What a full table gives up for a new key: what is stale, or else its first entry. -/
def Dropped (now : Rat) (window : Nat) (buckets : RateBuckets) (item : String × List Rat) : Prop :=
  stale now window item.2 = true ∨
    (∀ other ∈ buckets.items, stale now window other.2 = false) ∧
      buckets.items.head? = some item

theorem not_stale_snoc (h : 0 < window) (stamps : List Rat) :
    stale now window (stamps ++ [now]) = false := by
  have hpos : ¬ window = 0 := Nat.pos_iff_ne_zero.mp h
  simp [stale, Rounding.sub, Rounding.binary64, Binary64.round_zero, hpos]

theorem evict_of_le {table : RateBuckets} (h : table.size ≤ rateBucketLimit) :
    evict now window table = table := if_neg (not_lt.mpr h)

/-- A full table with one more key. -/
theorem items_evict_full (hwindow : 0 < window) (hnew : buckets.contains key = false)
    (hfull : buckets.size = rateBucketLimit) (stamps : List Rat) :
    (evict now window (buckets.set key (stamps ++ [now]))).items =
        (buckets.items.filter fun item => !stale now window item.2) ++ [(key, stamps ++ [now])] ∧
        (∃ item ∈ buckets.items, stale now window item.2 = true) ∨
      (evict now window (buckets.set key (stamps ++ [now]))).items =
        buckets.items.tail ++ [(key, stamps ++ [now])] ∧
        ∀ item ∈ buckets.items, stale now window item.2 = false := by
  have hsize := Dict.size_set_of_absent hnew (stamps ++ [now])
  have hitems := Dict.items_set_of_absent hnew (stamps ++ [now])
  have hkept : ((buckets.set key (stamps ++ [now])).filter fun item =>
        !stale now window item.2).items =
      (buckets.items.filter fun item => !stale now window item.2) ++ [(key, stamps ++ [now])] := by
    rw [Dict.items_filter, hitems, List.filter_append]
    simp [not_stale_snoc hwindow]
  rw [evict, if_pos (by omega)]
  dsimp only
  by_cases hstale : ∃ item ∈ buckets.items, stale now window item.2 = true
  · -- Something was stale, so what is left fits.
    refine .inl ⟨?_, hstale⟩
    have hfewer : (buckets.items.filter fun item => !stale now window item.2).length <
        buckets.items.length := by
      obtain ⟨item, hmem, hitem⟩ := hstale
      refine List.length_filter_lt_length_iff_exists.mpr ⟨item, hmem, ?_⟩
      simp [hitem]
    have hfits : ((buckets.set key (stamps ++ [now])).filter fun item =>
        !stale now window item.2).size - rateBucketLimit = 0 := by
      rw [Dict.size, hkept, List.length_append, List.length_singleton]
      rw [Dict.size] at hfull
      omega
    rw [hfits, Dict.items_drop, hkept, List.drop_zero]
  · have hall : ∀ item ∈ buckets.items, stale now window item.2 = false := by
      intro item hmem
      rw [Bool.eq_false_iff]
      exact fun hitem => hstale ⟨item, hmem, hitem⟩
    refine .inr ⟨?_, hall⟩
    have hsame : (buckets.items.filter fun item => !stale now window item.2) = buckets.items :=
      List.filter_eq_self.mpr fun item hmem => by simp [hall item hmem]
    rw [hsame] at hkept
    have hone : ((buckets.set key (stamps ++ [now])).filter fun item =>
        !stale now window item.2).size - rateBucketLimit = 1 := by
      rw [Dict.size, hkept, List.length_append, List.length_singleton]
      rw [Dict.size] at hfull
      omega
    have hnonempty : buckets.items ≠ [] := by
      intro hnil
      rw [Dict.size, hnil] at hfull
      exact absurd hfull (by decide)
    rw [hone, Dict.items_drop, hkept, List.drop_one, List.tail_append_of_ne_nil hnonempty]

/-- The key of the request keeps what it is given. -/
theorem get?_evict_self (hwindow : 0 < window) (hsize : buckets.size ≤ rateBucketLimit)
    (stamps : List Rat) :
    (evict now window (buckets.set key (stamps ++ [now]))).get? key = some (stamps ++ [now]) := by
  cases hnew : buckets.contains key with
  | true =>
    rw [evict_of_le (by rwa [Dict.size_set_of_contains hnew]), Dict.get?_set_self]
  | false =>
    rcases lt_or_eq_of_le hsize with hroom | hfull
    · rw [evict_of_le (by rw [Dict.size_set_of_absent hnew]; omega), Dict.get?_set_self]
    · rw [Dict.get?_eq_some_iff]
      rcases items_evict_full hwindow hnew hfull stamps with ⟨hitems, -⟩ | ⟨hitems, -⟩
      · rw [hitems]
        exact List.mem_append_right _ (List.mem_singleton_self _)
      · rw [hitems]
        exact List.mem_append_right _ (List.mem_singleton_self _)

/-- Another key keeps what it has, unless a full table drops it for the new one. -/
theorem get?_evict_of_ne (now : Rat) (hwindow : 0 < window)
    (hsize : buckets.size ≤ rateBucketLimit) {other : String} (hne : key ≠ other)
    (stamps : List Rat) :
    (evict now window (buckets.set key (stamps ++ [now]))).get? other = buckets.get? other ∨
      (evict now window (buckets.set key (stamps ++ [now]))).get? other = none ∧
        buckets.contains key = false ∧ buckets.size = rateBucketLimit ∧
          ∃ stamps', buckets.get? other = some stamps' ∧
            Dropped now window buckets (other, stamps') := by
  cases hnew : buckets.contains key with
  | true =>
    refine .inl ?_
    rw [evict_of_le (by rwa [Dict.size_set_of_contains hnew]), Dict.get?_set_of_ne _ _ hne]
  | false =>
    rcases lt_or_eq_of_le hsize with hroom | hfull
    · refine .inl ?_
      rw [evict_of_le (by rw [Dict.size_set_of_absent hnew]; omega), Dict.get?_set_of_ne _ _ hne]
    · have hother : ∀ stamps', (other, stamps') ≠ (key, stamps ++ [now]) :=
        fun _ heq => hne (congrArg Prod.fst heq).symm
      cases hget : (evict now window (buckets.set key (stamps ++ [now]))).get? other with
      | some found =>
        -- What is still there was there.
        refine .inl (Eq.symm ?_)
        rw [Dict.get?_eq_some_iff] at hget ⊢
        rcases items_evict_full hwindow hnew hfull stamps with ⟨hitems, -⟩ | ⟨hitems, -⟩
        · rw [hitems, List.mem_append] at hget
          refine (List.mem_filter.mp (hget.resolve_right fun hmem => ?_)).1
          exact hother found (List.mem_singleton.mp hmem)
        · rw [hitems, List.mem_append] at hget
          refine List.mem_of_mem_tail (hget.resolve_right fun hmem => ?_)
          exact hother found (List.mem_singleton.mp hmem)
      | none =>
        cases hbefore : buckets.get? other with
        | none => exact .inl rfl
        | some stamps' =>
          refine .inr ⟨rfl, rfl, hfull, stamps', rfl, ?_⟩
          have hmem := (Dict.get?_eq_some_iff buckets).mp hbefore
          have hgone : (other, stamps') ∉
              (evict now window (buckets.set key (stamps ++ [now]))).items := by
            intro hin
            rw [(Dict.get?_eq_some_iff _).mpr hin] at hget
            cases hget
          rcases items_evict_full hwindow hnew hfull stamps with ⟨hitems, -⟩ | ⟨hitems, hall⟩
          · rw [hitems] at hgone
            refine .inl ?_
            by_contra hstale
            refine hgone (List.mem_append_left _ (List.mem_filter.mpr ⟨hmem, ?_⟩))
            simpa using hstale
          · rw [hitems] at hgone
            refine .inr ⟨hall, ?_⟩
            cases hlist : buckets.items with
            | nil =>
              rw [hlist] at hmem
              cases hmem
            | cons first rest =>
              rw [hlist] at hmem hgone
              rcases List.mem_cons.mp hmem with hfirst | hrest
              · rw [hfirst]
                rfl
              · exact absurd (List.mem_append_left _ hrest) hgone

theorem size_evict_le (table : RateBuckets) :
    (evict now window table).size ≤ rateBucketLimit := by
  rw [evict]
  split_ifs with hmany
  · rw [Dict.size, Dict.items_drop, List.length_drop, ← Dict.size]
    omega
  · exact not_lt.mp hmany

end Evict

end FetchTask.RateLimit
