import FetchTask.Lib.Dict
import Mathlib.Algebra.Order.BigOperators.Group.List
import Mathlib.Algebra.Order.Group.Int
import Mathlib.Algebra.Ring.Int.Defs
import Mathlib.Data.List.Sort
import Mathlib.Data.String.Basic

/-!
The share of the capacity that each owner of batch jobs gets (`app/resilience.py`).

`fair_owner_capacity_limits` starts every owner at one and hands the rest of the
capacity out in rounds, one to each owner that asks for more, until there is nothing
left or nobody asks. Before a round every owner is at the level of the round or at
its request, whichever is less; a round that runs out of capacity leaves some owners
at the next level.
-/

namespace FetchTask.Resilience

section FairShares

variable (requested : String → Int)

/-- One round: `limits`, `remaining` and `progressed` after the owners. -/
def shareRound : List String → (String → Int) → Nat → Bool → (String → Int) × Nat × Bool
  | [], limits, remaining, progressed => (limits, remaining, progressed)
  | owner :: owners, limits, remaining, progressed =>
    if requested owner ≤ limits owner then shareRound owners limits remaining progressed
    else
      let limits := Function.update limits owner (limits owner + 1)
      let remaining := remaining - 1
      if remaining = 0 then (limits, remaining, true)
      else shareRound owners limits remaining true

theorem shareRound_remaining_le (owners : List String) (limits : String → Int) (remaining : Nat)
    (progressed : Bool) :
    (shareRound requested owners limits remaining progressed).2.1 ≤ remaining := by
  fun_induction shareRound requested owners limits remaining progressed with
  | case1 limits remaining progressed => exact le_rfl
  | case2 owner owners limits remaining progressed hfull ih => exact ih
  | case3 owner owners limits remaining progressed hasks limits' remaining' hlast =>
    exact Nat.sub_le ..
  | case4 owner owners limits remaining progressed hasks limits' remaining' hmore ih =>
    exact ih.trans (Nat.sub_le ..)

/-- A round that makes progress hands something out. -/
theorem shareRound_remaining_lt {owners : List String} {limits : String → Int} {remaining : Nat}
    (hpos : remaining ≠ 0)
    (hprogress : (shareRound requested owners limits remaining false).2.2 = true) :
    (shareRound requested owners limits remaining false).2.1 < remaining := by
  induction owners with
  | nil => cases hprogress
  | cons owner owners ih =>
    have hless : remaining - 1 < remaining := by omega
    simp only [shareRound] at hprogress ⊢
    split at hprogress <;> rename_i hfull
    · rw [if_pos hfull]
      exact ih hprogress
    · rw [if_neg hfull]
      split
      · exact hless
      · exact (shareRound_remaining_le ..).trans_lt hless

/-- `while remaining > 0`. -/
def shareRounds (owners : List String) (limits : String → Int) (remaining : Nat) : String → Int :=
  if _hpos : remaining = 0 then limits
  else
    let round := shareRound requested owners limits remaining false
    if _hprogress : round.2.2 = true then shareRounds owners round.1 round.2.1 else round.1
termination_by remaining
decreasing_by exact shareRound_remaining_lt requested _hpos _hprogress

end FairShares

/-- The owners that ask, in order. -/
def askingOwners (requestedLimits : Dict String Int) : List String :=
  ((requestedLimits.items.map Prod.fst).filter (· ≠ "")).insertionSort (· ≤ ·)

theorem askingOwners_perm (requestedLimits : Dict String Int) :
    (askingOwners requestedLimits).Perm ((requestedLimits.items.map Prod.fst).filter (· ≠ "")) :=
  List.perm_insertionSort ..

theorem nodup_askingOwners (requestedLimits : Dict String Int) :
    (askingOwners requestedLimits).Nodup :=
  (askingOwners_perm requestedLimits).nodup_iff.mpr (requestedLimits.nodup.filter _)

/-- `max(1, int(limit))`. -/
def askedLimit (requestedLimits : Dict String Int) (owner : String) : Int :=
  max 1 ((requestedLimits.get? owner).getD 1)

/-- `fair_owner_capacity_limits`. -/
def fairOwnerCapacityLimits (requestedLimits : Dict String Int) (capacity : Int) :
    Dict String Int :=
  let owners := askingOwners requestedLimits
  let remaining := (capacity - owners.length).toNat
  let limits := shareRounds (askedLimit requestedLimits) owners (fun _ => 1) remaining
  ⟨owners.map fun owner => (owner, limits owner), by
    rw [List.map_map]
    exact (nodup_askingOwners requestedLimits).map_on fun _ _ _ _ heq => heq⟩

/-! ### Levels -/

section Levels

variable {requested : String → Int} {limits : String → Int} {owners : List String} {level : Int}
variable {remaining : Nat} {progressed : Bool}

/-- Every owner is at the level or at its request. -/
def AtLevel (requested limits : String → Int) (owners : List String) (level : Int) : Prop :=
  ∀ owner ∈ owners, limits owner = min (requested owner) level

/-- Every owner is at the level or at the next one, or at its request. -/
def NearLevel (requested limits : String → Int) (owners : List String) (level : Int) : Prop :=
  ∀ owner ∈ owners, limits owner = min (requested owner) level ∨
    limits owner = min (requested owner) (level + 1)

/-- What is handed out to the owners. -/
def handedOut (limits : String → Int) (owners : List String) : Int := (owners.map limits).sum

theorem handedOut_update (limits : String → Int) (n : Int) {owner : String}
    (hnotin : owner ∉ owners) :
    handedOut (Function.update limits owner n) owners = handedOut limits owners := by
  rw [handedOut, handedOut, List.map_congr_left fun other hin =>
    Function.update_of_ne (ne_of_mem_of_not_mem hin hnotin) n limits]

theorem AtLevel.near (h : AtLevel requested limits owners level) :
    NearLevel requested limits owners level := fun owner hin => Or.inl (h owner hin)

/-- What a round leaves alone. -/
theorem shareRound_of_notMem {owner : String} (hin : owner ∉ owners) :
    (shareRound requested owners limits remaining progressed).1 owner = limits owner := by
  fun_induction shareRound requested owners limits remaining progressed with
  | case1 limits remaining progressed => rfl
  | case2 other owners limits remaining progressed hfull ih =>
    exact ih (List.not_mem_of_not_mem_cons hin)
  | case3 other owners limits remaining progressed hasks limits' remaining' hlast =>
    exact Function.update_of_ne (List.ne_of_not_mem_cons hin) ..
  | case4 other owners limits remaining progressed hasks limits' remaining' hmore ih =>
    rw [ih (List.not_mem_of_not_mem_cons hin)]
    exact Function.update_of_ne (List.ne_of_not_mem_cons hin) ..

theorem handedOut_cons (limits : String → Int) (owner : String) (owners : List String) :
    handedOut limits (owner :: owners) = limits owner + handedOut limits owners := List.sum_cons

/-- What a round hands out is taken from the remaining capacity. -/
theorem shareRound_total (hnodup : owners.Nodup) (hpos : remaining ≠ 0) :
    handedOut (shareRound requested owners limits remaining progressed).1 owners +
      (shareRound requested owners limits remaining progressed).2.1 =
      handedOut limits owners + remaining := by
  fun_induction shareRound requested owners limits remaining progressed with
  | case1 limits remaining progressed => rfl
  | case2 owner owners limits remaining progressed hfull ih =>
    obtain ⟨hnotin, hrest⟩ := List.nodup_cons.mp hnodup
    have hrun := ih hrest hpos
    rw [handedOut_cons, handedOut_cons, shareRound_of_notMem hnotin]
    omega
  | case3 owner owners limits remaining progressed hasks limits' remaining' hlast =>
    obtain ⟨hnotin, hrest⟩ := List.nodup_cons.mp hnodup
    have hframe := handedOut_update limits (limits owner + 1) hnotin
    rw [handedOut_cons, handedOut_cons]
    simp only [limits', Function.update_self, hframe, remaining']
    omega
  | case4 owner owners limits remaining progressed hasks limits' remaining' hmore ih =>
    obtain ⟨hnotin, hrest⟩ := List.nodup_cons.mp hnodup
    have hrun := ih hrest hmore
    have hframe := handedOut_update limits (limits owner + 1) hnotin
    rw [handedOut_cons, handedOut_cons, shareRound_of_notMem hnotin]
    simp only [limits', Function.update_self, remaining'] at hrun ⊢
    omega

/-- A round without progress finds every owner at its request. -/
theorem full_of_not_progressed
    (hstuck : (shareRound requested owners limits remaining progressed).2.2 = false) :
    progressed = false ∧ (shareRound requested owners limits remaining progressed).1 = limits ∧
      ∀ owner ∈ owners, requested owner ≤ limits owner := by
  fun_induction shareRound requested owners limits remaining progressed with
  | case1 limits remaining progressed => exact ⟨hstuck, rfl, by simp⟩
  | case2 owner owners limits remaining progressed hfull ih =>
    obtain ⟨hnot, hlimits, hrest⟩ := ih hstuck
    exact ⟨hnot, hlimits, List.forall_mem_cons.mpr ⟨hfull, hrest⟩⟩
  | case3 owner owners limits remaining progressed hasks limits' remaining' hlast => cases hstuck
  | case4 owner owners limits remaining progressed hasks limits' remaining' hmore ih =>
    cases (ih hstuck).1

theorem AtLevel.tail {owner : String} (h : AtLevel requested limits (owner :: owners) level) :
    AtLevel requested limits owners level :=
  fun other hin => h other (List.mem_cons_of_mem _ hin)

theorem AtLevel.update {owner : String} {n : Int} (h : AtLevel requested limits owners level)
    (hnotin : owner ∉ owners) : AtLevel requested (Function.update limits owner n) owners level := by
  intro other hin
  rw [Function.update_of_ne (ne_of_mem_of_not_mem hin hnotin)]
  exact h other hin

/-- A round leads from one level towards the next, and to it unless the capacity runs out. -/
theorem shareRound_level (hnodup : owners.Nodup) (hlevel : AtLevel requested limits owners level) :
    NearLevel requested (shareRound requested owners limits remaining progressed).1 owners level ∧
      ((shareRound requested owners limits remaining progressed).2.1 ≠ 0 →
        AtLevel requested (shareRound requested owners limits remaining progressed).1 owners
          (level + 1)) := by
  fun_induction shareRound requested owners limits remaining progressed with
  | case1 limits remaining progressed => exact ⟨by simp [NearLevel], fun _ => by simp [AtLevel]⟩
  | case2 owner owners limits remaining progressed hfull ih =>
    obtain ⟨hnotin, hrest⟩ := List.nodup_cons.mp hnodup
    obtain ⟨hnear, hat⟩ := ih hrest hlevel.tail
    have hown := hlevel owner List.mem_cons_self
    -- The owner is at its request, which every higher level leaves it at.
    have hkeep : (shareRound requested owners limits remaining progressed).1 owner =
        min (requested owner) (level + 1) := by
      rw [shareRound_of_notMem hnotin]
      omega
    exact ⟨List.forall_mem_cons.mpr ⟨Or.inr hkeep, hnear⟩,
      fun hmore => List.forall_mem_cons.mpr ⟨hkeep, hat hmore⟩⟩
  | case3 owner owners limits remaining progressed hasks limits' remaining' hlast =>
    obtain ⟨hnotin, hrest⟩ := List.nodup_cons.mp hnodup
    have hown := hlevel owner List.mem_cons_self
    have hself : limits' owner = limits owner + 1 := Function.update_self ..
    have hraised : limits' owner = min (requested owner) (level + 1) := by omega
    exact ⟨List.forall_mem_cons.mpr ⟨Or.inr hraised, (hlevel.tail.update hnotin).near⟩,
      fun hmore => absurd hlast hmore⟩
  | case4 owner owners limits remaining progressed hasks limits' remaining' hmore ih =>
    obtain ⟨hnotin, hrest⟩ := List.nodup_cons.mp hnodup
    have hown := hlevel owner List.mem_cons_self
    obtain ⟨hnear, hat⟩ := ih hrest (hlevel.tail.update hnotin)
    have hself : limits' owner = limits owner + 1 := Function.update_self ..
    have hraised : (shareRound requested owners limits' remaining' true).1 owner =
        min (requested owner) (level + 1) := by
      rw [shareRound_of_notMem hnotin]
      omega
    exact ⟨List.forall_mem_cons.mpr ⟨Or.inr hraised, hnear⟩,
      fun hleft => List.forall_mem_cons.mpr ⟨hraised, hat hleft⟩⟩

/-- The rounds end near a level, with the capacity handed out or every owner at its request. -/
theorem shareRounds_spec (remaining : Nat) (hnodup : owners.Nodup)
    (hlevel : AtLevel requested limits owners level) :
    (∃ last, level ≤ last ∧ NearLevel requested (shareRounds requested owners limits remaining)
      owners last) ∧
      (handedOut (shareRounds requested owners limits remaining) owners =
          handedOut limits owners + remaining ∨
        handedOut (shareRounds requested owners limits remaining) owners =
            handedOut requested owners ∧
          handedOut requested owners ≤ handedOut limits owners + remaining) := by
  fun_induction shareRounds requested owners limits remaining generalizing level with
  | case1 limits => exact ⟨⟨level, le_rfl, hlevel.near⟩, Or.inl (by simp)⟩
  | case2 limits remaining hpos round hprogress =>
    rename_i ih
    have htotal : handedOut round.1 owners + round.2.1 = handedOut limits owners + remaining :=
      shareRound_total hnodup hpos
    obtain ⟨hnear, hat⟩ : NearLevel requested round.1 owners level ∧
        (round.2.1 ≠ 0 → AtLevel requested round.1 owners (level + 1)) :=
      shareRound_level hnodup hlevel
    rw [← htotal]
    by_cases hleft : round.2.1 = 0
    · -- The capacity ran out within the round.
      rw [hleft, shareRounds, dif_pos rfl]
      exact ⟨⟨level, le_rfl, hnear⟩, Or.inl (by simp)⟩
    · obtain ⟨⟨last, hle, hlast⟩, hsum⟩ := ih (hat hleft)
      exact ⟨⟨last, by omega, hlast⟩, hsum⟩
  | case3 limits remaining hpos round =>
    rename_i hstuck
    obtain ⟨-, hsame, hfull⟩ := full_of_not_progressed (Bool.not_eq_true _ ▸ hstuck)
    have hround : round.1 = limits := hsame
    have hmet : handedOut limits owners = handedOut requested owners := by
      refine congrArg List.sum (List.map_congr_left fun owner hin => ?_)
      have hasked := hfull owner hin
      have hown := hlevel owner hin
      omega
    rw [hround]
    exact ⟨⟨level, le_rfl, hlevel.near⟩, Or.inr ⟨hmet, by omega⟩⟩

theorem NearLevel.le (h : NearLevel requested limits owners level) :
    handedOut limits owners ≤ handedOut requested owners := by
  refine List.sum_le_sum fun owner hin => ?_
  rcases h owner hin with hown | hown <;> omega

end Levels

/-! ### The shares -/

/-- The limits are a max-min fair share of the capacity, at least one for every owner. -/
structure MaxMinFair (requests : Dict String Int) (capacity : Int) (limits : Dict String Int) :
    Prop where
  /-- The empty text is no owner. -/
  owners : ∀ owner, limits.contains owner = true ↔ requests.contains owner = true ∧ owner ≠ ""
  within : ∀ owner request limit, requests.get? owner = some request →
    limits.get? owner = some limit → 1 ≤ limit ∧ limit ≤ max 1 request
  sum : limits.total id =
    min ((requests.filter fun p => p.1 ≠ "").total (max 1))
      (max capacity (requests.filter fun p => p.1 ≠ "").size)
  fair : ∀ owner request limit other otherLimit, requests.get? owner = some request →
    limits.get? owner = some limit → limit < request → limits.get? other = some otherLimit →
    otherLimit - 1 ≤ limit

section Shares

variable (requests : Dict String Int) (capacity : Int)

/-- What `fair_owner_capacity_limits` gives an owner. -/
def sharedLimit : String → Int :=
  shareRounds (askedLimit requests) (askingOwners requests) (fun _ => 1)
    (capacity - (askingOwners requests).length).toNat

theorem items_fairOwnerCapacityLimits :
    (fairOwnerCapacityLimits requests capacity).items =
      (askingOwners requests).map fun owner => (owner, sharedLimit requests capacity owner) := rfl

theorem get?_fairOwnerCapacityLimits {owner : String} {limit : Int} :
    (fairOwnerCapacityLimits requests capacity).get? owner = some limit ↔
      owner ∈ askingOwners requests ∧ limit = sharedLimit requests capacity owner := by
  rw [Dict.get?_eq_some_iff, items_fairOwnerCapacityLimits, List.mem_map]
  constructor
  · rintro ⟨other, hin, heq⟩
    cases heq
    exact ⟨hin, rfl⟩
  · rintro ⟨hin, rfl⟩
    exact ⟨owner, hin, rfl⟩

theorem mem_askingOwners {owner : String} :
    owner ∈ askingOwners requests ↔ requests.contains owner = true ∧ owner ≠ "" := by
  rw [(askingOwners_perm requests).mem_iff, List.mem_filter, decide_eq_true_eq,
    Dict.contains_iff_mem_keys]

theorem askedLimit_of_get? {owner : String} {request : Int}
    (h : requests.get? owner = some request) : askedLimit requests owner = max 1 request := by
  rw [askedLimit, h, Option.getD_some]

theorem length_askingOwners :
    (askingOwners requests).length = (requests.filter fun p => p.1 ≠ "").size := by
  rw [(askingOwners_perm requests).length_eq, Dict.size, Dict.filter, List.filter_map,
    List.length_map]
  rfl

theorem handedOut_askedLimit :
    handedOut (askedLimit requests) (askingOwners requests) =
      (requests.filter fun p => p.1 ≠ "").total (max 1) := by
  rw [handedOut, ((askingOwners_perm requests).map _).sum_eq, List.filter_map, List.map_map]
  refine congrArg List.sum (List.map_congr_left fun p hp => ?_)
  exact askedLimit_of_get? requests
    ((Dict.get?_eq_some_iff requests).mpr (List.mem_of_mem_filter hp))

theorem total_fairOwnerCapacityLimits :
    (fairOwnerCapacityLimits requests capacity).total id =
      handedOut (sharedLimit requests capacity) (askingOwners requests) := by
  rw [Dict.total, items_fairOwnerCapacityLimits, List.map_map]
  rfl

/-- The rounds start with every owner at the first level. -/
theorem sharedLimit_spec :
    (∃ last, 1 ≤ last ∧
      NearLevel (askedLimit requests) (sharedLimit requests capacity) (askingOwners requests)
        last) ∧
      handedOut (sharedLimit requests capacity) (askingOwners requests) =
        min (handedOut (askedLimit requests) (askingOwners requests))
          (max capacity (askingOwners requests).length) := by
  have hstart : AtLevel (askedLimit requests) (fun _ => 1) (askingOwners requests) 1 :=
    fun owner _ => (min_eq_right (le_max_left ..)).symm
  have hones : handedOut (fun _ => 1) (askingOwners requests) = (askingOwners requests).length := by
    simp [handedOut]
  obtain ⟨⟨last, hle, hnear⟩, hsum⟩ := shareRounds_spec
    (capacity - (askingOwners requests).length).toNat
    (nodup_askingOwners requests) hstart
  have hmost := hnear.le
  refine ⟨⟨last, hle, hnear⟩, ?_⟩
  rw [hones] at hsum
  rw [sharedLimit]
  rcases hsum with hsum | ⟨hsum, hleft⟩ <;> omega

theorem fair_shares : MaxMinFair requests capacity (fairOwnerCapacityLimits requests capacity) := by
  obtain ⟨⟨last, hone, hnear⟩, hsum⟩ := sharedLimit_spec requests capacity
  constructor
  · intro owner
    rw [← mem_askingOwners, Dict.contains_iff_mem_keys, items_fairOwnerCapacityLimits, List.map_map]
    simp
  · intro owner request limit hrequest hlimit
    obtain ⟨hin, rfl⟩ := (get?_fairOwnerCapacityLimits requests capacity).mp hlimit
    have hasked := askedLimit_of_get? requests hrequest
    rcases hnear owner hin with hown | hown <;> omega
  · rw [total_fairOwnerCapacityLimits, hsum, handedOut_askedLimit, length_askingOwners]
  · intro owner request limit other otherLimit hrequest hlimit hless hother
    obtain ⟨hin, rfl⟩ := (get?_fairOwnerCapacityLimits requests capacity).mp hlimit
    obtain ⟨hin', rfl⟩ := (get?_fairOwnerCapacityLimits requests capacity).mp hother
    have hasked := askedLimit_of_get? requests hrequest
    rcases hnear owner hin with hown | hown <;> rcases hnear other hin' with hthat | hthat <;> omega

end Shares

end FetchTask.Resilience
