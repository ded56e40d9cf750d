import FetchTask.UploadSlots

/-!
Places that are given back, and places of one owner.

A coroutine that leaves a slot has to get the lock once more to give its place
back. When it is cancelled while it awaits that, its place is lost: it stays
reserved for ever. This is the only way to lose one.
-/

namespace FetchTask.UploadSlots

open Runs

variable {L : Limits} {m : Manager} {task owner : String} {call : Call}

/-! ### Lost places -/

/-- The tasks whose coroutines have a place reserved. -/
def holding (calls : Dict String Call) : Finset String :=
  calls.keysWhere fun _ call => call.phase.reserved

/-- The places are those of the coroutines, so that there are none when these have left. -/
def Manager.Exact (m : Manager) : Prop := places m.reservations = holding m.calls

/-- The event does not cancel a coroutine that is about to give its place back. -/
def Undisturbed : Event → Manager → Prop
  | .cancel task, m => ∀ call ∈ m.calls.get? task, call.phase ≠ .giveBack
  | _, _ => True

theorem mem_holding {calls : Dict String Call} :
    task ∈ holding calls ↔ ∃ call, calls.get? task = some call ∧ call.phase.reserved = true := by
  rw [holding, Dict.mem_keysWhere]

theorem holding_set (calls : Dict String Call) (task : String) (call : Call) :
    holding (calls.set task call) =
      if call.phase.reserved then insert task (holding calls) else (holding calls).erase task :=
  Dict.keysWhere_set calls task call

theorem holding_erase (calls : Dict String Call) (task : String) :
    holding (calls.erase task) = (holding calls).erase task :=
  Dict.keysWhere_erase calls task

theorem holding_notified (calls : Dict String Call) :
    holding (calls.mapValues notified) = holding calls := by
  ext task
  simp only [mem_holding, Dict.get?_mapValues, Option.map_eq_some_iff]
  constructor
  · rintro ⟨_, ⟨call, hcall, rfl⟩, hreserved⟩
    exact ⟨call, hcall, by rwa [notified_reserved] at hreserved⟩
  · rintro ⟨call, hcall, hreserved⟩
    exact ⟨_, ⟨call, hcall, rfl⟩, by rwa [notified_reserved]⟩

theorem mem_holding_iff (hcall : m.calls.get? task = some call) :
    task ∈ holding m.calls ↔ call.phase.reserved = true := by
  rw [mem_holding]
  constructor
  · rintro ⟨call', hcall', hreserved⟩
    rw [hcall] at hcall'
    cases hcall'
    exact hreserved
  · exact fun hreserved => ⟨call, hcall, hreserved⟩

theorem places_set (reservations : Dict String String) (task owner : String) :
    places (reservations.set task owner) = insert task (places reservations) := by
  rw [places, Dict.keysWhere_set, if_pos rfl, places]

theorem places_erase (reservations : Dict String String) (task : String) :
    places (reservations.erase task) = (places reservations).erase task :=
  Dict.keysWhere_erase reservations task

/-- A coroutine goes on with its place, or without one. -/
theorem Manager.Exact.setPhase (h : m.Exact) (hcall : m.calls.get? task = some call)
    {phase : Phase} (hphase : phase.reserved = call.phase.reserved) :
    (m.setPhase task call phase).Exact := by
  show places m.reservations = holding (m.calls.set task { call with phase })
  rw [holding_set, hphase, h]
  split_ifs with hreserved
  · exact (Finset.insert_eq_of_mem ((mem_holding_iff hcall).mpr hreserved)).symm
  · exact (Finset.erase_eq_of_notMem (mt (mem_holding_iff hcall).mp hreserved)).symm

/-- A coroutine without a place leaves. -/
theorem Manager.Exact.done (h : m.Exact) (hcall : m.calls.get? task = some call)
    (hphase : call.phase.reserved = false) : (m.done task).Exact := by
  show places m.reservations = holding (m.calls.erase task)
  rw [holding_erase, h, Finset.erase_eq_of_notMem]
  rw [mem_holding_iff hcall, hphase]
  exact Bool.false_ne_true

theorem Manager.Exact.reserve (h : m.Exact) (task : String) (call : Call) :
    ({ m with reservations := m.reservations.set task call.owner }.setPhase task call .enter).Exact := by
  show places (m.reservations.set task call.owner) = holding (m.calls.set task { call with phase := .enter })
  rw [holding_set, if_pos (show Phase.enter.reserved = true from rfl), places_set, h]

theorem Manager.Exact.giveBack (h : m.Exact) (task : String) : (m.giveBack task).Exact := by
  show places (m.reservations.erase task) = holding ((m.calls.erase task).mapValues notified)
  rw [holding_notified, holding_erase, places_erase, h]

theorem Manager.Exact.look (h : m.Exact) (hcall : m.calls.get? task = some call)
    (hphase : call.phase = .lock) (limits : Option (Dict String Nat)) (gone : Bool) :
    (m.look L task call limits gone).Exact := by
  have hold : call.phase.reserved = false := by rw [hphase]; rfl
  cases limits with
  | none => exact h.done hcall hold
  | some limits =>
    simp only [Manager.look]
    split_ifs
    · exact h.reserve task call
    · exact h.done hcall hold
    · exact h.done hcall hold
    · exact h.setPhase hcall hold.symm

theorem Manager.Exact.ask (h : m.Exact) (hnone : m.calls.get? task = none) (call : Call)
    (hphase : call.phase.reserved = false) :
    { m with calls := m.calls.set task call }.Exact := by
  show places m.reservations = holding (m.calls.set task call)
  have hout : task ∉ holding m.calls := fun hin => by
    obtain ⟨call', hcall', -⟩ := mem_holding.mp hin
    rw [hnone] at hcall'
    cases hcall'
  rw [holding_set, if_neg (by rw [hphase]; exact Bool.false_ne_true), h,
    Finset.erase_eq_of_notMem hout]

/-- Cancelling loses the place of a coroutine that is about to give it back, and no other. -/
theorem exact_cancel_iff (hkept : m.Kept L) (h : m.Exact) (hcall : m.calls.get? task = some call) :
    (m.cancel task call).Exact ↔ call.phase ≠ .giveBack := by
  rw [Manager.cancel]
  cases hphase : call.phase with
  | lock | wait =>
    exact iff_of_true (h.done hcall (by rw [hphase]; rfl)) (by decide)
  | enter | upload =>
    exact iff_of_true (h.setPhase hcall (by rw [hphase]; rfl)) (by decide)
  | giveBack =>
    refine iff_of_false (fun hexact => ?_) fun hne => hne rfl
    have hplace : task ∈ places m.reservations := hkept.mem_places hcall (by rw [hphase]; rfl)
    have hgone : places m.reservations = holding (m.calls.erase task) := hexact
    rw [hgone, holding_erase] at hplace
    exact Finset.notMem_erase task _ hplace

theorem exact_step_iff (event : Event) (m : Manager) (hkept : m.Kept L) (h : m.Exact) :
    (step L event m).Exact ↔ Undisturbed event m := by
  cases event with
  | cancel task =>
    rw [step, Manager.onCall]
    split
    · rename_i call hcall
      rw [exact_cancel_iff hkept h hcall]
      simp [Undisturbed, hcall]
    · rename_i hnone
      exact iff_of_true h (by simp [Undisturbed, hnone])
  | pass time =>
    refine iff_of_true ?_ trivial
    rw [step]
    split_ifs
    · exact h
    · exact h
  | ask task owner =>
    refine iff_of_true ?_ trivial
    rw [step]
    split
    · rename_i hnone
      exact h.ask hnone _ rfl
    · exact h
  | look task limits gone =>
    refine iff_of_true (onCall_of h fun call hcall => ?_) trivial
    split_ifs with hphase
    · exact h.look hcall hphase limits gone
    · exact h
  | timeout task =>
    refine iff_of_true (onCall_of h fun call hcall => ?_) trivial
    split_ifs with hlate
    · exact h.done hcall (by rw [hlate.1]; rfl)
    · exact h
  | enter task =>
    refine iff_of_true (onCall_of h fun call hcall => ?_) trivial
    split_ifs with henter
    · exact h.setPhase hcall (by rw [henter.1]; rfl)
    · exact h
  | leave task =>
    refine iff_of_true (onCall_of h fun call hcall => ?_) trivial
    split_ifs with hphase
    · exact h.setPhase hcall (by rw [hphase]; rfl)
    · exact h
  | giveBack task =>
    refine iff_of_true (onCall_of h fun call hcall => ?_) trivial
    split_ifs
    · exact h.giveBack task
    · exact h

/-- In every state of a run the places are those of the coroutines, if and only if no coroutine
is cancelled while it waits to give its place back. -/
theorem places_given_back_iff (L : Limits) (now : Nat) (events : List Event) :
    Throughout (step L) Manager.Exact events (.new L now) ↔
      AllSteps (step L) Undisturbed events (.new L now) :=
  throughout_iff_allSteps_of_invariant kept_step exact_step_iff (kept_new L now) rfl

/-! ### The places of one owner -/

/-- What is read as the share of the owner is no more than `share`. -/
def ReadsShare (L : Limits) (owner : String) (share : Nat) : Event → Manager → Prop
  | .look _ (some limits) _, _ => imageOwnerLimit L limits owner ≤ share
  | _, _ => True

theorem ownerActive_eq (reservations : Dict String String) (owner : String) :
    ownerActive reservations owner = (reservations.keysWhere fun _ other => other == owner).card := by
  rw [Dict.card_keysWhere, ownerActive]

theorem ownerActive_set_le (reservations : Dict String String) (task other owner : String) :
    ownerActive (reservations.set task other) owner ≤
      ownerActive reservations owner + if other = owner then 1 else 0 := by
  rw [ownerActive_eq, ownerActive_eq, Dict.keysWhere_set]
  by_cases howner : other = owner
  · rw [if_pos (by simpa using howner), if_pos howner]
    exact Finset.card_insert_le ..
  · rw [if_neg (by simpa using howner), if_neg howner]
    exact Finset.card_erase_le

theorem ownerActive_erase_le (reservations : Dict String String) (task owner : String) :
    ownerActive (reservations.erase task) owner ≤ ownerActive reservations owner := by
  rw [ownerActive_eq, ownerActive_eq, Dict.keysWhere_erase]
  exact Finset.card_erase_le

theorem share_look {share : Nat} {limits : Option (Dict String Nat)} {gone : Bool}
    (h : ownerActive m.reservations owner ≤ share)
    (hreads : ReadsShare L owner share (.look task limits gone) m) :
    ownerActive (m.look L task call limits gone).reservations owner ≤ share := by
  cases limits with
  | none => exact h
  | some limits =>
    simp only [Manager.look]
    split_ifs with havailable
    · have hset := ownerActive_set_le m.reservations task call.owner owner
      by_cases howner : call.owner = owner
      · rw [if_pos howner] at hset
        rw [Manager.available, Bool.and_eq_true, howner] at havailable
        have hfewer := of_decide_eq_true havailable.2
        have hlimit : imageOwnerLimit L limits owner ≤ share := hreads
        exact hset.trans (by omega)
      · rw [if_neg howner] at hset
        exact hset.trans h
    · exact h
    · exact h
    · exact h

theorem share_step {share : Nat} (event : Event) (m : Manager)
    (h : ownerActive m.reservations owner ≤ share) (hreads : ReadsShare L owner share event m) :
    ownerActive (step L event m).reservations owner ≤ share := by
  cases event with
  | pass time =>
    rw [step]
    split_ifs
    · exact h
    · exact h
  | ask task owner =>
    rw [step]
    split
    · exact h
    · exact h
  | look task limits gone =>
    refine onCall_of (P := fun m => ownerActive m.reservations owner ≤ share) h fun call _ => ?_
    split_ifs
    · exact share_look h hreads
    · exact h
  | giveBack task =>
    refine onCall_of (P := fun m => ownerActive m.reservations owner ≤ share) h fun call _ => ?_
    split_ifs
    · exact (ownerActive_erase_le ..).trans h
    · exact h
  | timeout task | enter task | leave task =>
    refine onCall_of (P := fun m => ownerActive m.reservations owner ≤ share) h fun call _ => ?_
    split_ifs
    · exact h
    · exact h
  | cancel task =>
    refine onCall_of (P := fun m => ownerActive m.reservations owner ≤ share) h fun call _ => ?_
    rw [Manager.cancel]
    split <;> exact h

/-- An owner whose share is never read as more than `share` never has more places. -/
theorem owner_share_kept (L : Limits) (now : Nat) (owner : String) (share : Nat)
    {events : List Event} (h : AllSteps (step L) (ReadsShare L owner share) events (.new L now)) :
    Throughout (step L) (fun m => ownerActive m.reservations owner ≤ share) events (.new L now) :=
  throughout_of_allSteps share_step (Nat.zero_le share) h

/-! ### A place that is lost -/

section Sample

def sampleLimits : Limits := ⟨1, 20, by decide⟩

/-- A task has uploaded; it waits for the lock and its coroutine is cancelled. -/
def lostPlace : List Event :=
  [.ask "1" "a", .look "1" (some .empty) false, .enter "1", .leave "1", .cancel "1"]

theorem lost_place_shares :
    Throughout (step sampleLimits) (fun m => ownerActive m.reservations "a" ≤ 1) lostPlace
      (.new sampleLimits 0) :=
  owner_share_kept sampleLimits 0 "a" 1 ⟨trivial,
    show imageOwnerLimit sampleLimits .empty "a" ≤ 1 by decide, trivial, trivial, trivial, trivial⟩

example : (run (step sampleLimits) lostPlace (.new sampleLimits 0)).reservations.items =
    [("1", "a")] := by
  decide

end Sample

end FetchTask.UploadSlots
