import FetchTask.Lib.Dict
import FetchTask.Lib.Runs

/-!
The slots for uploads of reference images (`app/worker.py`, `_image_upload_slot`).

The automation of a task enters the slot with an `async with`: it reserves a place
under the lock of a condition, waits on the condition while there is none, enters
a semaphore with the place, and gives the place back under the lock when it
leaves. All of this is on one event loop; between two awaits a coroutine is alone,
and wherever it awaits it can be cancelled: for the lock, on the condition, for
the semaphore, while it uploads, and for the lock again when it gives back its
place.

A task has one coroutine, which leaves a slot before it enters the next one. Times
are whole seconds.
-/

namespace FetchTask.UploadSlots

open Runs

/-- `IMAGE_SUBMISSION_CONCURRENCY` and `IMAGE_UPLOAD_SLOT_WAIT_SECONDS`, as the environment of
the process has them. -/
structure Limits where
  concurrency : Nat
  waitSeconds : Nat
  bounds : 1 ≤ concurrency ∧ concurrency ≤ 16 ∧ 5 ≤ waitSeconds ∧ waitSeconds ≤ 120

/-- Where a coroutine awaits. -/
inductive Phase
  /-- The lock of the condition, to look for a place. -/
  | lock
  /-- The condition. -/
  | wait
  /-- The semaphore, with a place reserved. -/
  | enter
  /-- Inside: the images are uploaded. -/
  | upload
  /-- The lock, to give the place back. -/
  | giveBack
  deriving DecidableEq

/-- Whether the coroutine has a place reserved. -/
def Phase.reserved : Phase → Bool
  | .lock | .wait => false
  | .enter | .upload | .giveBack => true

structure Call where
  owner : String
  deadline : Nat
  phase : Phase
  deriving DecidableEq

/-- What the manager keeps, and the coroutines that are in `_image_upload_slot`, by their tasks. -/
structure Manager where
  now : Nat
  reservations : Dict String String
  permits : Nat
  active : Nat
  calls : Dict String Call

variable (L : Limits)

def Manager.new (now : Nat) : Manager where
  now
  reservations := .empty
  permits := L.concurrency
  active := 0
  calls := .empty

/-- `_image_owner_limit`, where `limits` are the shares of the owners as they were last computed. -/
def imageOwnerLimit (limits : Dict String Nat) (owner : String) : Nat :=
  if owner = "" then L.concurrency else max 1 ((limits.get? owner).getD 1)

def ownerActive (reservations : Dict String String) (owner : String) : Nat :=
  reservations.items.countP fun item => item.2 == owner

/-- Whether a place is left for the owner. -/
def Manager.available (limits : Dict String Nat) (owner : String) (m : Manager) : Bool :=
  decide (m.reservations.size < L.concurrency) &&
    decide (ownerActive m.reservations owner < imageOwnerLimit L limits owner)

def Manager.setPhase (task : String) (call : Call) (phase : Phase) (m : Manager) : Manager :=
  { m with calls := m.calls.set task { call with phase } }

/-- The coroutine has left `_image_upload_slot`. -/
def Manager.done (task : String) (m : Manager) : Manager := { m with calls := m.calls.erase task }

/-- The semaphore is left. -/
def Manager.leave (task : String) (call : Call) (m : Manager) : Manager :=
  { m with permits := m.permits + 1, active := m.active - 1 }.setPhase task call .giveBack

/-- A call that waits, after `notify_all`. -/
def notified (call : Call) : Call :=
  if call.phase = .wait then { call with phase := .lock } else call

inductive Event
  | pass (time : Nat)
  /-- The coroutine of a task comes to the slot. -/
  | ask (task owner : String)
  /-- It has the lock and looks for a place, with the shares of the owners or without when they
  cannot be computed; `gone` when its task has been deleted. -/
  | look (task : String) (limits : Option (Dict String Nat)) (gone : Bool)
  | timeout (task : String)
  /-- It gets a permit of the semaphore. -/
  | enter (task : String)
  /-- The uploads are over, one way or the other. -/
  | leave (task : String)
  | giveBack (task : String)
  /-- `CancelledError` is raised where the coroutine awaits. -/
  | cancel (task : String)

/-- A look for a place. -/
def Manager.look (task : String) (call : Call) (limits : Option (Dict String Nat)) (gone : Bool)
    (m : Manager) : Manager :=
  match limits with
  | none => m.done task
  | some limits =>
    if m.available L limits call.owner then
      { m with reservations := m.reservations.set task call.owner }.setPhase task call .enter
    -- The phase is written to the task, which raises when there is no such task any more.
    else if gone then m.done task
    else if call.deadline ≤ m.now then m.done task
    else m.setPhase task call .wait

/-- The place is popped and everybody who waits looks again. -/
def Manager.giveBack (task : String) (m : Manager) : Manager :=
  { m with
    reservations := m.reservations.erase task
    calls := (m.calls.erase task).mapValues notified }

def Manager.cancel (task : String) (call : Call) (m : Manager) : Manager :=
  match call.phase with
  | .lock | .wait => m.done task
  | .enter => m.setPhase task call .giveBack
  | .upload => m.leave task call
  -- The lock was awaited in the `finally`; the place stays reserved.
  | .giveBack => m.done task

/-- What happens to the coroutine of a task, if there is one. -/
def Manager.onCall (task : String) (f : Call → Manager) (m : Manager) : Manager :=
  match m.calls.get? task with
  | some call => f call
  | none => m

def step : Event → Manager → Manager
  | .pass time, m => if m.now ≤ time then { m with now := time } else m
  | .ask task owner, m =>
    match m.calls.get? task with
    | none => { m with calls := m.calls.set task ⟨owner, m.now + L.waitSeconds, .lock⟩ }
    | some _ => m
  | .look task limits gone, m =>
    m.onCall task fun call => if call.phase = .lock then m.look L task call limits gone else m
  | .timeout task, m =>
    m.onCall task fun call =>
      if call.phase = .wait ∧ call.deadline ≤ m.now then m.done task else m
  | .enter task, m =>
    m.onCall task fun call =>
      if call.phase = .enter ∧ 0 < m.permits then
        { m with permits := m.permits - 1, active := m.active + 1 }.setPhase task call .upload
      else m
  | .leave task, m => m.onCall task fun call => if call.phase = .upload then m.leave task call else m
  | .giveBack task, m =>
    m.onCall task fun call => if call.phase = .giveBack then m.giveBack task else m
  | .cancel task, m => m.onCall task fun call => m.cancel task call

/-! ### What holds of every run -/

/-- The tasks whose coroutines upload. -/
def uploading (calls : Dict String Call) : Finset String :=
  calls.keysWhere fun _ call => call.phase == .upload

structure Manager.Kept (m : Manager) : Prop where
  held : ∀ task call, m.calls.get? task = some call → call.phase.reserved = true →
    m.reservations.get? task = some call.owner
  room : m.reservations.size ≤ L.concurrency
  active : m.active = (uploading m.calls).card
  permits : m.permits + m.active = L.concurrency
  waits : ∀ task call, m.calls.get? task = some call → call.phase = .wait → 0 < m.reservations.size

/-- What the slot promises: no more places than there may be, a place for whoever uploads and a
permit for whoever has a place; and who waits, waits for a place that somebody has. -/
structure Manager.Within (m : Manager) : Prop where
  room : m.reservations.size ≤ L.concurrency
  active : m.active ≤ m.reservations.size
  uploads : m.active = (uploading m.calls).card
  permit : ∀ task call, m.calls.get? task = some call → call.phase = .enter → 0 < m.permits
  waits : ∀ task call, m.calls.get? task = some call → call.phase = .wait → 0 < m.reservations.size

variable {L} {m : Manager} {task : String} {call : Call}

theorem mem_uploading {calls : Dict String Call} :
    task ∈ uploading calls ↔ ∃ call, calls.get? task = some call ∧ call.phase = .upload := by
  rw [uploading, Dict.mem_keysWhere]
  simp only [beq_iff_eq]

/-- The tasks with a reserved place. -/
def places (reservations : Dict String String) : Finset String :=
  reservations.keysWhere fun _ _ => true

theorem mem_places {reservations : Dict String String} :
    task ∈ places reservations ↔ reservations.contains task = true := by
  rw [places, Dict.mem_keysWhere, Dict.contains, Option.isSome_iff_exists]
  simp only [and_true]

theorem Manager.Kept.mem_places (h : m.Kept L) (hcall : m.calls.get? task = some call)
    (hphase : call.phase.reserved = true) : task ∈ places m.reservations := by
  rw [UploadSlots.mem_places, Dict.contains, h.held task call hcall hphase]
  rfl

theorem Manager.Kept.uploading_subset (h : m.Kept L) :
    uploading m.calls ⊆ places m.reservations := by
  intro task htask
  obtain ⟨call, hcall, hphase⟩ := mem_uploading.mp htask
  exact h.mem_places hcall (by rw [hphase]; rfl)

theorem Manager.Kept.within (h : m.Kept L) : m.Within L where
  room := h.room
  active := by
    rw [h.active, Dict.size_eq_card]
    exact Finset.card_le_card h.uploading_subset
  uploads := h.active
  permit task call hcall hphase := by
    -- The coroutine has a place and does not upload.
    have hout : task ∉ uploading m.calls := fun hin => by
      obtain ⟨call', hcall', hphase'⟩ := mem_uploading.mp hin
      rw [hcall] at hcall'
      cases hcall'
      rw [hphase] at hphase'
      cases hphase'
    have hfewer : (uploading m.calls).card < m.reservations.size := by
      rw [Dict.size_eq_card]
      refine Finset.card_lt_card ⟨h.uploading_subset, fun hsub => hout (hsub ?_)⟩
      exact h.mem_places hcall (by rw [hphase]; rfl)
    have hroom := h.room
    have hpermits := h.permits
    rw [h.active] at hpermits
    omega
  waits := h.waits

/-! ### One step -/

theorem uploading_set (calls : Dict String Call) (task : String) (call : Call) :
    uploading (calls.set task call) =
      if call.phase = .upload then insert task (uploading calls) else (uploading calls).erase task := by
  rw [uploading, Dict.keysWhere_set]
  simp only [beq_iff_eq, uploading]

theorem uploading_erase (calls : Dict String Call) (task : String) :
    uploading (calls.erase task) = (uploading calls).erase task :=
  Dict.keysWhere_erase calls task

theorem notified_phase (call : Call) (phase : Phase) (h : phase ≠ .lock) :
    (notified call).phase = phase ↔ call.phase = phase ∧ phase ≠ .wait := by
  rw [notified]
  split_ifs with hwait
  · rw [hwait]
    exact iff_of_false (fun heq => h heq.symm) fun hboth => hboth.2 hboth.1.symm
  · exact ⟨fun heq => ⟨heq, heq ▸ hwait⟩, And.left⟩

theorem uploading_notified (calls : Dict String Call) :
    uploading (calls.mapValues notified) = uploading calls := by
  ext task
  simp only [mem_uploading, Dict.get?_mapValues, Option.map_eq_some_iff]
  constructor
  · rintro ⟨_, ⟨call, hcall, rfl⟩, hphase⟩
    exact ⟨call, hcall, ((notified_phase call _ (by decide)).mp hphase).1⟩
  · rintro ⟨call, hcall, hphase⟩
    exact ⟨_, ⟨call, hcall, rfl⟩, (notified_phase call _ (by decide)).mpr ⟨hphase, by decide⟩⟩

/-- A task that does not upload is not counted. -/
theorem uploading_of_phase (hcall : m.calls.get? task = some call) (hphase : call.phase ≠ .upload) :
    (uploading m.calls).erase task = uploading m.calls := by
  refine Finset.erase_eq_of_notMem fun hin => ?_
  obtain ⟨call', hcall', hphase'⟩ := mem_uploading.mp hin
  rw [hcall] at hcall'
  cases hcall'
  exact hphase hphase'

theorem Manager.Kept.setPhase (h : m.Kept L) (hcall : m.calls.get? task = some call)
    (hold : call.phase ≠ .upload) {phase : Phase} (hnew : phase ≠ .upload)
    (hreserved : phase.reserved = true → m.reservations.get? task = some call.owner)
    (hwait : phase = .wait → 0 < m.reservations.size) : (m.setPhase task call phase).Kept L where
  held other call' hother hphase := by
    by_cases heq : task = other
    · subst heq
      rw [Manager.setPhase, Dict.get?_set_self] at hother
      cases hother
      exact hreserved hphase
    · rw [Manager.setPhase, Dict.get?_set_of_ne _ _ heq] at hother
      exact h.held other call' hother hphase
  room := h.room
  active := by
    rw [Manager.setPhase, uploading_set, if_neg hnew, uploading_of_phase hcall hold]
    exact h.active
  permits := h.permits
  waits other call' hother hphase := by
    by_cases heq : task = other
    · subst heq
      rw [Manager.setPhase, Dict.get?_set_self] at hother
      cases hother
      exact hwait hphase
    · rw [Manager.setPhase, Dict.get?_set_of_ne _ _ heq] at hother
      exact h.waits other call' hother hphase

theorem Manager.Kept.done (h : m.Kept L) (hcall : m.calls.get? task = some call)
    (hold : call.phase ≠ .upload) : (m.done task).Kept L where
  held other call' hother hphase := by
    rw [Manager.done, Dict.get?_erase] at hother
    split_ifs at hother
    exact h.held other call' hother hphase
  room := h.room
  active := by
    rw [Manager.done, uploading_erase, uploading_of_phase hcall hold]
    exact h.active
  permits := h.permits
  waits other call' hother hphase := by
    rw [Manager.done, Dict.get?_erase] at hother
    split_ifs at hother
    exact h.waits other call' hother hphase

theorem size_set_pos (reservations : Dict String String) (task owner : String) :
    0 < (reservations.set task owner).size := by
  rw [Dict.size_eq_card]
  refine Finset.card_pos.mpr ⟨task, ?_⟩
  rw [Dict.mem_keysWhere]
  exact ⟨owner, Dict.get?_set_self .., rfl⟩

/-- A place is reserved for a task that has none. -/
theorem Manager.Kept.reserve (h : m.Kept L) (hcall : m.calls.get? task = some call)
    (hold : call.phase.reserved = false) (hroom : m.reservations.size < L.concurrency) :
    { m with reservations := m.reservations.set task call.owner }.Kept L where
  held other call' hother hphase := by
    by_cases heq : task = other
    · subst heq
      have hsame : call = call' := Option.some.inj (hcall.symm.trans hother)
      rw [← hsame, hold] at hphase
      cases hphase
    · show (m.reservations.set task call.owner).get? other = _
      rw [Dict.get?_set_of_ne _ _ heq]
      exact h.held other call' hother hphase
  room := (Dict.size_set_le ..).trans hroom
  active := h.active
  permits := h.permits
  waits _ _ _ _ := size_set_pos ..

theorem Manager.available_size {limits : Dict String Nat} {owner : String}
    (h : m.available L limits owner = true) : m.reservations.size < L.concurrency := by
  rw [Manager.available, Bool.and_eq_true] at h
  exact of_decide_eq_true h.1

/-- Who finds no place finds one that is taken. -/
theorem Manager.size_pos_of_not_available {limits : Dict String Nat} {owner : String}
    (h : ¬ m.available L limits owner = true) : 0 < m.reservations.size := by
  rcases Nat.eq_zero_or_pos m.reservations.size with hnone | hsome
  · have hempty : m.reservations.items = [] := List.length_eq_zero_iff.mp hnone
    have hlimit : 0 < imageOwnerLimit L limits owner := by
      rw [imageOwnerLimit]
      split_ifs
      · exact L.bounds.1
      · exact Nat.lt_of_lt_of_le Nat.zero_lt_one (Nat.le_max_left ..)
    have howner : ownerActive m.reservations owner = 0 := by rw [ownerActive, hempty]; rfl
    have hroom : 0 < L.concurrency := L.bounds.1
    exact absurd (by simp [Manager.available, hnone, howner, hlimit, hroom]) h
  · exact hsome

theorem Manager.Kept.look (h : m.Kept L) (hcall : m.calls.get? task = some call)
    (hphase : call.phase = .lock) (limits : Option (Dict String Nat)) (gone : Bool) :
    (m.look L task call limits gone).Kept L := by
  have hold : call.phase ≠ .upload := by rw [hphase]; decide
  cases limits with
  | none => exact h.done hcall hold
  | some limits =>
    simp only [Manager.look]
    split_ifs with havailable
    · exact (h.reserve hcall (by rw [hphase]; rfl) (Manager.available_size havailable)).setPhase
        hcall hold (by decide) (fun _ => Dict.get?_set_self ..) fun heq => by cases heq
    · exact h.done hcall hold
    · exact h.done hcall hold
    · exact h.setPhase hcall hold (by decide) (fun heq => by cases heq)
        fun _ => Manager.size_pos_of_not_available havailable

theorem Manager.Kept.enter (h : m.Kept L) (hcall : m.calls.get? task = some call)
    (hphase : call.phase = .enter) (hpermit : 0 < m.permits) :
    ({ m with permits := m.permits - 1, active := m.active + 1 }.setPhase task call .upload).Kept L where
  held other call' hother hreserved := by
    by_cases heq : task = other
    · subst heq
      rw [Manager.setPhase, Dict.get?_set_self] at hother
      cases hother
      exact h.held task call hcall (by rw [hphase]; rfl)
    · rw [Manager.setPhase, Dict.get?_set_of_ne _ _ heq] at hother
      exact h.held other call' hother hreserved
  room := h.room
  active := by
    have hout : task ∉ uploading m.calls := fun hin => by
      obtain ⟨call', hcall', hphase'⟩ := mem_uploading.mp hin
      rw [hcall] at hcall'
      cases hcall'
      rw [hphase] at hphase'
      cases hphase'
    rw [Manager.setPhase, uploading_set, if_pos rfl, Finset.card_insert_of_notMem hout, ← h.active]
  permits := by
    have hpermits := h.permits
    simp only [Manager.setPhase]
    omega
  waits other call' hother hwait := by
    by_cases heq : task = other
    · subst heq
      rw [Manager.setPhase, Dict.get?_set_self] at hother
      cases hother
      cases hwait
    · rw [Manager.setPhase, Dict.get?_set_of_ne _ _ heq] at hother
      exact h.waits other call' hother hwait

theorem Manager.Kept.leave (h : m.Kept L) (hcall : m.calls.get? task = some call)
    (hphase : call.phase = .upload) : (m.leave task call).Kept L where
  held other call' hother hreserved := by
    by_cases heq : task = other
    · subst heq
      rw [Manager.leave, Manager.setPhase, Dict.get?_set_self] at hother
      cases hother
      exact h.held task call hcall (by rw [hphase]; rfl)
    · rw [Manager.leave, Manager.setPhase, Dict.get?_set_of_ne _ _ heq] at hother
      exact h.held other call' hother hreserved
  room := h.room
  active := by
    have hin : task ∈ uploading m.calls := mem_uploading.mpr ⟨call, hcall, hphase⟩
    rw [Manager.leave, Manager.setPhase, uploading_set, if_neg (fun h => by cases h),
      Finset.card_erase_of_mem hin, ← h.active]
  permits := by
    have hpermits := h.permits
    have hsome : 0 < m.active := by
      rw [h.active]
      exact Finset.card_pos.mpr ⟨task, mem_uploading.mpr ⟨call, hcall, hphase⟩⟩
    simp only [Manager.leave, Manager.setPhase]
    omega
  waits other call' hother hwait := by
    by_cases heq : task = other
    · subst heq
      rw [Manager.leave, Manager.setPhase, Dict.get?_set_self] at hother
      cases hother
      cases hwait
    · rw [Manager.leave, Manager.setPhase, Dict.get?_set_of_ne _ _ heq] at hother
      exact h.waits other call' hother hwait

theorem notified_reserved (call : Call) : (notified call).phase.reserved = call.phase.reserved := by
  rw [notified]
  split_ifs with hwait
  · rw [hwait]
    rfl
  · rfl

theorem notified_owner (call : Call) : (notified call).owner = call.owner := by
  rw [notified]
  split_ifs <;> rfl

/-- Nobody waits after `notify_all`. -/
theorem notified_not_wait (call : Call) : (notified call).phase ≠ .wait :=
  fun h => ((notified_phase call _ (by decide)).mp h).2 rfl

theorem get?_giveBack {other : String} {call' : Call}
    (h : (m.giveBack task).calls.get? other = some call') :
    other ≠ task ∧ ∃ call, m.calls.get? other = some call ∧ notified call = call' := by
  rw [Manager.giveBack, Dict.get?_mapValues, Dict.get?_erase] at h
  split_ifs at h with heq
  · cases h
  · exact ⟨heq, Option.map_eq_some_iff.mp h⟩

theorem Manager.Kept.giveBack (h : m.Kept L) (hcall : m.calls.get? task = some call)
    (hphase : call.phase = .giveBack) : (m.giveBack task).Kept L where
  held other call' hother hreserved := by
    obtain ⟨hne, call, hcall, rfl⟩ := get?_giveBack hother
    rw [notified_reserved] at hreserved
    rw [notified_owner, Manager.giveBack, Dict.get?_erase, if_neg hne]
    exact h.held other call hcall hreserved
  room := (Dict.size_erase_le ..).trans h.room
  active := by
    have hold : call.phase ≠ .upload := by rw [hphase]; decide
    rw [Manager.giveBack, uploading_notified, uploading_erase, uploading_of_phase hcall hold]
    exact h.active
  permits := h.permits
  waits other call' hother hwait := by
    obtain ⟨-, call, -, rfl⟩ := get?_giveBack hother
    exact absurd hwait (notified_not_wait call)

theorem Manager.Kept.cancel (h : m.Kept L) (hcall : m.calls.get? task = some call) :
    (m.cancel task call).Kept L := by
  rw [Manager.cancel]
  cases hphase : call.phase with
  | lock | wait | giveBack => exact h.done hcall (by rw [hphase]; decide)
  | enter =>
    refine h.setPhase hcall (by rw [hphase]; decide) (by decide) (fun _ => ?_) fun heq => by cases heq
    exact h.held task call hcall (by rw [hphase]; rfl)
  | upload => exact h.leave hcall hphase

theorem onCall_of {P : Manager → Prop} {f : Call → Manager} (h : P m)
    (hf : ∀ call, m.calls.get? task = some call → P (f call)) : P (m.onCall task f) := by
  rw [Manager.onCall]
  split
  · rename_i call hcall
    exact hf call hcall
  · exact h

theorem Manager.Kept.ask (h : m.Kept L) (hnone : m.calls.get? task = none) (owner : String) :
    { m with calls := m.calls.set task ⟨owner, m.now + L.waitSeconds, .lock⟩ }.Kept L where
  held other call hother hreserved := by
    by_cases heq : task = other
    · subst heq
      rw [Dict.get?_set_self] at hother
      cases hother
      cases hreserved
    · rw [Dict.get?_set_of_ne _ _ heq] at hother
      exact h.held other call hother hreserved
  room := h.room
  active := by
    have hout : task ∉ uploading m.calls := fun hin => by
      obtain ⟨call, hcall, -⟩ := mem_uploading.mp hin
      rw [hnone] at hcall
      cases hcall
    rw [uploading_set, if_neg (fun heq => by cases heq), Finset.erase_eq_of_notMem hout]
    exact h.active
  permits := h.permits
  waits other call hother hwait := by
    by_cases heq : task = other
    · subst heq
      rw [Dict.get?_set_self] at hother
      cases hother
      cases hwait
    · rw [Dict.get?_set_of_ne _ _ heq] at hother
      exact h.waits other call hother hwait

theorem kept_step (event : Event) (m : Manager) (h : m.Kept L) : (step L event m).Kept L := by
  cases event with
  | pass time =>
    rw [step]
    split_ifs
    · exact { h with }
    · exact h
  | ask task owner =>
    rw [step]
    split
    · rename_i hnone
      exact h.ask hnone owner
    · exact h
  | look task limits gone =>
    refine onCall_of h fun call hcall => ?_
    split_ifs with hphase
    · exact h.look hcall hphase limits gone
    · exact h
  | timeout task =>
    refine onCall_of h fun call hcall => ?_
    split_ifs with hlate
    · exact h.done hcall (by rw [hlate.1]; decide)
    · exact h
  | enter task =>
    refine onCall_of h fun call hcall => ?_
    split_ifs with henter
    · exact h.enter hcall henter.1 henter.2
    · exact h
  | leave task =>
    refine onCall_of h fun call hcall => ?_
    split_ifs with hphase
    · exact h.leave hcall hphase
    · exact h
  | giveBack task =>
    refine onCall_of h fun call hcall => ?_
    split_ifs with hphase
    · exact h.giveBack hcall hphase
    · exact h
  | cancel task => exact onCall_of h fun call hcall => h.cancel hcall

theorem kept_new (L : Limits) (now : Nat) : (Manager.new L now).Kept L where
  held task call hcall := by cases hcall
  room := Nat.zero_le _
  active := rfl
  permits := rfl
  waits task call hcall := by cases hcall

/-- In every state of a run, whatever the coroutines do and wherever they are cancelled, the
uploads and the places are within their limits, and a place is enough to upload. -/
theorem uploads_within (L : Limits) (now : Nat) (events : List Event) :
    Throughout (step L) (fun m => m.Within L) events (.new L now) :=
  (throughout_of_step kept_step (kept_new L now)).mono fun _ h => h.within

end FetchTask.UploadSlots
