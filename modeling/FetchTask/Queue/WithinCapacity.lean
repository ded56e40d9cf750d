import FetchTask.Queue.Capacity

/-!
A process keeps to its limits.

The reservations are sets keyed by task ids, so they count loops only as long as
no two loops hold one task: the loop that ends first discards what the other one
needs. Where no loop is handed a task that another one still holds, every task in
execution has its reservations, and counting reservations counts loops. The
remote generations of an owner are counted from the records and from the
reservations; between a refresh and the next one the records can only gain tasks
that have a reservation.
-/

namespace FetchTask.Queue

open Store Runs Knowledge

/-! ### What a loop holds -/

/-- The task that a loop executes, its record at the claim, and whether its reference images
have still to be placed. -/
structure Holding where
  task : TaskId
  claimedMeta : Meta
  preparing : Bool

/-- A loop holds the task that the section has accepted until it discards it. -/
def loopKnowledge : Knowledge LoopOpSig (Option Holding) where
  start := none
  may
    | k, .tryReserve .. => k = none
    | k, .releaseImagePreparation t | k, .discard t => ∃ h, k = some h ∧ h.task = t
    | _, .setLimits _ => True
  can _ _ := True
  learn
    | _, .tryReserve t m, .accepted => some ⟨t, m, isImageSubmission m⟩
    | k, .tryReserve .., .deferred .. => k
    | k, .releaseImagePreparation _, _ => k.map fun h => { h with preparing := false }
    | _, .discard _, _ => none
    | k, .setLimits _, _ => k

abbrev plantKnowledge : Knowledge LoopSig (Option Holding) := loopKnowledge.sumLeft fun _ => True

/-- A configuration, with what its loops hold. -/
abbrev PlantRun := Tracked LoopSig Plant (Option Holding)

def plantStep (C : Capacity) : Label LoopRequest Surroundings → PlantRun → PlantRun :=
  plantKnowledge.step (plantHandle C) (LoopRequest.prog C)

/-! ### The law -/

section Law

variable (C : Capacity)

structure HasReservations (M : Manager) (h : Holding) : Prop where
  browser : (taskBrowserResourceClass C h.claimedMeta).1 = true →
    h.task ∈ M.browserTaskReservations
  doubao : platformOf h.claimedMeta = "doubao" → h.task ∈ M.doubaoBrowserReservations
  qianwen : (taskBrowserResourceClass C h.claimedMeta).2 = true →
    h.task ∈ M.qianwenReferenceReservations
  images : h.preparing = true → M.claimedImagePreparations.contains h.task = true
  remote : platformOf h.claimedMeta = "dola" →
    M.remoteGenerationReservations.get? h.task = some h.claimedMeta.ownerTokenHash

/-- Every one of these loops executes a task of the class. -/
def AllExecute (known : Nat → Option Holding) (inClass : Holding → Prop) (loops : Finset Nat) :
    Prop :=
  ∀ i ∈ loops, ∃ h, known i = some h ∧ inClass h

/-- The submitted Dola tasks of an owner that this process has claimed. -/
def Plant.submittedHere (s : Plant) (owner : String) : Finset TaskId :=
  s.world.tasks.keysWhere fun t m => generatesFor owner m && C.owns (s.claimers t)

/-- A Dola task of the owner that a loop of this process executes. -/
def ExecutedFor (known : Nat → Option Holding) (owner : String) (t : TaskId) : Prop :=
  ∃ i h, known i = some h ∧ h.task = t ∧ platformOf h.claimedMeta = "dola" ∧
    h.claimedMeta.ownerTokenHash = owner

structure WithinCapacity (s : Plant) (known : Nat → Option Holding) : Prop where
  reserved : ∀ i h, known i = some h → HasReservations C s.manager h
  browser : ∀ loops, AllExecute known
    (fun h => (taskBrowserResourceClass C h.claimedMeta).1 = true) loops →
    loops.card ≤ C.browserTaskConcurrency
  doubao : ∀ loops, AllExecute known (fun h => platformOf h.claimedMeta = "doubao") loops →
    loops.card ≤ C.doubaoBrowserConcurrency
  qianwen : ∀ loops, AllExecute known
    (fun h => (taskBrowserResourceClass C h.claimedMeta).2 = true) loops →
    loops.card ≤ C.qianwenReferenceConcurrency
  images : ∀ loops, AllExecute known (fun h => h.preparing = true) loops →
    loops.card ≤ C.imagePreparationConcurrency
  remote : ∀ owner, owner ≠ "" → ∀ tasks : Finset TaskId,
    (∀ t ∈ tasks, t ∈ s.submittedHere C owner ∨ ExecutedFor known owner t) →
    tasks.card ≤ remoteLimit s.limits owner

/-- No loop holds the task. -/
def Unheld (known : Nat → Option Holding) (t : TaskId) : Prop :=
  ∀ j, ∀ h ∈ known j, h.task ≠ t

/-- The condition on an operation: no candidate is held by a loop of this process or still
reserved; after an invalidation the counts are read again before they are used; a record of this
process becomes a submitted Dola task under a reservation; no limit is lowered. -/
def NothingShared (unheld : TaskId → Prop) (e : Surroundings) (o : LoopSig.Op) (s : Plant) : Prop :=
  match o with
  | .inl (.tryReserve t m) =>
    unheld t ∧ s.manager.remoteGenerationReservations.get? t = none ∧
      (platformOf m = "dola" → s.manager.remoteOwnerRefreshedAt = 0 →
        second ≤ e.loopTime ∧ e.countsReadable = true)
  | .inl (.setLimits limits) => ∀ owner, remoteLimit s.limits owner ≤ remoteLimit limits owner
  | .inr (.write t o) => C.owns (s.claimers t) = true → ∀ m ∈ s.world.tasks.get? t,
      let m' := o.apply C.chars m
      generatesFor m'.ownerTokenHash m' = true → generatesFor m'.ownerTokenHash m = true ∨
        s.manager.remoteGenerationReservations.get? t = some m'.ownerTokenHash
  | _ => True

/-- A process that has just started: no loop is at work and nothing is reserved, and no task has
been claimed by a worker of its name. -/
structure JustStarted (s : Plant) : Prop where
  manager : s.manager = {}
  claimers : ∀ t, C.owns (s.claimers t) = false

end Law

/-! ### The calls keep to what they hold -/

section Calls

variable {C : Capacity} {k : Option Holding}

theorem ensures_onQueue {α : Type} (call : Call α) :
    plantKnowledge.Ensures (fun _ k' => k' = k) k (onQueue call) :=
  Allowed.inr (allowed_all call) rfl

theorem ensures_onQueue_bind {α β : Type} {call : Call α} {f : α → LoopCall β}
    {Q : β → Option Holding → Prop} (hf : ∀ a, plantKnowledge.Ensures Q k (f a)) :
    plantKnowledge.Ensures Q k (onQueue call >>= f) := by
  refine Ensures.bind (ensures_onQueue call) fun a k' hk' => ?_
  rw [hk']
  exact hf a

/-- The section returns the task that it holds then, or none. -/
def HoldsClaimed (claimed : Option TaskId) (k : Option Holding) : Prop :=
  k.map Holding.task = claimed

theorem ensures_claimSection (worker : WorkerId) (limits : Limits) (streak : Nat → Nat) (n : Nat) :
    plantKnowledge.Ensures HoldsClaimed none (claimSection worker limits streak n) := by
  induction n with
  | zero => exact rfl
  | succ n ih =>
    refine ensures_onQueue_bind fun candidate => ?_
    cases candidate with
    | none => exact rfl
    | some t =>
      refine ensures_onQueue_bind fun m => ?_
      cases m with
      | none => exact rfl
      | some m =>
        refine ⟨rfl, fun admission _ => ?_⟩
        cases admission with
        | accepted => exact rfl
        | deferred reason category delaySeconds =>
          refine ensures_onQueue_bind fun now => ensures_onQueue_bind fun written => ?_
          split
          · exact rfl
          · exact ensures_onQueue_bind fun _ => ih

theorem ensures_runSteps (t : TaskId) (steps : List IterationStep) (hk : HoldsClaimed (some t) k) :
    plantKnowledge.Ensures (fun _ => HoldsClaimed (some t)) k (runSteps t steps) := by
  induction steps generalizing k with
  | nil => exact hk
  | cons step steps ih =>
    obtain ⟨h, rfl, htask⟩ := Option.map_eq_some_iff.mp hk
    cases step with
    | releaseImagePreparation =>
      refine ⟨⟨h, rfl, htask⟩, fun _ _ => ih ?_⟩
      exact congrArg some htask
    | queue call => exact ensures_onQueue_bind fun _ => ih hk

theorem ensures_loopRequest (request : LoopRequest) :
    plantKnowledge.Ensures (fun _ _ => True) plantKnowledge.start (request.prog C) := by
  have hmono {α : Type} {call : Call α} :
      plantKnowledge.Ensures (fun _ _ => True) none (onQueue call) :=
    Ensures.mono (fun _ _ _ => trivial) (ensures_onQueue call)
  cases request with
  | other call => exact hmono
  | setLimits limits => exact ⟨trivial, fun _ _ => trivial⟩
  | iteration seq limits streak steps releases =>
    refine Ensures.bind (ensures_claimSection _ _ _ _) fun claimed k hk => ?_
    cases claimed with
    | none => exact trivial
    | some t =>
      refine Ensures.bind (ensures_runSteps t steps hk) fun _ k hk => ?_
      obtain ⟨h, rfl, htask⟩ := Option.map_eq_some_iff.mp hk
      cases releases with
      | false => exact trivial
      | true => exact ensures_onQueue_bind fun _ => ⟨⟨h, rfl, htask⟩, fun _ _ => trivial⟩

end Calls

/-! ### The invariant -/

section Invariant

variable (C : Capacity)

def Manager.reservedFor (M : Manager) (owner : String) : Finset TaskId :=
  M.remoteGenerationReservations.keysWhere fun _ reservedOwner => reservedOwner == owner

/-- What the counts must cover: the reservations are added to them. -/
def Plant.unreserved (s : Plant) (owner : String) : Finset TaskId :=
  s.submittedHere C owner \ s.manager.reservedFor owner

structure ManagerInv (M : Manager) (known : Nat → Option Holding) : Prop where
  distinct : ∀ i j h h', known i = some h → known j = some h' → h.task = h'.task → i = j
  reserved : ∀ i h, known i = some h → HasReservations C M h
  browser : M.browserTaskReservations.card ≤ C.browserTaskConcurrency
  doubao : M.doubaoBrowserReservations.card ≤ C.doubaoBrowserConcurrency
  qianwen : M.qianwenReferenceReservations.card ≤ C.qianwenReferenceConcurrency
  images : M.claimedImagePreparations.size ≤ C.imagePreparationConcurrency

structure RemoteInv (s : Plant) : Prop where
  within : ∀ owner, owner ≠ "" →
    ((s.unreserved C owner).card + (s.manager.reservedFor owner).card : Int) ≤
      remoteLimit s.limits owner
  counted : s.manager.remoteOwnerRefreshedAt ≠ 0 → ∀ owner, owner ≠ "" →
    (s.unreserved C owner).card ≤ s.manager.remoteOwnerCounts owner
  limits : ∀ owner, remoteLimit s.manager.remoteOwnerLimits owner ≤ remoteLimit s.limits owner

structure PlantInv (s : Plant) (known : Nat → Option Holding) : Prop where
  manager : ManagerInv C s.manager known
  remote : RemoteInv C s

end Invariant

section Steps

variable {C : Capacity} {e : Surroundings} {s : Plant} {known : Nat → Option Holding}
  {t : TaskId} {m : Meta} {owner : String}

/-! ### Counting loops -/

/-- Loops hold different tasks, so there are at most as many of them as reservations. -/
theorem ManagerInv.card_le {M : Manager} (h : ManagerInv C M known) {inClass : Holding → Prop}
    {loops : Finset Nat} (hloops : AllExecute known inClass loops) (reservations : Finset TaskId)
    (hreserved : ∀ i h, known i = some h → inClass h → h.task ∈ reservations) :
    loops.card ≤ reservations.card := by
  let task : Nat → TaskId := fun i => ((known i).map Holding.task).getD ""
  refine Finset.card_le_card_of_injOn task (fun i hi => ?_) fun i hi j hj heq => ?_
  · obtain ⟨held, hknown, hclass⟩ := hloops i hi
    have htask : task i = held.task := by simp [task, hknown]
    rw [htask]
    exact hreserved i held hknown hclass
  · obtain ⟨held, hknown, -⟩ := hloops i hi
    obtain ⟨held', hknown', -⟩ := hloops j hj
    have hsame : held.task = held'.task := by simpa [task, hknown, hknown'] using heq
    exact h.distinct i j held held' hknown hknown' hsame

theorem PlantInv.within (h : PlantInv C s known) : WithinCapacity C s known := by
  have hmanager := h.manager
  refine ⟨hmanager.reserved, fun loops hloops => ?_, fun loops hloops => ?_,
    fun loops hloops => ?_, fun loops hloops => ?_, fun owner howner tasks htasks => ?_⟩
  · have hle := hmanager.card_le hloops _ fun i held hknown => (hmanager.reserved i held hknown).browser
    exact hle.trans hmanager.browser
  · have hle := hmanager.card_le hloops _ fun i held hknown => (hmanager.reserved i held hknown).doubao
    exact hle.trans hmanager.doubao
  · have hle := hmanager.card_le hloops _ fun i held hknown => (hmanager.reserved i held hknown).qianwen
    exact hle.trans hmanager.qianwen
  · have hle := hmanager.card_le hloops
      (s.manager.claimedImagePreparations.keysWhere fun _ _ => true)
      fun i held hknown hpreparing => by
        obtain ⟨imageOwner, hget⟩ :=
          Option.isSome_iff_exists.mp ((hmanager.reserved i held hknown).images hpreparing)
        exact (Dict.mem_keysWhere _).mpr ⟨imageOwner, hget, rfl⟩
    rw [← Dict.size_eq_card] at hle
    exact hle.trans hmanager.images
  · have hsub : tasks ⊆ s.unreserved C owner ∪ s.manager.reservedFor owner := by
      intro t ht
      by_cases hreserved : t ∈ s.manager.reservedFor owner
      · exact Finset.mem_union_right _ hreserved
      · rcases htasks t ht with hsubmitted | ⟨i, held, hknown, rfl, hdola, rfl⟩
        · exact Finset.mem_union_left _ (Finset.mem_sdiff.mpr ⟨hsubmitted, hreserved⟩)
        · have hslot := (hmanager.reserved i held hknown).remote hdola
          exact absurd ((Dict.mem_keysWhere _).mpr ⟨_, hslot, by simp⟩) hreserved
    have hcard := (Finset.card_le_card hsub).trans (Finset.card_union_le _ _)
    have hwithin := h.remote.within owner howner
    omega

/-! ### The records -/

/-- The records can change as long as no task without a reservation joins the submitted ones. -/
theorem RemoteInv.of_records {s' : Plant} (h : RemoteInv C s) (hmanager : s'.manager = s.manager)
    (hlimits : s'.limits = s.limits)
    (hsub : ∀ owner, s'.unreserved C owner ⊆ s.unreserved C owner) : RemoteInv C s' := by
  have hcard : ∀ owner, (s'.unreserved C owner).card ≤ (s.unreserved C owner).card :=
    fun owner => Finset.card_le_card (hsub owner)
  refine ⟨fun owner howner => ?_, fun hvalid owner howner => ?_, fun owner => ?_⟩
  · have hwithin := h.within owner howner
    rw [hmanager, hlimits]
    have := hcard owner
    omega
  · rw [hmanager] at hvalid ⊢
    exact (hcard owner).trans (h.counted hvalid owner howner)
  · rw [hmanager, hlimits]
    exact h.limits owner

theorem mem_submittedHere :
    t ∈ s.submittedHere C owner ↔ ∃ m, s.world.tasks.get? t = some m ∧
      generatesFor owner m = true ∧ C.owns (s.claimers t) = true := by
  rw [Plant.submittedHere, Dict.mem_keysWhere]
  simp only [Bool.and_eq_true]

theorem generatesFor_owner (h : generatesFor owner m = true) : m.ownerTokenHash = owner := by
  simp only [generatesFor, Bool.and_eq_true, beq_iff_eq] at h
  exact h.2

/-- A task that has just been claimed is running, and not submitted. -/
theorem claimTask_generatesFor (owner : String) {worker : String} {limited : Bool} {now : Int}
    (hclaimed : (claimTask worker limited now m).1 = true) :
    generatesFor owner (claimTask worker limited now m).2 = false := by
  unfold claimTask at hclaimed ⊢
  split
  · rename_i hguard
    simp [hguard] at hclaimed
  · split
    · rename_i hfree hguard
      simp [hfree, hguard] at hclaimed
    · simp [generatesFor]

theorem unreserved_step {o : Op} (hshared : NothingShared C (Unheld known) e (.inr o) s) :
    (plantHandle C e (.inr o) s).2.unreserved C owner ⊆ s.unreserved C owner := by
  intro t ht
  obtain ⟨hsubmitted, hreserved⟩ := Finset.mem_sdiff.mp ht
  refine Finset.mem_sdiff.mpr ⟨?_, hreserved⟩
  have hnot : t ∉ s.manager.reservedFor owner := hreserved
  obtain ⟨m', hm', hgenerates, howns⟩ := mem_submittedHere.mp hsubmitted
  refine mem_submittedHere.mpr ?_
  cases o with
  | claimTask j worker claimOwner limit claimedAt =>
    cases hj : s.world.tasks.get? j with
    | none =>
      simp only [plantHandle, handle, hj, Op.claimers] at hm' howns
      exact ⟨m', hm', hgenerates, howns⟩
    | some m =>
      simp only [plantHandle, handle, hj] at hm' howns
      cases hclaimed : (claimTask worker (atLimit s.world.tasks claimOwner limit) claimedAt m).1 with
      | false =>
        simp only [hclaimed, Op.claimers] at howns
        rw [claimTask_refused hclaimed] at hm'
        by_cases htj : j = t
        · subst htj
          have hsame : m = m' := by simpa [World.setTask] using hm'
          exact ⟨m, hj, hsame ▸ hgenerates, howns⟩
        · exact ⟨m', by simpa [World.setTask, htj] using hm', hgenerates, howns⟩
      | true =>
        simp only [hclaimed, Op.claimers] at howns
        by_cases htj : j = t
        · subst htj
          have hsame : (claimTask worker (atLimit s.world.tasks claimOwner limit) claimedAt m).2 = m' := by
            simpa [World.setTask] using hm'
          have hrunning := claimTask_generatesFor owner hclaimed
          rw [hsame, hgenerates] at hrunning
          cases hrunning
        · rw [Function.update_of_ne (Ne.symm htj)] at howns
          exact ⟨m', by simpa [World.setTask, htj] using hm', hgenerates, howns⟩
  | write j op =>
    have hclaimers : C.owns (s.claimers t) = true := by
      simpa [plantHandle, Op.claimers] using howns
    cases hj : s.world.tasks.get? j with
    | none =>
      simp only [plantHandle, handle, hj] at hm'
      exact ⟨m', hm', hgenerates, hclaimers⟩
    | some m =>
      simp only [plantHandle, handle, hj] at hm'
      by_cases htj : j = t
      · subst htj
        have hsame : op.apply C.chars m = m' := by simpa [World.setTask] using hm'
        have howner := generatesFor_owner hgenerates
        have hcase := hshared hclaimers m hj
        simp only [hsame, howner] at hcase
        rcases hcase hgenerates with hbefore | hslot
        · exact ⟨m, hj, hbefore, hclaimers⟩
        · exact absurd ((Dict.mem_keysWhere _).mpr ⟨owner, hslot, by simp⟩) hnot
      · exact ⟨m', by simpa [World.setTask, htj] using hm', hgenerates, hclaimers⟩
  | enqueueScript retrying j score time =>
    simp only [plantHandle, handle] at hm'
    split at hm' <;> exact ⟨m', hm', hgenerates, howns⟩
  | _ => exact ⟨m', hm', hgenerates, howns⟩

/-! ### The claim section -/

/-- The manager after the remote generation has been reserved, if one is needed. -/
inductive SlotTaken (e : Surroundings) (t : TaskId) (m : Meta) (s : Plant) : Manager → Prop
  | other (h : platformOf m ≠ "dola") : SlotTaken e t m s s.manager
  | unowned (h : platformOf m = "dola") (howner : m.ownerTokenHash = "") :
      SlotTaken e t m s
        { s.manager with
          remoteGenerationReservations :=
            s.manager.remoteGenerationReservations.set t m.ownerTokenHash }
  | owned (h : platformOf m = "dola") (howner : m.ownerTokenHash ≠ "")
      (hroom : ((remoteGenerationOwnerState e s).remoteOwnerCounts m.ownerTokenHash : Int) +
        (remoteGenerationOwnerState e s).remoteReserved m.ownerTokenHash <
          remoteLimit (remoteGenerationOwnerState e s).remoteOwnerLimits m.ownerTokenHash) :
      SlotTaken e t m s
        { remoteGenerationOwnerState e s with
          remoteGenerationReservations :=
            (remoteGenerationOwnerState e s).remoteGenerationReservations.set t m.ownerTokenHash }

/-- What the section can do with a candidate. -/
theorem tryReserve_cases :
    ((tryReserve C e t m s).1 ≠ .accepted ∧ ((tryReserve C e t m s).2 = s.manager ∨
      (tryReserve C e t m s).2 = remoteGenerationOwnerState e s)) ∨
    ((tryReserve C e t m s).1 = .accepted ∧ refusal C e m s = none ∧
      ∃ M, SlotTaken e t m s M ∧ (tryReserve C e t m s).2 = reserveClasses C t m M) := by
  cases hrefusal : refusal C e m s with
  | some deferred =>
    refine .inl ⟨?_, .inl ?_⟩
    · simp only [tryReserve, hrefusal]
      rintro rfl
      simp only [refusal] at hrefusal
      split at hrefusal
      · cases hrefusal
      split at hrefusal
      · cases hrefusal
      split at hrefusal
      · cases hrefusal
      split at hrefusal <;> cases hrefusal
    · simp only [tryReserve, hrefusal]
  | none =>
    by_cases hdola : platformOf m = "dola"
    · by_cases howner : m.ownerTokenHash = ""
      · refine .inr ⟨?_, rfl, _, .unowned hdola howner, ?_⟩ <;>
          simp [tryReserve, hrefusal, hdola, reserveRemoteGenerationSlot, howner]
      · by_cases hroom : remoteLimit (remoteGenerationOwnerState e s).remoteOwnerLimits
            m.ownerTokenHash ≤
          (remoteGenerationOwnerState e s).remoteOwnerCounts m.ownerTokenHash +
            (remoteGenerationOwnerState e s).remoteReserved m.ownerTokenHash
        · refine .inl ⟨?_, .inr ?_⟩ <;>
            simp [tryReserve, hrefusal, hdola, reserveRemoteGenerationSlot, howner, hroom]
        · refine .inr ⟨?_, rfl, _, .owned hdola howner (not_le.mp hroom), ?_⟩ <;>
            simp [tryReserve, hrefusal, hdola, reserveRemoteGenerationSlot, howner, hroom]
    · refine .inr ⟨?_, rfl, _, .other hdola, ?_⟩ <;> simp [tryReserve, hrefusal, hdola]

/-- A refresh changes what is remembered of the owners only. -/
theorem remoteGenerationOwnerState_eq : ∃ counts limits refreshedAt,
    remoteGenerationOwnerState e s =
      { s.manager with
        remoteOwnerCounts := counts, remoteOwnerLimits := limits
        remoteOwnerRefreshedAt := refreshedAt } := by
  unfold remoteGenerationOwnerState
  dsimp only
  split
  · split
    · exact ⟨_, _, _, rfl⟩
    · exact ⟨_, s.manager.remoteOwnerLimits, s.manager.remoteOwnerRefreshedAt, rfl⟩
  · exact ⟨s.manager.remoteOwnerCounts, _, _, rfl⟩

theorem card_unreserved_le (owner : String) : (s.unreserved C owner).card ≤ submittedCounts s.world.tasks owner := by
  refine (Finset.card_le_card Finset.sdiff_subset).trans ?_
  refine Dict.card_keysWhere_le (q := fun _ m => generatesFor owner m) s.world.tasks fun t m h => ?_
  exact (Bool.and_eq_true _ _ ▸ h).1

/-- After a refresh that was due, the counts cover the submitted tasks without a reservation. -/
theorem counted_refreshed (h : RemoteInv C s) (howner : owner ≠ "")
    (hdue : s.manager.remoteOwnerRefreshedAt = 0 → second ≤ e.loopTime ∧ e.countsReadable = true) :
    (s.unreserved C owner).card ≤ (remoteGenerationOwnerState e s).remoteOwnerCounts owner := by
  have hcounts := card_unreserved_le (C := C) (s := s) owner
  unfold remoteGenerationOwnerState
  dsimp only
  split
  · split <;> exact hcounts
  · rename_i hstale
    refine h.counted (fun hinvalid => hstale ?_) owner howner
    obtain ⟨htime, hreadable⟩ := hdue hinvalid
    rw [hinvalid]
    exact ⟨by omega, hreadable⟩

theorem remoteInv_refreshed (h : RemoteInv C s) :
    RemoteInv C { s with manager := remoteGenerationOwnerState e s } := by
  have hcounts : ∀ owner, (s.unreserved C owner).card ≤ submittedCounts s.world.tasks owner :=
    card_unreserved_le
  unfold remoteGenerationOwnerState
  dsimp only
  split
  · split
    · exact ⟨h.within, fun _ owner _ => hcounts owner, fun owner => le_refl _⟩
    · exact ⟨h.within, fun _ owner _ => hcounts owner, h.limits⟩
  · exact h

/-- A new reservation, where there is room for it. -/
theorem remoteInv_reserve (h : RemoteInv C s)
    (hfree : s.manager.remoteGenerationReservations.get? t = none)
    (hroom : owner ≠ "" → ((s.unreserved C owner).card + (s.manager.reservedFor owner).card : Int) <
      remoteLimit s.limits owner) :
    RemoteInv C { s with manager := { s.manager with
      remoteGenerationReservations := s.manager.remoteGenerationReservations.set t owner } } := by
  let M : Manager := { s.manager with
    remoteGenerationReservations := s.manager.remoteGenerationReservations.set t owner }
  have hkeeps : ∀ o, s.manager.reservedFor o ⊆ M.reservedFor o := by
    intro o j hj
    obtain ⟨v, hget, hv⟩ := (Dict.mem_keysWhere _).mp hj
    have htj : t ≠ j := by
      rintro rfl
      rw [hfree] at hget
      cases hget
    exact (Dict.mem_keysWhere _).mpr ⟨v, (Dict.get?_set_of_ne _ _ htj).trans hget, hv⟩
  have hadds : ∀ o, M.reservedFor o ⊆ insert t (s.manager.reservedFor o) := by
    intro o j hj
    obtain ⟨v, hget, hv⟩ := (Dict.mem_keysWhere _).mp hj
    by_cases htj : t = j
    · rw [htj]
      exact Finset.mem_insert_self ..
    · rw [Dict.get?_set_of_ne _ _ htj] at hget
      exact Finset.mem_insert_of_mem ((Dict.mem_keysWhere _).mpr ⟨v, hget, hv⟩)
  have hothers : ∀ o, o ≠ owner → M.reservedFor o ⊆ s.manager.reservedFor o := by
    intro o ho j hj
    obtain ⟨v, hget, hv⟩ := (Dict.mem_keysWhere _).mp hj
    by_cases htj : t = j
    · subst htj
      rw [Dict.get?_set_self] at hget
      obtain rfl : owner = v := Option.some.inj hget
      exact absurd (beq_iff_eq.mp hv).symm ho
    · rw [Dict.get?_set_of_ne _ _ htj] at hget
      exact (Dict.mem_keysWhere _).mpr ⟨v, hget, hv⟩
  have hunreserved : ∀ o, ((s.submittedHere C o) \ M.reservedFor o).card ≤
      (s.unreserved C o).card :=
    fun o => Finset.card_le_card (Finset.sdiff_subset_sdiff (subset_refl _) (hkeeps o))
  refine ⟨fun o ho => ?_, fun hvalid o ho => (hunreserved o).trans (h.counted hvalid o ho),
    h.limits⟩
  show (((s.submittedHere C o) \ M.reservedFor o).card + (M.reservedFor o).card : Int) ≤ _
  have hless := hunreserved o
  by_cases hsame : o = owner
  · subst hsame
    have hcard := (Finset.card_le_card (hadds o)).trans (Finset.card_insert_le _ _)
    have hlimit := hroom ho
    show _ ≤ remoteLimit s.limits o
    omega
  · have hcard := Finset.card_le_card (hothers o hsame)
    have hwithin := h.within o ho
    show _ ≤ remoteLimit s.limits o
    omega

theorem SlotTaken.remoteInv {M : Manager} (hslot : SlotTaken e t m s M) (h : RemoteInv C s)
    (hfree : s.manager.remoteGenerationReservations.get? t = none)
    (hdue : platformOf m = "dola" → s.manager.remoteOwnerRefreshedAt = 0 →
      second ≤ e.loopTime ∧ e.countsReadable = true) :
    RemoteInv C { s with manager := M } := by
  cases hslot with
  | other hplatform => exact h
  | unowned hdola howner => exact remoteInv_reserve h hfree fun hne => absurd howner hne
  | owned hdola howner hroom =>
    have hcounted := counted_refreshed h howner (hdue hdola)
    have hrefreshed := remoteInv_refreshed (e := e) h
    have hlimit : remoteLimit (remoteGenerationOwnerState e s).remoteOwnerLimits m.ownerTokenHash ≤
        remoteLimit s.limits m.ownerTokenHash := hrefreshed.limits m.ownerTokenHash
    obtain ⟨counts, limits, refreshedAt, hsame⟩ := remoteGenerationOwnerState_eq (e := e) (s := s)
    have hreserved : (remoteGenerationOwnerState e s).remoteReserved m.ownerTokenHash =
        (s.manager.reservedFor m.ownerTokenHash).card := by
      rw [Manager.reservedFor, Dict.card_keysWhere, hsame]
      rfl
    have hunreserved : ({ s with manager := remoteGenerationOwnerState e s } : Plant).unreserved C
        m.ownerTokenHash = s.unreserved C m.ownerTokenHash := by
      rw [hsame]
      rfl
    refine remoteInv_reserve hrefreshed ?_ fun _ => ?_
    · show (remoteGenerationOwnerState e s).remoteGenerationReservations.get? t = none
      rw [hsame]
      exact hfree
    · rw [hunreserved]
      have hkeys : (remoteGenerationOwnerState e s).reservedFor m.ownerTokenHash =
          s.manager.reservedFor m.ownerTokenHash := by
        rw [hsame]
        rfl
      show (_ + ((remoteGenerationOwnerState e s).reservedFor m.ownerTokenHash).card : Int) < _
      rw [hkeys]
      show _ < remoteLimit s.limits m.ownerTokenHash
      rw [hreserved] at hroom
      omega

/-- A loop's reservations are not touched by those of another task. -/
theorem HasReservations.grown {M M' : Manager} {held : Holding} (h : HasReservations C M held)
    (hbrowser : M.browserTaskReservations ⊆ M'.browserTaskReservations)
    (hdoubao : M.doubaoBrowserReservations ⊆ M'.doubaoBrowserReservations)
    (hqianwen : M.qianwenReferenceReservations ⊆ M'.qianwenReferenceReservations)
    (himages : M.claimedImagePreparations.contains held.task = true →
      M'.claimedImagePreparations.contains held.task = true)
    (hremote : M'.remoteGenerationReservations.get? held.task =
      M.remoteGenerationReservations.get? held.task) : HasReservations C M' held := by
  refine ⟨fun hclass => hbrowser (h.browser hclass), fun hclass => hdoubao (h.doubao hclass),
    fun hclass => hqianwen (h.qianwen hclass), fun hclass => himages (h.images hclass),
    fun hclass => ?_⟩
  rw [hremote]
  exact h.remote hclass

/-- What a reservation of the remote generation leaves alone. -/
structure SameClasses (M M' : Manager) : Prop where
  browser : M'.browserTaskReservations = M.browserTaskReservations
  doubao : M'.doubaoBrowserReservations = M.doubaoBrowserReservations
  qianwen : M'.qianwenReferenceReservations = M.qianwenReferenceReservations
  images : M'.claimedImagePreparations = M.claimedImagePreparations

theorem SlotTaken.sameClasses {M : Manager} (hslot : SlotTaken e t m s M) :
    SameClasses s.manager M := by
  obtain ⟨counts, limits, refreshedAt, hsame⟩ := remoteGenerationOwnerState_eq (e := e) (s := s)
  cases hslot with
  | other hplatform => exact ⟨rfl, rfl, rfl, rfl⟩
  | unowned hdola howner => exact ⟨rfl, rfl, rfl, rfl⟩
  | owned hdola howner hroom =>
    rw [hsame]
    exact ⟨rfl, rfl, rfl, rfl⟩

theorem SlotTaken.get?_of_ne {M : Manager} (hslot : SlotTaken e t m s M) {j : TaskId}
    (htj : t ≠ j) : M.remoteGenerationReservations.get? j =
      s.manager.remoteGenerationReservations.get? j := by
  obtain ⟨counts, limits, refreshedAt, hsame⟩ := remoteGenerationOwnerState_eq (e := e) (s := s)
  cases hslot with
  | other hplatform => rfl
  | unowned hdola howner => exact Dict.get?_set_of_ne _ _ htj
  | owned hdola howner hroom =>
    rw [hsame]
    exact Dict.get?_set_of_ne _ _ htj

theorem SlotTaken.get?_self {M : Manager} (hslot : SlotTaken e t m s M)
    (hdola : platformOf m = "dola") :
    M.remoteGenerationReservations.get? t = some m.ownerTokenHash := by
  cases hslot with
  | other hplatform => exact absurd hdola hplatform
  | unowned hdola howner => exact Dict.get?_set_self _ _ _
  | owned hdola howner hroom => exact Dict.get?_set_self _ _ _

/-- The checks leave a place in every class that the task needs. -/
theorem room_of_accepted (h : refusal C e m s = none) :
    ((taskBrowserResourceClass C m).1 = true →
      s.manager.browserTaskReservations.card < C.browserTaskConcurrency) ∧
    (platformOf m = "doubao" →
      s.manager.doubaoBrowserReservations.card < C.doubaoBrowserConcurrency) ∧
    ((taskBrowserResourceClass C m).2 = true →
      s.manager.qianwenReferenceReservations.card < C.qianwenReferenceConcurrency) ∧
    (isImageSubmission m = true →
      s.manager.claimedImagePreparations.size < C.imagePreparationConcurrency) := by
  simp only [refusal] at h
  split at h
  · cases h
  rename_i hbrowser
  split at h
  · cases h
  rename_i hdoubao
  split at h
  · cases h
  rename_i hqianwen
  split at h
  · cases h
  rename_i himages
  refine ⟨fun hclass => ?_, fun hclass => ?_, fun hclass => ?_, fun hclass => ?_⟩
  · exact not_le.mp fun hfull => hbrowser ⟨hclass, hfull⟩
  · exact not_le.mp fun hfull => hdoubao ⟨hclass, hfull⟩
  · exact not_le.mp fun hfull => hqianwen ⟨hclass, hfull⟩
  · exact not_le.mp fun hfull => himages ⟨hclass, .inl hfull⟩

/-- One more reservation where there is a place. -/
theorem card_insert_if_le {reservations : Finset TaskId} {wanted : Prop} [Decidable wanted]
    {limit : Nat} (hle : reservations.card ≤ limit) (hroom : wanted → reservations.card < limit) :
    (if wanted then insert t reservations else reservations).card ≤ limit := by
  split
  · rename_i hwanted
    have hless := hroom hwanted
    have hinsert := Finset.card_insert_le t reservations
    omega
  · exact hle

theorem subset_insert_if {reservations : Finset TaskId} {wanted : Prop} [Decidable wanted] :
    reservations ⊆ if wanted then insert t reservations else reservations := by
  split
  · exact Finset.subset_insert t reservations
  · exact subset_refl _

/-- The loop that has been given a task that no loop holds. -/
theorem managerInv_accepted {M : Manager} {i : Nat} (h : ManagerInv C s.manager known)
    (hrefusal : refusal C e m s = none) (hslot : SlotTaken e t m s M)
    (hheld : Unheld known t) :
    ManagerInv C (reserveClasses C t m M)
      (Function.update known i (some ⟨t, m, isImageSubmission m⟩)) := by
  obtain ⟨hbrowser, hdoubao, hqianwen, himages⟩ := room_of_accepted hrefusal
  have hsame := hslot.sameClasses
  have himageKept : ∀ j, t ≠ j → s.manager.claimedImagePreparations.contains j = true →
      (reserveClasses C t m M).claimedImagePreparations.contains j = true := by
    intro j htj hcontains
    simp only [reserveClasses, hsame.images]
    split
    · simpa [htj] using hcontains
    · exact hcontains
  refine ⟨?_, ?_, ?_, ?_, ?_, ?_⟩
  · intro j j' held held' hj hj' htask
    by_cases hji : j = i
    · subst hji
      rw [Function.update_self] at hj
      obtain rfl := Option.some.inj hj
      by_cases hj'i : j' = j
      · exact hj'i.symm
      · rw [Function.update_of_ne hj'i] at hj'
        exact absurd htask.symm (hheld j' held' hj')
    · rw [Function.update_of_ne hji] at hj
      by_cases hj'i : j' = i
      · subst hj'i
        rw [Function.update_self] at hj'
        obtain rfl := Option.some.inj hj'
        exact absurd htask (hheld j held hj)
      · rw [Function.update_of_ne hj'i] at hj'
        exact h.distinct j j' held held' hj hj' htask
  · intro j held hj
    by_cases hji : j = i
    · subst hji
      rw [Function.update_self] at hj
      obtain rfl := Option.some.inj hj
      refine ⟨fun hclass => ?_, fun hclass => ?_, fun hclass => ?_, fun hclass => ?_,
        fun hclass => hslot.get?_self hclass⟩
      · simp only [reserveClasses, if_pos hclass]
        exact Finset.mem_insert_self ..
      · simp only [reserveClasses, if_pos hclass]
        exact Finset.mem_insert_self ..
      · simp only [reserveClasses, if_pos hclass]
        exact Finset.mem_insert_self ..
      · simp only [reserveClasses, if_pos hclass]
        simp
    · rw [Function.update_of_ne hji] at hj
      have htj : t ≠ held.task := (hheld j held hj).symm
      refine (h.reserved j held hj).grown ?_ ?_ ?_ (himageKept _ htj) (hslot.get?_of_ne htj)
      · simp only [reserveClasses, hsame.browser]
        exact subset_insert_if
      · simp only [reserveClasses, hsame.doubao]
        exact subset_insert_if
      · simp only [reserveClasses, hsame.qianwen]
        exact subset_insert_if
  · simp only [reserveClasses, hsame.browser]
    exact card_insert_if_le h.browser hbrowser
  · simp only [reserveClasses, hsame.doubao]
    exact card_insert_if_le h.doubao hdoubao
  · simp only [reserveClasses, hsame.qianwen]
    exact card_insert_if_le h.qianwen hqianwen
  · simp only [reserveClasses, hsame.images]
    split
    · rename_i hclass
      have hless := himages hclass
      have hset := Dict.size_set_le s.manager.claimedImagePreparations t m.ownerTokenHash
      omega
    · exact h.images

theorem plantInv_tryReserve {i : Nat} (h : PlantInv C s known)
    (hshared : NothingShared C (Unheld known) e (.inl (.tryReserve t m)) s) :
    PlantInv C { s with manager := (tryReserve C e t m s).2 } (Function.update known i
      (loopKnowledge.learn (known i) (.tryReserve t m) (tryReserve C e t m s).1)) := by
  obtain ⟨hheld, hfree, hdue⟩ := hshared
  rcases tryReserve_cases (C := C) (e := e) (t := t) (m := m) (s := s) with
    ⟨hrefused, hmanager⟩ | ⟨haccepted, hrefusal, M, hslot, hmanager⟩
  · have hknown : Function.update known i
        (loopKnowledge.learn (known i) (.tryReserve t m) (tryReserve C e t m s).1) = known := by
      cases hadmission : (tryReserve C e t m s).1 with
      | accepted => exact absurd hadmission hrefused
      | deferred reason category delaySeconds => exact Function.update_eq_self i known
    rw [hknown]
    rcases hmanager with hsame | hrefreshed
    · rw [hsame]
      exact h
    · rw [hrefreshed]
      refine ⟨?_, remoteInv_refreshed h.remote⟩
      obtain ⟨counts, limits, refreshedAt, hsame⟩ := remoteGenerationOwnerState_eq (e := e) (s := s)
      show ManagerInv C (remoteGenerationOwnerState e s) known
      rw [hsame]
      refine ⟨h.manager.distinct, fun j held hj => ?_, h.manager.browser, h.manager.doubao,
        h.manager.qianwen, h.manager.images⟩
      have hold := h.manager.reserved j held hj
      exact ⟨hold.browser, hold.doubao, hold.qianwen, hold.images, hold.remote⟩
  · rw [haccepted, hmanager]
    have hremote := hslot.remoteInv h.remote hfree hdue
    exact ⟨managerInv_accepted h.manager hrefusal hslot hheld,
      hremote.within, hremote.counted, hremote.limits⟩

/-! ### The end of an iteration -/

/-- A set without the task of another loop still holds this loop's task. -/
theorem distinct_of_ne {i j : Nat} {held held' : Holding} (h : ManagerInv C s.manager known)
    (hi : known i = some held) (hj : known j = some held') (hij : j ≠ i) :
    held'.task ≠ held.task :=
  fun htask => hij (h.distinct j i held' held hj hi htask)

theorem managerInv_releaseImagePreparation {i : Nat} {held : Holding}
    (h : ManagerInv C s.manager known) (hi : known i = some held) :
    ManagerInv C
      { s.manager with
        claimedImagePreparations := s.manager.claimedImagePreparations.erase held.task }
      (Function.update known i (some { held with preparing := false })) := by
  refine ⟨?_, ?_, h.browser, h.doubao, h.qianwen, ?_⟩
  · -- The tasks are those held before.
    have htask : ∀ j held', Function.update known i (some { held with preparing := false }) j =
        some held' → ∃ before, known j = some before ∧ before.task = held'.task := by
      intro j held' hj
      by_cases hji : j = i
      · subst hji
        rw [Function.update_self] at hj
        obtain rfl := Option.some.inj hj
        exact ⟨held, hi, rfl⟩
      · rw [Function.update_of_ne hji] at hj
        exact ⟨held', hj, rfl⟩
    intro j j' held₁ held₂ hj hj' hsame
    obtain ⟨before, hbefore, heq⟩ := htask j held₁ hj
    obtain ⟨before', hbefore', heq'⟩ := htask j' held₂ hj'
    exact h.distinct j j' before before' hbefore hbefore' (by rw [heq, heq', hsame])
  · intro j held' hj
    by_cases hji : j = i
    · subst hji
      rw [Function.update_self] at hj
      obtain rfl := Option.some.inj hj
      have hold := h.reserved j held hi
      exact ⟨hold.browser, hold.doubao, hold.qianwen, nofun, hold.remote⟩
    · rw [Function.update_of_ne hji] at hj
      have hother := distinct_of_ne h hi hj hji
      refine (h.reserved j held' hj).grown (subset_refl _) (subset_refl _) (subset_refl _) ?_ rfl
      intro hcontains
      simpa [hother] using hcontains
  · exact (Dict.size_erase_le _ _).trans h.images

theorem managerInv_discard {i : Nat} {held : Holding} (h : ManagerInv C s.manager known)
    (hi : known i = some held) :
    ManagerInv C (s.manager.discard held.task) (Function.update known i none) := by
  have hothers : ∀ j held', Function.update known i none j = some held' →
      known j = some held' ∧ held'.task ≠ held.task := by
    intro j held' hj
    by_cases hji : j = i
    · subst hji
      rw [Function.update_self] at hj
      cases hj
    · rw [Function.update_of_ne hji] at hj
      exact ⟨hj, distinct_of_ne h hi hj hji⟩
  refine ⟨?_, ?_, ?_, ?_, ?_, ?_⟩
  · intro j j' held₁ held₂ hj hj' hsame
    exact h.distinct j j' held₁ held₂ (hothers j held₁ hj).1 (hothers j' held₂ hj').1 hsame
  · intro j held' hj
    obtain ⟨hknown, hother⟩ := hothers j held' hj
    have hold := h.reserved j held' hknown
    refine ⟨fun hclass => ?_, fun hclass => ?_, fun hclass => ?_, fun hclass => ?_,
      fun hclass => ?_⟩
    · exact Finset.mem_erase.mpr ⟨hother, hold.browser hclass⟩
    · exact Finset.mem_erase.mpr ⟨hother, hold.doubao hclass⟩
    · exact Finset.mem_erase.mpr ⟨hother, hold.qianwen hclass⟩
    · simpa [Manager.discard, hother] using hold.images hclass
    · simpa [Manager.discard, hother] using hold.remote hclass
  · exact (Finset.card_le_card (Finset.erase_subset _ _)).trans h.browser
  · exact (Finset.card_le_card (Finset.erase_subset _ _)).trans h.doubao
  · exact (Finset.card_le_card (Finset.erase_subset _ _)).trans h.qianwen
  · exact (Dict.size_erase_le _ _).trans h.images

/-- A discarded reservation may be of a submitted task, which the counts take over. -/
theorem remoteInv_discard (h : RemoteInv C s) :
    RemoteInv C { s with manager := s.manager.discard t } := by
  have hreserved : ∀ o, (s.manager.discard t).reservedFor o = (s.manager.reservedFor o).erase t := by
    intro o
    ext j
    rw [Finset.mem_erase, Manager.reservedFor, Manager.reservedFor, Dict.mem_keysWhere,
      Dict.mem_keysWhere]
    by_cases hj : j = t
    · simp [Manager.discard, hj]
    · simp [Manager.discard, hj]
  refine ⟨fun o ho => ?_, fun hvalid o ho => ?_, h.limits⟩
  · show (((s.submittedHere C o) \ (s.manager.discard t).reservedFor o).card +
      ((s.manager.discard t).reservedFor o).card : Int) ≤ remoteLimit s.limits o
    have hwithin := h.within o ho
    rw [hreserved o]
    by_cases ht : t ∈ s.manager.reservedFor o
    · have hsub : s.submittedHere C o \ (s.manager.reservedFor o).erase t ⊆
          insert t (s.unreserved C o) := by
        intro j hj
        obtain ⟨hsubmitted, hnot⟩ := Finset.mem_sdiff.mp hj
        by_cases hjt : j = t
        · rw [hjt]
          exact Finset.mem_insert_self ..
        · refine Finset.mem_insert_of_mem (Finset.mem_sdiff.mpr ⟨hsubmitted, fun hin => hnot ?_⟩)
          exact Finset.mem_erase.mpr ⟨hjt, hin⟩
      have hcard := (Finset.card_le_card hsub).trans (Finset.card_insert_le _ _)
      have hless := Finset.card_erase_add_one ht
      omega
    · rw [Finset.erase_eq_of_notMem ht]
      exact hwithin
  · -- The counts stay valid only where no reservation with an owner is discarded.
    have hnone : ¬ (s.manager.remoteGenerationReservations.get? t).any (· != "") = true := by
      intro hany
      exact hvalid (if_pos hany)
    have hbefore : s.manager.remoteOwnerRefreshedAt ≠ 0 := by
      have hkept : (s.manager.discard t).remoteOwnerRefreshedAt =
          s.manager.remoteOwnerRefreshedAt := if_neg hnone
      rwa [← hkept]
    have hkeep : (s.manager.discard t).reservedFor o = s.manager.reservedFor o := by
      rw [hreserved o]
      refine Finset.erase_eq_of_notMem fun ht => hnone ?_
      obtain ⟨v, hget, hv⟩ := (Dict.mem_keysWhere _).mp ht
      rw [hget, Option.any_some, beq_iff_eq.mp hv]
      simpa using ho
    show ((s.submittedHere C o) \ (s.manager.discard t).reservedFor o).card ≤ _
    rw [hkeep]
    exact h.counted hbefore o ho

end Steps

/-! ### Runs -/

section Runs

variable (C : Capacity)

theorem one_le_remoteLimit (limits : String → Option Int) (owner : String) :
    1 ≤ remoteLimit limits owner :=
  le_max_left ..

theorem plantInv_start {s : Plant} (h : JustStarted C s) : PlantInv C s fun _ => none := by
  have hunreserved : ∀ owner, s.unreserved C owner = ∅ := by
    intro owner
    rw [Finset.eq_empty_iff_forall_notMem]
    intro t ht
    obtain ⟨m, -, -, howns⟩ := mem_submittedHere.mp (Finset.mem_sdiff.mp ht).1
    rw [h.claimers t] at howns
    cases howns
  have hreserved : ∀ owner, s.manager.reservedFor owner = ∅ := by
    intro owner
    rw [h.manager]
    rfl
  refine ⟨?_, fun owner _ => ?_, fun hvalid => ?_, fun owner => ?_⟩
  · rw [h.manager]
    refine ⟨fun i j held held' hi => ?_, fun i held hi => ?_, Nat.zero_le _, Nat.zero_le _,
      Nat.zero_le _, Nat.zero_le _⟩
    · cases hi
    · cases hi
  · rw [hunreserved, hreserved]
    have hlimit := one_le_remoteLimit s.limits owner
    simp only [Finset.card_empty]
    omega
  · rw [h.manager] at hvalid
    exact absurd rfl hvalid
  · have hnone : remoteLimit (fun _ => none) owner = 1 := by simp [remoteLimit]
    rw [h.manager]
    show remoteLimit (fun _ => none) owner ≤ _
    rw [hnone]
    exact one_le_remoteLimit s.limits owner

theorem plantInv_spawn {s : Plant} {known : Nat → Option Holding} (i : Nat)
    (h : PlantInv C s known) : PlantInv C s (Function.update known i none) := by
  have hbefore : ∀ j held, Function.update known i none j = some held → known j = some held := by
    intro j held hj
    by_cases hji : j = i
    · subst hji
      rw [Function.update_self] at hj
      cases hj
    · rwa [Function.update_of_ne hji] at hj
  refine ⟨⟨?_, ?_, h.manager.browser, h.manager.doubao, h.manager.qianwen, h.manager.images⟩,
    h.remote⟩
  · intro j j' held held' hj hj' hsame
    exact h.manager.distinct j j' held held' (hbefore j held hj) (hbefore j' held' hj') hsame
  · intro j held hj
    exact h.manager.reserved j held (hbefore j held hj)

theorem keeps_plantInv : plantKnowledge.KeepsWith (plantHandle C) (PlantInv C)
    fun known _ e o s => NothingShared C (Unheld known) e o s := by
  intro i e o s known h hmay hshared
  refine ⟨by cases o <;> trivial, ?_⟩
  cases o with
  | inr o =>
    have hknown : Function.update known i (known i) = known := Function.update_eq_self i known
    show PlantInv C (plantHandle C e (.inr o) s).2 (Function.update known i (known i))
    rw [hknown]
    exact ⟨h.manager, h.remote.of_records rfl rfl fun owner => unreserved_step hshared⟩
  | inl o =>
    cases o with
    | tryReserve t m => exact plantInv_tryReserve h hshared
    | setLimits limits =>
      have hknown : Function.update known i (known i) = known := Function.update_eq_self i known
      show PlantInv C { s with limits } (Function.update known i (known i))
      rw [hknown]
      have hraised : ∀ owner, remoteLimit s.limits owner ≤ remoteLimit limits owner := hshared
      exact ⟨h.manager, fun owner howner => (h.remote.within owner howner).trans (hraised owner),
        h.remote.counted, fun owner => (h.remote.limits owner).trans (hraised owner)⟩
    | releaseImagePreparation t =>
      obtain ⟨held, hi, rfl⟩ : ∃ held, known i = some held ∧ held.task = t := hmay
      have hremote := h.remote
      show PlantInv C _ (Function.update known i
        ((known i).map fun held => { held with preparing := false }))
      rw [hi]
      exact ⟨managerInv_releaseImagePreparation h.manager hi, hremote.within, hremote.counted,
        hremote.limits⟩
    | discard t =>
      obtain ⟨held, hi, rfl⟩ : ∃ held, known i = some held ∧ held.task = t := hmay
      exact ⟨managerInv_discard h.manager hi, remoteInv_discard h.remote⟩

/-- No call is in progress. -/
def Plant.atRest (s : Plant) : PlantRun where
  config := { shared := s, threads := fun _ => .ret () }
  known _ := none

/-- From the start of a process, and in any run in which no loop is given a task that another one
holds, no stale count is used, only reserved tasks are submitted and no limit is lowered: every
task in execution has its reservations, and the process keeps to its limits. -/
theorem capacity_kept (labels : List (Label LoopRequest Surroundings)) (s : Plant)
    (hstart : JustStarted C s)
    (hshared : AllSteps (plantStep C)
      (OnThreads fun known _ e o s => NothingShared C (Unheld known) e o s) labels s.atRest) :
    Throughout (plantStep C) (fun t => WithinCapacity C t.config.shared t.known) labels
      s.atRest := by
  have hfollows : plantKnowledge.Follows (fun _ => True) (PlantInv C) s.atRest :=
    ⟨fun _ => trivial, plantInv_start C hstart⟩
  have hall := follows_run_with ensures_loopRequest (fun s known i h _ => plantInv_spawn C i h)
    (keeps_plantInv C) hfollows hshared
  exact hall.mono fun t ht => ht.inv.within

end Runs

/-! ### A loop that ends under another one -/

section Sample

def sampleCapacity : Capacity where
  chars := .ascii
  process := "p"
  browserTaskConcurrency := 2
  doubaoBrowserConcurrency := 1
  qianwenReferenceConcurrency := 1
  imagePreparationConcurrency := 1
  isAiStudioModel _ := false

/-- A process that has just started, and a queued task. -/
def samplePlant : Plant where
  world :=
    { redis := { ready := ["t"], known := fun t => t == "t" }
      tasks := Dict.empty.set "t" { status := .pending, ownerTokenHash := "o" }
      results := fun _ => {}
      paused := false }
  manager := {}
  limits _ := some 2
  claimers _ := ""

theorem samplePlant_justStarted : JustStarted sampleCapacity samplePlant :=
  ⟨rfl, fun _ => rfl⟩

/-- The condition in a run in which no limit is set, which can be evaluated. -/
def SharesNothing (C : Capacity) (unheld : TaskId → Prop) (e : Surroundings) (o : LoopSig.Op)
    (s : Plant) : Prop :=
  match o with
  | .inl (.tryReserve t m) => NothingShared C unheld e (.inl (.tryReserve t m)) s
  | .inr (.write t o) => NothingShared C unheld e (.inr (.write t o)) s
  | .inl (.setLimits _) => False
  | _ => True

instance (C : Capacity) (unheld : TaskId → Prop) [DecidablePred unheld] (e : Surroundings)
    (o : LoopSig.Op) (s : Plant) : Decidable (SharesNothing C unheld e o s) := by
  unfold SharesNothing
  split
  · exact inferInstanceAs (Decidable (_ ∧ _))
  · exact inferInstanceAs (Decidable (_ → _))
  · infer_instance
  · infer_instance

theorem SharesNothing.shared {C : Capacity} {unheld : TaskId → Prop} {e : Surroundings}
    {o : LoopSig.Op} {s : Plant} (h : SharesNothing C unheld e o s) :
    NothingShared C unheld e o s := by
  cases o with
  | inl o =>
    cases o with
    | tryReserve t m => exact h
    | setLimits limits => exact h.elim
    | _ => trivial
  | inr o =>
    cases o with
    | write t o => exact h
    | _ => trivial

/-- Loops that never run hold nothing. -/
theorem shared_of_bounded {C : Capacity} {n : Nat} {labels : List (Label LoopRequest Surroundings)}
    {t : PlantRun} (hthreads : ∀ label ∈ labels, label.thread < n)
    (hidle : ∀ i, n ≤ i → t.known i = none)
    (h : AllSteps (plantStep C) (OnThreads fun known _ e o s =>
      SharesNothing C (fun t => ∀ j < n, ∀ h ∈ known j, h.task ≠ t) e o s) labels t) :
    AllSteps (plantStep C)
      (OnThreads fun known _ e o s => NothingShared C (Unheld known) e o s) labels t := by
  refine allSteps_of_bounded hthreads hidle (fun known i e o s hrest hshares => ?_) h
  have hunheld : (fun t => ∀ j < n, ∀ h ∈ known j, h.task ≠ t) = Unheld known := by
    funext t
    refine propext ⟨fun hsome j => ?_, fun hall j _ => hall j⟩
    by_cases hj : j < n
    · exact hsome j hj
    · intro h hknown
      rw [hrest j (not_lt.mp hj)] at hknown
      cases hknown
  rw [hunheld] at hshares
  exact hshares.shared

/-- `n` operations of a thread, at one time. -/
def plantActs (i n : Nat) (now : Int) : List (Label LoopRequest Surroundings) :=
  List.replicate n (.act i { now, loopTime := now })

/-- A loop executes the task and ends. -/
def oneIteration : List (Label LoopRequest Surroundings) :=
  .spawn 0 (.iteration 1 (fun _ => none) (fun _ => 0) [] true) :: plantActs 0 22 (5 * second)

theorem capacity_kept_iteration :
    Throughout (plantStep sampleCapacity)
      (fun t => WithinCapacity sampleCapacity t.config.shared t.known) oneIteration
      samplePlant.atRest :=
  capacity_kept sampleCapacity oneIteration samplePlant samplePlant_justStarted
    (shared_of_bounded (n := 1) (by decide +kernel) (fun _ _ => rfl) (by decide +kernel))

/-- The first loop has submitted the task when a retry queues it again; a second loop claims it;
then the first one ends and discards. -/
def slowLoop : List (Label LoopRequest Surroundings) :=
  .spawn 0 (.iteration 1 (fun _ => none) (fun _ => 0)
      [.queue (.write "t" (.markSubmitted 15 (5 * second)))] true) :: plantActs 0 18 (5 * second) ++
    .spawn 1 (.other (.retry "t" (.retrySubmittedTask 3 "" 0 (6 * second)))) ::
      plantActs 1 7 (6 * second) ++
    .spawn 2 (.iteration 2 (fun _ => none) (fun _ => 0) [] true) :: plantActs 2 18 (7 * second) ++
    plantActs 0 5 (25 * second)

/-- The second loop executes the task without a reservation. -/
theorem first_loop_discards :
    JustStarted sampleCapacity samplePlant ∧
      ¬ Throughout (plantStep sampleCapacity)
        (fun t => WithinCapacity sampleCapacity t.config.shared t.known) slowLoop
        samplePlant.atRest := by
  refine ⟨samplePlant_justStarted, fun h => ?_⟩
  have hexecutes : ((run (plantStep sampleCapacity) slowLoop samplePlant.atRest).known 2).map
      (fun h => (h.task, (taskBrowserResourceClass sampleCapacity h.claimedMeta).1)) =
        some ("t", true) := by
    decide +kernel
  obtain ⟨held, hknown, hheld⟩ := Option.map_eq_some_iff.mp hexecutes
  have hreserved := (h.final.reserved 2 held hknown).browser (congrArg Prod.snd hheld)
  rw [show held.task = "t" from congrArg Prod.fst hheld] at hreserved
  exact absurd hreserved (by decide +kernel)

end Sample

end FetchTask.Queue
