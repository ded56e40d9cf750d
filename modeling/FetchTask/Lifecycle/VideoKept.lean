import FetchTask.Lib.Sum
import FetchTask.Lifecycle.RefundOnlyFailed
import FetchTask.Lifecycle.WipingCalls

/-!
A successful task keeps its video.

Queries and passes of the watchdog wipe the result of a task after a retry. The
retry returns the stored count when it changes nothing, also when another process
has finished the task, and the wiping is a transaction of its own, as is the mark
of success after the read of the video. The state remembers whether the result has
been wiped since the last submission, and whether the task was claimed after the
last mark of success; an automation submits when it sets the phase of
`begin_task_submission`.
-/

namespace FetchTask.Lifecycle

open Store Runs Knowledge

/-! ### The system -/

/-- The operations of calls on the left, those of automations on the right. -/
abbrev VideoSig : Sig := LifeSig.sum LifeSig

structure VideoWorld where
  world : World
  /-- The result has been wiped and nothing was submitted since. -/
  wiped : Bool := false
  /-- A worker has claimed the task and no success was marked since. -/
  claimed : Bool := false

/-- Whether the write takes the video away, or would if there were one. -/
def takesVideo (f : TaskResult → TaskResult) (r : TaskResult) : Bool :=
  (f r).decodedMainUrl == "" &&
    (f { r with decodedMainUrl := textOr r.decodedMainUrl "video" }).decodedMainUrl == ""

def Op.wipes : Op → World → Bool
  | .saveResult f, w => w.task.isSome && takesVideo f w.result
  | _, _ => false

/-- `begin_task_submission`. -/
def Op.submits : Op → World → Bool
  | .updateMeta _ f, w => w.task.any fun m =>
      m.submitPhase != "committing" && (f m).submitPhase == "committing"
  | _, _ => false

/-- A claim that takes effect, or a mark of success that does. -/
def Op.claims : (o : Op) → o.Res → World → Bool → Bool
  | .claimTask .., answer, _, claimed => claimed || answer == some true
  | .write _ o, _, w, claimed => claimed && !w.task.any o.marksSuccess
  | _, _, _, claimed => claimed

def videoHandle (S : Setting) : Handler VideoSig VideoWorld Env
  | e, .inl o, w =>
    let result := handle S e o w.world
    (result.1,
      { world := result.2, wiped := w.wiped || o.wipes w.world
        claimed := o.claims result.1 w.world w.claimed })
  | e, .inr o, w =>
    let result := handle S e o w.world
    (result.1,
      { world := result.2, wiped := (w.wiped || o.wipes w.world) && !o.submits w.world
        claimed := o.claims result.1 w.world w.claimed })

def Call.videoProg (S : Setting) (call : Call) : Prog VideoSig Unit :=
  if call.isAutomation then (call.prog S).inr else (call.prog S).inl

/-- What an automation may write; it sees what the calls see. -/
def automationKnowledge (S : Setting) : Knowledge LifeSig Sight where
  start := {}
  may
    -- a success is marked after a video has been read, and nothing is wiped
    | k, .write site o => ((∀ m, o.marksSuccess m = false) ∨ k.found = true) ∧
        ∀ count, wipesAfter S site o count = false
    | _, .updateMeta _ f => ∀ m, (f m).status = m.status
    | _, .updateMetaIf _ _ f => ∀ m, (f m).status = m.status
    | _, _ => True
  can _ _ := True
  learn := Sight.learn S

/-- What the calls and the automations have seen of the result. -/
def videoKnowledge (S : Setting) : Knowledge VideoSig Sight :=
  (wipeKnowledge S).sum (automationKnowledge S)

abbrev VideoRun := Tracked VideoSig VideoWorld Sight

/-- A state in which no call is at work. -/
def VideoWorld.atRest (w : VideoWorld) : VideoRun := ⟨⟨w, fun _ => .ret ()⟩, fun _ => {}⟩

abbrev videoStep (S : Setting) : Label Call Env → VideoRun → VideoRun :=
  (videoKnowledge S).step (videoHandle S) (Call.videoProg S)

/-! ### The property, and what may fall between the steps of a call -/

/-- A successful task has its video, and nothing has been wiped since its submission. -/
def VideoWorld.KeepsVideo (w : VideoWorld) : Prop :=
  ∀ m ∈ w.world.task, m.status = .success → w.world.result.decodedMainUrl ≠ "" ∧ w.wiped = false

/-- A call that has read a video and marks the success finds the video still there, and no call
between a retry and the wiping. -/
def FoundStays (quiet : Prop) (k : Sight) (o : StoreOp) (w : VideoWorld) : Prop :=
  ∀ m ∈ w.world.task, o.marksSuccess m = true → k.found = true →
    w.world.result.decodedMainUrl ≠ "" ∧ quiet

/-- A call that has seen the task unfinished, and retries with a stored count within the limit of
its caller, finds it not successful. -/
def UnfinishedStays (S : Setting) (k : Sight) (site : Site) (o : StoreOp) (w : VideoWorld) : Prop :=
  ∀ m ∈ w.world.task, k.unfinished = true → m.status = .success →
    wipesAfter S site o (o.storedCount m) = false

/-- No video is stored for a submission whose result has been wiped. -/
def StoresCurrent (f : TaskResult → TaskResult) (w : VideoWorld) : Prop :=
  w.world.task.isSome = true → w.wiped = true → (f w.world.result).decodedMainUrl = ""

/-- An automation takes the video away after the claim of the task only, and no success was
marked since. -/
def RestartFollowsClaim (f : TaskResult → TaskResult) (w : VideoWorld) : Prop :=
  w.world.task.isSome = true → takesVideo f w.world.result = true → w.claimed = true

/-- The condition on an operation of a call that has seen `k`; `quiet` says that no call is between
a retry and the wiping. -/
def VideoSafe (S : Setting) (quiet : Prop) (k : Sight) : VideoSig.Op → VideoWorld → Prop
  | .inl (.write site o), w => UnfinishedStays S k site o w ∧ FoundStays quiet k o w
  | .inr (.write _ o), w => FoundStays quiet k o w
  | .inl (.saveResult f), w => k.cookie = true → StoresCurrent f w
  | .inr (.saveResult f), w => StoresCurrent f w ∧ RestartFollowsClaim f w
  | _, _ => True

/-! ### Programs -/

section Programs

variable {S : Setting} {k : Sight}

/-- A write of an automation that marks no success. -/
theorem automation_write {site : Site} {o : Int → StoreOp} (hquiet : ∀ now, Quiet S site (o now))
    (hcalm : k.wiping = false) :
    (automationKnowledge S).Does (fun _ k' => k'.wiping = false) (fun _ k' => k'.wiping = false) k
      (do let _ ← write site o) := by
  refine Does.bind (Q := fun _ k' => k'.wiping = false) ?_ fun _ _ h => does_pure h
  refine ⟨trivial, fun now _ => ⟨⟨.inl (hquiet now).marks, (hquiet now).wipes⟩, fun r _ => ?_⟩⟩
  cases r with
  | none => exact rfl
  | some count => exact show (k.wiping || _) = false by simp [hcalm, (hquiet now).wipes]

theorem automation_ensures (o : AutomationWrite) :
    (automationKnowledge S).Does (fun _ k => k.wiping = false) (fun _ k => k.wiping = false) {}
      o.run := by
  cases o with
  | pending reason => exact automation_write (fun _ => ⟨fun _ => rfl, fun _ => rfl⟩) rfl
  | submitted delay => exact automation_write (fun _ => ⟨fun _ => rfl, fun _ => rfl⟩) rfl
  | success =>
    refine ⟨trivial, fun result _ => ?_⟩
    show (automationKnowledge S).Does _ _ _ (when _ _ : Run Unit)
    unfold when
    split
    · rename_i hvideo
      have hfound : (Sight.loads S {} result).found = true := by simp [Sight.loads, hvideo]
      refine Does.bind (Q := fun _ k => k.wiping = false) ?_ fun _ _ h => does_pure h
      refine ⟨trivial, fun now _ => ⟨⟨.inr hfound, fun _ => rfl⟩, fun r _ => ?_⟩⟩
      cases r <;> exact rfl
    · exact rfl
  | record e => exact ⟨trivial, fun now _ => ⟨e.status, fun written _ => by cases written <;> exact rfl⟩⟩
  | result f => exact ⟨trivial, fun _ _ => rfl⟩

theorem ensures_call {call : Call} (h : call.isAutomation = false) :
    (wipeKnowledge S).Ensures (fun _ k => k.wiping = false) {} (call.prog S) := by
  refine Ensures.bind ((steady_call h).does (.refl {}) rfl) fun result k hk => ?_
  cases result with
  | ok a => exact hk.2
  | error fault => exact hk.2

theorem ensures_videoProg (call : Call) :
    (videoKnowledge S).Ensures (fun _ k => k.wiping = false) (videoKnowledge S).start
      (call.videoProg S) := by
  unfold Call.videoProg
  cases call with
  | automation o =>
    refine Ensures.inr (Ensures.bind (automation_ensures o) fun result k hk => ?_)
    cases result <;> exact hk
  | _ => exact Ensures.inl (ensures_call rfl)

end Programs

/-! ### One operation -/

section Steps

variable {S : Setting} {e : Env} {o : Op} {w : VideoWorld} {m : Meta}

/-- A change of the record keeps its status. -/
def Op.KeepsStatus : Op → Prop
  | .updateMeta _ f => ∀ m, (f m).status = m.status
  | .updateMetaIf _ _ f => ∀ m, (f m).status = m.status
  | _ => True

theorem edit_status (hmay : o.KeepsStatus) : (o.edit m).status = m.status := by
  cases o with
  | updateMeta time f => exact hmay m
  | updateMetaIf expected time f =>
    by_cases hm : m.status ∈ expected
    · simpa [Op.edit, Store.updateMetaIf_of_mem hm] using hmay m
    · simp [Op.edit, Store.updateMetaIf_of_not_mem hm]
  | _ => rfl

/-- A task becomes successful by a mark of success. -/
theorem record_success (hmay : o.KeepsStatus) (h : (o.record S e m).status = .success) :
    m.status = .success ∨ ∃ site op, o = .write site op ∧ op.marksSuccess m = true := by
  cases hop : o.storeOp e with
  | none =>
    rw [record_of_edit hop, edit_status hmay] at h
    exact .inl h
  | some op =>
    rw [record_of_storeOp hop] at h
    refine (storeOp_success op h).imp_right fun hmark => ?_
    cases o with
    | write site =>
      cases hop
      exact ⟨site, op, rfl, hmark⟩
    | claimTask workerId time =>
      cases hop
      cases hmark
    | requestCancel reason allowSubmitted time =>
      cases hop
      cases hmark
    | _ => cases hop

/-- Only `save_result` and the deletion change the video. -/
theorem handle_video (hsave : ∀ f, o ≠ .saveResult f) (hdelete : o ≠ .deleteTask) (w : World) :
    (handle S e o w).2.result.decodedMainUrl = w.result.decodedMainUrl := by
  cases o with
  | saveResult f => exact absurd rfl (hsave f)
  | deleteTask => exact absurd rfl hdelete
  | ask q =>
    simp only [handle, World.hears]
    split
    · split <;> rfl
    · rfl
  | markTempQuotaRefunded =>
    simp only [handle]
    split <;> rfl
  | _ => simp only [handle] <;> split <;> rfl

theorem takesVideo_of_ne {f : TaskResult → TaskResult} {r : TaskResult} (h : r.decodedMainUrl ≠ "") :
    takesVideo f r = ((f r).decodedMainUrl == "") := by
  simp [takesVideo, textOr, h]

/-! ### The invariant -/

structure VideoInv (w : VideoWorld) (known : Nat → Sight) : Prop where
  kept : w.KeepsVideo
  wiping : ∀ i, (known i).wiping = true → ∀ m ∈ w.world.task, m.status ≠ .success
  wiped : w.wiped = true → w.world.result.decodedMainUrl = ""
  claimed : w.claimed = true → ∀ m ∈ w.world.task, m.status ≠ .success

/-- What has to be known of an operation that either kind of call performs. -/
structure KeptBy (quiet : Prop) (o : Op) (w : VideoWorld) : Prop where
  status : o.KeepsStatus
  marks : ∀ site op, o = .write site op → ∀ m ∈ w.world.task, op.marksSuccess m = true →
    w.world.result.decodedMainUrl ≠ "" ∧ quiet
  stores : ∀ f, o = .saveResult f → StoresCurrent f w
  spares : ∀ f, o = .saveResult f → ∀ m ∈ w.world.task, m.status = .success →
    takesVideo f w.world.result = false

theorem keepsVideo_step {known : Nat → Sight} {quiet : Prop} (hinv : VideoInv w known)
    (ho : KeptBy quiet o w) {wiped claimed : Bool}
    (hwiped : wiped = true → w.wiped = true ∨ o.wipes w.world = true) :
    VideoWorld.KeepsVideo { world := (handle S e o w.world).2, wiped, claimed } := by
  intro m' hm' hsuccess
  obtain ⟨m, hm, rfl⟩ := handle_task hm'
  have hnotdeleted : o ≠ .deleteTask := by
    rintro rfl
    cases hm'
  by_cases hsave : ∃ f, o = .saveResult f
  · obtain ⟨f, rfl⟩ := hsave
    obtain ⟨hvideo, hnotwiped⟩ := hinv.kept m hm hsuccess
    have htakes := ho.spares f rfl m hm hsuccess
    have hnew : (f w.world.result).decodedMainUrl ≠ "" := by
      simpa [takesVideo_of_ne hvideo] using htakes
    refine ⟨by simpa [handle, Option.isSome_iff_exists.mpr ⟨m, hm⟩] using hnew, ?_⟩
    refine Bool.eq_false_iff.mpr fun hset => ?_
    rcases hwiped hset with hbefore | hnow
    · simp [hbefore] at hnotwiped
    · simp [Op.wipes, htakes] at hnow
  · have hother : ∀ f, o ≠ .saveResult f := fun f heq => hsave ⟨f, heq⟩
    have hwipes : o.wipes w.world = false := by
      cases o with
      | saveResult f => exact absurd rfl (hother f)
      | _ => rfl
    have hfound : w.world.result.decodedMainUrl ≠ "" := by
      rcases record_success ho.status hsuccess with hbefore | ⟨site, op, heq, hmark⟩
      · exact (hinv.kept m hm hbefore).1
      · exact (ho.marks site op heq m hm hmark).1
    refine ⟨by rwa [handle_video hother hnotdeleted], ?_⟩
    refine Bool.eq_false_iff.mpr fun hset => ?_
    rcases hwiped hset with hbefore | hnow
    · exact hfound (hinv.wiped hbefore)
    · simp [hwipes] at hnow

theorem wiped_step {known : Nat → Sight} {quiet : Prop} (hinv : VideoInv w known)
    (ho : KeptBy quiet o w) {wiped : Bool}
    (hwiped : wiped = true → w.wiped = true ∨ o.wipes w.world = true) (hset : wiped = true) :
    (handle S e o w.world).2.result.decodedMainUrl = "" := by
  by_cases hsave : ∃ f, o = .saveResult f
  · obtain ⟨f, rfl⟩ := hsave
    cases hm : w.world.task with
    | none =>
      have hbefore : w.wiped = true := by simpa [Op.wipes, hm] using hwiped hset
      simpa [handle, hm] using hinv.wiped hbefore
    | some m =>
      show (if w.world.task.isSome then _ else _ : World).result.decodedMainUrl = ""
      rw [if_pos (by simp [hm])]
      rcases hwiped hset with hbefore | hnow
      · exact ho.stores f rfl (by simp [hm]) hbefore
      · simp only [Op.wipes, takesVideo, Bool.and_eq_true, beq_iff_eq] at hnow
        exact hnow.2.1
  · have hother : ∀ f, o ≠ .saveResult f := fun f heq => hsave ⟨f, heq⟩
    by_cases hdelete : o = .deleteTask
    · subst hdelete
      rfl
    · rw [handle_video hother hdelete]
      rcases hwiped hset with hbefore | hnow
      · exact hinv.wiped hbefore
      · cases o with
        | saveResult f => exact absurd rfl (hother f)
        | _ => cases hnow

/-- On a successful task a retry returns its stored count. -/
theorem wipesAfter_stored {site : Site} {op : StoreOp}
    (hwipes : wipesAfter S site op (op.count S.chars m) = true) (hsuccess : m.status = .success) :
    wipesAfter S site op (op.storedCount m) = true := by
  cases op with
  | retrySubmittedTask maxRetries reason delaySeconds now =>
    simpa [StoreOp.count, StoreOp.storedCount, Store.retrySubmittedTask, hsuccess] using hwipes
  | retryAmbiguousProxyTask reason accountId proxyNodeId delaySeconds now => exact hwipes
  | retryAmbiguousSubmittedTask maxRetries reason delaySeconds now =>
    simpa [StoreOp.count, StoreOp.storedCount, Store.retryAmbiguousSubmittedTask, hsuccess] using hwipes
  | _ => cases hwipes

theorem not_marksSuccess_of_wipesAfter {site : Site} {op : StoreOp} {count : Int}
    (hwipes : wipesAfter S site op count = true) : op.marksSuccess m = false := by
  cases op with
  | markSuccess hasUrl now => cases hwipes
  | markLateResultSuccess hasUrl now => cases hwipes
  | _ => rfl

/-- While a call is between a retry and the wiping, no task becomes successful. -/
theorem not_success_step {known : Nat → Sight} {quiet : Prop} (hinv : VideoInv w known)
    (ho : KeptBy quiet o w) {i : Nat} (hi : (known i).wiping = true)
    (hquiet : quiet → (known i).wiping = false)
    {m' : Meta} (hm' : (handle S e o w.world).2.task = some m') : m'.status ≠ .success := by
  intro hsuccess
  obtain ⟨m, hm, rfl⟩ := handle_task hm'
  rcases record_success ho.status hsuccess with hbefore | ⟨site, op, heq, hmark⟩
  · exact hinv.wiping i hi m hm hbefore
  · have hnone := hquiet (ho.marks site op heq m hm hmark).2
    simp [hi] at hnone

theorem wiping_step {known : Nat → Sight} {i : Nat} (hinv : VideoInv w known)
    (ho : KeptBy (∀ j, (known j).wiping = false) o w)
    (hretry : ∀ site op, o = .write site op → ∀ m ∈ w.world.task, m.status = .success →
      wipesAfter S site op (op.storedCount m) = false) :
    ∀ j, (Function.update known i
        (Sight.learn S (known i) o (handle S e o w.world).1) j).wiping = true →
      ∀ m' ∈ (handle S e o w.world).2.task, m'.status ≠ .success := by
  intro j hj m' hm'
  by_cases hbefore : (known j).wiping = true
  · exact not_success_step hinv ho hbefore (fun hquiet => hquiet j) hm'
  · -- only this operation can be the retry that begins to wipe
    have hji : j = i := by
      by_contra hne
      rw [Function.update_of_ne hne] at hj
      exact hbefore hj
    subst hji
    rw [Function.update_self] at hj
    have hcalm : (known j).wiping = false := Bool.eq_false_iff.mpr hbefore
    intro hsuccess
    obtain ⟨m, hm, rfl⟩ := handle_task hm'
    have hm₀ : w.world.task = some m := hm
    cases o with
    | write site op =>
      have hwipes : wipesAfter S site op (op.count S.chars m) = true := by
        simpa [Sight.learn, handle, hm₀, hcalm] using hj
      -- a retry leaves a successful task as it is, and returns the stored count
      rcases record_success ho.status hsuccess with hwas | ⟨site', op', heq, hmark⟩
      · have hstored := wipesAfter_stored hwipes hwas
        simp [hretry site op rfl m hm hwas] at hstored
      · cases heq
        simp [not_marksSuccess_of_wipesAfter hwipes] at hmark
    | getMeta => simp [Sight.learn, handle, hm₀, hcalm] at hj
    | ask q =>
      rw [Sight.learn, Sight.wiping_hears, hcalm] at hj
      cases hj
    | saveResult f => cases hj
    | _ => exact hbefore hj

/-- A claim takes effect on a pending task only. -/
theorem pending_of_markRunning {paused atLimit : Bool} {workerId : String} {now : Int}
    (h : (markRunning paused workerId atLimit now m).1 = true) : m.status = .pending := by
  unfold markRunning at h
  split at h
  · cases h
  · unfold claimTask at h
    split at h
    · cases h
    · rename_i hguard
      exact not_not.mp fun hne => hguard (.inl hne)

/-- A task that was claimed after the last mark of success is not successful. -/
theorem claimed_step {known : Nat → Sight} {quiet : Prop} (hinv : VideoInv w known)
    (ho : KeptBy quiet o w)
    (hset : o.claims (handle S e o w.world).1 w.world w.claimed = true) :
    ∀ m' ∈ (handle S e o w.world).2.task, m'.status ≠ .success := by
  intro m' hm' hsuccess
  obtain ⟨m, hm, rfl⟩ := handle_task hm'
  have hm₀ : w.world.task = some m := hm
  rcases record_success ho.status hsuccess with hwas | ⟨site, op, rfl, hmark⟩
  · have hclaimed : w.claimed = true := by
      cases o with
      | claimTask workerId time =>
        simp only [Op.claims, Bool.or_eq_true] at hset
        refine hset.resolve_right fun hnow => ?_
        have happlied : (markRunning e.paused workerId e.atLimit time m).1 = true := by
          simpa [handle, hm₀] using hnow
        rw [pending_of_markRunning happlied] at hwas
        cases hwas
      | write site op =>
        simp only [Op.claims, Bool.and_eq_true] at hset
        exact hset.1
      | _ => exact hset
    exact hinv.claimed hclaimed m hm hwas
  · simp [Op.claims, hm₀, hmark] at hset

end Steps

/-! ### Runs -/

section Runs

variable {S : Setting}

theorem keeps_videoInv : (videoKnowledge S).KeepsWith (videoHandle S) VideoInv
    (fun known i _ o w => VideoSafe S (∀ j, (known j).wiping = false) (known i) o w) := by
  intro i e o w known hinv hmay hsafe
  cases o with
  | inl o =>
    have ho : KeptBy (∀ j, (known j).wiping = false) o w := by
      refine ⟨?_, ?_, ?_, ?_⟩
      · cases o with
        | updateMeta time f => exact hmay
        | updateMetaIf expected time f => exact hmay
        | _ => trivial
      · rintro site op rfl m hm hmark
        exact hsafe.2 m hm hmark (hmay.1.resolve_left fun hno => by simp [hno m] at hmark)
      · -- a save leaves the video, or stores one after a cookie was read, or wipes after a retry
        rintro f rfl hsome hwiped
        rcases hmay with hkeeps | ⟨hcookie, -⟩ | ⟨-, hwipes⟩
        · rw [hkeeps]
          exact hinv.wiped hwiped
        · exact hsafe hcookie hsome hwiped
        · exact hwipes _
      · rintro f rfl m hm hsuccess
        obtain ⟨hvideo, -⟩ := hinv.kept m hm hsuccess
        rw [takesVideo_of_ne hvideo]
        rcases hmay with hkeeps | ⟨-, hstores⟩ | ⟨hwiping, -⟩
        · simpa [hkeeps w.world.result] using hvideo
        · simpa using hstores w.world.result
        · exact absurd hsuccess (hinv.wiping i hwiping m hm)
    have hretry : ∀ site op, o = .write site op → ∀ m ∈ w.world.task, m.status = .success →
        wipesAfter S site op (op.storedCount m) = false := by
      rintro site op rfl m hm hsuccess
      rcases hmay.2 with hno | hunfinished
      · exact hno _
      · exact hsafe.1 m hm hunfinished hsuccess
    have hwiped : (w.wiped || o.wipes w.world) = true → w.wiped = true ∨ o.wipes w.world = true := by
      simp
    exact ⟨trivial, keepsVideo_step hinv ho hwiped, wiping_step hinv ho hretry,
      wiped_step hinv ho hwiped, claimed_step hinv ho⟩
  | inr o =>
    have ho : KeptBy (∀ j, (known j).wiping = false) o w := by
      refine ⟨?_, ?_, ?_, ?_⟩
      · cases o with
        | updateMeta time f => exact hmay
        | updateMetaIf expected time f => exact hmay
        | _ => trivial
      · rintro site op rfl m hm hmark
        exact hsafe m hm hmark (hmay.1.resolve_left fun hno => by simp [hno m] at hmark)
      · rintro f rfl
        exact hsafe.1
      · rintro f rfl m hm hsuccess
        refine Bool.eq_false_iff.mpr fun htakes => ?_
        exact hinv.claimed (hsafe.2 (Option.isSome_iff_exists.mpr ⟨m, hm⟩) htakes) m hm hsuccess
    have hretry : ∀ site op, o = .write site op → ∀ m ∈ w.world.task, m.status = .success →
        wipesAfter S site op (op.storedCount m) = false := by
      rintro site op rfl m - -
      exact hmay.2 _
    have hwiped : ((w.wiped || o.wipes w.world) && !o.submits w.world) = true →
        w.wiped = true ∨ o.wipes w.world = true := by
      simp only [Bool.and_eq_true, Bool.or_eq_true]
      exact And.left
    exact ⟨trivial, keepsVideo_step hinv ho hwiped, wiping_step hinv ho hretry,
      wiped_step hinv ho hwiped, claimed_step hinv ho⟩

theorem videoInv_spawn (w : VideoWorld) (known : Nat → Sight) (i : Nat) (h : VideoInv w known) :
    VideoInv w (Function.update known i {}) := by
  refine ⟨h.kept, fun j hj => h.wiping j ?_, h.wiped, h.claimed⟩
  by_cases hji : j = i
  · subst hji
    simp at hj
  · rwa [Function.update_of_ne hji] at hj

/-- Where nothing falls between what a call has read of the result and what it writes: no mark of
success between a read without a video and the retry, no wiping between the read of a video and
the mark, or between the read of a cookie and the storing of a video, no mark between a retry and
its wiping, nor between a claim and the start of the automation; then a successful task has its
video throughout the run, and nothing has been wiped since its submission. -/
theorem video_kept (S : Setting) (labels : List (Label Call Env)) (w : VideoWorld)
    (hstart : w.KeepsVideo) (hsubmitted : w.wiped = false)
    (hclaimed : w.claimed = true → ∀ m ∈ w.world.task, m.status ≠ .success)
    (hsafe : AllSteps (videoStep S)
      (OnThreads fun known i _ o w => VideoSafe S (∀ j, (known j).wiping = false) (known i) o w)
      labels w.atRest) :
    Throughout (videoStep S) (fun t => t.config.shared.KeepsVideo) labels w.atRest := by
  have hinv : VideoInv w fun _ => {} :=
    ⟨hstart, nofun, fun hwiped => by simp [hsubmitted] at hwiped, hclaimed⟩
  have hfollows : (videoKnowledge S).Follows (fun k => k.wiping = false) VideoInv w.atRest :=
    ⟨fun _ => rfl, hinv⟩
  have hall := follows_run_with ensures_videoProg (fun w known i h _ => videoInv_spawn w known i h)
    keeps_videoInv hfollows hsafe
  exact hall.mono fun t ht => ht.inv.kept

end Runs

/-! ### A query that wipes the video of another -/

section Sample

instance (quiet : Prop) [Decidable quiet] (k : Sight) (o : StoreOp) (w : VideoWorld) :
    Decidable (FoundStays quiet k o w) := by
  unfold FoundStays
  infer_instance

instance (S : Setting) (k : Sight) (site : Site) (o : StoreOp) (w : VideoWorld) :
    Decidable (UnfinishedStays S k site o w) := by
  unfold UnfinishedStays
  infer_instance

instance (f : TaskResult → TaskResult) (w : VideoWorld) : Decidable (StoresCurrent f w) := by
  unfold StoresCurrent
  infer_instance

instance (f : TaskResult → TaskResult) (w : VideoWorld) :
    Decidable (RestartFollowsClaim f w) := by
  unfold RestartFollowsClaim
  infer_instance

instance (S : Setting) (quiet : Prop) [Decidable quiet] (k : Sight) (o : VideoSig.Op)
    (w : VideoWorld) : Decidable (VideoSafe S quiet k o w) := by
  unfold VideoSafe
  split <;> infer_instance

/-- Threads that never run are between nothing. -/
theorem safe_of_bounded {S : Setting} {n : Nat} {labels : List (Label Call Env)} {t : VideoRun}
    (hthreads : ∀ label ∈ labels, label.thread < n) (hidle : ∀ i, n ≤ i → t.known i = {})
    (h : AllSteps (videoStep S)
      (OnThreads fun known i _ o w =>
        VideoSafe S (∀ j < n, (known j).wiping = false) (known i) o w) labels t) :
    AllSteps (videoStep S)
      (OnThreads fun known i _ o w =>
        VideoSafe S (∀ j, (known j).wiping = false) (known i) o w) labels t := by
  refine allSteps_of_bounded hthreads hidle (fun known i e o w hrest hsafe => ?_) h
  have hquiet : (∀ j < n, (known j).wiping = false) ↔ ∀ j, (known j).wiping = false := by
    refine ⟨fun hsome j => ?_, fun hall j _ => hall j⟩
    by_cases hj : j < n
    · exact hsome j hj
    · rw [hrest j (not_lt.mp hj)]
  rwa [hquiet] at hsafe

/-- A submitted task whose conversation is known. -/
def submittedTask : VideoWorld where
  world :=
    { (paidTask { status := .submitted, platform := "dola", createdAt := some 0,
                  submittedAt := some 0 }).shared with
      result := { conversationId := "7", cookieString := "sid=1" } }

theorem submittedTask_keepsVideo : submittedTask.KeepsVideo := by
  intro m hm hsuccess
  cases hm
  cases hsuccess

/-- A platform whose answer may say that the quota of an account is used up. -/
def quotaSetting : Setting :=
  { sampleSetting with
    rules := { sampleRules with isAccountQuotaInsufficient := fun text => text == "quota" } }

/-- A thread performs its next operations; the platform answers every query like this. -/
def answered (i : Nat) (chain : ChainReply) (count : Nat) : List (Label Call Env) :=
  List.replicate count <| .act i
    { quietEnv minute with
      answer
        | .fetchSingleChain => some chain
        | q => (quietEnv minute).answer q }

/-- The first query is about to retry when the second one finds the video. -/
def queriesMeet : List (Label Call Env) :=
  .spawn 0 .queryTask :: answered 0 { ttsContent := "quota" } 9 ++
    .spawn 1 .queryTask :: answered 1 { decodedMainUrl := "https://video" } 12 ++
    answered 0 { ttsContent := "quota" } 3

/-- A query that meets no other. -/
def queryAlone : List (Label Call Env) :=
  .spawn 0 .queryTask :: answered 0 { decodedMainUrl := "https://video" } 12

theorem video_kept_alone :
    Throughout (videoStep quotaSetting) (fun t => t.config.shared.KeepsVideo) queryAlone
      submittedTask.atRest :=
  video_kept quotaSetting queryAlone submittedTask submittedTask_keepsVideo rfl nofun
    (safe_of_bounded (n := 1) (by decide +kernel) (fun _ _ => rfl) (by decide +kernel))

/-- The first query wipes the result of the successful task: its retry changes nothing. -/
theorem retry_wipes_video :
    submittedTask.KeepsVideo ∧ submittedTask.wiped = false ∧
      ¬ Throughout (videoStep quotaSetting) (fun t => t.config.shared.KeepsVideo) queriesMeet
        submittedTask.atRest := by
  refine ⟨submittedTask_keepsVideo, rfl, fun h => ?_⟩
  have hend := h.final
  have hsuccess : (run (videoStep quotaSetting) queriesMeet
      submittedTask.atRest).config.shared.world.task.map Meta.status = some .success := by
    decide +kernel
  obtain ⟨m, hm, hstatus⟩ := Option.map_eq_some_iff.mp hsuccess
  refine (hend m hm hstatus).1 ?_
  decide +kernel

end Sample

end FetchTask.Lifecycle
