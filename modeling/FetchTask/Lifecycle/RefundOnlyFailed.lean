import FetchTask.Lifecycle.Discipline

/-!
A refund is for a task that did not succeed.

Calls ignore whether a transition was applied. So a call may fail a task that has
just succeeded, and refund it: `mark_failed` then changes nothing. A retry
operation that is not applied returns the counter it finds, which may be over the
limit. Where neither happens, every refund finds the task failed or canceled.
-/

namespace FetchTask.Lifecycle

open Store Runs Knowledge

/-- The calls on one task. -/
abbrev LifeConfig := Config LifeSig World

def step (S : Setting) : Label Call Env → LifeConfig → LifeConfig :=
  Config.step (handle S) (Call.prog S)

/-- No call is in progress. -/
def LifeConfig.Idle (c : LifeConfig) : Prop := ∀ i, (c.threads i).isDone = true

/-- The operation takes the reservation of the task from reserved to refunded. -/
def Refunds (S : Setting) (owner : String) (e : Env) (o : Op) (w : World) : Prop :=
  reservationLive S owner w.tokens = true ∧
    reservationLive S owner (handle S e o w).2.tokens = false

instance (S : Setting) (owner : String) (e : Env) (o : Op) (w : World) :
    Decidable (Refunds S owner e o w) := inferInstanceAs (Decidable (_ ∧ _))

/-- Every refund finds the task failed or canceled, if it finds it at all. -/
def RefundsOnlyFailed (S : Setting) (owner : String) : Label Call Env → LifeConfig → Prop :=
  OnAct fun _ e o c => Refunds S owner e o c.shared →
    ∀ m ∈ c.shared.task, m.status ∈ [.failed, .canceled]

instance (S : Setting) (owner : String) (label : Label Call Env) (c : LifeConfig) :
    Decidable (RefundsOnlyFailed S owner label c) :=
  inferInstanceAs (Decidable (OnAct (fun _ e o (c : LifeConfig) => Refunds S owner e o c.shared →
    ∀ m ∈ c.shared.task, m.status ∈ [.failed, .canceled]) label c))

/-- A successful task with a live reservation keeps it for ever. -/
def SuccessKeepsReservation (S : Setting) (owner : String) (labels : List (Label Call Env))
    (c : LifeConfig) : Prop :=
  ∀ before after, labels = before ++ after →
    (∃ m, (run (step S) before c).shared.task = some m ∧ m.status = .success) →
    reservationLive S owner (run (step S) before c).shared.tokens = true →
    reservationLive S owner (run (step S) labels c).shared.tokens = true

/-- When a write that a refund follows respects what it finds, with a live reservation:
`mark_failed` does not find the task successful, and a retry operation that will change
nothing does not find its counter over the limit, unless the task has failed or was canceled. -/
def Op.RespectsSuccess (S : Setting) (owner : String) : Op → World → Prop
  | .write site op, w => reservationLive S owner w.tokens = true → ∀ m ∈ w.task,
      (op.isMarkFailed = true → site.refunds = true → m.status ≠ .success) ∧
      (site = .usual → op.ExceededAlready m → m.status ∈ [.failed, .canceled])
  | _, _ => True

instance (S : Setting) (owner : String) (o : Op) (w : World) :
    Decidable (o.RespectsSuccess S owner w) :=
  match o with
  | .write .. => inferInstanceAs (Decidable (_ → _))
  | .now | .ask _ | .getMeta | .loadResult | .claimTask .. | .requestCancel .. | .updateMeta ..
  | .updateMetaIf .. | .saveResult _ | .refundTempQuota _ | .markTempQuotaRefunded
  | .claimAccount .. | .accountForCurrentTask | .clearAccount _ | .refundAccount ..
  | .settleAccount .. | .exhaustAccount .. | .exhaustTimedOutAccount .. | .flagAccount ..
  | .deleteTask => inferInstanceAs (Decidable True)

section

variable {S : Setting} {owner : String}

theorem final_failed_canceled : Final [.failed, .canceled] where
  failed := by simp
  canceled := by simp
  stays start finish hlegal hstart := by
    rcases List.mem_pair.mp hstart with rfl | rfl
    · rcases hlegal.2.2 rfl with hfinish | ⟨-, hlate⟩
      · simp [hfinish]
      · cases hlate
    · simp [hlegal.2.1 rfl]

/-- A write that respects what it finds and after which a refund may come leaves the task failed
or canceled. -/
theorem doomsFinal_of_respectsSuccess {o : Op} {w : World} (h : o.RespectsSuccess S owner w) :
    o.DoomsFinal S owner [.failed, .canceled] w := by
  rintro site op m rfl hm hlive hdooms
  obtain ⟨hfail, hretry⟩ := h hlive m hm
  rcases hdooms with ⟨hmark, hsite⟩ | ⟨hsite, hover⟩
  · rw [markFailed_status hmark]
    have hsuccess := hfail hmark hsite
    split
    · rename_i hfinished
      simp [hfinished.resolve_left hsuccess]
    · simp
  · cases hretries : op.retries m with
    | true => simp [overLimit_failed hover hretries]
    | false =>
      have hexceeded := overLimit_of_not_retries hover hretries
      -- Nothing changes: the task had failed or was canceled already.
      exact final_failed_canceled.stays _ _ hexceeded.legal (hretry hsite hexceeded)

/-! ### Runs -/

/-- The calls, before anything has been learned. -/
def LifeConfig.tracked (owner : String) (c : LifeConfig) : Tracked LifeSig World Known :=
  { config := c, known := fun _ => (refundKnowledge (.one owner)).start }

/-- All calls go by what they know, and what they know is true. -/
abbrev GoesBy (S : Setting) (owner : String) (final : List Status) :
    Tracked LifeSig World Known → Prop :=
  (refundKnowledge (.one owner)).Follows (fun k => ¬ k.owes) (RefundInv S (.one owner) owner final)

theorem refundInv_start {w : World} {final : List Status} (hw : Sane S owner w) :
    RefundInv S (.one owner) owner final w fun _ => (refundKnowledge (.one owner)).start :=
  ⟨hw.among, fun _ => holds_start rfl⟩

theorem goesBy_start {c : LifeConfig} {final : List Status} (hidle : c.Idle)
    (hw : Sane S owner c.shared) : GoesBy S owner final (c.tracked owner) := by
  refine ⟨fun i => ?_, refundInv_start hw⟩
  have hdone := hidle i
  show (refundKnowledge (.one owner)).Ensures _ _ (c.threads i)
  cases hi : c.threads i with
  | ret u => exact not_false
  | act o k => simp [hi, Prog.isDone] at hdone

/-- A refund is made by a call that knows the task doomed. -/
theorem doomed_of_refunds {e : Env} {o : Op} {w : World} {k : Known}
    (hmay : (refundKnowledge (.one owner)).may k o) (h : Refunds S owner e o w) : k.doomed := by
  obtain ⟨hlive, hgone⟩ := h
  by_cases hrefund : ∃ hash, o = .refundTempQuota hash
  · obtain ⟨hash, rfl⟩ := hrefund
    exact hmay.2
  · rw [handle_tokens fun hash heq => hrefund ⟨hash, heq⟩, hlive] at hgone
    cases hgone

theorem refund_finds_final {final : List Status} {t : Tracked LifeSig World Known}
    (ht : GoesBy S owner final t) (label : Label Call Env) :
    OnAct (fun _ e o c => Refunds S owner e o c.shared →
      ∀ m ∈ c.shared.task, m.status ∈ final) label t.config := by
  cases label with
  | spawn i call => trivial
  | act i e =>
    cases hi : t.config.threads i with
    | ret u => simp [OnAct, hi]
    | act o k =>
      simp only [OnAct, hi]
      intro hrefunds m hm
      have hdoomed := doomed_of_refunds (ht.may hi) hrefunds
      exact (ht.inv.holds i).doomed hdoomed hrefunds.1 m hm

/-! ### A success is kept -/

/-- A successful task with a live reservation, which no call knows doomed. -/
structure Kept (S : Setting) (owner : String) (t : Tracked LifeSig World Known) : Prop where
  goesBy : GoesBy S owner [.failed, .canceled] t
  live : reservationLive S owner t.config.shared.tokens = true
  success : ∀ m, t.config.shared.task = some m → m.status = .success
  undoomed : ∀ i, ¬ (t.known i).doomed

/-- A call learns of a doom from a record that is there after the operation. -/
theorem learn_doomed {e : Env} {o : Op} {w : World} {k : Known}
    (h : ((refundKnowledge (.one owner)).learn k o (handle S e o w).1).doomed) :
    k.doomed ∨ ∃ m, (handle S e o w).2.task = some m := by
  cases hm : w.task with
  | none =>
    cases o <;> exact .inl (by simpa [refundKnowledge, handle, hm] using h)
  | some m =>
    cases o with
    | getMeta => exact .inr ⟨m, by simp [handle, hm]⟩
    | write site op => exact .inr ⟨_, by simp [handle, hm]; rfl⟩
    | requestCancel reason allowSubmitted time => exact .inr ⟨_, by simp [handle, hm]; rfl⟩
    | _ => exact .inl (by simpa [refundKnowledge, handle, hm] using h)

/-- Writes respect a success, whatever their thread knows. -/
abbrev Respects (S : Setting) (owner : String) (_ : Known) (_ : Env) (o : Op) (w : World) : Prop :=
  o.RespectsSuccess S owner w

theorem keeps_respects : (refundKnowledge (.one owner)).Keeps (handle S)
    (RefundInv S (.one owner) owner [.failed, .canceled]) (Respects S owner) := by
  intro i e o w known hinv hmay hrespects
  refine ⟨can_result hinv.sane, ?_⟩
  exact refundInv_step final_failed_canceled hinv hmay (toCurrent_of_one hmay)
    (doomsFinal_of_respectsSuccess hrespects)

theorem goesBy_step (label : Label Call Env) (t : Tracked LifeSig World Known)
    (ht : GoesBy S owner [.failed, .canceled] t) (hC : OnKnown (Respects S owner) label t) :
    GoesBy S owner [.failed, .canceled] ((refundKnowledge (.one owner)).step (handle S) (Call.prog S) label t) :=
  follows_step (ensures_prog (S := S)) (fun _ _ i hinv _ => refundInv_spawn i rfl hinv) keeps_respects
    label t ht hC

/-- While a success is kept, every call learns only of successes. -/
theorem kept_step (label : Label Call Env) (t : Tracked LifeSig World Known)
    (ht : Kept S owner t) (hC : OnKnown (Respects S owner) label t) :
    Kept S owner ((refundKnowledge (.one owner)).step (handle S) (Call.prog S) label t) := by
  have hnext := goesBy_step label t ht.goesBy hC
  cases label with
  | spawn i call =>
    cases hi : t.config.threads i with
    | act o k =>
      rw [step_spawn_busy hi]
      exact ht
    | ret u =>
      rw [step_spawn hi] at hnext ⊢
      refine ⟨hnext, ht.live, ht.success, fun j => ?_⟩
      by_cases hj : j = i
      · subst hj
        simp [refundKnowledge]
      · simpa [hj] using ht.undoomed j
  | act i e =>
    cases hi : t.config.threads i with
    | ret u =>
      rw [step_idle hi]
      exact ht
    | act o k =>
      have hmay := ht.goesBy.may hi
      rw [step_act hi] at hnext ⊢
      have hlive : reservationLive S owner (handle S e o t.config.shared).2.tokens = true := by
        by_contra hgone
        exact ht.undoomed i (doomed_of_refunds hmay ⟨ht.live, by simpa using hgone⟩)
      have hsuccess : ∀ m', (handle S e o t.config.shared).2.task = some m' →
          m'.status = .success := by
        intro m' hm'
        obtain ⟨m, hm, rfl⟩ := handle_task hm'
        have hclosed := (ht.goesBy.inv.holds i).closed
        exact (record_legal hmay ht.live hclosed m).1 (ht.success m hm)
      refine ⟨hnext, hlive, hsuccess, fun j => ?_⟩
      by_cases hj : j = i
      · subst hj
        intro hdoomed
        have hlearned := hdoomed
        simp only [Function.update_self] at hlearned
        obtain hbefore | ⟨m, hm⟩ := learn_doomed hlearned
        · exact ht.undoomed j hbefore
        · have hfinal := (hnext.inv.holds j).doomed hdoomed hlive m hm
          simp [hsuccess m hm] at hfinal
      · simpa [hj] using ht.undoomed j

/-- A success with a live reservation is kept from any state that calls go by. -/
theorem kept_of_goesBy {t : Tracked LifeSig World Known}
    (ht : GoesBy S owner [.failed, .canceled] t)
    (hlive : reservationLive S owner t.config.shared.tokens = true)
    {m : Meta} (hm : t.config.shared.task = some m) (hsuccess : m.status = .success) :
    Kept S owner t where
  goesBy := ht
  live := hlive
  success m' hm' := by
    obtain rfl : m = m' := Option.some.inj (hm.symm.trans hm')
    exact hsuccess
  undoomed i hdoomed := by
    have hfinal := (ht.inv.holds i).doomed hdoomed hlive m hm
    simp [hsuccess] at hfinal

/-- Where every write of the run respects a success that it finds, every refund finds the task
failed or canceled, and a success with a live reservation keeps it. -/
theorem refunds_only_failed (S : Setting) (owner : String) (labels : List (Label Call Env))
    (c : LifeConfig) (hidle : c.Idle) (hsane : Sane S owner c.shared)
    (hrespects : AllSteps (step S) (OnAct fun _ _ o c => o.RespectsSuccess S owner c.shared) labels c) :
    AllSteps (step S) (RefundsOnlyFailed S owner) labels c ∧
      SuccessKeepsReservation S owner labels c := by
  let G := refundKnowledge (.one owner)
  have hstart : GoesBy S owner [.failed, .canceled] (c.tracked owner) := goesBy_start hidle hsane
  have hC : AllSteps (G.step (handle S) (Call.prog S)) (OnKnown (Respects S owner)) labels
      (c.tracked owner) := by
    refine AllSteps.mono (fun label t h => onKnown_iff.mpr h) (allSteps_config.mpr ?_)
    exact hrespects
  have hall : Throughout (G.step (handle S) (Call.prog S)) (GoesBy S owner [.failed, .canceled])
      labels (c.tracked owner) := throughout_of_allSteps goesBy_step hstart hC
  constructor
  · have hrefunds := hall.allSteps fun label t ht => refund_finds_final ht label
    exact allSteps_config.mp hrefunds
  · rintro before after rfl ⟨m, hm, hsuccess⟩ hlive
    have hrun : (run (G.step (handle S) (Call.prog S)) before (c.tracked owner)).config = _ :=
      run_config
    have hmid := (throughout_append hall).start
    have hkept : Kept S owner (run (G.step (handle S) (Call.prog S)) before (c.tracked owner)) := by
      refine kept_of_goesBy hmid ?_ ?_ hsuccess
      · rw [hrun]
        exact hlive
      · rw [hrun]
        exact hm
    have hend := (throughout_of_allSteps kept_step hkept (allSteps_append.mp hC).2).final
    have hlast := hend.live
    rw [← run_append, run_config] at hlast
    exact hlast

end

/-! ### A task that expires while its automation ends -/

section Sample

def sampleRules : TextRules where
  isTenSecondGenerationLimit _ := false
  isPortraitProtectionRejection _ := false
  isMissingReferenceImageRequest _ := false
  isAccountQuotaInsufficient _ := false
  isSuspectedPolicyFalsePositive _ := false
  isGenerationFailureText _ := false
  isAccountLoginInvalid _ := false
  isFinalGenerationFailure _ := false
  isInfrastructureFailure _ := false
  isQianwenAccountQuotaInsufficient _ := false
  isQianwenContentRejection _ := false
  isQianwenTextOnlyResponse _ := false

def sampleSetting : Setting where
  chars := .ascii
  taskId := "t"
  taskId_ne_empty := by decide
  retrySetting := none
  rules := sampleRules
  isAiStudioModel _ := false
  extractConversationId _ := ""
  sameAccountRetryPrompt prompt := prompt
  ambiguousRetryReason reason _ := reason
  accountQuotaCost _ _ _ := 1

/-- The owner has paid for the task with video quota. -/
def sampleReservation : TempAccess.Reservation where
  status := .reserved
  free := true
  units := 10
  videoUnits := some 10
  userId := ""
  createdAt := "2025-01-01"
  refundedAt := ""

def sampleTokens : TempAccess.Tokens :=
  Function.update (fun _ => none) "a" (some
    { TempAccess.sampleEntry with reservations := Dict.empty.set "t" sampleReservation })

/-- The task of owner `"a"` with this record, paid for, and no call in progress. -/
def paidTask (m : Meta) : LifeConfig where
  shared := { task := some { m with ownerTokenHash := "a" }, result := {}, tokens := sampleTokens, accounts := [] }
  threads _ := .ret ()

theorem paidTask_idle (m : Meta) : (paidTask m).Idle := fun _ => rfl

theorem paidTask_sane {m : Meta} (h : m.lateResultWatchUntil = none) :
    Sane sampleSetting "a" (paidTask m).shared where
  ownerTokenHash m' hm' := by
    cases hm'
    rfl
  late m' hm' hlate := by
    cases hm'
    exact absurd h hlate

/-- Surroundings at a time, in which no account is free and nothing outside answers. -/
def quietEnv (now : Int) : Env where
  now := now
  stamp := "2025-01-02"
  answer
    | .automation .. => .error (.error "")
    | .sleep _ => .ok ()
    | .admitDolaPreparation => .ok 0
    | .admitPlatform _ => (true, 0)
    | .accountSupportsDuration .. => true
    | .stopping => false
    | .randomBelow _ => 0
    | .fetchDoubao => .error none
    | .fetchQianwen _ => none
    | .fetchRecentConversation => none
    | .fetchSingleChain => none
    | .refreshQueryProxy => false
    | .workerRuns _ => true
    | .staleAfterSeconds => 0
    | .reconcileDue => false
    | .resourceLimit => none

/-- A thread performs its next operations at a time. -/
def operations (i : Nat) (now : Int) (count : Nat) : List (Label Call Env) :=
  List.replicate count (.act i (quietEnv now))

def runningSince (created : Int) : Meta where
  status := .running
  platform := "dola"
  createdAt := some created

/-- A list request finds the task expired and without a video. -/
def expiry : List (Label Call Env) := .spawn 0 .expireTaskIfTimeout :: operations 0 (4 * hour) 7

/-- Before it fails the task, the automation ends with a video. -/
def expiryMeetsSuccess : List (Label Call Env) :=
  .spawn 0 .expireTaskIfTimeout :: operations 0 (4 * hour) 3 ++
    .spawn 1 (.automation (.result fun r => { r with decodedMainUrl := "https://video" })) ::
      operations 1 (4 * hour) 1 ++
    .spawn 1 (.automation .success) :: operations 1 (4 * hour) 3

theorem refunds_only_failed_expiry :
    AllSteps (step sampleSetting) (RefundsOnlyFailed sampleSetting "a") expiry
        (paidTask (runningSince 0)) ∧
      SuccessKeepsReservation sampleSetting "a" expiry (paidTask (runningSince 0)) :=
  refunds_only_failed sampleSetting "a" expiry _ (paidTask_idle _) (paidTask_sane rfl)
    (by decide +kernel)

/-- The expiry ignores that `mark_failed` found the task successful. -/
theorem expiry_refunds_success :
    (paidTask (runningSince 0)).Idle ∧ Sane sampleSetting "a" (paidTask (runningSince 0)).shared ∧
      ¬ AllSteps (step sampleSetting) (RefundsOnlyFailed sampleSetting "a")
        (expiryMeetsSuccess ++ operations 0 (4 * hour) 3) (paidTask (runningSince 0)) ∧
      ¬ SuccessKeepsReservation sampleSetting "a"
        (expiryMeetsSuccess ++ operations 0 (4 * hour) 3) (paidTask (runningSince 0)) := by
  refine ⟨paidTask_idle _, paidTask_sane rfl, by decide +kernel, fun hkeeps => ?_⟩
  have hsuccess : (run (step sampleSetting) expiryMeetsSuccess
      (paidTask (runningSince 0))).shared.task.map Meta.status = some .success := by
    decide +kernel
  have hlive := hkeeps expiryMeetsSuccess _ rfl (by simpa using hsuccess) (by decide +kernel)
  revert hlive
  decide +kernel

end Sample

end FetchTask.Lifecycle
