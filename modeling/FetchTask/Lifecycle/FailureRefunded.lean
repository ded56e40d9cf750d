import FetchTask.Lifecycle.RefundOnlyFailed

/-!
A failed task is refunded.

Every call that fails a task owes its owner a refund, and no call ends with a
debt, so a failed task whose reservation is live has a debtor at work. Three kinds
of writes break this: the two failures without a refund, a retry that changes
nothing and returns a counter over the limit, and the retry with the literal
limit 1 where the configured limit is 0.
-/

namespace FetchTask.Lifecycle

open Store Runs Knowledge

/-- A failed task with a live reservation has a call at work. -/
def FailedIsRefunded (S : Setting) (owner : String) (c : LifeConfig) : Prop :=
  (∃ m, c.shared.task = some m ∧ m.status = .failed) →
    reservationLive S owner c.shared.tokens = true → ∃ i, (c.threads i).isDone = false

/-- Every refund finds the task ended, if it finds it at all. -/
def RefundsOnlyEnded (S : Setting) (owner : String) : Label Call Env → LifeConfig → Prop :=
  OnAct fun _ e o c => Refunds S owner e o c.shared →
    ∀ m ∈ c.shared.task, m.status ∈ [.success, .failed, .canceled]

/-- With a live reservation, the failures without a refund find the task ended; so does a retry
that changes nothing and whose counter is over the limit; and the retry with the literal limit 1
is not the first one under a limit below 1. -/
def Op.FailsWithRefund (S : Setting) (owner : String) : Op → World → Prop
  | .write site op, w => reservationLive S owner w.tokens = true → ∀ m ∈ w.task,
      (site.refunds = false → m.status.isTerminal = true) ∧
      (site = .usual → op.ExceededAlready m → m.status.isTerminal = true) ∧
      (site = .policyRetry → op.retries m = true → (∃ limit ∈ op.retryLimit, limit < 1) →
        0 < op.storedCount m)
  | _, _ => True

instance (S : Setting) (owner : String) (o : Op) (w : World) :
    Decidable (o.FailsWithRefund S owner w) :=
  match o with
  | .write .. => inferInstanceAs (Decidable (_ → _))
  | .now | .ask _ | .getMeta | .loadResult | .claimTask .. | .requestCancel .. | .updateMeta ..
  | .updateMetaIf .. | .saveResult _ | .refundTempQuota _ | .markTempQuotaRefunded
  | .claimAccount .. | .accountForCurrentTask | .clearAccount _ | .refundAccount ..
  | .settleAccount .. | .exhaustAccount .. | .exhaustTimedOutAccount .. | .flagAccount ..
  | .deleteTask => inferInstanceAs (Decidable True)

section

variable {S : Setting} {O : Owners} {owner : String} {e : Env} {o : Op} {w : World} {m : Meta}

theorem mem_ended_iff {t : Status} : t ∈ [.success, .failed, .canceled] ↔ t.isTerminal = true := by
  cases t <;> simp [Status.isTerminal]

theorem final_ended : Final [.success, .failed, .canceled] where
  failed := by simp
  canceled := by simp
  stays start finish hlegal hstart := by
    obtain ⟨hsuccess, hcanceled, hfailed⟩ := hlegal
    have hcases : start = .success ∨ start = .failed ∨ start = .canceled := by simpa using hstart
    rcases hcases with rfl | rfl | rfl
    · simp [hsuccess rfl]
    · rcases hfailed rfl with hfinish | ⟨-, hlate⟩
      · simp [hfinish]
      · cases hlate
    · simp [hcanceled rfl]

theorem doomsFinal_of_failsWithRefund (h : o.FailsWithRefund S owner w) :
    o.DoomsFinal S owner [.success, .failed, .canceled] w := by
  rintro site op m rfl hm hlive hdooms
  obtain ⟨-, hretry, -⟩ := h hlive m hm
  rcases hdooms with ⟨hmark, -⟩ | ⟨hsite, hover⟩
  · rw [markFailed_status hmark]
    split
    · rename_i hfinished
      rcases hfinished with hs | hs <;> simp [hs]
    · simp
  · cases hretries : op.retries m with
    | true => simp [overLimit_failed hover hretries]
    | false =>
      have hexceeded := overLimit_of_not_retries hover hretries
      have hended := mem_ended_iff.mpr (hretry hsite hexceeded)
      exact final_ended.stays _ _ hexceeded.legal hended

/-! ### Debts -/

/-- A failed task with a live reservation has a debtor. -/
def HasDebtor (S : Setting) (owner : String) (w : World) (known : Nat → Known) : Prop :=
  (∃ m, w.task = some m ∧ m.status = .failed) → reservationLive S owner w.tokens = true →
    ∃ i, (known i).owes

structure DebtInv (S : Setting) (O : Owners) (owner : String) (w : World) (known : Nat → Known) : Prop where
  refunds : RefundInv S O owner [.success, .failed, .canceled] w known
  debtor : HasDebtor S owner w known

/-- A debt is paid by the refund only, or the task is gone. -/
theorem debt_kept {k : Known} (hcurrent : o.ToCurrent S owner w) (howes : k.owes)
    (hlive : reservationLive S owner (handle S e o w).2.tokens = true)
    (hm : (handle S e o w).2.task = some m) :
    ((refundKnowledge O).learn k o (handle S e o w).1).owes := by
  obtain ⟨m₀, hm₀, -⟩ := handle_task hm
  cases o with
  | refundTempQuota hash =>
    have hgone : reservationLive S owner (handle S e (.refundTempQuota hash) w).2.tokens = false :=
      refunded_step hcurrent
    simp [hgone] at hlive
  | write site op =>
    simp only [handle, refundKnowledge, hm₀]
    exact .inl howes
  | _ => simpa [handle, refundKnowledge, hm₀] using howes

/-- The owner of a live reservation has a token. -/
theorem owner_ne_empty (hlive : reservationLive S owner w.tokens = true) : owner ≠ "" := by
  rintro rfl
  simp [reservationLive_empty] at hlive

/-- The call whose write fails the task owes the refund. -/
theorem fails_indebts {site : Site} {op : StoreOp} (h : (Op.write site op).FailsWithRefund S owner w)
    (hm : w.task = some m) (hlive : reservationLive S owner w.tokens = true)
    (hinit : op.isFailInitializing = false)
    (hlegal : Legal false m.status (op.apply S.chars m).status)
    (hfails : (op.apply S.chars m).status = .failed) (hopen : m.status ≠ .failed) :
    Indebts site op (op.count S.chars m) := by
  obtain ⟨hnone, -, hpolicy⟩ := h hlive m hm
  have hnotended : m.status.isTerminal = false := by
    cases hs : m.status with
    | success => simp [hlegal.1 hs] at hfails
    | canceled => simp [hlegal.2.1 hs] at hfails
    | failed => exact absurd hs hopen
    | _ => rfl
  have hrefunds : site.refunds = true := by
    by_contra hsite
    simp [hnone (by simpa using hsite)] at hnotended
  rcases storeOp_failed op hfails with hfailed | hmark | hmark | ⟨hretries, hover⟩
  · exact absurd hfailed hopen
  · exact .inl ⟨hmark, hrefunds⟩
  · simp [hinit] at hmark
  · have hcount := count_of_retries (u := S.chars) hretries
    cases site with
    | usual => exact .inr (.inl ⟨hover, by simp⟩)
    | beforeFailing => exact .inr (.inl ⟨hover, by simp⟩)
    | policyRetry =>
      refine .inr (.inr ⟨hover, rfl, ?_⟩)
      obtain ⟨limit, hlimit, hexceeds⟩ := hover
      by_cases hone : limit < 1
      · have hstored := hpolicy rfl hretries ⟨limit, hlimit, hone⟩
        omega
      · omega
    | doubaoUnauthorized => cases hrefunds
    | platformUnsupported => cases hrefunds

theorem debtor_step {known : Nat → Known} {i : Nat} (h : DebtInv S O owner w known)
    (howner : O.mem owner) (hmay : (refundKnowledge O).may (known i) o)
    (hcurrent : o.ToCurrent S owner w) (hfails : o.FailsWithRefund S owner w) :
    HasDebtor S owner (handle S e o w).2 (Function.update known i
      ((refundKnowledge O).learn (known i) o (handle S e o w).1)) := by
  rintro ⟨m', hm', hfailed⟩ hlive'
  have hlive := live_of_live_step hlive'
  obtain ⟨m, hm, rfl⟩ := handle_task hm'
  by_cases hbefore : m.status = .failed
  · -- It had failed before: its debtor has not paid, as the reservation is live.
    obtain ⟨j, howes⟩ := h.debtor ⟨m, hm, hbefore⟩ hlive
    refine ⟨j, ?_⟩
    by_cases hj : j = i
    · subst hj
      rw [Function.update_self]
      exact debt_kept hcurrent howes hlive' hm'
    · rwa [Function.update_of_ne hj]
  · refine ⟨i, ?_⟩
    rw [Function.update_self]
    have hlegal := record_legal (e := e) hmay hlive (h.refunds.holds i).closed m
    cases o with
    | write site op =>
      have hindebts := fails_indebts hfails hm hlive hmay.2.1 hlegal hfailed hbefore
      simp only [handle, refundKnowledge, hm]
      exact .inr ⟨(O.paid_iff owner howner).mp (owner_ne_empty hlive), hindebts⟩
    | claimTask workerId time =>
      have hfails := storeOp_failed (u := S.chars) (.markRunning e.paused workerId e.atLimit time) hfailed
      simp [hbefore, StoreOp.isMarkFailed, StoreOp.isFailInitializing, StoreOp.retries] at hfails
    | requestCancel reason allowSubmitted time =>
      have hfails := storeOp_failed (u := S.chars) (.requestTaskCancel reason allowSubmitted time) hfailed
      simp [hbefore, StoreOp.isMarkFailed, StoreOp.isFailInitializing, StoreOp.retries] at hfails
    | _ =>
      -- Every other change of the record keeps its status.
      rw [record_of_edit rfl, (edit_keepsLife (e := e) rfl hmay).status] at hfailed
      exact absurd hfailed hbefore

/-! ### Runs -/

abbrev RefundsFailures (S : Setting) (owner : String) (_ : Known) (_ : Env) (o : Op) (w : World) :
    Prop :=
  o.FailsWithRefund S owner w

theorem keeps_debtInv : (refundKnowledge (.one owner)).Keeps (handle S) (DebtInv S (.one owner) owner)
    (RefundsFailures S owner) := by
  intro i e o w known hinv hmay hfails
  have hcurrent : o.ToCurrent S owner w := toCurrent_of_one hmay
  refine ⟨can_result hinv.refunds.sane, ?_, debtor_step hinv rfl hmay hcurrent hfails⟩
  exact refundInv_step final_ended hinv.refunds hmay hcurrent (doomsFinal_of_failsWithRefund hfails)

theorem debtInv_spawn {known : Nat → Known} (i : Nat) (howner : O.mem owner)
    (h : DebtInv S O owner w known) (hended : ¬ (known i).owes) :
    DebtInv S O owner w (Function.update known i (refundKnowledge O).start) := by
  refine ⟨refundInv_spawn i howner h.refunds, fun hfailed hlive => ?_⟩
  obtain ⟨j, howes⟩ := h.debtor hfailed hlive
  refine ⟨j, ?_⟩
  have hj : j ≠ i := by
    rintro rfl
    exact hended howes
  rwa [Function.update_of_ne hj]

/-- Where no write fails the task without a refund to come, and none makes a call refund a task
that has not ended: whenever the task is failed and no call is at work, its reservation has been
refunded, and no refund finds the task pending or submitted. -/
theorem failure_refunded (S : Setting) (owner : String) (labels : List (Label Call Env))
    (c : LifeConfig) (hidle : c.Idle) (hsane : Sane S owner c.shared)
    (hstart : (∃ m, c.shared.task = some m ∧ m.status = .failed) →
      reservationLive S owner c.shared.tokens = false)
    (hfails : AllSteps (step S) (OnAct fun _ _ o c => o.FailsWithRefund S owner c.shared) labels c) :
    Throughout (step S) (FailedIsRefunded S owner) labels c ∧
      AllSteps (step S) (RefundsOnlyEnded S owner) labels c := by
  let G := refundKnowledge (.one owner)
  have hfollows : G.Follows (fun k => ¬ k.owes) (DebtInv S (.one owner) owner) (c.tracked owner) := by
    have hgoes : GoesBy S owner [] (c.tracked owner) := goesBy_start hidle hsane
    refine ⟨hgoes.programs, refundInv_start hsane, ?_⟩
    intro hfailed hlive
    exact absurd (hstart hfailed) (ne_false_of_eq_true hlive)
  have hC : AllSteps (G.step (handle S) (Call.prog S)) (OnKnown (RefundsFailures S owner)) labels
      (c.tracked owner) := by
    refine AllSteps.mono (fun label t h => onKnown_iff.mpr h) (allSteps_config.mpr ?_)
    exact hfails
  have hall := follows_run (ensures_prog (S := S)) (fun w known i h hended => debtInv_spawn i rfl h hended)
    keeps_debtInv hfollows hC
  constructor
  · refine throughout_config.mp (hall.mono fun t ht hfailed hlive => ?_)
    obtain ⟨i, howes⟩ := ht.inv.debtor hfailed hlive
    refine ⟨i, Bool.eq_false_iff.mpr fun hdone => ?_⟩
    exact ht.ended hdone howes
  · refine allSteps_config.mp (hall.allSteps fun label t ht => ?_)
    exact refund_finds_final ⟨ht.programs, ht.inv.refunds⟩ label

end

/-! ### A login that is no longer valid -/

section Sample

/-- A submitted Doubao task that is queried through the interface. -/
def doubaoTask : LifeConfig where
  shared :=
    { (paidTask { status := .submitted, platform := "doubao", createdAt := some 0, submittedAt := some 0 }).shared with
      result :=
        { doubaoResultMode := "interface_poll", conversationId := "7", cookieString := "sid=1"
          accountId := "account" } }
  threads _ := .ret ()

/-- The platform answers every query with HTTP 401. -/
def unauthorizedEnv : Env :=
  { quietEnv minute with
    answer
      | .fetchDoubao => .error (some 401)
      | q => (quietEnv minute).answer q }

def watchUnauthorized : List (Label Call Env) :=
  .spawn 0 .watchRunningTasksOnce :: List.replicate 40 (.act 0 unauthorizedEnv)

theorem doubaoTask_sane : Sane sampleSetting "a" doubaoTask.shared where
  ownerTokenHash m hm := by
    cases hm
    rfl
  late m hm hlate := by
    cases hm
    exact absurd rfl hlate

theorem failure_refunded_expiry :
    Throughout (step sampleSetting) (FailedIsRefunded sampleSetting "a") expiry
        (paidTask (runningSince 0)) ∧
      AllSteps (step sampleSetting) (RefundsOnlyEnded sampleSetting "a") expiry
        (paidTask (runningSince 0)) :=
  failure_refunded sampleSetting "a" expiry _ (paidTask_idle _) (paidTask_sane rfl)
    (fun ⟨m, hm, hfailed⟩ => by
      cases hm
      cases hfailed)
    (by decide +kernel)

/-- A watchdog pass that fails the task and refunds nothing. -/
theorem unauthorized_not_refunded : doubaoTask.Idle ∧ Sane sampleSetting "a" doubaoTask.shared ∧
    ¬ Throughout (step sampleSetting) (FailedIsRefunded sampleSetting "a") watchUnauthorized
      doubaoTask := by
  refine ⟨fun _ => rfl, doubaoTask_sane, fun h => ?_⟩
  have hfailed : (run (step sampleSetting) watchUnauthorized doubaoTask).shared.task.map
      Meta.status = some .failed := by
    decide +kernel
  obtain ⟨i, hi⟩ := h.final (by simpa using hfailed) (by decide +kernel)
  by_cases hthread : i = 0
  · subst hthread
    revert hi
    decide +kernel
  · -- The other threads have never started.
    have hlabels : ∀ label ∈ watchUnauthorized, label.thread = 0 := by
      decide +kernel
    have hother : ∀ label ∈ watchUnauthorized, i ≠ label.thread := by
      intro label hlabel heq
      exact hthread (heq.trans (hlabels label hlabel))
    rw [step, run_threads hother] at hi
    cases hi

end Sample

end FetchTask.Lifecycle
