import FetchTask.Store.Endings

/-!
How often a task is tried again.

Six operations of the store return a task to `pending` and count that on one of
two counters: `retry_count`, with the configured limit, and
`infrastructure_retry_count`, with the larger of the configured limit and
`MAX_INFRASTRUCTURE_RETRIES`. A counter is never lowered and an operation that
passes its limit fails the task, which bounds the returns. An execution miss,
which looks at no status, can bring back a task that the other counter failed.
-/

namespace FetchTask.Store

open Runs

inductive Counter
  | retry
  | infrastructure
  deriving DecidableEq

def Meta.counter (m : Meta) : Counter → Int
  | .retry => m.retryCount
  | .infrastructure => m.infrastructureRetryCount

/-- What a counter may reach in a task that goes on. -/
def budget (limit : Int) : Counter → Int
  | .retry => limit
  | .infrastructure => max limit maxInfrastructureRetries

/-- The counter that a retry operation with a limit is about. -/
def StoreOp.charges : StoreOp → Option Counter
  | .recordRetry .. | .retrySubmittedTask .. | .retryTimedOutSubmittedTask ..
  | .recordExecutionMiss .. => some .retry
  | .recordInfrastructureRetry .. | .retryAmbiguousSubmittedTask .. => some .infrastructure
  | _ => none

def StoreOp.refreshesProxy : StoreOp → Meta → Bool
  | .retryAmbiguousProxyTask .., m => m.status == .submitted
  | _, _ => false

/-- The limits of the operation are those of a configured limit that does not change. -/
def StoreOp.Configured (limit : Int) : StoreOp → Prop
  | .recordRetry retryLimit .. | .recordExecutionMiss retryLimit .. => retryLimit = limit
  | .retrySubmittedTask maxRetries .. | .retryAmbiguousSubmittedTask maxRetries ..
  | .retryTimedOutSubmittedTask maxRetries .. => ∃ given, maxRetries = clampRetries limit given
  | _ => True

abbrev LimitedOp (limit : Int) := { o : StoreOp // o.Configured limit }

def LimitedOp.apply {limit : Int} (u : Chars) (o : LimitedOp limit) (m : Meta) : Meta :=
  o.1.apply u m

/-- A return to `pending` by one of the six operations. -/
def LimitedOp.returns {limit : Int} (u : Chars) (o : LimitedOp limit) (m : Meta) : Bool :=
  o.1.charges.isSome && o.1.retries m && (o.apply u m).status == .pending

def countReturns {limit : Int} (u : Chars) : List (LimitedOp limit) → Meta → Nat
  | [], _ => 0
  | o :: ops, m => (if o.returns u m then 1 else 0) + countReturns u ops (o.apply u m)

/-- A task as its creation leaves it. -/
structure Fresh (m : Meta) : Prop where
  status : m.status = .initializing ∨ m.status = .pending
  retryCount : m.retryCount = 0
  infrastructureRetryCount : m.infrastructureRetryCount = 0

/-! ### The law -/

def WithinBudget (limit : Int) (m : Meta) : Prop :=
  m.status = .pending ∨ m.status = .running →
    m.retryCount ≤ limit ∧ m.infrastructureRetryCount ≤ max limit maxInfrastructureRetries

/-- A retry operation that is applied raises its counter, and fails the task over its limit.
The refresh of a proxy has a counter of its own and no limit. -/
def Charges {limit : Int} (u : Chars) (o : LimitedOp limit) (m : Meta) : Prop :=
  (∀ c ∈ o.1.charges, o.1.retries m = true →
    m.counter c < (o.apply u m).counter c ∧
      ∀ opLimit ∈ o.1.retryLimit, opLimit < (o.apply u m).counter c →
        (o.apply u m).status = .failed) ∧
  (o.1.refreshesProxy m = true →
    m.ambiguousProxyRetryCount < (o.apply u m).ambiguousProxyRetryCount)

def RetryBudget {limit : Int} (u : Chars) (ops : List (LimitedOp limit)) (m : Meta) : Prop :=
  Throughout (LimitedOp.apply u) (WithinBudget limit) ops m ∧
    AllSteps (LimitedOp.apply u) (Charges u) ops m ∧
    (countReturns u ops m : Int) ≤ limit + max limit maxInfrastructureRetries

/-- An execution miss that has budget left finds a task that is not over the other budget. -/
def Reopens {limit : Int} (o : LimitedOp limit) (m : Meta) : Prop :=
  o.1.isExecutionMiss = true → max 0 m.retryCount + 1 ≤ limit →
    m.infrastructureRetryCount ≤ max limit maxInfrastructureRetries

/-! ### What one operation does to the counters -/

/-- A counter is raised, the other one kept, and the status says whether the limit is passed. -/
structure Charged (c : Counter) (opLimit : Int) (m m' : Meta) : Prop where
  raised : max 0 (m.counter c) < m'.counter c
  kept : ∀ c', c' ≠ c → m'.counter c' = m.counter c'
  status : m'.status = if opLimit < m'.counter c then .failed else .pending

section Steps

variable {u : Chars} {m m' : Meta}

/-- Both counters are as they were. -/
structure SameCounters (m m' : Meta) : Prop where
  retryCount : m'.retryCount = m.retryCount
  infrastructureRetryCount : m'.infrastructureRetryCount = m.infrastructureRetryCount

theorem SameCounters.counter (h : SameCounters m m') (c : Counter) : m'.counter c = m.counter c := by
  cases c with
  | retry => exact h.retryCount
  | infrastructure => exact h.infrastructureRetryCount

theorem SameCounters.refl (m : Meta) : SameCounters m m := ⟨rfl, rfl⟩

@[simp] theorem appendAttemptHistory_retryCount (now : Int) (reason kind : String) (m : Meta) :
    (m.appendAttemptHistory u now reason kind).retryCount = m.retryCount := by
  simp only [Meta.appendAttemptHistory]
  split <;> rfl

@[simp] theorem appendAttemptHistory_infrastructureRetryCount (now : Int) (reason kind : String)
    (m : Meta) :
    (m.appendAttemptHistory u now reason kind).infrastructureRetryCount =
      m.infrastructureRetryCount := by
  simp only [Meta.appendAttemptHistory]
  split <;> rfl

theorem updateMetaIf_sameCounters {expected : List Status} {now : Int} {updates : Meta → Meta}
    (h : SameCounters m (updates m)) : SameCounters m (updateMetaIf expected now updates m).2 := by
  by_cases hm : m.status ∈ expected
  · rw [updateMetaIf_of_mem hm]
    exact ⟨h.retryCount, h.infrastructureRetryCount⟩
  · rw [updateMetaIf_of_not_mem hm]
    exact .refl m

/-- Everything but an applied retry leaves the counters. -/
theorem sameCounters_of_not_retries {o : StoreOp} (h : o.retries m = false) :
    SameCounters m (o.apply u m) := by
  cases o with
  | failInitializing reason now => exact updateMetaIf_sameCounters ⟨rfl, rfl⟩
  | markRunning paused workerId atLimit now =>
    show SameCounters m (markRunning paused workerId atLimit now m).2
    unfold markRunning claimTask
    split_ifs <;> exact ⟨rfl, rfl⟩
  | markPending reason now => exact updateMetaIf_sameCounters ⟨rfl, rfl⟩
  | deferTask reason category delaySeconds now => exact updateMetaIf_sameCounters ⟨rfl, rfl⟩
  | markFailed reason now =>
    show SameCounters m (markFailed u reason now m).2
    unfold markFailed
    split
    · exact .refl m
    · exact ⟨by simp, by simp⟩
  | markCanceled reason now => exact updateMetaIf_sameCounters ⟨rfl, rfl⟩
  | requestTaskCancel reason allowSubmitted now =>
    show SameCounters m (requestTaskCancel reason allowSubmitted now m).2
    unfold requestTaskCancel
    split <;> exact ⟨rfl, rfl⟩
  | recordRetry retryLimit reason now =>
    have hretired : m.status ∈ [Status.success, .submitted, .failed, .canceled] :=
      not_not.mp fun hopen => by simp [StoreOp.retries, open_of_not_retired hopen] at h
    simp only [StoreOp.apply, recordRetry, hretired, if_true]
    exact .refl m
  | recordInfrastructureRetry reason now =>
    have hretired : m.status ∈ [Status.success, .submitted, .failed, .canceled] :=
      not_not.mp fun hopen => by simp [StoreOp.retries, open_of_not_retired hopen] at h
    simp only [StoreOp.apply, recordInfrastructureRetry, hretired, if_true]
    exact .refl m
  | retrySubmittedTask maxRetries reason delaySeconds now =>
    have hstatus : m.status ≠ .submitted := by simpa [StoreOp.retries] using h
    simp only [StoreOp.apply, retrySubmittedTask, hstatus, ne_eq, not_false_eq_true, if_true]
    exact .refl m
  | retryAmbiguousProxyTask reason accountId proxyNodeId delaySeconds now =>
    show SameCounters m (retryAmbiguousProxyTask u reason accountId proxyNodeId delaySeconds now m).2
    unfold retryAmbiguousProxyTask
    split
    · exact .refl m
    · exact ⟨by simp, by simp⟩
  | retryAmbiguousSubmittedTask maxRetries reason delaySeconds now =>
    have hstatus : m.status ≠ .submitted := by simpa [StoreOp.retries] using h
    simp only [StoreOp.apply, retryAmbiguousSubmittedTask, hstatus, ne_eq, not_false_eq_true,
      if_true]
    exact .refl m
  | retryTimedOutSubmittedTask maxRetries reason delaySeconds now =>
    have hidle : m.status ≠ .submitted ∨ m.cancelRequested = true := by
      by_cases hstatus : m.status = .submitted
      · exact .inr (by simpa [StoreOp.retries, hstatus] using h)
      · exact .inl hstatus
    simp only [StoreOp.apply, retryTimedOutSubmittedTask, hidle, if_true]
    exact .refl m
  | recordExecutionMiss retryLimit reason now => cases h
  | recordResultWatchMiss reason now => exact ⟨rfl, rfl⟩
  | markRetryQueueVerified now => exact updateMetaIf_sameCounters ⟨rfl, rfl⟩
  | markSuccess hasUrl now =>
    show SameCounters m (markSuccess hasUrl now m).2
    unfold markSuccess
    split
    · exact .refl m
    · exact updateMetaIf_sameCounters ⟨rfl, rfl⟩
  | markLateResultSuccess hasUrl now =>
    show SameCounters m (markLateResultSuccess hasUrl now m).2
    unfold markLateResultSuccess
    split
    · exact .refl m
    · exact updateMetaIf_sameCounters ⟨rfl, rfl⟩
  | markSubmitted resultPollDelaySeconds now => exact updateMetaIf_sameCounters ⟨rfl, rfl⟩
  | resetRunning wasSubmitted submittedAt now =>
    show SameCounters m (resetRunning wasSubmitted submittedAt now m).2
    unfold resetRunning markPending
    split <;> exact updateMetaIf_sameCounters ⟨rfl, rfl⟩

theorem charged_retry {opLimit : Int} (hraised : max 0 m.retryCount < m'.retryCount)
    (hkept : m'.infrastructureRetryCount = m.infrastructureRetryCount)
    (hstatus : m'.status = if opLimit < m'.retryCount then .failed else .pending) :
    Charged .retry opLimit m m' where
  raised := hraised
  kept c hc := by
    cases c with
    | retry => exact absurd rfl hc
    | infrastructure => exact hkept
  status := hstatus

theorem charged_infrastructure {opLimit : Int}
    (hraised : max 0 m.infrastructureRetryCount < m'.infrastructureRetryCount)
    (hkept : m'.retryCount = m.retryCount)
    (hstatus : m'.status =
      if opLimit < m'.infrastructureRetryCount then .failed else .pending) :
    Charged .infrastructure opLimit m m' where
  raised := hraised
  kept c hc := by
    cases c with
    | retry => exact hkept
    | infrastructure => exact absurd rfl hc
  status := hstatus

/-- An applied retry is charged to its counter. -/
theorem charged_of_retries {o : StoreOp} (h : o.retries m = true) :
    ∃ c opLimit, o.charges = some c ∧ o.retryLimit = some opLimit ∧
      Charged c opLimit m (o.apply u m) := by
  cases o with
  | recordRetry retryLimit reason now =>
    refine ⟨_, _, rfl, rfl, ?_⟩
    have hopen := not_retired_of_open (of_decide_eq_true h)
    have hcount : max 0 m.retryCount < max 0 m.retryCount + 1 := by omega
    simp only [StoreOp.apply, recordRetry, hopen, if_false]
    split
    next hover => exact charged_retry hcount (by simp [Meta.setRetryTerminal]) (if_pos hover).symm
    next hwithin => exact charged_retry hcount (by simp) (if_neg hwithin).symm
  | recordInfrastructureRetry reason now =>
    refine ⟨_, _, rfl, rfl, ?_⟩
    have hopen := not_retired_of_open (of_decide_eq_true h)
    have hcount : max 0 m.infrastructureRetryCount < max 0 m.infrastructureRetryCount + 1 := by
      omega
    simp only [StoreOp.apply, recordInfrastructureRetry, hopen, if_false]
    split
    next hover =>
      exact charged_infrastructure hcount (by simp [Meta.setRetryTerminal]) (if_pos hover).symm
    next hwithin => exact charged_infrastructure hcount (by simp) (if_neg hwithin).symm
  | retrySubmittedTask maxRetries reason delaySeconds now =>
    refine ⟨_, _, rfl, rfl, ?_⟩
    have hstatus : m.status = .submitted := by simpa [StoreOp.retries] using h
    have hcount : max 0 m.retryCount < max 0 m.retryCount + 1 := by omega
    simp only [StoreOp.apply, retrySubmittedTask, hstatus, ne_eq, not_true, if_false]
    split
    next hover => exact charged_retry hcount (by simp [Meta.setRetryTerminal]) (if_pos hover).symm
    next hwithin => exact charged_retry hcount (by simp) (if_neg hwithin).symm
  | retryAmbiguousSubmittedTask maxRetries reason delaySeconds now =>
    refine ⟨_, _, rfl, rfl, ?_⟩
    have hstatus : m.status = .submitted := by simpa [StoreOp.retries] using h
    have hcount : max 0 m.infrastructureRetryCount < max 0 m.infrastructureRetryCount + 1 := by
      omega
    simp only [StoreOp.apply, retryAmbiguousSubmittedTask, hstatus, ne_eq, not_true, if_false]
    split
    next hover =>
      exact charged_infrastructure hcount (by simp [Meta.setRetryTerminal]) (if_pos hover).symm
    next hwithin => exact charged_infrastructure hcount (by simp) (if_neg hwithin).symm
  | retryTimedOutSubmittedTask maxRetries reason delaySeconds now =>
    refine ⟨_, _, rfl, rfl, ?_⟩
    have hopen : m.status = .submitted ∧ m.cancelRequested = false := by
      simpa [StoreOp.retries] using h
    have hbusy : ¬ (m.status ≠ .submitted ∨ m.cancelRequested = true) := by simp [hopen]
    -- The larger of two counters is at least the one that is stored back.
    have hcount : max 0 m.retryCount <
        max (max 0 m.retryCount) (max 0 m.resultTimeoutRetryCount) + 1 := by omega
    simp only [StoreOp.apply, retryTimedOutSubmittedTask, hbusy, if_false]
    split
    next hover => exact charged_retry hcount (by simp [Meta.setRetryTerminal]) (if_pos hover).symm
    next hwithin => exact charged_retry hcount (by simp) (if_neg hwithin).symm
  | recordExecutionMiss retryLimit reason now =>
    refine ⟨_, _, rfl, rfl, ?_⟩
    have hcount : max 0 m.retryCount < max 0 m.retryCount + 1 := by omega
    simp only [StoreOp.apply, recordExecutionMiss]
    split
    next hover => exact charged_retry hcount rfl (if_pos hover).symm
    next hwithin => exact charged_retry hcount rfl (if_neg hwithin).symm
  | _ => cases h

theorem refreshesProxy_raises (o : StoreOp) (h : o.refreshesProxy m = true) :
    m.ambiguousProxyRetryCount < (o.apply u m).ambiguousProxyRetryCount := by
  cases o with
  | retryAmbiguousProxyTask reason accountId proxyNodeId delaySeconds now =>
    have hstatus : m.status = .submitted := by simpa [StoreOp.refreshesProxy] using h
    have hcount : m.ambiguousProxyRetryCount < max 0 m.ambiguousProxyRetryCount + 1 := by omega
    simpa only [StoreOp.apply, retryAmbiguousProxyTask, hstatus, ne_eq, not_true, if_false]
      using hcount
  | _ => cases h

/-- Only an execution miss is applied to a finished task. -/
theorem executionMiss_of_retries {o : StoreOp} (h : o.retries m = true)
    (hterminal : m.status.isTerminal = true) : o.isExecutionMiss = true := by
  cases o with
  | recordExecutionMiss => rfl
  | recordRetry | recordInfrastructureRetry =>
    have hopen := not_retired_of_open (of_decide_eq_true h)
    exact absurd (terminal_mem _ hterminal) hopen
  | retrySubmittedTask | retryAmbiguousSubmittedTask =>
    have hstatus : m.status = .submitted := by simpa [StoreOp.retries] using h
    rw [hstatus] at hterminal
    cases hterminal
  | retryTimedOutSubmittedTask =>
    have hopen : m.status = .submitted ∧ m.cancelRequested = false := by
      simpa [StoreOp.retries] using h
    rw [hopen.1] at hterminal
    cases hterminal
  | _ => cases h

/-- What does not retry does not bring a finished task back. -/
theorem terminal_of_not_retries {o : StoreOp} (h : o.retries m = false)
    (hterminal : m.status.isTerminal = true) : (o.apply u m).status.isTerminal = true := by
  have hmiss : o.isExecutionMiss = false := by
    cases o with
    | recordExecutionMiss => cases h
    | _ => rfl
  obtain ⟨hsuccess, hcanceled, hfailed⟩ := storeOp_legal (u := u) o hmiss m
  cases hm : m.status with
  | success => rw [hsuccess hm]; rfl
  | canceled => rw [hcanceled hm]; rfl
  | failed =>
    rcases hfailed hm with hend | ⟨hend, -⟩
    · rw [hend]; rfl
    · rw [hend]; rfl
  | _ => rw [hm] at hterminal; cases hterminal

end Steps

/-! ### Runs -/

section Runs

variable {u : Chars} {limit : Int} {o : LimitedOp limit} {m : Meta}

theorem clampRetries_le (hlimit : 0 ≤ limit) (given : Option Int) :
    clampRetries limit given ≤ limit := by
  cases given with
  | none => exact le_refl limit
  | some n => exact max_le hlimit (min_le_left limit n)

/-- The limit of an operation is within the budget of its counter. -/
theorem LimitedOp.opLimit_le (hlimit : 0 ≤ limit) (o : LimitedOp limit) {c : Counter}
    {opLimit : Int} (hc : o.1.charges = some c) (hop : o.1.retryLimit = some opLimit) :
    opLimit ≤ budget limit c := by
  obtain ⟨o, ho⟩ := o
  cases o with
  | recordRetry => cases hc; cases hop; exact le_of_eq ho
  | recordExecutionMiss => cases hc; cases hop; exact le_of_eq ho
  | recordInfrastructureRetry => cases hc; cases hop; exact le_max_right _ _
  | retrySubmittedTask | retryTimedOutSubmittedTask =>
    cases hc; cases hop
    obtain ⟨given, rfl⟩ := ho
    exact clampRetries_le hlimit given
  | retryAmbiguousSubmittedTask =>
    cases hc; cases hop
    obtain ⟨given, rfl⟩ := ho
    exact le_trans (clampRetries_le hlimit given) (le_max_left _ _)
  | _ => cases hc

/-- The counters of a task that goes on are within their budgets. -/
structure InBudget (limit : Int) (m : Meta) : Prop where
  nonneg : ∀ c, 0 ≤ m.counter c
  within : m.status.isTerminal = false → ∀ c, m.counter c ≤ budget limit c

theorem Fresh.inBudget (hlimit : 0 ≤ limit) (h : Fresh m) : InBudget limit m := by
  have hzero : ∀ c, m.counter c = 0 := by
    intro c
    cases c with
    | retry => exact h.retryCount
    | infrastructure => exact h.infrastructureRetryCount
  refine ⟨fun c => le_of_eq (hzero c).symm, fun _ c => ?_⟩
  rw [hzero]
  cases c with
  | retry => exact hlimit
  | infrastructure => exact le_trans hlimit (le_max_left _ _)

theorem InBudget.withinBudget (h : InBudget limit m) : WithinBudget limit m := by
  intro hopen
  have hgoes : m.status.isTerminal = false := by
    rcases hopen with hstatus | hstatus <;> rw [hstatus] <;> rfl
  exact ⟨h.within hgoes .retry, h.within hgoes .infrastructure⟩

/-- Every applied retry is charged. -/
theorem charges (u : Chars) (o : LimitedOp limit) (m : Meta) : Charges u o m := by
  refine ⟨fun c hc hretries => ?_, refreshesProxy_raises o.1⟩
  obtain ⟨c', opLimit, hc', hlimit, hcharged⟩ := charged_of_retries (u := u) hretries
  obtain rfl : c' = c := Option.some.inj (hc'.symm.trans hc)
  constructor
  · exact lt_of_le_of_lt (le_max_right 0 _) hcharged.raised
  · intro opLimit' hop hover
    obtain rfl : opLimit = opLimit' := Option.some.inj (hlimit.symm.trans hop)
    exact hcharged.status.trans (if_pos hover)

/-- No counter is ever lowered. -/
theorem counter_le_apply (u : Chars) (o : LimitedOp limit) (m : Meta) (c : Counter) :
    m.counter c ≤ (o.apply u m).counter c := by
  cases hretries : o.1.retries m with
  | false => exact le_of_eq ((sameCounters_of_not_retries hretries).counter c).symm
  | true =>
    obtain ⟨c', opLimit, -, -, hcharged⟩ := charged_of_retries (u := u) hretries
    rcases eq_or_ne c c' with rfl | hne
    · exact le_of_lt (lt_of_le_of_lt (le_max_right 0 _) hcharged.raised)
    · exact le_of_eq (hcharged.kept c hne).symm

/-- An execution miss spends from `retry_count` up to the configured limit, in every status. -/
theorem executionMiss_charged (u : Chars) (m : Meta) (hmiss : o.1.isExecutionMiss = true) :
    Charged .retry limit m (o.apply u m) := by
  obtain ⟨o, ho⟩ := o
  cases o with
  | recordExecutionMiss retryLimit reason now =>
    obtain rfl : retryLimit = limit := ho
    obtain ⟨c, opLimit, hc, hop, hcharged⟩ :=
      charged_of_retries (u := u) (m := m) (o := .recordExecutionMiss retryLimit reason now) rfl
    cases hc
    cases hop
    exact hcharged
  | _ => cases hmiss

/-- The step lemma. -/
theorem InBudget.apply (hlimit : 0 ≤ limit) (h : InBudget limit m) (hreopens : Reopens o m) :
    InBudget limit (o.apply u m) := by
  refine ⟨fun c => le_trans (h.nonneg c) (counter_le_apply u o m c), fun hgoes c => ?_⟩
  cases hretries : o.1.retries m with
  | false =>
    have hbefore : m.status.isTerminal = false := by
      rw [← Bool.not_eq_true]
      intro hterminal
      have hafter := terminal_of_not_retries (u := u) hretries hterminal
      exact absurd (hgoes.symm.trans hafter) (by decide)
    have hsame := (sameCounters_of_not_retries (u := u) hretries).counter c
    exact le_of_eq_of_le hsame (h.within hbefore c)
  | true =>
    obtain ⟨c', opLimit, hc', hop, hcharged⟩ := charged_of_retries (u := u) hretries
    have hwithin : (o.apply u m).counter c' ≤ opLimit := by
      by_contra hover
      have hfailed := hcharged.status.trans (if_pos (not_le.mp hover))
      exact absurd (hgoes.symm.trans (congrArg Status.isTerminal hfailed)) (by decide)
    have hbound := le_trans hwithin (o.opLimit_le hlimit hc' hop)
    rcases eq_or_ne c c' with rfl | hne
    · exact hbound
    · have hkept : (o.apply u m).counter c = m.counter c := hcharged.kept c hne
      rw [hkept]
      cases hterminal : m.status.isTerminal with
      | false => exact h.within hterminal c
      | true =>
        -- A finished task comes back: the other counter may be the one that ended it.
        have hmiss := executionMiss_of_retries hretries hterminal
        obtain rfl : c' = .retry := by
          obtain ⟨o, ho⟩ := o
          cases o with
          | recordExecutionMiss => exact (Option.some.inj hc').symm
          | _ => cases hmiss
        have hraised := hcharged.raised
        have hspent : max 0 m.retryCount + 1 ≤ limit := le_trans hraised hbound
        cases c with
        | retry => exact absurd rfl hne
        | infrastructure => exact hreopens hmiss hspent

/-- An execution miss that brings a task back shows both counters. -/
theorem reopens_of_withinBudget (h : WithinBudget limit (o.apply u m)) : Reopens o m := by
  intro hmiss hspent
  have hcharged := executionMiss_charged u m hmiss
  have hcount : (o.apply u m).retryCount = max 0 m.retryCount + 1 := by
    obtain ⟨o, ho⟩ := o
    cases o with
    | recordExecutionMiss retryLimit reason now =>
      show (recordExecutionMiss retryLimit reason now m).2.retryCount = max 0 m.retryCount + 1
      simp only [recordExecutionMiss]
      split <;> rfl
    | _ => cases hmiss
  have hpending : (o.apply u m).status = .pending := by
    rw [hcharged.status]
    exact if_neg (by rw [show (o.apply u m).counter .retry = _ from hcount]; omega)
  have hinfrastructure := (h (.inl hpending)).2
  exact le_of_eq_of_le (hcharged.kept .infrastructure (by decide)).symm hinfrastructure

/-- What is left of a budget. -/
def left (limit : Int) (m : Meta) (c : Counter) : Nat := (budget limit c - m.counter c).toNat

theorem left_apply_le (u : Chars) (o : LimitedOp limit) (m : Meta) (c : Counter) :
    left limit (o.apply u m) c ≤ left limit m c := by
  have hmono := counter_le_apply u o m c
  unfold left
  omega

/-- A return to `pending` is paid for from one of the budgets. -/
theorem left_of_returns (hlimit : 0 ≤ limit) (h : o.returns u m = true) :
    ∃ c, left limit (o.apply u m) c + 1 ≤ left limit m c := by
  obtain ⟨⟨-, hretries⟩, hpending⟩ :
      (o.1.charges.isSome = true ∧ o.1.retries m = true) ∧ (o.apply u m).status = .pending := by
    simpa [LimitedOp.returns] using h
  obtain ⟨c, opLimit, hc, hop, hcharged⟩ := charged_of_retries (u := u) hretries
  have hwithin : (o.apply u m).counter c ≤ opLimit := by
    by_contra hover
    have hfailed := hcharged.status.trans (if_pos (not_le.mp hover))
    exact absurd (hpending.symm.trans hfailed) (by decide)
  have hraised : m.counter c < (o.apply u m).counter c :=
    lt_of_le_of_lt (le_max_right 0 _) hcharged.raised
  have hbudget := o.opLimit_le hlimit hc hop
  refine ⟨c, ?_⟩
  unfold left
  omega

theorem countReturns_le (hlimit : 0 ≤ limit) (ops : List (LimitedOp limit)) (m : Meta) :
    countReturns u ops m ≤ left limit m .retry + left limit m .infrastructure := by
  induction ops generalizing m with
  | nil => exact Nat.zero_le _
  | cons o ops ih =>
    have hrest := ih (o.apply u m)
    have hretry := left_apply_le u o m .retry
    have hinfrastructure := left_apply_le u o m .infrastructure
    show (if o.returns u m then 1 else 0) + countReturns u ops (o.apply u m) ≤ _
    split
    next hreturns =>
      obtain ⟨c, hpaid⟩ := left_of_returns hlimit hreturns
      cases c <;> omega
    next => omega

theorem taskRetryLimit_nonneg (setting : Option Int) : 0 ≤ taskRetryLimit setting := by
  cases setting with
  | none => decide
  | some n => exact le_max_left _ _

end Runs

/-- The budgets hold over a run exactly when every execution miss that has budget left finds
a task that is not over the other budget. -/
theorem retryBudget_iff (u : Chars) (setting : Option Int)
    (ops : List (LimitedOp (taskRetryLimit setting))) (m : Meta) (hm : Fresh m) :
    RetryBudget u ops m ↔ AllSteps (LimitedOp.apply u) Reopens ops m := by
  have hlimit := taskRetryLimit_nonneg setting
  have hstart := hm.inBudget hlimit
  have hcount : (countReturns u ops m : Int) ≤
      taskRetryLimit setting + max (taskRetryLimit setting) maxInfrastructureRetries := by
    have hle := countReturns_le (u := u) hlimit ops m
    have hretry := hstart.nonneg .retry
    have hinfrastructure := hstart.nonneg .infrastructure
    simp only [left, budget] at hle
    omega
  have hexact : Throughout (LimitedOp.apply u) (WithinBudget (taskRetryLimit setting)) ops m ∧
      AllSteps (LimitedOp.apply u) (Charges u) ops m ↔
        AllSteps (LimitedOp.apply u) Reopens ops m := throughout_and_allSteps_iff
    (fun _ h => h.withinBudget) (fun _ _ h hreopens => h.apply hlimit hreopens)
    (fun o m h => ⟨fun hdone => reopens_of_withinBudget hdone.1,
      fun hreopens => ⟨(h.apply hlimit hreopens).withinBudget, charges u o m⟩⟩) hstart
  constructor
  · rintro ⟨hwithin, hcharges, -⟩
    exact hexact.mp ⟨hwithin, hcharges⟩
  · intro hreopens
    obtain ⟨hwithin, hcharges⟩ := hexact.mpr hreopens
    exact ⟨hwithin, hcharges, hcount⟩

/-! ### A task that ran out of one budget and is brought back -/

def newTask : Meta := { status := .pending }

def infrastructureRetry (limit : Int) : LimitedOp limit :=
  ⟨.recordInfrastructureRetry "browser allocation timeout" 0, trivial⟩

def executionMiss (limit : Int) : LimitedOp limit :=
  ⟨.recordExecutionMiss limit "任务未执行，重新排队" 1, rfl⟩

/-- A failed connection and a missed execution, each once. -/
theorem retryBudget_iff_two :
    Fresh newTask ∧
      RetryBudget .ascii [infrastructureRetry (taskRetryLimit none), executionMiss _] newTask := by
  have hnew : Fresh newTask := ⟨.inr rfl, rfl, rfl⟩
  refine ⟨hnew, (retryBudget_iff .ascii none _ newTask hnew).mpr ⟨?_, ?_, trivial⟩⟩
  · intro hmiss
    cases hmiss
  · intro _ _
    decide

/-- Seven failed connections fail the task; the execution miss that comes after them makes
it pending with a counter of seven. -/
theorem failed_task_reopened :
    ¬ RetryBudget .ascii
      (List.replicate 7 (infrastructureRetry (taskRetryLimit none)) ++ [executionMiss _])
      newTask := by
  rintro ⟨hwithin, -, -⟩
  have hfinal := (hwithin.final (.inl (by decide +kernel))).2
  exact absurd hfinal (by decide +kernel)

end FetchTask.Store
