import FetchTask.Lib.Knowledge
import FetchTask.Lifecycle.Worker
import FetchTask.Store.Endings

/-!
What the calls on a task know of its result when they write.

A query or a pass of the watchdog wipes the result of a task only after a retry
whose count is within the limit that it compares with; a call that finds the
record gone on the way wipes nothing. It retries only after it has read a result
without a video, or was told by the platform that nothing was submitted. It stores
a video only after it has read the cookie of a submission, and marks a success
only after it has read a video. No other write of these calls takes a video away.
`Steady k p` says this of a program that begins with at least the knowledge `k`,
and begins and ends with nothing to wipe.
-/

namespace FetchTask.Lifecycle

open Store Knowledge

/-- The limit that the caller of a retry compares its count with. -/
def comparedLimit (S : Setting) (site : Site) : Int :=
  if site = .policyRetry then 1 else S.retryLimit

/-- The caller of this retry goes on to wipe the result when it returns this count. -/
def wipesAfter (S : Setting) (site : Site) : StoreOp → Int → Bool
  | .retrySubmittedTask .., count => decide (count ≤ comparedLimit S site)
  | .retryAmbiguousProxyTask .., _ => true
  | .retryAmbiguousSubmittedTask .., count => decide (count ≤ S.retryLimit)
  | _, _ => false

def KeepsVideo (f : TaskResult → TaskResult) : Prop := ∀ r, (f r).decodedMainUrl = r.decodedMainUrl

def StoresVideo (f : TaskResult → TaskResult) : Prop := ∀ r, (f r).decodedMainUrl ≠ ""

/-- `clear_transient_result`, as far as the video goes. -/
def Wipes (f : TaskResult → TaskResult) : Prop := ∀ r, (f r).decodedMainUrl = ""

/-! ### What a call has seen -/

structure Sight where
  /-- The call is between a retry and the wiping of the result. -/
  wiping : Bool := false
  /-- It has read a result without a video, or was told that nothing was submitted. -/
  unfinished : Bool := false
  /-- The result that it has read last had a video. -/
  found : Bool := false
  /-- It has read a result with the cookie of a submission. -/
  cookie : Bool := false
  deriving DecidableEq

/-- The platform knows of no submission, or has refused it. -/
def Reply.unsubmitted (reply : Reply) : Bool :=
  decide (textOr reply.state "generating" ∈ ["submission_unconfirmed", "quota_insufficient"])

namespace Sight

variable (S : Setting)

def loads (k : Sight) (r : TaskResult) : Sight :=
  { k with
    unfinished := k.unfinished || S.chars.strip r.decodedMainUrl == ""
    found := r.decodedMainUrl != ""
    cookie := k.cookie || r.cookieString != "" }

def hears (k : Sight) : (q : Question) → q.Answer → Sight
  | .fetchDoubao, .ok reply => { k with unfinished := k.unfinished || reply.unsubmitted }
  | _, _ => k

def learn : Sight → (o : Op) → o.Res → Sight
  | k, .write site o, some count => { k with wiping := k.wiping || wipesAfter S site o count }
  -- A call that finds the record gone raises.
  | k, .write .., none | k, .getMeta, none => { k with wiping := false }
  | k, .saveResult _, _ => { k with wiping := false }
  | k, .loadResult, r => k.loads S r
  | k, .ask q, answer => k.hears q answer
  | k, _, _ => k

/-- `k'` has seen at least what `k` has seen of the submission. -/
def Le (k k' : Sight) : Prop :=
  (k.unfinished = true → k'.unfinished = true) ∧ (k.cookie = true → k'.cookie = true)

/-- The same, with nothing to wipe. -/
def Calm (k k' : Sight) : Prop := k.Le k' ∧ k'.wiping = false

variable {S} {k k' k'' : Sight} {r : TaskResult}

theorem Le.refl (k : Sight) : k.Le k := ⟨id, id⟩

theorem Le.trans (h : k.Le k') (h' : k'.Le k'') : k.Le k'' := ⟨h'.1 ∘ h.1, h'.2 ∘ h.2⟩

theorem le_loads (k : Sight) (r : TaskResult) : k.Le (k.loads S r) :=
  ⟨fun h => by simp [loads, h], fun h => by simp [loads, h]⟩

theorem Le.loads (h : k.Le k') (r : TaskResult) : (k.loads S r).Le (k'.loads S r) := by
  obtain ⟨hunfinished, hcookie⟩ := h
  simp only [Le, Sight.loads, Bool.or_eq_true]
  exact ⟨Or.imp_left hunfinished, Or.imp_left hcookie⟩

theorem le_hears (k : Sight) (q : Question) (answer : q.Answer) : k.Le (k.hears q answer) := by
  unfold hears
  split
  · exact ⟨fun h => by simp [h], id⟩
  · exact .refl k

theorem Le.hears (h : k.Le k') (q : Question) (answer : q.Answer) :
    (k.hears q answer).Le (k'.hears q answer) := by
  obtain ⟨hunfinished, hcookie⟩ := h
  unfold Sight.hears
  split
  · simp only [Le, Bool.or_eq_true]
    exact ⟨Or.imp_left hunfinished, hcookie⟩
  · exact ⟨hunfinished, hcookie⟩

theorem wiping_hears (k : Sight) (q : Question) (answer : q.Answer) :
    (k.hears q answer).wiping = k.wiping := by
  unfold hears
  split <;> rfl

theorem strip_empty : S.chars.strip "" = "" := rfl

/-- A result without a video is noticed. -/
theorem unfinished_loads (h : S.chars.strip r.decodedMainUrl = "") :
    (k.loads S r).unfinished = true := by
  simp [loads, h]

theorem cookie_loads (h : r.cookieString ≠ "") : (k.loads S r).cookie = true := by
  simp [loads, h]

end Sight

/-- What calls see, and what they may write. -/
def wipeKnowledge (S : Setting) : Knowledge LifeSig Sight where
  start := {}
  may
    | k, .saveResult f => KeepsVideo f ∨ (k.cookie = true ∧ StoresVideo f) ∨
        (k.wiping = true ∧ Wipes f)
    | k, .write site o => ((∀ m, o.marksSuccess m = false) ∨ k.found = true) ∧
        ((∀ count, wipesAfter S site o count = false) ∨ k.unfinished = true)
    | _, .updateMeta _ f => ∀ m, (f m).status = m.status
    | _, .updateMetaIf _ _ f => ∀ m, (f m).status = m.status
    | _, _ => True
  can _ _ := True
  learn := Sight.learn S

variable {S : Setting} {α β : Type} {k : Sight}

@[irreducible] def Steady (S : Setting) (k : Sight) (p : Run α) : Prop :=
  ∀ k', k.Le k' → k'.wiping = false →
    (wipeKnowledge S).Does (fun _ => k'.Calm) (fun _ => k'.Calm) k' p

/-! ### Rules -/

theorem Steady.does {p : Run α} (h : Steady S k p) {k' : Sight} (hk : k.Le k')
    (hcalm : k'.wiping = false) :
    (wipeKnowledge S).Does (fun _ => k'.Calm) (fun _ => k'.Calm) k' p := by
  unfold Steady at h
  exact h k' hk hcalm

theorem Steady.of_does {p : Run α} (h : ∀ k', k.Le k' → k'.wiping = false →
    (wipeKnowledge S).Does (fun _ => k'.Calm) (fun _ => k'.Calm) k' p) : Steady S k p := by
  unfold Steady
  exact h

theorem Steady.mono {k' : Sight} {p : Run α} (h : Steady S k p) (hk : k.Le k') : Steady S k' p :=
  .of_does fun _ hk' hcalm => h.does (hk.trans hk') hcalm

theorem steady_pure (a : α) : Steady S k (pure a) := .of_does fun k' _ hcalm => ⟨.refl k', hcalm⟩

theorem steady_throw (fault : Fault) : Steady S k (throw fault : Run α) :=
  .of_does fun k' _ hcalm => ⟨.refl k', hcalm⟩

/-- What follows may count on what was seen before. -/
theorem Sight.Calm.does {k k' k'' : Sight} {p : Run α} (h : Steady S k p) (hk : k.Le k')
    (hcalm : k'.Calm k'') :
    (wipeKnowledge S).Does (fun _ => k'.Calm) (fun _ => k'.Calm) k'' p :=
  (h.does (hk.trans hcalm.1) hcalm.2).mono (fun _ _ h => ⟨hcalm.1.trans h.1, h.2⟩)
    fun _ _ h => ⟨hcalm.1.trans h.1, h.2⟩

theorem Steady.bind {p : Run α} {f : α → Run β} (hp : Steady S k p)
    (hf : ∀ a, Steady S k (f a)) : Steady S k (p >>= f) :=
  .of_does fun _ hk hcalm =>
    Does.bind (hp.does hk hcalm) fun a _ hcalm' => hcalm'.does (hf a) hk

theorem Steady.tryCatch {p : Run α} {handler : Fault → Run α} (hp : Steady S k p)
    (hh : ∀ fault, Steady S k (handler fault)) : Steady S k (tryCatch p handler) :=
  .of_does fun _ hk hcalm =>
    Does.tryCatch (hp.does hk hcalm) fun fault _ hcalm' => hcalm'.does (hh fault) hk

theorem steady_ite {c : Prop} [Decidable c] {p q : Run α} (hp : Steady S k p)
    (hq : Steady S k q) : Steady S k (if c then p else q) := by
  split
  · exact hp
  · exact hq

theorem steady_when {c : Prop} [Decidable c] {action : Run Unit} (h : Steady S k action) :
    Steady S k (when c action) :=
  steady_ite h (steady_pure ())

/-! ### Operations -/

/-- An operation that teaches nothing. -/
theorem steady_op {o : Op} (ho : ∀ k, (wipeKnowledge S).Neutral k o) : Steady S k (op o) :=
  .of_does fun k' _ hcalm => does_act (ho k').1 fun r hr => by
    rw [(ho k').2 r hr]
    exact ⟨.refl k', hcalm⟩

theorem steady_clock : Steady S k clock := steady_op fun _ => ⟨trivial, fun _ _ => rfl⟩

theorem calm_hears {k : Sight} (hcalm : k.wiping = false) (q : Question) (answer : q.Answer) :
    k.Calm (k.hears q answer) :=
  ⟨k.le_hears q answer, (k.wiping_hears q answer).trans hcalm⟩

theorem steady_ask (q : Question) : Steady S k (ask q) :=
  .of_does fun _ _ hcalm => does_act trivial fun answer _ => calm_hears hcalm q answer

/-- What follows an answer may count on it. -/
theorem steady_ask_bind {q : Question} {f : q.Answer → Run β}
    (hf : ∀ answer, Steady S (k.hears q answer) (f answer)) : Steady S k (ask q >>= f) := by
  refine .of_does fun k' hk hcalm => ?_
  refine Does.bind (Q := fun answer k'' => k'' = k'.hears q answer)
    (E := fun _ => k'.Calm) (does_act trivial fun answer _ => rfl) ?_
  rintro answer _ rfl
  have hcalm' := calm_hears hcalm q answer
  refine ((hf answer).does (hk.hears q answer) hcalm'.2).mono ?_ ?_
  · exact fun _ _ h => ⟨hcalm'.1.trans h.1, h.2⟩
  · exact fun _ _ h => ⟨hcalm'.1.trans h.1, h.2⟩

theorem does_loadResult_seen {Q : TaskResult → Sight → Prop} {E : Fault → Sight → Prop}
    (h : ∀ r, Q r (k.loads S r)) : (wipeKnowledge S).Does Q E k loadResult :=
  does_act trivial fun r _ => h r

/-- What follows the read of a result may count on it. -/
theorem steady_loadResult_bind {f : TaskResult → Run β}
    (hf : ∀ r, Steady S (k.loads S r) (f r)) : Steady S k (loadResult >>= f) := by
  refine .of_does fun k' hk hcalm => ?_
  refine Does.bind (Q := fun r k'' => k'' = k'.loads S r) (E := fun _ => k'.Calm)
    (does_loadResult_seen fun _ => rfl) ?_
  rintro r _ rfl
  refine ((hf r).does (hk.loads r) hcalm).mono ?_ ?_
  · exact fun _ _ h => ⟨(k'.le_loads r).trans h.1, h.2⟩
  · exact fun _ _ h => ⟨(k'.le_loads r).trans h.1, h.2⟩

theorem steady_loadResult_bind' {f : TaskResult → Run β} (hf : ∀ r, Steady S k (f r)) :
    Steady S k (loadResult >>= f) :=
  steady_loadResult_bind fun r => (hf r).mono (k.le_loads r)

theorem steady_readMeta : Steady S k (op .getMeta) :=
  .of_does fun k' _ hcalm => does_act trivial fun r _ => by
    cases r with
    | none => exact ⟨⟨id, id⟩, rfl⟩
    | some m => exact ⟨.refl k', hcalm⟩

theorem steady_found (a : Option α) : Steady S k (found a) := by
  cases a with
  | none => exact steady_throw _
  | some a => exact steady_pure a

theorem steady_existing (present : Bool) : Steady S k (existing present) :=
  steady_ite (steady_pure ()) (steady_throw _)

theorem steady_raised (answer : Except Fault α) : Steady S k (raised answer) := by
  cases answer with
  | ok a => exact steady_pure a
  | error e => exact steady_throw e

theorem steady_getMeta : Steady S k getMeta := steady_readMeta.bind fun read => steady_found read

/-- A write that marks no success, and after which nothing is wiped. -/
structure Quiet (S : Setting) (site : Site) (o : StoreOp) : Prop where
  marks : ∀ m, o.marksSuccess m = false
  wipes : ∀ count, wipesAfter S site o count = false

theorem does_write_seen {site : Site} {o : Int → StoreOp} {Q : Int → Sight → Prop}
    {E : Fault → Sight → Prop} (hmay : ∀ now, (wipeKnowledge S).may k (.write site (o now)))
    (hsome : ∀ now count, Q count { k with wiping := k.wiping || wipesAfter S site (o now) count })
    (hnone : E .fileNotFound { k with wiping := false }) :
    (wipeKnowledge S).Does Q E k (write site o) := by
  refine ⟨trivial, fun now _ => ⟨hmay now, fun r _ => ?_⟩⟩
  cases r with
  | none => exact hnone
  | some count => exact hsome now count

theorem steady_write {site : Site} {o : Int → StoreOp} (hquiet : ∀ now, Quiet S site (o now)) :
    Steady S k (write site o) := by
  refine .of_does fun k' _ hcalm => does_write_seen (fun now => ?_) (fun now count => ?_) ?_
  · exact ⟨.inl (hquiet now).marks, .inl (hquiet now).wipes⟩
  · exact ⟨⟨id, id⟩, by simp [hcalm, (hquiet now).wipes]⟩
  · exact ⟨⟨id, id⟩, rfl⟩

theorem steady_updateMeta {f : Meta → Meta}
    (hstatus : ∀ m, (f m).status = m.status) :
    Steady S k (updateMeta f) :=
  steady_clock.bind fun now =>
    (steady_op (o := .updateMeta now f) fun _ =>
      ⟨show ∀ _, _ from hstatus, fun _ _ => rfl⟩).bind steady_existing

theorem steady_saveResult {f : TaskResult → TaskResult} (hf : KeepsVideo f) :
    Steady S k (saveResult f) := by
  refine .of_does fun _ _ _ => does_act ?_ fun _ _ => ⟨⟨id, id⟩, rfl⟩
  exact Or.inl hf

/-- A video is stored by a call that has read the cookie of the submission. -/
theorem steady_storeVideo {f : TaskResult → TaskResult} (hcookie : k.cookie = true)
    (hf : StoresVideo f) : Steady S k (saveResult f) := by
  refine .of_does fun k' hk _ => does_act ?_ fun _ _ => ⟨⟨id, id⟩, rfl⟩
  exact Or.inr (.inl ⟨hk.2 hcookie, hf⟩)

/-- A mark of success that comes after the read of a video. -/
theorem steady_mark {o : Int → StoreOp}
    (hwipes : ∀ now count, wipesAfter S .usual (o now) count = false) :
    Steady S k (loadResult >>= fun result => when (result.decodedMainUrl ≠ "") do
      let _ ← write .usual o) := by
  refine .of_does fun k' _ hcalm => ?_
  refine Does.bind (Q := fun r k'' => k'.Calm k'' ∧ (r.decodedMainUrl ≠ "" → k''.found = true))
    (does_loadResult_seen fun r => ⟨⟨k'.le_loads r, hcalm⟩, fun h => by simp [Sight.loads, h]⟩) ?_
  rintro r k'' ⟨hcalm', hfound⟩
  unfold when
  split
  · rename_i hvideo
    refine Does.bind (Q := fun _ => k'.Calm) (does_write_seen (fun now => ?_) (fun now count => ?_) ?_)
      fun _ _ h => h
    · exact ⟨.inr (hfound hvideo), .inl (hwipes now)⟩
    · exact ⟨hcalm'.1, by simp [hcalm'.2, hwipes]⟩
    · exact ⟨hcalm'.1, rfl⟩
  · exact hcalm'

/-! ### Retries -/

theorem does_requeuePendingTask (k : Sight) :
    (wipeKnowledge S).Does (fun _ k' => k' = k) (fun _ => k.Calm) k requeuePendingTask := by
  refine ⟨trivial, fun read _ => ?_⟩
  cases read with
  | none => exact ⟨⟨id, id⟩, rfl⟩
  | some m =>
    show (wipeKnowledge S).Does _ _ k (when _ _)
    unfold when
    split
    · refine Does.bind (Q := fun _ k' => k' = k) (does_write_seen (fun now => ?_) (fun now count => ?_) ?_)
        fun _ _ h => h
      · exact ⟨.inl fun _ => rfl, .inl fun _ => rfl⟩
      · simp [wipesAfter]
      · exact ⟨⟨id, id⟩, rfl⟩
    · exact rfl

/-- A call that has to wipe the result does so. -/
theorem does_clearTransientResult {again : Run α} (h : Steady S k again) {k' : Sight}
    (hk : k.Le k') (hwiping : k'.wiping = true) :
    (wipeKnowledge S).Does (fun _ => k'.Calm) (fun _ => k'.Calm) k'
      (clearTransientResult >>= fun _ => again) := by
  refine ⟨.inr (.inr ⟨hwiping, fun _ => rfl⟩), fun _ _ => ?_⟩
  have hcalm : k'.Calm { k' with wiping := false } := ⟨⟨id, id⟩, rfl⟩
  exact hcalm.does h hk

/-- A retry whose caller compares its count with a limit. -/
theorem does_retry_wiping {site : Site} {o : Int → StoreOp} {limit compared : Int}
    (hunfinished : k.unfinished = true) (hcalm : k.wiping = false)
    (hmarks : ∀ now m, (o now).marksSuccess m = false)
    (hwipes : ∀ now count, wipesAfter S site (o now) count = decide (count ≤ compared)) :
    (wipeKnowledge S).Does
      (fun count k' => k.Le k' ∧ k'.wiping = decide (count ≤ compared)) (fun _ => k.Calm) k (do
        let count ← write site o
        when (count ≤ limit) requeuePendingTask
        return count) := by
  refine Does.bind (Q := fun count k' => k.Le k' ∧ k'.wiping = decide (count ≤ compared)) ?_ ?_
  · refine does_write_seen (fun now => ⟨.inl (hmarks now), .inr hunfinished⟩) (fun now count => ?_) ?_
    · exact ⟨⟨id, id⟩, by simp [hcalm, hwipes]⟩
    · exact ⟨⟨id, id⟩, rfl⟩
  · rintro count k' ⟨hle, hwiping⟩
    unfold when
    split
    · refine Does.bind (Q := fun _ k'' => k'' = k') (E := fun _ => k.Calm) ?_ ?_
      · exact (does_requeuePendingTask k').mono (fun _ _ h => h)
          fun _ _ h => ⟨hle.trans h.1, h.2⟩
      · rintro _ _ rfl
        exact ⟨hle, hwiping⟩
    · exact ⟨hle, hwiping⟩

/-- Such a retry, and the wiping that follows a count within the limit. -/
theorem steady_retry {site : Site} {o : Int → StoreOp} {limit compared : Int}
    {again otherwise : Run α} (hunfinished : k.unfinished = true)
    (hmarks : ∀ now m, (o now).marksSuccess m = false)
    (hwipes : ∀ now count, wipesAfter S site (o now) count = decide (count ≤ compared))
    (hagain : Steady S k again) (hotherwise : Steady S k otherwise) :
    Steady S k ((do
        let count ← write site o
        when (count ≤ limit) requeuePendingTask
        return count) >>= fun count =>
      if count ≤ compared then clearTransientResult >>= fun _ => again else otherwise) := by
  refine .of_does fun k' hk hcalm =>
    Does.bind (does_retry_wiping (hk.1 hunfinished) hcalm hmarks hwipes) ?_
  rintro count k'' ⟨hle, hwiping⟩
  split
  · rename_i hcount
    rw [decide_eq_true hcount] at hwiping
    refine (does_clearTransientResult hagain (hk.trans hle) hwiping).mono ?_ ?_
    · exact fun _ _ h => ⟨hle.trans h.1, h.2⟩
    · exact fun _ _ h => ⟨hle.trans h.1, h.2⟩
  · rename_i hcount
    rw [decide_eq_false hcount] at hwiping
    exact Sight.Calm.does hotherwise hk ⟨hle, hwiping⟩

/-- The retry with another proxy wipes the result whatever its count is. -/
theorem steady_retryAmbiguousProxyTask_bind {reason accountId proxyNodeId : String} {delay : Int}
    {again : Run α} (hunfinished : k.unfinished = true) (h : Steady S k again) :
    Steady S k (retryAmbiguousProxyTask S reason accountId proxyNodeId delay >>= fun _ =>
      clearTransientResult >>= fun _ => again) := by
  refine .of_does fun k' hk hcalm => Does.bind (Q := fun _ k'' => k'.Le k'' ∧ k''.wiping = true)
    ?_ ?_
  · refine Does.bind (Q := fun _ k'' => k'.Le k'' ∧ k''.wiping = true) ?_ ?_
    · refine does_write_seen (fun now => ⟨.inl fun _ => rfl, .inr (hk.1 hunfinished)⟩)
        (fun now count => ?_) ?_
      · exact ⟨⟨id, id⟩, by simp [wipesAfter]⟩
      · exact ⟨⟨id, id⟩, rfl⟩
    · rintro _ k'' ⟨hle, hwiping⟩
      refine (does_requeuePendingTask k'').mono ?_ fun _ _ h => ⟨hle.trans h.1, h.2⟩
      rintro _ _ rfl
      exact ⟨hle, hwiping⟩
  · rintro _ k'' ⟨hle, hwiping⟩
    refine (does_clearTransientResult h (hk.trans hle) hwiping).mono ?_ ?_
    · exact fun _ _ h => ⟨hle.trans h.1, h.2⟩
    · exact fun _ _ h => ⟨hle.trans h.1, h.2⟩

theorem steady_retryOr {site : Site} {reason : String} {maxRetries delay : Int}
    {again : QueryResponse} {otherwise : Run QueryResponse} (hunfinished : k.unfinished = true)
    (hsite : site ≠ .policyRetry) (h : Steady S k otherwise) :
    Steady S k (retryOr S site reason maxRetries delay S.retryLimit again otherwise) := by
  refine steady_retry hunfinished (fun _ _ => rfl) (fun now count => ?_) (steady_pure again) h
  simp [wipesAfter, comparedLimit, hsite]

/-- The retry with the literal limit. -/
theorem steady_retryOr_policy {reason : String} {maxRetries delay : Int} {again : QueryResponse}
    {otherwise : Run QueryResponse} (hunfinished : k.unfinished = true)
    (h : Steady S k otherwise) :
    Steady S k (retryOr S .policyRetry reason maxRetries delay 1 again otherwise) := by
  refine steady_retry hunfinished (fun _ _ => rfl) (fun now count => ?_) (steady_pure again) h
  simp [wipesAfter, comparedLimit]

/-! ### Functions of the store -/

theorem steady_recordFailedAccount (accountId : String) :
    Steady S k (recordFailedAccount accountId) :=
  steady_when (steady_updateMeta fun _ => rfl)

theorem steady_setExecutionPhase (phase statusReason : String) :
    Steady S k (setExecutionPhase phase statusReason) := by
  refine steady_clock.bind fun now => Steady.bind (steady_op fun _ => ?_) fun updated => ?_
  · exact ⟨fun _ => rfl, fun _ _ => rfl⟩
  · exact (steady_found updated).bind fun _ => steady_pure ()

theorem steady_markSuccess : Steady S k markSuccess := steady_mark fun _ _ => rfl

theorem steady_markLateResultSuccess : Steady S k markLateResultSuccess :=
  steady_mark fun _ _ => rfl

theorem steady_markFailed (site : Site) (reason : String) : Steady S k (markFailed site reason) :=
  Steady.bind (steady_write fun _ => ⟨fun _ => rfl, fun _ => rfl⟩) fun _ => steady_pure ()

theorem steady_refundTempQuotaOnce (ownerHash : String) :
    Steady S k (refundTempQuotaOnce ownerHash) := by
  refine steady_when (Steady.bind (steady_op fun _ => ⟨trivial, fun _ _ => rfl⟩) fun refunded =>
    steady_when ?_)
  exact Steady.bind (steady_op fun _ => ⟨trivial, fun _ _ => rfl⟩) fun marked => steady_existing marked

theorem steady_refundAccountQuotaOnce (accountId chargeId : String) :
    Steady S k (refundAccountQuotaOnce S accountId chargeId) := by
  refine steady_when (Steady.bind (steady_op fun _ => ⟨trivial, fun _ _ => rfl⟩) fun refunded =>
    steady_when (steady_saveResult ?_))
  intro r
  dsimp only
  split <;> rfl

theorem steady_clearAccountCurrentTask (accountId : String) :
    Steady S k (clearAccountCurrentTask accountId) := steady_op fun _ => ⟨trivial, fun _ _ => rfl⟩

theorem steady_settleAccountQuota (accountId chargeId : String) :
    Steady S k (settleAccountQuota accountId chargeId) := steady_op fun _ => ⟨trivial, fun _ _ => rfl⟩

theorem steady_exhaustAccountQuota (accountId chargeId : String) :
    Steady S k (exhaustAccountQuota accountId chargeId) := steady_op fun _ => ⟨trivial, fun _ _ => rfl⟩

theorem steady_flagAccount (accountId : String) (flag : AccountFlag) :
    Steady S k (flagAccount accountId flag) := steady_op fun _ => ⟨trivial, fun _ _ => rfl⟩

theorem steady_consumeFailedAccountQuota (platform accountId chargeId : String) :
    Steady S k (consumeFailedAccountQuota S platform accountId chargeId) :=
  steady_ite (steady_settleAccountQuota _ _) (steady_refundAccountQuotaOnce _ _)

theorem steady_expireTaskIfTimeout : Steady S k expireTaskIfTimeout := by
  refine steady_getMeta.bind fun m => steady_clock.bind fun now => ?_
  refine steady_ite (steady_pure _) (steady_loadResult_bind' fun r => ?_)
  refine steady_ite (steady_pure _) (Steady.bind (steady_when ?_) fun _ => ?_)
  · exact Steady.bind (steady_op fun _ => ⟨trivial, fun _ _ => rfl⟩) fun _ => steady_clearAccountCurrentTask _
  · exact (steady_markFailed _ _).bind fun _ => (steady_refundTempQuotaOnce _).bind fun _ =>
      steady_pure _

end FetchTask.Lifecycle
