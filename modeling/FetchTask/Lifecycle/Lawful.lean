import FetchTask.Lifecycle.Refunds

/-!
Programs that keep to what they know.

`Lawful k p` says that the program `p`, begun with at least the knowledge `k` and
without debts, performs only what it may and ends without debts. `Pays k p` says
the same of a program that may begin with a debt. Here are the rules for the two
and the functions of the store.
-/

namespace FetchTask.Lifecycle

open Store Knowledge

variable {S : Setting} {O : Owners} {α β : Type} {k : Known}

/-- Knowledge has grown, and nothing is owed. -/
def Settled (k k' : Known) : Prop := k.Le k' ∧ ¬ k'.owes

def Lawful (O : Owners) (k : Known) (p : Run α) : Prop :=
  ∀ k', k.Le k' → ¬ k'.owes →
    (refundKnowledge O).Does (fun _ => Settled k') (fun _ => Settled k') k' p

def Pays (O : Owners) (k : Known) (p : Run α) : Prop :=
  ∀ k', k.Le k' → (k'.owes → O.paid) →
    (refundKnowledge O).Does (fun _ => Settled k') (fun _ => Settled k') k' p

/-! ### Rules -/

theorem Lawful.of_does {p : Run α} (h : ∀ k', k.Le k' → ¬ k'.owes →
    (refundKnowledge O).Does (fun _ => Settled k') (fun _ => Settled k') k' p) :
    Lawful O k p := h

theorem Lawful.does {p : Run α} (h : Lawful O k p) {k' : Known} (hk : k.Le k')
    (hdebt : ¬ k'.owes) :
    (refundKnowledge O).Does (fun _ => Settled k') (fun _ => Settled k') k' p := h k' hk hdebt

theorem Pays.lawful {p : Run α} (h : Pays O k p) : Lawful O k p :=
  fun k' hk hdebt => h k' hk fun howes => absurd howes hdebt

theorem Lawful.mono {k' : Known} {p : Run α} (h : Lawful O k p) (hk : k.Le k') :
    Lawful O k' p :=
  fun k'' hk'' => h k'' (hk.trans hk'')

theorem lawful_pure (a : α) : Lawful O k (pure a) := fun _ _ hdebt => ⟨.refl _, hdebt⟩

theorem lawful_throw (fault : Fault) : Lawful O k (throw fault : Run α) :=
  fun _ _ hdebt => ⟨.refl _, hdebt⟩

theorem Lawful.bind {p : Run α} {f : α → Run β} (hp : Lawful O k p)
    (hf : ∀ a, Lawful O k (f a)) : Lawful O k (p >>= f) := by
  intro k' hk hdebt
  refine Does.bind (hp k' hk hdebt) fun a k'' hsettled => ?_
  refine (hf a k'' (hk.trans hsettled.1) hsettled.2).mono ?_ ?_
  · exact fun _ _ h => ⟨hsettled.1.trans h.1, h.2⟩
  · exact fun _ _ h => ⟨hsettled.1.trans h.1, h.2⟩

theorem Pays.bind {p : Run α} {f : α → Run β} (hp : Pays O k p)
    (hf : ∀ a, Lawful O k (f a)) : Pays O k (p >>= f) := by
  intro k' hk hdebt
  refine Does.bind (hp k' hk hdebt) fun a k'' hsettled => ?_
  refine (hf a k'' (hk.trans hsettled.1) hsettled.2).mono ?_ ?_
  · exact fun _ _ h => ⟨hsettled.1.trans h.1, h.2⟩
  · exact fun _ _ h => ⟨hsettled.1.trans h.1, h.2⟩

theorem Lawful.tryCatch {p : Run α} {handler : Fault → Run α} (hp : Lawful O k p)
    (hh : ∀ fault, Lawful O k (handler fault)) : Lawful O k (tryCatch p handler) := by
  intro k' hk hdebt
  refine Does.tryCatch (hp k' hk hdebt) fun fault k'' hsettled => ?_
  refine (hh fault k'' (hk.trans hsettled.1) hsettled.2).mono ?_ ?_
  · exact fun _ _ h => ⟨hsettled.1.trans h.1, h.2⟩
  · exact fun _ _ h => ⟨hsettled.1.trans h.1, h.2⟩

theorem lawful_when {c : Prop} [Decidable c] {action : Run Unit} (h : Lawful O k action) :
    Lawful O k (when c action) := by
  unfold when
  split
  · exact h
  · exact lawful_pure ()

theorem lawful_ite {c : Prop} [Decidable c] {p q : Run α} (hp : Lawful O k p)
    (hq : Lawful O k q) : Lawful O k (if c then p else q) := by
  split
  · exact hp
  · exact hq

/-! ### Operations -/

theorem learn_le (O : Owners) (k : Known) (o : Op) (r : o.Res) : k.Le ((refundKnowledge O).learn k o r) := by
  cases o with
  | getMeta => cases r with
    | none => exact .refl k
    | some m => exact ⟨.inl, .inl⟩
  | write site op => cases r with
    | none => exact .refl k
    | some count => exact ⟨.inl, id⟩
  | requestCancel reason allowSubmitted time => cases r with
    | none => exact .refl k
    | some result => exact ⟨.inl, id⟩
  | refundTempQuota hash => exact ⟨id, fun _ => trivial⟩
  | updateMeta time f => cases r <;> exact .refl k
  | updateMetaIf expected time f => cases r <;> exact .refl k
  | _ => exact .refl k

/-- Only a write can bring a debt. -/
theorem learn_owes {o : Op} (ho : ∀ site op, o ≠ .write site op) (r : o.Res)
    (h : ((refundKnowledge O).learn k o r).owes) : k.owes := by
  cases o with
  | getMeta => cases r with
    | none => exact h.elim
    | some m => exact h
  | write site op => exact absurd rfl (ho site op)
  | requestCancel reason allowSubmitted time => cases r <;> exact h
  | refundTempQuota hash => exact h.elim
  | updateMeta time f => cases r with
    | false => exact h.elim
    | true => exact h
  | updateMetaIf expected time f => cases r with
    | none => exact h.elim
    | some updated => exact h
  | _ => exact h

theorem lawful_op {o : Op} (ho : ∀ site op, o ≠ .write site op)
    (hmay : ∀ k', k.Le k' → (refundKnowledge O).may k' o) : Lawful O k (op o) :=
  fun k' hk hdebt => does_act (hmay k' hk) fun r _ =>
    ⟨learn_le O k' o r, fun howes => hdebt (learn_owes ho r howes)⟩

theorem lawful_clock : Lawful O k clock := lawful_op nofun fun _ _ => trivial

theorem lawful_ask (q : Question) : Lawful O k (ask q) := lawful_op nofun fun _ _ => trivial

theorem lawful_loadResult : Lawful O k loadResult := lawful_op nofun fun _ _ => trivial

theorem lawful_saveResult (f : TaskResult → TaskResult) : Lawful O k (saveResult f) :=
  lawful_op nofun fun _ _ => trivial

theorem lawful_found (a : Option α) : Lawful O k (found a) := by
  cases a with
  | none => exact lawful_throw _
  | some a => exact lawful_pure a

theorem lawful_raised (answer : Except Fault α) : Lawful O k (raised answer) := by
  cases answer with
  | ok a => exact lawful_pure a
  | error e => exact lawful_throw e

/-- What is known after the record was read. -/
def Known.sees (k : Known) (m : Meta) : Known :=
  { k with
    doomed := k.doomed ∨ m.status ∈ [.failed, .canceled]
    closed := k.closed ∨ m.lateResultWatchUntil ≠ none }

theorem Known.le_sees (k : Known) (m : Meta) : k.Le (k.sees m) := ⟨.inl, .inl⟩

theorem Known.Le.sees {k' : Known} (h : k.Le k') (m : Meta) : (k.sees m).Le (k'.sees m) :=
  ⟨Or.imp_left h.1, Or.imp_left h.2⟩

theorem does_getMeta {Q : Meta → Known → Prop} {E : Fault → Known → Prop}
    (hsome : ∀ m, O.mem m.ownerTokenHash → Q m (k.sees m))
    (hnone : E .fileNotFound { k with owes := False }) :
    (refundKnowledge O).Does Q E k getMeta := by
  refine ⟨trivial, fun r hr => ?_⟩
  cases r with
  | none => exact hnone
  | some m => exact hsome m hr

theorem lawful_getMeta_bind {f : Meta → Run β}
    (hf : ∀ m, O.mem m.ownerTokenHash → Lawful O (k.sees m) (f m)) :
    Lawful O k (getMeta >>= f) := by
  intro k' hk hdebt
  refine Does.bind (Q := fun m k'' => O.mem m.ownerTokenHash ∧ k'' = k'.sees m)
    (E := fun _ => Settled k') (does_getMeta ?_ ?_) ?_
  · exact fun m hm => ⟨hm, rfl⟩
  · exact ⟨.refl k', id⟩
  · rintro m _ ⟨hm, rfl⟩
    refine (hf m hm _ (hk.sees m) hdebt).mono ?_ ?_
    · exact fun _ _ h => ⟨(k'.le_sees m).trans h.1, h.2⟩
    · exact fun _ _ h => ⟨(k'.le_sees m).trans h.1, h.2⟩

theorem pays_getMeta_bind {f : Meta → Run β}
    (hf : ∀ m, O.mem m.ownerTokenHash → Pays O k (f m)) : Pays O k (getMeta >>= f) := by
  intro k' hk hdebt
  refine Does.bind (Q := fun m k'' => O.mem m.ownerTokenHash ∧ k'' = k'.sees m)
    (E := fun _ => Settled k') (does_getMeta ?_ ?_) ?_
  · exact fun m hm => ⟨hm, rfl⟩
  · exact ⟨.refl k', id⟩
  · rintro m _ ⟨hm, rfl⟩
    refine (hf m hm _ (hk.trans (k'.le_sees m)) hdebt).mono ?_ ?_
    · exact fun _ _ h => ⟨(k'.le_sees m).trans h.1, h.2⟩
    · exact fun _ _ h => ⟨(k'.le_sees m).trans h.1, h.2⟩

/-- The read of a record whose status and late watch do not matter. -/
theorem lawful_getMeta_bind' {f : Meta → Run β}
    (hf : ∀ m, O.mem m.ownerTokenHash → Lawful O k (f m)) :
    Lawful O k (getMeta >>= f) :=
  lawful_getMeta_bind fun m hm => (hf m hm).mono (k.le_sees m)

/-! ### Writes -/

theorem does_write {site : Site} {o : Int → StoreOp} {Q : Int → Known → Prop}
    {E : Fault → Known → Prop}
    (hmay : ∀ now, (refundKnowledge O).may k (.write site (o now)))
    (hsome : ∀ now count, Q count ((refundKnowledge O).learn k (.write site (o now)) (some count)))
    (hnone : E .fileNotFound { k with owes := False }) :
    (refundKnowledge O).Does Q E k (write site o) := by
  refine ⟨trivial, fun now _ => ⟨hmay now, fun r _ => ?_⟩⟩
  cases r with
  | none => exact hnone
  | some count => exact hsome now count

/-- A write that the call may make with any knowledge. -/
structure Harmless (o : StoreOp) : Prop where
  executionMiss : o.isExecutionMiss = false
  failInitializing : o.isFailInitializing = false
  lateResult : o.isLateResult = false

theorem Harmless.may {o : StoreOp} (h : Harmless o) (site : Site) (k : Known) :
    (refundKnowledge O).may k (.write site o) :=
  ⟨h.executionMiss, h.failInitializing, fun hlate => by simp [h.lateResult] at hlate⟩

/-- A write that neither fails the task nor counts retries. -/
theorem lawful_write {site : Site} {o : Int → StoreOp}
    (hmay : ∀ now, Harmless (o now))
    (hquiet : ∀ now, (o now).isMarkFailed = false ∧ (o now).retryLimit = none) :
    Lawful O k (write site o) := by
  intro k' hk hdebt
  refine does_write (fun now => (hmay now).may site k') (fun now count => ?_) ⟨.refl k', id⟩
  refine ⟨learn_le O k' (.write site _) (some count), ?_⟩
  rintro (howes | ⟨-, hindebts⟩)
  · exact hdebt howes
  · obtain ⟨hfail, hlimit⟩ := hquiet now
    simp [Indebts, StoreOp.OverLimit, hfail, hlimit] at hindebts

theorem pays_markFailed_bind {site : Site} {reason : String} {f : Unit → Run β}
    (hsite : site.refunds = true) (hf : Pays O { k with doomed := True } (f ())) :
    Pays O k (markFailed site reason >>= f) := by
  intro k' hk hdebt
  refine Does.bind (Q := fun _ k'' => k'.Le k'' ∧ k''.doomed ∧ (k''.owes → O.paid))
    (E := fun _ => Settled k') ?_ ?_
  · refine Does.bind (Q := fun _ k'' => k'.Le k'' ∧ k''.doomed ∧ (k''.owes → O.paid)) ?_
      fun _ _ h => h
    refine does_write (fun now => ⟨rfl, rfl, nofun⟩) (fun now count => ?_) ⟨.refl k', id⟩
    exact ⟨learn_le O k' (.write site _) (some count), .inr (.inl ⟨rfl, hsite⟩), fun h => h.elim hdebt And.left⟩
  · rintro _ k'' ⟨hle, hdoomed, hdebt'⟩
    refine (hf k'' ⟨fun _ => hdoomed, hle.2 ∘ hk.2⟩ hdebt').mono ?_ ?_
    · exact fun _ _ h => ⟨hle.trans h.1, h.2⟩
    · exact fun _ _ h => ⟨hle.trans h.1, h.2⟩

/-- At a site that is not followed by a refund nothing is owed. -/
theorem lawful_markFailed {site : Site} {reason : String} (hsite : site.refunds = false) :
    Lawful O k (markFailed site reason) := by
  refine Lawful.bind (fun k' hk hdebt => ?_) fun _ => lawful_pure ()
  refine does_write (fun now => ⟨rfl, rfl, nofun⟩) (fun now count => ?_) ⟨.refl k', id⟩
  refine ⟨learn_le O k' (.write site _) (some count), ?_⟩
  rintro (howes | ⟨-, hindebts⟩)
  · exact hdebt howes
  · simp [Indebts, StoreOp.OverLimit, StoreOp.retryLimit, hsite] at hindebts

theorem does_refund {hash : String} {k' : Known} (hhash : O.mem hash) (hdoomed : k'.doomed)
    (hdebt : k'.owes → O.paid) :
    (refundKnowledge O).Does
      (fun _ k'' => Settled k' k'' ∧ (O.paid → k''.closed)) (fun _ => Settled k') k'
      (refundTempQuotaOnce hash) := by
  have hpaid := O.paid_iff hash hhash
  unfold refundTempQuotaOnce when
  split
  · refine ⟨⟨hhash, hdoomed⟩, fun refunded _ => ?_⟩
    have hsettled : Settled k' ((refundKnowledge O).learn k' (.refundTempQuota hash) refunded) :=
      ⟨learn_le O k' (.refundTempQuota hash) refunded, id⟩
    cases refunded with
    | false => exact ⟨hsettled, fun _ => trivial⟩
    | true =>
      refine ⟨trivial, fun marked _ => ?_⟩
      cases marked with
      | false => exact hsettled
      | true => exact ⟨hsettled, fun _ => trivial⟩
  · rename_i hempty
    have hunpaid : ¬ O.paid := fun h => hempty (hpaid.mpr h)
    exact ⟨⟨.refl k', fun howes => hunpaid (hdebt howes)⟩, fun h => absurd h hunpaid⟩

/-- The refund pays what is owed. -/
theorem pays_refund {hash : String} (hhash : O.mem hash) (hdoomed : k.doomed) :
    Pays O k (refundTempQuotaOnce hash) :=
  fun _ hk hdebt =>
    (does_refund hhash (hk.1 hdoomed) hdebt).mono (fun _ _ h => h.1) fun _ _ h => h

/-- What follows a refund may count on it. -/
theorem pays_refund_bind {hash : String} {f : Unit → Run β} (hhash : O.mem hash)
    (hdoomed : k.doomed) (hempty : ¬ O.paid → k.closed)
    (hf : Lawful O { k with closed := True } (f ())) :
    Pays O k (refundTempQuotaOnce hash >>= f) := by
  intro k' hk hdebt
  refine Does.bind (does_refund hhash (hk.1 hdoomed) hdebt) ?_
  rintro _ k'' ⟨hsettled, hclosed⟩
  have hk'' : Known.Le { k with closed := True } k'' := by
    refine ⟨hsettled.1.1 ∘ hk.1, fun _ => ?_⟩
    by_cases h : O.paid
    · exact hclosed h
    · exact hsettled.1.2 (hk.2 (hempty h))
  refine (hf k'' hk'' hsettled.2).mono ?_ ?_
  · exact fun _ _ h => ⟨hsettled.1.trans h.1, h.2⟩
  · exact fun _ _ h => ⟨hsettled.1.trans h.1, h.2⟩

theorem KeepsLife.mono {late late' : Prop} {f : Meta → Meta} (h : KeepsLife late f)
    (hlate : late → late') : KeepsLife late' f :=
  ⟨h.status, h.ownerTokenHash, fun m => (h.lateResultWatchUntil m).imp_right (.imp_right hlate)⟩

theorem does_updateMeta {f : Meta → Meta} {k' : Known} (hf : KeepsLife k'.closed f) :
    (refundKnowledge O).Does (fun _ k'' => k'' = k') (fun _ => Settled k') k' (updateMeta f) := by
  refine ⟨trivial, fun now _ => ⟨hf, fun written _ => ?_⟩⟩
  cases written with
  | false => exact ⟨.refl k', id⟩
  | true => exact rfl

theorem lawful_updateMeta_of {f : Meta → Meta} (hf : KeepsLife k.closed f) :
    Lawful O k (updateMeta f) := by
  intro k' hk hdebt
  refine (does_updateMeta (hf.mono hk.2)).mono ?_ fun _ _ h => h
  rintro _ k'' rfl
  exact ⟨.refl k'', hdebt⟩

theorem lawful_updateMeta {f : Meta → Meta}
    (hf : ∀ m, (f m).status = m.status ∧ (f m).ownerTokenHash = m.ownerTokenHash ∧
      (f m).lateResultWatchUntil = m.lateResultWatchUntil) :
    Lawful O k (updateMeta f) :=
  lawful_updateMeta_of ⟨fun m => (hf m).1, fun m => (hf m).2.1, fun m => .inl (hf m).2.2⟩

theorem pays_updateMeta_bind {f : Meta → Meta} {g : Unit → Run β}
    (hf : ∀ m, (f m).status = m.status ∧ (f m).ownerTokenHash = m.ownerTokenHash ∧
      (f m).lateResultWatchUntil = m.lateResultWatchUntil)
    (hg : Pays O k (g ())) :
    Pays O k (updateMeta f >>= g) := by
  intro k' hk hdebt
  refine Does.bind (does_updateMeta
    ⟨fun m => (hf m).1, fun m => (hf m).2.1, fun m => .inl (hf m).2.2⟩) ?_
  rintro _ k'' rfl
  exact hg k'' hk hdebt

/-! ### Retries -/

/-- What a retry that counts tells the call: over the limit it may owe, and then may refund. -/
structure Counted (O : Owners) (site : Site) (limit : Int) (k : Known) (count : Int)
    (k' : Known) : Prop where
  le : k.Le k'
  debt : k'.owes → O.paid ∧ limit < count ∧ (site = .policyRetry → 1 < count)
  doomed : site = .usual → limit < count → k'.doomed

theorem Counted.settled {site : Site} {limit count : Int} {k' : Known}
    (h : Counted O site limit k count k') (hcount : count ≤ limit) : Settled k k' :=
  ⟨h.le, fun howes => by have := (h.debt howes).2.1; omega⟩

theorem does_counted {site : Site} {o : Int → StoreOp} {limit : Int} {k' : Known} (hdebt : ¬ k'.owes)
    (ho : ∀ now, Harmless (o now) ∧ (o now).isMarkFailed = false ∧
      (o now).retryLimit = some limit) :
    (refundKnowledge O).Does (Counted O site limit k') (fun _ => Settled k') k'
      (write site o) := by
  refine does_write (fun now => (ho now).1.may site k') (fun now count => ?_) ⟨.refl k', id⟩
  have hover : (o now).OverLimit count ↔ limit < count := by
    simp [StoreOp.OverLimit, (ho now).2.2]
  refine ⟨learn_le O k' (.write site _) (some count), ?_, fun hsite hcount => ?_⟩
  · rintro (howes | ⟨howner, hmark | ⟨hcount, hsite⟩ | ⟨hcount, -, hone⟩⟩)
    · exact absurd howes hdebt
    · simp [(ho now).2.1] at hmark
    · refine ⟨howner, hover.mp hcount, ?_⟩
      rintro rfl
      exact absurd hsite (by decide)
    · exact ⟨howner, hover.mp hcount, fun _ => hone⟩
  · exact .inr (.inr ⟨hsite, hover.mpr hcount⟩)

/-- Nothing is owed after a count within the limit. -/
theorem Counted.lawful_bind {site : Site} {limit count : Int} {k₁ k₂ : Known} {p : Run α}
    (h : Counted O site limit k₁ count k₂) (hcount : count ≤ limit) (hk : k.Le k₁)
    (hp : Lawful O k p) :
    (refundKnowledge O).Does (fun _ => Settled k₁) (fun _ => Settled k₁) k₂ p := by
  have hsettled := h.settled hcount
  refine (hp k₂ (hk.trans h.le) hsettled.2).mono ?_ ?_
  · exact fun _ _ h' => ⟨h.le.trans h'.1, h'.2⟩
  · exact fun _ _ h' => ⟨h.le.trans h'.1, h'.2⟩

/-- After a count over the limit the call pays. -/
theorem Counted.pays_bind {site : Site} {limit count : Int} {k₁ k₂ : Known} {p : Run α}
    (h : Counted O site limit k₁ count k₂) (hk : k.Le k₁) (hp : Pays O k p) :
    (refundKnowledge O).Does (fun _ => Settled k₁) (fun _ => Settled k₁) k₂ p := by
  refine (hp k₂ (hk.trans h.le) fun howes => (h.debt howes).1).mono ?_ ?_
  · exact fun _ _ h' => ⟨h.le.trans h'.1, h'.2⟩
  · exact fun _ _ h' => ⟨h.le.trans h'.1, h'.2⟩

/-- Over the limit at a usual site the call may refund. -/
theorem Counted.doomed_bind {limit count : Int} {k₁ k₂ : Known} {p : Run α}
    (h : Counted O .usual limit k₁ count k₂) (hcount : limit < count) (hk : k.Le k₁)
    (hp : Pays O { k with doomed := True } p) :
    (refundKnowledge O).Does (fun _ => Settled k₁) (fun _ => Settled k₁) k₂ p := by
  have hle : Known.Le { k with doomed := True } k₂ :=
    ⟨fun _ => h.doomed rfl hcount, (hk.trans h.le).2⟩
  refine (hp k₂ hle fun howes => (h.debt howes).1).mono ?_ ?_
  · exact fun _ _ h' => ⟨h.le.trans h'.1, h'.2⟩
  · exact fun _ _ h' => ⟨h.le.trans h'.1, h'.2⟩

theorem lawful_requeuePendingTask : Lawful O k requeuePendingTask :=
  lawful_getMeta_bind' fun _ _ => lawful_when (Lawful.bind (lawful_write (fun _ => ⟨rfl, rfl, rfl⟩) fun _ => ⟨rfl, rfl⟩) fun _ => lawful_pure ())

theorem retryLimit_nonneg (S : Setting) : 0 ≤ S.retryLimit := by
  unfold Setting.retryLimit taskRetryLimit
  cases S.retrySetting with
  | none => decide
  | some n => simp

/-- The limit that the callers pass is the one that the store uses. -/
theorem clampRetries_retryLimit (S : Setting) :
    clampRetries S.retryLimit (some S.retryLimit) = S.retryLimit := by
  have := retryLimit_nonneg S
  simp only [clampRetries, Option.elim]
  omega

theorem does_retry {site : Site} {o : Int → StoreOp} {limit : Int} {k' : Known} (hdebt : ¬ k'.owes)
    (ho : ∀ now, Harmless (o now) ∧ (o now).isMarkFailed = false ∧
      (o now).retryLimit = some limit) :
    (refundKnowledge O).Does (Counted O site limit k') (fun _ => Settled k') k' (do
      let count ← write site o
      when (count ≤ limit) requeuePendingTask
      return count) := by
  refine Does.bind (does_counted hdebt ho) fun count k'' h => ?_
  unfold when
  split
  · rename_i hcount
    refine Does.bind (h.lawful_bind hcount (.refl k') lawful_requeuePendingTask) ?_
    exact fun _ k₃ hsettled =>
      ⟨hsettled.1, fun howes => absurd howes hsettled.2, fun _ hover => by omega⟩
  · exact h

/-- A retry at a usual site, where the limits are the same. -/
theorem lawful_retryOr_usual {reason : String} {delay : Int} {again : QueryResponse}
    {otherwise : Run QueryResponse} (h : Pays O { k with doomed := True } otherwise) :
    Lawful O k (retryOr S .usual reason S.retryLimit delay S.retryLimit again otherwise) := by
  intro k' hk hdebt
  refine Does.bind (does_retry hdebt fun _ => ⟨⟨rfl, rfl, rfl⟩, rfl, rfl⟩) fun count k'' hcounted => ?_
  rw [clampRetries_retryLimit] at hcounted
  split
  · rename_i hcount
    exact hcounted.lawful_bind hcount hk (Lawful.bind (lawful_saveResult _) fun _ => lawful_pure _)
  · rename_i hcount
    exact hcounted.doomed_bind (by omega) hk h

/-- A retry whose otherwise branch fails the task itself. -/
theorem lawful_retryOr_beforeFailing {reason : String} {delay : Int} {again : QueryResponse}
    {otherwise : Run QueryResponse} (h : Pays O k otherwise) :
    Lawful O k
      (retryOr S .beforeFailing reason S.retryLimit delay S.retryLimit again otherwise) := by
  intro k' hk hdebt
  refine Does.bind (does_retry hdebt fun _ => ⟨⟨rfl, rfl, rfl⟩, rfl, rfl⟩) fun count k'' hcounted => ?_
  rw [clampRetries_retryLimit] at hcounted
  split
  · rename_i hcount
    exact hcounted.lawful_bind hcount hk (Lawful.bind (lawful_saveResult _) fun _ => lawful_pure _)
  · exact hcounted.pays_bind hk h

/-- The retry with the literal limit: a count of 1 over the store's limit is not noticed. -/
theorem lawful_retryOr_policy {reason : String} {delay : Int} {again : QueryResponse}
    {otherwise : Run QueryResponse} (h : Pays O k otherwise) :
    Lawful O k (retryOr S .policyRetry reason 1 delay 1 again otherwise) := by
  intro k' hk hdebt
  refine Does.bind (does_retry hdebt fun _ => ⟨⟨rfl, rfl, rfl⟩, rfl, rfl⟩) fun count k'' hcounted => ?_
  split
  · rename_i hcount
    have hnodebt : ¬ k''.owes := fun howes => by
      have := (hcounted.debt howes).2.2 rfl
      omega
    refine (Lawful.bind (lawful_saveResult _) (fun _ => lawful_pure _) k''
      (hk.trans hcounted.le) hnodebt).mono ?_ ?_
    · exact fun _ _ h' => ⟨hcounted.le.trans h'.1, h'.2⟩
    · exact fun _ _ h' => ⟨hcounted.le.trans h'.1, h'.2⟩
  · exact hcounted.pays_bind hk h

/-! ### Functions of the store -/

theorem lawful_recordFailedAccount (accountId : String) :
    Lawful O k (recordFailedAccount accountId) :=
  lawful_when (lawful_updateMeta fun _ => ⟨rfl, rfl, rfl⟩)

theorem lawful_setExecutionPhase (phase statusReason : String) :
    Lawful O k (setExecutionPhase phase statusReason) := by
  unfold setExecutionPhase
  refine lawful_clock.bind fun now => ?_
  refine Lawful.bind (lawful_op nofun fun _ _ => ?_) fun updated => ?_
  · exact ⟨fun _ => rfl, fun _ => rfl, fun _ => .inl rfl⟩
  · exact (lawful_found updated).bind fun _ => lawful_pure ()

theorem lawful_markSuccess : Lawful O k markSuccess :=
  lawful_loadResult.bind fun _ => lawful_when (Lawful.bind (lawful_write (fun _ => ⟨rfl, rfl, rfl⟩) fun _ => ⟨rfl, rfl⟩) fun _ => lawful_pure ())

/-- A late success is made when the reservation is refunded. -/
theorem lawful_markLateResultSuccess (hclosed : k.closed) :
    Lawful O k markLateResultSuccess := by
  refine lawful_loadResult.bind fun r => lawful_when (Lawful.bind ?_ fun _ => lawful_pure ())
  intro k' hk hdebt
  refine does_write (fun now => ⟨rfl, rfl, fun _ => hk.2 hclosed⟩) (fun now count => ?_) ⟨.refl k', id⟩
  refine ⟨learn_le O k' (.write .usual _) (some count), ?_⟩
  rintro (howes | ⟨-, hindebts⟩)
  · exact hdebt howes
  · simp [Indebts, StoreOp.OverLimit, StoreOp.isMarkFailed, StoreOp.retryLimit] at hindebts

theorem lawful_refundAccountQuotaOnce (accountId chargeId : String) :
    Lawful O k (refundAccountQuotaOnce S accountId chargeId) := by
  refine lawful_when (Lawful.bind (lawful_op nofun fun _ _ => trivial) fun refunded => ?_)
  exact lawful_when (lawful_saveResult _)

theorem lawful_clearAccountCurrentTask (accountId : String) :
    Lawful O k (clearAccountCurrentTask accountId) := lawful_op nofun fun _ _ => trivial

theorem lawful_settleAccountQuota (accountId chargeId : String) :
    Lawful O k (settleAccountQuota accountId chargeId) := lawful_op nofun fun _ _ => trivial

theorem lawful_exhaustAccountQuota (accountId chargeId : String) :
    Lawful O k (exhaustAccountQuota accountId chargeId) := lawful_op nofun fun _ _ => trivial

theorem lawful_flagAccount (accountId : String) (flag : AccountFlag) :
    Lawful O k (flagAccount accountId flag) := lawful_op nofun fun _ _ => trivial

theorem lawful_consumeFailedAccountQuota (platform accountId chargeId : String) :
    Lawful O k (consumeFailedAccountQuota S platform accountId chargeId) :=
  lawful_ite (lawful_settleAccountQuota _ _) (lawful_refundAccountQuotaOnce _ _)

theorem lawful_retryAmbiguousProxyTask (reason accountId proxyNodeId : String) (delay : Int) :
    Lawful O k (retryAmbiguousProxyTask S reason accountId proxyNodeId delay) :=
  Lawful.bind (lawful_write (fun _ => ⟨rfl, rfl, rfl⟩) fun _ => ⟨rfl, rfl⟩) fun _ => lawful_requeuePendingTask

/-- `mark_failed` and the refund. -/
theorem pays_failAndRefund {reason : String} {m : Meta} (hm : O.mem m.ownerTokenHash) :
    Pays O k (failAndRefund m reason) :=
  pays_markFailed_bind rfl (pays_refund hm trivial)

theorem lawful_expireTaskIfTimeout : Lawful O k expireTaskIfTimeout := by
  refine lawful_getMeta_bind' fun m hm => lawful_clock.bind fun now => ?_
  refine lawful_ite (lawful_pure _) (lawful_loadResult.bind fun r => ?_)
  refine lawful_ite (lawful_pure _) ?_
  refine Lawful.bind (lawful_when ?_) fun _ => ?_
  · exact Lawful.bind (lawful_op nofun fun _ _ => trivial) fun _ => lawful_clearAccountCurrentTask _
  · refine (pays_markFailed_bind rfl ?_).lawful
    exact (pays_refund hm trivial).bind fun _ => lawful_pure _

/-- A task that a call has canceled is doomed. -/
theorem lawful_requestCancel_bind {reason : String} {allowSubmitted : Bool} {now : Int}
    {f : Option (Bool × Meta) → Run β} (hnone : Lawful O k (f none))
    (hsome : ∀ canceled m, O.mem m.ownerTokenHash →
      Lawful O { k with doomed := k.doomed ∨ canceled = true } (f (some (canceled, m)))) :
    Lawful O k (op (.requestCancel reason allowSubmitted now) >>= f) := by
  refine .of_does fun k' hk hdebt => ⟨trivial, fun r hr => ?_⟩
  cases r with
  | none => exact hnone k' hk hdebt
  | some result =>
    have hle : k'.Le { k' with doomed := k'.doomed ∨ result.1 = true } := ⟨.inl, id⟩
    refine Does.mono ?_ ?_ (hsome result.1 result.2 hr _ ⟨Or.imp_left hk.1, hk.2⟩ hdebt)
    · exact fun _ _ h => ⟨hle.trans h.1, h.2⟩
    · exact fun _ _ h => ⟨hle.trans h.1, h.2⟩

-- From here on programs are reasoned about with the rules only.
attribute [irreducible] Lawful Pays

end FetchTask.Lifecycle
