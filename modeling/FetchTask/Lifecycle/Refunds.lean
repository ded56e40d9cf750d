import FetchTask.Lib.Knowledge
import FetchTask.Lifecycle.Worker
import FetchTask.Store.Endings
import FetchTask.TempAccess.Conservation

/-!
What the calls on a task know when they refund its owner.

A call may refund only when it knows that the task is doomed: it has read that
the task failed or was canceled, or it has told the record so. It is closed for a
call when the reservation is known to be refunded; only then the call may begin a
late watch or make a late success. A call owes a refund from when it has failed
the task until the refund; no call ends with a debt.
-/

namespace FetchTask.Lifecycle

open Store

/-! ### The reservation -/

section Reservation

variable (S : Setting) (owner : String)

/-- The reservation of the task under its owner's token can be refunded. -/
def reservationLive (tokens : TempAccess.Tokens) : Bool :=
  owner != "" && TempAccess.normalizeHash S.chars owner != "" &&
    (tokens (TempAccess.normalizeHash S.chars owner)).any fun entry =>
      decide (2 ≤ entry.billingVersion) && TempAccess.holdsLive entry S.taskId

variable {S owner}

/-- The entry after a refund holds no live reservation of the task, or counts uses only. -/
theorem refundEntry_not_live (now : String) (entry : TempAccess.Entry)
    (h : (TempAccess.refundEntry S.taskId now entry).1 = true) :
    (decide (2 ≤ (TempAccess.refundEntry S.taskId now entry).2.2.billingVersion) &&
      TempAccess.holdsLive (TempAccess.refundEntry S.taskId now entry).2.2 S.taskId) = false := by
  by_cases hversion : 2 ≤ entry.billingVersion
  · have hguard : 2 ≤ entry.billingVersion ∧ S.taskId ≠ "" := ⟨hversion, S.taskId_ne_empty⟩
    simp only [TempAccess.refundEntry, hguard, ne_eq, not_false_eq_true, and_self, if_true] at h ⊢
    cases hget : entry.reservations.get? S.taskId with
    | none => simp [hget] at h
    | some r =>
      cases hlive : r.isLive with
      | false => simp [hget, hlive] at h
      | true =>
        have hclosed := TempAccess.holdsLive_givenBack entry S.taskId r now S.taskId
        rw [if_pos rfl] at hclosed
        simp only [hlive, if_true]
        rw [Bool.and_eq_false_iff]
        exact .inr hclosed
  · have hguard : ¬ (2 ≤ entry.billingVersion ∧ S.taskId ≠ "") := fun h => hversion h.1
    simp only [TempAccess.refundEntry, hguard, if_false]
    split <;> simp [hversion]

/-- A refund that changes nothing found no live reservation. -/
theorem not_live_of_refundEntry (now : String) (entry : TempAccess.Entry)
    (h : (TempAccess.refundEntry S.taskId now entry).1 = false) :
    (decide (2 ≤ entry.billingVersion) && TempAccess.holdsLive entry S.taskId) = false := by
  by_cases hversion : 2 ≤ entry.billingVersion
  · have hguard : 2 ≤ entry.billingVersion ∧ S.taskId ≠ "" := ⟨hversion, S.taskId_ne_empty⟩
    simp only [TempAccess.refundEntry, hguard, ne_eq, not_false_eq_true, and_self, if_true] at h
    cases hget : entry.reservations.get? S.taskId with
    | none => simp [TempAccess.holdsLive, hget]
    | some r =>
      cases hlive : r.isLive with
      | false => simp [TempAccess.holdsLive, hget, hlive]
      | true => simp [hget, hlive] at h
  · simp [hversion]

/-- After a refund to the owner the reservation is not live. -/
theorem not_live_refunded (now : String) (tokens : TempAccess.Tokens) :
    reservationLive S owner
      (TempAccess.refundTempQuotaHash S.chars owner S.taskId now tokens).2.2 = false := by
  unfold reservationLive TempAccess.refundTempQuotaHash
  by_cases hhash : TempAccess.normalizeHash S.chars owner = ""
  · simp [hhash]
  · simp only [hhash, if_false]
    cases hentry : tokens (TempAccess.normalizeHash S.chars owner) with
    | none => simp [hentry]
    | some entry =>
      rcases hrefund : TempAccess.refundEntry S.taskId now entry with ⟨done, transaction, entry'⟩
      cases done with
      | false =>
        have hlive := not_live_of_refundEntry (S := S) now entry (by rw [hrefund])
        simp only [hentry, hrefund, Option.any_some, hlive, Bool.and_false]
      | true =>
        have hlive := refundEntry_not_live (S := S) now entry (by rw [hrefund])
        rw [hrefund] at hlive
        simp only [hrefund, Function.update_self, Option.any_some, hlive, Bool.and_false]

/-- A refund under any hash makes no reservation live. -/
theorem not_live_kept {tokens : TempAccess.Tokens} (hash now : String)
    (h : reservationLive S owner tokens = false) :
    reservationLive S owner
      (TempAccess.refundTempQuotaHash S.chars hash S.taskId now tokens).2.2 = false := by
  by_cases hsame : TempAccess.normalizeHash S.chars hash = TempAccess.normalizeHash S.chars owner
  · have hrefund : TempAccess.refundTempQuotaHash S.chars hash S.taskId now tokens =
        TempAccess.refundTempQuotaHash S.chars owner S.taskId now tokens := by
      simp only [TempAccess.refundTempQuotaHash, hsame]
    rw [hrefund]
    exact not_live_refunded now tokens
  · have hentry : (TempAccess.refundTempQuotaHash S.chars hash S.taskId now tokens).2.2
        (TempAccess.normalizeHash S.chars owner) = tokens (TempAccess.normalizeHash S.chars owner) := by
      simp only [TempAccess.refundTempQuotaHash]
      split
      · rfl
      · split
        · rfl
        · split
          · rfl
          · exact Function.update_of_ne (Ne.symm hsame) _ _
    rw [reservationLive, hentry]
    exact h

end Reservation

/-! ### What a call knows -/

structure Known where
  /-- The task has failed or was canceled, or it was told so. -/
  doomed : Prop
  /-- The reservation is refunded. -/
  closed : Prop
  /-- The call has failed the task, and has still to refund the owner. -/
  owes : Prop

/-- `k'` knows at least what `k` knows; debts are not compared. -/
def Known.Le (k k' : Known) : Prop := (k.doomed → k'.doomed) ∧ (k.closed → k'.closed)

theorem Known.Le.refl (k : Known) : k.Le k := ⟨id, id⟩

theorem Known.Le.trans {k₁ k₂ k₃ : Known} (h : k₁.Le k₂) (h' : k₂.Le k₃) : k₁.Le k₃ :=
  ⟨h'.1 ∘ h.1, h'.2 ∘ h.2⟩

/-- The sites whose failures are followed by a refund. -/
def Site.refunds : Site → Bool
  | .doubaoUnauthorized | .platformUnsupported => false
  | _ => true

/-- With this result the call may refund. -/
def Dooms (site : Site) (o : StoreOp) (count : Int) : Prop :=
  (o.isMarkFailed = true ∧ site.refunds = true) ∨ (site = .usual ∧ o.OverLimit count)

/-- With this result the call will refund. -/
def Indebts (site : Site) (o : StoreOp) (count : Int) : Prop :=
  (o.isMarkFailed = true ∧ site.refunds = true) ∨
    (o.OverLimit count ∧ site ∈ [.usual, .beforeFailing]) ∨
    (o.OverLimit count ∧ site = .policyRetry ∧ 1 < count)

/-- A change of the record that keeps its status and owner, and begins no late watch. -/
structure KeepsLife (late : Prop) (f : Meta → Meta) : Prop where
  status : ∀ m, (f m).status = m.status
  ownerTokenHash : ∀ m, (f m).ownerTokenHash = m.ownerTokenHash
  lateResultWatchUntil : ∀ m, (f m).lateResultWatchUntil = m.lateResultWatchUntil ∨
    (f m).lateResultWatchUntil = none ∨ late

/-- The token hashes that the record of the task may name as its owner: none of them is empty,
and the task is paid for, or they all are. -/
structure Owners where
  mem : String → Prop
  paid : Prop
  paid_iff : ∀ hash, mem hash → (hash ≠ "" ↔ paid)

/-- An owner whose token does not change. -/
def Owners.one (owner : String) : Owners where
  mem hash := hash = owner
  paid := owner ≠ ""
  paid_iff := by
    rintro _ rfl
    rfl

/-- What the calls on a task of these owners learn, and what they may do. -/
def refundKnowledge (O : Owners) : Knowledge LifeSig Known where
  start := ⟨False, ¬ O.paid, False⟩
  may
    | k, .refundTempQuota hash => O.mem hash ∧ k.doomed
    | k, .write _ o => o.isExecutionMiss = false ∧ o.isFailInitializing = false ∧
        (o.isLateResult = true → k.closed)
    | k, .updateMeta _ f => KeepsLife k.closed f
    | k, .updateMetaIf _ _ f => KeepsLife k.closed f
    | _, _ => True
  can
    | .getMeta, some m => O.mem m.ownerTokenHash
    | .requestCancel .., some (_, m) => O.mem m.ownerTokenHash
    | _, _ => True
  learn
    | k, .getMeta, some m =>
      { k with
        doomed := k.doomed ∨ m.status ∈ [.failed, .canceled]
        closed := k.closed ∨ m.lateResultWatchUntil ≠ none }
    | k, .write site o, some count =>
      { k with
        doomed := k.doomed ∨ Dooms site o count
        owes := k.owes ∨ (O.paid ∧ Indebts site o count) }
    | k, .requestCancel .., some (canceled, _) => { k with doomed := k.doomed ∨ canceled = true }
    | k, .refundTempQuota _, _ => { k with closed := True, owes := False }
    -- Nothing is owed for a task that is gone.
    | k, .getMeta, none | k, .write .., none | k, .updateMeta .., false
    | k, .updateMetaIf .., none => { k with owes := False }
    | k, _, _ => k

/-! ### What an operation does to the record and to the reservation -/

/-- The operations of the store among the operations. -/
def Op.storeOp (e : Env) : Op → Option StoreOp
  | .claimTask workerId time => some (.markRunning e.paused workerId e.atLimit time)
  | .write _ o => some o
  | .requestCancel reason allowSubmitted time => some (.requestTaskCancel reason allowSubmitted time)
  | _ => none

/-- The other changes of the record. -/
def Op.edit : Op → Meta → Meta
  | .updateMeta time f, m => (Store.updateMeta time f m).2
  | .updateMetaIf expected time f, m => (Store.updateMetaIf expected time f m).2
  | _, m => m

/-- The record after an operation. -/
def Op.record (S : Setting) (e : Env) (o : Op) (m : Meta) : Meta :=
  match o.storeOp e with
  | some op => op.apply S.chars m
  | none => o.edit m

section Steps

variable {S : Setting} {O : Owners} {owner : String} {e : Env} {o : Op} {w : World} {m m' : Meta} {k : Known}

theorem handle_task (h : (handle S e o w).2.task = some m') :
    ∃ m, w.task = some m ∧ m' = o.record S e m := by
  cases o with
  | deleteTask => cases h
  | ask q => exact ⟨m', by simpa [handle] using h, rfl⟩
  | saveResult f =>
    refine ⟨m', ?_, rfl⟩
    simp only [handle] at h
    split at h <;> exact h
  | markTempQuotaRefunded =>
    refine ⟨m', ?_, rfl⟩
    simp only [handle] at h
    split at h <;> exact h
  | _ =>
    cases hm : w.task <;> simp_all [handle, Op.record, Op.storeOp, Op.edit, StoreOp.apply]

theorem handle_tokens (h : ∀ hash, o ≠ .refundTempQuota hash) :
    (handle S e o w).2.tokens = w.tokens := by
  cases o with
  | refundTempQuota hash => exact absurd rfl (h hash)
  | ask q => simp [handle]
  | _ => simp only [handle] <;> split <;> rfl

theorem record_of_storeOp {op : StoreOp} (h : o.storeOp e = some op) :
    o.record S e m = op.apply S.chars m := by
  simp only [Op.record, h]

theorem record_of_edit (h : o.storeOp e = none) : o.record S e m = o.edit m := by
  simp only [Op.record, h]

/-- Only `write` performs the store operations that `may` restricts. -/
theorem storeOp_may {op : StoreOp} (h : o.storeOp e = some op)
    (hmay : (refundKnowledge O).may k o) :
    op.isExecutionMiss = false ∧ op.isFailInitializing = false ∧
      (op.isLateResult = true → k.closed) := by
  cases o with
  | claimTask workerId time =>
    cases h
    exact ⟨rfl, rfl, nofun⟩
  | requestCancel reason allowSubmitted time =>
    cases h
    exact ⟨rfl, rfl, nofun⟩
  | write site op' =>
    cases h
    exact hmay
  | _ => cases h

theorem edit_keepsLife (h : o.storeOp e = none) (hmay : (refundKnowledge O).may k o) :
    KeepsLife k.closed o.edit := by
  cases o with
  | updateMeta time f => exact ⟨hmay.status, hmay.ownerTokenHash, hmay.lateResultWatchUntil⟩
  | updateMetaIf expected time f =>
    refine ⟨fun m => ?_, fun m => ?_, fun m => ?_⟩ <;> by_cases hm : m.status ∈ expected
    · simpa [Op.edit, Store.updateMetaIf_of_mem hm] using hmay.status m
    · simp [Op.edit, Store.updateMetaIf_of_not_mem hm]
    · simpa [Op.edit, Store.updateMetaIf_of_mem hm] using hmay.ownerTokenHash m
    · simp [Op.edit, Store.updateMetaIf_of_not_mem hm]
    · simpa [Op.edit, Store.updateMetaIf_of_mem hm] using hmay.lateResultWatchUntil m
    · simp [Op.edit, Store.updateMetaIf_of_not_mem hm]
  | write => cases h
  | claimTask => cases h
  | requestCancel => cases h
  | _ => exact ⟨fun _ => rfl, fun _ => rfl, fun _ => .inl rfl⟩

theorem reservationLive_empty {tokens : TempAccess.Tokens} :
    reservationLive S "" tokens = false := by
  simp [reservationLive]

/-- A late success is made only when the reservation is not live. -/
theorem not_late_of_live (hlive : reservationLive S owner w.tokens = true)
    (hclosed : k.closed → reservationLive S owner w.tokens = false)
    {op : StoreOp} (hop : op.isLateResult = true → k.closed) :
    op.isLateResult = false := by
  cases hlate : op.isLateResult with
  | false => rfl
  | true => simp [hclosed (hop hlate)] at hlive

/-- What an allowed operation makes of a status while the reservation is live. -/
theorem record_legal (hmay : (refundKnowledge O).may k o)
    (hlive : reservationLive S owner w.tokens = true)
    (hclosed : k.closed → reservationLive S owner w.tokens = false) (m : Meta) :
    Legal false m.status (o.record S e m).status := by
  cases hop : o.storeOp e with
  | none =>
    rw [record_of_edit hop]
    exact legal_of_eq ((edit_keepsLife hop hmay).status m)
  | some op =>
    obtain ⟨hmiss, -, hlate⟩ := storeOp_may hop hmay
    have hstep := storeOp_legal (u := S.chars) op hmiss m
    rw [record_of_storeOp hop]
    rwa [not_late_of_live hlive hclosed hlate] at hstep

/-- A refund that finds the reservation live is made under its hash. -/
def Op.ToCurrent (S : Setting) (owner : String) : Op → World → Prop
  | .refundTempQuota hash, w => reservationLive S owner w.tokens = true → hash = owner
  | _, _ => True

theorem toCurrent_of_one (hmay : (refundKnowledge (.one owner)).may k o) :
    o.ToCurrent S owner w := by
  cases o with
  | refundTempQuota hash => exact fun _ => hmay.1
  | _ => trivial

/-- A reservation that is not live stays so. -/
theorem not_live_step (h : reservationLive S owner w.tokens = false) :
    reservationLive S owner (handle S e o w).2.tokens = false := by
  by_cases hrefund : ∃ hash, o = .refundTempQuota hash
  · obtain ⟨hash, rfl⟩ := hrefund
    exact not_live_kept hash e.stamp h
  · rw [handle_tokens fun hash heq => hrefund ⟨hash, heq⟩]
    exact h

theorem live_of_live_step (h : reservationLive S owner (handle S e o w).2.tokens = true) :
    reservationLive S owner w.tokens = true := by
  cases hlive : reservationLive S owner w.tokens with
  | true => rfl
  | false =>
    rw [not_live_step hlive] at h
    cases h

/-- After a refund under the hash that the reservation is under, it is not live. -/
theorem refunded_step {hash : String} (hcurrent : (Op.refundTempQuota hash).ToCurrent S owner w) :
    reservationLive S owner (handle S e (.refundTempQuota hash) w).2.tokens = false := by
  cases hlive : reservationLive S owner w.tokens with
  | false => exact not_live_step hlive
  | true =>
    obtain rfl := hcurrent hlive
    exact not_live_refunded e.stamp w.tokens

/-! ### The invariant -/

/-- The owner of the task is this one, and a late watch begins after the refund. -/
structure Sane (S : Setting) (owner : String) (w : World) : Prop where
  ownerTokenHash : ∀ m, w.task = some m → m.ownerTokenHash = owner
  late : ∀ m, w.task = some m → m.lateResultWatchUntil ≠ none →
    reservationLive S owner w.tokens = false

/-- The same where the owner's hash may change, and the reservation is under `owner` now. -/
structure SaneAmong (S : Setting) (O : Owners) (owner : String) (w : World) : Prop where
  ownerTokenHash : ∀ m, w.task = some m → O.mem m.ownerTokenHash
  late : ∀ m, w.task = some m → m.lateResultWatchUntil ≠ none →
    reservationLive S owner w.tokens = false

theorem Sane.among (hw : Sane S owner w) : SaneAmong S (.one owner) owner w :=
  ⟨hw.ownerTokenHash, hw.late⟩

/-- What a call knows is true; a doomed task with a live reservation has a status in `final`. -/
structure Known.Holds (S : Setting) (owner : String) (final : List Status) (w : World)
    (k : Known) : Prop where
  closed : k.closed → reservationLive S owner w.tokens = false
  doomed : k.doomed → reservationLive S owner w.tokens = true →
    ∀ m, w.task = some m → m.status ∈ final

/-- Statuses that a task cannot leave, among them `failed` and `canceled`. -/
structure Final (final : List Status) : Prop where
  failed : .failed ∈ final
  canceled : .canceled ∈ final
  stays : ∀ start finish, Legal false start finish → start ∈ final → finish ∈ final

theorem sane_step (hw : SaneAmong S O owner w) (hmay : (refundKnowledge O).may k o)
    (hclosed : k.closed → reservationLive S owner w.tokens = false) :
    SaneAmong S O owner (handle S e o w).2 := by
  have hrecord : ∀ m, w.task = some m → (o.record S e m).ownerTokenHash = m.ownerTokenHash ∧
      ((o.record S e m).lateResultWatchUntil = m.lateResultWatchUntil ∨
        (o.record S e m).lateResultWatchUntil = none ∨ k.closed) := by
    intro m _
    cases hop : o.storeOp e with
    | none =>
      rw [record_of_edit hop]
      have hkeeps := edit_keepsLife hop hmay
      exact ⟨hkeeps.ownerTokenHash m, hkeeps.lateResultWatchUntil m⟩
    | some op =>
      rw [record_of_storeOp hop]
      have hsame := storeOp_sameOwner (u := S.chars) op m
      exact ⟨hsame.ownerTokenHash, hsame.lateResultWatchUntil.imp id .inl⟩
  constructor
  · intro m' hm'
    obtain ⟨m, hm, rfl⟩ := handle_task hm'
    rw [(hrecord m hm).1]
    exact hw.ownerTokenHash m hm
  · intro m' hm' hlate
    obtain ⟨m, hm, rfl⟩ := handle_task hm'
    refine not_live_step ?_
    rcases (hrecord m hm).2 with hsame | hnone | hwhen
    · exact hw.late m hm (hsame ▸ hlate)
    · exact absurd hnone hlate
    · exact hclosed hwhen

/-- The results of an operation are among those that it can have. -/
theorem can_result (hw : SaneAmong S O owner w) : (refundKnowledge O).can o (handle S e o w).1 := by
  cases o with
  | getMeta =>
    cases hm : w.task with
    | none => simp [handle, refundKnowledge, hm]
    | some m => simpa [handle, refundKnowledge, hm] using hw.ownerTokenHash m hm
  | requestCancel reason allowSubmitted time =>
    cases hm : w.task with
    | none => simp [handle, refundKnowledge, hm]
    | some m =>
      have hsame := storeOp_sameOwner (u := S.chars) (.requestTaskCancel reason allowSubmitted time) m
      have hresult : (requestTaskCancel reason allowSubmitted time m).1.2 =
          (requestTaskCancel reason allowSubmitted time m).2 := by
        unfold requestTaskCancel
        split <;> rfl
      simp only [handle, refundKnowledge, hm, hresult]
      exact hsame.ownerTokenHash ▸ hw.ownerTokenHash m hm
  | _ => simp [refundKnowledge]

/-- What another call knows stays true. -/
theorem Known.Holds.step {final : List Status} (hfinal : Final final) {j : Known}
    (hj : j.Holds S owner final w) (hk : k.Holds S owner final w)
    (hmay : (refundKnowledge O).may k o) : j.Holds S owner final (handle S e o w).2 := by
  constructor
  · exact fun h => not_live_step (hj.closed h)
  · intro hdoomed hlive' m' hm'
    obtain ⟨m, hm, rfl⟩ := handle_task hm'
    have hlive := live_of_live_step hlive'
    exact hfinal.stays _ _ (record_legal hmay hlive hk.closed m) (hj.doomed hdoomed hlive m hm)

theorem Known.Holds.of_eq {final : List Status} {k' : Known} (hk : k.Holds S owner final w)
    (hclosed : k'.closed → k.closed) (hdoomed : k'.doomed → k.doomed) :
    k'.Holds S owner final w :=
  ⟨hk.closed ∘ hclosed, hk.doomed ∘ hdoomed⟩

theorem requestTaskCancel_canceled {reason : String} {allowSubmitted : Bool} {time : Int}
    (h : (requestTaskCancel reason allowSubmitted time m).1.1 = true) :
    (requestTaskCancel reason allowSubmitted time m).2.status = .canceled := by
  unfold requestTaskCancel at h ⊢
  split at h
  · cases h
  · rename_i hguard
    rw [if_neg hguard]

/-- Where a write dooms a task with a live reservation, it leaves it in a final status. -/
def Op.DoomsFinal (S : Setting) (owner : String) (final : List Status) (o : Op) (w : World) : Prop :=
  ∀ site op m, o = .write site op → w.task = some m → reservationLive S owner w.tokens = true →
    Dooms site op (op.count S.chars m) → (op.apply S.chars m).status ∈ final

/-- What a call learns from an operation is true. -/
theorem Known.Holds.learn {final : List Status} (hfinal : Final final) (hw : SaneAmong S O owner w)
    (hk : k.Holds S owner final w) (hmay : (refundKnowledge O).may k o)
    (hcurrent : o.ToCurrent S owner w)
    (hdooms : o.DoomsFinal S owner final w) :
    ((refundKnowledge O).learn k o (handle S e o w).1).Holds S owner final
      (handle S e o w).2 := by
  have hstays : k.Holds S owner final (handle S e o w).2 := hk.step hfinal hk hmay
  cases o with
  | getMeta =>
    cases hm : w.task with
    | none => exact hstays.of_eq (by simp [handle, refundKnowledge, hm]) (by simp [handle, refundKnowledge, hm])
    | some m =>
      simp only [handle, refundKnowledge, hm]
      constructor
      · rintro (hclosed | hlate)
        · exact hk.closed hclosed
        · exact hw.late m hm hlate
      · rintro (hdoomed | hstatus) hlive m' hm'
        · exact hk.doomed hdoomed hlive m' hm'
        · obtain rfl : m = m' := Option.some.inj (hm.symm.trans hm')
          rcases List.mem_pair.mp hstatus with hs | hs <;> rw [hs]
          · exact hfinal.failed
          · exact hfinal.canceled
  | write site op =>
    cases hm : w.task with
    | none => exact hstays.of_eq (by simp [handle, refundKnowledge, hm]) (by simp [handle, refundKnowledge, hm])
    | some m =>
      simp only [handle, refundKnowledge, hm] at hstays ⊢
      refine ⟨hstays.closed, ?_⟩
      rintro (hdoomed | hnow) hlive m' hm'
      · exact hstays.doomed hdoomed hlive m' hm'
      · cases hm'
        exact hdooms site op m rfl hm hlive hnow
  | requestCancel reason allowSubmitted time =>
    cases hm : w.task with
    | none => exact hstays.of_eq (by simp [handle, refundKnowledge, hm]) (by simp [handle, refundKnowledge, hm])
    | some m =>
      simp only [handle, refundKnowledge, hm] at hstays ⊢
      refine ⟨hstays.closed, ?_⟩
      rintro (hdoomed | happlied) hlive m' hm'
      · exact hstays.doomed hdoomed hlive m' hm'
      · cases hm'
        rw [requestTaskCancel_canceled happlied]
        exact hfinal.canceled
  | refundTempQuota hash =>
    have hgone : reservationLive S owner (handle S e (.refundTempQuota hash) w).2.tokens = false :=
      refunded_step hcurrent
    exact ⟨fun _ => hgone, fun _ hlive => by simp [hgone] at hlive⟩
  | updateMeta time f =>
    cases hm : w.task with
    | none => exact hstays.of_eq (by simp [handle, refundKnowledge, hm]) (by simp [handle, refundKnowledge, hm])
    | some m => simpa [handle, refundKnowledge, hm] using hstays
  | updateMetaIf expected time f =>
    cases hm : w.task with
    | none => exact hstays.of_eq (by simp [handle, refundKnowledge, hm]) (by simp [handle, refundKnowledge, hm])
    | some m => simpa [handle, refundKnowledge, hm] using hstays
  | _ => exact hstays

/-- The invariant of all calls. -/
structure RefundInv (S : Setting) (O : Owners) (owner : String) (final : List Status) (w : World)
    (known : Nat → Known) : Prop where
  sane : SaneAmong S O owner w
  holds : ∀ i, (known i).Holds S owner final w

/-- A call that begins knows nothing but whether there is an owner. -/
theorem holds_start {final : List Status} (howner : O.mem owner) :
    (refundKnowledge O).start.Holds S owner final w := by
  refine ⟨fun hunpaid => ?_, fun hdoomed => hdoomed.elim⟩
  obtain rfl : owner = "" := not_not.mp fun h => hunpaid ((O.paid_iff owner howner).mp h)
  exact reservationLive_empty

theorem refundInv_spawn {final : List Status} {known : Nat → Known} (i : Nat) (howner : O.mem owner)
    (h : RefundInv S O owner final w known) :
    RefundInv S O owner final w (Function.update known i (refundKnowledge O).start) := by
  refine ⟨h.sane, fun j => ?_⟩
  by_cases hj : j = i
  · subst hj
    rw [Function.update_self]
    exact holds_start howner
  · rw [Function.update_of_ne hj]
    exact h.holds j

theorem refundInv_step {final : List Status} (hfinal : Final final) {known : Nat → Known} {i : Nat}
    (h : RefundInv S O owner final w known) (hmay : (refundKnowledge O).may (known i) o)
    (hcurrent : o.ToCurrent S owner w) (hdooms : o.DoomsFinal S owner final w) :
    RefundInv S O owner final (handle S e o w).2 (Function.update known i
      ((refundKnowledge O).learn (known i) o (handle S e o w).1)) := by
  refine ⟨sane_step h.sane hmay (h.holds i).closed, fun j => ?_⟩
  by_cases hj : j = i
  · subst hj
    rw [Function.update_self]
    exact (h.holds j).learn hfinal h.sane hmay hcurrent hdooms
  · rw [Function.update_of_ne hj]
    exact (h.holds j).step hfinal (h.holds i) hmay

end Steps

end FetchTask.Lifecycle
