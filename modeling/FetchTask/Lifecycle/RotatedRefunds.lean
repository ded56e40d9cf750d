import FetchTask.Lifecycle.FailureRefunded
import FetchTask.Lifecycle.Rotating

/-!
A refund while the owner's token is rotated.

A rotation moves the entry of the user to a new hash; after that the tasks of the
old hash are listed and moved one by one (`migrate_task_owner`). The calls that
fail a task have read its owner before, some of them long before. A refund under
a hash that has been rotated away finds no entry and returns `False`, and nobody
looks at that.
-/

namespace FetchTask.Lifecycle

open Store Runs Knowledge

/-! ### The law -/

section Law

variable (S : Setting) {U : UserHashes S.chars}

/-- When the task has failed and no call is at work: its reservation has been refunded once, and
what it held is in the balance of the entry under the user's hash. `entry₀` is the entry before. -/
def RefundFollows (entry₀ : TempAccess.Entry) (c : RealmConfig S U) : Prop :=
  (∃ m, c.shared.world.task = some m ∧ m.status = .failed) →
    (∀ i, (c.threads i).isDone = true) →
      c.shared.refunds = 1 ∧ ∃ entry, c.shared.world.tokens c.shared.userHash = some entry ∧
        TempAccess.holdsLive entry S.taskId = false ∧ TempAccess.Kept entry₀ entry

/-- A refund under a hash that the call has read as the owner finds it the owner still, and no
rotation under way. -/
def Op.RefundsAsRead (still : Prop) (read : List String) : Op → Realm U → Prop
  | .refundTempQuota hash, r =>
    reservationLive S r.userHash r.world.tokens = true → hash ∈ read →
      still ∧ ∀ m ∈ r.world.task, m.ownerTokenHash = hash
  | _, _ => True

/-- The condition on an operation of a call that has read the owners `read`; `still` says that no
rotation is under way. A write fails the task only where a refund follows, no rotation lies
between the read of an owner and a refund under it, and rotations do not overlap. -/
def Undisturbed (still : Prop) (read : List String) (e : RealmEnv) (o : (RealmSig U).Op)
    (r : Realm U) : Prop :=
  match o with
  | .inl o => o.FailsWithRefund S r.userHash r.world ∧ o.RefundsAsRead S still read r
  | .inr (.rotateUserToken presented) =>
    e.accepted = true → presented.all (· == r.userHash.val) = true → still
  | .inr _ => True

/-- What is followed of a call: the owners that it has read, and how far its rotation is. -/
abbrev progress (U : UserHashes S.chars) : Knowledge (RealmSig U) (List String × Rotation U) :=
  (realmReads U).both (rotations U)

/-- No rotation is under way. -/
def NoRotation (known : Nat → List String × Rotation U) : Prop := ∀ i, (known i).2 = .idle

instance (still : Prop) [Decidable still] (read : List String) (o : Op) (r : Realm U) :
    Decidable (o.RefundsAsRead S still read r) := by
  cases o with
  | refundTempQuota hash => exact inferInstanceAs (Decidable (_ → _))
  | _ => exact inferInstanceAs (Decidable True)

instance (still : Prop) [Decidable still] (read : List String) (e : RealmEnv)
    (o : (RealmSig U).Op) (r : Realm U) : Decidable (Undisturbed S still read e o r) := by
  cases o with
  | inl o => exact inferInstanceAs (Decidable (_ ∧ _))
  | inr o =>
    cases o with
    | rotateUserToken presented => exact inferInstanceAs (Decidable (_ → _))
    | _ => exact inferInstanceAs (Decidable True)

/-- A user who has paid for the task; no call is in progress. -/
structure PaidRealm (entry₀ : TempAccess.Entry) (c : RealmConfig S U) : Prop where
  idle : ∀ i, (c.threads i).isDone = true
  others : ∀ hash : U.Hash, hash ≠ c.shared.userHash → c.shared.world.tokens hash = none
  entry : c.shared.world.tokens c.shared.userHash = some entry₀
  version : 2 ≤ entry₀.billingVersion
  reserved : TempAccess.holdsLive entry₀ S.taskId = true
  refunds : c.shared.refunds = 0
  task : ∀ m, c.shared.world.task = some m →
    m.ownerTokenHash = c.shared.userHash ∧ m.status ≠ .failed ∧ m.lateResultWatchUntil = none

end Law

/-! ### The reservation of the entry under the user's hash -/

section Realm

variable {S : Setting} {U : UserHashes S.chars} {entry₀ entry : TempAccess.Entry} {r : Realm U}
  {w : World} {known : Nat → Known} {e : RealmEnv}

theorem reservationLive_eq {hash : U.Hash} {tokens : TempAccess.Tokens}
    (hentry : tokens hash = some entry) (hversion : 2 ≤ entry.billingVersion) :
    reservationLive S hash tokens = TempAccess.holdsLive entry S.taskId := by
  simp [reservationLive, U.own_normal _ hash.property, U.own_ne_empty _ hash.property, hentry,
    hversion]

/-- The entry of the user holds what it held before, and no other hash of the user has one. -/
structure EntryInv (S : Setting) {U : UserHashes S.chars} (entry₀ : TempAccess.Entry)
    (r : Realm U) : Prop where
  others : ∀ hash : U.Hash, hash ≠ r.userHash → r.world.tokens hash = none
  entry : ∃ entry, r.world.tokens r.userHash = some entry ∧ 2 ≤ entry.billingVersion ∧
    TempAccess.Kept entry₀ entry ∧
    r.refunds = if TempAccess.holdsLive entry S.taskId then 0 else 1

/-- A rotation is over for the entry, and not yet for the task. -/
def Rotation.Moves (old : String) (new : U.Hash) (k : Rotation U) : Prop :=
  k = .moved old new ∨ k = .listed old new

/-- One rotation at most is under way. It has moved the entry, and not yet the task; when there
is none, the task is the user's. -/
structure Migrations (r : Realm U) (stage : Nat → Rotation U) : Prop where
  moves : ∀ i old new, (stage i).Moves old new → new = r.userHash ∧
    (∀ m, r.world.task = some m → m.ownerTokenHash = old) ∧ ∀ j, j ≠ i → stage j = .idle
  strayed : ∀ i, stage i ≠ .strayed
  settled : (∀ i, stage i = .idle) →
    ∀ m, r.world.task = some m → m.ownerTokenHash = r.userHash

/-- What the calls of both kinds know: of themselves, and of refunds. -/
abbrev realmKnowledge (S : Setting) (U : UserHashes S.chars) :
    Knowledge (RealmSig U) ((List String × Rotation U) × Known) :=
  (progress S U).both (debtKnowledge U U.owners)

structure RealmInv (S : Setting) {U : UserHashes S.chars} (entry₀ : TempAccess.Entry)
    (r : Realm U) (known : Nat → (List String × Rotation U) × Known) : Prop where
  entry : EntryInv S entry₀ r
  debts : r.world.task = none ∨ DebtInv S U.owners r.userHash r.world (Prod.snd ∘ known)
  migrations : Migrations r ((fun k => k.1.2) ∘ known)

/-- A refund that finds nothing to refund changes nothing. -/
theorem realmHandle_refund_none {hash : String}
    (h : TempAccess.refundTempQuotaHash S.chars hash S.taskId e.life.stamp r.world.tokens =
      (false, none, r.world.tokens)) :
    (realmHandle S e (.inl (.refundTempQuota hash)) r).2 = r := by
  simp only [realmHandle, handle, h, Op.refunded]
  rfl

theorem realmHandle_refund_some {hash : String} {transaction : Option TempAccess.RefundTransaction}
    {tokens : TempAccess.Tokens}
    (h : TempAccess.refundTempQuotaHash S.chars hash S.taskId e.life.stamp r.world.tokens =
      (true, transaction, tokens)) :
    (realmHandle S e (.inl (.refundTempQuota hash)) r).2 =
      { r with world := { r.world with tokens }, refunds := r.refunds + 1 } := by
  simp only [realmHandle, handle, h, Op.refunded]
  rfl

/-- A refund closes the live reservation under the user's hash, or changes nothing. -/
theorem entryInv_refund (hash : U.Hash) (h : EntryInv S entry₀ r) :
    EntryInv S entry₀ (realmHandle S e (.inl (.refundTempQuota hash)) r).2 := by
  obtain ⟨entry, hentry, hversion, hkept, hrefunds⟩ := h.entry
  have hnormal := U.own_normal _ hash.property
  have hne := U.own_ne_empty _ hash.property
  by_cases hsame : hash = r.userHash
  · subst hsame
    rcases TempAccess.refundEntry_cases ⟨S.taskId, S.taskId_ne_empty⟩ e.life.stamp hversion with
      hnone | ⟨reservation, hget, hlive, hback⟩
    · have hresult : TempAccess.refundTempQuotaHash S.chars r.userHash S.taskId e.life.stamp
          r.world.tokens = (false, none, r.world.tokens) := by
        simp only [TempAccess.refundTempQuotaHash, hnormal, hne, if_false, hentry,
          show TempAccess.refundEntry S.taskId e.life.stamp entry = _ from hnone]
      rw [realmHandle_refund_none hresult]
      exact h
    · have hresult := by
        simpa only [hnormal, hne, if_false, hentry,
          show TempAccess.refundEntry S.taskId e.life.stamp entry = _ from hback] using
          TempAccess.refundTempQuotaHash.eq_def S.chars r.userHash S.taskId e.life.stamp
            r.world.tokens
      -- It was live, so nothing had been refunded.
      have hheld : TempAccess.holdsLive entry S.taskId = true :=
        (Option.any_eq_true _ _).mpr ⟨reservation, hget, hlive⟩
      have hback' := TempAccess.givenBack_kept e.life.stamp hget hlive
      have hclosed := TempAccess.holdsLive_givenBack entry S.taskId reservation e.life.stamp S.taskId
      rw [realmHandle_refund_some hresult]
      refine ⟨fun other hdiff => ?_, ?_⟩
      · show Function.update r.world.tokens r.userHash _ other = none
        rw [Function.update_of_ne fun heq => hdiff (Subtype.ext heq)]
        exact h.others other hdiff
      · refine ⟨_, Function.update_self .., ?_, hkept.trans hback', ?_⟩
        · rw [hback'.version]
          exact hversion
        · rw [hclosed, if_pos rfl]
          simp [hrefunds, hheld]
  · -- a hash that was rotated away has no entry, and `False` is returned
    have hresult : TempAccess.refundTempQuotaHash S.chars hash S.taskId e.life.stamp
        r.world.tokens = (false, none, r.world.tokens) := by
      simp only [TempAccess.refundTempQuotaHash, hnormal, hne, if_false, h.others hash hsame]
    rw [realmHandle_refund_none hresult]
    exact h

theorem entryInv_life {o : Op} (h : EntryInv S entry₀ r)
    (hmay : ∀ hash, o = .refundTempQuota hash → U.own hash = true) :
    EntryInv S entry₀ (realmHandle S e (.inl o) r).2 := by
  by_cases hrefund : ∃ hash, o = .refundTempQuota hash
  · obtain ⟨hash, rfl⟩ := hrefund
    exact entryInv_refund ⟨hash, hmay hash rfl⟩ h
  · have hno : ∀ hash, o ≠ .refundTempQuota hash := fun hash heq => hrefund ⟨hash, heq⟩
    have htokens : (realmHandle S e (.inl o) r).2.world.tokens = r.world.tokens :=
      handle_tokens hno
    have hrefunds : (realmHandle S e (.inl o) r).2.refunds = r.refunds := by
      cases o with
      | refundTempQuota hash => exact absurd rfl (hno hash)
      | _ => rfl
    obtain ⟨entry, hentry, hrest⟩ := h.entry
    refine ⟨fun hash hdiff => ?_, entry, ?_, ?_⟩
    · rw [htokens]
      exact h.others hash hdiff
    · rw [htokens]
      exact hentry
    · rw [hrefunds]
      exact hrest

/-! ### A rotation -/

/-- What a rotation leaves as it is: the debts do not depend on the owner's hash. -/
theorem DebtInv.moved {O : Owners} {owner owner' : String} (h : DebtInv S O owner w known)
    (w' : World)
    (hlive : reservationLive S owner' w'.tokens = reservationLive S owner w.tokens)
    (htask : ∀ m', w'.task = some m' → O.mem m'.ownerTokenHash ∧ ∃ m, w.task = some m ∧
      m'.status = m.status ∧ m'.lateResultWatchUntil = m.lateResultWatchUntil) :
    DebtInv S O owner' w' known := by
  refine ⟨⟨⟨fun m' hm' => (htask m' hm').1, fun m' hm' hlate => ?_⟩, fun i => ⟨?_, ?_⟩⟩, ?_⟩
  · obtain ⟨-, m, hm, -, hsame⟩ := htask m' hm'
    rw [hlive]
    exact h.refunds.sane.late m hm (hsame ▸ hlate)
  · intro hclosed
    rw [hlive]
    exact (h.refunds.holds i).closed hclosed
  · intro hdoomed hstill m' hm'
    obtain ⟨-, m, hm, hstatus, -⟩ := htask m' hm'
    rw [hstatus]
    exact (h.refunds.holds i).doomed hdoomed (hlive ▸ hstill) m hm
  · rintro ⟨m', hm', hfailed⟩ hstill
    obtain ⟨-, m, hm, hstatus, -⟩ := htask m' hm'
    exact h.debtor ⟨m, hm, hstatus ▸ hfailed⟩ (hlive ▸ hstill)

/-- What a rotation does: nothing, or it moves the entry to a hash that is not in use. -/
theorem rotateUserToken_cases (presented : Option String) :
    rotationHandle S e (.rotateUserToken presented) r = (none, r) ∨
      ∃ entry newHash, r.world.tokens r.userHash = some entry ∧ r.world.tokens newHash.val = none ∧
        e.accepted = true ∧ presented.all (· == r.userHash.val) = true ∧
        rotationHandle S e (.rotateUserToken presented) r =
          (some (r.userHash.val, newHash),
            { r with
              world := { r.world with
                tokens := Function.update (Function.update r.world.tokens newHash
                  (some { entry with token := e.token, updatedAt := e.life.stamp }))
                  r.userHash none }
              userHash := newHash }) := by
  cases hentry : r.world.tokens r.userHash with
  | none => exact .inl (by simp only [rotationHandle, hentry])
  | some entry =>
    simp only [rotationHandle, hentry]
    split
    · rename_i hown
      split
      · rename_i hfree
        exact .inr ⟨entry, ⟨_, hown⟩, rfl, hfree.2.2, hfree.1, hfree.2.1, rfl⟩
      · exact .inl rfl
    · exact .inl rfl

/-- The entry under a new hash is the same but for the token. -/
theorem entryInv_moved (h : EntryInv S entry₀ r) (hentry : r.world.tokens r.userHash = some entry)
    (newHash : U.Hash) (hnone : r.world.tokens newHash = none) (token now : String) :
    EntryInv S entry₀
      { r with
        world := { r.world with
          tokens := Function.update (Function.update r.world.tokens newHash
            (some { entry with token := token, updatedAt := now })) r.userHash none }
        userHash := newHash } := by
  obtain ⟨held, hheld, hversion, hkept, hrefunds⟩ := h.entry
  obtain rfl : held = entry := Option.some.inj (hheld.symm.trans hentry)
  have hdiff : newHash.val ≠ r.userHash.val := by
    intro heq
    rw [heq, hentry] at hnone
    cases hnone
  refine ⟨fun hash hother => ?_, { held with token := token, updatedAt := now }, ?_, hversion,
    ⟨hkept.version, hkept.points, hkept.video, fun hnonneg => ?_⟩, hrefunds⟩
  · show Function.update (Function.update r.world.tokens newHash _) r.userHash none hash = none
    by_cases hold : hash = r.userHash
    · rw [hold, Function.update_self]
    · rw [Function.update_of_ne fun heq => hold (Subtype.ext heq),
        Function.update_of_ne fun heq => hother (Subtype.ext heq)]
      exact h.others hash hold
  · show Function.update _ _ _ _ = _
    rw [Function.update_of_ne hdiff, Function.update_self]
  · exact ⟨(hkept.nonneg hnonneg).credit, (hkept.nonneg hnonneg).video⟩

/-- The reservation is live under the new hash when it was under the old one. -/
theorem reservationLive_moved (h : EntryInv S entry₀ r)
    (hentry : r.world.tokens r.userHash = some entry) (newHash : U.Hash)
    (hnone : r.world.tokens newHash = none) (token now : String) :
    reservationLive S newHash (Function.update (Function.update r.world.tokens newHash
      (some { entry with token := token, updatedAt := now })) r.userHash none) =
        reservationLive S r.userHash r.world.tokens := by
  obtain ⟨held, hheld, hversion, -⟩ := h.entry
  obtain rfl : held = entry := Option.some.inj (hheld.symm.trans hentry)
  have hdiff : newHash.val ≠ r.userHash.val := by
    intro heq
    rw [heq, hentry] at hnone
    cases hnone
  have hmoved : (Function.update (Function.update r.world.tokens newHash
      (some { held with token := token, updatedAt := now })) r.userHash none) newHash.val =
        some { held with token := token, updatedAt := now } := by
    rw [Function.update_of_ne hdiff, Function.update_self]
  rw [reservationLive_eq hmoved hversion, reservationLive_eq hentry hversion]
  rfl

theorem entryInv_rotation {o : RotationOp U} (h : EntryInv S entry₀ r) :
    EntryInv S entry₀ (rotationHandle S e o r).2 := by
  cases o with
  | listOwned tokenHash => exact h
  | setOwner tokenHash =>
    cases hm : r.world.task with
    | none => simpa only [rotationHandle, hm] using h
    | some m =>
      simp only [rotationHandle, hm]
      exact ⟨h.others, h.entry⟩
  | rotateUserToken presented =>
    obtain hnothing | ⟨entry, newHash, hentry, hnone, -, -, hmoved⟩ :=
      rotateUserToken_cases (S := S) (r := r) (e := e) presented
    · rw [hnothing]
      exact h
    · rw [hmoved]
      exact entryInv_moved h hentry newHash hnone e.token e.life.stamp

theorem debtInv_rotation {o : RotationOp U} (hentry : EntryInv S entry₀ r)
    (h : DebtInv S U.owners r.userHash r.world known) :
    DebtInv S U.owners (rotationHandle S e o r).2.userHash (rotationHandle S e o r).2.world
      known := by
  cases o with
  | listOwned tokenHash => exact h
  | setOwner tokenHash =>
    cases hm : r.world.task with
    | none => simpa only [rotationHandle, hm] using h
    | some m =>
      simp only [rotationHandle, hm]
      refine h.moved _ rfl fun m' hm' => ?_
      obtain rfl := Option.some.inj hm'
      exact ⟨tokenHash.property, m, hm, rfl, rfl⟩
  | rotateUserToken presented =>
    obtain hnothing | ⟨entry, newHash, hheld, hnone, -, -, hmoved⟩ :=
      rotateUserToken_cases (S := S) (r := r) (e := e) presented
    · rw [hnothing]
      exact h
    · rw [hmoved]
      refine h.moved _ (reservationLive_moved hentry hheld newHash hnone _ _) fun m hm => ?_
      exact ⟨h.refunds.sane.ownerTokenHash m hm, m, hm, rfl, rfl⟩

/-- No operation on the task brings it back. -/
theorem task_none_kept {o : (RealmSig U).Op} (h : r.world.task = none) :
    (realmHandle S e o r).2.world.task = none := by
  cases o with
  | inl o =>
    cases hm : (handle S e.life o r.world).2.task with
    | none => exact hm
    | some m =>
      obtain ⟨m₀, hm₀, -⟩ := handle_task hm
      rw [h] at hm₀
      cases hm₀
  | inr o =>
    cases o with
    | listOwned tokenHash => exact h
    | setOwner tokenHash => simp only [realmHandle, rotationHandle, h]
    | rotateUserToken presented =>
      obtain hnothing | ⟨_, _, _, _, _, _, hmoved⟩ :=
        rotateUserToken_cases (S := S) (r := r) (e := e) presented
      · rw [realmHandle, hnothing]
        exact h
      · rw [realmHandle, hmoved]
        exact h

/-! ### How far the rotations are -/

section Migrations

variable {stage : Nat → Rotation U} {i : Nat}

/-- A call on the task does not change its owner. -/
theorem owner_kept {O : Owners} {k : Known} {o : Op} {m' : Meta}
    (hmay : (refundKnowledge O).may k o) (hm' : (handle S e.life o w).2.task = some m') :
    ∃ m, w.task = some m ∧ m'.ownerTokenHash = m.ownerTokenHash := by
  obtain ⟨m, hm, rfl⟩ := handle_task hm'
  refine ⟨m, hm, ?_⟩
  cases hop : o.storeOp e.life with
  | none =>
    rw [record_of_edit hop]
    exact (edit_keepsLife hop hmay).ownerTokenHash m
  | some op =>
    rw [record_of_storeOp hop]
    exact (storeOp_sameOwner (u := S.chars) op m).ownerTokenHash

theorem task_none_of_gone {o : Op} (h : o.gone (handle S e.life o w).1 = true) :
    w.task = none := by
  cases hm : w.task with
  | none => rfl
  | some m => cases o <;> simp [Op.gone, handle, hm] at h

/-- A rotation hears of the task only that it is gone. -/
theorem listed_learn (h : Migrations r stage) (i : Nat) (o : Op) :
    (listedKnowledge U).learn (stage i) o (handle S e.life o r.world).1 = stage i ∨
      (listedKnowledge U).learn (stage i) o (handle S e.life o r.world).1 = .idle ∧
        r.world.task = none := by
  cases hi : stage i with
  | idle => exact .inl rfl
  | moved old new => exact .inl rfl
  | strayed => exact absurd hi (h.strayed i)
  | listed old new =>
    have hgone : (o.gone (handle S e.life o r.world).1 = true → r.world.task = none) :=
      task_none_of_gone
    cases o with
    | getMeta =>
      cases hm : r.world.task with
      | none => exact .inr ⟨by simp [handle, hm, listedKnowledge, Op.gone], rfl⟩
      | some m =>
        have howner := (h.moves i old new (.inr hi)).2.1 m hm
        exact .inl (by simp [handle, hm, listedKnowledge, howner])
    | _ =>
      simp only [listedKnowledge]
      split
      · rename_i h'
        exact .inr ⟨rfl, hgone h'⟩
      · exact .inl rfl

theorem migrations_life {O : Owners} {k : Known} {o : Op} (h : Migrations r stage)
    (hmay : (refundKnowledge O).may k o) :
    Migrations (realmHandle S e (.inl o) r).2 (Function.update stage i
      ((listedKnowledge U).learn (stage i) o (handle S e.life o r.world).1)) := by
  have howner : ∀ m', (realmHandle S e (.inl o) r).2.world.task = some m' →
      ∃ m, r.world.task = some m ∧ m'.ownerTokenHash = m.ownerTokenHash :=
    fun m' hm' => owner_kept (e := e) hmay hm'
  obtain hsame | ⟨hidle, hnone⟩ := listed_learn (e := e) h i o
  · rw [hsame, Function.update_eq_self]
    refine ⟨fun j old new hj => ?_, h.strayed, fun hall m' hm' => ?_⟩
    · obtain ⟨hnew, hold, hothers⟩ := h.moves j old new hj
      refine ⟨hnew, fun m' hm' => ?_, hothers⟩
      obtain ⟨m, hm, heq⟩ := howner m' hm'
      exact heq.trans (hold m hm)
    · obtain ⟨m, hm, heq⟩ := howner m' hm'
      exact heq.trans (h.settled hall m hm)
  · have hgone : (realmHandle S e (.inl o) r).2.world.task = none := task_none_kept hnone
    rw [hidle]
    -- the rotation ends without a task to move, and has nothing to settle
    refine ⟨fun j old new hj => ?_, fun j => ?_, fun _ m' hm' => ?_⟩
    · by_cases hji : j = i
      · subst hji
        rw [Function.update_self] at hj
        obtain hj | hj := hj <;> cases hj
      · rw [Function.update_of_ne hji] at hj
        obtain ⟨hnew, -, hothers⟩ := h.moves j old new hj
        refine ⟨hnew, fun m' hm' => ?_, fun l hl => ?_⟩
        · rw [hgone] at hm'
          cases hm'
        · by_cases hli : l = i
          · rw [hli, Function.update_self]
          · rw [Function.update_of_ne hli]
            exact hothers l hl
    · by_cases hji : j = i
      · rw [hji, Function.update_self]
        nofun
      · rw [Function.update_of_ne hji]
        exact h.strayed j
    · rw [hgone] at hm'
      cases hm'

/-- Where all the others are idle, a thread that goes idle leaves no rotation under way. -/
theorem migrations_idle (hothers : ∀ j, j ≠ i → stage j = .idle)
    (hsettled : ∀ m, r.world.task = some m → m.ownerTokenHash = r.userHash) :
    Migrations r (Function.update stage i .idle) := by
  have hidle : ∀ j, Function.update stage i .idle j = .idle := by
    intro j
    by_cases hji : j = i
    · rw [hji, Function.update_self]
    · rw [Function.update_of_ne hji]
      exact hothers j hji
  refine ⟨fun j old new hj => ?_, fun j => ?_, fun _ => hsettled⟩
  · rw [hidle j] at hj
    obtain hj | hj := hj <;> cases hj
  · rw [hidle j]
    nofun

theorem migrations_moves {old : String} {new : U.Hash} {k : Rotation U}
    (hothers : ∀ j, j ≠ i → stage j = .idle) (hk : k.Moves old new) (hnew : new = r.userHash)
    (hold : ∀ m, r.world.task = some m → m.ownerTokenHash = old) :
    Migrations r (Function.update stage i k) := by
  have hdiff : k ≠ .idle ∧ k ≠ .strayed := by
    obtain rfl | rfl := hk <;> exact ⟨nofun, nofun⟩
  refine ⟨fun j old' new' hj => ?_, fun j => ?_, fun hall => ?_⟩
  · by_cases hji : j = i
    · subst hji
      rw [Function.update_self] at hj
      have hsame : old' = old ∧ new' = new := by
        obtain rfl | rfl := hk <;> obtain hj | hj := hj <;> cases hj <;> exact ⟨rfl, rfl⟩
      refine ⟨hsame.2.trans hnew, fun m hm => (hold m hm).trans hsame.1.symm, fun l hl => ?_⟩
      rw [Function.update_of_ne hl]
      exact hothers l hl
    · rw [Function.update_of_ne hji, hothers j hji] at hj
      obtain hj | hj := hj <;> cases hj
  · by_cases hji : j = i
    · rw [hji, Function.update_self]
      exact hdiff.2
    · rw [Function.update_of_ne hji, hothers j hji]
      nofun
  · have hi := hall i
    rw [Function.update_self] at hi
    exact absurd hi hdiff.1

theorem migrations_rotation {o : RotationOp U} (h : Migrations r stage)
    (hmay : (rotationKnowledge U).may (stage i) o)
    (hstill : ∀ presented, o = .rotateUserToken presented → e.accepted = true →
      presented.all (· == r.userHash.val) = true → ∀ j, stage j = .idle) :
    Migrations (rotationHandle S e o r).2 (Function.update stage i
      ((rotationKnowledge U).learn (stage i) o (rotationHandle S e o r).1)) := by
  cases o with
  | listOwned tokenHash =>
    obtain ⟨new, hi⟩ := hmay
    obtain ⟨hnew, hold, hothers⟩ := h.moves i tokenHash new (.inl hi)
    cases hm : r.world.task with
    | none =>
      have hlearn : (rotationKnowledge U).learn (stage i) (.listOwned tokenHash)
          (rotationHandle S e (.listOwned tokenHash) r).1 = .idle := by
        simp [hi, rotationHandle, hm, rotationKnowledge]
      rw [hlearn]
      refine migrations_idle hothers fun m hm' => ?_
      have hnone : r.world.task = some m := hm'
      rw [hm] at hnone
      cases hnone
    | some m =>
      have hlearn : (rotationKnowledge U).learn (stage i) (.listOwned tokenHash)
          (rotationHandle S e (.listOwned tokenHash) r).1 = .listed tokenHash new := by
        simp [hi, rotationHandle, hm, rotationKnowledge, hold m hm]
      rw [hlearn]
      exact migrations_moves hothers (.inr rfl) hnew hold
  | setOwner tokenHash =>
    obtain hi | ⟨old, hi⟩ := hmay
    · exact absurd hi (h.strayed i)
    · -- the task is given to the hash that this rotation has drawn, which is the user's
      obtain ⟨hnew, -, hothers⟩ := h.moves i old tokenHash (.inr hi)
      have hlearn : (rotationKnowledge U).learn (stage i) (.setOwner tokenHash)
          (rotationHandle S e (.setOwner tokenHash) r).1 = .idle := by
        rw [hi]
        rfl
      rw [hlearn]
      refine migrations_idle hothers fun m hm => ?_
      cases htask : r.world.task with
      | none => simp [rotationHandle, htask] at hm
      | some m₀ =>
        simp only [rotationHandle, htask, Option.some.injEq] at hm ⊢
        subst hm
        exact congrArg Subtype.val hnew
  | rotateUserToken presented =>
    have hi : stage i = .idle := hmay
    obtain hnothing | ⟨entry, newHash, -, -, haccepted, hpresented, hmoved⟩ :=
      rotateUserToken_cases (S := S) (r := r) (e := e) presented
    · have hlearn : (rotationKnowledge U).learn (stage i) (.rotateUserToken presented)
          (rotationHandle S e (.rotateUserToken presented) r).1 = stage i := by
        rw [hnothing, hi]
        rfl
      rw [hlearn, Function.update_eq_self, hnothing]
      exact h
    · -- no other rotation is under way, so that the task is under the hash that is rotated away
      have hidle := hstill presented rfl haccepted hpresented
      have hlearn : (rotationKnowledge U).learn (stage i) (.rotateUserToken presented)
          (rotationHandle S e (.rotateUserToken presented) r).1 =
            .moved r.userHash.val newHash := by
        rw [hmoved, hi]
        rfl
      rw [hlearn, hmoved]
      exact migrations_moves (fun j _ => hidle j) (.inl rfl) rfl (h.settled hidle)

end Migrations

/-! ### Runs -/

/-- A refund that nothing disturbs is made under the hash that the reservation is under. -/
theorem toCurrent_of_undisturbed {o : Op} {read : List String} {m : Meta}
    (hm : r.world.task = some m) (hmay : (ownersRead U).may read o) {still : Prop}
    (hsettled : still → m.ownerTokenHash = r.userHash)
    (hread : o.RefundsAsRead S still read r) : o.ToCurrent S r.userHash r.world := by
  cases o with
  | refundTempQuota hash =>
    intro hlive
    obtain ⟨hstill, howner⟩ := hread hlive hmay
    exact (howner m hm).symm.trans (hsettled hstill)
  | _ => trivial

theorem can_owners {O : Owners} {o : Op} {rs : o.Res} (hown : ∀ hash, O.mem hash → U.own hash = true)
    (h : (refundKnowledge O).can o rs) : (ownersRead U).can o rs := by
  cases o with
  | getMeta =>
    cases rs with
    | none => trivial
    | some m => exact hown _ h
  | requestCancel reason allowSubmitted time =>
    cases rs with
    | none => trivial
    | some result => exact hown _ h
  | _ => trivial

theorem keeps_realmInv :
    (realmKnowledge S U).KeepsWith (realmHandle S) (RealmInv S entry₀)
      (fun known i e o r =>
        Undisturbed S (NoRotation S fun j => (known j).1) (known i).1.1 e o r) := by
  intro i e o r known h hmay hcondition
  obtain ⟨⟨hreads, hstages⟩, hdebts⟩ := hmay
  have hstage := fun k => Function.comp_update (fun k => k.1.2) known i k
  have howed := fun k => Function.comp_update Prod.snd known i k
  cases o with
  | inr o =>
    refine ⟨⟨⟨trivial, trivial⟩, trivial⟩, entryInv_rotation h.entry, ?_, ?_⟩
    · refine h.debts.imp (fun hnone => task_none_kept (o := .inr o) hnone) fun hinv => ?_
      rw [howed]
      have hsame : Function.update (Prod.snd ∘ known) i (known i).2 = Prod.snd ∘ known :=
        Function.update_eq_self ..
      exact hsame.symm ▸ debtInv_rotation h.entry hinv
    · rw [hstage]
      refine migrations_rotation h.migrations hstages ?_
      rintro presented rfl haccepted hpresented
      exact hcondition haccepted hpresented
  | inl o =>
    obtain ⟨hfails, hread⟩ := hcondition
    have hlife : (refundKnowledge U.owners).may (known i).2 o := hdebts
    have hentry : EntryInv S entry₀ (realmHandle S e (.inl o) r).2 := by
      refine entryInv_life h.entry fun hash heq => ?_
      subst heq
      exact hlife.1
    have hmigrations := migrations_life (e := e) h.migrations hlife (i := i)
    have hsane : SaneAmong S U.owners r.userHash r.world := by
      obtain hnone | hinv := h.debts
      · exact ⟨by simp [hnone], by simp [hnone]⟩
      · exact hinv.refunds.sane
    have hcan := can_result (e := e.life) (o := o) hsane
    refine ⟨⟨⟨can_owners (fun _ => id) hcan, trivial⟩, hcan⟩, hentry, ?_, ?_⟩
    rotate_left
    · rw [hstage]
      exact hmigrations
    rw [howed]
    cases hm : r.world.task with
    | none => exact .inl (task_none_kept (o := .inl o) hm)
    | some m =>
      obtain hnone | hinv := h.debts
      · rw [hm] at hnone
        cases hnone
      · have hcurrent := toCurrent_of_undisturbed hm hreads
          (fun hstill => h.migrations.settled hstill m hm) hread
        have hrefunds := refundInv_step (e := e.life) final_ended hinv.refunds hlife hcurrent
          (doomsFinal_of_failsWithRefund hfails)
        have hdebtor := debtor_step (e := e.life) hinv r.userHash.property hlife hcurrent hfails
        exact .inr ⟨hrefunds, hdebtor⟩

theorem realmInv_start {c : RealmConfig S U} (h : PaidRealm S entry₀ c) :
    RealmInv S entry₀ c.shared fun _ => (realmKnowledge S U).start := by
  have howner : ∀ m, c.shared.world.task = some m → U.own m.ownerTokenHash = true :=
    fun m hm => (h.task m hm).1 ▸ c.shared.userHash.property
  refine ⟨⟨h.others, entry₀, h.entry, h.version, .refl entry₀, ?_⟩,
    .inr ⟨⟨⟨howner, fun m hm hlate => ?_⟩, fun i => ?_⟩, ?_⟩, ⟨?_, fun _ => nofun, ?_⟩⟩
  · rw [h.refunds, if_pos h.reserved]
  · exact absurd (h.task m hm).2.2 hlate
  · exact holds_start c.shared.userHash.property
  · rintro ⟨m, hm, hfailed⟩ -
    exact absurd hfailed (h.task m hm).2.1
  · rintro i old new (hi | hi) <;> cases hi
  · exact fun _ m hm => (h.task m hm).1

/-- A call that has ended leaves neither a debt nor a rotation. -/
theorem realmInv_end {known : Nat → (List String × Rotation U) × Known} (i : Nat)
    (h : RealmInv S entry₀ r known)
    (hended : (True ∧ (known i).1.2.Over) ∧ ¬ (known i).2.owes) :
    RealmInv S entry₀ r (Function.update known i (realmKnowledge S U).start) := by
  have hstage := Function.comp_update (fun k => k.1.2) known i (realmKnowledge S U).start
  have howed := Function.comp_update Prod.snd known i (realmKnowledge S U).start
  have hidle : (known i).1.2 = .idle :=
    hended.1.2.resolve_right (h.migrations.strayed i)
  have hsame : Function.update ((fun k => k.1.2) ∘ known) i .idle = (fun k => k.1.2) ∘ known := by
    rw [← hidle]
    exact Function.update_eq_self ..
  refine ⟨h.entry, ?_, ?_⟩
  · rw [howed]
    exact h.debts.imp_right fun hinv => debtInv_spawn i r.userHash.property hinv hended.2
  · rw [hstage]
    exact hsame.symm ▸ h.migrations

/-- Where no write fails the task without a refund to come, no rotation lies between the read of
an owner and a refund under it, and rotations do not overlap: whatever rotations there are, the
refund of a failed task follows the user. -/
theorem refund_follows_rotation (S : Setting) (U : UserHashes S.chars)
    (entry₀ : TempAccess.Entry) (labels : List (Label RealmCall RealmEnv)) (c : RealmConfig S U)
    (hpaid : PaidRealm S entry₀ c)
    (hcurrent : AllSteps ((progress S U).step (realmHandle S) (RealmCall.prog S U))
      ((progress S U).OnCurrent fun known i e o r =>
        Undisturbed S (NoRotation S known) (known i).1 e o r) labels
      ⟨c, fun _ => (progress S U).start⟩) :
    Throughout (realmStep S U) (RefundFollows S entry₀) labels c := by
  let G := realmKnowledge S U
  have hprog : ∀ call : RealmCall, G.Ensures
      (fun _ k => (True ∧ k.1.2.Over) ∧ ¬ k.2.owes) G.start (call.prog S U) :=
    fun call => ((realmCall_reads call).both (rotations_realmCall call)).both
      (ensures_realmCall call)
  let t : Tracked (RealmSig U) (Realm U) ((List String × Rotation U) × Known) :=
    ⟨c, fun _ => G.start⟩
  have hstart : G.current t = fun _ => G.start := funext fun i => current_start rfl
  have hattends : G.Attends (fun k => (True ∧ k.1.2.Over) ∧ ¬ k.2.owes) (RealmInv S entry₀) t := by
    refine ⟨fun i => ?_, hstart ▸ realmInv_start hpaid⟩
    cases hi : c.threads i with
    | ret u => exact ⟨⟨trivial, Rotation.over_idle⟩, id⟩
    | act o next =>
      have hdone := hpaid.idle i
      simp [hi, Prog.isDone] at hdone
  have hall := attends_run hprog (fun r known i h hended => realmInv_end i h hended)
    keeps_realmInv hattends (allSteps_left (t := t) hcurrent)
  refine throughout_config.mp (hall.mono fun t ht hfailed hidle => ?_)
  obtain ⟨entry, hentry, hversion, hkept, hrefunds⟩ := ht.inv.entry.entry
  obtain ⟨m, hm, hstatus⟩ := hfailed
  -- No call at work owes the refund, so the reservation is not live.
  have hclosed : TempAccess.holdsLive entry S.taskId = false := by
    rw [← reservationLive_eq hentry hversion]
    refine Bool.eq_false_iff.mpr fun hlive => ?_
    obtain hnone | hinv := ht.inv.debts
    · rw [hm] at hnone
      cases hnone
    · obtain ⟨i, howes⟩ := hinv.debtor ⟨m, hm, hstatus⟩ hlive
      cases hi : t.config.threads i with
      | act o next =>
        have hdone := hidle i
        simp [hi, Prog.isDone] at hdone
      | ret u =>
        have hended : (G.current t i).2.owes := howes
        rw [current_done hi] at hended
        exact hended
  rw [hclosed] at hrefunds
  exact ⟨hrefunds, entry, hentry, hclosed, hkept⟩

end Realm

/-! ### A rotation between the read of the owner and the refund -/

section Sample

/-- A user with the hashes of three tokens. -/
def sampleHashes : UserHashes sampleSetting.chars where
  hashToken token := token
  own hash := hash ∈ ["a", "b", "c"]
  own_normal hash hown := by
    have hcases : hash = "a" ∨ hash = "b" ∨ hash = "c" := by simpa using hown
    rcases hcases with rfl | rfl | rfl <;> decide
  own_ne_empty hash hown := by
    rintro rfl
    simp at hown

/-- The task of the user, paid for under the first hash. -/
def paidRealm : RealmConfig sampleSetting sampleHashes where
  shared := { world := (paidTask (runningSince 0)).shared, userHash := ⟨"a", by decide⟩ }
  threads _ := .ret ()

def paidEntry : TempAccess.Entry :=
  { TempAccess.sampleEntry with reservations := Dict.empty.set "t" sampleReservation }

theorem paidRealm_paid : PaidRealm sampleSetting paidEntry paidRealm where
  idle _ := rfl
  others hash hother := by
    have hne : hash.val ≠ "a" := fun heq => hother (Subtype.ext heq)
    exact Function.update_of_ne hne (some paidEntry) fun _ => none
  entry := by simp [paidRealm, paidTask, sampleTokens, paidEntry]
  version := by decide
  reserved := by decide
  refunds := rfl
  task m hm := by
    cases hm
    decide

/-- Thread `i` performs its next operations at a time; the token drawn is `token`. -/
def realmOperations (i : Nat) (now : Int) (count : Nat) (token : String) :
    List (Label RealmCall RealmEnv) :=
  List.replicate count (.act i { life := quietEnv now, token })

/-- The user refreshes the token, and hours later a query finds the task overdue. -/
def refreshThenExpiry : List (Label RealmCall RealmEnv) :=
  .spawn 0 (.refreshToken "a") :: realmOperations 0 minute 6 "b" ++
    .spawn 1 (.life .queryTask) :: realmOperations 1 (4 * hour) 12 ""

/-- A query reads the owner of the overdue task and fails it; before its refund, the user
refreshes the token. -/
def refreshDuringExpiry : List (Label RealmCall RealmEnv) :=
  .spawn 1 (.life .queryTask) :: realmOperations 1 (4 * hour) 5 "" ++
    .spawn 0 (.refreshToken "a") :: realmOperations 0 (4 * hour) 6 "b" ++
      realmOperations 1 (4 * hour) 6 ""

/-- Threads that never run rotate nothing. -/
theorem undisturbed_of_bounded {n : Nat} {labels : List (Label RealmCall RealmEnv)}
    {c : RealmConfig sampleSetting sampleHashes} (hthreads : ∀ label ∈ labels, label.thread < n)
    (h : AllSteps ((progress sampleSetting sampleHashes).step (realmHandle sampleSetting)
        (RealmCall.prog sampleSetting sampleHashes))
      ((progress sampleSetting sampleHashes).OnCurrent fun known i e o r =>
        Undisturbed sampleSetting (∀ j < n, (known j).2 = .idle) (known i).1 e o r) labels
      ⟨c, fun _ => (progress sampleSetting sampleHashes).start⟩) :
    AllSteps ((progress sampleSetting sampleHashes).step (realmHandle sampleSetting)
        (RealmCall.prog sampleSetting sampleHashes))
      ((progress sampleSetting sampleHashes).OnCurrent fun known i e o r =>
        Undisturbed sampleSetting (NoRotation sampleSetting known) (known i).1 e o r) labels
      ⟨c, fun _ => (progress sampleSetting sampleHashes).start⟩ := by
  refine allSteps_current_of_idle hthreads (fun _ _ => rfl) (fun known i e o r hrest hsome => ?_) h
  have hstill : (∀ j < n, (known j).2 = .idle) = NoRotation sampleSetting known := by
    refine propext ⟨fun hsome j => ?_, fun hall j _ => hall j⟩
    by_cases hj : j < n
    · exact hsome j hj
    · rw [hrest j (not_lt.mp hj)]
      rfl
  rwa [hstill] at hsome

theorem refresh_threads : ∀ label ∈ refreshThenExpiry, label.thread < 2 := by
  decide +kernel

theorem refund_follows_refresh : Throughout (realmStep sampleSetting sampleHashes)
    (RefundFollows sampleSetting paidEntry) refreshThenExpiry paidRealm :=
  refund_follows_rotation sampleSetting sampleHashes paidEntry refreshThenExpiry paidRealm
    paidRealm_paid (undisturbed_of_bounded refresh_threads (by decide +kernel))

/-- The refund is made under the hash that the query has read, and finds no entry. -/
theorem refund_lost_in_refresh : PaidRealm sampleSetting paidEntry paidRealm ∧
    ¬ Throughout (realmStep sampleSetting sampleHashes) (RefundFollows sampleSetting paidEntry)
      refreshDuringExpiry paidRealm := by
  refine ⟨paidRealm_paid, fun h => ?_⟩
  have hfailed : (run (realmStep sampleSetting sampleHashes) refreshDuringExpiry
      paidRealm).shared.world.task.map Meta.status = some .failed := by
    decide +kernel
  have hidle : ∀ i, ((run (realmStep sampleSetting sampleHashes) refreshDuringExpiry
      paidRealm).threads i).isDone = true := by
    intro i
    match i with
    | 0 => decide +kernel
    | 1 => decide +kernel
    | i + 2 =>
      -- The other threads have never started.
      have hlabels : ∀ label ∈ refreshDuringExpiry, label.thread < 2 := by
        decide +kernel
      have hother : ∀ label ∈ refreshDuringExpiry, i + 2 ≠ label.thread := by
        intro label hlabel heq
        have hthread := hlabels label hlabel
        omega
      rw [realmStep, run_threads hother]
      rfl
  obtain ⟨hrefunds, -⟩ := h.final (by simpa using hfailed) hidle
  revert hrefunds
  decide +kernel

end Sample

end FetchTask.Lifecycle
