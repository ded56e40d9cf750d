import FetchTask.Lib.Both
import FetchTask.Lib.Sum
import FetchTask.Lifecycle.Discipline

/-!
The rotation of a token beside the calls on a task.

A rotation moves the entry of the user to a new hash; after that the tasks of the
old hash are listed and moved one by one (`migrate_task_owner`). What a call has
read of the owner of the task is followed, and how far each rotation has come.
-/

namespace FetchTask.Lifecycle

open Store Runs Knowledge

/-! ### The calls -/

/-- `hash_token`, and the hashes of the tokens that this user has or may draw. -/
structure UserHashes (chars : Chars) where
  hashToken : String → String
  own : String → Bool
  own_normal : ∀ hash, own hash = true → TempAccess.normalizeHash chars hash = hash
  own_ne_empty : ∀ hash, own hash = true → hash ≠ ""

/-- A hash of this user. -/
abbrev UserHashes.Hash {chars : Chars} (U : UserHashes chars) : Type :=
  {hash : String // U.own hash = true}

/-- The owners that the task can have. -/
def UserHashes.owners {chars : Chars} (U : UserHashes chars) : Owners where
  mem hash := U.own hash = true
  paid := True
  paid_iff hash hown := iff_of_true (U.own_ne_empty hash hown) trivial

/-- The state of the calls on the task, the hash in the user's record, and how often a refund
of the task has been made. -/
structure Realm {chars : Chars} (U : UserHashes chars) where
  world : World
  userHash : U.Hash
  refunds : Nat := 0

/-- What the surroundings contribute: the first drawn token whose hash is not in use, and whether
the request passes the checks on the user and the password. -/
structure RealmEnv where
  life : Env
  token : String := ""
  accepted : Bool := true

inductive RotationOp {chars : Chars} (U : UserHashes chars)
  /-- The closure on the locked record of the user, with the hash that the request presents. -/
  | rotateUserToken (presented : Option String)
  /-- The rows of this owner. -/
  | listOwned (tokenHash : String)
  | setOwner (tokenHash : U.Hash)

/-- A rotation gives the old and the new hash. -/
abbrev RotationOp.Res {chars : Chars} {U : UserHashes chars} : RotationOp U → Type
  | .rotateUserToken _ => Option (String × U.Hash)
  | .listOwned _ => Option Meta
  | .setOwner _ => Bool

abbrev RotationSig {chars : Chars} (U : UserHashes chars) : Sig := ⟨RotationOp U, RotationOp.Res⟩

abbrev RealmSig {chars : Chars} (U : UserHashes chars) : Sig := LifeSig.sum (RotationSig U)

/-- Whether an operation has made a refund. -/
def Op.refunded : (o : Op) → o.Res → Bool
  | .refundTempQuota _, refunded => refunded
  | _, _ => false

section Handler

variable (S : Setting) {U : UserHashes S.chars}

def rotationHandle (e : RealmEnv) : (o : RotationOp U) → Realm U → o.Res × Realm U
  | .rotateUserToken presented, r =>
    match r.world.tokens r.userHash with
    | none => (none, r)
    | some entry =>
      if h : U.own (U.hashToken e.token) = true then
        let newHash : U.Hash := ⟨U.hashToken e.token, h⟩
        if e.accepted ∧ presented.all (· == r.userHash.val) ∧ r.world.tokens newHash = none then
          let replacement := { entry with token := e.token, updatedAt := e.life.stamp }
          let tokens := Function.update
            (Function.update r.world.tokens newHash (some replacement)) r.userHash none
          (some (r.userHash.val, newHash),
            { r with world := { r.world with tokens }, userHash := newHash })
        else (none, r)
      else (none, r)
  | .listOwned tokenHash, r => (r.world.task.filter (·.ownerTokenHash == tokenHash), r)
  | .setOwner tokenHash, r =>
    match r.world.task with
    | none => (false, r)
    | some m =>
      let moved := (Store.updateMeta e.life.now
        (fun m => { m with ownerTokenHash := tokenHash.val }) m).2
      (true, { r with world := { r.world with task := some moved } })

def realmHandle (e : RealmEnv) : (o : (RealmSig U).Op) → Realm U → (RealmSig U).Res o × Realm U
  | .inl o, r =>
    let result := handle S e.life o r.world
    (result.1, { r with world := result.2, refunds := r.refunds + (o.refunded result.1).toNat })
  | .inr o, r => rotationHandle S e o r

end Handler

section Calls

variable {chars : Chars} {U : UserHashes chars}

def lifeOp (o : Op) : Prog (RealmSig U) o.Res := @Prog.perform (RealmSig U) (.inl o)

def rotationOp (o : RotationOp U) : Prog (RealmSig U) o.Res := @Prog.perform (RealmSig U) (.inr o)

/-- `migrate_task_owner`, on this task: `list_tasks` fails overdue tasks as it lists them. -/
def migrateTaskOwner (oldTokenHash : String) (newTokenHash : U.Hash) : Prog (RealmSig U) Unit :=
  rotationOp (.listOwned oldTokenHash) >>= fun row =>
  match row with
  | none => pure ()
  | some m =>
    lifeOp .now >>= fun now =>
    if m.isTaskExpired now then
      Prog.inl expireTaskIfTimeout.run >>= fun expired =>
      match expired with
      | .error _ => pure ()
      | .ok _ =>
        lifeOp .getMeta >>= fun current =>
        if current.any (·.ownerTokenHash == oldTokenHash) then
          rotationOp (.setOwner newTokenHash) >>= fun _ => pure ()
        else pure ()
    else rotationOp (.setOwner newTokenHash) >>= fun _ => pure ()

/-- The three requests that rotate the token. -/
def rotateToken (presented : Option String) : Prog (RealmSig U) Unit :=
  rotationOp (.rotateUserToken presented) >>= fun rotated =>
  match rotated with
  | none => pure ()
  | some (oldTokenHash, newTokenHash) => migrateTaskOwner oldTokenHash newTokenHash

end Calls

inductive RealmCall
  | life (call : Call)
  | refreshToken (tokenHash : String)
  | changePassword (tokenHash : String)
  | resetPassword

section Programs

variable (S : Setting) (U : UserHashes S.chars)

def RealmCall.prog : RealmCall → Prog (RealmSig U) Unit
  | .life call => (call.prog S).inl
  | .refreshToken tokenHash | .changePassword tokenHash => rotateToken (some tokenHash)
  | .resetPassword => rotateToken none

abbrev RealmConfig := Config (RealmSig U) (Realm U)

def realmStep : Label RealmCall RealmEnv → RealmConfig S U → RealmConfig S U :=
  Config.step (realmHandle S) (RealmCall.prog S U)

end Programs

/-! ### What the calls have read -/

section Reads

variable {chars : Chars} (U : UserHashes chars)

/-- The owners of the task that a call has read; it refunds under one of these. -/
def ownersRead : Knowledge LifeSig (List String) where
  start := []
  may
    | read, .refundTempQuota hash => hash ∈ read
    | _, _ => True
  can
    | .getMeta, some m => U.own m.ownerTokenHash = true
    | .requestCancel .., some (_, m) => U.own m.ownerTokenHash = true
    | _, _ => True
  learn
    | read, .getMeta, some m => m.ownerTokenHash :: read
    | read, .requestCancel .., some (_, m) => m.ownerTokenHash :: read
    | read, _, _ => read

/-- The owners among these hashes that are the user's. -/
def UserHashes.among (hashes : List String) : Owners where
  mem hash := U.own hash = true ∧ hash ∈ hashes
  paid := True
  paid_iff hash hown := iff_of_true (U.own_ne_empty hash hown.1) trivial

/-- What the calls of both kinds know of refunds: a rotation teaches nothing. -/
abbrev debtKnowledge (O : Owners) : Knowledge (RealmSig U) Known :=
  (refundKnowledge O).sumLeft fun _ => True

abbrev realmReads : Knowledge (RealmSig U) (List String) := (ownersRead U).sumLeft fun _ => True

variable {U}

theorem subset_learn {read : List String} {o : Op} {r : o.Res} :
    read ⊆ (ownersRead U).learn read o r := by
  cases o with
  | getMeta =>
    cases r with
    | none => exact List.Subset.refl read
    | some m => exact List.subset_cons_self ..
  | requestCancel reason allowSubmitted time =>
    cases r with
    | none => exact List.Subset.refl read
    | some result => exact List.subset_cons_self ..
  | _ => exact List.Subset.refl read

/-- A result is one that can come, if the owner that it tells counts as one. -/
theorem can_among {hashes read : List String} {o : Op} {r : o.Res}
    (hr : (ownersRead U).can o r) (hlearn : (ownersRead U).learn read o r ⊆ hashes) :
    (refundKnowledge (U.among hashes)).can o r := by
  cases o with
  | getMeta =>
    cases r with
    | none => trivial
    | some m => exact ⟨hr, hlearn List.mem_cons_self⟩
  | requestCancel reason allowSubmitted time =>
    cases r with
    | none => trivial
    | some result => exact ⟨hr, hlearn List.mem_cons_self⟩
  | _ => trivial

/-- A call that refunds under owners only, whichever the owners are, refunds under what it has
read: those may be all. -/
theorem ensures_reads {α : Type} {Q : α → Known → Prop} {k : Known} {read : List String}
    {p : Prog (RealmSig U) α}
    (h : ∀ hashes, read ⊆ hashes → (debtKnowledge U (U.among hashes)).Ensures Q k p) :
    (realmReads U).Ensures (fun _ _ => True) read p := by
  induction p generalizing k read with
  | ret a => trivial
  | act o c ih =>
    cases o with
    | inr o =>
      refine ⟨trivial, fun r _ => ih r (k := k) fun hashes hread => ?_⟩
      exact (h hashes hread).2 r trivial
    | inl o =>
      refine ⟨?_, fun r hr => ?_⟩
      · have hmay := (h read (List.Subset.refl read)).1
        cases o with
        | refundTempQuota hash => exact hmay.1.2
        | _ => trivial
      · -- What is learnt of refunds does not depend on who the owners are.
        refine ih r (k := (refundKnowledge (U.among read)).learn k o r) fun hashes hlearn => ?_
        exact (h hashes (List.Subset.trans (subset_learn (U := U)) hlearn)).2 r (can_among hr hlearn)

end Reads

/-! ### How far a rotation has come -/

/-- The entry has moved to the new hash; the task of the old one has been listed. A task that was
listed and then had another owner is `strayed`. -/
inductive Rotation {chars : Chars} (U : UserHashes chars)
  | idle
  | moved (old : String) (new : U.Hash)
  | listed (old : String) (new : U.Hash)
  | strayed
  deriving DecidableEq

/-- A result that tells that the task is gone. -/
def Op.gone : (o : Op) → o.Res → Bool
  | .getMeta, none | .write .., none | .markTempQuotaRefunded, false => true
  | _, _ => false

section Rotations

variable {chars : Chars} (U : UserHashes chars)

def listedKnowledge : Knowledge LifeSig (Rotation U) where
  start := .idle
  may _ _ := True
  can _ _ := True
  learn
    | .listed old new, .getMeta, some m =>
      if m.ownerTokenHash = old then .listed old new else .strayed
    | .listed old new, o, r => if o.gone r then .idle else .listed old new
    | k, _, _ => k

def rotationKnowledge : Knowledge (RotationSig U) (Rotation U) where
  start := .idle
  may
    | k, .rotateUserToken _ => k = .idle
    | k, .listOwned tokenHash => ∃ newHash, k = .moved tokenHash newHash
    | k, .setOwner tokenHash => k = .strayed ∨ ∃ old, k = .listed old tokenHash
  can _ _ := True
  learn
    | .idle, .rotateUserToken _, some (old, new) => .moved old new
    | .moved old new, .listOwned _, row => if row.isSome then .listed old new else .idle
    | .listed .., .setOwner _, _ => .idle
    | k, _, _ => k

abbrev rotations : Knowledge (RealmSig U) (Rotation U) :=
  (listedKnowledge U).sum (rotationKnowledge U)

variable {U}

/-- The rotation is over, or the task has strayed. -/
def Rotation.Over (k : Rotation U) : Prop := k = .idle ∨ k = .strayed

/-- The rotation goes on, or the task has strayed. -/
def Rotation.Goes (old : String) (new : U.Hash) (k : Rotation U) : Prop :=
  k = .listed old new ∨ k = .strayed

theorem Rotation.over_idle : (.idle : Rotation U).Over := .inl rfl

theorem Rotation.over_strayed : (.strayed : Rotation U).Over := .inr rfl

theorem Rotation.goes_listed (old : String) (new : U.Hash) :
    (.listed old new : Rotation U).Goes old new :=
  .inl rfl

theorem Rotation.goes_strayed {old : String} {new : U.Hash} :
    (.strayed : Rotation U).Goes old new :=
  .inr rfl

/-- The program goes on with a rotation; where it ends with an exception, the task is gone. -/
def Heeds {α : Type} (old : String) (new : U.Hash) (p : Run α) : Prop :=
  ∀ k : Rotation U, k.Goes old new →
    (listedKnowledge U).Does (fun _ => Rotation.Goes old new) (fun _ => Rotation.Over) k p

section Heeds

variable {α β : Type} {old : String} {new : U.Hash}

theorem heeds_pure (a : α) : Heeds old new (pure a) := fun _ hk => hk

theorem Heeds.bind {p : Run α} {f : α → Run β} (hp : Heeds old new p)
    (hf : ∀ a, Heeds old new (f a)) : Heeds old new (p >>= f) :=
  fun k hk => Does.bind (hp k hk) fun a k' hk' => hf a k' hk'

theorem heeds_when {c : Prop} [Decidable c] {action : Run Unit} (h : Heeds old new action) :
    Heeds old new (when c action) := by
  unfold when
  split
  · exact h
  · exact heeds_pure ()

/-- An operation after whose result the program goes on, or throws as the task is gone. -/
theorem heeds_op_bind {o : Op} {g : o.Res → Run α} (hmeta : o ≠ .getMeta)
    (hg : ∀ r, (o.gone r = false ∧ ∃ a, g r = pure a) ∨
      (o.gone r = true ∧ ∃ fault, g r = throw fault)) :
    Heeds old new (op o >>= g) := by
  intro k hk
  refine ⟨trivial, fun r _ => ?_⟩
  have hlearn : (listedKnowledge U).learn (.listed old new) o r =
      if o.gone r then .idle else .listed old new := by
    cases o with
    | getMeta => exact absurd rfl hmeta
    | _ => rfl
  show (listedKnowledge U).Does _ _ ((listedKnowledge U).learn k o r) (g r)
  obtain ⟨hhere, a, hr⟩ | ⟨hgone, fault, hr⟩ := hg r
  · rw [hr]
    obtain rfl | rfl := hk
    · rw [hlearn, if_neg (Bool.eq_false_iff.mp hhere)]
      exact Rotation.goes_listed old new
    · exact Rotation.goes_strayed
  · rw [hr]
    obtain rfl | rfl := hk
    · rw [hlearn, if_pos hgone]
      exact Rotation.over_idle
    · exact Rotation.over_strayed

/-- An operation that cannot tell that the task is gone. -/
theorem heeds_op {o : Op} (hmeta : o ≠ .getMeta) (hhere : ∀ r, o.gone r = false) :
    Heeds old new (op o) :=
  heeds_op_bind (g := pure) hmeta fun r => .inl ⟨hhere r, r, rfl⟩

theorem heeds_getMeta : Heeds old new getMeta := by
  rintro k (rfl | rfl)
  · refine ⟨trivial, fun r _ => ?_⟩
    cases r with
    | none => exact Rotation.over_idle
    | some m =>
      show Rotation.Goes old new (if m.ownerTokenHash = old then .listed old new else .strayed)
      split
      · exact Rotation.goes_listed old new
      · exact Rotation.goes_strayed
  · refine ⟨trivial, fun r _ => ?_⟩
    cases r with
    | none => exact Rotation.over_strayed
    | some m => exact Rotation.goes_strayed

theorem heeds_markFailed {site : Site} {reason : String} :
    Heeds old new (markFailed site reason) := by
  refine Heeds.bind ?_ fun _ => heeds_pure ()
  refine (heeds_op (o := .now) nofun fun _ => rfl).bind fun now => ?_
  refine heeds_op_bind nofun fun r => ?_
  cases r with
  | none => exact .inr ⟨rfl, .fileNotFound, rfl⟩
  | some count => exact .inl ⟨rfl, count, rfl⟩

theorem heeds_refundTempQuotaOnce (hash : String) :
    Heeds old new (refundTempQuotaOnce hash) := by
  refine heeds_when ?_
  refine (heeds_op (o := .refundTempQuota hash) nofun fun _ => rfl).bind fun refunded =>
    heeds_when ?_
  refine heeds_op_bind nofun fun r => ?_
  cases r with
  | false => exact .inr ⟨rfl, .fileNotFound, rfl⟩
  | true => exact .inl ⟨rfl, (), rfl⟩

theorem heeds_expireTaskIfTimeout : Heeds old new expireTaskIfTimeout := by
  refine heeds_getMeta.bind fun m => ?_
  refine (heeds_op (o := .now) nofun fun _ => rfl).bind fun now => ?_
  split
  · exact heeds_pure false
  refine (heeds_op (o := .loadResult) nofun fun _ => rfl).bind fun result => ?_
  split
  · exact heeds_pure false
  refine Heeds.bind (heeds_when ?_) fun _ => ?_
  · exact (heeds_op (o := .exhaustTimedOutAccount ..) nofun fun _ => rfl).bind fun _ =>
      heeds_op (o := .clearAccount _) nofun fun _ => rfl
  · exact heeds_markFailed.bind fun _ =>
      (heeds_refundTempQuotaOnce _).bind fun _ => heeds_pure true

end Heeds

end Rotations

/-! ### The calls keep to what they know -/

section Calls

variable {S : Setting} {U : UserHashes S.chars} {O : Owners} {k : Known}

theorem ensures_rotationOp {α : Type} {o : RotationOp U} {f : o.Res → Prog (RealmSig U) α}
    {Q : α → Known → Prop} (hf : ∀ r, (debtKnowledge U O).Ensures Q k (f r)) :
    (debtKnowledge U O).Ensures Q k (rotationOp o >>= f) :=
  ⟨trivial, fun r _ => hf r⟩

theorem ensures_lifeOp {α : Type} {o : Op} {f : o.Res → Prog (RealmSig U) α}
    {Q : α → Known → Prop} (hmay : (refundKnowledge O).may k o)
    (hf : ∀ r, (debtKnowledge U O).Ensures Q ((refundKnowledge O).learn k o r) (f r)) :
    (debtKnowledge U O).Ensures Q k (lifeOp o >>= f) :=
  ⟨hmay, fun r _ => hf r⟩

theorem ensures_migrateTaskOwner (oldTokenHash : String) (newTokenHash : U.Hash)
    (hdebt : ¬ k.owes) :
    (debtKnowledge U O).Ensures (fun _ k => ¬ k.owes) k
      (migrateTaskOwner oldTokenHash newTokenHash) := by
  have hmove : ∀ k : Known, ¬ k.owes → (debtKnowledge U O).Ensures (fun _ k => ¬ k.owes) k
      (rotationOp (.setOwner newTokenHash) >>= fun _ => pure () : Prog (RealmSig U) Unit) :=
    fun k hk => ensures_rotationOp fun _ => hk
  refine ensures_rotationOp fun row => ?_
  cases row with
  | none => exact hdebt
  | some m =>
    refine ensures_lifeOp trivial fun now => ?_
    split
    · have hexpire := (lawful_expireTaskIfTimeout (O := O) (k := k)).does (.refl k) hdebt
      refine Ensures.bind (Ensures.inl hexpire) fun expired k' hk' => ?_
      cases expired with
      | error fault => exact hk'.2
      | ok expired =>
        refine ensures_lifeOp trivial fun current => ?_
        have hread : ¬ ((refundKnowledge O).learn k' .getMeta current).owes := by
          cases current with
          | none => exact id
          | some m => exact hk'.2
        split
        · exact hmove _ hread
        · exact hread
    · exact hmove k hdebt

theorem ensures_rotateToken (presented : Option String) (hdebt : ¬ k.owes) :
    (debtKnowledge U O).Ensures (fun _ k => ¬ k.owes) k (rotateToken presented) := by
  refine ensures_rotationOp fun rotated => ?_
  cases rotated with
  | none => exact hdebt
  | some hashes => exact ensures_migrateTaskOwner hashes.1 hashes.2 hdebt

theorem ensures_realmCall (call : RealmCall) :
    (debtKnowledge U O).Ensures (fun _ k => ¬ k.owes) (refundKnowledge O).start
      (call.prog S U) := by
  cases call with
  | life call => exact Ensures.inl (ensures_prog call)
  | refreshToken tokenHash => exact ensures_rotateToken _ id
  | changePassword tokenHash => exact ensures_rotateToken _ id
  | resetPassword => exact ensures_rotateToken _ id

theorem realmCall_reads (call : RealmCall) :
    (realmReads U).Ensures (fun _ _ => True) [] (call.prog S U) :=
  ensures_reads (k := ⟨False, ¬ True, False⟩) fun hashes _ =>
    ensures_realmCall (O := U.among hashes) call

/-- The owner is set by the rotation that has listed the task. -/
theorem rotations_setOwner {old : String} {new : U.Hash} {k : Rotation U}
    (hk : k.Goes old new) :
    (rotations U).Ensures (fun _ => Rotation.Over) k
      (rotationOp (.setOwner new) >>= fun _ => pure () : Prog (RealmSig U) Unit) := by
  obtain rfl | rfl := hk
  · exact ⟨.inr ⟨old, rfl⟩, fun _ _ => Rotation.over_idle⟩
  · exact ⟨.inl rfl, fun _ _ => Rotation.over_strayed⟩

theorem rotations_migrateTaskOwner (old : String) (new : U.Hash) :
    (rotations U).Ensures (fun _ => Rotation.Over) (.moved old new)
      (migrateTaskOwner old new) := by
  refine ⟨⟨new, rfl⟩, fun row _ => ?_⟩
  cases row with
  | none => exact Rotation.over_idle
  | some m =>
    refine ⟨trivial, fun now _ => ?_⟩
    show (rotations U).Ensures (fun _ => Rotation.Over) (.listed old new) (ite _ _ _)
    split
    · have hexpire := heeds_expireTaskIfTimeout _ (Rotation.goes_listed old new)
      refine Ensures.bind (Ensures.inl hexpire) fun expired k hk => ?_
      cases expired with
      | error fault => exact hk
      | ok expired =>
        refine ⟨trivial, fun current _ => ?_⟩
        have hread : (current.any (·.ownerTokenHash == old) = true →
              ((rotations U).learn k (.inl .getMeta) current).Goes old new) ∧
            (current.any (·.ownerTokenHash == old) ≠ true →
              ((rotations U).learn k (.inl .getMeta) current).Over) := by
          obtain rfl | rfl := hk
          · cases current with
            | none => exact ⟨nofun, fun _ => Rotation.over_idle⟩
            | some m =>
              exact ⟨fun hm => .inl (if_pos (by simpa using hm)),
                fun hm => .inr (if_neg (by simpa using hm))⟩
          · cases current with
            | none => exact ⟨nofun, fun _ => Rotation.over_strayed⟩
            | some m => exact ⟨fun _ => Rotation.goes_strayed, fun _ => Rotation.over_strayed⟩
        show (rotations U).Ensures (fun _ => Rotation.Over) _
          (if current.any (·.ownerTokenHash == old) then _ else _)
        split
        · rename_i hm
          exact rotations_setOwner (hread.1 hm)
        · rename_i hm
          exact hread.2 hm
    · exact rotations_setOwner (Rotation.goes_listed old new)

theorem rotations_rotateToken (presented : Option String) :
    (rotations U).Ensures (fun _ => Rotation.Over) .idle (rotateToken presented) := by
  refine ⟨rfl, fun rotated _ => ?_⟩
  cases rotated with
  | none => exact Rotation.over_idle
  | some hashes => exact rotations_migrateTaskOwner hashes.1 hashes.2

theorem rotations_realmCall (call : RealmCall) :
    (rotations U).Ensures (fun _ => Rotation.Over) .idle (call.prog S U) := by
  cases call with
  | life call =>
    have hstill := ensures_of_neutral (G := listedKnowledge U) (k := .idle)
      (fun o => ⟨trivial, fun _ _ => rfl⟩) (call.prog S)
    exact Ensures.inl (hstill.mono fun _ _ => .inl)
  | refreshToken tokenHash => exact rotations_rotateToken _
  | changePassword tokenHash => exact rotations_rotateToken _
  | resetPassword => exact rotations_rotateToken _

end Calls

end FetchTask.Lifecycle
