import FetchTask.Queue.Claims
import FetchTask.Store.Endings

/-!
The running limit of an owner.

A session that has passed the count of `claim_task` holds the advisory lock of the
owner, and nobody else can add a running task of the owner until it has committed.
So the count that it took is still a bound when its write takes effect, and the
transaction does what the one step of the other modules does.
-/

namespace FetchTask.Queue.Claims

open Runs Store

/-! ### Counting -/

def isActive (owner : String) (m : Meta) : Bool := m.ownerTokenHash == owner && m.status == .running

theorem ownerActive_eq_total (rows : Dict TaskId Meta) (owner : String) :
    ownerActive rows owner = rows.total fun m => if isActive owner m then (1 : Int) else 0 := by
  show ((rows.items.countP fun e => isActive owner e.2 : Nat) : Int) =
    (rows.items.map fun e => if isActive owner e.2 then (1 : Int) else 0).sum
  induction rows.items with
  | nil => rfl
  | cons e items ih =>
    rw [List.countP_cons, List.map_cons, List.sum_cons, ← ih]
    split <;> omega

/-- How much a row counts. -/
def activeAt (rows : Dict TaskId Meta) (owner : String) (t : TaskId) : Int :=
  (rows.get? t).elim 0 fun m => if isActive owner m then 1 else 0

theorem ownerActive_set (rows : Dict TaskId Meta) (owner : String) (t : TaskId) (m : Meta) :
    ownerActive (rows.set t m) owner + activeAt rows owner t =
      ownerActive rows owner + if isActive owner m then 1 else 0 := by
  rw [ownerActive_eq_total, ownerActive_eq_total]
  exact Dict.total_set _ rows t m

theorem ownerActive_erase_le (rows : Dict TaskId Meta) (owner : String) (t : TaskId) :
    ownerActive (rows.erase t) owner ≤ ownerActive rows owner := by
  have hle := (List.filter_sublist (p := fun e : TaskId × Meta => decide (e.1 ≠ t))
    (l := rows.items)).countP_le
      (p := fun e => e.2.ownerTokenHash == owner && e.2.status == .running)
  exact Int.ofNat_le.mpr hle

theorem activeAt_nonneg (rows : Dict TaskId Meta) (owner : String) (t : TaskId) :
    0 ≤ activeAt rows owner t := by
  unfold activeAt
  cases rows.get? t with
  | none => exact Int.le_refl 0
  | some m =>
    show 0 ≤ if isActive owner m then 1 else 0
    split <;> decide

/-! ### No other transaction starts a run -/

/-- The owner is the same, and the task does not become running. -/
structure StaysOut (m m' : Meta) : Prop where
  owner : m'.ownerTokenHash = m.ownerTokenHash
  running : m'.status = .running → m.status = .running

theorem runningAs_eq_none {m : Meta} : runningAs m = none ↔ m.status ≠ .running := by
  simp [runningAs]

theorem mutate_staysOut (u : Chars) (o : { o : StoreOp // isMarkRunning o = false }) (m : Meta) :
    StaysOut m (o.1.apply u m) := by
  refine ⟨(storeOp_sameOwner o.1 m).ownerTokenHash, fun hrunning => ?_⟩
  by_contra hm
  have hstarts : o.1.startsRun m = none := by
    obtain ⟨o, ho⟩ := o
    cases o with
    | markRunning => cases ho
    | _ => rfl
  have hruns := storeOp_runningAs (u := u) o.1 m
  rw [if_neg hm, hstarts, runningAs_eq_none] at hruns
  exact hruns hrunning

/-- Tasks keep their owners; `ownerOf` names them. -/
def RowOp.Keeps (ownerOf : TaskId → String) (t : TaskId) : RowOp → Prop
  | .create task => task.record.ownerTokenHash = ownerOf t
  | _ => True

theorem after_staysOut (u : Chars) {ownerOf : TaskId → String} {t : TaskId} {op : RowOp}
    (hop : op.Keeps ownerOf t) {row : Option Meta}
    (hrow : ∀ m, row = some m → m.ownerTokenHash = ownerOf t) (m' : Meta)
    (h : op.after u row = some m') :
    m'.ownerTokenHash = ownerOf t ∧
      (m'.status = .running → ∃ m, row = some m ∧ m.status = .running) := by
  cases op with
  | create task =>
    cases row with
    | none =>
      obtain rfl := Option.some.inj h
      refine ⟨hop, fun hrunning => ?_⟩
      rcases task.fresh with hfresh | hfresh <;> cases hrunning.symm.trans hfresh
    | some m =>
      obtain rfl : m = m' := Option.some.inj h
      exact ⟨hrow m rfl, fun hrunning => ⟨m, rfl, hrunning⟩⟩
  | mutate o =>
    obtain ⟨m, rfl, rfl⟩ := Option.map_eq_some_iff.mp h
    have hstays := mutate_staysOut u o m
    exact ⟨hstays.owner.trans (hrow m rfl), fun hrunning => ⟨m, rfl, hstays.running hrunning⟩⟩
  | update f =>
    obtain ⟨m, rfl, rfl⟩ := Option.map_eq_some_iff.mp h
    exact ⟨(f.owner m).trans (hrow m rfl), fun hrunning => ⟨m, rfl, (f.status m) ▸ hrunning⟩⟩
  | delete => cases h

/-! ### What a session may count on -/

section Invariant

variable (ownerOf : TaskId → String) (owner : String) (limit : Int)

/-- A claim knows the owner of its task, and passes the limit of the owner. -/
structure Knows (c : Claim) (o : String) (l : Option Int) : Prop where
  named : o = ownerOf c.task
  limited : o = owner → l = some limit

/-- The row of a claim is locked and pending. -/
structure HoldsRow (db : Database) (p : Nat) (t : TaskId) (m : Meta) : Prop where
  locked : db.rowLocks t = some p
  row : db.rows.get? t = some m
  pending : m.status = .pending ∧ m.cancelRequested = false

def Holds (db : Database) (p : Nat) : Session → Prop
  | .idle => True
  | .readOwner c => ownerOf c.task = owner → c.limits owner = some limit
  | .lockOwner c o l => Knows ownerOf owner limit c o l
  | .selectRow c o l => Knows ownerOf owner limit c o l ∧ (o = owner → db.owners owner = some p)
  | .countRunning c o l m => Knows ownerOf owner limit c o l ∧
      (o = owner → db.owners owner = some p) ∧ HoldsRow db p c.task m
  | .updateRow c o l m => Knows ownerOf owner limit c o l ∧
      (o = owner → db.owners owner = some p ∧ ownerActive db.rows owner < max 1 limit) ∧
      HoldsRow db p c.task m
  | .takeRow t op => op.Keeps ownerOf t
  | .readInitializing _ _ => True
  | .writeFinalized t _ m => m.ownerTokenHash = ownerOf t
  | .commit t row true => ∃ worker now m, HoldsRow db p t m ∧
      row = some (claimTask worker false now m).2 ∧
      (ownerOf t = owner → db.owners owner = some p ∧ ownerActive db.rows owner < max 1 limit)
  | .commit t row false => db.rowLocks t = some p ∧ ∀ m', row = some m' →
      m'.ownerTokenHash = ownerOf t ∧
      (m'.status = .running → ∃ m, db.rows.get? t = some m ∧ m.status = .running)

structure Inv (db : Database) : Prop where
  owned : ∀ t m, db.rows.get? t = some m → m.ownerTokenHash = ownerOf t
  within : ownerActive db.rows owner ≤ max 1 limit
  sessions : ∀ p, Holds ownerOf owner limit db p (db.sessions p)

/-- What another session's statement leaves to session `q`. -/
structure Frame (q : Nat) (db db' : Database) : Prop where
  owners : db.owners owner = some q → db'.owners owner = some q
  rowLocks : ∀ t, db.rowLocks t = some q → db'.rowLocks t = some q
  rows : ∀ t, db.rowLocks t = some q → db'.rows.get? t = db.rows.get? t
  active : db.owners owner = some q → ownerActive db'.rows owner ≤ ownerActive db.rows owner

end Invariant

variable {ownerOf : TaskId → String} {owner : String} {limit : Int} {db db' : Database} {p q : Nat}

theorem HoldsRow.frame {t : TaskId} {m : Meta} (hf : Frame owner q db db') (h : HoldsRow db q t m) :
    HoldsRow db' q t m :=
  ⟨hf.rowLocks t h.locked, (hf.rows t h.locked).trans h.row, h.pending⟩

/-- What a session counts on survives the statements of the others. -/
theorem Holds.frame (hf : Frame owner q db db') {s : Session} (h : Holds ownerOf owner limit db q s) :
    Holds ownerOf owner limit db' q s := by
  have hbelow : db.owners owner = some q ∧ ownerActive db.rows owner < max 1 limit →
      db'.owners owner = some q ∧ ownerActive db'.rows owner < max 1 limit := fun ⟨hlock, hlt⟩ =>
    ⟨hf.owners hlock, lt_of_le_of_lt (hf.active hlock) hlt⟩
  cases s with
  | idle => trivial
  | readOwner c => exact h
  | lockOwner c o l => exact h
  | selectRow c o l =>
    obtain ⟨hknows, hlock⟩ := h
    exact ⟨hknows, fun ho => hf.owners (hlock ho)⟩
  | countRunning c o l m =>
    obtain ⟨hknows, hlock, hrow⟩ := h
    exact ⟨hknows, fun ho => hf.owners (hlock ho), hrow.frame hf⟩
  | updateRow c o l m =>
    obtain ⟨hknows, hpassed, hrow⟩ := h
    exact ⟨hknows, fun ho => hbelow (hpassed ho), hrow.frame hf⟩
  | takeRow t op => exact h
  | readInitializing t now => trivial
  | writeFinalized t now m => exact h
  | commit t row claim =>
    cases claim with
    | true =>
      obtain ⟨worker, now, m, hrow, hwrite, hpassed⟩ := h
      exact ⟨worker, now, m, hrow.frame hf, hwrite, fun ho => hbelow (hpassed ho)⟩
    | false =>
      obtain ⟨hlock, hwrite⟩ := h
      refine ⟨hf.rowLocks t hlock, fun m' hm' => ?_⟩
      rw [hf.rows t hlock]
      exact hwrite m' hm'

/-! ### What a statement does -/

theorem get?_setRow_of_ne {t t' : TaskId} (row : Option Meta) (h : t' ≠ t) :
    (db.setRow t row).rows.get? t' = db.rows.get? t' := by
  cases row with
  | none => exact (Dict.get?_erase ..).trans (if_neg h)
  | some m => exact Dict.get?_set_of_ne _ _ h.symm

@[simp] theorem get?_setRow_self (t : TaskId) (row : Option Meta) :
    (db.setRow t row).rows.get? t = row := by
  cases row with
  | none => exact (Dict.get?_erase ..).trans (if_pos rfl)
  | some m => exact Dict.get?_set_self ..

/-- A written row counts for one at most. -/
theorem ownerActive_setRow_le_add_one (owner : String) (t : TaskId) (row : Option Meta) :
    ownerActive (db.setRow t row).rows owner ≤ ownerActive db.rows owner + 1 := by
  cases row with
  | none =>
    have hle := ownerActive_erase_le db.rows owner t
    exact hle.trans (by omega)
  | some m =>
    have hset := ownerActive_set db.rows owner t m
    have hnonneg := activeAt_nonneg db.rows owner t
    show ownerActive (db.rows.set t m) owner ≤ _
    split at hset <;> omega

/-- A row counts for nothing that is not a running task of the owner, and not twice. -/
theorem ownerActive_setRow_le {owner : String} {t : TaskId} {row : Option Meta}
    (h : ∀ m', row = some m' → isActive owner m' = true →
      ∃ m, db.rows.get? t = some m ∧ isActive owner m = true) :
    ownerActive (db.setRow t row).rows owner ≤ ownerActive db.rows owner := by
  cases row with
  | none => exact ownerActive_erase_le db.rows owner t
  | some m' =>
    have hset := ownerActive_set db.rows owner t m'
    have hnonneg := activeAt_nonneg db.rows owner t
    show ownerActive (db.rows.set t m') owner ≤ _
    split at hset
    next hactive =>
      obtain ⟨m, hm, hmactive⟩ := h m' rfl hactive
      have hone : activeAt db.rows owner t = 1 := by
        rw [activeAt, hm]
        exact if_pos hmactive
      omega
    next => omega

theorem frame_goto (s : Session) : Frame owner q db (db.goto p s) :=
  ⟨id, fun _ => id, fun _ _ => rfl, fun _ => le_rfl⟩

theorem frame_finish (hqp : q ≠ p) : Frame owner q db (db.finish p) :=
  ⟨fun h => Locks.release_of_held h hqp, fun _ h => Locks.release_of_held h hqp,
    fun _ _ => rfl, fun _ => le_rfl⟩

theorem frame_lockOwner {o : String} (ho : db.owners.Available o p) (hqp : q ≠ p) (s : Session) :
    Frame owner q db ((db.lockOwner o p).goto p s) :=
  ⟨fun h => Locks.acquire_of_held ho h hqp, fun _ => id, fun _ _ => rfl, fun _ => le_rfl⟩

theorem frame_lockRow {t : TaskId} (ht : db.rowLocks.Available t p) (hqp : q ≠ p) (s : Session) :
    Frame owner q db ((db.lockRow t p).goto p s) :=
  ⟨id, fun _ h => Locks.acquire_of_held ht h hqp, fun _ _ => rfl, fun _ => le_rfl⟩

/-- A commit changes a row that only its own session has locked. -/
theorem frame_commit {t : TaskId} {row : Option Meta} (ht : db.rowLocks t = some p) (hqp : q ≠ p)
    (hactive : db.owners owner = some q →
      ownerActive (db.setRow t row).rows owner ≤ ownerActive db.rows owner) :
    Frame owner q db ((db.setRow t row).finish p) where
  owners h := Locks.release_of_held (by cases row <;> exact h) hqp
  rowLocks t' h := Locks.release_of_held (by cases row <;> exact h) hqp
  rows t' h := by
    refine get?_setRow_of_ne row ?_
    rintro rfl
    exact hqp (Option.some.inj (h.symm.trans ht))
  active := hactive

theorem sessions_goto_of_ne (s : Session) (hqp : q ≠ p) :
    (db.goto p s).sessions q = db.sessions q :=
  Function.update_of_ne hqp ..

@[simp] theorem sessions_goto_self (s : Session) : (db.goto p s).sessions p = s :=
  Function.update_self ..

@[simp] theorem sessions_finish_self : (db.finish p).sessions p = .idle :=
  Function.update_self ..

theorem sessions_commit_of_ne {t : TaskId} {row : Option Meta} (hqp : q ≠ p) :
    ((db.setRow t row).finish p).sessions q = db.sessions q := by
  cases row <;> exact Function.update_of_ne hqp ..

/-! ### The invariant over a run -/

/-- A statement that changes no row keeps the invariant if its own session may go on. -/
theorem Inv.reading (h : Inv ownerOf owner limit db) (hrows : db'.rows = db.rows)
    (hothers : ∀ q, q ≠ p → Frame owner q db db' ∧ db'.sessions q = db.sessions q)
    (hself : Holds ownerOf owner limit db' p (db'.sessions p)) : Inv ownerOf owner limit db' where
  owned := by
    rw [hrows]
    exact h.owned
  within := by
    rw [hrows]
    exact h.within
  sessions q := by
    rcases eq_or_ne q p with rfl | hqp
    · exact hself
    · obtain ⟨hframe, hsession⟩ := hothers q hqp
      rw [hsession]
      exact (h.sessions q).frame hframe

theorem Inv.goto (h : Inv ownerOf owner limit db) {s : Session}
    (hs : Holds ownerOf owner limit db p s) : Inv ownerOf owner limit (db.goto p s) := by
  refine h.reading rfl (fun q hqp => ⟨frame_goto s, sessions_goto_of_ne s hqp⟩) ?_
  rw [sessions_goto_self]
  exact hs.frame (frame_goto s)

theorem Inv.finish (h : Inv ownerOf owner limit db) : Inv ownerOf owner limit (db.finish p) := by
  refine h.reading rfl (fun q hqp => ⟨frame_finish hqp, Function.update_of_ne hqp ..⟩) ?_
  rw [sessions_finish_self]
  trivial

theorem Inv.lockOwner (h : Inv ownerOf owner limit db) {o : String}
    (ho : db.owners.Available o p) {s : Session}
    (hs : Holds ownerOf owner limit (db.lockOwner o p) p s) :
    Inv ownerOf owner limit ((db.lockOwner o p).goto p s) := by
  refine h.reading rfl
    (fun q hqp => ⟨frame_lockOwner ho hqp s, sessions_goto_of_ne s hqp⟩) ?_
  rw [sessions_goto_self]
  exact hs.frame (frame_goto s)

theorem Inv.lockRow (h : Inv ownerOf owner limit db) {t : TaskId}
    (ht : db.rowLocks.Available t p) {s : Session}
    (hs : Holds ownerOf owner limit (db.lockRow t p) p s) :
    Inv ownerOf owner limit ((db.lockRow t p).goto p s) := by
  refine h.reading rfl (fun q hqp => ⟨frame_lockRow ht hqp s, sessions_goto_of_ne s hqp⟩) ?_
  rw [sessions_goto_self]
  exact hs.frame (frame_goto s)

/-- A commit keeps the invariant if it stays within the limit, and a session that has
counted is not in its way. -/
theorem Inv.commit (h : Inv ownerOf owner limit db) {t : TaskId} {row : Option Meta}
    (ht : db.rowLocks t = some p) (hrow : ∀ m', row = some m' → m'.ownerTokenHash = ownerOf t)
    (hwithin : ownerActive (db.setRow t row).rows owner ≤ max 1 limit)
    (hactive : ∀ q, q ≠ p → db.owners owner = some q →
      ownerActive (db.setRow t row).rows owner ≤ ownerActive db.rows owner) :
    Inv ownerOf owner limit ((db.setRow t row).finish p) where
  owned t' m' hm' := by
    rcases eq_or_ne t' t with rfl | hne
    · exact hrow m' ((get?_setRow_self t' row).symm.trans hm')
    · exact h.owned t' m' ((get?_setRow_of_ne row hne).symm.trans hm')
  within := hwithin
  sessions q := by
    rcases eq_or_ne q p with rfl | hqp
    · rw [sessions_finish_self]
      trivial
    · rw [sessions_commit_of_ne hqp]
      exact (h.sessions q).frame (frame_commit ht hqp (hactive q hqp))

theorem claimTask_written {worker : WorkerId} {now : Int} {m : Meta}
    (hm : m.status = .pending ∧ m.cancelRequested = false) :
    (claimTask worker false now m).2.status = .running ∧
      (claimTask worker false now m).2.ownerTokenHash = m.ownerTokenHash := by
  simp [claimTask, hm.1, hm.2]

theorem isActive_iff {m : Meta} :
    isActive owner m = true ↔ m.ownerTokenHash = owner ∧ m.status = .running := by
  simp [isActive]

/-- The commit of a claim. It adds one where its session holds the lock of the owner,
under which it has counted fewer than the limit. -/
theorem Inv.commit_claim (h : Inv ownerOf owner limit db) {t : TaskId} {row : Option Meta}
    (hs : Holds ownerOf owner limit db p (.commit t row true)) :
    Inv ownerOf owner limit ((db.setRow t row).finish p) := by
  obtain ⟨worker, now, m, hheld, rfl, hpassed⟩ := hs
  generalize hclaimed : (claimTask worker false now m).2 = m'
  have hown : m'.ownerTokenHash = ownerOf t := by
    rw [← hclaimed, (claimTask_written hheld.pending).2]
    exact h.owned t m hheld.row
  -- Where the task is another owner's, nothing is added.
  have hother : ownerOf t ≠ owner →
      ownerActive (db.setRow t (some m')).rows owner ≤ ownerActive db.rows owner := by
    intro hne
    refine ownerActive_setRow_le fun m'' hm'' hact => ?_
    obtain rfl := Option.some.inj hm''
    exact absurd (hown.symm.trans (isActive_iff.mp hact).1) hne
  refine h.commit hheld.locked (fun m'' hm'' => Option.some.inj hm'' ▸ hown) ?_ fun q hqp hq => ?_
  · rcases eq_or_ne (ownerOf t) owner with heq | hne
    · have hadded := @ownerActive_setRow_le_add_one db owner t (some m')
      have hlt := (hpassed heq).2
      omega
    · exact (hother hne).trans h.within
  · refine hother fun heq => hqp ?_
    exact Option.some.inj (hq.symm.trans (hpassed heq).1)

/-- The commit of any other transaction. -/
theorem Inv.commit_other (h : Inv ownerOf owner limit db) {t : TaskId} {row : Option Meta}
    (hs : Holds ownerOf owner limit db p (.commit t row false)) :
    Inv ownerOf owner limit ((db.setRow t row).finish p) := by
  obtain ⟨hlock, hwrite⟩ := hs
  have hle : ownerActive (db.setRow t row).rows owner ≤ ownerActive db.rows owner := by
    refine ownerActive_setRow_le fun m' hm' hact => ?_
    obtain ⟨hown, hrunning⟩ := isActive_iff.mp hact
    obtain ⟨hkept, hwas⟩ := hwrite m' hm'
    obtain ⟨m, hm, hmrunning⟩ := hwas hrunning
    have hmown : m.ownerTokenHash = owner := (h.owned t m hm).trans (hkept.symm.trans hown)
    exact ⟨m, hm, isActive_iff.mpr ⟨hmown, hmrunning⟩⟩
  exact h.commit hlock (fun m' hm' => (hwrite m' hm').1) (hle.trans h.within) fun _ _ _ => hle

/-- Every statement keeps the invariant. -/
theorem act_inv (u : Chars) (howner : owner ≠ "") (h : Inv ownerOf owner limit db) :
    Inv ownerOf owner limit (act u p db) := by
  have hp := h.sessions p
  unfold act
  generalize hsession : db.sessions p = s at hp
  cases s with
  | idle => exact h
  | readOwner c =>
    dsimp only
    split
    · exact h.finish
    split
    next => exact h.finish
    next m hm =>
      refine h.goto ⟨h.owned _ m hm, fun ho => ?_⟩
      rw [ho, if_neg howner]
      exact hp ((h.owned _ m hm).symm.trans ho)
  | lockOwner c o l =>
    dsimp only
    split
    next hlocks =>
      split
      next hfree =>
        refine h.lockOwner hfree ⟨hp, ?_⟩
        rintro rfl
        exact Locks.acquire_self ..
      next => exact h
    next hlocks =>
      refine h.goto ⟨hp, fun ho => absurd ⟨?_, ?_⟩ hlocks⟩
      · rw [ho]
        exact howner
      · rw [hp.limited ho]
        rfl
  | selectRow c o l =>
    obtain ⟨hknows, hlock⟩ := hp
    dsimp only
    split
    next hfree =>
      split
      next => exact h.finish
      next m hm =>
        split
        next => exact h.finish
        next hgate =>
          refine h.lockRow hfree ⟨hknows, hlock, Locks.acquire_self .., hm, ?_⟩
          simpa using hgate
    next => exact h
  | countRunning c o l m =>
    obtain ⟨hknows, hlock, hrow⟩ := hp
    dsimp only
    split
    next => exact h.finish
    next hbelow =>
      refine h.goto ⟨hknows, fun ho => ⟨hlock ho, ?_⟩, hrow⟩
      -- The count is taken while the session holds the lock.
      rw [hknows.limited ho, ho] at hbelow
      have hlt : ¬ max 1 limit ≤ ownerActive db.rows owner := fun hle =>
        hbelow (by simp [atLimit, howner, hle])
      exact not_le.mp hlt
  | updateRow c o l m =>
    obtain ⟨hknows, hpassed, hrow⟩ := hp
    exact h.goto ⟨c.worker, c.claimedAt, m, hrow, rfl, fun ho => hpassed (hknows.named.trans ho)⟩
  | takeRow t op =>
    dsimp only
    split
    next hfree =>
      exact h.lockRow hfree ⟨Locks.acquire_self .., after_staysOut u hp fun m => h.owned t m⟩
    next => exact h
  | readInitializing t now =>
    dsimp only
    split
    next => exact h.finish
    next m hm =>
      split
      next => exact h.finish
      next m' hread =>
        have heq : m' = m := by
          unfold finalizeRead at hread
          split at hread <;> cases hread
          rfl
        exact h.goto (heq ▸ h.owned t m hm)
  | writeFinalized t now m =>
    dsimp only
    split
    next hfree =>
      split
      next => exact h.finish
      next m₀ hm₀ =>
        refine h.lockRow hfree ⟨Locks.acquire_self .., fun m' hm' => ?_⟩
        obtain rfl := Option.some.inj hm'
        exact ⟨hp, fun hrunning => by cases hrunning⟩
    next => exact h
  | commit t row claim =>
    cases claim with
    | true => exact h.commit_claim hp
    | false => exact h.commit_other hp

variable (ownerOf owner limit) in
/-- Every claim of a task of the owner passes the limit, and a task is created for the
owner that it keeps. -/
def Event.Regular : Event → Prop
  | .begin _ (.markRunning c) => ownerOf c.task = owner → c.limits owner = some limit
  | .begin _ (.row t op) => op.Keeps ownerOf t
  | _ => True

theorem step_inv (u : Chars) (howner : owner ≠ "") (e : Event) (he : e.Regular ownerOf owner limit)
    (h : Inv ownerOf owner limit db) : Inv ownerOf owner limit (step u e db) := by
  cases e with
  | begin p call =>
    simp only [step]
    split
    next =>
      refine h.goto ?_
      cases call with
      | markRunning c => exact he
      | row t op => exact he
      | finalize t now => trivial
    next => exact h
  | act p => exact act_inv u howner h
  | abort p => exact h.finish

theorem start_inv {rows : Dict TaskId Meta}
    (howned : ∀ t m, rows.get? t = some m → m.ownerTokenHash = ownerOf t)
    (hwithin : ownerActive rows owner ≤ max 1 limit) : Inv ownerOf owner limit { rows } :=
  ⟨howned, hwithin, fun _ => trivial⟩

/-- Where the task is the owner's, a claim that commits writes what `claim_task` as one
step would write now. -/
theorem commit_atomic (h : Inv ownerOf owner limit db) {t : TaskId} {row : Option Meta}
    (hsession : db.sessions p = .commit t row true) (ht : ownerOf t = owner) :
    ∃ worker now m, db.rows.get? t = some m ∧
      row = some (claimTask worker (atLimit db.rows owner (some limit)) now m).2 := by
  have hp := h.sessions p
  rw [hsession] at hp
  obtain ⟨worker, now, m, hheld, hrow, hpassed⟩ := hp
  have hbelow := (hpassed ht).2
  have hfree : atLimit db.rows owner (some limit) = false := by
    have hlt : decide (max 1 limit ≤ ownerActive db.rows owner) = false :=
      decide_eq_false (not_le.mpr hbelow)
    show (owner != "" && decide (max 1 limit ≤ ownerActive db.rows owner)) = false
    rw [hlt, Bool.and_false]
  exact ⟨worker, now, m, hheld.row, by rw [hfree, hrow]⟩

/-! ### The claims of one task -/

def Pending (t : TaskId) (db : Database) : Prop :=
  ∃ m, db.rows.get? t = some m ∧ m.status = .pending

/-- The event commits a claim of the task. -/
def Takes (t : TaskId) (e : Event) (db : Database) : Prop :=
  ∃ p row, e = .act p ∧ db.sessions p = .commit t row true

def Session.claimed : Session → Option TaskId
  | .commit t _ true => some t
  | _ => none

theorem takes_act {t : TaskId} (h : (db.sessions p).claimed = some t) : Takes t (.act p) db := by
  generalize hsession : db.sessions p = s at h
  cases s with
  | commit t' row claim =>
    cases claim with
    | true => exact ⟨p, row, rfl, Option.some.inj h ▸ hsession⟩
    | false => cases h
  | _ => cases h

/-- A claim that commits finds the task pending and leaves it running. -/
theorem takes_turns (u : Chars) (h : Inv ownerOf owner limit db) {t : TaskId} {e : Event}
    (he : Takes t e db) : Pending t db ∧ ¬ Pending t (step u e db) := by
  obtain ⟨p, row, rfl, hsession⟩ := he
  have hp := h.sessions p
  rw [hsession] at hp
  obtain ⟨worker, now, m, hheld, rfl, -⟩ := hp
  refine ⟨⟨m, hheld.row, hheld.pending.1⟩, ?_⟩
  rintro ⟨m', hm', hpending⟩
  simp only [step, act, hsession] at hm'
  obtain rfl := Option.some.inj ((get?_setRow_self t _).symm.trans hm')
  cases (claimTask_written hheld.pending).1.symm.trans hpending

/-- Between two claims of a task that commit, some step makes the task pending again. -/
theorem pending_between (u : Chars) (howner : owner ≠ "") {t : TaskId} {e₁ e₂ : Event}
    {mid : List Event} (h : Inv ownerOf owner limit db) (he₁ : e₁.Regular ownerOf owner limit)
    (hmid : ∀ e ∈ mid, e.Regular ownerOf owner limit) (htakes₁ : Takes t e₁ db)
    (htakes₂ : Takes t e₂ (run (step u) (e₁ :: mid) db)) :
    ∃ mid₁ e mid₂, mid = mid₁ ++ e :: mid₂ ∧ ¬ Pending t (run (step u) (e₁ :: mid₁) db) ∧
      Pending t (step u e (run (step u) (e₁ :: mid₁) db)) := by
  have h₁ := step_inv u howner e₁ he₁ h
  have hrun : Throughout (step u) (Inv ownerOf owner limit) mid (step u e₁ db) :=
    throughout_of_forall (fun e he _ => step_inv u howner e (hmid e he)) h₁
  exact exists_turn (takes_turns u h htakes₁).2 (takes_turns u hrun.final htakes₂).1

/-- The running tasks of an owner stay within the limit, whatever the order of the
statements of any number of sessions, and no task is taken twice without having become
pending in between. -/
theorem running_limit_kept (u : Chars) {rows : Dict TaskId Meta} (howner : owner ≠ "")
    (howned : ∀ t m, rows.get? t = some m → m.ownerTokenHash = ownerOf t)
    (hwithin : ownerActive rows owner ≤ max 1 limit) {events : List Event}
    (hregular : ∀ e ∈ events, e.Regular ownerOf owner limit) :
    Throughout (step u) (fun db => ownerActive db.rows owner ≤ max 1 limit) events { rows } ∧
    ∀ t before e₁ mid e₂ after, events = before ++ e₁ :: (mid ++ e₂ :: after) →
      Takes t e₁ (run (step u) before { rows }) →
      Takes t e₂ (run (step u) (before ++ e₁ :: mid) { rows }) →
      ∃ mid₁ e mid₂, mid = mid₁ ++ e :: mid₂ ∧
        ¬ Pending t (run (step u) (before ++ e₁ :: mid₁) { rows }) ∧
        Pending t (step u e (run (step u) (before ++ e₁ :: mid₁) { rows })) := by
  have hstart : Inv ownerOf owner limit { rows } := start_inv howned hwithin
  have hinv : Throughout (step u) (Inv ownerOf owner limit) events { rows } :=
    throughout_of_forall (fun e he _ => step_inv u howner e (hregular e he)) hstart
  refine ⟨hinv.mono fun _ h => h.within, ?_⟩
  rintro t before e₁ mid e₂ after rfl htakes₁ htakes₂
  have hbefore := (throughout_append hinv).start
  simp only [run_append] at htakes₂ ⊢
  exact pending_between u howner hbefore (hregular e₁ (by simp))
    (fun e he => hregular e (by simp [he])) htakes₁ htakes₂

/-! ### Two workers and a limit of one -/

def oneTask : NewTask := ⟨{ status := .pending, ownerTokenHash := "o" }, .inl rfl⟩

def claimOf (t : TaskId) (w : WorkerId) : Call :=
  .markRunning { task := t, worker := w, limits := fun _ => some 1, paused := false, claimedAt := 0 }

/-- Both claim at once. The second waits for the lock of the owner, and counts after the
first has committed. -/
def contended : List Event :=
  [.begin 0 (.row "a" (.create oneTask)), .act 0, .act 0,
    .begin 0 (.row "b" (.create oneTask)), .act 0, .act 0,
    .begin 1 (claimOf "a" "v"), .begin 2 (claimOf "b" "w"), .act 1, .act 2, .act 1, .act 2,
    .act 1, .act 1, .act 1]

def requeued : List Event :=
  [.act 2, .act 2, .act 2,
    .begin 0 (.row "a" (.mutate ⟨.markPending "again" 1, rfl⟩)), .act 0, .act 0,
    .begin 1 (claimOf "a" "v"), .act 1, .act 1, .act 1, .act 1, .act 1]

theorem running_limit_kept_contended :
    Throughout (step .ascii) (fun db => ownerActive db.rows "o" ≤ max 1 1)
      (contended ++ .act 1 :: (requeued ++ .act 1 :: [])) { rows := .empty } ∧
    ∃ mid₁ e mid₂, requeued = mid₁ ++ e :: mid₂ ∧
      ¬ Pending "a" (run (step .ascii) (contended ++ .act 1 :: mid₁)
        { rows := .empty }) ∧
      Pending "a" (step .ascii e
        (run (step .ascii) (contended ++ .act 1 :: mid₁)
          { rows := .empty })) := by
  obtain ⟨hkept, hbetween⟩ := @running_limit_kept (fun _ => "o") "o" 1 .ascii
    .empty (by decide) (fun t m h => by cases h) (by decide)
    (contended ++ .act 1 :: (requeued ++ .act 1 :: []))
    (by simp [contended, requeued, claimOf, oneTask, Event.Regular, RowOp.Keeps])
  exact ⟨hkept, hbetween "a" contended (.act 1) requeued (.act 1) [] rfl
    (takes_act (by decide +kernel)) (takes_act (by decide +kernel))⟩

end FetchTask.Queue.Claims
