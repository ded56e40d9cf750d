import FetchTask.Lib.Alone
import FetchTask.Queue.Lines
import FetchTask.Queue.RunningLimit

/-!
What a claim takes, and from which list.

`claim` counts in `_initial_claim_streak` how many first-time tasks it has returned
since the last retry. It tells the two kinds apart by the list that a task comes from,
the rest of the code by the record of the task. The calls keep every list to tasks of
its kind (`Sorted`), so that both mean the same.
-/

namespace FetchTask.Queue

open Prog Store

/-! ### `claim`, with the list that it takes from -/

/-- The two `LMOVE`s, with `claimed_from_retry`. -/
def moveNextFrom (preferRetry : Bool) : Call (Option (TaskId × Bool)) :=
  op (.lmove preferRetry) >>= fun moved =>
  match moved with
  | some t => pure (some (t, preferRetry))
  | none =>
    op (.lmove !preferRetry) >>= fun moved =>
    pure (moved.map fun t => (t, !preferRetry))

/-- The loop of `claim`, with `claimed_from_retry`. -/
def claimLoopFrom (worker : WorkerId) (limits : Limits) (preferRetry : Bool) :
    Nat → Call (Option (TaskId × Bool))
  | 0 => pure none
  | n + 1 =>
    moveNextFrom preferRetry >>= fun moved =>
    match moved with
    | none => pure none
    | some (t, fromRetry) =>
      claimMoved t worker limits >>= fun round =>
      match round with
      | .claimed t => pure (some (t, fromRetry))
      | .raised => pure none
      | .again => claimLoopFrom worker limits preferRetry n

/-- `_initial_claim_streak` after a claim. -/
def nextStreak (streak : Nat) : Option (TaskId × Bool) → Nat
  | none => streak
  | some (_, fromRetry) => if fromRetry then 0 else streak + 1

def claimFrom (worker : WorkerId) (limits : Limits) (streak : Nat) : Call (Option (TaskId × Bool)) :=
  recover >>= fun _ =>
  promote >>= fun _ =>
  claimLoopFrom worker limits (decide (3 ≤ streak)) 100

/-- `claim`, with the streak that it leaves. -/
def claimCounting (worker : WorkerId) (limits : Limits) (streak : Nat) :
    Call (Option TaskId × Nat) :=
  claimFrom worker limits streak >>= fun claimed =>
  pure (claimed.map Prod.fst, nextStreak streak claimed)

theorem moveNext_eq (preferRetry : Bool) :
    moveNext preferRetry = moveNextFrom preferRetry >>= fun moved => pure (moved.map Prod.fst) := by
  rw [moveNext, moveNextFrom, Prog.bind_assoc]
  congr 1
  funext moved
  cases moved with
  | some t => rfl
  | none =>
    refine congrArg (Prog.act (S := QueueSig) (.lmove !preferRetry)) (funext fun moved => ?_)
    cases moved <;> rfl

theorem claimLoop_eq (worker : WorkerId) (limits : Limits) (preferRetry : Bool) (n : Nat) :
    claimLoop worker limits preferRetry n =
      claimLoopFrom worker limits preferRetry n >>= fun claimed => pure (claimed.map Prod.fst) := by
  induction n with
  | zero => rfl
  | succ n ih =>
    rw [claimLoop, claimLoopFrom, moveNext_eq, Prog.bind_assoc, Prog.bind_assoc]
    congr 1
    funext moved
    rcases moved with - | ⟨t, fromRetry⟩
    · rfl
    · show claimMoved t worker limits >>= _ = (claimMoved t worker limits >>= _) >>= _
      rw [Prog.bind_assoc]
      congr 1
      funext round
      cases round with
      | again => exact ih
      | raised => rfl
      | claimed t => rfl

/-- It is the claim of the other modules. -/
theorem claim_eq (worker : WorkerId) (limits : Limits) (streak : Nat) :
    claim worker limits streak =
      claimCounting worker limits streak >>= fun result => pure result.1 := by
  rw [claim, claimCounting, claimFrom, Prog.bind_assoc, Prog.bind_assoc]
  congr 1
  funext _
  rw [Prog.bind_assoc]
  congr 1
  funext _
  rw [claimLoop_eq]
  rfl

/-! ### Lists and records -/

/-- Whatever is in a line is of its kind, as its record says. -/
def Sorted (w : World) : Prop :=
  ∀ retrying t m, w.redis.Lined retrying t → w.tasks.get? t = some m → metaIsRetry m = retrying

/-- The operation changes no record from one kind to the other. -/
def Op.KeepsKind (u : Chars) : Op → Prop
  | .write _ o => ∀ m, metaIsRetry (o.apply u m) = metaIsRetry m
  | _ => True

section Sorted

variable {u : Chars} {E : Int → Prop} {w : World} {t : TaskId} {retrying : Bool} {now : Int} {o : Op}

/-- The kind of a record, as the queue reads it. -/
def kindOf (w : World) (t : TaskId) : Bool := (w.tasks.get? t).elim false metaIsRetry

theorem kind_claimTask (worker : WorkerId) (full : Bool) (time : Int) (m : Meta) :
    metaIsRetry (claimTask worker full time m).2 = metaIsRetry m := by
  unfold claimTask
  split
  · rfl
  · split <;> rfl

/-- A record that an operation sets keeps its kind if it is made of the one that it replaces. -/
theorem kind_setTask {j : TaskId} {m m' n : Meta} (hm : w.tasks.get? j = some m)
    (hkind : metaIsRetry n = metaIsRetry m) (h : (w.setTask j n).tasks.get? t = some m') :
    ∃ m, w.tasks.get? t = some m ∧ metaIsRetry m' = metaIsRetry m := by
  rw [World.setTask, Dict.get?_set] at h
  by_cases hj : j = t
  · subst hj
    rw [if_pos rfl, Option.some.injEq] at h
    exact ⟨m, hm, h ▸ hkind⟩
  · rw [if_neg hj] at h
    exact ⟨m', h, rfl⟩

theorem kind_handle (ho : o.KeepsKind u) {m' : Meta}
    (h : (handle u now o w).2.tasks.get? t = some m') :
    ∃ m, w.tasks.get? t = some m ∧ metaIsRetry m' = metaIsRetry m := by
  cases o with
  | claimTask j worker owner limit time =>
    cases hj : w.tasks.get? j with
    | none => exact ⟨m', by simpa [handle, hj] using h, rfl⟩
    | some m =>
      simp only [handle, hj] at h
      exact kind_setTask hj (kind_claimTask ..) h
  | write j o =>
    cases hj : w.tasks.get? j with
    | none => exact ⟨m', by simpa [handle, hj] using h, rfl⟩
    | some m =>
      simp only [handle, hj] at h
      exact kind_setTask hj (ho m) h
  | enqueueScript b j score time =>
    refine ⟨m', ?_, rfl⟩
    simp only [handle] at h
    split at h <;> exact h
  | _ => exact ⟨m', h, rfl⟩

theorem Sorted.act (h : Sorted w) (ho : o.KeepsKind u)
    (hkind : ∀ b j m, o.Enqueues b → o.task = some j → w.tasks.get? j = some m → metaIsRetry m = b) :
    Sorted (handle u now o w).2 := by
  intro b j m' hline hget
  obtain ⟨m, hm, hsame⟩ := kind_handle ho hget
  rw [hsame]
  rcases lined_handle hline with hline | ⟨henqueues, htask⟩
  · exact h b j m hline hm
  · exact hkind b j m henqueues htask hm

/-- An operation that enqueues nothing. -/
theorem Sorted.act_of_not (h : Sorted w) (ho : o.KeepsKind u) (hnot : ∀ b, ¬ o.Enqueues b) :
    Sorted (handle u now o w).2 :=
  h.act ho fun b _ _ henqueues => absurd henqueues (hnot b)

/-- An operation that enqueues a task by its record. -/
theorem Sorted.act_of_kind (h : Sorted w) (ho : o.KeepsKind u) (htask : o.task = some t)
    (hkind : ∀ b, o.Enqueues b → b = kindOf w t) : Sorted (handle u now o w).2 := by
  refine h.act ho fun b j m henqueues hj hm => ?_
  obtain rfl := Option.some.inj (htask.symm.trans hj)
  rw [hkind b henqueues, kindOf, hm]
  rfl

/-! ### Calls that run alone -/

/-- A call that keeps the lines sorted. -/
abbrev EndsSorted {α : Type} (u : Chars) (E : Int → Prop) (call : Call α) (w : World) : Prop :=
  Ends (handle u) E (fun _ => Sorted) call w

theorem ends_op {α : Type} {Q : α → World → Prop} {f : o.Res → Call α}
    (h : ∀ now, E now → Ends (handle u) E Q (f (handle u now o w).1) (handle u now o w).2) :
    Ends (handle u) E Q (op o >>= f) w := h

section Reads

variable {α : Type} {Q : α → World → Prop}

theorem ends_clock {about : Option TaskId} {f : Int → Call α}
    (h : ∀ now, E now → Ends (handle u) E Q (f now) w) :
    Ends (handle u) E Q (op (.clock about) >>= f) w := h

theorem ends_getMeta {f : Option Meta → Call α} (h : Ends (handle u) E Q (f (w.tasks.get? t)) w) :
    Ends (handle u) E Q (op (.getMeta t) >>= f) w := fun _ _ => h

theorem ends_loadResult {f : TaskResult → Call α} (h : Ends (handle u) E Q (f (w.results t)) w) :
    Ends (handle u) E Q (op (.loadResult t) >>= f) w := fun _ _ => h

theorem ends_readPaused {f : Bool → Call α} (h : Ends (handle u) E Q (f w.paused) w) :
    Ends (handle u) E Q (op (.readPaused t) >>= f) w := fun _ _ => h

end Reads

theorem ends_isRetryTask {α : Type} {Q : α → World → Prop} {f : Bool → Call α}
    (h : Ends (handle u) E Q (f (kindOf w t)) w) :
    Ends (handle u) E Q (isRetryTask t >>= f) w := fun _ _ => h

theorem sorted_enqueue (h : Sorted w) (availableAt : Option Int) :
    EndsSorted u E (enqueue t availableAt) w :=
  ends_isRetryTask fun _ _ _ _ => h.act_of_kind trivial rfl fun _ henqueues => henqueues.symm

theorem sorted_requeueAs (h : Sorted w)
    (hkind : ∀ m, w.tasks.get? t = some m → metaIsRetry m = retrying) (availableAt : Option Int) : EndsSorted u E (requeueAs retrying t availableAt) w := by
  refine fun _ _ _ _ => h.act trivial fun b j m henqueues hj hm => ?_
  obtain rfl := Option.some.inj hj
  exact (hkind m hm).trans henqueues

theorem sorted_requeue (h : Sorted w) (availableAt : Option Int) :
    EndsSorted u E (requeue t availableAt) w :=
  ends_isRetryTask (sorted_requeueAs h (fun m hm => by simp [kindOf, hm]) availableAt)

theorem sorted_promoteQueue (h : Sorted w) (b : Bool) : EndsSorted u E (promoteQueue b) w :=
  fun _ _ _ _ => h.act_of_not trivial fun _ => not_false

theorem sorted_promote (h : Sorted w) : EndsSorted u E promote w :=
  (sorted_promoteQueue h false).bind fun _ _ h => sorted_promoteQueue h true

theorem keepsKind_markSubmitted (delay time : Int) :
    (Op.write t (.markSubmitted delay time)).KeepsKind u := by
  intro m
  simp only [StoreOp.apply, markSubmitted, updateMetaIf]
  split <;> rfl

theorem keepsKind_markPending (reason : String) (time : Int) :
    (Op.write t (.markPending reason time)).KeepsKind u := by
  intro m
  simp only [StoreOp.apply, markPending, updateMetaIf]
  split <;> rfl

theorem sorted_lpushReady (h : Sorted w) :
    EndsSorted u E (isRetryTask t >>= fun retrying => op (.lpushReady retrying t)) w :=
  ends_isRetryTask fun _ _ => h.act_of_kind trivial rfl fun _ henqueues => henqueues.symm

theorem sorted_sremKnown (h : Sorted w) : EndsSorted u E (op (.sremKnown t)) w :=
  fun _ _ => h.act_of_not trivial fun _ => not_false

theorem sorted_recoverTaken (h : Sorted w) : EndsSorted u E (recoverTaken t) w := by
  refine ends_getMeta ?_
  cases w.tasks.get? t with
  | none => exact sorted_sremKnown h
  | some m =>
    by_cases hrunning : m.status = .running
    · simp only [hrunning, if_true]
      refine ends_loadResult (ends_clock fun time _ => ?_)
      split
      · refine ends_op fun now _ => ?_
        have hnext : Sorted (handle u now (.write t (.markSubmitted 45 time)) w).2 :=
          h.act_of_not (keepsKind_markSubmitted 45 time) fun _ => not_false
        split
        · exact sorted_sremKnown hnext
        · exact hnext
      · refine ends_op fun now _ => ?_
        have hnext : Sorted (handle u now (.write t (.markPending "worker lease expired" time)) w).2 :=
          h.act_of_not (keepsKind_markPending _ time) fun _ => not_false
        split
        · exact sorted_sremKnown hnext
        · exact sorted_lpushReady hnext
    · simp only [hrunning, if_false]
      split
      · exact sorted_lpushReady h
      · exact sorted_sremKnown h

theorem sorted_recoverAll (ts : List TaskId) (h : Sorted w) : EndsSorted u E (recoverAll ts) w := by
  induction ts generalizing w with
  | nil => exact h
  | cons t ts ih =>
    refine ends_clock fun time _ => ends_op fun now _ => ?_
    have hnext : Sorted (handle u now (.recoverScript t time) w).2 :=
      h.act_of_not trivial fun _ => not_false
    split
    · exact (sorted_recoverTaken hnext).bind fun _ _ h => ih h
    · exact ih hnext

theorem sorted_recover (h : Sorted w) : EndsSorted u E recover w := by
  refine ends_clock fun time _ => ends_op fun _ _ => ?_
  exact sorted_recoverAll _ h

/-! ### The task that a claim has moved -/

theorem sorted_ack (h : Sorted w) : EndsSorted u E (ack t) w :=
  fun _ _ => h.act_of_not trivial fun _ => not_false

theorem sorted_delayClaimed (h : Sorted w) (score : Int) : EndsSorted u E (delayClaimed t score) w :=
  ends_isRetryTask fun _ _ => h.act_of_kind trivial rfl fun _ henqueues => henqueues.symm

/-- If the record of the task is there, it is of the kind. -/
def IsKind (retrying : Bool) (t : TaskId) (w : World) : Prop :=
  ∀ m, w.tasks.get? t = some m → metaIsRetry m = retrying

theorem IsKind.act (h : IsKind retrying t w) (ho : o.KeepsKind u) :
    IsKind retrying t (handle u now o w).2 := by
  intro m' hget
  obtain ⟨m, hm, hsame⟩ := kind_handle ho hget
  exact hsame.trans (h m hm)

/-- All that `mark_running` can do: it is refused while the system is paused, it finds no record,
or it performs one transaction. -/
theorem ends_markRunning {Q : Option Bool → World → Prop} {worker : WorkerId} {limits : Limits}
    (hpaused : w.paused = true → Q (some false) w)
    (hgone : w.paused = false → w.tasks.get? t = none → Q none w)
    (hclaim : w.paused = false → ∀ m, w.tasks.get? t = some m → ∀ time now,
      let o : Op := .claimTask t worker m.ownerTokenHash
        (if m.ownerTokenHash = "" then none else limits m.ownerTokenHash) time
      Q (handle u now o w).1 (handle u now o w).2) :
    Ends (handle u) E Q (markRunning t worker limits) w := by
  refine ends_readPaused ?_
  cases hp : w.paused with
  | true => exact hpaused hp
  | false =>
    refine ends_clock fun time _ => ends_getMeta ?_
    cases hget : w.tasks.get? t with
    | none => exact hgone hp hget
    | some m => exact fun now _ => hclaim hp m hget time now

theorem claimTask_found {worker : WorkerId} {owner : String} {limit : Option Int} {time : Int} {m : Meta}
    (hm : w.tasks.get? t = some m) :
    ((handle u now (.claimTask t worker owner limit time) w).2.tasks.get? t).isSome = true := by
  simp [handle, hm, World.setTask]

theorem sorted_markRunning (h : Sorted w) (hkind : IsKind retrying t w) (worker : WorkerId)
    (limits : Limits) :
    Ends (handle u) E (fun running w => Sorted w ∧ IsKind retrying t w ∧
      (running = some true → (w.tasks.get? t).isSome = true)) (markRunning t worker limits) w := by
  refine ends_markRunning (fun _ => ?_) (fun _ _ => ?_) fun _ m hget time now => ?_
  · exact ⟨h, hkind, fun hfalse => nomatch hfalse⟩
  · exact ⟨h, hkind, fun hfalse => nomatch hfalse⟩
  · exact ⟨h.act_of_not trivial fun _ => not_false, hkind.act trivial, fun _ => claimTask_found hget⟩

theorem sorted_again {call : Call Unit} {P : Round → World → Prop} (h : EndsSorted u E call w)
    (hP : ∀ w, P .again w) :
    Ends (handle u) E (fun round w => Sorted w ∧ P round w) (call >>= fun _ => pure .again) w :=
  h.bind fun _ w h => ⟨h, hP w⟩

/-- What is claimed is of the kind of the line that it was taken from. -/
theorem sorted_claimMoved (h : Sorted w) (hkind : IsKind retrying t w) (worker : WorkerId)
    (limits : Limits) :
    Ends (handle u) E (fun round w => Sorted w ∧
      ∀ j, round = .claimed j → ∃ m, w.tasks.get? j = some m ∧ metaIsRetry m = retrying)
      (claimMoved t worker limits) w := by
  refine ends_getMeta ?_
  cases w.tasks.get? t with
  | none => exact sorted_again (sorted_ack h) fun _ _ hfalse => Round.noConfusion hfalse
  | some m =>
    by_cases hwaiting : Waiting m
    · simp only [hwaiting, not_true_eq_false, if_false]
      refine ends_clock fun time _ => ?_
      cases m.nextAttemptAt.filter (fun next => decide (time < next)) with
      | some next =>
        exact sorted_again (sorted_delayClaimed h next) fun _ _ hfalse => Round.noConfusion hfalse
      | none =>
        refine (sorted_markRunning h hkind worker limits).bind ?_
        rintro running w ⟨h, hkind, hrunning⟩
        cases running with
        | none => exact ⟨h, fun _ hfalse => Round.noConfusion hfalse⟩
        | some started =>
          cases started with
          | false =>
            simp only
            split
            · exact ends_clock fun time _ =>
                sorted_again (sorted_delayClaimed h _) fun _ _ hfalse => Round.noConfusion hfalse
            · exact sorted_again (sorted_ack h) fun _ _ hfalse => Round.noConfusion hfalse
          | true =>
            refine ends_clock fun time _ => ends_op fun now _ => ?_
            refine ⟨h.act_of_not trivial fun _ => not_false, fun j heq => ?_⟩
            obtain rfl : t = j := Round.claimed.inj heq
            obtain ⟨m, hget⟩ := Option.isSome_iff_exists.mp (hrunning rfl)
            exact ⟨m, hget, hkind m hget⟩
    · simp only [hwaiting, not_false_eq_true, if_true]
      exact sorted_again (sorted_ack h) fun _ _ hfalse => Round.noConfusion hfalse

/-- What an `LMOVE` takes from a line is of its kind. -/
theorem Sorted.lmove (h : Sorted w) (b : Bool) (hmoved : (w.redis.lmove b).1 = some t) :
    IsKind b t { w with redis := (w.redis.lmove b).2 } := by
  intro m hget
  refine h b t m (.inl ?_) hget
  rw [Redis.lmove_fst] at hmoved
  exact List.mem_of_getLast? hmoved

theorem sorted_moveNextFrom (h : Sorted w) (preferRetry : Bool) :
    Ends (handle u) E (fun moved w => Sorted w ∧
      ∀ t fromRetry, moved = some (t, fromRetry) → IsKind fromRetry t w)
      (moveNextFrom preferRetry) w := by
  refine ends_op fun now _ => ?_
  have hnext : Sorted (handle u now (.lmove preferRetry) w).2 :=
    h.act_of_not trivial fun _ => not_false
  cases hmoved : (w.redis.lmove preferRetry).1 with
  | some t =>
    simp only [handle, hmoved]
    refine ⟨hnext, fun j b heq => ?_⟩
    obtain ⟨rfl, rfl⟩ := Prod.mk.inj (Option.some.inj heq)
    exact h.lmove _ hmoved
  | none =>
    simp only [handle, hmoved]
    refine ends_op fun now' _ => ⟨hnext.act_of_not (u := u) trivial fun _ => not_false, ?_⟩
    rintro j b heq
    obtain ⟨j, hj, heq⟩ := Option.map_eq_some_iff.mp heq
    obtain ⟨rfl, rfl⟩ := Prod.mk.inj heq
    exact hnext.lmove _ hj

theorem sorted_claimLoopFrom (h : Sorted w) (worker : WorkerId) (limits : Limits)
    (preferRetry : Bool) (n : Nat) :
    Ends (handle u) E (fun claimed w => Sorted w ∧ ∀ t fromRetry, claimed = some (t, fromRetry) →
      ∃ m, w.tasks.get? t = some m ∧ metaIsRetry m = fromRetry)
      (claimLoopFrom worker limits preferRetry n) w := by
  induction n generalizing w with
  | zero => exact ⟨h, fun _ _ hfalse => nomatch hfalse⟩
  | succ n ih =>
    refine (sorted_moveNextFrom h preferRetry).bind ?_
    rintro moved w ⟨h, hmoved⟩
    match moved, hmoved with
    | none, _ => exact ⟨h, fun _ _ hfalse => nomatch hfalse⟩
    | some (t, fromRetry), hmoved =>
      refine (sorted_claimMoved h (hmoved t fromRetry rfl) worker limits).bind ?_
      rintro round w ⟨h, hround⟩
      match round, hround with
      | .again, _ => exact ih h
      | .raised, _ => exact ⟨h, fun _ _ hfalse => nomatch hfalse⟩
      | .claimed t, hround =>
        refine ⟨h, fun j b heq => ?_⟩
        obtain ⟨rfl, rfl⟩ := Prod.mk.inj (Option.some.inj heq)
        exact hround t rfl

theorem sorted_claimFrom (h : Sorted w) (worker : WorkerId) (limits : Limits) (streak : Nat) :
    Ends (handle u) E (fun claimed w => Sorted w ∧ ∀ t fromRetry, claimed = some (t, fromRetry) →
      ∃ m, w.tasks.get? t = some m ∧ metaIsRetry m = fromRetry) (claimFrom worker limits streak) w :=
  (sorted_recover h).bind fun _ _ h => (sorted_promote h).bind fun _ _ h =>
    sorted_claimLoopFrom h worker limits _ 100

end Sorted

end FetchTask.Queue
