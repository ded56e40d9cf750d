import FetchTask.Queue.Sorted

/-!
The claimer's preference between first-time tasks and retries.

From the third first-time task on, `claim` looks at the retries first. The list that it
prefers is the only one that it takes from as long as a task that it could return is in
that list, or is due in the delayed set of that kind: such a task stays there until it
is taken, whatever becomes of the tasks that the same call drops or delays before, and a
promotion that passes it by has put a hundred others into the list.
-/

namespace FetchTask.Queue

open Prog Store

/-! ### What the claim can take -/

/-- Nothing keeps a claim at the times `E` from starting the task. -/
def Startable (E : Int → Prop) (limits : Limits) (t : TaskId) (w : World) : Prop :=
  w.paused = false ∧ ∃ m, w.tasks.get? t = some m ∧ Waiting m ∧
    (∀ next ∈ m.nextAttemptAt, ∀ now, E now → next ≤ now) ∧
    atLimit w.tasks m.ownerTokenHash
      (if m.ownerTokenHash = "" then none else limits m.ownerTokenHash) = false

/-- The task is in the ready list of its kind, or due in the delayed set. -/
def Placed (E : Int → Prop) (retrying : Bool) (t : TaskId) (w : World) : Prop :=
  t ∈ w.redis.readyOf retrying ∨
    ∃ score, (t, score) ∈ (w.redis.delayedOf retrying).items ∧ ∀ now, E now → score ≤ now

/-- The task is in the ready list, or `n` others are. -/
def Ahead (n : Nat) (retrying : Bool) (t : TaskId) (w : World) : Prop :=
  t ∈ w.redis.readyOf retrying ∨
    ∃ others : List TaskId, others.Nodup ∧ others ⊆ w.redis.readyOf retrying ∧ n ≤ others.length

section Preferred

variable {u : Chars} {E : Int → Prop} {limits : Limits} {w w' : World} {t j : TaskId}
  {retrying : Bool} {n : Nat} {now : Int}

theorem atLimit_mono {tasks tasks' : Dict TaskId Meta} {owner : String} {limit : Option Int}
    (hactive : ownerActive tasks' owner ≤ ownerActive tasks owner)
    (h : atLimit tasks owner limit = false) : atLimit tasks' owner limit = false := by
  cases limit with
  | none => rfl
  | some limit =>
    simp only [atLimit, Bool.and_eq_false_iff, decide_eq_false_iff_not] at h ⊢
    exact h.imp_right fun hlt hle => hlt (hle.trans hactive)

theorem Startable.keep (h : Startable E limits t w) (hpaused : w'.paused = w.paused)
    (hget : w'.tasks.get? t = w.tasks.get? t)
    (hactive : ∀ owner, ownerActive w'.tasks owner ≤ ownerActive w.tasks owner) :
    Startable E limits t w' := by
  obtain ⟨hrunning, m, hm, hwaiting, hnext, hlimit⟩ := h
  exact ⟨hpaused.trans hrunning, m, hget.trans hm, hwaiting, hnext, atLimit_mono (hactive _) hlimit⟩

/-- An operation on the queue only. -/
theorem Startable.same (h : Startable E limits t w) (hpaused : w'.paused = w.paused)
    (htasks : w'.tasks = w.tasks) : Startable E limits t w' :=
  h.keep hpaused (by rw [htasks]) fun _ => by rw [htasks]

/-- A record that does not become running. -/
theorem ownerActive_set_le {m m' : Meta} (hm : w.tasks.get? j = some m) (hstays : Claims.StaysOut m m')
    (owner : String) : ownerActive (w.tasks.set j m') owner ≤ ownerActive w.tasks owner := by
  have hset := Claims.ownerActive_set w.tasks owner j m'
  have hcount : (if Claims.isActive owner m' then 1 else 0) ≤ Claims.activeAt w.tasks owner j := by
    rw [Claims.activeAt, hm]
    show _ ≤ if Claims.isActive owner m then (1 : Int) else 0
    by_cases hm' : Claims.isActive owner m' = true
    · have hactive : Claims.isActive owner m = true := by
        simp only [Claims.isActive, Bool.and_eq_true, beq_iff_eq] at hm' ⊢
        exact ⟨hstays.owner ▸ hm'.1, hstays.running hm'.2⟩
      rw [hm', hactive]
    · rw [if_neg hm']
      split <;> decide
  omega

theorem Startable.setTask (h : Startable E limits t w) (hj : j ≠ t) {m m' : Meta}
    (hm : w.tasks.get? j = some m) (hstays : Claims.StaysOut m m') :
    Startable E limits t (w.setTask j m') :=
  h.keep rfl (Dict.get?_set_of_ne _ _ hj) (ownerActive_set_le hm hstays)

theorem Startable.write (h : Startable E limits t w) (hj : j ≠ t) {o : StoreOp}
    (ho : Claims.isMarkRunning o = false) :
    Startable E limits t (handle u now (.write j o) w).2 := by
  cases hm : w.tasks.get? j with
  | none => simpa [handle, hm] using h
  | some m =>
    simp only [handle, hm]
    exact h.setTask hj hm (Claims.mutate_staysOut u ⟨o, ho⟩ m)

/-! ### Before the rounds -/

/-- The claim can start the task, which is in its place. -/
structure Claimable (E : Int → Prop) (limits : Limits) (retrying : Bool) (t : TaskId) (w : World) :
    Prop where
  startable : Startable E limits t w
  placed : Placed E retrying t w

abbrev EndsClaimable {α : Type} (u : Chars) (E : Int → Prop) (limits : Limits) (retrying : Bool)
    (t : TaskId) (call : Call α) (w : World) : Prop :=
  Ends (handle u) E (fun _ => Claimable E limits retrying t) call w

theorem Claimable.lpushReady (h : Claimable E limits retrying t w) (b : Bool) :
    Claimable E limits retrying t { w with redis := w.redis.lpushReady b j } where
  startable := h.startable.same rfl rfl
  placed := by
    refine Or.imp ?_ ?_ h.placed
    · intro hmem
      cases b <;> cases retrying <;>
        first | exact hmem | exact List.mem_cons_of_mem _ hmem
    · intro hdelayed
      cases b <;> exact hdelayed

theorem claimable_lpushReady (h : Claimable E limits retrying t w) :
    EndsClaimable u E limits retrying t
      (isRetryTask j >>= fun retrying => op (.lpushReady retrying j)) w :=
  ends_isRetryTask fun _ _ => h.lpushReady _

theorem claimable_sremKnown (h : Claimable E limits retrying t w) :
    EndsClaimable u E limits retrying t (op (.sremKnown j)) w :=
  fun _ _ => ⟨h.startable.same rfl rfl, h.placed⟩

theorem Claimable.write (h : Claimable E limits retrying t w) (hj : j ≠ t) {o : StoreOp}
    (ho : Claims.isMarkRunning o = false) :
    Claimable E limits retrying t (handle u now (.write j o) w).2 where
  startable := h.startable.write hj ho
  placed := by
    have hredis : (handle u now (.write j o) w).2.redis = w.redis := by
      simp only [handle]
      split <;> rfl
    rw [Placed, hredis]
    exact h.placed

theorem claimable_recoverTaken (h : Claimable E limits retrying t w) :
    EndsClaimable u E limits retrying t (recoverTaken j) w := by
  refine ends_getMeta ?_
  cases hget : w.tasks.get? j with
  | none => exact claimable_sremKnown h
  | some m =>
    by_cases hrunning : m.status = .running
    · -- The task itself is pending.
      have hj : j ≠ t := by
        rintro rfl
        obtain ⟨-, m', hm', ⟨hpending, -⟩, -⟩ := h.startable
        obtain rfl := Option.some.inj (hget.symm.trans hm')
        cases hrunning.symm.trans hpending
      simp only [hrunning, if_true]
      refine ends_loadResult (ends_clock fun time _ => ?_)
      split
      · refine ends_op fun now _ => ?_
        have hnext : Claimable E limits retrying t
            (handle u now (.write j (.markSubmitted 45 time)) w).2 := h.write hj rfl
        split
        · exact claimable_sremKnown hnext
        · exact hnext
      · refine ends_op fun now _ => ?_
        have hnext : Claimable E limits retrying t
            (handle u now (.write j (.markPending "worker lease expired" time)) w).2 := h.write hj rfl
        split
        · exact claimable_sremKnown hnext
        · exact claimable_lpushReady hnext
    · simp only [hrunning, if_false]
      split
      · exact claimable_lpushReady h
      · exact claimable_sremKnown h

theorem claimable_recoverAll (ts : List TaskId) (h : Claimable E limits retrying t w) :
    EndsClaimable u E limits retrying t (recoverAll ts) w := by
  induction ts generalizing w with
  | nil => exact h
  | cons j ts ih =>
    refine ends_clock fun time _ => ends_op fun now _ => ?_
    have hnext : Claimable E limits retrying t (handle u now (.recoverScript j time) w).2 := by
      refine ⟨h.startable.same rfl rfl, ?_⟩
      have hplaced := h.placed
      simp only [handle, Redis.recoverScript]
      split
      · exact hplaced
      · split <;> exact hplaced
    split
    · exact (claimable_recoverTaken hnext).bind fun _ _ h => ih h
    · exact ih hnext

theorem claimable_recover (h : Claimable E limits retrying t w) :
    EndsClaimable u E limits retrying t recover w := by
  refine ends_clock fun time _ => ends_op fun _ _ => ?_
  exact claimable_recoverAll _ h

/-- A promotion moves the task, or moves a hundred others. -/
theorem Claimable.promote (h : Claimable E limits retrying t w) (hnow : E now) :
    Ahead 100 retrying t { w with redis := w.redis.promoteScript retrying now } := by
  simp only [Ahead, Redis.readyOf_promoteScript, List.mem_append, List.mem_reverse]
  rcases h.placed with hready | ⟨score, hitem, hdue⟩
  · exact .inl (.inl hready)
  · by_cases hmem : t ∈ w.redis.promoted retrying now
    · exact .inl (.inr hmem)
    · refine .inr ⟨w.redis.promoted retrying now, nodup_zrangebyscore .., ?_, ?_⟩
      · exact fun i hi => List.mem_append_right _ (List.mem_reverse.mpr hi)
      · exact (length_zrangebyscore hitem (hdue now hnow) hmem).ge

theorem claimable_promote (h : Claimable E limits retrying t w) :
    Ends (handle u) E (fun _ w => Startable E limits t w ∧ Ahead 100 retrying t w) promote w := by
  intro first hfirst _ _ second hsecond _ _
  refine ⟨h.startable.same rfl rfl, ?_⟩
  cases retrying with
  | false =>
    have hready : ((w.redis.promoteScript false first).promoteScript true second).readyOf false =
        (w.redis.promoteScript false first).readyOf false :=
      Redis.readyOf_promoteScript_of_ne _ Bool.false_ne_true _
    have hahead := h.promote hfirst
    rwa [Ahead, ← hready] at hahead
  | true =>
    have hplaced : Placed E true t { w with redis := w.redis.promoteScript false first } := by
      rw [Placed, Redis.readyOf_promoteScript_of_ne _ Bool.false_ne_true.symm,
        Redis.delayedOf_promoteScript_of_ne _ Bool.false_ne_true.symm]
      exact h.placed
    exact Claimable.promote ⟨h.startable.same rfl rfl, hplaced⟩ hsecond

/-! ### The rounds -/

/-- What is ahead when the claim has taken `j` out of the list. -/
def Left (n : Nat) (retrying : Bool) (t j : TaskId) (w : World) : Prop :=
  t ∈ w.redis.readyOf retrying ∨
    ∃ others : List TaskId, others.Nodup ∧ (∀ i ∈ others, i ∈ w.redis.readyOf retrying ∧ i ≠ j) ∧
      n ≤ others.length

theorem Left.ahead (h : Left n retrying t j w) : Ahead n retrying t w := by
  refine h.imp_right ?_
  rintro ⟨others, hnodup, hin, hlength⟩
  exact ⟨others, hnodup, fun i hi => (hin i hi).1, hlength⟩

/-- The preferred list is not empty, and without its last task it still holds enough. -/
theorem Ahead.lmove (h : Ahead (n + 1) retrying t w) :
    ∃ j, (w.redis.lmove retrying).1 = some j ∧
      (j ≠ t → Left n retrying t j { w with redis := (w.redis.lmove retrying).2 }) := by
  rcases w.redis.lmove_cases retrying with ⟨hempty, -⟩ | ⟨j, hlast, hfst, hready, -, -⟩
  · exfalso
    rw [Ahead, hempty] at h
    rcases h with h | ⟨others, -, hin, hlength⟩
    · simp at h
    · rw [List.subset_nil.mp hin] at hlength
      simp at hlength
  · refine ⟨j, hfst, fun hj => ?_⟩
    have hsplit : ∀ i, i ∈ w.redis.readyOf retrying → i ≠ j →
        i ∈ (w.redis.readyOf retrying).dropLast := by
      intro i hi hne
      rw [← List.dropLast_append_getLast? j hlast, List.mem_append, List.mem_singleton] at hi
      exact hi.resolve_right hne
    rw [Left, hready]
    rcases h with hmem | ⟨others, hnodup, hin, hlength⟩
    · exact .inl (hsplit t hmem (Ne.symm hj))
    · refine .inr ⟨others.erase j, hnodup.erase j, fun i hi => ?_, ?_⟩
      · obtain ⟨hne, hi⟩ := (hnodup.mem_erase_iff).mp hi
        exact ⟨hsplit i (hin hi) hne, hne⟩
      · have hle := List.le_length_erase (l := others) (a := j)
        omega

/-- Neither the task nor those ahead are removed with `j`. -/
theorem Left.ack (h : Left n retrying t j w) (hj : j ≠ t) :
    Ahead n retrying t { w with redis := w.redis.ackPipeline j } := by
  have hready : (w.redis.ackPipeline j).readyOf retrying = lrem j (w.redis.readyOf retrying) := by
    cases retrying <;> rfl
  rw [Ahead, hready]
  rcases h with hmem | ⟨others, hnodup, hin, hlength⟩
  · exact .inl (mem_lrem.mpr ⟨hmem, Ne.symm hj⟩)
  · exact .inr ⟨others, hnodup, fun i hi => mem_lrem.mpr (hin i hi), hlength⟩

/-- The claim takes the task when it has moved it. -/
theorem claimMoved_self (h : Startable E limits t w) (worker : WorkerId) :
    Ends (handle u) E (fun round _ => round = .claimed t) (claimMoved t worker limits) w := by
  obtain ⟨hrunning, m, hm, hwaiting, hnext, hlimit⟩ := h
  refine ends_getMeta ?_
  rw [hm]
  simp only [hwaiting, not_true_eq_false, if_false]
  refine ends_clock fun time htime => ?_
  have hpassed : m.nextAttemptAt.filter (fun next => decide (time < next)) = none := by
    rw [Option.filter_eq_none_iff]
    intro next hmem
    simpa using hnext next hmem time htime
  rw [hpassed]
  refine Ends.bind (Q := fun running _ => running = some true) (ends_markRunning ?_ ?_ ?_) ?_
  · exact fun hpaused => nomatch hrunning.symm.trans hpaused
  · exact fun _ hgone => nomatch hm.symm.trans hgone
  · intro _ m' hm' time now
    obtain rfl := Option.some.inj (hm.symm.trans hm')
    simp only [handle, hm, hlimit, claimTask_admitted hwaiting.1 hwaiting.2]
  · rintro running w rfl
    exact ends_clock fun _ _ _ _ => rfl

/-- What the rounds need, while they have taken `j` out of the list. -/
structure Going (E : Int → Prop) (limits : Limits) (n : Nat) (retrying : Bool) (t j : TaskId)
    (w : World) : Prop where
  startable : Startable E limits t w
  left : Left n retrying t j w

/-- A round after which the next finds what it needs. -/
abbrev EndsGoing (u : Chars) (E : Int → Prop) (limits : Limits) (n : Nat) (retrying : Bool)
    (t : TaskId) (call : Call Round) (w : World) : Prop :=
  Ends (handle u) E
    (fun round w => round = .again → Startable E limits t w ∧ Ahead n retrying t w) call w

theorem Going.ack (h : Going E limits n retrying t j w) (hj : j ≠ t) :
    EndsGoing u E limits n retrying t (ack j >>= fun _ => pure .again) w :=
  fun _ _ _ => ⟨h.startable.same rfl rfl, h.left.ack hj⟩

theorem Going.delayClaimed (h : Going E limits n retrying t j w) (score : Int) :
    EndsGoing u E limits n retrying t (delayClaimed j score >>= fun _ => pure .again) w := by
  rw [Queue.delayClaimed, Prog.bind_assoc]
  exact ends_isRetryTask fun _ _ _ => ⟨h.startable.same rfl rfl, h.left.ahead⟩

theorem Going.markRunning (h : Going E limits n retrying t j w) (hj : j ≠ t) (worker : WorkerId) :
    Ends (handle u) E (fun running w => running = some false → Going E limits n retrying t j w)
      (markRunning j worker limits) w := by
  refine ends_markRunning (fun _ _ => h) (fun _ _ hfalse => nomatch hfalse) ?_
  intro _ m hm time now o hrefused
  simp only [o, handle, hm, Option.some.injEq] at hrefused ⊢
  rw [claimTask_refused hrefused]
  exact ⟨h.startable.setTask hj hm ⟨rfl, id⟩, h.left⟩

/-- The claim is done, or has dropped or delayed another task. -/
theorem claimMoved_other (h : Going E limits n retrying t j w) (hj : j ≠ t) (worker : WorkerId) :
    EndsGoing u E limits n retrying t (claimMoved j worker limits) w := by
  refine ends_getMeta ?_
  cases w.tasks.get? j with
  | none => exact h.ack hj
  | some m =>
    by_cases hwaiting : Waiting m
    · simp only [hwaiting, not_true_eq_false, if_false]
      refine ends_clock fun time _ => ?_
      cases m.nextAttemptAt.filter (fun next => decide (time < next)) with
      | some next => exact h.delayClaimed next
      | none =>
        refine (h.markRunning hj worker).bind fun running w hrunning => ?_
        match running, hrunning with
        | none, _ => exact fun hfalse => nomatch hfalse
        | some false, hrunning =>
          simp only
          split
          · exact ends_clock fun time _ => (hrunning rfl).delayClaimed _
          · exact (hrunning rfl).ack hj
        | some true, _ => exact ends_clock fun _ _ _ _ hfalse => nomatch hfalse
    · simp only [hwaiting, not_false_eq_true, if_true]
      exact h.ack hj

/-- The rounds take from the preferred list, or nothing. -/
theorem claimLoopFrom_prefers (hstart : Startable E limits t w) (hahead : Ahead n retrying t w)
    (worker : WorkerId) :
    Ends (handle u) E (fun claimed _ => ∀ i fromRetry, claimed = some (i, fromRetry) → fromRetry = retrying)
      (claimLoopFrom worker limits retrying n) w := by
  induction n generalizing w with
  | zero => exact fun _ _ hfalse => absurd hfalse.symm (Option.some_ne_none _)
  | succ n ih =>
    obtain ⟨j, hmoved, hleft⟩ := hahead.lmove
    refine ends_op fun now _ => ?_
    simp only [handle, hmoved]
    have hkept : Startable E limits t { w with redis := (w.redis.lmove retrying).2 } :=
      hstart.same rfl rfl
    by_cases hj : j = t
    · subst hj
      refine (claimMoved_self hkept worker).bind ?_
      rintro round w rfl i fromRetry heq
      exact (Prod.mk.inj (Option.some.inj heq)).2.symm
    · refine (claimMoved_other ⟨hkept, hleft hj⟩ hj worker).bind fun round w hround => ?_
      cases round with
      | again => exact ih (hround rfl).1 (hround rfl).2
      | raised => exact fun _ _ hfalse => absurd hfalse.symm (Option.some_ne_none _)
      | claimed i => exact fun _ _ heq => (Prod.mk.inj (Option.some.inj heq)).2.symm

/-- A claim that could take a task of the kind that it prefers takes no task of the other kind. -/
theorem claimFrom_prefers {streak : Nat} (h : Claimable E limits retrying t w)
    (hprefer : decide (3 ≤ streak) = retrying) (worker : WorkerId) :
    Ends (handle u) E (fun claimed _ => ∀ i fromRetry, claimed = some (i, fromRetry) → fromRetry = retrying)
      (claimFrom worker limits streak) w := by
  subst hprefer
  exact (claimable_recover h).bind fun _ _ h => (claimable_promote h).bind fun _ _ h =>
    claimLoopFrom_prefers h.1 h.2 worker

end Preferred

end FetchTask.Queue
