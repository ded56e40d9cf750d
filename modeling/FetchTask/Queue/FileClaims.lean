import FetchTask.Queue.Preference
import FetchTask.Queue.Workers

/-!
`claim_next_pending`, the claim of the file queue (`app/store.py`).

There are no lists here: a claim reads all records, sorts the pending ones by their
kind, and goes through the kind that the streak prefers first. What keeps it from a
task (the time, the limit of the owner, a cancellation) makes it go on to the next.
-/

namespace FetchTask.Queue

open Prog Store

/-! ### `claim_next_pending` -/

/-- What a claim is called with. `locked`: another claimer keeps the claim lock until the deadline
has passed; `postgres`: the records are in the database, where `mark_running` counts again. -/
structure FileClaim where
  worker : WorkerId
  claimed : List TaskId := []
  counts : String → Int := fun _ => 0
  limits : Limits := fun _ => none
  locked : Bool := false
  postgres : Bool := false

namespace FileClaim

variable (c : FileClaim)

/-- `active_counts.get(owner, 0)` for an owner that is not empty. -/
def activeCount (rows : List (TaskId × Meta)) (owner : String) : Int :=
  max (max 0 (c.counts owner))
    (rows.countP fun p => p.2.status == .running && p.2.ownerTokenHash == owner : Nat)

def ownerFull (rows : List (TaskId × Meta)) (owner : String) : Bool :=
  owner != "" && (c.limits owner).any fun limit => decide (limit ≤ c.activeCount rows owner)

/-- The pending tasks that the process has not claimed. -/
def candidates (rows : List (TaskId × Meta)) : List (TaskId × Meta) :=
  (rows.filter fun p => decide (p.1 ∉ c.claimed) && p.2.status == .pending).insertionSort
    fun p q => rowBefore p q = true

end FileClaim

/-- The order in which the candidates are tried. -/
def byPreference (streak : Nat) (candidates : List (TaskId × Meta)) : List (TaskId × Meta) :=
  let initial := candidates.filter fun p => !metaIsRetry p.2
  let retries := candidates.filter fun p => metaIsRetry p.2
  if 3 ≤ streak ∧ retries ≠ [] then retries ++ initial else initial ++ retries

/-- The records of the listed tasks, as far as they are still there. -/
def readListed : List TaskId → ProcessCall (List (TaskId × Meta))
  | [] => pure []
  | t :: ts =>
    queue (op (.getMeta t)) >>= fun m =>
    readListed ts >>= fun rows =>
    pure (m.elim rows fun m => (t, m) :: rows)

/-- The loop over the candidates; a task that has disappeared meanwhile raises. -/
def claimCandidates (c : FileClaim) (full : String → Bool) (streak : Nat) :
    List (TaskId × Meta) → ProcessCall (Option TaskId × Nat)
  | [] => pure (none, streak)
  | (t, m) :: rows =>
    queue (op (.readPaused t)) >>= fun paused =>
    if paused then pure (none, streak)
    else
      queue (op (.clock t)) >>= fun now =>
      if m.nextAttemptAt.any fun next => decide (now < next) then claimCandidates c full streak rows
      else
        queue (op (.clock t)) >>= fun now =>
        if m.isTaskExpired now then
          queue (expireTaskIfTimeout t) >>= fun expired =>
          if expired.isNone then pure (none, streak) else claimCandidates c full streak rows
        else if full m.ownerTokenHash then claimCandidates c full streak rows
        else if m.cancelRequested then claimCandidates c full streak rows
        else
          queue (markRunning t c.worker (if c.postgres then c.limits else fun _ => none)) >>=
            fun running =>
          match running with
          | none => pure (none, streak)
          | some true => pure (some t, if metaIsRetry m then 0 else streak + 1)
          | some false => claimCandidates c full streak rows

/-- `claim_next_pending`, with the streak that it leaves. -/
def claimNextPending (c : FileClaim) (streak : Nat) : ProcessCall (Option TaskId × Nat) :=
  queue (op (.readPaused "")) >>= fun paused =>
  if paused || c.locked then pure (none, streak)
  else
    queue (op (.readPaused "")) >>= fun paused =>
    if paused then pure (none, streak)
    else
      own .listTasks >>= fun listed =>
      expireListed listed >>= fun found =>
      if !found then pure (none, streak)
      else
        readListed (listed.map Prod.fst) >>= fun rows =>
        claimCandidates c (c.ownerFull rows) streak (byPreference streak (c.candidates rows))

/-- One atomic step of the process that claims. -/
def fileHandle (u : Chars) (e : Moment) : (o : ProcessSig.Op) → World → ProcessSig.Res o × World
  | .inl o, w => handle u e.now o w
  | .inr o, w => workerHandle instanceOf "" e o w

/-- The streak that a claim leaves goes by the record of the task that it returns. -/
def Counted (streak : Nat) (result : Option TaskId × Nat) (w : World) : Prop :=
  (result.1 = none ∧ result.2 = streak) ∨
    ∃ t m, result.1 = some t ∧ w.tasks.get? t = some m ∧
      result.2 = if metaIsRetry m then 0 else streak + 1

/-- What a claim returns, if anything, is of the kind. -/
def TakesKind (streak : Nat) (retrying : Bool) (result : Option TaskId × Nat) : Prop :=
  result.1 ≠ none → result.2 = if retrying then 0 else streak + 1

theorem Counted.none {streak : Nat} {w : World} : Counted streak (Option.none, streak) w :=
  .inl ⟨rfl, rfl⟩

theorem TakesKind.none {streak : Nat} {retrying : Bool} :
    TakesKind streak retrying (Option.none, streak) := fun hfalse => absurd rfl hfalse

section Alone

variable {u : Chars} {E : Int → Prop} {w w' : World} {t j : TaskId} {m : Meta} {c : FileClaim}
  {α β : Type} {Q : α → World → Prop}

abbrev FileEnds (u : Chars) (E : Int → Prop) (Q : α → World → Prop) (call : ProcessCall α)
    (w : World) : Prop :=
  Ends (fileHandle u) (fun e => E e.now) Q call w

theorem fileEnds_queue {R : β → World → Prop} {call : Call α} {f : α → ProcessCall β}
    (h : Ends (handle u) E Q call w) (hf : ∀ a w, Q a w → FileEnds u E R (f a) w) :
    FileEnds u E R (queue call >>= f) w :=
  (Ends.inl (T := WorkerSig) (fun e : Moment => e.now) (fun _ _ _ => rfl) (fun _ he => he) h).bind hf

section Reads

theorem fileEnds_clock {about : Option TaskId} {f : Int → ProcessCall α}
    (h : ∀ now, E now → FileEnds u E Q (f now) w) :
    FileEnds u E Q (queue (op (.clock about)) >>= f) w := fun e he => h e.now he

theorem fileEnds_getMeta {f : Option Meta → ProcessCall α}
    (h : FileEnds u E Q (f (w.tasks.get? t)) w) :
    FileEnds u E Q (queue (op (.getMeta t)) >>= f) w := fun _ _ => h

theorem fileEnds_readPaused {f : Bool → ProcessCall α} (h : FileEnds u E Q (f w.paused) w) :
    FileEnds u E Q (queue (op (.readPaused t)) >>= f) w := fun _ _ => h

/-- The rows of `list_tasks`. -/
def listedTasks (w : World) : List (TaskId × Meta) :=
  w.tasks.items.insertionSort fun p q => createdAfter p q = true

theorem fileEnds_listTasks {f : List (TaskId × Meta) → ProcessCall α}
    (h : FileEnds u E Q (f (listedTasks w)) w) : FileEnds u E Q (own .listTasks >>= f) w :=
  fun _ _ => h

end Reads

/-! ### What is claimed -/

theorem keepsKind_markFailed (reason : String) (time : Int) :
    (Op.write t (.markFailed reason time)).KeepsKind u := by
  intro m
  simp only [StoreOp.apply, markFailed, Meta.appendAttemptHistory]
  split
  · rfl
  · split <;> rfl

/-- Each row is of the kind that the record of its task has now. -/
def KindsKnown (rows : List (TaskId × Meta)) (w : World) : Prop :=
  ∀ p ∈ rows, IsKind (metaIsRetry p.2) p.1 w

theorem kinds_expireTaskIfTimeout {rows : List (TaskId × Meta)} (h : KindsKnown rows w) :
    Ends (handle u) E (fun _ => KindsKnown rows) (expireTaskIfTimeout t) w := by
  refine ends_getMeta ?_
  cases w.tasks.get? t with
  | none => exact h
  | some m =>
    refine ends_clock fun now _ => ?_
    split
    · refine ends_loadResult ?_
      split
      · exact h
      · exact ends_clock fun time _ _ _ p hp => (h p hp).act (keepsKind_markFailed _ time)
    · exact h

theorem kinds_markRunning {rows : List (TaskId × Meta)} (h : KindsKnown ((t, m) :: rows) w)
    (worker : WorkerId) (limits : Limits) :
    Ends (handle u) E (fun running w => KindsKnown rows w ∧ (running = some true →
      ∃ m', w.tasks.get? t = some m' ∧ metaIsRetry m' = metaIsRetry m))
      (markRunning t worker limits) w := by
  have hrest : KindsKnown rows w := fun p hp => h p (List.mem_cons_of_mem _ hp)
  refine ends_markRunning (fun _ => ⟨hrest, nofun⟩) (fun _ _ => ⟨hrest, nofun⟩) ?_
  intro _ found hget time now o
  have hkind : IsKind (metaIsRetry m) t (handle u now o w).2 :=
    (h (t, m) List.mem_cons_self).act trivial
  obtain ⟨m', hm'⟩ := Option.isSome_iff_exists.mp (claimTask_found (u := u) hget)
  exact ⟨fun p hp => (hrest p hp).act trivial, fun _ => ⟨m', hm', hkind m' hm'⟩⟩

theorem kinds_claimCandidates {full : String → Bool} {streak : Nat} {rows : List (TaskId × Meta)}
    (h : KindsKnown rows w) :
    FileEnds u E (Counted streak) (claimCandidates c full streak rows) w := by
  induction rows generalizing w with
  | nil => exact .none
  | cons row rows ih =>
    obtain ⟨t, m⟩ := row
    have hrest : KindsKnown rows w := fun p hp => h p (List.mem_cons_of_mem _ hp)
    refine fileEnds_readPaused ?_
    split
    · exact Counted.none
    refine fileEnds_clock fun now _ => ?_
    split
    · exact ih hrest
    refine fileEnds_clock fun now _ => ?_
    split
    · refine fileEnds_queue (kinds_expireTaskIfTimeout hrest) fun expired w hrest => ?_
      split
      · exact Counted.none
      · exact ih hrest
    split
    · exact ih hrest
    split
    · exact ih hrest
    refine fileEnds_queue (kinds_markRunning h _ _) ?_
    rintro running w ⟨hrest, hrunning⟩
    match running, hrunning with
    | Option.none, _ => exact Counted.none
    | some false, _ => exact ih hrest
    | some true, hrunning =>
      obtain ⟨m', hget, hkind⟩ := hrunning rfl
      exact Or.inr ⟨t, m', rfl, hget, by rw [hkind]⟩

theorem ends_readListed (ts : List TaskId) :
    FileEnds u E (fun rows w' => w' = w ∧
      rows = ts.filterMap fun t => (w.tasks.get? t).map fun m => (t, m)) (readListed ts) w := by
  induction ts with
  | nil => exact ⟨rfl, rfl⟩
  | cons t ts ih =>
    refine fileEnds_getMeta (ih.bind ?_)
    rintro rows w' ⟨rfl, rfl⟩
    refine ⟨rfl, ?_⟩
    cases hget : w'.tasks.get? t <;> simp [hget]

theorem mem_byPreference {streak : Nat} {rows : List (TaskId × Meta)} {p : TaskId × Meta} :
    p ∈ byPreference streak rows ↔ p ∈ rows := by
  simp only [byPreference]
  split <;> cases hkind : metaIsRetry p.2 <;> simp [hkind]

theorem mem_candidates {rows : List (TaskId × Meta)} {p : TaskId × Meta} :
    p ∈ c.candidates rows ↔ p ∈ rows ∧ p.1 ∉ c.claimed ∧ p.2.status = .pending := by
  simp [FileClaim.candidates]

/-- Every claim counts what it takes. -/
theorem counted_claimNextPending (streak : Nat) :
    FileEnds u E (Counted streak) (claimNextPending c streak) w := by
  refine fileEnds_readPaused ?_
  split
  · exact Counted.none
  refine fileEnds_readPaused ?_
  split
  · exact Counted.none
  refine fileEnds_listTasks ((Ends.trivial _ _).bind fun found w _ => ?_)
  split
  · exact Counted.none
  refine (ends_readListed _).bind ?_
  rintro rows w' ⟨rfl, rfl⟩
  refine kinds_claimCandidates fun p hp => ?_
  obtain ⟨hrow, -, -⟩ := mem_candidates.mp (mem_byPreference.mp hp)
  obtain ⟨t, -, hget⟩ := List.mem_filterMap.mp hrow
  obtain ⟨m, hm, rfl⟩ := Option.map_eq_some_iff.mp hget
  intro m' hm'
  rw [Option.some.inj (hm.symm.trans hm')]

/-! ### What it prefers -/

/-- Nothing keeps a claim at the times `E` from starting the task. -/
structure FileStartable (E : Int → Prop) (c : FileClaim) (t : TaskId) (m : Meta) (w : World) :
    Prop where
  unpaused : w.paused = false
  record : w.tasks.get? t = some m
  waiting : Waiting m
  passed : ∀ next ∈ m.nextAttemptAt, ∀ now, E now → next ≤ now
  alive : ∀ now, E now → m.isTaskExpired now = false
  below : m.ownerTokenHash ≠ "" → ∀ limit ∈ c.limits m.ownerTokenHash,
    max (max 0 (c.counts m.ownerTokenHash)) (ownerActive w.tasks m.ownerTokenHash) < limit

theorem FileStartable.keep (h : FileStartable E c t m w) (hpaused : w'.paused = w.paused)
    (hget : w'.tasks.get? t = w.tasks.get? t)
    (hactive : ∀ owner, ownerActive w'.tasks owner ≤ ownerActive w.tasks owner) :
    FileStartable E c t m w' where
  unpaused := hpaused.trans h.unpaused
  record := hget.trans h.record
  waiting := h.waiting
  passed := h.passed
  alive := h.alive
  below hne limit hlimit := by
    have hlt := h.below hne limit hlimit
    have hle := hactive m.ownerTokenHash
    omega

theorem FileStartable.setTask (h : FileStartable E c t m w) {n n' : Meta} (hj : j ≠ t ∨ n' = n)
    (hn : w.tasks.get? j = some n) (hstays : Claims.StaysOut n n') :
    FileStartable E c t m (w.setTask j n') := by
  refine h.keep rfl ?_ (ownerActive_set_le hn hstays)
  rw [World.setTask, Dict.get?_set]
  split
  · rename_i heq
    subst heq
    rcases hj with hj | rfl
    · exact absurd rfl hj
    · exact hn.symm
  · rfl

theorem startable_expireTaskIfTimeout (h : FileStartable E c t m w) :
    Ends (handle u) E (fun _ => FileStartable E c t m) (expireTaskIfTimeout j) w := by
  refine ends_getMeta ?_
  cases hget : w.tasks.get? j with
  | none => exact h
  | some n =>
    refine ends_clock fun now hnow => ?_
    by_cases hexpired : n.isTaskExpired now = true
    · have hj : j ≠ t := by
        rintro rfl
        obtain rfl := Option.some.inj (hget.symm.trans h.record)
        cases hexpired.symm.trans (h.alive now hnow)
      simp only [hexpired, if_true]
      refine ends_loadResult ?_
      split
      · exact h
      · refine ends_clock fun time _ _ _ => ?_
        simp only [handle, hget]
        exact h.setTask (.inl hj) hget (Claims.mutate_staysOut u ⟨.markFailed _ time, rfl⟩ n)
    · simp only [hexpired]
      exact h

theorem startable_expireListed (rows : List (TaskId × Meta)) (h : FileStartable E c t m w) :
    FileEnds u E (fun _ => FileStartable E c t m) (expireListed rows) w := by
  induction rows generalizing w with
  | nil => exact h
  | cons row rows ih =>
    refine fileEnds_clock fun now _ => ?_
    split
    · refine fileEnds_queue (startable_expireTaskIfTimeout h) fun expired w h => fileEnds_getMeta ?_
      split
      · exact h
      · exact ih h
    · exact ih h

/-- The claim starts the task when it comes to it. -/
theorem markRunning_starts (h : FileStartable E c t m w) :
    Ends (handle u) E (fun running _ => running = some true)
      (markRunning t c.worker (if c.postgres then c.limits else fun _ => none)) w := by
  refine ends_markRunning ?_ ?_ ?_
  · exact fun hpaused => nomatch h.unpaused.symm.trans hpaused
  · exact fun _ hgone => nomatch h.record.symm.trans hgone
  · intro _ m' hm' time now
    obtain rfl := Option.some.inj (h.record.symm.trans hm')
    have hfree : atLimit w.tasks m.ownerTokenHash (if m.ownerTokenHash = "" then none
        else (if c.postgres then c.limits else fun _ => none) m.ownerTokenHash) = false := by
      by_cases hempty : m.ownerTokenHash = ""
      · simp [atLimit, hempty]
      · have hbelow := h.below hempty
        cases hp : c.postgres
        · simp [atLimit, hempty]
        · cases hl : c.limits m.ownerTokenHash with
          | none => simp [atLimit, hempty, hl]
          | some limit =>
            have hlt := hbelow limit hl
            simp only [atLimit, if_neg hempty, if_true, hl, Bool.and_eq_false_iff,
              decide_eq_false_iff_not]
            right
            omega
    simp only [handle, h.record, hfree, claimTask_admitted h.waiting.1 h.waiting.2]

theorem FileStartable.markRunning (h : FileStartable E c t m w) (worker : WorkerId) (limits : Limits) :
    Ends (handle u) E (fun running w => running = some false → FileStartable E c t m w)
      (markRunning j worker limits) w := by
  refine ends_markRunning (fun _ _ => h) (fun _ _ hfalse => nomatch hfalse) ?_
  intro _ n hn time now o hrefused
  simp only [o, handle, hn, Option.some.injEq] at hrefused ⊢
  rw [claimTask_refused hrefused]
  exact h.setTask (.inr rfl) hn ⟨rfl, id⟩

/-- A claim comes to the task at the latest after the tasks that stand before it. -/
theorem claimCandidates_prefers {retrying : Bool} {full : String → Bool} {streak : Nat}
    {front rest : List (TaskId × Meta)} (h : FileStartable E c t m w)
    (hfull : full m.ownerTokenHash = false) (hkind : metaIsRetry m = retrying)
    (hfront : ∀ p ∈ front, metaIsRetry p.2 = retrying) :
    FileEnds u E (fun result _ => TakesKind streak retrying result)
      (claimCandidates c full streak (front ++ (t, m) :: rest)) w := by
  induction front generalizing w with
  | nil =>
    refine fileEnds_readPaused ?_
    simp only [h.unpaused, Bool.false_eq_true, if_false]
    refine fileEnds_clock fun now hnow => ?_
    have hpassed : m.nextAttemptAt.any (fun next => decide (now < next)) = false := by
      rw [Option.any_eq_false]
      intro next hnext
      simpa using h.passed next hnext now hnow
    simp only [hpassed, Bool.false_eq_true, if_false]
    refine fileEnds_clock fun now hnow => ?_
    simp only [h.alive now hnow, hfull, h.waiting.2, Bool.false_eq_true, if_false]
    refine fileEnds_queue (markRunning_starts h) ?_
    rintro running w rfl hsome
    simp only [hkind]
  | cons row front ih =>
    obtain ⟨j, n⟩ := row
    have hn : metaIsRetry n = retrying := hfront (j, n) List.mem_cons_self
    have hgo : ∀ {w}, FileStartable E c t m w → FileEnds u E _ (claimCandidates c full streak _) w :=
      fun h => ih h fun p hp => hfront p (List.mem_cons_of_mem _ hp)
    refine fileEnds_readPaused ?_
    simp only [h.unpaused, Bool.false_eq_true, if_false]
    refine fileEnds_clock fun now _ => ?_
    split
    · exact hgo h
    refine fileEnds_clock fun now _ => ?_
    split
    · refine fileEnds_queue (startable_expireTaskIfTimeout h) fun expired w h => ?_
      split
      · exact TakesKind.none
      · exact hgo h
    split
    · exact hgo h
    split
    · exact hgo h
    refine fileEnds_queue (h.markRunning _ _) fun running w hrunning => ?_
    match running, hrunning with
    | none, _ => exact TakesKind.none
    | some false, hrunning => exact hgo (hrunning rfl)
    | some true, _ => exact fun _ => by simp only [hn]

/-- Tasks of the preferred kind come first. -/
theorem byPreference_split {streak : Nat} {retrying : Bool} {rows : List (TaskId × Meta)}
    (hprefer : decide (3 ≤ streak) = retrying) (hmem : (t, m) ∈ rows)
    (hkind : metaIsRetry m = retrying) :
    ∃ front rest, byPreference streak rows = front ++ (t, m) :: rest ∧
      ∀ p ∈ front, metaIsRetry p.2 = retrying := by
  have hfirst : ∃ rest, byPreference streak rows =
      (rows.filter fun p => metaIsRetry p.2 == retrying) ++ rest := by
    cases retrying with
    | true =>
      have hretries : rows.filter (fun p => metaIsRetry p.2) ≠ [] :=
        List.ne_nil_of_mem (List.mem_filter.mpr ⟨hmem, hkind⟩)
      refine ⟨rows.filter fun p => !metaIsRetry p.2, ?_⟩
      simp only [byPreference, of_decide_eq_true hprefer, hretries, ne_eq, not_false_eq_true,
        and_self, if_true, beq_true]
    | false =>
      have hstreak : ¬ 3 ≤ streak := of_decide_eq_false hprefer
      refine ⟨rows.filter fun p => metaIsRetry p.2, ?_⟩
      simp only [byPreference, hstreak, false_and, if_false, beq_false]
  obtain ⟨others, hothers⟩ := hfirst
  have hin : (t, m) ∈ rows.filter fun p => metaIsRetry p.2 == retrying :=
    List.mem_filter.mpr ⟨hmem, by simp [hkind]⟩
  obtain ⟨front, rest, hsplit⟩ := List.append_of_mem hin
  refine ⟨front, rest ++ others, ?_, fun p hp => ?_⟩
  · rw [hothers, hsplit, List.append_assoc, List.cons_append]
  · have hfilter : p ∈ rows.filter fun p => metaIsRetry p.2 == retrying := by
      rw [hsplit]
      exact List.mem_append_left _ hp
    simpa using (List.mem_filter.mp hfilter).2

/-- The rows that are read count no more running tasks than there are. -/
theorem countP_readListed_le {ts : List TaskId} (hts : ts.Nodup) (owner : String) :
    (((ts.filterMap fun t => (w.tasks.get? t).map fun m => (t, m)).countP
      fun p => p.2.status == .running && p.2.ownerTokenHash == owner : Nat) : Int) ≤
        ownerActive w.tasks owner := by
  have hnodup : (ts.filterMap fun t => (w.tasks.get? t).map fun m => (t, m)).Nodup := by
    refine List.Nodup.filterMap (fun t j p ht hj => ?_) hts
    obtain ⟨_, -, hleft⟩ := Option.map_eq_some_iff.mp ht
    obtain ⟨_, -, hright⟩ := Option.map_eq_some_iff.mp hj
    exact (Prod.mk.inj (hleft.trans hright.symm)).1
  have hin : (ts.filterMap fun t => (w.tasks.get? t).map fun m => (t, m)) ⊆ w.tasks.items := by
    intro p hp
    obtain ⟨t, -, ht⟩ := List.mem_filterMap.mp hp
    obtain ⟨m, hm, rfl⟩ := Option.map_eq_some_iff.mp ht
    exact w.tasks.get?_eq_some_iff.mp hm
  have hle := (List.subperm_of_subset hnodup hin).countP_le
    fun p => p.2.ownerTokenHash == owner && p.2.status == .running
  rw [ownerActive]
  simp only [Bool.and_comm] at hle ⊢
  exact_mod_cast hle

theorem FileStartable.not_full {rows : List (TaskId × Meta)} (h : FileStartable E c t m w)
    (hcount : ∀ owner, ((rows.countP
      fun p => p.2.status == .running && p.2.ownerTokenHash == owner : Nat) : Int) ≤
        ownerActive w.tasks owner) :
    c.ownerFull rows m.ownerTokenHash = false := by
  by_cases hempty : m.ownerTokenHash = ""
  · simp [FileClaim.ownerFull, hempty]
  · have hbelow : ∀ limit ∈ c.limits m.ownerTokenHash,
        c.activeCount rows m.ownerTokenHash < limit := by
      intro limit hlimit
      have hlt := h.below hempty limit hlimit
      have hle := hcount m.ownerTokenHash
      rw [FileClaim.activeCount]
      omega
    have hnone : (c.limits m.ownerTokenHash).any
        (fun limit => decide (limit ≤ c.activeCount rows m.ownerTokenHash)) = false := by
      rw [Option.any_eq_false]
      intro limit hlimit
      simpa using hbelow limit hlimit
    rw [FileClaim.ownerFull, hnone, Bool.and_false]

/-- A claim that could take a task of the kind that it prefers takes no task of the other kind. -/
theorem claimNextPending_prefers {retrying : Bool} {streak : Nat} (h : FileStartable E c t m w)
    (hclaimed : t ∉ c.claimed) (hkind : metaIsRetry m = retrying)
    (hprefer : decide (3 ≤ streak) = retrying) :
    FileEnds u E (fun result _ => TakesKind streak retrying result) (claimNextPending c streak) w := by
  refine fileEnds_readPaused ?_
  split
  · exact TakesKind.none
  refine fileEnds_readPaused ?_
  split
  · exact TakesKind.none
  refine fileEnds_listTasks ((startable_expireListed _ h).bind fun found w' h' => ?_)
  split
  · exact TakesKind.none
  refine (ends_readListed _).bind ?_
  rintro rows w' ⟨rfl, rfl⟩
  have hperm : (listedTasks w).Perm w.tasks.items := List.perm_insertionSort _ _
  have hrow : (t, m) ∈ ((listedTasks w).map Prod.fst).filterMap
      fun t => (w'.tasks.get? t).map fun m => (t, m) := by
    refine List.mem_filterMap.mpr ⟨t, ?_, by rw [h'.record]; rfl⟩
    exact List.mem_map_of_mem (hperm.mem_iff.mpr (w.tasks.get?_eq_some_iff.mp h.record))
  have hnodup : ((listedTasks w).map Prod.fst).Nodup := (hperm.map _).nodup_iff.mpr w.tasks.nodup
  obtain ⟨front, rest, hsplit, hfront⟩ := byPreference_split hprefer
    (mem_candidates.mpr ⟨hrow, hclaimed, h.waiting.1⟩) hkind
  rw [hsplit]
  exact claimCandidates_prefers h' (h'.not_full fun owner => countP_readListed_le hnodup owner) hkind
    hfront

end Alone

end FetchTask.Queue
