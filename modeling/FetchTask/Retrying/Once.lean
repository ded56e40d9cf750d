import FetchTask.Lib.Tally
import FetchTask.Retrying.Stages

/-!
A failed task is retried at most once and completely, where retries do not overlap.

A retry reads the status of the task and then claims nothing: another retry that has
read the same status creates a second replacement, and may list the images of the task
while the first one deletes them. `Orderly` says where this does not happen: no request
reads a failed task while another one is retrying it. What carries the invariant is that
a retry ends either with a replacement that is neither charged nor pending, or without
the failed task, which no later request can then read.
-/

namespace FetchTask.Retrying

open Runs Knowledge Tally Store Scheduling

/-! ### The law -/

/-- The task is stored, and failed. -/
def Storage.Failed (before : Storage) (t : TaskId) : Prop :=
  ∃ task, before.tasks t = some task ∧ task.status = .failed

namespace World

variable (w : World) (t : TaskId)

def createdIds : List TaskId := w.created.map Prod.snd

/-- What retries have created for a task. -/
def replacements : List TaskId := (w.created.filter fun e => e.1 == t).map Prod.snd

def openedIds : List TaskId := w.opened.map Opened.task

/-- The replacement has become pending, or is charged. -/
def Live : Prop := t ∈ w.openedIds ∨ w.reservations t = some .reserved

end World

/-- Every task that had failed `before` has at most one replacement that became pending and at most
one that is charged, and one that became pending had all the images. -/
structure RetriedOnce (before : Storage) (w : World) : Prop where
  pending : ∀ o, before.Failed o → (w.replacements o).countP (fun t => decide (t ∈ w.openedIds)) ≤ 1
  charged : ∀ o, before.Failed o →
    (w.replacements o).countP (fun t => decide (w.reservations t = some .reserved)) ≤ 1
  images : ∀ o, before.Failed o → ∀ entry ∈ w.opened, entry.task ∈ w.replacements o →
    entry.images.length = (before.images o).length ∧
      entry.imageCount = (before.images o).length

/-- No task has ever had the identifier. -/
structure Unused (before : Storage) (w : World) (t : TaskId) : Prop where
  before : before.tasks t = none
  created : t ∉ w.createdIds
  task : w.tasks t = none
  images : w.images t = []
  reservation : w.reservations t = none

/-- No other request is retrying the task. -/
def Alone (known : Nat → Stage) (i : Nat) (t : TaskId) : Prop :=
  ∀ j, j ≠ i → (known j).retries ≠ some t

/-- A failed task is read while no other request is retrying it; and neither does a reservation or
`finalize_task_creation` raise after it has taken effect, nor a refund before it has, nor the
deletion of the original at all. -/
def Orderly (alone : TaskId → Prop) (before : Storage) (e : Env) : RetryOp → World → Prop
  | .readMeta t, w => (∃ task ∈ w.tasks t, task.status = .failed) → alone t
  | .createTask .., w => Unused before w e.fresh
  | .reserve _, _ | .finalize _, _ => ∀ fault ∈ e.fault, fault.done = false
  | .refund _, _ => ∀ fault ∈ e.fault, fault.done = true
  | .deleteRow .original _, _ | .listEntries .original _, _ | .unlink .original .., _ =>
    e.fault = none
  | _, _ => True

/-! ### The invariant -/

variable {before : Storage} {w w' : World} {t : TaskId} {known : Nat → Stage} {i : Nat} {s : Stage}
  {k : Work} {b : Backend} {e : Env}

/-- What holds of the stored tasks, whatever the retries know. -/
structure Facts (before : Storage) (w : World) : Prop where
  fresh : ∀ t ∈ w.createdIds, before.tasks t = none
  nodup : w.createdIds.Nodup
  young : ∀ t ∈ w.createdIds, ∀ task, w.tasks t = some task →
    task.status = .initializing ∨ task.status = .pending
  old : ∀ t, t ∉ w.createdIds → ∀ task, w.tasks t = some task → before.tasks t = some task
  single : ∀ o, before.Failed o → ∀ t ∈ w.replacements o, ∀ t' ∈ w.replacements o,
    w.Live t → w.Live t' → t = t'
  kept : ∀ t ∈ w.openedIds, t ∈ w.createdIds ∧
    ∃ task, w.tasks t = some task ∧ task.status = .pending
  whole : ∀ o, before.Failed o → (∀ t ∈ w.replacements o, t ∉ w.openedIds) →
    w.images o = before.images o
  copied : ∀ o, before.Failed o → ∀ entry ∈ w.opened, entry.task ∈ w.replacements o →
    entry.images.length = (before.images o).length ∧
      entry.imageCount = (before.images o).length

/-- How the files of a replacement go with the listing. -/
def Copies (before : Storage) (w : World) (k : Work) : Copying → Prop
  | .unlisted => w.images k.task = []
  | .copying names copied => (w.images k.task).length = copied ∧
    (∀ file ∈ w.images k.task, file.index ≤ copied) ∧
      (before.Failed k.original → names = before.images k.original)
  | .spoiled => True

/-- How many images the replacement says it has. -/
def Counted (k : Work) (task : Task) : Prop :=
  k.counted = true → ∀ names copied, k.copying = .copying names copied →
    task.imageCount = names.length

/-- A retry has a replacement in hand, which alone may be charged or pending. -/
structure Working (before : Storage) (w : World) (k : Work) : Prop where
  original : before.tasks k.original ≠ none
  failed : k.failed = true ↔ before.Failed k.original
  mine : k.task ∈ w.replacements k.original
  task : ∃ task, w.tasks k.task = some task ∧ task.status = .initializing ∧ Counted k task
  unpaid : k.paid = false → w.reservations k.task ≠ some .reserved
  copies : Copies before w k k.copying
  sole : k.failed = true → ∀ t ∈ w.replacements k.original, t ≠ k.task → ¬ w.Live t

/-- A replacement of the failed task has become pending. -/
def Begun (before : Storage) (w : World) (o : TaskId) : Prop :=
  before.Failed o ∧ ∃ t ∈ w.replacements o, t ∈ w.openedIds

def Knows (b : Backend) (before : Storage) (w : World) : Stage → Prop
  | .idle => True
  | .read o failed => before.tasks o ≠ none ∧ (failed = true ↔ before.Failed o) ∧
    (failed = true → ∀ t ∈ w.replacements o, ¬ w.Live t)
  | .working k => Working before w k
  | .discarding t => t ∈ w.createdIds ∧ t ∉ w.openedIds ∧ w.reservations t ≠ some .reserved
  | .opened o => Begun before w o
  | .rowGone o => Begun before w o ∧ (b = .postgres → w.tasks o = none)
  | .deleting o entries => Begun before w o ∧ (w.tasks o = none ∨ .metaFile ∈ entries)

/-- Retries do not share what they retry or create; and a failed task with a replacement that is
charged or pending is gone, or still being retried. -/
structure Kept (b : Backend) (before : Storage) (w : World) (known : Nat → Stage) : Prop where
  facts : Facts before w
  knows : ∀ i, Knows b before w (known i)
  distinct : ∀ i j, i ≠ j → ∀ t, (known i).task = some t → (known j).task ≠ some t
  alone : ∀ i j, i ≠ j → ∀ o, (known i).retries = some o → (known j).retries ≠ some o
  settled : ∀ o, before.Failed o → ∀ t ∈ w.replacements o, w.Live t →
    w.tasks o = none ∨ ∃ i, (known i).retries = some o

/-! #### Small facts -/

theorem mem_replacements {o : TaskId} : t ∈ w.replacements o ↔ (o, t) ∈ w.created := by
  simp [World.replacements]

theorem mem_createdIds : t ∈ w.createdIds ↔ ∃ o, t ∈ w.replacements o := by
  simp [World.createdIds, mem_replacements]

theorem createdIds_of_mem {o : TaskId} (h : t ∈ w.replacements o) : t ∈ w.createdIds :=
  mem_createdIds.mpr ⟨o, h⟩

theorem replacements_sublist (w : World) (o : TaskId) : (w.replacements o).Sublist w.createdIds :=
  (List.filter_sublist).map _

theorem failed_stored {o : TaskId} (h : before.Failed o) : before.tasks o ≠ none := by
  obtain ⟨task, htask, -⟩ := h
  rw [htask]
  exact Option.some_ne_none task

/-- What is retried is no replacement. -/
theorem Facts.not_created (h : Facts before w) {o : TaskId} (ho : before.tasks o ≠ none) :
    o ∉ w.createdIds := fun hin => ho (h.fresh o hin)

/-- A replacement is not the failed task. -/
theorem Facts.ne_failed (h : Facts before w) {o : TaskId} (ho : before.Failed o)
    (ht : t ∈ w.createdIds) : o ≠ t := by
  rintro rfl
  exact h.not_created (failed_stored ho) ht

/-- What is initializing has not become pending. -/
theorem Working.not_opened (hworking : Working before w k) (h : Facts before w) :
    k.task ∉ w.openedIds := by
  intro hopened
  obtain ⟨task, hget, hstatus, -⟩ := hworking.task
  obtain ⟨task', hget', hstatus'⟩ := (h.kept _ hopened).2
  rw [hget] at hget'
  obtain rfl := Option.some.inj hget'
  rw [hstatus] at hstatus'
  cases hstatus'

/-- What a retry has in hand has been created, and is not pending. -/
theorem Knows.task (hs : Knows b before w s) (h : Facts before w) (ht : s.task = some t) :
    t ∈ w.createdIds ∧ t ∉ w.openedIds := by
  cases s with
  | idle | read | opened | rowGone | deleting => cases ht
  | working k =>
    obtain rfl : k.task = t := Option.some.inj ht
    exact ⟨createdIds_of_mem hs.mine, Working.not_opened hs h⟩
  | discarding t' =>
    obtain rfl : t' = t := Option.some.inj ht
    exact ⟨hs.1, hs.2.1⟩

theorem retries_working {o : TaskId} :
    (Stage.working k).retries = some o ↔ k.failed = true ∧ k.original = o := by
  unfold Stage.retries
  dsimp only
  split_ifs with hfailed
  · simp [hfailed]
  · simp [hfailed]

/-- What is retried had failed. -/
theorem Knows.failed (hs : Knows b before w s) {o : TaskId} (ho : s.retries = some o) :
    before.Failed o := by
  cases s with
  | idle | discarding => cases ho
  | read o' failed =>
    cases failed with
    | false => cases ho
    | true =>
      obtain rfl := Option.some.inj ho
      exact hs.2.1.mp rfl
  | working k =>
    obtain ⟨hfailed, rfl⟩ := retries_working.mp ho
    exact (Working.failed hs).mp hfailed
  | opened o' =>
    obtain rfl := Option.some.inj ho
    exact hs.1
  | rowGone o' =>
    obtain rfl := Option.some.inj ho
    exact hs.1.1
  | deleting o' entries =>
    obtain rfl := Option.some.inj ho
    exact hs.1.1

/-- A replacement has one original. -/
theorem Facts.original_unique (h : Facts before w) {o o' : TaskId} (ho : t ∈ w.replacements o)
    (ho' : t ∈ w.replacements o') : o = o' := by
  have hsame := List.inj_on_of_nodup_map h.nodup (mem_replacements.mp ho) (mem_replacements.mp ho')
    rfl
  exact congrArg Prod.fst hsame

/-- The failed task of a replacement in hand is being retried. -/
theorem Working.retries (hworking : Working before w k) (h : Facts before w) {o : TaskId}
    (ho : before.Failed o) (hin : k.task ∈ w.replacements o) :
    (Stage.working k).retries = some o := by
  obtain rfl := h.original_unique hworking.mine hin
  exact retries_working.mpr ⟨hworking.failed.mpr ho, rfl⟩

/-- Of a failed task, no other replacement than the one in hand is charged or pending. -/
theorem Working.only (hworking : Working before w k) (h : Facts before w) {o : TaskId}
    (ho : before.Failed o) (hin : k.task ∈ w.replacements o) :
    ∀ t ∈ w.replacements o, t ≠ k.task → ¬ w.Live t := by
  obtain rfl := h.original_unique hworking.mine hin
  exact hworking.sole (hworking.failed.mpr ho)

/-- Where a replacement is in hand, none is pending. -/
theorem Facts.not_opened (h : Facts before w) (hworking : Working before w k)
    (hfailed : before.Failed k.original) :
    ∀ t ∈ w.replacements k.original, t ∉ w.openedIds := by
  intro t ht hopened
  rcases eq_or_ne t k.task with rfl | hne
  · exact hworking.not_opened h hopened
  · exact hworking.only h hfailed hworking.mine t ht hne (.inl hopened)

/-! #### Changes -/

/-- What a retry knows does not depend on what is not its own. -/
theorem Knows.frame (h : Knows b before w s)
    (hcreated : ∀ o, ∀ t ∈ w.replacements o, t ∈ w'.replacements o)
    (hopened : ∀ t ∈ w.openedIds, t ∈ w'.openedIds)
    (hsame : ∀ t, s.task = some t → w'.tasks t = w.tasks t ∧ w'.images t = w.images t ∧
      w'.reservations t = w.reservations t ∧ (t ∈ w'.openedIds → t ∈ w.openedIds))
    (hlive : ∀ o, s.retries = some o → ∀ t ∈ w'.replacements o, w'.Live t →
      t ∈ w.replacements o ∧ w.Live t)
    (hgone : ∀ o, s.retries = some o → w.tasks o = none → w'.tasks o = none) :
    Knows b before w' s := by
  have hbegun : ∀ o, Begun before w o → Begun before w' o := by
    rintro o ⟨ho, t, ht, hin⟩
    exact ⟨ho, t, hcreated o t ht, hopened t hin⟩
  cases s with
  | idle => trivial
  | read o failed =>
    refine ⟨h.1, h.2.1, ?_⟩
    rintro rfl t ht hnow
    obtain ⟨hin, hbefore⟩ := hlive o rfl t ht hnow
    exact h.2.2 rfl t hin hbefore
  | working k =>
    have hworking : Working before w k := h
    obtain ⟨htasks, himages, hreservations, -⟩ := hsame k.task rfl
    refine ⟨hworking.original, hworking.failed, hcreated _ _ hworking.mine, ?_, ?_, ?_, ?_⟩
    · rw [htasks]
      exact hworking.task
    · rw [hreservations]
      exact hworking.unpaid
    · have hcopies := hworking.copies
      cases hcopying : k.copying with
      | unlisted =>
        rw [hcopying] at hcopies
        exact himages.trans hcopies
      | copying names copied =>
        rw [hcopying] at hcopies
        rw [Copies, himages]
        exact hcopies
      | spoiled => trivial
    · intro hfailed t ht hne hnow
      obtain ⟨hin, hbefore⟩ := hlive k.original (retries_working.mpr ⟨hfailed, rfl⟩) t ht hnow
      exact hworking.sole hfailed t hin hne hbefore
  | discarding t =>
    obtain ⟨-, -, hreservations, hback⟩ := hsame t rfl
    obtain ⟨hin, hout, hpaid⟩ := h
    obtain ⟨o, ho⟩ := mem_createdIds.mp hin
    refine ⟨createdIds_of_mem (hcreated o t ho), fun hnow => hout (hback hnow), ?_⟩
    rwa [hreservations]
  | opened o => exact hbegun o h
  | rowGone o => exact ⟨hbegun o h.1, fun hb => hgone o rfl (h.2 hb)⟩
  | deleting o entries => exact ⟨hbegun o h.1, h.2.imp_left (hgone o rfl)⟩

/-- What retries have apart stays so where one of them has something new. -/
theorem apart_update {f : Stage → Option TaskId}
    (h : ∀ i j, i ≠ j → ∀ t, f (known i) = some t → f (known j) ≠ some t)
    (hs : ∀ t, f s = some t → ∀ j, j ≠ i → f (known j) ≠ some t) (j j' : Nat) (hne : j ≠ j')
    (t : TaskId) (ht : f (Function.update known i s j) = some t) :
    f (Function.update known i s j') ≠ some t := by
  rcases eq_or_ne j i with rfl | hj
  · rw [Function.update_self] at ht
    rw [Function.update_of_ne hne.symm]
    exact hs t ht j' hne.symm
  · rw [Function.update_of_ne hj] at ht
    rcases eq_or_ne j' i with rfl | hj'
    · rw [Function.update_self]
      exact fun ht' => hs t ht' j hj ht
    · rw [Function.update_of_ne hj']
      exact h j j' hne t ht

/-- A retry learns something, and the stored tasks change. -/
theorem Kept.turn (h : Kept b before w known) (hfacts : Facts before w')
    (hothers : ∀ j, j ≠ i → Knows b before w' (known j)) (hs : Knows b before w' s)
    (hmine : ∀ t, s.task = some t → ∀ j, j ≠ i → (known j).task ≠ some t)
    (halone : ∀ o, s.retries = some o → ∀ j, j ≠ i → (known j).retries ≠ some o)
    (hsettled : ∀ o, before.Failed o → ∀ t ∈ w'.replacements o, w'.Live t →
      w'.tasks o = none ∨ s.retries = some o ∨ ∃ j, j ≠ i ∧ (known j).retries = some o) :
    Kept b before w' (Function.update known i s) where
  facts := hfacts
  knows j := by
    rcases eq_or_ne j i with rfl | hne
    · rwa [Function.update_self]
    · rw [Function.update_of_ne hne]
      exact hothers j hne
  distinct := apart_update h.distinct hmine
  alone := apart_update h.alone halone
  settled o ho t ht hlive := by
    rcases hsettled o ho t ht hlive with hgone | hme | ⟨j, hne, hj⟩
    · exact .inl hgone
    · exact .inr ⟨i, by rwa [Function.update_self]⟩
    · exact .inr ⟨j, by rwa [Function.update_of_ne hne]⟩

/-- Where a retry is given up, no replacement is left charged or pending. -/
theorem Kept.settles (h : Kept b before w known)
    (hleaves : ∀ o, (known i).retries = some o → s.retries = some o ∨ w.tasks o = none ∨
      ∀ t ∈ w.replacements o, ¬ w.Live t) {o : TaskId} (ho : before.Failed o)
    (ht : t ∈ w.replacements o) (hlive : w.Live t) :
    w.tasks o = none ∨ s.retries = some o ∨ ∃ j, j ≠ i ∧ (known j).retries = some o := by
  rcases h.settled o ho t ht hlive with hgone | ⟨j, hj⟩
  · exact .inl hgone
  · rcases eq_or_ne j i with rfl | hne
    · rcases hleaves o hj with hme | hgone | hnone
      · exact .inr (.inl hme)
      · exact .inl hgone
      · exact absurd hlive (hnone t ht)
    · exact .inr (.inr ⟨j, hne, hj⟩)

/-- A retry learns something. -/
theorem Kept.see (h : Kept b before w known) (hs : Knows b before w s)
    (hmine : ∀ t, s.task = some t → (known i).task = some t)
    (halone : ∀ o, s.retries = some o → ∀ j, j ≠ i → (known j).retries ≠ some o)
    (hleaves : ∀ o, (known i).retries = some o → s.retries = some o ∨ w.tasks o = none ∨
      ∀ t ∈ w.replacements o, ¬ w.Live t) :
    Kept b before w (Function.update known i s) :=
  h.turn h.facts (fun j _ => h.knows j) hs
    (fun t ht j hne => h.distinct i j hne.symm t (hmine t ht)) halone
    fun _ ho _ ht hlive => h.settles hleaves ho ht hlive

/-- A retry learns something of what it is at. -/
theorem Kept.learn (h : Kept b before w known) (hs : Knows b before w s)
    (htask : s.task = (known i).task) (hretries : s.retries = (known i).retries) :
    Kept b before w (Function.update known i s) := by
  refine h.see hs (fun t ht => htask ▸ ht) (fun o ho j hne => ?_) fun o ho => .inl (hretries ▸ ho)
  exact h.alone i j hne.symm o (hretries ▸ ho)

/-- An operation that changes nothing and teaches nothing. -/
theorem Kept.stay (h : Kept b before w known) (hi : known i = s) :
    Kept b before w (Function.update known i s) := by
  subst hi
  exact h.learn (h.knows i) rfl rfl

/-- Nothing changes but what is stored of one task. -/
structure OnlyAt (t : TaskId) (w w' : World) : Prop where
  created : w'.created = w.created
  opened : w'.opened = w.opened
  same : ∀ t', t' ≠ t → w'.tasks t' = w.tasks t' ∧ w'.images t' = w.images t' ∧
    w'.reservations t' = w.reservations t'

namespace OnlyAt

theorem replacements (h : OnlyAt t w w') (o : TaskId) : w'.replacements o = w.replacements o := by
  rw [World.replacements, h.created, World.replacements]

theorem createdIds (h : OnlyAt t w w') : w'.createdIds = w.createdIds := by
  rw [World.createdIds, h.created, World.createdIds]

theorem openedIds (h : OnlyAt t w w') : w'.openedIds = w.openedIds := by
  rw [World.openedIds, h.opened, World.openedIds]

theorem live (h : OnlyAt t w w') {t' : TaskId} (hne : t' ≠ t) : w'.Live t' ↔ w.Live t' := by
  rw [World.Live, h.openedIds, (h.same t' hne).2.2, World.Live]

/-- The other retries know what they knew. -/
theorem knows (h : OnlyAt t w w') (hs : Knows b before w s) (hne : s.task ≠ some t)
    (hlive : ∀ o, s.retries = some o → t ∈ w.replacements o → w'.Live t → w.Live t)
    (hgone : s.retries = some t → w.tasks t = none → w'.tasks t = none) :
    Knows b before w' s := by
  refine hs.frame (fun o t' ht' => h.replacements o ▸ ht') (fun t' ht' => h.openedIds ▸ ht')
    (fun t' ht' => ?_) (fun o ho t' ht' hnow => ?_) fun o ho hnone => ?_
  · have hother : t' ≠ t := by
      rintro rfl
      exact hne ht'
    obtain ⟨htasks, himages, hreservations⟩ := h.same t' hother
    exact ⟨htasks, himages, hreservations, fun hin => h.openedIds ▸ hin⟩
  · rw [h.replacements] at ht'
    refine ⟨ht', ?_⟩
    rcases eq_or_ne t' t with rfl | hother
    · exact hlive o ho ht' hnow
    · exact (h.live hother).mp hnow
  · rcases eq_or_ne o t with rfl | hother
    · exact hgone ho hnone
    · exact (h.same o hother).1.trans hnone

end OnlyAt

/-- What is stored of a replacement that is not pending changes. -/
theorem Facts.change (h : Facts before w) (honly : OnlyAt t w w') (hin : t ∈ w.createdIds)
    (hout : t ∉ w.openedIds)
    (hyoung : ∀ task, w'.tasks t = some task → task.status = .initializing ∨ task.status = .pending)
    (hlone : w'.Live t → ∀ o, before.Failed o → t ∈ w.replacements o →
      ∀ t' ∈ w.replacements o, w.Live t' → t' = t) : Facts before w' := by
  refine ⟨?_, ?_, ?_, ?_, ?_, ?_, ?_, ?_⟩
  · rw [honly.createdIds]
    exact h.fresh
  · rw [honly.createdIds]
    exact h.nodup
  · rw [honly.createdIds]
    intro t' ht' task hget
    rcases eq_or_ne t' t with rfl | hne
    · exact hyoung task hget
    · exact h.young t' ht' task ((honly.same t' hne).1 ▸ hget)
  · rw [honly.createdIds]
    intro t' ht' task hget
    have hne : t' ≠ t := by
      rintro rfl
      exact ht' hin
    exact h.old t' ht' task ((honly.same t' hne).1 ▸ hget)
  · -- a newly charged replacement is the only one, by `hlone`
    intro o ho
    rw [honly.replacements]
    intro t₁ h₁ t₂ h₂ hl₁ hl₂
    rcases eq_or_ne t₁ t with rfl | hne₁
    · rcases eq_or_ne t₂ t₁ with rfl | hne₂
      · rfl
      · exact (hlone hl₁ o ho h₁ t₂ h₂ ((honly.live hne₂).mp hl₂)).symm
    · have hold₁ := (honly.live hne₁).mp hl₁
      rcases eq_or_ne t₂ t with rfl | hne₂
      · exact hlone hl₂ o ho h₂ t₁ h₁ hold₁
      · exact h.single o ho t₁ h₁ t₂ h₂ hold₁ ((honly.live hne₂).mp hl₂)
  · rw [honly.openedIds, honly.createdIds]
    intro t' ht'
    have hne : t' ≠ t := by
      rintro rfl
      exact hout ht'
    rw [(honly.same t' hne).1]
    exact h.kept t' ht'
  · intro o ho
    rw [honly.replacements, honly.openedIds, (honly.same o (h.ne_failed ho hin)).2.1]
    exact h.whole o ho
  · intro o ho
    rw [honly.opened, honly.replacements]
    exact h.copied o ho

/-- A retry changes what is stored of the replacement that it has in hand, which it may charge only
where it works on it. -/
theorem Kept.change (h : Kept b before w known) (ht : (known i).task = some t)
    (honly : OnlyAt t w w')
    (hyoung : ∀ task, w'.tasks t = some task → task.status = .initializing ∨ task.status = .pending)
    (hlive : w'.Live t → w.Live t ∨ ∃ k, known i = .working k)
    (hs : Knows b before w' s) (hmine : ∀ t', s.task = some t' → t' = t)
    (hretries : ∀ o, s.retries = some o → (known i).retries = some o)
    (hleaves : ∀ o, (known i).retries = some o → s.retries = some o ∨
      ∀ t' ∈ w.replacements o, ¬ w'.Live t') : Kept b before w' (Function.update known i s) := by
  obtain ⟨hin, hout⟩ := (h.knows i).task h.facts ht
  -- a failed task whose replacement in hand is newly charged is the one that is being retried
  have hnew : ∀ o, before.Failed o → t ∈ w.replacements o → w'.Live t → w.Live t ∨
      (known i).retries = some o ∧ ∀ t' ∈ w.replacements o, t' ≠ t → ¬ w.Live t' := by
    intro o ho hof hnow
    refine (hlive hnow).imp_right ?_
    rintro ⟨k, hi⟩
    have hworking := h.knows i
    rw [hi] at hworking ht ⊢
    have hworking : Working before w k := hworking
    obtain rfl : k.task = t := Option.some.inj ht
    exact ⟨hworking.retries h.facts ho hof, hworking.only h.facts ho hof⟩
  refine h.turn ?_ (fun j hne => ?_) hs ?_ (fun o ho j hne => ?_) fun o ho t' ht' hnow => ?_
  · refine h.facts.change honly hin hout hyoung fun hnow o ho hof t' ht' hlive' => ?_
    rcases hnew o ho hof hnow with hold | ⟨-, honly'⟩
    · exact h.facts.single o ho t' ht' t hof hlive' hold
    · by_contra hne
      exact honly' t' ht' hne hlive'
  · refine honly.knows (h.knows j) (h.distinct i j hne.symm t ht) (fun o ho hof hnow => ?_)
      fun hretry => ?_
    · rcases hnew o ((h.knows j).failed ho) hof hnow with hold | ⟨hme, -⟩
      · exact hold
      · exact absurd ho (h.alone i j hne.symm o hme)
    · exact absurd rfl (h.facts.ne_failed ((h.knows j).failed hretry) hin)
  · intro t' ht' j hne
    obtain rfl := hmine t' ht'
    exact h.distinct i j hne.symm t' ht
  · exact h.alone i j hne.symm o (hretries o ho)
  · rw [honly.replacements] at ht'
    rw [(honly.same o (h.facts.ne_failed ho hin)).1]
    -- the retry that is at work goes on, or leaves nothing charged or pending
    have hme : (known i).retries = some o → w.tasks o = none ∨ s.retries = some o ∨
        ∃ j, j ≠ i ∧ (known j).retries = some o := fun hmine' =>
      .inr (.inl ((hleaves o hmine').resolve_right fun hnone => hnone t' ht' hnow))
    have hold : w.Live t' → w.tasks o = none ∨ s.retries = some o ∨
        ∃ j, j ≠ i ∧ (known j).retries = some o := by
      intro hlive'
      rcases h.settled o ho t' ht' hlive' with hgone | ⟨j, hj⟩
      · exact .inl hgone
      · rcases eq_or_ne j i with rfl | hne
        · exact hme hj
        · exact .inr (.inr ⟨j, hne, hj⟩)
    rcases eq_or_ne t' t with rfl | hne
    · rcases hnew o ho ht' hnow with hlive' | ⟨hmine', -⟩
      · exact hold hlive'
      · exact hme hmine'
    · exact hold ((honly.live hne).mp hnow)

/-- A part of the failed task is deleted, once a replacement is pending. -/
theorem Kept.deleteOriginal {o : TaskId} (h : Kept b before w known)
    (hretries : (known i).retries = some o) (hbegun : Begun before w o) (honly : OnlyAt o w w')
    (htask : w'.tasks o = w.tasks o ∨ w'.tasks o = none) (hs : Knows b before w' s)
    (hnone : s.task = none)
    (hleaves : s.retries = some o ∨ s.retries = none ∧ w'.tasks o = none) :
    Kept b before w' (Function.update known i s) := by
  obtain ⟨ho, t, ht, hpending⟩ := hbegun
  have hne : ∀ t' ∈ w.createdIds, t' ≠ o := fun t' ht' => (h.facts.ne_failed ho ht').symm
  have hlive : ∀ t' ∈ w.createdIds, (w'.Live t' ↔ w.Live t') := fun t' ht' =>
    honly.live (hne t' ht')
  have hgone : w.tasks o = none → w'.tasks o = none := fun hgone =>
    htask.elim (fun heq => heq.trans hgone) id
  refine h.turn ⟨?_, ?_, ?_, ?_, ?_, ?_, ?_, ?_⟩ (fun j _ => ?_) hs ?_ (fun o' ho' j hj => ?_)
    fun o' ho' t' ht' hnow => ?_
  · rw [honly.createdIds]
    exact h.facts.fresh
  · rw [honly.createdIds]
    exact h.facts.nodup
  · rw [honly.createdIds]
    intro t' ht'
    rw [(honly.same t' (hne t' ht')).1]
    exact h.facts.young t' ht'
  · rw [honly.createdIds]
    intro t' ht' task hget
    rcases eq_or_ne t' o with rfl | hother
    · rcases htask with heq | hnone
      · exact h.facts.old t' ht' task (heq ▸ hget)
      · rw [hnone] at hget
        cases hget
    · exact h.facts.old t' ht' task ((honly.same t' hother).1 ▸ hget)
  · intro o' ho'
    rw [honly.replacements]
    intro t₁ h₁ t₂ h₂ hl₁ hl₂
    exact h.facts.single o' ho' t₁ h₁ t₂ h₂ ((hlive t₁ (createdIds_of_mem h₁)).mp hl₁)
      ((hlive t₂ (createdIds_of_mem h₂)).mp hl₂)
  · rw [honly.openedIds, honly.createdIds]
    intro t' ht'
    rw [(honly.same t' (hne t' (h.facts.kept t' ht').1)).1]
    exact h.facts.kept t' ht'
  · intro o' ho'
    rw [honly.replacements, honly.openedIds]
    intro hnopened
    rcases eq_or_ne o' o with rfl | hother
    -- the images of the original go only after a replacement has become pending
    · exact absurd hpending (hnopened t ht)
    · rw [(honly.same o' hother).2.1]
      exact h.facts.whole o' ho' hnopened
  · intro o' ho'
    rw [honly.opened, honly.replacements]
    exact h.facts.copied o' ho'
  · refine honly.knows (h.knows j) (fun hj => ?_) (fun o' _ hof _ => ?_) fun _ => hgone
    · exact hne o ((h.knows j).task h.facts hj).1 rfl
    · exact absurd rfl (hne o (createdIds_of_mem hof))
  · rw [hnone]
    exact fun t' ht' => by cases ht'
  · rcases hleaves with hmine | ⟨hidle, -⟩
    · obtain rfl : o = o' := Option.some.inj (hmine.symm.trans ho')
      exact h.alone i j hj.symm o hretries
    · rw [hidle] at ho'
      cases ho'
  · rw [honly.replacements] at ht'
    rw [hlive t' (createdIds_of_mem ht')] at hnow
    rcases eq_or_ne o' o with rfl | hother
    · exact hleaves.symm.imp (fun hidle => hidle.2) .inl
    · rw [(honly.same o' hother).1]
      rcases h.settled o' ho' t' ht' hnow with hnone' | ⟨j, hj⟩
      · exact .inl hnone'
      · refine .inr (.inr ⟨j, ?_, hj⟩)
        rintro rfl
        exact hother (Option.some.inj (hj.symm.trans hretries))

/-! #### Operations -/

/-- What an operation leaves, with what the retry learns from its result. -/
def Follows (b : Backend) (before : Storage) (known : Nat → Stage) (i : Nat) (o : RetryOp)
    (r : Except Raised o.Answer) (w : World) : Prop :=
  progress.can o r ∧ Kept b before w (Function.update known i (progress.learn (known i) o r))

/-- An operation takes effect, or raises before it does, or after. -/
theorem handle_cases {o : RetryOp} {P : Except Raised o.Answer → World → Prop}
    (hok : e.fault = none → P (perform b e o w).1 (perform b e o w).2)
    (hskip : ∀ fault ∈ e.fault, fault.done = false → ∀ r : Raised, r.kind ≠ .quotaExceeded →
      P (.error r) w)
    (hdone : ∀ fault ∈ e.fault, fault.done = true → ∀ r : Raised, r.kind ≠ .quotaExceeded →
      P (.error r) (perform b e o w).2) : P (handle b e o w).1 (handle b e o w).2 := by
  unfold handle
  cases hfault : e.fault with
  | none => exact hok hfault
  | some fault =>
    dsimp only
    split_ifs with heffect
    · exact hdone fault hfault heffect fault.raised.1 fault.raised.2
    · exact hskip fault hfault (by simpa using heffect) fault.raised.1 fault.raised.2

/-- The world with a new replacement. -/
def World.create (w : World) (o t : TaskId) (task : Task) : World :=
  { w.setTask t (some task) with created := w.created ++ [(o, t)] }

theorem createdIds_create (w : World) (o t : TaskId) (task : Task) :
    (w.create o t task).createdIds = w.createdIds ++ [t] := by
  simp [World.create, World.createdIds]

theorem mem_replacements_create {o o' t' : TaskId} {task : Task} :
    t' ∈ (w.create o t task).replacements o' ↔ t' ∈ w.replacements o' ∨ o' = o ∧ t' = t := by
  simp [mem_replacements, World.create]

/-- A new replacement is not charged, and the others are what they were. -/
theorem live_create {o t' : TaskId} {task : Task} (h : Facts before w)
    (hunused : Unused before w t) (hlive : (w.create o t task).Live t') : t' ≠ t ∧ w.Live t' := by
  refine ⟨?_, hlive⟩
  rintro rfl
  rcases hlive with hopened | hreserved
  · exact hunused.created (h.kept _ hopened).1
  · exact absurd (hunused.reservation.symm.trans hreserved) (by simp)

/-- A replacement is created. -/
theorem Facts.create (h : Facts before w) {o : TaskId} (hunused : Unused before w t) {task : Task}
    (hstatus : task.status = .initializing) : Facts before (w.create o t task) := by
  have hself : (w.create o t task).tasks t = some task := Function.update_self ..
  have hother : ∀ t', t' ≠ t → (w.create o t task).tasks t' = w.tasks t' := fun t' hne =>
    Function.update_of_ne hne ..
  have hold : ∀ t' ∈ w.createdIds, t' ≠ t := by
    rintro t' ht' rfl
    exact hunused.created ht'
  refine ⟨?_, ?_, ?_, ?_, ?_, ?_, ?_, ?_⟩
  · rw [createdIds_create]
    intro t' ht'
    rcases List.mem_append.mp ht' with hin | hnew
    · exact h.fresh t' hin
    · rw [List.mem_singleton.mp hnew]
      exact hunused.before
  · rw [createdIds_create]
    refine List.nodup_append.mpr ⟨h.nodup, List.nodup_singleton t, fun t' hin u hu => ?_⟩
    rw [List.mem_singleton.mp hu]
    exact hold t' hin
  · rw [createdIds_create]
    intro t' ht' task' hget
    rcases List.mem_append.mp ht' with hin | hnew
    · exact h.young t' hin task' (hother t' (hold t' hin) ▸ hget)
    · rw [List.mem_singleton.mp hnew, hself] at hget
      obtain rfl := Option.some.inj hget
      exact .inl hstatus
  · rw [createdIds_create]
    intro t' ht' task' hget
    rw [List.mem_append, List.mem_singleton, not_or] at ht'
    exact h.old t' ht'.1 task' (hother t' ht'.2 ▸ hget)
  · intro o' ho' t₁ h₁ t₂ h₂ hl₁ hl₂
    obtain ⟨hne₁, hold₁⟩ := live_create h hunused hl₁
    obtain ⟨hne₂, hold₂⟩ := live_create h hunused hl₂
    have hin : ∀ t', t' ≠ t → t' ∈ (w.create o t task).replacements o' → t' ∈ w.replacements o' :=
      fun t' hne ht' => (mem_replacements_create.mp ht').resolve_right fun hnew => hne hnew.2
    exact h.single o' ho' t₁ (hin t₁ hne₁ h₁) t₂ (hin t₂ hne₂ h₂) hold₁ hold₂
  · intro t' ht'
    obtain ⟨hin, hpending⟩ := h.kept t' ht'
    rw [createdIds_create, hother t' (hold t' hin)]
    exact ⟨List.mem_append_left _ hin, hpending⟩
  · intro o' ho' hnone
    exact h.whole o' ho' fun t' ht' => hnone t' (mem_replacements_create.mpr (.inl ht'))
  · intro o' ho' entry hentry hin
    rcases mem_replacements_create.mp hin with hin | ⟨-, rfl⟩
    · exact h.copied o' ho' entry hentry hin
    · exact absurd (h.kept _ (List.mem_map_of_mem hentry)).1 hunused.created

theorem Knows.create (hs : Knows b before w s) (h : Facts before w) {o : TaskId} {task : Task}
    (hunused : Unused before w t) : Knows b before (w.create o t task) s := by
  refine hs.frame (fun o' t' ht' => mem_replacements_create.mpr (.inl ht')) (fun _ ht' => ht')
    (fun t' ht' => ⟨?_, rfl, rfl, id⟩) (fun o' _ t' ht' hlive => ?_) fun o' ho' hnone => ?_
  · have hne : t' ≠ t := by
      rintro rfl
      exact hunused.created (hs.task h ht').1
    exact Function.update_of_ne hne ..
  · obtain ⟨hne, hold⟩ := live_create h hunused hlive
    exact ⟨(mem_replacements_create.mp ht').resolve_right fun hnew => hne hnew.2, hold⟩
  · have hne : o' ≠ t := by
      rintro rfl
      exact failed_stored (hs.failed ho') hunused.before
    exact (Function.update_of_ne hne ..).trans hnone

/-- A retry creates a replacement. -/
theorem Kept.create (h : Kept b before w known) {o : TaskId} {task : Task}
    (hunused : Unused before w t) (hstatus : task.status = .initializing)
    (hs : Knows b before (w.create o t task) s) (hmine : ∀ t', s.task = some t' → t' = t)
    (hretries : s.retries = (known i).retries) :
    Kept b before (w.create o t task) (Function.update known i s) := by
  refine h.turn (h.facts.create hunused hstatus) (fun j _ => (h.knows j).create h.facts hunused) hs
    (fun t' ht' j _ hj => ?_) (fun o' ho' j hne => ?_) fun o' ho' t' ht' hlive => ?_
  · obtain rfl := hmine t' ht'
    exact hunused.created ((h.knows j).task h.facts hj).1
  · exact h.alone i j hne.symm o' (hretries ▸ ho')
  · obtain ⟨hne, hold⟩ := live_create h.facts hunused hlive
    have hin := (mem_replacements_create.mp ht').resolve_right fun hnew => hne hnew.2
    have hother : o' ≠ t := by
      rintro rfl
      exact failed_stored ho' hunused.before
    have hsame : (w.create o t task).tasks o' = w.tasks o' := Function.update_of_ne hother ..
    rw [hsame]
    exact h.settles (fun o₁ ho₁ => .inl (hretries ▸ ho₁)) ho' hin hold

theorem follows_createTask {o : TaskId} {ownerTokenHash : String} (h : Kept b before w known)
    (hmay : progress.may (known i) (.createTask o ownerTokenHash))
    (hunused : Unused before w e.fresh) :
    Follows b before known i (.createTask o ownerTokenHash)
      (handle b e (.createTask o ownerTokenHash) w).1
      (handle b e (.createTask o ownerTokenHash) w).2 := by
  obtain ⟨failed, hi⟩ := hmay
  have hperform : perform b e (.createTask o ownerTokenHash) w =
      (.ok e.fresh, w.create o e.fresh { status := .initializing, ownerTokenHash }) := by
    unfold perform
    dsimp only
    rw [hunused.task]
    rfl
  have hread := h.knows i
  rw [hi] at hread
  obtain ⟨hstored, hfailed, hnone⟩ := hread
  refine handle_cases (fun _ => ?_) (fun _ _ _ r hr => ⟨hr, ?_⟩) fun _ _ _ r hr => ⟨hr, ?_⟩
  · rw [hperform]
    refine ⟨trivial, ?_⟩
    rw [hi]
    have hnew : e.fresh ∈ (w.create o e.fresh
        { status := .initializing, ownerTokenHash }).replacements o :=
      mem_replacements_create.mpr (.inr ⟨rfl, rfl⟩)
    refine h.create hunused rfl ⟨hstored, hfailed, hnew,
      ⟨_, Function.update_self .., rfl, fun hfalse => by cases hfalse⟩, ?_, ?_, ?_⟩ ?_ ?_
    · intro _ hreserved
      exact absurd (hunused.reservation.symm.trans hreserved) (by simp)
    · exact hunused.images
    · intro hretried t ht _ hlive
      obtain ⟨hne, hold⟩ := live_create h.facts hunused hlive
      have hin := (mem_replacements_create.mp ht).resolve_right fun hnew => hne hnew.2
      exact hnone hretried t hin hold
    · exact fun t ht => (Option.some.inj ht).symm
    · rw [hi]
      cases failed <;> rfl
  · rw [hi]
    exact h.stay hi
  · -- the replacement is stored, and the request has not been told of it
    rw [hperform, hi]
    have hknows : Knows b before (w.create o e.fresh { status := .initializing, ownerTokenHash })
        (known i) := (h.knows i).create h.facts hunused
    rw [hi] at hknows
    refine h.create hunused rfl hknows (fun t ht => by cases ht) ?_
    rw [hi]
    rfl

/-- A request that may go on to another task leaves nothing behind. -/
theorem Kept.leaves (h : Kept b before w known) (hrests : (known i).Rests) {o : TaskId}
    (ho : (known i).retries = some o) : ∀ t ∈ w.replacements o, ¬ w.Live t := by
  have hknows := h.knows i
  cases hi : known i with
  | read o' failed =>
    rw [hi] at hknows ho
    cases failed with
    | false => cases ho
    | true =>
      obtain rfl := Option.some.inj ho
      exact hknows.2.2 rfl
  | idle | discarding =>
    rw [hi] at ho
    cases ho
  | working | opened | rowGone | deleting =>
    rw [hi] at hrests
    exact hrests.elim

/-- A request goes on, or ends. -/
theorem Kept.rest (h : Kept b before w known) (hrests : (known i).Rests) :
    Kept b before w (Function.update known i .idle) :=
  h.see trivial (fun _ ht => by cases ht) (fun _ ho => by cases ho) fun _ ho =>
    .inr (.inr (h.leaves hrests ho))

theorem follows_readMeta (h : Kept b before w known) (hmay : progress.may (known i) (.readMeta t))
    (halone : (∃ task ∈ w.tasks t, task.status = .failed) → Alone known i t) :
    Follows b before known i (.readMeta t) (handle b e (.readMeta t) w).1
      (handle b e (.readMeta t) w).2 := by
  have hrests : (known i).Rests := by
    cases hi : known i <;> rw [hi] at hmay <;> exact hmay
  have hsame : (perform b e (.readMeta t) w).2 = w := by
    unfold perform
    dsimp only
    split <;> rfl
  have hlearn : ∀ r : Raised, progress.learn (known i) (.readMeta t) (.error r) = .idle := by
    intro r
    cases known i <;> rfl
  refine handle_cases (fun _ => ?_) (fun _ _ _ r hr => ⟨hr, ?_⟩) fun _ _ _ r hr => ⟨hr, ?_⟩
  · unfold perform
    dsimp only
    split
    next =>
      refine ⟨by simp [progress, fileNotFound], ?_⟩
      rw [hlearn]
      exact h.rest hrests
    next task hget =>
      refine ⟨trivial, ?_⟩
      have hstage : progress.learn (known i) (.readMeta t) (.ok task) =
          if task.status = .success ∨ task.status = .failed then .read t (task.status = .failed)
          else .idle := by
        cases known i <;> rfl
      rw [hstage]
      split
      next hstatus =>
        -- a replacement is initializing or pending, so it is not what is retried
        have hold : t ∉ w.createdIds := by
          intro hin
          rcases h.facts.young t hin task hget with hyoung | hyoung
          · simp [hyoung] at hstatus
          · simp [hyoung] at hstatus
        have hbefore := h.facts.old t hold task hget
        have hretry : ∀ o, (Stage.read t (task.status = .failed)).retries = some o →
            task.status = .failed ∧ t = o := by
          intro o ho
          by_cases hfailed : task.status = .failed
          · refine ⟨hfailed, ?_⟩
            rw [decide_eq_true hfailed] at ho
            exact Option.some.inj ho
          · rw [decide_eq_false hfailed] at ho
            cases ho
        refine h.see ⟨?_, ?_, fun hfailed t' ht' hlive => ?_⟩ (fun t ht => ?_)
          (fun o ho => ?_) fun o ho => .inr (.inr (h.leaves hrests ho))
        · rw [hbefore]
          exact Option.some_ne_none task
        · rw [decide_eq_true_iff]
          refine ⟨fun hfailed => ⟨task, hbefore, hfailed⟩, ?_⟩
          rintro ⟨task', hget', hfailed⟩
          rw [hbefore] at hget'
          obtain rfl := Option.some.inj hget'
          exact hfailed
        · -- a replacement that is charged or pending would be another request's
          have hfailed := of_decide_eq_true hfailed
          rcases h.settled t ⟨task, hbefore, hfailed⟩ t' ht' hlive with hgone | ⟨j, hj⟩
          · rw [hgone] at hget
            cases hget
          · rcases eq_or_ne j i with rfl | hne
            · exact h.leaves hrests hj t' ht' hlive
            · exact halone ⟨task, hget, hfailed⟩ j hne hj
        · cases ht
        · obtain ⟨hfailed, rfl⟩ := hretry o ho
          exact halone ⟨task, hget, hfailed⟩
      next => exact h.rest hrests
  · rw [hlearn]
    exact h.rest hrests
  · rw [hsame, hlearn]
    exact h.rest hrests

theorem onlyAt_setReservation (w : World) (t : TaskId) (reservation : Reservation) :
    OnlyAt t w (w.setReservation t reservation) :=
  ⟨rfl, rfl, fun _ hne => ⟨rfl, rfl, Function.update_of_ne hne ..⟩⟩

theorem onlyAt_setTask (w : World) (t : TaskId) (task : Option Task) :
    OnlyAt t w (w.setTask t task) :=
  ⟨rfl, rfl, fun _ hne => ⟨Function.update_of_ne hne .., rfl, rfl⟩⟩

theorem onlyAt_setImages (w : World) (t : TaskId) (files : List ImageFile) :
    OnlyAt t w (w.setImages t files) :=
  ⟨rfl, rfl, fun _ hne => ⟨rfl, Function.update_of_ne hne .., rfl⟩⟩

/-- Only what is written at the task in hand is to be shown. -/
theorem Kept.working {k' : Work} (h : Kept b before w known) (hi : known i = .working k)
    (honly : OnlyAt k.task w w')
    (hk : k'.original = k.original ∧ k'.failed = k.failed ∧ k'.task = k.task)
    (htask : ∃ task, w'.tasks k.task = some task ∧ task.status = .initializing ∧ Counted k' task)
    (hunpaid : k'.paid = false → w'.reservations k.task ≠ some .reserved)
    (hcopies : Copies before w' k' k'.copying) :
    Kept b before w' (Function.update known i (.working k')) := by
  have hworking := h.knows i
  rw [hi] at hworking
  have hworking : Working before w k := hworking
  obtain ⟨horiginal, hfailed, hmine⟩ := hk
  obtain ⟨task, hget, hstatus, hcounted⟩ := htask
  have hretries : (Stage.working k').retries = (Stage.working k).retries := by
    unfold Stage.retries
    dsimp only
    rw [horiginal, hfailed]
  refine h.change (by rw [hi]; rfl) honly ?_ (fun _ => .inr ⟨k, hi⟩) ⟨?_, ?_, ?_, ?_, ?_, hcopies, ?_⟩
    ?_ ?_ ?_
  · intro task' hget'
    rw [hget] at hget'
    obtain rfl := Option.some.inj hget'
    exact .inl hstatus
  · rw [horiginal]
    exact hworking.original
  · rw [horiginal, hfailed]
    exact hworking.failed
  · rw [horiginal, hmine, honly.replacements]
    exact hworking.mine
  · rw [hmine]
    exact ⟨task, hget, hstatus, hcounted⟩
  · rw [hmine]
    exact hunpaid
  · rw [horiginal, hfailed, hmine, honly.replacements]
    exact fun hretry t ht hne hlive => hworking.sole hretry t ht hne ((honly.live hne).mp hlive)
  · exact fun t ht => (Option.some.inj ht).symm.trans hmine
  · intro o ho
    rwa [hi, ← hretries]
  · intro o ho
    rw [hretries, ← hi]
    exact .inl ho

theorem follows_reserve (h : Kept b before w known) (hmay : progress.may (known i) (.reserve t))
    (horderly : ∀ fault ∈ e.fault, fault.done = false) :
    Follows b before known i (.reserve t) (handle b e (.reserve t) w).1
      (handle b e (.reserve t) w).2 := by
  obtain ⟨k, hi, rfl, hpaid⟩ := hmay
  have hworking := h.knows i
  rw [hi] at hworking
  have hworking : Working before w k := hworking
  refine handle_cases (fun _ => ?_) (fun _ _ _ r hr => ⟨trivial, ?_⟩) fun fault hfault hdone _ _ => ?_
  · unfold perform
    dsimp only
    split
    next hreserved => exact absurd hreserved (hworking.unpaid hpaid)
    next =>
      rw [Follows, hi]
      exact ⟨trivial, h.stay hi⟩
    next =>
      split_ifs
      · rw [Follows, hi]
        exact ⟨trivial, h.stay hi⟩
      · refine ⟨trivial, ?_⟩
        rw [hi]
        refine h.working hi (onlyAt_setReservation w _ _) ⟨rfl, rfl, rfl⟩ hworking.task
          (fun hfalse => by cases hfalse) hworking.copies
  · rw [hi]
    exact h.stay hi
  · rw [horderly fault hfault] at hdone
    cases hdone

theorem follows_refund (h : Kept b before w known) (hmay : progress.may (known i) (.refund t))
    (hdone : ∀ fault ∈ e.fault, fault.done = true) :
    Follows b before known i (.refund t) (handle b e (.refund t) w).1
      (handle b e (.refund t) w).2 := by
  obtain ⟨k, hi, rfl⟩ := hmay
  have hworking := h.knows i
  rw [hi] at hworking
  have hworking : Working before w k := hworking
  have honly : OnlyAt k.task w (w.refund k.task) := by
    unfold World.refund
    split_ifs
    · exact onlyAt_setReservation w _ _
    · exact ⟨rfl, rfl, fun _ _ => ⟨rfl, rfl, rfl⟩⟩
  have hrefunded : (w.refund k.task).reservations k.task ≠ some .reserved := by
    unfold World.refund
    split_ifs with hreserved
    · simp [World.setReservation]
    · exact hreserved
  have hperform : perform b e (.refund k.task) w = (.ok (), w.refund k.task) := rfl
  have hsame : (w.refund k.task).tasks = w.tasks ∧ (w.refund k.task).images = w.images := by
    unfold World.refund
    split_ifs
    · exact ⟨rfl, rfl⟩
    · exact ⟨rfl, rfl⟩
  refine handle_cases (fun _ => ?_) (fun fault hfault hskip _ _ => ?_) fun _ _ _ r hr => ⟨hr, ?_⟩
  · rw [hperform, Follows, hi]
    refine ⟨trivial, h.working hi honly ⟨rfl, rfl, rfl⟩ ?_ (fun _ => hrefunded) ?_⟩
    · rw [hsame.1]
      exact hworking.task
    · have hcopies := hworking.copies
      unfold Copies at hcopies ⊢
      rw [hsame.2]
      exact hcopies
  · rw [hdone fault hfault] at hskip
    cases hskip
  · -- the refund has been made, and the retry is given up
    rw [hperform, hi]
    have hdead : ¬ (w.refund k.task).Live k.task := by
      rintro (hopened | hreserved)
      · rw [honly.openedIds] at hopened
        exact hworking.not_opened h.facts hopened
      · exact hrefunded hreserved
    refine h.change (by rw [hi]; rfl) honly (fun task hget => ?_) (fun hlive => absurd hlive hdead)
      trivial (fun _ ht => by cases ht) (fun _ ho => by cases ho) fun o ho => .inr ?_
    · rw [hsame.1] at hget
      exact h.facts.young _ (createdIds_of_mem hworking.mine) task hget
    · rw [hi] at ho
      obtain ⟨hfailed, rfl⟩ := retries_working.mp ho
      intro t ht hlive
      rcases eq_or_ne t k.task with rfl | hne
      · exact hdead hlive
      · exact hworking.sole hfailed t ht hne ((honly.live hne).mp hlive)

theorem follows_listImages {o : TaskId} (h : Kept b before w known)
    (hmay : progress.may (known i) (.listImages o)) :
    Follows b before known i (.listImages o) (handle b e (.listImages o) w).1
      (handle b e (.listImages o) w).2 := by
  obtain ⟨k, hi, rfl, hcopying, hcounting⟩ := hmay
  have hworking := h.knows i
  rw [hi] at hworking
  have hworking : Working before w k := hworking
  refine handle_cases (fun _ => ?_) (fun _ _ _ r hr => ⟨hr, ?_⟩) fun _ _ _ r hr => ⟨hr, ?_⟩
  · rw [Follows, hi]
    have hnone := hworking.copies
    rw [hcopying] at hnone
    have hnone : w.images k.task = [] := hnone
    obtain ⟨task, hget, hstatus, -⟩ := hworking.task
    refine ⟨trivial, h.learn ⟨hworking.original, hworking.failed, hworking.mine, ?_,
      hworking.unpaid, ?_, hworking.sole⟩ ?_ ?_⟩
    · refine ⟨task, hget, hstatus, fun hcounted => ?_⟩
      rw [hcounting] at hcounted
      cases hcounted
    · refine ⟨?_, ?_, fun hfailed => ?_⟩
      · show (w.images k.task).length = 0
        rw [hnone]
        rfl
      · show ∀ file ∈ w.images k.task, file.index ≤ 0
        rw [hnone]
        exact fun file hfile => by cases hfile
      · -- nobody else is retrying the task, so that its images are all there
        exact h.facts.whole _ hfailed (h.facts.not_opened hworking hfailed)
    · rw [hi]
      rfl
    · rw [hi]
      rfl
  · rw [hi]
    exact h.stay hi
  · rw [hi]
    exact h.stay hi

theorem follows_copyImage {source : TaskId} {file : ImageFile} {index : Nat}
    (h : Kept b before w known) (hmay : progress.may (known i) (.copyImage source file t index)) :
    Follows b before known i (.copyImage source file t index)
      (handle b e (.copyImage source file t index) w).1
      (handle b e (.copyImage source file t index) w).2 := by
  obtain ⟨k, names, copied, hi, rfl, rfl, hcopying, rfl⟩ := hmay
  have hworking := h.knows i
  rw [hi] at hworking
  have hworking : Working before w k := hworking
  obtain ⟨task, hget, hstatus, hcounted⟩ := hworking.task
  have hspoiled : ∀ {w'}, OnlyAt k.task w w' → w'.tasks k.task = w.tasks k.task →
      w'.reservations k.task = w.reservations k.task →
      Kept b before w' (Function.update known i (.working { k with copying := .spoiled })) := by
    intro w' honly htask hreservation
    refine h.working hi honly ⟨rfl, rfl, rfl⟩ ⟨task, htask.trans hget, hstatus, ?_⟩ ?_ trivial
    · exact fun _ names copied hfalse => by cases hfalse
    · rw [hreservation]
      exact hworking.unpaid
  have htarget : ∀ target : ImageFile, OnlyAt k.task w (w.addImage k.task target) ∧
      (w.addImage k.task target).tasks = w.tasks ∧
      (w.addImage k.task target).reservations = w.reservations := by
    intro target
    unfold World.addImage
    split_ifs
    · exact ⟨⟨rfl, rfl, fun _ _ => ⟨rfl, rfl, rfl⟩⟩, rfl, rfl⟩
    · exact ⟨onlyAt_setImages w _ _, rfl, rfl⟩
  refine handle_cases (fun _ => ?_) (fun _ _ _ r hr => ⟨hr, ?_⟩) fun _ _ _ r hr => ⟨hr, ?_⟩
  · unfold perform
    dsimp only
    split_ifs
    · rw [Follows, hi]
      have hlearn : progress.learn (.working k)
          (.copyImage k.original file k.task (copied + 1))
          (.ok (copyName e.chars (copied + 1) file)) =
            .working { k with copying := .copying names (copied + 1) } := by
        show Stage.working (k.copy _) = _
        rw [Work.copy, hcopying]
      rw [hlearn]
      have hcopies := hworking.copies
      rw [hcopying] at hcopies
      obtain ⟨hlength, hindex, hnames⟩ := hcopies
      -- the copies are numbered as they come, so that none replaces another
      have hnew : copyName e.chars (copied + 1) file ∉ w.images k.task := by
        intro hin
        have hle : copied + 1 ≤ copied := hindex _ hin
        omega
      have hadd : (w.addImage k.task (copyName e.chars (copied + 1) file)).images k.task =
          w.images k.task ++ [copyName e.chars (copied + 1) file] := by
        rw [World.addImage, if_neg hnew]
        exact Function.update_self ..
      obtain ⟨honly, htasks, hreservations⟩ := htarget (copyName e.chars (copied + 1) file)
      refine ⟨trivial, h.working hi honly ⟨rfl, rfl, rfl⟩ ?_ ?_ ⟨?_, ?_, hnames⟩⟩
      · refine ⟨task, (congrFun htasks _).trans hget, hstatus, fun hcounting names' _ heq => ?_⟩
        obtain ⟨rfl, -⟩ := Copying.copying.inj heq
        exact hcounted hcounting names copied hcopying
      · rw [hreservations]
        exact hworking.unpaid
      · show ((w.addImage k.task (copyName e.chars (copied + 1) file)).images k.task).length =
          copied + 1
        rw [hadd, List.length_append, hlength]
        rfl
      · intro other hother
        have hother : other ∈
            (w.addImage k.task (copyName e.chars (copied + 1) file)).images k.task := hother
        rw [hadd] at hother
        rcases List.mem_append.mp hother with hold | hself
        · exact (hindex other hold).trans (Nat.le_succ _)
        · rw [List.mem_singleton.mp hself]
          exact le_rfl
    · rw [Follows, hi]
      refine ⟨by simp [progress, fileNotFound], ?_⟩
      exact hspoiled ⟨rfl, rfl, fun _ _ => ⟨rfl, rfl, rfl⟩⟩ rfl rfl
  · rw [hi]
    exact hspoiled ⟨rfl, rfl, fun _ _ => ⟨rfl, rfl, rfl⟩⟩ rfl rfl
  · rw [hi]
    unfold perform
    dsimp only
    split_ifs
    · obtain ⟨honly, htasks, hreservations⟩ := htarget (copyName e.chars (copied + 1) file)
      exact hspoiled honly (congrFun htasks _) (congrFun hreservations _)
    · exact hspoiled ⟨rfl, rfl, fun _ _ => ⟨rfl, rfl, rfl⟩⟩ rfl rfl

theorem follows_setTaskImages {imageCount : Nat} (h : Kept b before w known)
    (hmay : progress.may (known i) (.setTaskImages t imageCount)) :
    Follows b before known i (.setTaskImages t imageCount)
      (handle b e (.setTaskImages t imageCount) w).1
      (handle b e (.setTaskImages t imageCount) w).2 := by
  obtain ⟨k, names, copied, hi, rfl, hcopying, rfl⟩ := hmay
  have hworking := h.knows i
  rw [hi] at hworking
  have hworking : Working before w k := hworking
  obtain ⟨task, hget, hstatus, -⟩ := hworking.task
  have hperform : perform b e (.setTaskImages k.task names.length) w =
      (.ok (), w.setTask k.task (some { task with imageCount := names.length })) := by
    unfold perform
    dsimp only
    rw [hget]
  have hafter : ∀ counted, Kept b before
      (w.setTask k.task (some { task with imageCount := names.length }))
      (Function.update known i (.working { k with counted })) := by
    intro counted
    refine h.working hi (onlyAt_setTask w _ _) ⟨rfl, rfl, rfl⟩ ?_ hworking.unpaid hworking.copies
    refine ⟨_, Function.update_self .., hstatus, fun _ names' copied' heq => ?_⟩
    obtain ⟨rfl, -⟩ := Copying.copying.inj (hcopying.symm.trans heq)
    rfl
  refine handle_cases (fun _ => ?_) (fun _ _ _ r hr => ⟨hr, ?_⟩) fun _ _ _ r hr => ⟨hr, ?_⟩
  · rw [hperform, Follows, hi]
    exact ⟨trivial, hafter true⟩
  · rw [hi]
    exact h.stay hi
  · rw [hperform, hi]
    exact hafter k.counted

/-- The world where a task becomes pending. -/
def World.open (w : World) (t : TaskId) (task : Task) : World :=
  { w.setTask t (some { task with status := .pending }) with
    opened := w.opened ++ [⟨t, task.imageCount, w.images t⟩] }

theorem mem_openedIds_open {t' : TaskId} {task : Task} :
    t' ∈ (w.open t task).openedIds ↔ t' ∈ w.openedIds ∨ t' = t := by
  simp [World.openedIds, World.open]

theorem live_open {t' : TaskId} {task : Task} (h : (w.open t task).Live t') :
    t' = t ∨ w.Live t' := by
  rcases h with hopened | hreserved
  · exact (mem_openedIds_open.mp hopened).symm.imp_right .inl
  · exact .inr (.inr hreserved)

/-- The replacement in hand becomes pending, with all its images. -/
theorem Facts.open (h : Facts before w) (hworking : Working before w k) {task : Task}
    (hget : w.tasks k.task = some task) {names : List ImageFile}
    (hcopying : k.copying = .copying names names.length) (hcounted : k.counted = true) :
    Facts before (w.open k.task task) := by
  have hself : (w.open k.task task).tasks k.task = some { task with status := .pending } :=
    Function.update_self ..
  have hother : ∀ t', t' ≠ k.task → (w.open k.task task).tasks t' = w.tasks t' := fun t' hne =>
    Function.update_of_ne hne ..
  refine ⟨h.fresh, h.nodup, ?_, ?_, ?_, ?_, ?_, ?_⟩
  · intro t' ht' task' hget'
    rcases eq_or_ne t' k.task with rfl | hne
    · rw [hself] at hget'
      obtain rfl := Option.some.inj hget'
      exact .inr rfl
    · exact h.young t' ht' task' (hother t' hne ▸ hget')
  · intro t' ht' task' hget'
    have hne : t' ≠ k.task := by
      rintro rfl
      exact ht' (createdIds_of_mem hworking.mine)
    exact h.old t' ht' task' (hother t' hne ▸ hget')
  · -- no other replacement was charged or pending while this one was in hand
    intro o ho t₁ h₁ t₂ h₂ hl₁ hl₂
    rcases live_open hl₁ with rfl | hold₁
    · by_contra hne
      exact hworking.only h ho h₁ t₂ h₂ (Ne.symm hne) ((live_open hl₂).resolve_left (Ne.symm hne))
    · rcases live_open hl₂ with rfl | hold₂
      · by_contra hne
        exact hworking.only h ho h₂ t₁ h₁ hne hold₁
      · exact h.single o ho t₁ h₁ t₂ h₂ hold₁ hold₂
  · intro t' ht'
    rcases eq_or_ne t' k.task with rfl | hne
    · exact ⟨createdIds_of_mem hworking.mine, _, hself, rfl⟩
    · rw [hother t' hne]
      exact h.kept t' ((mem_openedIds_open.mp ht').resolve_right hne)
  · intro o ho hnone
    exact h.whole o ho fun t' ht' hin => hnone t' ht' (mem_openedIds_open.mpr (.inl hin))
  · intro o ho entry hentry hin
    rcases List.mem_append.mp hentry with hold | hnew
    · exact h.copied o ho entry hold hin
    · obtain rfl := List.mem_singleton.mp hnew
      obtain rfl : k.original = o := h.original_unique hworking.mine hin
      have hcopies := hworking.copies
      rw [hcopying] at hcopies
      obtain ⟨hlength, -, hnames⟩ := hcopies
      obtain ⟨task', hget', -, hcount⟩ := hworking.task
      obtain rfl : task = task' := Option.some.inj (hget.symm.trans hget')
      -- as many copies as were listed, and the task says so
      refine ⟨hlength.trans (congrArg List.length (hnames ho)), ?_⟩
      exact (hcount hcounted names _ hcopying).trans (congrArg List.length (hnames ho))

theorem finalized_retries (k : Work) : (Stage.finalized k).retries = (Stage.working k).retries := by
  unfold Stage.finalized Stage.retries
  dsimp only
  split_ifs <;> rfl

theorem follows_finalize (h : Kept b before w known) (hmay : progress.may (known i) (.finalize t))
    (horderly : ∀ fault ∈ e.fault, fault.done = false) :
    Follows b before known i (.finalize t) (handle b e (.finalize t) w).1
      (handle b e (.finalize t) w).2 := by
  obtain ⟨k, names, hi, rfl, hcopying, hcounting⟩ := hmay
  have hworking := h.knows i
  rw [hi] at hworking
  have hworking : Working before w k := hworking
  obtain ⟨task, hget, hstatus, -⟩ := hworking.task
  have hperform : perform b e (.finalize k.task) w = (.ok (), w.open k.task task) := by
    unfold perform
    dsimp only
    rw [hget]
    dsimp only
    rw [if_pos hstatus]
    rfl
  have hretries : ∀ o, before.Failed o → k.task ∈ w.replacements o → (known i).retries = some o := by
    intro o ho hin
    rw [hi]
    exact hworking.retries h.facts ho hin
  refine handle_cases (fun _ => ?_) (fun _ _ _ r hr => ⟨hr, ?_⟩) fun fault hfault hdone _ _ => ?_
  · rw [hperform, Follows]
    refine ⟨trivial, h.turn (h.facts.open hworking hget hcopying hcounting) (fun j hne => ?_) ?_ ?_ ?_
      ?_⟩
    · refine (h.knows j).frame (fun _ _ => id) (fun t' ht' => mem_openedIds_open.mpr (.inl ht'))
        (fun t' ht' => ?_) (fun o ho t' ht' hlive => ⟨ht', ?_⟩) fun o ho hnone => ?_
      · have hother : t' ≠ k.task := by
          rintro rfl
          exact h.distinct i j hne.symm k.task (by rw [hi]; rfl) ht'
        refine ⟨Function.update_of_ne hother .., rfl, rfl, fun hin => ?_⟩
        exact (mem_openedIds_open.mp hin).resolve_right hother
      · refine (live_open hlive).resolve_left ?_
        rintro rfl
        exact h.alone i j hne.symm o (hretries o ((h.knows j).failed ho) ht') ho
      · have hother := h.facts.ne_failed ((h.knows j).failed ho) (createdIds_of_mem hworking.mine)
        exact (Function.update_of_ne hother ..).trans hnone
    · rw [hi]
      show Knows b before _ (.finalized k)
      unfold Stage.finalized
      split_ifs with hfailed
      · exact ⟨hworking.failed.mp hfailed, k.task, hworking.mine,
          mem_openedIds_open.mpr (.inr rfl)⟩
      · trivial
    · rw [hi]
      show ∀ t', (Stage.finalized k).task = some t' → _
      unfold Stage.finalized
      split_ifs
      · exact fun t' ht' => by cases ht'
      · exact fun t' ht' => by cases ht'
    · intro o ho j hne
      refine h.alone i j hne.symm o ?_
      rw [hi] at ho ⊢
      rwa [← finalized_retries]
    · intro o ho t' ht' hlive
      rw [hi]
      show _ ∨ (Stage.finalized k).retries = some o ∨ _
      have hother := h.facts.ne_failed ho (createdIds_of_mem hworking.mine)
      have hsame : (w.open k.task task).tasks o = w.tasks o := Function.update_of_ne hother ..
      rw [hsame, finalized_retries, ← hi]
      rcases live_open hlive with rfl | hold
      · exact .inr (.inl (hretries o ho ht'))
      · exact h.settles (fun _ => .inl) ho ht' hold
  · rw [hi]
    exact h.stay hi
  · rw [horderly fault hfault] at hdone
    cases hdone

/-- What is read or written elsewhere. -/
theorem follows_still {o : RetryOp} (h : Kept b before w known)
    (hlearn : ∀ r, progress.learn (known i) o r = known i)
    (hcan : progress.can o (perform b e o w).1 ∧
      ∀ r : Raised, r.kind ≠ .quotaExceeded → progress.can o (.error r))
    (hsame : (perform b e o w).2 = w) :
    Follows b before known i o (handle b e o w).1 (handle b e o w).2 := by
  refine handle_cases (fun _ => ⟨hcan.1, ?_⟩) (fun _ _ _ r hr => ⟨hcan.2 r hr, ?_⟩)
    fun _ _ _ r hr => ⟨hcan.2 r hr, ?_⟩
  · rw [hlearn, hsame]
    exact h.stay rfl
  · rw [hlearn]
    exact h.stay rfl
  · rw [hlearn, hsame]
    exact h.stay rfl

/-! #### Deletions -/

/-- A part of the replacement in hand is deleted, which is not charged. -/
theorem Kept.discard (h : Kept b before w known) (ht : (known i).task = some t)
    (hpaid : w.reservations t ≠ some .reserved) (honly : OnlyAt t w w')
    (htask : w'.tasks t = w.tasks t ∨ w'.tasks t = none)
    (hreservation : w'.reservations t = w.reservations t) :
    Kept b before w' (Function.update known i (.discarding t)) := by
  obtain ⟨hin, hout⟩ := (h.knows i).task h.facts ht
  rw [← hreservation] at hpaid
  have hdead : ¬ w'.Live t := by
    rintro (hopened | hreserved)
    · exact hout (honly.openedIds ▸ hopened)
    · exact hpaid hreserved
  refine h.change ht honly (fun task hget => ?_) (fun hlive => absurd hlive hdead) ?_
    (fun t' ht' => (Option.some.inj ht').symm) (fun _ ho => by cases ho) fun o ho => .inr ?_
  · rcases htask with heq | hnone
    · exact h.facts.young t hin task (heq ▸ hget)
    · rw [hnone] at hget
      cases hget
  · refine ⟨?_, ?_, hpaid⟩
    · rwa [honly.createdIds]
    · rwa [honly.openedIds]
  · intro t' ht' hlive
    cases hi : known i with
    | working k =>
      have hworking := h.knows i
      rw [hi] at hworking ho ht
      have hworking : Working before w k := hworking
      obtain ⟨hfailed, rfl⟩ := retries_working.mp ho
      obtain rfl : k.task = t := Option.some.inj ht
      rcases eq_or_ne t' k.task with rfl | hne
      · exact hdead hlive
      · exact hworking.sole hfailed t' ht' hne ((honly.live hne).mp hlive)
    | idle | read | discarding =>
      rw [hi] at ho ht
      first
        | cases ho
        | cases ht
    | opened | rowGone | deleting =>
      rw [hi] at ht
      exact absurd ht (by simp [Stage.task])

theorem onlyAt_self (w : World) (t : TaskId) : OnlyAt t w w :=
  ⟨rfl, rfl, fun _ _ => ⟨rfl, rfl, rfl⟩⟩

/-- What one operation of a deletion does. -/
theorem perform_delete {o : RetryOp} {why : Deletion}
    (ho : o = .deleteRow why t ∨ o = .listEntries why t ∨ ∃ entry, o = .unlink why t entry) :
    (∃ a, (perform b e o w).1 = .ok a) ∧ OnlyAt t w (perform b e o w).2 ∧
      ((perform b e o w).2.tasks t = w.tasks t ∨ (perform b e o w).2.tasks t = none) ∧
      (perform b e o w).2.reservations t = w.reservations t := by
  rcases ho with rfl | rfl | ⟨entry, rfl⟩
  · cases b with
    | postgres =>
      exact ⟨⟨(), rfl⟩, onlyAt_setTask w _ _, .inr (Function.update_self ..), rfl⟩
    | jsonFile => exact ⟨⟨(), rfl⟩, onlyAt_self w t, .inl rfl, rfl⟩
  · unfold perform
    dsimp only
    split
    · exact ⟨⟨_, rfl⟩, onlyAt_self w t, .inl rfl, rfl⟩
    · exact ⟨⟨_, rfl⟩, onlyAt_self w t, .inl rfl, rfl⟩
  · cases entry with
    | metaFile =>
      exact ⟨⟨(), rfl⟩, onlyAt_setTask w _ _, .inr (Function.update_self ..), rfl⟩
    | image file => exact ⟨⟨(), rfl⟩, onlyAt_setImages w _ _, .inl rfl, rfl⟩

theorem follows_deleteReplacement {o : RetryOp} (h : Kept b before w known)
    (ho : o = .deleteRow .replacement t ∨ o = .listEntries .replacement t ∨
      ∃ entry, o = .unlink .replacement t entry) (hmay : progress.may (known i) o) :
    Follows b before known i o (handle b e o w).1 (handle b e o w).2 := by
  have hmine : (known i).task = some t ∧ w.reservations t ≠ some .reserved ∧
      ∀ r, progress.learn (known i) o r = .discarding t := by
    have hknows := h.knows i
    rcases ho with rfl | rfl | ⟨entry, rfl⟩
    · obtain ⟨k, hi, rfl, hpaid⟩ := hmay
      rw [hi] at hknows ⊢
      exact ⟨rfl, Working.unpaid hknows hpaid, fun _ => rfl⟩
    · have hi : known i = .discarding t := hmay
      rw [hi] at hknows ⊢
      exact ⟨rfl, hknows.2.2, fun r => by cases r <;> rfl⟩
    · have hi : known i = .discarding t := hmay
      rw [hi] at hknows ⊢
      exact ⟨rfl, hknows.2.2, fun r => by cases r <;> rfl⟩
  obtain ⟨ht, hpaid, hlearn⟩ := hmine
  obtain ⟨⟨a, hok⟩, honly, htask, hreservation⟩ := perform_delete (b := b) (e := e) (w := w) ho
  have hcan : ∀ r : Raised, r.kind ≠ .quotaExceeded → progress.can o (.error r) := by
    intro r hr
    rcases ho with rfl | rfl | ⟨entry, rfl⟩
    · exact hr
    · exact hr
    · exact hr
  refine handle_cases (fun _ => ⟨?_, ?_⟩) (fun _ _ _ r hr => ⟨hcan r hr, ?_⟩)
    fun _ _ _ r hr => ⟨hcan r hr, ?_⟩
  · rw [hok]
    rcases ho with rfl | rfl | ⟨entry, rfl⟩ <;> trivial
  · rw [hlearn]
    exact h.discard ht hpaid honly htask hreservation
  · rw [hlearn]
    exact h.discard ht hpaid (onlyAt_self w t) (.inl rfl) rfl
  · rw [hlearn]
    exact h.discard ht hpaid honly htask hreservation

theorem Begun.only {o : TaskId} (h : Begun before w o) (honly : OnlyAt t w w') :
    Begun before w' o := by
  obtain ⟨ho, t', ht', hopened⟩ := h
  refine ⟨ho, t', ?_, ?_⟩
  · rwa [honly.replacements]
  · rwa [honly.openedIds]

/-- The files of the failed task that are left to remove still hold its record, if it is there. -/
theorem Kept.removing (h : Kept b before w known) (hretries : (known i).retries = some t)
    (hbegun : Begun before w t) (honly : OnlyAt t w w')
    (htask : w'.tasks t = w.tasks t ∨ w'.tasks t = none) {entries : List Entry}
    (hleft : w'.tasks t = none ∨ .metaFile ∈ entries) :
    Kept b before w' (Function.update known i (.delete t entries)) := by
  cases entries with
  | nil =>
    have hgone : w'.tasks t = none := hleft.resolve_right (by simp)
    exact h.deleteOriginal hretries hbegun honly htask trivial rfl (.inr ⟨rfl, hgone⟩)
  | cons entry entries =>
    exact h.deleteOriginal hretries hbegun honly htask ⟨hbegun.only honly, hleft⟩ rfl (.inl rfl)

/-- Nothing disturbs the deletion of the original. -/
theorem handle_undisturbed {o : RetryOp} (hfault : e.fault = none) :
    handle b e o w = perform b e o w := by
  unfold handle
  rw [hfault]

theorem follows_deleteRow (h : Kept b before w known)
    (hmay : progress.may (known i) (.deleteRow .original t)) (hfault : e.fault = none) :
    Follows b before known i (.deleteRow .original t) (handle b e (.deleteRow .original t) w).1
      (handle b e (.deleteRow .original t) w).2 := by
  have hi : known i = .opened t := hmay
  have hbegun := h.knows i
  rw [hi] at hbegun
  rw [handle_undisturbed hfault, Follows, hi]
  have hretries : (known i).retries = some t := by rw [hi]; rfl
  cases b with
  | postgres =>
    have honly := onlyAt_setTask w t none
    have hgone : (w.setTask t none).tasks t = none := Function.update_self ..
    exact ⟨trivial, h.deleteOriginal hretries hbegun honly (.inr hgone)
      ⟨hbegun.only honly, fun _ => hgone⟩ rfl (.inl rfl)⟩
  | jsonFile =>
    -- there is no row; the record goes with the files
    exact ⟨trivial, h.deleteOriginal hretries hbegun (onlyAt_self w t) (.inl rfl)
      ⟨hbegun, fun hb => by cases hb⟩ rfl (.inl rfl)⟩

theorem follows_listEntries (h : Kept b before w known)
    (hmay : progress.may (known i) (.listEntries .original t)) (hfault : e.fault = none) :
    Follows b before known i (.listEntries .original t) (handle b e (.listEntries .original t) w).1
      (handle b e (.listEntries .original t) w).2 := by
  have hi : known i = .rowGone t := hmay
  have hknows := h.knows i
  rw [hi] at hknows
  obtain ⟨hbegun, hrow⟩ := hknows
  rw [handle_undisturbed hfault, Follows, hi]
  have hretries : (known i).retries = some t := by rw [hi]; rfl
  have honly := onlyAt_self w t
  have hfiles : Entry.metaFile ∉ (w.images t).map Entry.image := by simp
  cases b with
  | postgres => exact ⟨trivial, h.removing hretries hbegun honly (.inl rfl) (.inl (hrow rfl))⟩
  | jsonFile =>
    unfold perform
    dsimp only
    cases hget : w.tasks t with
    | none => exact ⟨trivial, h.removing hretries hbegun honly (.inl rfl) (.inl hget)⟩
    | some task =>
      refine ⟨trivial, h.removing hretries hbegun honly (.inl rfl) (.inr ?_)⟩
      split_ifs
      · exact List.mem_cons_self
      · exact List.mem_append_right _ (List.mem_singleton.mpr rfl)

theorem follows_unlink {entry : Entry} (h : Kept b before w known)
    (hmay : progress.may (known i) (.unlink .original t entry)) (hfault : e.fault = none) :
    Follows b before known i (.unlink .original t entry) (handle b e (.unlink .original t entry) w).1
      (handle b e (.unlink .original t entry) w).2 := by
  obtain ⟨entries, hi⟩ := hmay
  have hknows := h.knows i
  rw [hi] at hknows
  obtain ⟨hbegun, hleft⟩ := hknows
  rw [handle_undisturbed hfault, Follows, hi]
  have hretries : (known i).retries = some t := by rw [hi]; rfl
  cases entry with
  | metaFile =>
    have hgone : (w.setTask t none).tasks t = none := Function.update_self ..
    exact ⟨trivial, h.removing hretries hbegun (onlyAt_setTask w t none) (.inr hgone) (.inl hgone)⟩
  | image file =>
    have hrest : w.tasks t = none ∨ Entry.metaFile ∈ entries := hleft.imp_right fun hin => by
      simpa using hin
    exact ⟨trivial, h.removing hretries hbegun (onlyAt_setImages w t _) (.inl rfl) hrest⟩

/-- Every operation that a retry may perform keeps the invariant. -/
theorem keeps_kept (b : Backend) : progress.KeepsWith (handle b) (Kept b before)
    fun known i e o w => Orderly (Alone known i) before e o w := by
  intro i e o w known h hmay horderly
  cases o with
  | outside what =>
    refine follows_still h (fun r => ?_) ⟨trivial, fun _ hr => hr⟩ rfl
    cases known i <;> rfl
  | readMeta t => exact follows_readMeta h hmay horderly
  | createTask original ownerTokenHash => exact follows_createTask h hmay horderly
  | reserve t => exact follows_reserve h hmay horderly
  | listImages t => exact follows_listImages h hmay
  | copyImage source file t index => exact follows_copyImage h hmay
  | setTaskImages t imageCount => exact follows_setTaskImages h hmay
  | updateMeta t =>
    refine follows_still h (fun r => ?_) ⟨?_, fun _ hr => hr⟩ ?_
    · cases known i <;> rfl
    · unfold perform
      dsimp only
      split
      · simp [progress, fileNotFound]
      · trivial
    · unfold perform
      dsimp only
      split <;> rfl
  | finalize t => exact follows_finalize h hmay horderly
  | refund t => exact follows_refund h hmay horderly
  | deleteRow why t =>
    cases why with
    | original => exact follows_deleteRow h hmay horderly
    | replacement => exact follows_deleteReplacement h (.inl rfl) hmay
  | listEntries why t =>
    cases why with
    | original => exact follows_listEntries h hmay horderly
    | replacement => exact follows_deleteReplacement h (.inr (.inl rfl)) hmay
  | unlink why t entry =>
    cases why with
    | original => exact follows_unlink h hmay horderly
    | replacement => exact follows_deleteReplacement h (.inr (.inr ⟨entry, rfl⟩)) hmay

/-! ### Runs -/

theorem Facts.retriedOnce (h : Facts before w) : RetriedOnce before w where
  pending o ho := by
    refine countP_le_one _ ((replacements_sublist w o).nodup h.nodup) fun t ht t' ht' hin hin' => ?_
    exact h.single o ho t ht t' ht' (.inl (of_decide_eq_true hin)) (.inl (of_decide_eq_true hin'))
  charged o ho := by
    refine countP_le_one _ ((replacements_sublist w o).nodup h.nodup) fun t ht t' ht' hin hin' => ?_
    exact h.single o ho t ht t' ht' (.inr (of_decide_eq_true hin)) (.inr (of_decide_eq_true hin'))
  images := h.copied

theorem kept_start (b : Backend) (before : Storage) :
    Kept b before { toStorage := before } fun _ => progress.start where
  facts := {
    fresh := fun _ ht => by cases ht
    nodup := List.nodup_nil
    young := fun _ ht => by cases ht
    old := fun _ _ _ hget => hget
    single := fun _ _ _ ht => by cases ht
    kept := fun _ ht => by cases ht
    whole := fun _ _ _ => rfl
    copied := fun _ _ _ hentry => by cases hentry }
  knows _ := trivial
  distinct _ _ _ _ ht := by cases ht
  alone _ _ _ _ ho := by cases ho
  settled _ _ _ ht := by cases ht

/-- The retries know nothing yet. -/
def untold (before : Storage) : Tracked RetrySig World Stage where
  config := start before
  known _ := progress.start

/-- Where no request reads a failed task while another one is retrying it, every failed task is
retried at most once and completely. -/
theorem retried_once (before : Storage) (b : Backend) (labels : List (Label RetryCall Env))
    (h : AllSteps (progress.step (handle b) RetryCall.prog)
      (progress.OnCurrent fun known i e o w => Orderly (Alone known i) before e o w) labels
      (untold before)) :
    Throughout (step b) (fun c => RetriedOnce before c.shared) labels (start before) := by
  have hend : ∀ w known i, Kept b before w known → (known i).Rests →
      Kept b before w (Function.update known i progress.start) := fun _ _ _ h hrests => h.rest hrests
  have hattends : progress.Attends Stage.Rests (Kept b before) (untold before) :=
    ⟨fun _ => trivial, kept_start b before⟩
  have hrun := attends_run call_rests hend (keeps_kept b) hattends h
  exact throughout_config.mp (hrun.mono fun _ ht => ht.inv.facts.retriedOnce)

/-! ### Two requests for one task -/

section Sample

section Decidable

variable (before : Storage) (w : World) (e : Env) (o : RetryOp)

instance (t : TaskId) : Decidable (before.Failed t) :=
  decidable_of_iff (∃ task ∈ before.tasks t, task.status = .failed) Iff.rfl

instance (t : TaskId) : Decidable (Unused before w t) :=
  decidable_of_iff (before.tasks t = none ∧ t ∉ w.createdIds ∧ w.tasks t = none ∧
      w.images t = [] ∧ w.reservations t = none)
    ⟨fun ⟨h₁, h₂, h₃, h₄, h₅⟩ => ⟨h₁, h₂, h₃, h₄, h₅⟩,
      fun ⟨h₁, h₂, h₃, h₄, h₅⟩ => ⟨h₁, h₂, h₃, h₄, h₅⟩⟩

instance (alone : TaskId → Prop) [DecidablePred alone] :
    Decidable (Orderly alone before e o w) := by
  have hnone : e.fault.isNone = true ↔ e.fault = none := Option.isNone_iff_eq_none
  cases o with
  | readMeta t =>
    have hread : (∀ task ∈ w.tasks t, task.status = .failed → alone t) ↔
        ((∃ task ∈ w.tasks t, task.status = .failed) → alone t) :=
      ⟨fun h ⟨task, hget, hfailed⟩ => h task hget hfailed,
        fun h task hget hfailed => h ⟨task, hget, hfailed⟩⟩
    exact decidable_of_iff _ hread
  | createTask original ownerTokenHash => exact inferInstanceAs (Decidable (Unused before w e.fresh))
  | reserve t => exact inferInstanceAs (Decidable (∀ fault ∈ e.fault, fault.done = false))
  | finalize t => exact inferInstanceAs (Decidable (∀ fault ∈ e.fault, fault.done = false))
  | refund t => exact inferInstanceAs (Decidable (∀ fault ∈ e.fault, fault.done = true))
  | deleteRow why t =>
    cases why with
    | original => exact decidable_of_iff _ hnone
    | replacement => exact inferInstanceAs (Decidable True)
  | listEntries why t =>
    cases why with
    | original => exact decidable_of_iff _ hnone
    | replacement => exact inferInstanceAs (Decidable True)
  | unlink why t entry =>
    cases why with
    | original => exact decidable_of_iff _ hnone
    | replacement => exact inferInstanceAs (Decidable True)
  | _ => exact inferInstanceAs (Decidable True)

end Decidable

/-- A failed task with one image. -/
def oneFailed : Storage where
  tasks := Function.update (fun _ => none) "o"
    (some { status := .failed, ownerTokenHash := "u", imageCount := 1 })
  images := Function.update (fun _ => []) "o" [⟨1, ".png"⟩]

/-- Operations of one request that nothing disturbs. -/
def steps (thread count : Nat) (fresh : TaskId) : List (Label RetryCall Env) :=
  List.replicate count (.act thread { chars := .ascii, fresh })

def request (thread : Nat) : Label RetryCall Env :=
  .spawn thread (.retryCompletedTask (.temp "u") "o")

/-- A second request that comes after the first one has ended. -/
def retryThenRetry : List (Label RetryCall Env) :=
  request 0 :: steps 0 16 "p" ++ request 1 :: steps 1 16 "q"

/-- A second request that has read the status before the first one has ended. -/
def retryTwice : List (Label RetryCall Env) :=
  request 0 :: steps 0 1 "p" ++ request 1 :: steps 1 1 "q" ++ steps 0 15 "p" ++ steps 1 15 "q"

/-- Threads that never run retry nothing. -/
theorem alone_of_bounded {n : Nat} {labels : List (Label RetryCall Env)}
    (hthreads : ∀ label ∈ labels, label.thread < n)
    (h : AllSteps (progress.step (handle b) RetryCall.prog)
      (progress.OnCurrent fun known i e o w =>
        Orderly (fun t => ∀ j < n, j ≠ i → (known j).retries ≠ some t) before e o w) labels
      (untold before)) :
    AllSteps (progress.step (handle b) RetryCall.prog)
      (progress.OnCurrent fun known i e o w => Orderly (Alone known i) before e o w) labels
      (untold before) := by
  refine allSteps_current_of_idle hthreads (fun _ _ => rfl)
    (fun known i e o w hrest horderly => ?_) h
  have halone : (fun t => ∀ j < n, j ≠ i → (known j).retries ≠ some t) = Alone known i := by
    funext t
    refine propext ⟨fun hsome j hji => ?_, fun hall j _ => hall j⟩
    by_cases hj : j < n
    · exact hsome j hj hji
    · rw [hrest j (not_lt.mp hj)]
      nofun
  rwa [halone] at horderly

theorem two_threads : ∀ label ∈ retryThenRetry, label.thread < 2 := by
  decide +kernel

theorem retried_once_then_again :
    Throughout (step .postgres) (fun c => RetriedOnce oneFailed c.shared) retryThenRetry
      (start oneFailed) :=
  retried_once oneFailed .postgres retryThenRetry
    (alone_of_bounded two_threads (by decide +kernel))

example : (run (step .postgres) retryThenRetry (start oneFailed)).shared.opened =
    [⟨"p", 1, [⟨1, ".png"⟩]⟩] := by
  decide +kernel

/-- Both replacements become pending, and the second one without the image. -/
theorem retried_twice : ¬ ∀ (before : Storage) (b : Backend) (labels : List (Label RetryCall Env)),
    Throughout (step b) (fun c => RetriedOnce before c.shared) labels (start before) := by
  intro h
  have hpending := (h oneFailed .postgres retryTwice).final.pending "o" (by decide +kernel)
  exact absurd hpending (by decide +kernel)

end Sample

end FetchTask.Retrying
