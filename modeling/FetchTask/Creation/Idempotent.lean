import FetchTask.Creation

/-!
At most one task for a key.

A stored task is told by its identity: the fields that a key is checked against,
which no operation changes. `Idempotent` says that the stored tasks are the first
ones and the created ones, that no two of them have owner, route and key in
common, and that every call was answered with a task of its own or refused.
-/

namespace FetchTask.Creation

open Store Runs

/-! ### The law -/

/-- What a task is found by. -/
structure Identity where
  id : String
  ownerTokenHash : String
  requestRoute : String
  idempotencyHash : String
  requestFingerprint : String
  deriving DecidableEq

def Task.identity (t : Task) : Identity where
  id := t.id
  ownerTokenHash := t.ownerTokenHash
  requestRoute := t.requestRoute
  idempotencyHash := t.idempotencyHash
  requestFingerprint := t.requestFingerprint

/-- Owner, route and key. -/
def Identity.triple (d : Identity) : String × String × String :=
  (d.ownerTokenHash, d.requestRoute, d.idempotencyHash)

def Request.triple (S : Setting) (r : Request) : String × String × String :=
  (r.ownerTokenHash, r.requestRoute, S.sha256 r.idempotencyKey)

/-- The task is the one that the call asks for. -/
def Identity.Matches (S : Setting) (d : Identity) (r : Request) : Prop :=
  d.triple = r.triple S ∧ d.requestFingerprint = r.requestFingerprint

/-- No two tasks with a key have owner, route and key in common (`dola_tasks_idempotency_idx`). -/
def Once (stored : List Identity) : Prop :=
  ((stored.filter fun d => d.idempotencyHash ≠ "").map Identity.triple).Nodup

/-- The task that a call returns. -/
def Answer.task? : Answer → Option Task
  | .created t | .existing t => some t
  | .raised _ => none

def Answer.created? : Answer → Option Task
  | .created t => some t
  | _ => none

/-- The identities of the tasks that have been created. -/
def createdBy (answers : List (Request × Answer)) : List Identity :=
  answers.filterMap fun a => a.2.created?.map Task.identity

/-- Every call has created one task, or found its own, or was refused. -/
structure Idempotent (S : Setting) (initial stored : List Identity)
    (answers : List (Request × Answer)) : Prop where
  grown : stored = initial ++ createdBy answers
  once : Once stored
  answered : ∀ a ∈ answers, ∀ t ∈ a.2.task?, t.identity ∈ stored ∧ t.identity.Matches S a.1
  differs : ∀ a ∈ answers, ∀ d ∈ stored, d.triple = a.1.triple S →
    d.requestFingerprint ≠ a.1.requestFingerprint → ∃ message, a.2 = .raised message

section

variable {S : Setting} {initial stored : List Identity} {answers : List (Request × Answer)}
  {r : Request} {t : Task} {d d' : Identity} {a : Answer}

theorem Identity.Matches.keyed (h : d.Matches S r) : d.idempotencyHash ≠ "" := by
  have hkey : d.idempotencyHash = S.sha256 r.idempotencyKey := congrArg (·.2.2) h.1
  rw [hkey]
  exact S.sha256_ne_empty r.idempotencyKey

/-- Two stored tasks with the same owner, route and key are one. -/
theorem Once.unique (h : Once stored) (hd : d ∈ stored) (hd' : d' ∈ stored)
    (hkeyed : d.idempotencyHash ≠ "") (htriple : d.triple = d'.triple) : d = d' := by
  have hkeyed' : d'.idempotencyHash ≠ "" := by
    have hkey : d.idempotencyHash = d'.idempotencyHash := congrArg (·.2.2) htriple
    rwa [← hkey]
  have hmem : d ∈ stored.filter fun d => d.idempotencyHash ≠ "" := by simp [hd, hkeyed]
  have hmem' : d' ∈ stored.filter fun d => d.idempotencyHash ≠ "" := by simp [hd', hkeyed']
  exact List.inj_on_of_nodup_map h hmem hmem' htriple

/-- A new task whose owner, route and key are not stored yet. -/
theorem Once.append (h : Once stored) (hnew : ∀ d' ∈ stored, d'.triple ≠ d.triple) :
    Once (stored ++ [d]) := by
  unfold Once at h ⊢
  rw [List.filter_append, List.map_append]
  refine List.Nodup.append h ?_ ?_
  · by_cases hkeyed : d.idempotencyHash ≠ "" <;> simp [hkeyed]
  · intro triple hold hlast
    obtain ⟨d', hd', rfl⟩ := List.mem_map.mp hold
    obtain ⟨d'', hd'', heq⟩ := List.mem_map.mp hlast
    have hself : d'' = d := by simpa using (List.mem_filter.mp hd'').1
    rw [hself] at heq
    exact hnew d' (List.mem_filter.mp hd').1 heq.symm

/-- The last part of the law follows from the others. -/
theorem Idempotent.of_answered (hgrown : stored = initial ++ createdBy answers)
    (honce : Once stored)
    (hanswered : ∀ a ∈ answers, ∀ t ∈ a.2.task?,
      t.identity ∈ stored ∧ t.identity.Matches S a.1) :
    Idempotent S initial stored answers := by
  refine ⟨hgrown, honce, hanswered, fun a ha d hd htriple hdiffers => ?_⟩
  cases hanswer : a.2 with
  | raised message => exact ⟨message, rfl⟩
  | created t | existing t =>
    obtain ⟨hmem, hmatches⟩ := hanswered a ha t (by simp [hanswer, Answer.task?])
    have hsame : t.identity = d :=
      honce.unique hmem hd hmatches.keyed (hmatches.1.trans htriple.symm)
    exact absurd (hsame ▸ hmatches.2) hdiffers

/-- A call that is refused. -/
theorem Idempotent.raised (h : Idempotent S initial stored answers) (r : Request)
    (message : String) : Idempotent S initial stored (answers ++ [(r, .raised message)]) := by
  refine .of_answered ?_ h.once fun a ha t ht => ?_
  · simpa [createdBy, Answer.created?] using h.grown
  · rcases List.mem_append.mp ha with hold | hlast
    · exact h.answered a hold t ht
    · obtain rfl : a = (r, .raised message) := by simpa using hlast
      cases ht

/-- A call that finds its task. -/
theorem Idempotent.existing (h : Idempotent S initial stored answers)
    (hmem : t.identity ∈ stored) (hmatches : t.identity.Matches S r) :
    Idempotent S initial stored (answers ++ [(r, .existing t)]) := by
  refine .of_answered ?_ h.once fun a ha t' ht' => ?_
  · simpa [createdBy, Answer.created?] using h.grown
  · rcases List.mem_append.mp ha with hold | hlast
    · exact h.answered a hold t' ht'
    · obtain rfl : a = (r, .existing t) := by simpa using hlast
      obtain rfl : t = t' := by simpa [Answer.task?] using ht'
      exact ⟨hmem, hmatches⟩

/-- A call that creates its task, of which there was none. -/
theorem Idempotent.created (h : Idempotent S initial stored answers)
    (hnew : ∀ d ∈ stored, d.triple ≠ r.triple S) (hmatches : t.identity.Matches S r) :
    Idempotent S initial (stored ++ [t.identity]) (answers ++ [(r, .created t)]) := by
  refine .of_answered ?_ (h.once.append ?_) fun a ha t' ht' => ?_
  · rw [h.grown]
    simp [createdBy, Answer.created?]
  · intro d hd
    rw [hmatches.1]
    exact hnew d hd
  · rcases List.mem_append.mp ha with hold | hlast
    · obtain ⟨hmem, hmatch⟩ := h.answered a hold t' ht'
      exact ⟨List.mem_append_left _ hmem, hmatch⟩
    · obtain rfl : a = (r, .created t) := by simpa using hlast
      obtain rfl : t = t' := by simpa [Answer.task?] using ht'
      exact ⟨by simp, hmatches⟩

theorem newTask_matches (r : Request) (platform id : String) (now : Int) :
    (newTask S r platform id now).identity.Matches S r := ⟨rfl, rfl⟩

/-- Operations of the store keep the identities. -/
theorem identity_record (id : String) (o : StoreOp) (tasks : List Task) :
    (tasks.map fun t => if t.id = id then { t with record := o.apply S.chars t.record } else t).map
      Task.identity = tasks.map Task.identity := by
  rw [List.map_map]
  refine List.map_congr_left fun t _ => ?_
  simp only [Function.comp_apply]
  split
  · simp [Task.identity, Task.ownerTokenHash, (storeOp_sameOwner (u := S.chars) o t.record).ownerTokenHash]
  · rfl

/-! ### The files -/

/-- A call of the administrator, whose owner hash is empty, does not find the task of another
owner that has the fingerprint of the call. -/
def FileCall.Respects (S : Setting) : FileCall → Files → Prop
  | .findOrCreate r _ now, files => r.ownerTokenHash = "" →
      ∀ t ∈ listedTask S r (files.tasks.map (Task.expireIfTimeout S now)),
        t.ownerTokenHash = "" ∨ t.requestFingerprint ≠ r.requestFingerprint
  | .record .., _ => True

instance (call : FileCall) (files : Files) : Decidable (call.Respects S files) := by
  cases call with
  | findOrCreate => exact inferInstanceAs (Decidable (_ → _))
  | record => exact inferInstanceAs (Decidable True)

/-- The law for the files. -/
def Files.Lawful (S : Setting) (initial : List Identity) (files : Files) : Prop :=
  Idempotent S initial (files.tasks.map Task.identity) files.answers

theorem identity_expireIfTimeout (now : Int) (t : Task) :
    (t.expireIfTimeout S now).identity = t.identity := by
  have howner : ∀ reason, (markFailed S.chars reason now t.record).2.ownerTokenHash =
      t.record.ownerTokenHash := fun reason =>
    (storeOp_sameOwner (u := S.chars) (.markFailed reason now) t.record).ownerTokenHash
  unfold Task.expireIfTimeout
  split
  · simp [Task.identity, Task.ownerTokenHash, howner]
  · rfl

theorem identity_expired (now : Int) (tasks : List Task) :
    (tasks.map (Task.expireIfTimeout S now)).map Task.identity = tasks.map Task.identity := by
  rw [List.map_map]
  exact List.map_congr_left fun t _ => identity_expireIfTimeout now t

theorem mem_listTasks {owner : Option String} {tasks : List Task} :
    t ∈ listTasks owner tasks ↔ t ∈ tasks ∧ ∀ hash ∈ owner, t.ownerTokenHash = hash := by
  unfold listTasks
  rw [List.mem_mergeSort, List.mem_filter]
  cases owner <;> simp

/-- What the listing finds: a stored task with the key and the route, of the owner unless the
owner is empty. -/
theorem listedTask_some {tasks : List Task} (h : listedTask S r tasks = some t) :
    t ∈ tasks ∧ t.idempotencyHash = S.sha256 r.idempotencyKey ∧ t.requestRoute = r.requestRoute ∧
      (r.ownerTokenHash ≠ "" → t.ownerTokenHash = r.ownerTokenHash) := by
  unfold listedTask at h
  have hkey : t.idempotencyHash = S.sha256 r.idempotencyKey ∧ t.requestRoute = r.requestRoute := by
    simpa using List.find?_some h
  obtain ⟨hmem, howner⟩ := mem_listTasks.mp (List.mem_of_find?_eq_some h)
  exact ⟨hmem, hkey.1, hkey.2, fun hne => howner _ (by simp [hne])⟩

/-- Where the listing finds nothing, no task of the owner has the key and the route. -/
theorem listedTask_none {tasks : List Task} (h : listedTask S r tasks = none) :
    ∀ t ∈ tasks, t.identity.triple ≠ r.triple S := by
  intro t ht htriple
  simp only [Identity.triple, Task.identity, Request.triple, Prod.mk.injEq] at htriple
  obtain ⟨howner, hroute, hkey⟩ := htriple
  have hlisted : t ∈ listTasks (if r.ownerTokenHash = "" then none else some r.ownerTokenHash)
      tasks := by
    refine mem_listTasks.mpr ⟨ht, fun hash hhash => ?_⟩
    split at hhash
    · cases hhash
    · obtain rfl : r.ownerTokenHash = hash := by simpa using hhash
      exact howner
  have hno := List.find?_eq_none.mp h t hlisted
  simp [hkey, hroute] at hno

theorem createTask_lawful {ids : List String} {now : Int} {tasks : List Task}
    (h : Idempotent S initial (tasks.map Task.identity) answers)
    (hnew : ∀ t ∈ tasks, t.identity.triple ≠ r.triple S) :
    Idempotent S initial ((createTask S r ids now tasks).2.map Task.identity)
      (answers ++ [(r, (createTask S r ids now tasks).1)]) := by
  unfold createTask
  cases hplatform : normalizePlatform S r.platform with
  | error message => exact h.raised r message
  | ok platform =>
    dsimp only
    cases hid : (ids.take 20).find? fun id => tasks.all fun t => t.id ≠ id with
    | none => exact h.raised r _
    | some id =>
      dsimp only
      rw [List.map_append]
      refine h.created (fun d hd => ?_) (newTask_matches r platform id now)
      obtain ⟨t, ht, rfl⟩ := List.mem_map.mp hd
      exact hnew t ht

/-- A call that respects the owners keeps the law. -/
theorem files_step (call : FileCall) (files : Files) (h : files.Lawful S initial)
    (hrespects : call.Respects S files) : (call.apply S files).Lawful S initial := by
  cases call with
  | record id o =>
    show Idempotent S initial (List.map _ (List.map _ _)) _
    rw [identity_record]
    exact h
  | findOrCreate r ids now =>
    have hexpired : Idempotent S initial
        ((files.tasks.map (Task.expireIfTimeout S now)).map Task.identity) files.answers := by
      rw [identity_expired]
      exact h
    simp only [Files.Lawful, FileCall.apply, findOrCreateTask]
    cases hlisted : listedTask S r (files.tasks.map (Task.expireIfTimeout S now)) with
    | none => exact createTask_lawful hexpired (listedTask_none hlisted)
    | some t =>
      dsimp only
      obtain ⟨hmem, hkey, hroute, howner⟩ := listedTask_some hlisted
      split
      · exact hexpired.raised r _
      · rename_i hsame
        have hfingerprint : t.requestFingerprint = r.requestFingerprint := not_not.mp hsame
        refine hexpired.existing (List.mem_map_of_mem hmem) ⟨?_, hfingerprint⟩
        have hown : t.ownerTokenHash = r.ownerTokenHash := by
          by_cases hadmin : r.ownerTokenHash = ""
          · rcases hrespects hadmin t hlisted with hempty | hdiffers
            · rw [hempty, hadmin]
            · exact absurd hfingerprint hdiffers
          · exact howner hadmin
        simp [Identity.triple, Task.identity, Request.triple, hown, hroute, hkey]

/-- A call that finds the task of another owner is answered with it. -/
theorem files_broken {call : FileCall} {files : Files} (h : ¬ call.Respects S files) :
    ∃ r t, (r, Answer.existing t) ∈ (call.apply S files).answers ∧ ¬ t.identity.Matches S r := by
  cases call with
  | record id o => exact absurd trivial h
  | findOrCreate r ids now =>
    simp only [FileCall.Respects, not_forall, not_or, not_not] at h
    obtain ⟨hadmin, t, hlisted, howner, hfingerprint⟩ := h
    refine ⟨r, t, ?_, fun hmatches => ?_⟩
    · have hfound : listedTask S r (files.tasks.map (Task.expireIfTimeout S now)) = some t := hlisted
      simp [FileCall.apply, findOrCreateTask, hfound, hfingerprint]
    · have hsame : t.ownerTokenHash = r.ownerTokenHash := congrArg Prod.fst hmatches.1
      exact howner (hsame.trans hadmin)

/-- Answers are not taken back. -/
theorem answers_grow {calls : List FileCall} {files : Files} {a : Request × Answer}
    (h : a ∈ files.answers) : a ∈ (run (FileCall.apply S) calls files).answers := by
  induction calls generalizing files with
  | nil => exact h
  | cons call calls ih =>
    refine ih ?_
    cases call with
    | record => exact h
    | findOrCreate => exact List.mem_append_left _ h

theorem files_idempotent_iff (calls : List FileCall) (files : Files)
    (h : files.Lawful S initial) :
    (run (FileCall.apply S) calls files).Lawful S initial ↔
      AllSteps (FileCall.apply S) (FileCall.Respects S) calls files := by
  induction calls generalizing files with
  | nil => exact iff_of_true h trivial
  | cons call calls ih =>
    by_cases hrespects : call.Respects S files
    · rw [run, ih _ (files_step call files h hrespects)]
      exact (and_iff_right hrespects).symm
    · refine iff_of_false (fun hlaw => ?_) fun hall => hrespects hall.1
      obtain ⟨r, t, hanswer, hother⟩ := files_broken hrespects
      have hkept : _ ∈ (run (FileCall.apply S) calls _).answers := answers_grow hanswer
      exact hother (hlaw.answered _ hkept t rfl).2

/-! ### Postgres -/

/-- What holds of a connection: its task is the one of its call; from the lock on it holds the lock
of the call; and when it has found no row there is none. -/
def Session.Sound (S : Setting) (stored : List Identity) (holds : Request → Prop) :
    Session → Prop
  | .idle => True
  | .begun r t => t.identity.Matches S r
  | .locked r t => t.identity.Matches S r ∧ holds r
  | .found r _ row => row.identity ∈ stored ∧ row.identity.Matches S r ∧ holds r
  | .absent r t | .inserted r t =>
    t.identity.Matches S r ∧ holds r ∧ ∀ d ∈ stored, d.triple ≠ r.triple S

/-- The lock of a call is held by the connection. -/
def Database.HeldBy (S : Setting) (db : Database) (i : Nat) (r : Request) : Prop :=
  db.holder (lockScope S r) = some i

structure Database.Sound (S : Setting) (initial : List Identity) (db : Database) : Prop where
  law : Idempotent S initial (db.tasks.map Task.identity) db.answers
  sessions : ∀ i, (db.session i).Sound S (db.tasks.map Task.identity) (db.HeldBy S i)

/-- Calls with the same owner, route and key take the same lock. -/
theorem lockScope_eq {r' : Request} (h : r.triple S = r'.triple S) :
    lockScope S r = lockScope S r' := by
  simp only [Request.triple, Prod.mk.injEq] at h
  simp only [lockScope, h]

theorem Session.Sound.mono {session : Session} {stored' : List Identity} {holds holds' : Request → Prop}
    (h : session.Sound S stored holds) (hholds : ∀ r, holds r → holds' r)
    (hstored : ∀ d ∈ stored, d ∈ stored')
    (hnew : ∀ r, holds r → ∀ d ∈ stored', d ∈ stored ∨ d.triple ≠ r.triple S) :
    session.Sound S stored' holds' := by
  cases session with
  | idle => trivial
  | begun r t => exact h
  | locked r t => exact ⟨h.1, hholds r h.2⟩
  | found r t row => exact ⟨hstored _ h.1, h.2.1, hholds r h.2.2⟩
  | absent r t | inserted r t =>
    refine ⟨h.1, hholds r h.2.1, fun d hd => ?_⟩
    rcases hnew r h.2.1 d hd with hold | hother
    · exact h.2.2 d hold
    · exact hother

theorem isOf_iff : t.isOf S r = true ↔ t.identity.triple = r.triple S := by
  simp [Task.isOf, Identity.triple, Task.identity, Request.triple]

/-- A connection goes on, with the locks and the rows as they are. -/
theorem Database.Sound.enter {db : Database} (h : db.Sound S initial) (i : Nat) {session : Session}
    (hsession : session.Sound S (db.tasks.map Task.identity) (db.HeldBy S i)) :
    (db.enter i session).Sound S initial := by
  refine ⟨h.law, fun j => ?_⟩
  show ((Function.update db.session i session) j).Sound S _ _
  by_cases hj : j = i
  · subst hj
    rw [Function.update_self]
    exact hsession
  · rw [Function.update_of_ne hj]
    exact h.sessions j

/-- A connection ends its transaction, which may have added a row under its lock. -/
theorem Database.Sound.finish {db : Database} (h : db.Sound S initial) {i : Nat} {tasks : List Task}
    {answer : Answer} (hlaw : Idempotent S initial (tasks.map Task.identity)
      (db.answers ++ [(r, answer)]))
    (hkept : ∀ d ∈ db.tasks.map Task.identity, d ∈ tasks.map Task.identity)
    (hnew : ∀ d ∈ tasks.map Task.identity, d ∈ db.tasks.map Task.identity ∨
      (d.triple = r.triple S ∧ db.HeldBy S i r)) :
    ({ db with tasks := tasks }.finish i r answer).Sound S initial := by
  refine ⟨hlaw, fun j => ?_⟩
  show ((Function.update db.session i .idle) j).Sound S _ _
  by_cases hj : j = i
  · subst hj
    rw [Function.update_self]
    trivial
  · rw [Function.update_of_ne hj]
    refine (h.sessions j).mono (fun r' hheld => ?_) hkept fun r' hheld d hd => ?_
    · -- Only the locks of the other connection are released.
      have hother : db.holder (lockScope S r') = some j := hheld
      simp [Database.HeldBy, Database.finish, hother, hj]
    · refine (hnew d hd).imp_right fun hrow htriple => hj ?_
      obtain ⟨hsame, hmine⟩ := hrow
      have hscope : lockScope S r' = lockScope S r := lockScope_eq (htriple.symm.trans hsame)
      have hother : db.holder (lockScope S r') = some j := hheld
      rw [hscope] at hother
      exact Option.some.inj (hother.symm.trans hmine)

theorem Database.Sound.refuse {db : Database} (h : db.Sound S initial) (i : Nat) (r : Request)
    (message : String) : (db.finish i r (.raised message)).Sound S initial :=
  h.finish (h.law.raised r message) (fun _ hd => hd) fun _ hd => .inl hd

/-- Every step of every connection keeps the invariant. -/
theorem database_step (step : Step) (db : Database) (h : db.Sound S initial) :
    (step.apply S db).Sound S initial := by
  cases step with
  | start i r id now =>
    cases hsession : db.session i with
    | idle =>
      simp only [Step.apply, hsession]
      cases hplatform : normalizePlatform S r.platform with
      | error message => exact ⟨h.law.raised r message, h.sessions⟩
      | ok platform => exact h.enter i (newTask_matches r platform id now)
    | _ => simpa only [Step.apply, hsession] using h
  | lock i =>
    cases hsession : db.session i with
    | begun r t =>
      simp only [Step.apply, hsession]
      split
      · rename_i hfree
        have hmatches : t.identity.Matches S r := by
          have hsound := h.sessions i
          rwa [hsession] at hsound
        have hlocked : Database.Sound S initial
            { db with holder := Function.update db.holder (lockScope S r) (some i) } := ?_
        · exact hlocked.enter i ⟨hmatches, by simp [Database.HeldBy]⟩
        refine ⟨h.law, fun j => ?_⟩
        -- The lock was free, so no other connection loses one.
        refine (h.sessions j).mono (fun r' hheld => ?_) (fun _ hd => hd) fun _ _ _ hd => .inl hd
        have hother : db.holder (lockScope S r') = some j := hheld
        have hne : lockScope S r' ≠ lockScope S r := by
          intro heq
          rw [heq, hfree] at hother
          cases hother
        simp [Database.HeldBy, hne, hother]
      · exact h
    | _ => simpa only [Step.apply, hsession] using h
  | select i =>
    cases hsession : db.session i with
    | locked r t =>
      have hsound := h.sessions i
      rw [hsession] at hsound
      obtain ⟨hmatches, hheld⟩ := hsound
      simp only [Step.apply, hsession]
      cases hrow : db.tasks.find? fun row => row.isOf S r with
      | none =>
        refine h.enter i ⟨hmatches, hheld, fun d hd htriple => ?_⟩
        obtain ⟨row, hmem, rfl⟩ := List.mem_map.mp hd
        exact List.find?_eq_none.mp hrow row hmem (isOf_iff.mpr htriple)
      | some row =>
        dsimp only
        split
        · exact h.refuse i r _
        · rename_i hsame
          have hfound : row.isOf S r = true := by simpa using List.find?_some hrow
          have htriple := isOf_iff.mp hfound
          refine h.enter i ⟨List.mem_map_of_mem (List.mem_of_find?_eq_some hrow), ?_, hheld⟩
          exact ⟨htriple, not_not.mp hsame⟩
    | _ => simpa only [Step.apply, hsession] using h
  | insert i =>
    cases hsession : db.session i with
    | absent r t =>
      have hsound := h.sessions i
      rw [hsession] at hsound
      simp only [Step.apply, hsession]
      exact h.enter i hsound
    | _ => simpa only [Step.apply, hsession] using h
  | commit i =>
    cases hsession : db.session i with
    | found r t row =>
      have hsound := h.sessions i
      rw [hsession] at hsound
      obtain ⟨hmem, hmatches, -⟩ := hsound
      simp only [Step.apply, hsession]
      exact h.finish (h.law.existing hmem hmatches) (fun _ hd => hd) fun _ hd => .inl hd
    | inserted r t =>
      have hsound := h.sessions i
      rw [hsession] at hsound
      obtain ⟨hmatches, hheld, hnew⟩ := hsound
      simp only [Step.apply, hsession]
      split
      · exact h.refuse i r _
      · refine h.finish ?_ (fun d hd => by simp [hd]) fun d hd => ?_
        · rw [List.map_append]
          exact h.law.created hnew hmatches
        · rw [List.map_append] at hd
          rcases List.mem_append.mp hd with hold | hlast
          · exact .inl hold
          · obtain rfl : d = t.identity := by simpa using hlast
            exact .inr ⟨hmatches.1, hheld⟩
    | _ => simpa only [Step.apply, hsession] using h
  | abort i =>
    cases hsession : db.session i with
    | idle => simpa only [Step.apply, hsession] using h
    | _ =>
      simp only [Step.apply, hsession]
      exact h.refuse i _ _
  | record id o =>
    have hsame := identity_record (S := S) id o db.tasks
    refine ⟨?_, fun j => ?_⟩
    · show Idempotent S initial (List.map _ (List.map _ _)) _
      rw [hsame]
      exact h.law
    · show (db.session j).Sound S (List.map _ (List.map _ _)) _
      rw [hsame]
      exact h.sessions j

theorem database_sound (steps : List Step) (db : Database) (h : db.Sound S initial) :
    (run (Step.apply S) steps db).Sound S initial := by
  induction steps generalizing db with
  | nil => exact h
  | cons step steps ih => exact ih _ (database_step step db h)

/-! ### Both backends -/

/-- With Postgres the law holds however the transactions interleave; with the files it holds after
a sequence of calls exactly when no call of the administrator is answered with the task of
another owner. -/
theorem creation_idempotent_iff (S : Setting) (tasks : List Task)
    (h : Once (tasks.map Task.identity)) :
    (∀ calls : List FileCall,
      (run (FileCall.apply S) calls { tasks }).Lawful S (tasks.map Task.identity) ↔
        AllSteps (FileCall.apply S) (FileCall.Respects S) calls { tasks }) ∧
    ∀ steps : List Step, Idempotent S (tasks.map Task.identity)
      ((run (Step.apply S) steps { tasks }).tasks.map Task.identity)
      (run (Step.apply S) steps { tasks }).answers := by
  have hstart : Idempotent S (tasks.map Task.identity) (tasks.map Task.identity) [] :=
    .of_answered (by simp [createdBy]) h (by simp)
  refine ⟨fun calls => files_idempotent_iff calls { tasks } hstart, fun steps => ?_⟩
  exact (database_sound steps { tasks } ⟨hstart, fun _ => trivial⟩).law

end

/-! ### A key of the administrator that a user has used -/

section Sample

def sampleSetting : Setting where
  chars := .ascii
  sha256 key := "#" ++ key
  sha256_ne_empty key h := by
    have hlength := congrArg String.length h
    simp at hlength
  hashText _ := 0

def sampleRequest (owner : String) : Request where
  prompt := "a cat"
  ratio := "9:16"
  ownerTokenHash := owner
  platform := "dola"
  model := "Seedance 2.0"
  taskType := "video"
  idempotencyKey := "k"
  requestFingerprint := "f"
  requestRoute := "tasks"

/-- A user repeats a request, and a request of another user has the same key. -/
def usersCreate : List FileCall :=
  [.findOrCreate (sampleRequest "a") ["1"] 0, .findOrCreate (sampleRequest "a") ["2"] 1,
    .findOrCreate (sampleRequest "b") ["3"] 2]

theorem creation_idempotent_users :
    (∀ calls : List FileCall,
      (run (FileCall.apply sampleSetting) calls { tasks := [] }).Lawful sampleSetting [] ↔
        AllSteps (FileCall.apply sampleSetting) (FileCall.Respects sampleSetting) calls
          { tasks := [] }) ∧
    ∀ steps : List Step, Idempotent sampleSetting []
      ((run (Step.apply sampleSetting) steps { tasks := [] }).tasks.map Task.identity)
      (run (Step.apply sampleSetting) steps { tasks := [] }).answers :=
  creation_idempotent_iff sampleSetting [] (by simp [Once])

example : AllSteps (FileCall.apply sampleSetting) (FileCall.Respects sampleSetting) usersCreate
    { tasks := [] } := by
  decide +kernel

/-- The administrator's call returns the user's task. -/
theorem administrator_gets_task_of_user :
    ¬ (run (FileCall.apply sampleSetting) [.findOrCreate (sampleRequest "a") ["1"] 0,
      .findOrCreate (sampleRequest "") ["2"] 1] { tasks := [] }).Lawful sampleSetting [] := by
  intro h
  have hanswer : ((run (FileCall.apply sampleSetting) [.findOrCreate (sampleRequest "a") ["1"] 0,
      .findOrCreate (sampleRequest "") ["2"] 1] { tasks := [] }).answers)[1]?.map
        (fun a => (a.1.ownerTokenHash, a.2.task?.map Task.ownerTokenHash)) =
      some ("", some "a") := by
    decide +kernel
  obtain ⟨a, ha, heq⟩ := Option.map_eq_some_iff.mp hanswer
  simp only [Prod.mk.injEq] at heq
  obtain ⟨t, ht, howner⟩ := Option.map_eq_some_iff.mp heq.2
  have hmatches := (h.answered a (List.mem_of_getElem? ha) t ht).2
  have hsame : t.ownerTokenHash = a.1.ownerTokenHash := congrArg Prod.fst hmatches.1
  rw [howner, heq.1] at hsame
  simp at hsame

end Sample

end FetchTask.Creation
