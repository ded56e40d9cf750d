import FetchTask.StorageMigrate

/-!
Why the storage cannot be migrated.

The test of the target reads every document, and the one of the accounts is an
object with the member `accounts` even where the table is empty. So every target
passes for occupied. The test comes after the backup directory is made and before
the cleanup is in place, and the directory is left behind.
-/

namespace FetchTask.StorageMigrate

open Raising

/-! ### What a migration should do -/

/-- The items of a document that is compared as a set, each with its key. -/
def keyedRows (str : Json → String) (name : String) (content : Option Json) :
    List (String × Json) :=
  let value := content.getD (.object [])
  if name = "accounts" then
    match value.getD "accounts" (.array []) with
    | .array items => items.map fun item => (Json.textOf str (item.get? "id"), item)
    | _ => []
  else if name = "temp_tokens" then ((value.get? "tokens").bind Json.members?).getD []
  else if name = "users" then ((value.get? "users").bind Json.members?).getD []
  else []

/-- The other documents are compared by their members. -/
def SameDocument (str : Json → String) (name : String) (a b : Option Json) : Prop :=
  if name ∈ ["accounts", "temp_tokens", "users"] then
    ∀ row, row ∈ keyedRows str name a ↔ row ∈ keyedRows str name b
  else ∀ key, (a.getD (.object [])).get? key = (b.getD (.object [])).get? key

structure SameTask (a b : TaskDir) : Prop where
  record : b.record = a.record
  result : b.result.getD (.object []) = a.result.getD (.object [])
  images : b.images.getD [] = a.images.getD []

structure Reproduces (str : Json → String) (a b : DataDir) : Prop where
  documents : ∀ e ∈ documentFiles, SameDocument str e.1 (a.documents e.2) (b.documents e.2)
  tasks : ∀ e ∈ a.tasks.getD [], e.2.record.isSome →
    ∃ dir, (e.1, dir) ∈ b.tasks.getD [] ∧ SameTask e.2 dir

/-- No command raises. -/
def Setting.undisturbed (S : Setting) : Setting := { S with faults := fun _ => none }

/-- A data directory can be migrated to an empty database, a migration that raises leaves
nothing behind, and the way back reproduces the directory. -/
structure Sound (S : Setting) (data : DataDir) : Prop where
  possible : ∃ counts w, migrateToPostgres S.undisturbed { data } = .ok counts w
  atomic : ∀ faults error w, migrateToPostgres { S with faults } { data } = .error error w →
    w.db = {} ∧ w.backup = none
  reversible : ∀ counts w, migrateToPostgres S.undisturbed { data } = .ok counts w →
    ∃ counts' w', rollbackToJson S.undisturbed { w with data := {} } = .ok counts' w' ∧
      Reproduces S.str data w'.data

/-! ### The test of the target -/

/-- Only commands were counted. -/
def Same (w w' : World) : Prop := ∃ n, w' = { w with commands := n }

variable {S : Setting} {w w' w'' : World}

theorem Same.refl (w : World) : Same w w := ⟨w.commands, rfl⟩

theorem Same.trans (h : Same w w') (h' : Same w' w'') : Same w w'' := by
  obtain ⟨n, rfl⟩ := h
  obtain ⟨n', rfl⟩ := h'
  exact ⟨n', rfl⟩

theorem reading_ends {α : Type} (f : World → Except String α) :
    Ends (reading S f) w (fun a w' => (∃ n, f { w with commands := n } = .ok a) ∧ Same w w')
      (fun _ w' => Same w w') := by
  unfold Ends reading command
  dsimp only
  cases S.faults (w.commands + 1 - 1) with
  | some error => exact ⟨w.commands + 1, rfl⟩
  | none =>
    cases hf : f { w with commands := w.commands + 1 } with
    | ok a => exact ⟨⟨_, hf⟩, ⟨w.commands + 1, rfl⟩⟩
    | error error => exact ⟨w.commands + 1, rfl⟩

/-- The document of the accounts is never empty. -/
theorem readDocument_accounts : Ends (readDocument S "accounts") w
    (fun payload w' => payload.truthy = true ∧ Same w w') (fun _ w' => Same w w') := by
  refine (reading_ends _).mono ?_ fun _ _ hsame => hsame
  rintro payload w' ⟨⟨n, hread⟩, hsame⟩
  obtain rfl := Except.ok.inj hread
  exact ⟨Json.truthy_object_cons _ _, hsame⟩

theorem anyDocument_ends (names : List String) (hnames : "accounts" ∈ names) :
    Ends (anyDocument S names) w (fun any w' => any = true ∧ Same w w')
      (fun _ w' => Same w w') := by
  induction names generalizing w with
  | nil => cases hnames
  | cons name names ih =>
    have hread : Ends (readDocument S name) w
        (fun payload w' => (name = "accounts" → payload.truthy = true) ∧ Same w w')
        (fun _ w' => Same w w') := by
      by_cases hname : name = "accounts"
      · subst hname
        exact readDocument_accounts.mono (fun _ _ h => ⟨fun _ => h.1, h.2⟩) fun _ _ h => h
      · exact (reading_ends _).mono (fun _ _ h => ⟨fun heq => absurd heq hname, h.2⟩) fun _ _ h => h
    refine Ends.bind hread ?_
    rintro payload w₁ ⟨htruthy, hsame⟩
    split
    next => exact Ends.pure ⟨rfl, hsame⟩
    next hempty =>
      have hrest : "accounts" ∈ names := by
        rcases List.mem_cons.mp hnames with rfl | hmem
        · exact absurd (htruthy rfl) hempty
        · exact hmem
      exact (ih hrest).mono (fun _ _ h => ⟨h.1, hsame.trans h.2⟩) fun _ _ h => hsame.trans h

/-- Every target passes for occupied. -/
theorem occupied_ends : Ends (occupied S) w (fun occupied w' => occupied = true ∧ Same w w')
    (fun _ w' => Same w w') := by
  refine Ends.bind ((reading_ends _).mono (fun _ _ h => h.2) fun _ _ h => h) ?_
  intro ids w₁ hsame
  split
  next => exact Ends.pure ⟨rfl, hsame⟩
  next =>
    refine (anyDocument_ends _ (by decide)).mono ?_ fun _ _ h => hsame.trans h
    exact fun _ _ h => ⟨h.1, hsame.trans h.2⟩

/-! ### The migration -/

theorem writing_ends (f : World → World) : Ends (writing S f) w
    (fun _ w' => w' = f { w with commands := w.commands + 1 })
    (fun _ w' => S.faults w.commands ≠ none ∧ Same w w') := by
  unfold Ends writing command
  dsimp only
  rw [Nat.add_sub_cancel]
  cases S.faults w.commands with
  | some error => exact ⟨Option.some_ne_none _, ⟨w.commands + 1, rfl⟩⟩
  | none => rfl

/-- The first command finds that there is no backup directory. -/
theorem reading_backup_ends (hbackup : w.backup = none) :
    Ends (reading S fun w => .ok w.backup.isSome) w
      (fun found w' => found = false ∧ w' = { w with commands := w.commands + 1 })
      (fun _ w' => S.faults w.commands ≠ none ∧ Same w w') := by
  unfold Ends reading command
  dsimp only
  rw [Nat.add_sub_cancel]
  cases S.faults w.commands with
  | some error => exact ⟨Option.some_ne_none _, ⟨w.commands + 1, rfl⟩⟩
  | none => exact ⟨by rw [hbackup]; rfl, rfl⟩

/-- No migration succeeds. It leaves the database alone, and once its backup directory is
made, that stays. -/
theorem migrateToPostgres_ends (hbackup : w.backup = none) :
    Ends (migrateToPostgres S) w (fun _ _ => False)
      (fun _ w' => w'.db = w.db ∧
        (S.enabled = true → S.faults w.commands = none → S.faults (w.commands + 1) = none →
          w'.backup = some {})) := by
  unfold migrateToPostgres
  split
  next henabled =>
    refine Ends.bind ((reading_backup_ends hbackup).mono (fun _ _ h => h) ?_) ?_
    · rintro _ w' ⟨hfault, n, rfl⟩
      exact ⟨rfl, fun _ hnone => absurd hnone hfault⟩
    rintro found w₁ ⟨rfl, rfl⟩
    rw [if_neg Bool.false_ne_true]
    refine Ends.bind ((writing_ends _).mono (fun _ _ h => h) ?_) ?_
    · rintro _ w' ⟨hfault, n, rfl⟩
      exact ⟨rfl, fun _ _ hnone => absurd hnone hfault⟩
    rintro _ w₂ rfl
    -- From here on nothing but the count of the commands changes.
    refine Ends.bind (Q := fun _ w' => w'.db = w.db ∧ w'.backup = some {})
      ((writing_ends _).mono ?_ ?_) ?_
    · rintro _ w' rfl
      exact ⟨rfl, rfl⟩
    · rintro _ w' ⟨-, n, rfl⟩
      exact ⟨rfl, fun _ _ _ => rfl⟩
    rintro _ w₃ ⟨hdb, hmade⟩
    have hkept : ∀ w', Same w₃ w' → w'.db = w.db ∧ w'.backup = some {} := by
      rintro _ ⟨n, rfl⟩
      exact ⟨hdb, hmade⟩
    refine Ends.bind (occupied_ends.mono (fun _ _ h => h) ?_) ?_
    · intro _ w' hsame
      exact ⟨(hkept w' hsame).1, fun _ _ _ => (hkept w' hsame).2⟩
    rintro occupied w₄ ⟨rfl, hsame⟩
    rw [if_pos rfl]
    exact Ends.throw ⟨(hkept w₄ hsame).1, fun _ _ _ => (hkept w₄ hsame).2⟩
  next hdisabled => exact Ends.throw ⟨rfl, fun henabled => absurd henabled hdisabled⟩

/-- A migration that nothing disturbs leaves its backup directory. -/
theorem backup_left (S : Setting) (data : DataDir) (henabled : S.enabled = true) :
    ∃ error w, migrateToPostgres S.undisturbed { data } = .error error w ∧ w.backup = some {} := by
  have hends := @migrateToPostgres_ends S.undisturbed { data } rfl
  cases hrun : migrateToPostgres S.undisturbed { data } with
  | ok counts w => exact (hends.of_ok hrun).elim
  | error error w => exact ⟨error, w, rfl, (hends.of_error hrun).2 henabled rfl rfl⟩

/-- No data directory can be migrated. -/
theorem migration_never_sound (S : Setting) (data : DataDir) : ¬ Sound S data := by
  intro hsound
  obtain ⟨counts, w, hrun⟩ := hsound.possible
  exact (migrateToPostgres_ends rfl).of_ok hrun

/-! ### A directory with one account -/

def deployed : Setting where
  enabled := true
  str _ := ""
  ordered := id
  orderedTasks := id
  ordered_perm _ := .refl _
  orderedTasks_perm _ := .refl _

def oneAccount : DataDir where
  documents filename :=
    if filename = "accounts.json" then
      some (.object [("accounts", .array [.object [("id", .text "account1")]])])
    else none

/-- The migration neither succeeds nor can it be run again. -/
theorem oneAccount_refused : ¬ ∀ (S : Setting) (data : DataDir), Sound S data := by
  intro hall
  obtain ⟨error, w, hrun, hleft⟩ := backup_left deployed oneAccount rfl
  have hclean := ((hall deployed oneAccount).atomic _ error w hrun).2
  cases hleft.symm.trans hclean

end FetchTask.StorageMigrate
