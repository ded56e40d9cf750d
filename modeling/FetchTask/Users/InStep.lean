import FetchTask.Users.Consistent

/-!
When the records of the users and the tokens belong together.

A call that writes both can fail between the two writes. A registration and a
rotation write the entry first, and what they leave is an entry that no record
names or a record whose entry has moved; a deletion writes the record first in a
database and the entry first in files. Records and entries are in step through a
run exactly when no call stops between its writes (`in_step_iff`).
-/

namespace FetchTask.Users

open TempAccess Runs
open Rotation (Draw Faults Request rotateTempToken)

variable {S : Setting} {s s' : Registry} {key : String} {a : Account} {faults : Faults} {draw : Draw}

/-- Every record names an entry, every entry that was made for a user is named by a record, and no
two records name one entry. -/
structure InStep (s : Registry) : Prop where
  entry : ∀ key a, s.users.get? key = some a → (s.tokens a.tokenHash).isSome = true
  record : ∀ hash ∈ s.granted, (s.tokens hash).isSome = true →
    ∃ key a, s.users.get? key = some a ∧ a.tokenHash = hash
  one : s.users.Distinct (·.tokenHash) fun _ => True

/-- A call that gets to its first write gets to the second. A registration and a rotation hash the
password between the two, and a rotation makes its public view of the entry. -/
def Whole (S : Setting) : Event → Registry → Prop
  | .register r draw _ faults, s => fresh S draw s = true → r.refusal S s.users = none →
    faults.tokenWrite = false →
      (S.passwordHash r.password draw.salt).isSome = true ∧ faults.userWrite = false
  | .rotate request draw faults, s => fresh S draw s = true →
    ∀ item ∈ request.accepted S.toSetting (s.users.mapValues Account.toUser),
      faults.tokenWrite = false →
        (∀ entry ∈ s.tokens item.2.tokenHash,
          (normalizeBillingPriority S.chars entry.billingPriority).isOk = true) ∧
        request.hashable S.toSetting draw = true ∧ faults.userWrite = false
  | .deleteUser id faults, s => (readById id s.users).isSome = true →
    match S.backend with
    | .postgres => faults.userWrite = false → faults.tokenWrite = false
    | .jsonFile => faults.tokenWrite = false → faults.userWrite = false
  | _, _ => True

/-- What the calls that are whole keep. -/
structure Together (S : Setting) (s : Registry) : Prop where
  kept : Kept S s
  inStep : InStep s

theorem inStep_new (tokens : Tokens) : InStep (Registry.new tokens) where
  entry _ _ h := by cases h
  record _ h := by cases h
  one := Dict.distinct_empty

theorem Kept.normal (h : Kept S s) (hget : s.users.get? key = some a) :
    normalizeHash S.chars a.tokenHash = a.tokenHash := by
  rw [(h.records key a hget).hash_eq, S.hashToken_normal]

theorem fresh_iff : fresh S draw s = true ↔ s.tokens (S.hashToken draw.token) = none := by
  rw [fresh, Option.isNone_iff_eq_none]

/-- A hash without an entry is with no record. -/
theorem InStep.tokenHash_ne (h : InStep s) {hash : String} (hnone : s.tokens hash = none)
    (hget : s.users.get? key = some a) : a.tokenHash ≠ hash := by
  intro heq
  have hentry := h.entry key a hget
  rw [heq, hnone] at hentry
  cases hentry

/-- A call that changes no token and no hash of a record. -/
theorem InStep.of_edit (h : InStep s) (a' : Account) (hget : s.users.get? key = some a)
    (hhash : a'.tokenHash = a.tokenHash) : InStep { s with users := s.users.set key a' } where
  entry := by
    refine Dict.forall_set ?_ h.entry
    rw [hhash]
    exact h.entry key a hget
  record hash hmem hentry := by
    obtain ⟨j, b, hb, rfl⟩ := h.record hash hmem hentry
    by_cases hj : key = j
    · subst hj
      rw [hget] at hb
      cases hb
      exact ⟨key, a', Dict.get?_set_self .., hhash⟩
    · exact ⟨j, b, by rw [Dict.get?_set_of_ne _ _ hj, hb], rfl⟩
  one := h.one.set fun _ j b hb heq => h.one j key b a hb hget trivial (heq.trans hhash)

/-! ### Registration -/

/-- The entry of a registration that stops there has no record. -/
theorem not_inStep_made (h : InStep s) {entry : Entry} {hash : String}
    (hnone : s.tokens hash = none) :
    ¬ InStep { s with
      tokens := Function.update s.tokens hash (some entry), granted := hash :: s.granted } := by
  intro hnext
  obtain ⟨key, a, hget, heq⟩ := hnext.record hash List.mem_cons_self (by simp)
  exact h.tokenHash_ne hnone hget heq

theorem inStep_registered (h : InStep s) (entry : Entry) {hash : String}
    (hnone : s.tokens hash = none) (hhash : a.tokenHash = hash)
    (hnew : s.users.contains key = false) :
    InStep { s with
      users := s.users.set key a
      tokens := Function.update s.tokens hash (some entry), granted := hash :: s.granted } where
  entry := by
    refine Dict.forall_set (by simp [hhash]) fun j b hb => ?_
    simp only [Function.update_of_ne (h.tokenHash_ne hnone hb)]
    exact h.entry j b hb
  record hash' hmem hentry := by
    obtain rfl | hmem := List.mem_cons.mp hmem
    · exact ⟨key, a, Dict.get?_set_self .., hhash⟩
    · by_cases heq : hash' = hash
      · exact ⟨key, a, Dict.get?_set_self .., hhash.trans heq.symm⟩
      · simp only [Function.update_of_ne heq] at hentry
        obtain ⟨j, b, hb, rfl⟩ := h.record hash' hmem hentry
        have hj : key ≠ j := by
          rintro rfl
          rw [Dict.contains, hb] at hnew
          cases hnew
        exact ⟨j, b, by rw [Dict.get?_set_of_ne _ _ hj, hb], rfl⟩
  one := h.one.set fun _ j b hb heq => absurd (heq.trans hhash) (h.tokenHash_ne hnone hb)

theorem registerUser_inStep (h : Together S s) (hfresh : fresh S draw s = true) (r : Registration)
    (id : String) : InStep (registerUser S r draw id faults s) ↔
      (r.refusal S s.users = none → faults.tokenWrite = false →
        (S.passwordHash r.password draw.salt).isSome = true ∧ faults.userWrite = false) := by
  have hnone := fresh_iff.mp hfresh
  cases hrefusal : r.refusal S s.users with
  | some message => simp [registerUser, hrefusal, h.inStep]
  | none =>
    cases htoken : faults.tokenWrite with
    | true => simp [registerUser, hrefusal, htoken, h.inStep]
    | false =>
      cases hhash : S.passwordHash r.password draw.salt with
      | none => simpa [registerUser, hrefusal, htoken, hhash] using not_inStep_made h.inStep hnone
      | some passwordHash =>
        cases huser : faults.userWrite with
        | true =>
          simpa [registerUser, hrefusal, htoken, hhash, huser] using not_inStep_made h.inStep hnone
        | false =>
          have hnew : s.users.contains (nameKey S (S.chars.strip r.username)) = false := by
            simp only [Registration.refusal] at hrefusal
            split_ifs at hrefusal with _ _ hcontains
            exact Bool.eq_false_iff.mpr hcontains
          have hnext := inStep_registered (a := r.account S draw id passwordHash) h.inStep
            (r.entry S draw) hnone rfl hnew
          simpa [registerUser, hrefusal, htoken, hhash, huser] using hnext

/-! ### Rotation -/

/-- The tokens once an entry has moved from one hash to another. -/
def movedEntry (hash hash' : String) (entry : Entry) (tokens : Tokens) : Tokens :=
  Function.update (Function.update tokens hash' (some entry)) hash none

theorem rotateTempToken_of_kept (draw : Draw) (h : Kept S s) (hget : s.users.get? key = some a)
    {entry : Entry} (hentry : s.tokens a.tokenHash = some entry) :
    (rotateTempToken S.toSetting draw a.tokenHash s.tokens).2 =
        movedEntry a.tokenHash (S.hashToken draw.token)
          { entry with token := draw.token, updatedAt := draw.now } s.tokens ∧
      (rotateTempToken S.toSetting draw a.tokenHash s.tokens).1.isOk =
        (normalizeBillingPriority S.chars entry.billingPriority).isOk := by
  have hnormal := h.normal hget
  -- the other three stores have no part in the move
  have heq : rotateTempToken S.toSetting draw a.toUser.tokenHash s.tokens = _ :=
    Rotation.rotateTempToken_eq (s := ⟨.empty, s.tokens, [], .empty⟩)
      (by simpa only [hnormal] using hentry)
  rw [heq]
  refine ⟨?_, Rotation.publicToken_isOk ..⟩
  simp only [Rotation.movedTokens, movedEntry, hnormal]

section Moved

variable {entry : Entry} {hash : String}

theorem movedEntry_old : movedEntry a.tokenHash hash entry s.tokens a.tokenHash = none :=
  Function.update_self ..

theorem movedEntry_new (h : InStep s) (hget : s.users.get? key = some a)
    (hnone : s.tokens hash = none) : movedEntry a.tokenHash hash entry s.tokens hash = some entry := by
  rw [movedEntry, Function.update_of_ne (h.tokenHash_ne hnone hget).symm, Function.update_self]

theorem movedEntry_of_ne {other : String} (hold : other ≠ a.tokenHash) (hne : other ≠ hash) :
    movedEntry a.tokenHash hash entry s.tokens other = s.tokens other := by
  rw [movedEntry, Function.update_of_ne hold, Function.update_of_ne hne]

/-- The record that was not written names an entry that has moved. -/
theorem not_inStep_moved (hget : s.users.get? key = some a) :
    ¬ InStep { s with
      tokens := movedEntry a.tokenHash hash entry s.tokens, granted := hash :: s.granted } := by
  intro hnext
  have hentry := hnext.entry key a hget
  simp [movedEntry_old] at hentry

theorem inStep_renewed (h : InStep s) {a' : Account} (hget : s.users.get? key = some a)
    (hnone : s.tokens hash = none) (hhash : a'.tokenHash = hash) :
    InStep { s with
      users := s.users.set key a'
      tokens := movedEntry a.tokenHash hash entry s.tokens, granted := hash :: s.granted } where
  entry j b hb := by
    by_cases hj : key = j
    · subst hj
      rw [Dict.get?_set_self] at hb
      cases hb
      simp [hhash, movedEntry_new h hget hnone]
    · rw [Dict.get?_set_of_ne _ _ hj] at hb
      have hne : b.tokenHash ≠ a.tokenHash :=
        fun heq => hj (h.one key j a b hget hb trivial heq.symm)
      simp only [movedEntry_of_ne hne (h.tokenHash_ne hnone hb)]
      exact h.entry j b hb
  record hash' hmem hentry := by
    obtain rfl | hmem := List.mem_cons.mp hmem
    · exact ⟨key, a', Dict.get?_set_self .., hhash⟩
    · by_cases hnew : hash' = hash
      · exact ⟨key, a', Dict.get?_set_self .., hhash.trans hnew.symm⟩
      · by_cases hold : hash' = a.tokenHash
        · simp [hold, movedEntry_old] at hentry
        · simp only [movedEntry_of_ne hold hnew] at hentry
          obtain ⟨j, b, hb, rfl⟩ := h.record hash' hmem hentry
          have hj : key ≠ j := by
            rintro rfl
            rw [hget] at hb
            cases hb
            exact hold rfl
          exact ⟨j, b, by rw [Dict.get?_set_of_ne _ _ hj, hb], rfl⟩
  one := h.one.set fun _ j b hb heq => absurd (heq.trans hhash) (h.tokenHash_ne hnone hb)

end Moved

theorem rotate_inStep (h : Together S s) (hfresh : fresh S draw s = true) (request : Request) :
    InStep (rotate S request draw faults s) ↔
      ∀ item ∈ request.accepted S.toSetting (s.users.mapValues Account.toUser),
        faults.tokenWrite = false →
          (∀ entry ∈ s.tokens item.2.tokenHash,
            (normalizeBillingPriority S.chars entry.billingPriority).isOk = true) ∧
          request.hashable S.toSetting draw = true ∧ faults.userWrite = false := by
  have hnone := fresh_iff.mp hfresh
  cases haccepted : request.accepted S.toSetting (s.users.mapValues Account.toUser) with
  | none => simp [rotate, haccepted, h.inStep]
  | some item =>
    obtain ⟨key, user⟩ := item
    obtain ⟨a, hget, rfl⟩ := accepted_get? haccepted
    cases htoken : faults.tokenWrite with
    | true => simp [rotate, haccepted, htoken, h.inStep]
    | false =>
      obtain ⟨entry, hentry⟩ := Option.isSome_iff_exists.mp (h.inStep.entry key a hget)
      obtain ⟨htokens, hview⟩ := rotateTempToken_of_kept draw h.kept hget hentry
      have hwhole : (∀ item ∈ some (key, a.toUser), false = false →
          (∀ entry ∈ s.tokens item.2.tokenHash,
            (normalizeBillingPriority S.chars entry.billingPriority).isOk = true) ∧
          request.hashable S.toSetting draw = true ∧ faults.userWrite = false) ↔
          (normalizeBillingPriority S.chars entry.billingPriority).isOk = true ∧
            request.hashable S.toSetting draw = true ∧ faults.userWrite = false := by
        simp [hentry]
      have hhashable : (request.update S.toSetting draw a.toUser).isSome =
          request.hashable S.toSetting draw := Rotation.update_isSome a.toUser
      rw [hwhole, rotate_eq hget haccepted htoken, hview, ← hhashable]
      cases hupdate : request.update S.toSetting draw a.toUser with
      | none =>
        refine iff_of_false ?_ (by simp)
        rw [moved, htokens]
        exact not_inStep_moved hget
      | some user =>
        simp only [Option.isSome_some, true_and]
        split_ifs with hwritten
        · refine iff_of_true ?_ hwritten
          rw [renewed, moved, htokens]
          exact inStep_renewed h.inStep hget hnone (Rotation.update_tokenHash hupdate).1
        · refine iff_of_false ?_ hwritten
          rw [moved, htokens]
          exact not_inStep_moved hget

/-! ### Deletion -/

/-- The entry that outlives its record. -/
theorem not_inStep_erased (h : Together S s) (hget : s.users.get? key = some a) :
    ¬ InStep { s with users := s.users.erase key } := by
  intro hnext
  obtain ⟨j, b, hb, heq⟩ := hnext.record a.tokenHash (h.kept.records key a hget).mem
    (h.inStep.entry key a hget)
  rw [Dict.get?_erase] at hb
  split_ifs at hb with hj
  exact hj (h.inStep.one j key b a hb hget trivial heq)

/-- The record that outlives its entry. -/
theorem not_inStep_orphan (hget : s.users.get? key = some a) :
    ¬ InStep { s with tokens := Function.update s.tokens a.tokenHash none } := by
  intro hnext
  have hentry := hnext.entry key a hget
  simp at hentry

theorem inStep_deleted (h : InStep s) (hget : s.users.get? key = some a) :
    InStep { s with
      users := s.users.erase key, tokens := Function.update s.tokens a.tokenHash none } where
  entry j b hb := by
    rw [Dict.get?_erase] at hb
    split_ifs at hb with hj
    have hne : b.tokenHash ≠ a.tokenHash := fun heq => hj (h.one j key b a hb hget trivial heq)
    simp only [Function.update_of_ne hne]
    exact h.entry j b hb
  record hash hmem hentry := by
    by_cases heq : hash = a.tokenHash
    · simp [heq] at hentry
    · simp only [Function.update_of_ne heq] at hentry
      obtain ⟨j, b, hb, rfl⟩ := h.record hash hmem hentry
      have hj : j ≠ key := by
        rintro rfl
        rw [hget] at hb
        cases hb
        exact heq rfl
      exact ⟨j, b, by rw [Dict.get?_erase, if_neg hj, hb], rfl⟩
  one := h.one.erase

theorem deleteUser_inStep (h : Together S s) (id : String) :
    InStep (deleteUser S id faults s) ↔ ((readById id s.users).isSome = true →
      match S.backend with
      | .postgres => faults.userWrite = false → faults.tokenWrite = false
      | .jsonFile => faults.tokenWrite = false → faults.userWrite = false) := by
  cases hread : readById id s.users with
  | none => simp [deleteUser, hread, h.inStep]
  | some item =>
    obtain ⟨key, a⟩ := item
    have hget : s.users.get? key = some a := read_get? hread
    have hboth := inStep_deleted h.inStep hget
    have herased := not_inStep_erased h hget
    have horphan := not_inStep_orphan hget
    simp only [deleteUser, hread, h.kept.normal hget, Option.isSome_some, forall_const]
    cases S.backend <;> cases huser : faults.userWrite <;> cases htoken : faults.tokenWrite <;>
      simp [h.inStep, hboth, herased, horphan]

/-! ### Runs -/

theorem loginConfirm_inStep (h : InStep s) (p : Pending) (now : String) :
    InStep (loginConfirm S p now faults s) := by
  rw [loginConfirm]
  split
  · exact h
  · rename_i account hget
    split_ifs
    · have hnext := h.of_edit { account with lastLoginAt := now, lastSeenAt := now } hget rfl
      exact ⟨hnext.entry, hnext.record, hnext.one⟩
    · exact h

theorem changeEmail_inStep (h : InStep s) (tokenHash email now : String) :
    InStep (changeEmail S tokenHash email now faults s) := by
  simp only [changeEmail]
  split
  · exact h
  · rename_i hread
    split_ifs
    · exact h
    · exact h.of_edit _ (read_get? (Option.filter_eq_some_iff.mp hread).1) rfl

theorem setEnabled_inStep (h : InStep s) (id : String) (enabled : Bool) (now : String) :
    InStep (setEnabled id enabled now faults s) := by
  rw [setEnabled]
  split
  · exact h
  · rename_i hread
    split_ifs
    · exact h
    · exact h.of_edit _ (read_get? hread) rfl

/-- One call keeps records and entries in step exactly if it is whole. -/
theorem step_inStep (e : Event) (s : Registry) (h : Together S s) :
    InStep (step S e s) ↔ Whole S e s := by
  cases e with
  | register r draw id faults =>
    rw [step]
    split_ifs with hfresh
    · simpa [Whole, hfresh] using registerUser_inStep h hfresh r id
    · simp [Whole, hfresh, h.inStep]
  | loginRead thread identifier password =>
    exact iff_of_true ⟨h.inStep.entry, h.inStep.record, h.inStep.one⟩ trivial
  | loginConfirm thread now faults =>
    refine iff_of_true ?_ trivial
    rw [step]
    split
    · exact h.inStep
    · rename_i p _
      have hdropped : InStep { s with pending := Function.update s.pending thread none } :=
        ⟨h.inStep.entry, h.inStep.record, h.inStep.one⟩
      exact loginConfirm_inStep hdropped p now
  | rotate request draw faults =>
    rw [step]
    split_ifs with hfresh
    · simpa [Whole, hfresh] using rotate_inStep h hfresh request
    · simp [Whole, hfresh, h.inStep]
  | changeEmail tokenHash email now faults =>
    exact iff_of_true (changeEmail_inStep h.inStep tokenHash email now) trivial
  | setEnabled id enabled now faults =>
    exact iff_of_true (setEnabled_inStep h.inStep id enabled now) trivial
  | deleteUser id faults => exact deleteUser_inStep h id

/-- Records and entries are in step throughout a run exactly if every call of it is whole. -/
theorem in_step_iff (S : Setting) (tokens : Tokens) (events : List Event) :
    Throughout (step S) InStep events (Registry.new tokens) ↔
      AllSteps (step S) (Whole S) events (Registry.new tokens) :=
  throughout_iff_allSteps_of_kept (fun _ => Together.inStep)
    (fun e s h hwhole => ⟨step_kept e s h.kept, (step_inStep e s h).mpr hwhole⟩)
    (fun e s h => (step_inStep e s h).mp) ⟨kept_new tokens, inStep_new tokens⟩

end FetchTask.Users
