import FetchTask.TaskPage.Agree

/-!
Plain tasks and requests.

A request is plain where its texts are trimmed and its keyword is free of the characters
of patterns, a task where the two systems read its fields alike, where none of the texts
that only the files put in for a field is what the request looks for, and where the
database has the same lower case and the same order of the texts, those of the times
among them. The tasks of other owners need a plain owner only. The pages of a plain
request for plain tasks agree.
-/

namespace FetchTask.TaskPage

open Store (second minute hour)

/-! ### One field -/

section Field

variable {u : Texts} {db : Database} {t : StoredTask} {key v : String}

variable (u db) in
/-- The field is missing, null, a text, or a value that both systems print alike. -/
def StoredTask.HasText (t : StoredTask) (key : String) : Prop :=
  ∀ value ∈ t.get? key, value = .null ∨ (∃ s, value = .text s) ∨
    value.truthy = true ∧ db.text (some value) = some (u.str value)

variable (db) in
/-- The flag is printed as `true` where it is set, and only there. -/
def StoredTask.HasFlag (t : StoredTask) (key : String) : Prop :=
  ∀ value ∈ t.get? key, db.text (some value) = some "true" ↔ value.truthy = true

theorem getD_sqlText (h : t.HasText u db key) : (t.sqlText db key).getD "" = t.str u key := by
  rw [StoredTask.sqlText, StoredTask.str]
  cases hvalue : t.get? key with
  | none => rfl
  | some value =>
    rcases h value hvalue with rfl | ⟨s, rfl⟩ | ⟨htruthy, htext⟩
    · rfl
    · rfl
    · rw [htext]
      cases value with
      | text s =>
        have hsame : some s = some (u.str (.text s)) := htext
        exact (Option.some.inj hsame).symm
      | null => cases htruthy
      | _ => exact (if_pos htruthy).symm

theorem sqlText_beq (h : t.HasText u db key) (hv : v ≠ "") :
    (t.sqlText db key == some v) = (t.str u key == v) := by
  rw [← getD_sqlText h]
  cases t.sqlText db key with
  | none => exact (beq_eq_false_iff_ne.mpr hv.symm).symm
  | some s => exact Option.some_beq_some

theorem sqlText_flag (h : t.HasFlag db key) :
    ((t.sqlText db key).getD "false" != "true") = !t.flag key := by
  rw [StoredTask.sqlText, StoredTask.flag]
  cases hvalue : t.get? key with
  | none => rfl
  | some value =>
    have hset : ((db.text (some value)).getD "false" == "true") = value.truthy := by
      rw [Bool.eq_iff_iff, ← h value hvalue, beq_iff_eq]
      cases db.text (some value) <;> simp
    rw [bne, hset]
    rfl

end Field

/-! ### Plain requests and tasks -/

section Plain

variable (u : Texts) (db : Database) (now : Int) (q : Query) (t : StoredTask)

/-- The request has a keyword, and the text contains it. -/
def Query.finds (text : String) : Bool :=
  q.keyword != "" && isIn (u.lower q.keyword) (u.lower text)

structure PlainQuery : Prop where
  platform_trimmed : u.strip q.platform = q.platform
  platform_empty : u.lower q.platform = "" ↔ q.platform = ""
  platform_all : u.lower q.platform = "all" ↔ q.platform = "all"
  keyword_trimmed : u.strip q.keyword = q.keyword
  keyword_empty : u.lower q.keyword = "" ↔ q.keyword = ""
  keyword_literal : ∀ c ∈ (u.lower q.keyword).toList, Like.Literal c
  /-- Folding finds the keyword in a remark where the lower case does. -/
  remarks : ∀ entry ∈ q.ownerRemarks.items,
    isIn (u.casefold q.keyword) (u.casefold entry.2) = isIn (u.lower q.keyword) (u.lower entry.2)

/-- The owner is read alike, and is there when the request asks for the empty one. -/
structure PlainOwner : Prop where
  text : t.HasText u db "owner_token_hash"
  present : q.ownerTokenHash = some "" → (t.sqlText db "owner_token_hash").isSome = true

/-- The task is one of the owner that the request asks for. -/
def ownedFor : Bool := q.ownerTokenHash.all fun owner => t.str u "owner_token_hash" == owner

/-- The first microsecond of the local day of a time. -/
def dayStart (day : Int) : Int := day * (24 * hour) - 8 * hour

/-- The text lies between the texts of the bounds of the day where the time that it says lies
between the bounds; where it says none it does not. -/
structure PlainTime (value : String) : Prop where
  parsed : ∀ time, u.fromisoformat value = some time →
    (db.collation.le (startUtc u now) value = true ↔ dayStart (localDay now) ≤ time) ∧
      (db.collation.le (endUtc u now) value = true ↔ dayStart (localDay now + 1) ≤ time)
  unparsed : u.fromisoformat value = none →
    db.collation.le (startUtc u now) value = false ∨ db.collation.le (endUtc u now) value = true

structure PlainTask : Prop where
  id : isTaskId t.id = true
  text : ∀ key ∈ "finished_at" :: searchable, t.HasText u db key
  flag : q.audience = "admin" ∨ q.audience = "client" →
    t.HasFlag db ("task_hidden_for_" ++ q.audience)
  /-- The platform that a task without one is given is not asked for. -/
  platform : t.str u "platform" = "" →
    u.lower defaultPlatform ≠ u.lower q.platform ∧ q.finds u defaultPlatform = false
  created : t.str u "created_at" ≠ ""
  /-- The two systems have one lower case for the texts that are searched. -/
  lower_id : db.lower t.id = u.lower t.id
  lower : ∀ key ∈ searchable, db.lower (t.str u key) = u.lower (t.str u key)
  /-- The keyword is found in the prompt where it is found in its beginning. -/
  preview : q.finds u (takeText 15 (t.str u "prompt")) = true → q.finds u (t.str u "prompt") = true
  /-- The name that a task without an owner is given is not asked for. -/
  admin : t.str u "owner_token_hash" = "" → q.finds u "管理员" = false
  finished : PlainTime u db now (t.str u "finished_at")
  error_trimmed : t.str u "status" = "failed" →
    u.strip (textOr (t.str u "error") unknownReason) = textOr (t.str u "error") unknownReason

variable {u db now q t}

theorem PlainTask.hasText (h : PlainTask u db now q t) {key : String} (hkey : key ∈ searchable) :
    t.HasText u db key :=
  h.text key (List.mem_cons_of_mem _ hkey)

/-- The lower case of a searched text. -/
theorem PlainTask.lower_eq (h : PlainTask u db now q t) {key : String} (hkey : key ∈ searchable) :
    db.lower ((t.sqlText db key).getD "") = u.lower (t.str u key) := by
  rw [getD_sqlText (h.hasText hkey), h.lower key hkey]

theorem PlainOwner.owned (h : PlainOwner u db q t) :
    (q.ownerTokenHash.all fun owner => t.sqlText db "owner_token_hash" == some owner) =
      ownedFor u q t := by
  rw [ownedFor]
  cases howner : q.ownerTokenHash with
  | none => rfl
  | some owner =>
    by_cases hempty : owner = ""
    · subst hempty
      obtain ⟨stored, hstored⟩ := Option.isSome_iff_exists.mp (h.present howner)
      have hstr : stored = t.str u "owner_token_hash" := by
        rw [← getD_sqlText h.text, hstored, Option.getD_some]
      rw [hstored, hstr]
      exact Option.some_beq_some
    · exact sqlText_beq h.text hempty

theorem PlainTask.scope (h : PlainTask u db now q t) (howner : PlainOwner u db q t) :
    sqlInScope db q t = isShown u now q t := by
  have hhidden : (!(q.audience == "admin" || q.audience == "client") ||
      (t.sqlText db ("task_hidden_for_" ++ q.audience)).getD "false" != "true") =
      !(taskListItem u now q t).hidden q := by
    rw [Item.hidden]
    by_cases hadmin : q.audience = "admin"
    · rw [sqlText_flag (h.flag (.inl hadmin)), hadmin]
      simp [taskListItem]
    · by_cases hclient : q.audience = "client"
      · rw [sqlText_flag (h.flag (.inr hclient)), hclient]
        simp [taskListItem]
      · rw [beq_eq_false_iff_ne.mpr hadmin, beq_eq_false_iff_ne.mpr hclient]
        rfl
  rw [sqlInScope, isShown, isListed, h.id, howner.owned, hhidden, Bool.true_and]
  rfl

/-- A time lies in the local day between its bounds. -/
theorem localDay_eq_iff {time day : Int} :
    localDay time = day ↔ dayStart day ≤ time ∧ time < dayStart (day + 1) := by
  simp only [localDay, dayStart, hour, minute, second]
  omega

theorem PlainTask.finishedToday (h : PlainTask u db now q t) :
    sqlFinishedToday u db now t = isLocalToday u now (t.str u "finished_at") := by
  rw [sqlFinishedToday, isLocalToday, getD_sqlText (h.text _ List.mem_cons_self)]
  cases htime : u.fromisoformat (t.str u "finished_at") with
  | none =>
    rcases h.finished.unparsed htime with hstart | hend
    · rw [hstart]
      rfl
    · rw [hend]
      exact Bool.and_false _
  | some time =>
    obtain ⟨hstart, hend⟩ := h.finished.parsed time htime
    rw [Bool.eq_iff_iff, Option.map_some, Option.getD_some, beq_iff_eq, localDay_eq_iff,
      Bool.and_eq_true, hstart, Bool.not_eq_true', ← not_le, ← hend, Bool.not_eq_true]

theorem PlainTask.marks (h : PlainTask u db now q t) :
    sqlMarks u db now t = (taskListItem u now q t).marks := by
  have hstatus : ∀ status, status ≠ "" →
      (t.sqlText db "status" == some status) = (t.str u "status" == status) :=
    fun status => sqlText_beq (h.hasText (by decide))
  have hpending := hstatus "pending" (by decide)
  have hrunning := hstatus "running" (by decide)
  have hsubmitted := hstatus "submitted" (by decide)
  have hsuccess := hstatus "success" (by decide)
  have hfailed := hstatus "failed" (by decide)
  have hcanceled := hstatus "canceled" (by decide)
  simp only [sqlMarks, Item.marks, taskListItem, hpending, hrunning, hsubmitted, hsuccess, hfailed,
    hcanceled, h.finishedToday]

theorem PlainTask.sqlReason_eq (h : PlainTask u db now q t) :
    sqlReason db t = textOr (t.str u "error") unknownReason := by
  have htext : (t.sqlText db "error").getD "" = t.str u "error" :=
    getD_sqlText (h.hasText (by decide))
  rw [sqlReason, ← htext, textOr]
  cases t.sqlText db "error" with
  | none => rfl
  | some error => by_cases herror : error = "" <;> simp [herror, Option.filter]

theorem PlainTask.reason (h : PlainTask u db now q t) (hfailed : t.str u "status" = "failed") :
    sqlReason db t = (taskListItem u now q t).reason u := by
  have hitem : (taskListItem u now q t).reason u =
      textOr (u.strip (textOr (t.str u "error") unknownReason)) unknownReason := rfl
  rw [hitem, h.error_trimmed hfailed, ← h.sqlReason_eq, textOr_sqlReason]

/-! ### The selection -/

theorem taskStatusFilters_ne_nil {selected : String} :
    (taskStatusFilters.lookup selected).getD [selected] ≠ [] := by
  cases hlookup : taskStatusFilters.lookup selected with
  | none => exact List.cons_ne_nil _ _
  | some group =>
    have hin : (selected, group) ∈ taskStatusFilters := by
      obtain ⟨before, after, heq, -⟩ := List.lookup_eq_some_iff.mp hlookup
      rw [heq]
      exact List.mem_append_right _ List.mem_cons_self
    have hgroups : ∀ entry ∈ taskStatusFilters, entry.2 ≠ [] := by decide
    exact hgroups _ hin

theorem PlainTask.status (h : PlainTask u db now q t) :
    sqlStatus u db q t = (taskListItem u now q t).matchesStatus u q := by
  rw [sqlStatus, Item.matchesStatus, taskStatusFilterValues, h.lower_eq (by decide)]
  by_cases hall : u.lower (u.strip q.status) = "" ∨ u.lower (u.strip q.status) = "all"
  · rw [if_pos hall, List.isEmpty_nil, Bool.true_or]
    rcases hall with hempty | hall
    · rw [hempty]
      rfl
    · rw [hall]
      rfl
  · have hvalues : ((taskStatusFilters.lookup (u.lower (u.strip q.status))).getD
        [u.lower (u.strip q.status)]).isEmpty = false :=
      List.isEmpty_eq_false_iff.mpr taskStatusFilters_ne_nil
    rw [not_or] at hall
    rw [if_neg (not_or.mpr hall), hvalues, beq_eq_false_iff_ne.mpr hall.1,
      beq_eq_false_iff_ne.mpr hall.2]
    rfl

theorem PlainTask.platform_selected (h : PlainTask u db now q t) (hq : PlainQuery u q) :
    sqlPlatform u db q t = (taskListItem u now q t).matchesPlatform u q := by
  have hempty : (u.lower q.platform == "") = (q.platform == "") := by
    simp only [Bool.beq_eq_decide_eq, hq.platform_empty]
  have hall : (u.lower q.platform == "all") = (q.platform == "all") := by
    simp only [Bool.beq_eq_decide_eq, hq.platform_all]
  simp only [sqlPlatform, Item.matchesPlatform, hq.platform_trimmed, hempty, hall,
    h.lower_eq (show "platform" ∈ searchable by decide), taskListItem]
  by_cases hplatform : t.str u "platform" = ""
  · rw [hplatform, textOr, if_pos rfl, beq_eq_false_iff_ne.mpr (h.platform hplatform).1, u.lower_empty]
    by_cases hnone : q.platform = ""
    · rw [hnone]
      rfl
    · rw [beq_eq_false_iff_ne.mpr (Ne.symm (hq.platform_empty.not.mpr hnone))]
  · rw [textOr, if_neg hplatform]

theorem isIn_iff {needle text : String} :
    isIn needle text = true ↔ needle.toList <:+: text.toList := decide_eq_true_iff

theorem isIn_empty {needle : String} (h : needle ≠ "") : isIn needle "" = false := by
  refine Bool.eq_false_iff.mpr fun hin => h ?_
  have hnil : needle.toList = [] := List.infix_nil.mp (isIn_iff.mp hin)
  exact String.toList_eq_nil_iff.mp hnil

theorem PlainQuery.like_eq (hq : PlainQuery u q) (text : String) :
    like ('%' :: ((u.lower q.keyword).toList ++ ['%'])) text.toList =
      isIn (u.lower q.keyword) text :=
  Bool.eq_iff_iff.mpr ((Like.like_contains hq.keyword_literal).trans isIn_iff.symm)

theorem Query.finds_eq (hkeyword : q.keyword ≠ "") (text : String) :
    q.finds u text = isIn (u.lower q.keyword) (u.lower text) := by
  rw [Query.finds, bne_iff_ne.mpr hkeyword, Bool.true_and]

/-- The owner of a task is found where the name that the files give it is. -/
theorem PlainTask.owner_matches (h : PlainTask u db now q t) (howner : PlainOwner u db q t)
    (hq : PlainQuery u q) (hkeyword : q.keyword ≠ "") :
    (((matchingOwners u q).filter (· != "")).any fun owner =>
      t.sqlText db "owner_token_hash" == some owner) =
      q.finds u (taskListItem u now q t).ownerName := by
  have hmatching : ((matchingOwners u q).filter (· != "")).any (fun owner =>
      t.sqlText db "owner_token_hash" == some owner) = true ↔
      t.str u "owner_token_hash" ≠ "" ∧
        ∃ remark, q.ownerRemarks.get? (t.str u "owner_token_hash") = some remark ∧
          q.finds u remark = true := by
    simp only [List.any_eq_true, List.mem_filter, matchingOwners, List.mem_map]
    constructor
    · rintro ⟨owner, ⟨⟨entry, ⟨hentry, hmatch⟩, rfl⟩, hne⟩, hsame⟩
      have hempty : entry.1 ≠ "" := by simpa using hne
      rw [sqlText_beq howner.text hempty, beq_iff_eq] at hsame
      rw [Bool.and_eq_true, hq.remarks entry hentry] at hmatch
      refine ⟨by rwa [hsame], entry.2, by rw [hsame, Dict.get?_eq_some_iff]; exact hentry, ?_⟩
      rw [Query.finds_eq hkeyword]
      exact hmatch.2
    · rintro ⟨hne, remark, hget, hmatch⟩
      rw [Dict.get?_eq_some_iff] at hget
      refine ⟨t.str u "owner_token_hash", ⟨⟨_, ⟨hget, ?_⟩, rfl⟩, by simpa using hne⟩, ?_⟩
      · rw [hq.remarks _ hget]
        exact hmatch
      · rw [sqlText_beq howner.text hne]
        exact beq_self_eq_true _
  refine Bool.eq_iff_iff.mpr (hmatching.trans ?_)
  by_cases hnone : t.str u "owner_token_hash" = ""
  · have hname : (taskListItem u now q t).ownerName = "管理员" := if_pos hnone
    rw [hname, h.admin hnone]
    exact iff_of_false (fun hfound => hfound.1 hnone) Bool.false_ne_true
  · have hname : (taskListItem u now q t).ownerName =
        (q.ownerRemarks.get? (t.str u "owner_token_hash")).getD "" := if_neg hnone
    rw [hname, and_iff_right hnone]
    cases q.ownerRemarks.get? (t.str u "owner_token_hash") with
    | none =>
      rw [Option.getD_none, Query.finds_eq hkeyword, u.lower_empty,
        isIn_empty (hq.keyword_empty.not.mpr hkeyword)]
      simp
    | some remark => simp

/-- The platform that is put in for a missing one is not found, as the missing one is not. -/
theorem PlainTask.finds_platform (h : PlainTask u db now q t) (hq : PlainQuery u q)
    (hkeyword : q.keyword ≠ "") :
    isIn (u.lower q.keyword) (u.lower (taskListItem u now q t).platform) =
      isIn (u.lower q.keyword) (u.lower (t.str u "platform")) := by
  by_cases hplatform : t.str u "platform" = ""
  · have hitem : (taskListItem u now q t).platform = defaultPlatform := if_pos hplatform
    have hnot := (h.platform hplatform).2
    rw [Query.finds_eq hkeyword] at hnot
    rw [hitem, hplatform, hnot, u.lower_empty, isIn_empty (hq.keyword_empty.not.mpr hkeyword)]
  · have hitem : (taskListItem u now q t).platform = t.str u "platform" := if_neg hplatform
    rw [hitem]

theorem PlainTask.keyword (h : PlainTask u db now q t) (howner : PlainOwner u db q t)
    (hq : PlainQuery u q) :
    sqlKeyword u db q t = (taskListItem u now q t).matchesKeyword u q := by
  rw [sqlKeyword, Item.matchesKeyword, hq.keyword_trimmed]
  by_cases hkeyword : q.keyword = ""
  · have hlower : u.lower q.keyword = "" := hq.keyword_empty.mpr hkeyword
    rw [beq_iff_eq.mpr hkeyword, beq_iff_eq.mpr hlower, Bool.true_or, Bool.true_or]
  · have hlower : u.lower q.keyword ≠ "" := hq.keyword_empty.not.mpr hkeyword
    have hfields : searchable.any (fun field =>
        like ('%' :: ((u.lower q.keyword).toList ++ ['%']))
          (db.lower ((t.sqlText db field).getD "")).toList) =
        searchable.any fun field => isIn (u.lower q.keyword) (u.lower (t.str u field)) := by
      rw [Bool.eq_iff_iff, List.any_eq_true, List.any_eq_true]
      refine exists_congr fun field => and_congr_right fun hfield => ?_
      rw [h.lower_eq hfield, hq.like_eq]
    have hpreview := h.preview
    rw [Query.finds_eq hkeyword, Query.finds_eq hkeyword] at hpreview
    rw [beq_eq_false_iff_ne.mpr hkeyword, beq_eq_false_iff_ne.mpr hlower, Bool.false_or,
      Bool.false_or]
    dsimp only
    rw [hfields, hq.like_eq, h.lower_id, h.owner_matches howner hq hkeyword,
      Query.finds_eq hkeyword]
    simp only [List.any_cons, List.any_nil, Bool.or_false, h.finds_platform hq hkeyword]
    simp only [searchable, taskListItem, List.any_cons, List.any_nil, Bool.or_false]
    -- The beginning of the prompt adds nothing to the prompt.
    cases hbegins : isIn (u.lower q.keyword) (u.lower (takeText 15 (t.str u "prompt"))) with
    | true => simp [hpreview hbegins]
    | false =>
      rw [Bool.false_or]
      ac_rfl

theorem PlainTask.selected (h : PlainTask u db now q t) (howner : PlainOwner u db q t)
    (hq : PlainQuery u q) :
    sqlSelected u db q t = (taskListItem u now q t).selected u q := by
  rw [sqlSelected, Item.selected, h.status, h.platform_selected hq, h.keyword howner hq]

/-! ### Plain stores -/

variable (u db now q) in
/-- The tasks are plain, and the database orders their times and reasons by the code points. -/
structure PlainTasks (tasks : List StoredTask) : Prop where
  owner : ∀ t ∈ tasks, PlainOwner u db q t
  task : ∀ t ∈ tasks, ownedFor u q t = true → PlainTask u db now q t
  times : ∀ a ∈ tasks, ∀ b ∈ tasks, ownedFor u q a = true → ownedFor u q b = true →
    db.collation.le (a.str u "created_at") (b.str u "created_at") =
      Collation.codePoints.le (a.str u "created_at") (b.str u "created_at")
  reasons : ∀ a ∈ tasks, ∀ b ∈ tasks, ownedFor u q a = true → ownedFor u q b = true →
    a.str u "status" = "failed" → b.str u "status" = "failed" →
      db.collation.le (textOr (a.str u "error") unknownReason)
          (textOr (b.str u "error") unknownReason) =
        Collation.codePoints.le (textOr (a.str u "error") unknownReason)
          (textOr (b.str u "error") unknownReason)

theorem ownedFor_of_isShown (h : isShown u now q t = true) : ownedFor u q t = true := by
  rw [isShown, isListed, Bool.and_assoc, Bool.and_eq_true, Bool.and_eq_true] at h
  exact h.2.1

theorem failed_of_hasFailedToday (h : hasFailedToday u now q t = true) :
    isShown u now q t = true ∧ t.str u "status" = "failed" := by
  rw [hasFailedToday, Bool.and_eq_true, Item.marks, Bool.and_eq_true] at h
  exact ⟨h.1, beq_iff_eq.mp h.2.1⟩

theorem PlainTask.sqlKey_eq (h : PlainTask u db now q t) :
    sqlKey db t = (some (t.str u "created_at"), t.id) := by
  have htext : t.sqlText db "created_at" = some (t.str u "created_at") := by
    rw [← beq_iff_eq, sqlText_beq (h.hasText (by decide)) h.created]
    exact beq_self_eq_true _
  rw [sqlKey, htext]

section Store

variable {store : TaskStore u now} {a b : StoredTask} (h : PlainTasks u db now q store.tasks)

include h

/-- A plain task is judged alike; one of another owner is not shown. -/
theorem PlainTasks.alikeRow (hq : PlainQuery u q) (ha : a ∈ store.tasks) :
    AlikeRow u db now q a := by
  have howner := h.owner a ha
  cases howned : ownedFor u q a with
  | true =>
    have hplain := h.task a ha howned
    exact ⟨hplain.scope howner, fun _ => hplain.marks, fun _ => hplain.selected howner hq,
      fun hfailed => hplain.reason (failed_of_hasFailedToday hfailed).2⟩
  | false =>
    have hshown : isShown u now q a ≠ true := by
      intro hshown
      rw [ownedFor_of_isShown hshown] at howned
      cases howned
    refine ⟨?_, fun hnot => absurd hnot hshown, fun hnot => absurd hnot hshown,
      fun hfailed => absurd (failed_of_hasFailedToday hfailed).1 hshown⟩
    rw [Bool.eq_false_iff.mpr hshown, sqlInScope, howner.owned, howned, Bool.false_and]

theorem PlainTasks.order (ha : a ∈ store.tasks) (hb : b ∈ store.tasks) (hab : a ≠ b)
    (hca : isChosen u now q a = true) (hcb : isChosen u now q b = true) :
    db.collation.newestBy (sqlKey db) a b ↔ fileOrder u now q a b := by
  have howned : ∀ {t}, isChosen u now q t = true → ownedFor u q t = true := by
    intro t ht
    rw [isChosen, Bool.and_eq_true] at ht
    exact ownedFor_of_isShown ht.1
  have hne : a.str u "created_at" ≠ b.str u "created_at" :=
    fun heq => hab (List.inj_on_of_nodup_map store.created ha hb heq)
  have hsql : db.collation.newestBy (sqlKey db) a b ↔
      db.collation.le (b.str u "created_at") (a.str u "created_at") = true := by
    rw [Collation.newestBy, (h.task a ha (howned hca)).sqlKey_eq,
      (h.task b hb (howned hcb)).sqlKey_eq, Collation.newest_some, if_neg hne]
  have hfile : fileOrder u now q a b ↔
      Collation.codePoints.le (b.str u "created_at") (a.str u "created_at") = true := by
    change Collation.codePoints.newest (some (a.str u "created_at"), a.id)
      (some (b.str u "created_at"), b.id) ↔ _
    rw [Collation.newest_some, if_neg hne]
  rw [hsql, hfile, h.times b hb a ha (howned hcb) (howned hca)]

theorem PlainTasks.reason_order (ha : a ∈ store.tasks) (hb : b ∈ store.tasks)
    (hfa : hasFailedToday u now q a = true) (hfb : hasFailedToday u now q b = true) :
    db.collation.le (sqlReason db a) (sqlReason db b) =
      Collation.codePoints.le (sqlReason db a) (sqlReason db b) := by
  obtain ⟨hsa, hfaileda⟩ := failed_of_hasFailedToday hfa
  obtain ⟨hsb, hfailedb⟩ := failed_of_hasFailedToday hfb
  have hoa := ownedFor_of_isShown hsa
  have hob := ownedFor_of_isShown hsb
  rw [(h.task a ha hoa).sqlReason_eq, (h.task b hb hob).sqlReason_eq]
  exact h.reasons a ha b hb hoa hob hfaileda hfailedb

theorem PlainTasks.alike (hq : PlainQuery u q) : Alike u db now q store.tasks := by
  refine ⟨fun t ht => h.alikeRow hq ht, fun a ha b hb => ?_⟩
  by_cases hab : a = b
  · subst hab
    exact AlikePair.self a
  · exact ⟨h.order ha hb hab, h.reason_order ha hb⟩

end Store

end Plain

/-! ### A word as the keyword -/

theorem hasText_of_texts {u : Texts} {db : Database} {t : StoredTask}
    (h : ∀ m ∈ t.record, ∃ s, m.2 = .text s) (key : String) : t.HasText u db key := by
  intro value hvalue
  obtain ⟨m, hm, rfl⟩ := Option.map_eq_some_iff.mp hvalue
  exact .inr (.inl (h m (List.mem_of_find?_eq_some hm)))

theorem plain_cat : PlainQuery sampleTexts { keyword := "cat" } where
  platform_trimmed := by decide +kernel
  platform_empty := by decide +kernel
  platform_all := by decide +kernel
  keyword_trimmed := by decide +kernel
  keyword_empty := by decide +kernel
  keyword_literal := by
    have hword : (sampleTexts.lower "cat").toList = ['c', 'a', 't'] := by decide +kernel
    rw [hword]
    simp [Like.Literal]
  remarks entry hentry := by cases hentry

theorem plain_sample :
    PlainTasks sampleTexts sampleDatabase sampleNow { keyword := "cat" } sampleStore.tasks where
  owner t ht := by
    rw [sampleStore, List.mem_singleton] at ht
    subst ht
    exact ⟨hasText_of_texts (by simp [sampleTask]) _, nofun⟩
  task t ht _ := by
    rw [sampleStore, List.mem_singleton] at ht
    subst ht
    have hunparsed : sampleTexts.fromisoformat (sampleTask.str sampleTexts "finished_at") = none := by
      decide +kernel
    exact
      { id := by decide +kernel
        text := fun key _ => hasText_of_texts (by simp [sampleTask]) key
        flag := fun _ value hvalue => by cases hvalue
        platform := by decide +kernel
        created := by decide +kernel
        lower_id := by decide +kernel
        lower := by decide +kernel
        preview := by decide +kernel
        admin := by decide +kernel
        finished := ⟨fun _ htime => (nomatch hunparsed.symm.trans htime),
          fun _ => .inl (by decide +kernel)⟩
        error_trimmed := by decide +kernel }
  times _ _ _ _ _ _ := rfl
  reasons _ _ _ _ _ _ _ _ := rfl

end FetchTask.TaskPage
