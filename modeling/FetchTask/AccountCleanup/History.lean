import FetchTask.AccountCleanup
import FetchTask.Lib.Runs

/-!
The history of deletions adds up.

A run that is recorded rebuilds the counts of its day from the keys that it
counts itself, so it keeps what was counted before exactly when it covers those
keys. The totals are not rebuilt: over the kept days they are always the number
of the accounts that were removed.
-/

namespace FetchTask.AccountCleanup

open Counts Runs

instance : Std.Total DayEntry.newer := ⟨fun a b => le_total b.date a.date⟩

instance : IsTrans DayEntry DayEntry.newer := ⟨fun _ _ _ hab hbc => le_trans hbc hab⟩

/-! ### The kept days -/

/-- No date twice, the latest first. -/
def Descending (days : List DayEntry) : Prop := days.Pairwise fun a b => b.date < a.date

theorem Descending.newer {days : List DayEntry} (h : Descending days) :
    days.Pairwise DayEntry.newer := h.imp le_of_lt

theorem Descending.eq_of_date {days : List DayEntry} (h : Descending days) {a b : DayEntry}
    (ha : a ∈ days) (hb : b ∈ days) (hdate : a.date = b.date) : a = b := by
  induction days with
  | nil => cases ha
  | cons day days ih =>
    obtain ⟨hfirst, hrest⟩ := List.pairwise_cons.mp h
    rcases List.mem_cons.mp ha with rfl | ha'
    · rcases List.mem_cons.mp hb with rfl | hb'
      · rfl
      · exact absurd (hfirst b hb') (hdate ▸ lt_irrefl _)
    · rcases List.mem_cons.mp hb with rfl | hb'
      · exact absurd (hfirst a ha') (hdate ▸ lt_irrefl _)
      · exact ih hrest ha' hb'

section NewDay

variable {days : List DayEntry} {entry : DayEntry}

/-- A day that is not in the history yet is sorted into it. -/
theorem descending_sorted (h : Descending days) (hnew : ∀ day ∈ days, day.date ≠ entry.date) :
    Descending ((days ++ [entry]).insertionSort DayEntry.newer) := by
  have hdates : ((days ++ [entry]).insertionSort DayEntry.newer).Pairwise
      fun a b => a.date ≠ b.date := by
    refine ((List.perm_insertionSort ..).pairwise_iff fun hne => Ne.symm hne).mpr ?_
    refine List.pairwise_append.mpr ⟨h.imp fun hlt => (ne_of_lt hlt).symm, by simp, ?_⟩
    intro day hday other hother
    rw [List.mem_singleton.mp hother]
    exact hnew day hday
  refine ((List.pairwise_insertionSort DayEntry.newer _).and hdates).imp ?_
  rintro a b ⟨hle, hne⟩
  exact lt_of_le_of_ne hle (Ne.symm hne)

theorem mem_latestDays {day : DayEntry} (h : day ∈ latestDays (days ++ [entry])) :
    day ∈ days ∨ day = entry := by
  have hmem := (List.mem_insertionSort DayEntry.newer).mp (List.mem_of_mem_take h)
  simpa using hmem

/-- With a full history a new day stays only where it is later than one that goes. -/
theorem exists_earlier (h : Descending days) (hnew : ∀ day ∈ days, day.date ≠ entry.date)
    (hfull : days.length = keptDays) (hkept : entry ∈ latestDays (days ++ [entry])) :
    ∃ day ∈ days, day.date < entry.date := by
  have hsorted := descending_sorted h hnew
  have hlength : ((days ++ [entry]).insertionSort DayEntry.newer).length = keptDays + 1 := by
    rw [List.length_insertionSort, List.length_append, hfull, List.length_singleton]
  generalize hs : (days ++ [entry]).insertionSort DayEntry.newer = sorted at hsorted hlength
  rw [latestDays, hs] at hkept
  obtain ⟨last, hlast⟩ : ∃ last, sorted.drop keptDays = [last] := by
    refine List.length_eq_one_iff.mp ?_
    rw [List.length_drop, hlength]
    omega
  have hsplit : (sorted.take keptDays ++ sorted.drop keptDays).Pairwise
      fun a b => b.date < a.date := by
    rw [List.take_append_drop]
    exact hsorted
  have hearlier : last.date < entry.date :=
    (List.pairwise_append.mp hsplit).2.2 entry hkept last (by simp [hlast])
  have hmem : last ∈ days ++ [entry] := by
    have hdrop : last ∈ sorted.drop keptDays := by simp [hlast]
    rw [← List.mem_insertionSort DayEntry.newer, hs]
    exact List.mem_of_mem_drop hdrop
  rcases List.mem_append.mp hmem with hin | hentry
  · exact ⟨last, hin, hearlier⟩
  · rw [List.mem_singleton.mp hentry] at hearlier
    exact absurd hearlier (lt_irrefl _)

/-- A date that the history drops comes before all that it keeps, and these are as many as it
keeps at most. -/
theorem dropped_latestDays (h : Descending days) (hnew : ∀ day ∈ days, day.date ≠ entry.date)
    {date : String} (hin : ∃ day ∈ days ++ [entry], day.date = date)
    (hout : ∀ day ∈ latestDays (days ++ [entry]), day.date ≠ date) :
    (latestDays (days ++ [entry])).length = keptDays ∧
      ∀ day ∈ latestDays (days ++ [entry]), date < day.date := by
  obtain ⟨gone, hgone, rfl⟩ := hin
  have hsorted := descending_sorted h hnew
  rw [← List.mem_insertionSort DayEntry.newer] at hgone
  rw [latestDays] at hout ⊢
  generalize (days ++ [entry]).insertionSort DayEntry.newer = sorted at hsorted hgone hout
  have hdrop : gone ∈ sorted.drop keptDays := by
    rw [← List.take_append_drop keptDays sorted, List.mem_append] at hgone
    exact hgone.resolve_left fun htake => hout gone htake rfl
  have hmany : keptDays < sorted.length := by
    by_contra hfew
    rw [List.drop_eq_nil_of_le (not_lt.mp hfew)] at hdrop
    cases hdrop
  refine ⟨by rw [List.length_take]; omega, fun day hday => ?_⟩
  rw [Descending, ← List.take_append_drop keptDays sorted] at hsorted
  exact (List.pairwise_append.mp hsorted).2.2 day hday gone hdrop

end NewDay

section KnownDay

variable {days : List DayEntry} {entry : DayEntry}

theorem latestDays_of_descending (h : Descending days) (hlength : days.length ≤ keptDays) :
    latestDays days = days := by
  rw [latestDays, h.newer.insertionSort_eq, List.take_of_length_le hlength]

/-- Replacing the first day of a date changes the day of that date. -/
theorem replaceF_date (h : Descending days) {date : String} {new : DayEntry} :
    (days.replaceF fun day => if day.date = date then some new else none) =
      days.map fun day => if day.date = date then new else day := by
  induction days with
  | nil => rfl
  | cons day days ih =>
    obtain ⟨hfirst, hrest⟩ := List.pairwise_cons.mp h
    by_cases hdate : day.date = date
    · have hothers : days.map (fun day => if day.date = date then new else day) = days := by
        refine (List.map_congr_left fun other hother => ?_).trans (List.map_id days)
        exact if_neg fun hother' => ne_of_lt (hfirst other hother) (hother'.trans hdate.symm)
      simp [List.replaceF, hdate, hothers]
    · simp [List.replaceF, hdate, ih hrest]

/-- What a run writes for a day that the history has. -/
theorem history_known (h : Descending days) (hlength : days.length ≤ keptDays)
    (hentry : entry ∈ days) (removed : List Account) (skippedActive : Nat) (runAt : String) :
    (recordAccountDeletionHistory entry.date removed skippedActive runAt days).2 =
      days.map fun day => if day.date = entry.date then entry.record removed skippedActive runAt
        else day := by
  have hany : days.any (·.date == entry.date) = true :=
    List.any_eq_true.mpr ⟨entry, hentry, beq_self_eq_true _⟩
  have hfind : days.find? (·.date == entry.date) = some entry := by
    obtain ⟨found, hfound⟩ : ∃ found, days.find? (·.date == entry.date) = some found :=
      Option.isSome_iff_exists.mp (List.find?_isSome.mpr ⟨entry, hentry, beq_self_eq_true _⟩)
    have hdate := List.find?_some hfound
    rw [hfound, h.eq_of_date (List.mem_of_find?_eq_some hfound) hentry (by simpa using hdate)]
  have hdates : ∀ day : DayEntry, (if day.date = entry.date then
      entry.record removed skippedActive runAt else day).date = day.date := by
    intro day
    split_ifs with hdate
    · exact hdate.symm
    · rfl
  simp only [recordAccountDeletionHistory, hfind, Option.getD_some, hany, if_true]
  rw [replaceF_date h, latestDays_of_descending]
  · refine List.pairwise_map.mpr (h.imp fun hlt => ?_)
    rwa [hdates, hdates]
  · rwa [List.length_map]

/-- What a run writes for a new day. -/
theorem history_new {date : String} (hnew : ∀ day ∈ days, day.date ≠ date)
    (removed : List Account) (skippedActive : Nat) (runAt : String) :
    (recordAccountDeletionHistory date removed skippedActive runAt days).2 =
      latestDays (days ++ [(DayEntry.fresh date).record removed skippedActive runAt]) := by
  have hany : days.any (·.date == date) = false := by
    rw [List.any_eq_false]
    simpa using hnew
  have hfind : days.find? (·.date == date) = none := by
    rw [List.find?_eq_none]
    simpa using hnew
  simp only [recordAccountDeletionHistory, hfind, Option.getD_none, hany, Bool.false_eq_true,
    if_false]

end KnownDay

/-! ### One run -/

variable {u : Texts} {r : Run} {w : World}

/-- The accounts that a run removes. -/
def Run.removed (u : Texts) (r : Run) : List Account := ofFate u r.moment .removed r.accounts

/-- What the history knows of the removed accounts. -/
structure Kept (w : World) : Prop where
  descending : Descending w.days
  length : w.days.length ≤ keptDays
  totals : ∀ day ∈ w.days, day.total = w.removed.countP fun p => p.1 == day.date
  /-- A date with removed accounts that is not kept comes before all that are. -/
  dropped : ∀ p ∈ w.removed, (∀ day ∈ w.days, day.date ≠ p.1) →
    w.days.length = keptDays ∧ ∀ day ∈ w.days, p.1 < day.date

/-- A day whose counts add up to its total. -/
def DayEntry.AddsUp (day : DayEntry) : Prop :=
  day.byStatus.total id = day.total ∧ day.byPlatform.total id = day.total

/-- A run that is recorded counts every status and every platform that its day has counted. -/
def Covered (u : Texts) (r : Run) (w : World) : Prop :=
  shouldRecord u r.moment r.accounts = true → ∀ day ∈ w.days, day.date = r.moment.today →
    (∀ status, 0 < count day.byStatus status → status ∈ autoDeleteStatuses ∨
      ∃ a ∈ r.removed u, textOr a.accountStatus "abnormal" = status) ∧
    ∀ platform, 0 < count day.byPlatform platform → platform ∈ platforms ∨
      ∃ a ∈ r.removed u, textOr a.platform defaultPlatform = platform

theorem days_step (u : Texts) (r : Run) (w : World) : (step u r w).days =
    if shouldRecord u r.moment r.accounts then
      (recordAccountDeletionHistory r.moment.today (r.removed u)
        (ofFate u r.moment .held r.accounts).length r.moment.runAt w.days).2
    else w.days := by
  simp only [step, cleanupFlaggedAccounts, Run.removed]
  split_ifs <;> rfl

theorem removed_step (u : Texts) (r : Run) (w : World) :
    (step u r w).removed = w.removed ++ (r.removed u).map fun a => (r.moment.today, a) := rfl

theorem removed_eq_nil (h : shouldRecord u r.moment r.accounts = false) : r.removed u = [] := by
  rw [shouldRecord, Bool.or_eq_false_iff] at h
  simpa [Run.removed] using h.2

/-- The removed accounts of a date after a run. -/
theorem countP_removed_step (date : String) :
    (step u r w).removed.countP (fun p => p.1 == date) =
      w.removed.countP (fun p => p.1 == date) +
        if r.moment.today = date then (r.removed u).length else 0 := by
  rw [removed_step, List.countP_append, List.countP_map]
  refine congrArg _ ?_
  split_ifs with hdate
  · exact List.countP_eq_length.mpr fun a _ => by simpa using hdate
  · exact List.countP_eq_zero.mpr fun a _ => by simpa using hdate

/-- The counts that a run adds to a day are as many as it removes. -/
theorem total_runStatuses (removed : List Account) :
    (runStatuses removed).total id = removed.length := by
  rw [runStatuses, total_countBy, List.length_map]

theorem total_runPlatforms (removed : List Account) :
    (runPlatforms removed).total id = removed.length := by
  rw [runPlatforms, total_countBy, List.length_map]

/-- A day that adds up does so after a run exactly where the run covers its counts. -/
theorem DayEntry.AddsUp.record_iff {day : DayEntry} (h : day.AddsUp) (removed : List Account)
    (skippedActive : Nat) (runAt : String) :
    (day.record removed skippedActive runAt).AddsUp ↔
      (∀ status, 0 < count day.byStatus status → status ∈ autoDeleteStatuses ∨
        ∃ a ∈ removed, textOr a.accountStatus "abnormal" = status) ∧
      ∀ platform, 0 < count day.byPlatform platform → platform ∈ platforms ∨
        ∃ a ∈ removed, textOr a.platform defaultPlatform = platform := by
  have hstatus := total_addTo_iff day.byStatus (runStatuses removed)
  have hplatform := total_addTo_iff day.byPlatform (runPlatforms removed)
  rw [total_runStatuses, h.1] at hstatus
  rw [total_runPlatforms, h.2] at hplatform
  rw [DayEntry.AddsUp]
  simp only [DayEntry.record]
  rw [hstatus, hplatform]
  simp only [runStatuses, runPlatforms, contains_countBy, List.mem_map]

theorem addsUp_fresh (date : String) : (DayEntry.fresh date).AddsUp :=
  ⟨total_zeros autoDeleteStatuses, total_zeros platforms⟩

/-- The first run of a day adds up. -/
theorem addsUp_fresh_record (date : String) (removed : List Account) (skippedActive : Nat)
    (runAt : String) : ((DayEntry.fresh date).record removed skippedActive runAt).AddsUp := by
  refine ((addsUp_fresh date).record_iff removed skippedActive runAt).mpr ⟨?_, ?_⟩
  · intro status hpos
    exact absurd (count_zeros autoDeleteStatuses status) hpos.ne'
  · intro platform hpos
    exact absurd (count_zeros platforms platform) hpos.ne'

/-- Nothing was removed and nothing is written. -/
theorem Kept.unrecorded (h : Kept w) (hrecord : shouldRecord u r.moment r.accounts = false) :
    Kept (step u r w) := by
  have hdays : (step u r w).days = w.days := by
    rw [days_step, hrecord]
    rfl
  have hremoved : (step u r w).removed = w.removed := by
    rw [removed_step, removed_eq_nil hrecord, List.map_nil, List.append_nil]
  refine ⟨?_, ?_, ?_, ?_⟩
  · rw [hdays]
    exact h.descending
  · rw [hdays]
    exact h.length
  · rw [hdays, hremoved]
    exact h.totals
  · rw [hdays, hremoved]
    exact h.dropped

/-- The day of a run, where the history has it. -/
def recordDay (u : Texts) (r : Run) (entry : DayEntry) : DayEntry :=
  entry.record (r.removed u) (ofFate u r.moment .held r.accounts).length r.moment.runAt

theorem date_recordDay (entry day : DayEntry) :
    (if day.date = entry.date then recordDay u r entry else day).date = day.date := by
  split_ifs with hdate
  · exact hdate.symm
  · rfl

theorem Kept.days_known (h : Kept w) {entry : DayEntry} (hentry : entry ∈ w.days)
    (hdate : entry.date = r.moment.today) (hrecord : shouldRecord u r.moment r.accounts = true) :
    (step u r w).days =
      w.days.map fun day => if day.date = entry.date then recordDay u r entry else day := by
  rw [days_step, if_pos hrecord, ← hdate, history_known h.descending h.length hentry]
  rfl

/-- A run that finds its day in the history. -/
theorem Kept.known (h : Kept w) {entry : DayEntry} (hentry : entry ∈ w.days)
    (hdate : entry.date = r.moment.today) (hrecord : shouldRecord u r.moment r.accounts = true) :
    Kept (step u r w) := by
  have hdays := h.days_known hentry hdate hrecord
  refine ⟨?_, ?_, ?_, ?_⟩
  · rw [hdays]
    refine List.pairwise_map.mpr (h.descending.imp fun hlt => ?_)
    rwa [date_recordDay, date_recordDay]
  · rw [hdays, List.length_map]
    exact h.length
  · intro day' hday'
    rw [hdays] at hday'
    obtain ⟨day, hday, rfl⟩ := List.mem_map.mp hday'
    rw [date_recordDay, countP_removed_step, ← h.totals day hday]
    split_ifs with hsame htoday htoday
    · rw [h.descending.eq_of_date hday hentry hsame]
      rfl
    · exact absurd (hdate.symm.trans hsame.symm) htoday
    · exact absurd (htoday.symm.trans hdate.symm) hsame
    · rfl
  · intro p hp hout
    have hother : ∀ day ∈ w.days, day.date ≠ p.1 := by
      intro day hday
      rw [← date_recordDay (u := u) (r := r) entry day]
      exact hout _ (hdays ▸ List.mem_map_of_mem hday)
    have hold : p ∈ w.removed := by
      rw [removed_step, List.mem_append] at hp
      refine hp.resolve_right fun hnew => hother entry hentry ?_
      obtain ⟨a, -, rfl⟩ := List.mem_map.mp hnew
      exact hdate
    obtain ⟨hlength, hbefore⟩ := h.dropped p hold hother
    rw [hdays]
    refine ⟨by rw [List.length_map, hlength], fun day' hday' => ?_⟩
    obtain ⟨day, hday, rfl⟩ := List.mem_map.mp hday'
    rw [date_recordDay]
    exact hbefore day hday

theorem days_new (hnew : ∀ day ∈ w.days, day.date ≠ r.moment.today)
    (hrecord : shouldRecord u r.moment r.accounts = true) :
    (step u r w).days = latestDays (w.days ++ [recordDay u r (.fresh r.moment.today)]) := by
  rw [days_step, if_pos hrecord, history_new hnew]
  rfl

/-- A run that starts a day. -/
theorem Kept.new (h : Kept w) (hnew : ∀ day ∈ w.days, day.date ≠ r.moment.today)
    (hrecord : shouldRecord u r.moment r.accounts = true) : Kept (step u r w) := by
  have hdays := days_new hnew hrecord
  have hnew' : ∀ day ∈ w.days, day.date ≠ (recordDay u r (.fresh r.moment.today)).date := hnew
  have hearlier := exists_earlier h.descending hnew'
  refine ⟨?_, ?_, ?_, ?_⟩
  · rw [hdays]
    exact (descending_sorted h.descending hnew').sublist (List.take_sublist ..)
  · rw [hdays, latestDays, List.length_take]
    exact min_le_left ..
  · intro day hday
    rw [hdays] at hday
    rw [countP_removed_step]
    rcases mem_latestDays hday with hold | rfl
    · rw [if_neg (Ne.symm (hnew day hold)), Nat.add_zero, h.totals day hold]
    · -- A date that was dropped before is dropped again.
      have hnone : w.removed.countP (fun p => p.1 == r.moment.today) = 0 := by
        refine List.countP_eq_zero.mpr fun p hp hsame => ?_
        have htoday : p.1 = r.moment.today := by simpa using hsame
        obtain ⟨hfull, hbefore⟩ := h.dropped p hp (by rwa [htoday])
        obtain ⟨other, hother, hlt⟩ := hearlier hfull hday
        exact lt_asymm hlt (htoday ▸ hbefore other hother)
      have hdate : (recordDay u r (.fresh r.moment.today)).date = r.moment.today := rfl
      have htotal : (recordDay u r (.fresh r.moment.today)).total = 0 + (r.removed u).length := rfl
      rw [htotal, hdate, hnone, if_pos rfl]
  · intro p hp hout
    rw [hdays] at hout ⊢
    by_cases hin : ∃ day ∈ w.days ++ [recordDay u r (.fresh r.moment.today)], day.date = p.1
    · exact dropped_latestDays h.descending hnew' hin hout
    · have hother : ∀ day ∈ w.days, day.date ≠ p.1 := fun day hday hdate =>
        hin ⟨day, List.mem_append_left _ hday, hdate⟩
      have hold : p ∈ w.removed := by
        rw [removed_step, List.mem_append] at hp
        refine hp.resolve_right fun hmem => hin ?_
        obtain ⟨a, -, rfl⟩ := List.mem_map.mp hmem
        exact ⟨recordDay u r (.fresh r.moment.today), by simp, rfl⟩
      obtain ⟨hfull, hbefore⟩ := h.dropped p hold hother
      refine ⟨?_, fun day hday => ?_⟩
      · rw [latestDays, List.length_take, List.length_insertionSort, List.length_append, hfull]
        exact min_eq_left (Nat.le_succ _)
      · rcases mem_latestDays hday with hmem | rfl
        · exact hbefore day hmem
        · obtain ⟨other, hmem, hlt⟩ := hearlier hfull hday
          exact (hbefore other hmem).trans hlt

/-- What the history knows it knows after every run. -/
theorem Kept.after_run (h : Kept w) : Kept (step u r w) := by
  cases hrecord : shouldRecord u r.moment r.accounts with
  | false => exact h.unrecorded hrecord
  | true =>
    by_cases hknown : ∃ entry ∈ w.days, entry.date = r.moment.today
    · obtain ⟨entry, hentry, hdate⟩ := hknown
      exact h.known hentry hdate hrecord
    · exact h.new (fun day hday hdate => hknown ⟨day, hday, hdate⟩) hrecord

/-! ### What adds up -/

/-- Every day of the history adds up. -/
def AddsUp (w : World) : Prop := ∀ day ∈ w.days, day.AddsUp

/-- The totals of the kept days are the accounts that were removed on these. -/
def KeptTotals (w : World) : Prop :=
  (w.days.map DayEntry.total).sum =
    w.removed.countP fun p => w.days.any fun day => day.date == p.1

/-- Counting by the dates of a list without repetitions. -/
theorem sum_countP_date {removed : List (String × Account)} {days : List DayEntry}
    (h : Descending days) :
    (days.map fun day => removed.countP fun p => p.1 == day.date).sum =
      removed.countP fun p => days.any fun day => day.date == p.1 := by
  induction days with
  | nil => simp
  | cons day days ih =>
    obtain ⟨hfirst, hrest⟩ := List.pairwise_cons.mp h
    rw [List.map_cons, List.sum_cons, ih hrest]
    clear ih
    induction removed with
    | nil => rfl
    | cons p removed ih =>
      -- No removed account is counted for two dates.
      have hother : p.1 = day.date → (days.any fun other => other.date == p.1) = false := by
        intro hdate
        rw [List.any_eq_false]
        intro other hmem hsame
        have hlt := hfirst other hmem
        rw [← hdate, ← eq_of_beq hsame] at hlt
        exact lt_irrefl _ hlt
      simp only [List.countP_cons, List.any_cons] at ih ⊢
      by_cases hdate : p.1 = day.date
      · rw [hother hdate]
        simp only [hdate, beq_self_eq_true, Bool.true_or, if_true, Bool.false_eq_true, if_false]
        omega
      · have hne : (p.1 == day.date) = false := by simpa using hdate
        have hne' : (day.date == p.1) = false := by simpa using Ne.symm hdate
        simp only [hne, hne', Bool.false_or, Bool.false_eq_true, if_false]
        omega

theorem Kept.keptTotals (h : Kept w) : KeptTotals w := by
  rw [KeptTotals, ← sum_countP_date h.descending]
  exact congrArg List.sum (List.map_congr_left fun day hday => h.totals day hday)

/-- A run keeps the days adding up if and only if it covers what its day has counted. -/
theorem Kept.addsUp_iff (h : Kept w) (hw : AddsUp w) : AddsUp (step u r w) ↔ Covered u r w := by
  cases hrecord : shouldRecord u r.moment r.accounts with
  | false =>
    refine iff_of_true ?_ fun htrue => ?_
    · rw [AddsUp, days_step, hrecord]
      exact hw
    · rw [hrecord] at htrue
      cases htrue
  | true =>
    by_cases hknown : ∃ entry ∈ w.days, entry.date = r.moment.today
    · obtain ⟨entry, hentry, hdate⟩ := hknown
      have hrecorded := (hw entry hentry).record_iff (r.removed u)
        (ofFate u r.moment .held r.accounts).length r.moment.runAt
      rw [AddsUp, h.days_known hentry hdate hrecord]
      constructor
      · intro hall _ day hday hdate'
        rw [h.descending.eq_of_date hday hentry (hdate'.trans hdate.symm)]
        refine hrecorded.mp (hall _ (List.mem_map.mpr ⟨entry, hentry, ?_⟩))
        exact if_pos rfl
      · intro hcovered day' hday'
        obtain ⟨day, hday, rfl⟩ := List.mem_map.mp hday'
        split_ifs
        · exact hrecorded.mpr (hcovered hrecord entry hentry hdate)
        · exact hw day hday
    · have hnew : ∀ day ∈ w.days, day.date ≠ r.moment.today :=
        fun day hday hdate => hknown ⟨day, hday, hdate⟩
      refine iff_of_true ?_ fun _ day hday hdate => absurd hdate (hnew day hday)
      rw [AddsUp, days_new hnew hrecord]
      intro day hday
      rcases mem_latestDays hday with hold | rfl
      · exact hw day hold
      · exact addsUp_fresh_record ..

/-- A run removes no account that holds a task. -/
def NoneHeld (u : Texts) (r : Run) (_ : World) : Prop :=
  ∀ a ∈ r.removed u, a.currentTaskId = ""

theorem noneHeld (u : Texts) (r : Run) (w : World) : NoneHeld u r w := by
  intro a ha
  have hfate : fate u r.moment a = .removed := by
    simpa using (List.mem_filter.mp ha).2
  by_contra hheld
  rw [fate] at hfate
  dsimp only at hfate
  split_ifs at hfate

/-! ### Whole sequences -/

theorem Kept.initial : Kept {} := ⟨.nil, by decide, by simp, by simp⟩

/-- For every sequence of runs at any times over any accounts: every stored day adds up, the
totals of the kept days are the accounts removed on them and no run removes an account that holds
a task, if and only if every recorded run covers what its day has counted. -/
theorem history_adds_up_iff (u : Texts) (runs : List Run) :
    Throughout (step u) (fun w => AddsUp w ∧ KeptTotals w) runs {} ∧
        AllSteps (step u) (NoneHeld u) runs {} ↔
      AllSteps (step u) (Covered u) runs {} := by
  have hinv : ∀ r w, Kept w ∧ AddsUp w → Covered u r w →
      Kept (step u r w) ∧ AddsUp (step u r w) :=
    fun r w hw hcovered => ⟨hw.1.after_run, (hw.1.addsUp_iff hw.2).mpr hcovered⟩
  refine throughout_and_allSteps_iff (fun w hw => ⟨hw.2, hw.1.keptTotals⟩) hinv ?_
    ⟨.initial, by simp [AddsUp]⟩
  intro r w hw
  have hiff : AddsUp (step u r w) ↔ Covered u r w := hw.1.addsUp_iff hw.2
  refine ⟨fun hstep => hiff.mp hstep.1.1, fun hcovered => ?_⟩
  exact ⟨⟨hiff.mpr hcovered, hw.1.after_run.keptTotals⟩, noneHeld u r w⟩

/-- Two runs late on one day: the first removes a region restricted account of `doubao`, the
second removes nothing. -/
def lateRuns : List Run :=
  [⟨⟨"2026-01-02", "2026-01-01", 23, "2026-01-02T23:00:00+08:00"⟩,
      [{ id := "0123456789abcdef", platform := "doubao", accountStatus := "region_restricted" }]⟩,
    ⟨⟨"2026-01-02", "2026-01-01", 23, "2026-01-02T23:30:00+08:00"⟩, []⟩]

/-- The second run forgets what the first one counted. -/
theorem region_restricted_forgotten :
    ¬ (Throughout (step ⟨.ascii, Char.isDigit, fun _ => none⟩) (fun w => AddsUp w ∧ KeptTotals w)
          lateRuns {} ∧
        AllSteps (step ⟨.ascii, Char.isDigit, fun _ => none⟩)
          (NoneHeld ⟨.ascii, Char.isDigit, fun _ => none⟩) lateRuns {}) := by
  rintro ⟨hthroughout, -⟩
  have hdays : (run (step ⟨.ascii, Char.isDigit, fun _ => none⟩) lateRuns {}).days.map
      (fun day => (day.byStatus.total id, day.total)) = [(0, 1)] := by decide +kernel
  obtain ⟨day, hday, hcounts⟩ := List.mem_map.mp (hdays ▸ List.mem_singleton_self (0, 1))
  have haddsUp := (hthroughout.final.1 day hday).1
  rw [Prod.mk.injEq] at hcounts
  omega

end FetchTask.AccountCleanup
