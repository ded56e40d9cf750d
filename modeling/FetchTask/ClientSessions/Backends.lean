import FetchTask.ClientSessions.Honest

/-!
Redis and the table keep the same sessions.

The same calls are made on two processes, one that always reaches Redis and one
that never does. As long as the table has room for the sessions that have not
expired, both answer alike at all times, and as a session does that lasts twelve
hours from its last use.
-/

namespace FetchTask.ClientSessions

open Runs Expiring

variable {w : World} {table : Table} {now : Rat} {id tokenHash : String}

inductive Call
  | pass (time : Rat)
  | create (id tokenHash : String)
  | lookup (id : String)
  | delete (id : String)

def Call.via (reach : Reach) : Call → Event
  | .pass time => .pass time
  | .create id tokenHash => .create id tokenHash reach
  | .lookup id => .lookup id reach
  | .delete id => .delete id reach

/-- Both processes. -/
structure Pair where
  redis : World
  table : World

/-- A key is there until its deadline and not longer. -/
def Pair.step (call : Call) (p : Pair) : Pair where
  redis := ClientSessions.step false (call.via .up) p.redis
  table := ClientSessions.step false (call.via .down) p.table

def Pair.new (now : Rat) : Pair := ⟨.new now, .new now⟩

/-- The table has room for the sessions that have not expired. -/
def World.room (w : World) : Prop :=
  (w.sessions.table.filter fun item => decide (w.now < item.2.1)).size ≤ sessionLimit

/-- Both answer alike, and as the account says. -/
def Pair.Alike (p : Pair) : Prop :=
  ∀ id, p.redis.answer false id .up = p.redis.expected false id ∧
    p.table.answer false id .down = p.redis.expected false id

/-! ### What each backend keeps of the account -/

/-- Redis has the account with the deadlines. -/
structure Mirrored (w : World) : Prop where
  redis : ∀ id, w.sessions.redis id =
    (w.account id).map fun a => ⟨a.1, some (a.2 + clientSessionTtlSeconds)⟩
  hash : ∀ id tokenHash used, w.account id = some (tokenHash, used) → tokenHash ≠ ""
  empty : w.account "" = none

/-- The table has what has not expired of the account, and whatever else it has is over. -/
structure Tabled (w : World) : Prop where
  kept : ∀ id tokenHash used, w.account id = some (tokenHash, used) →
    w.now < used + clientSessionTtlSeconds →
      w.sessions.table.get? id = some (used + clientSessionTtlSeconds, tokenHash)
  sound : ∀ id item, w.sessions.table.get? id = some item → w.now < item.1 →
    ∃ used, w.account id = some (item.2, used) ∧ item.1 = used + clientSessionTtlSeconds

theorem there_false {deadline : Rat} : there false now (some deadline) = decide (now < deadline) := by
  simp [there]

theorem expected_eq_some : w.expected false id = some tokenHash ↔
    ∃ used, w.account id = some (tokenHash, used) ∧ w.now < used + clientSessionTtlSeconds := by
  rw [World.expected]
  cases haccount : w.account id with
  | none => simp
  | some a =>
    obtain ⟨found, used⟩ := a
    by_cases hlt : w.now < used + clientSessionTtlSeconds
    · simp [there_false, hlt]
    · simp only [there_false, hlt, decide_false, Bool.false_eq_true, if_false]
      constructor
      · intro habs
        cases habs
      · rintro ⟨used', heq, hlt'⟩
        cases heq
        exact absurd hlt' hlt

theorem Mirrored.live_eq (h : Mirrored w) (id : String) :
    live false w.now (w.sessions.redis id) =
      match w.account id with
      | none => none
      | some (tokenHash, used) =>
        if w.now < used + clientSessionTtlSeconds then
          some ⟨tokenHash, some (used + clientSessionTtlSeconds)⟩
        else none := by
  rw [h.redis]
  cases w.account id with
  | none => rfl
  | some a => simp [live, there_false]

/-- Redis answers what is expected, and renews it. -/
theorem Mirrored.lookup (h : Mirrored w) (id : String) :
    clientSessionTokenHash false id .up w.now w.sessions =
      match w.expected false id with
      | none => (none, w.sessions)
      | some tokenHash => (some tokenHash, { w.sessions with
          redis := Function.update w.sessions.redis id
            (some ⟨tokenHash, some (w.now + clientSessionTtlSeconds)⟩) }) := by
  rw [clientSessionTokenHash]
  split
  · rename_i hid
    rw [World.expected, hid, h.empty]
  · rw [if_neg (by decide), h.live_eq, World.expected]
    cases haccount : w.account id with
    | none => rfl
    | some a =>
      obtain ⟨found, used⟩ := a
      by_cases hlt : w.now < used + clientSessionTtlSeconds
      · simp [there_false, hlt, h.hash id found used haccount, expire]
      · simp [there_false, hlt]

theorem get?_pruneSessions_iff (hroom : w.room) {item : Rat × String} :
    (pruneSessions w.now w.sessions.table).get? id = some item ↔
      w.sessions.table.get? id = some item ∧ w.now < item.1 := by
  refine ⟨get?_pruneSessions, fun ⟨hget, hlt⟩ => ?_⟩
  have hdrop : pruneSessions w.now w.sessions.table =
      w.sessions.table.filter fun item => decide (w.now < item.2.1) := by
    have hzero := Nat.sub_eq_zero_of_le hroom
    rw [pruneSessions, hzero]
    rfl
  rw [hdrop, Dict.get?_eq_some_iff, Dict.items_filter, List.mem_filter]
  exact ⟨(Dict.get?_eq_some_iff _).mp hget, by simpa using hlt⟩

/-- With room, pruning loses nothing that counts. -/
theorem Tabled.pruned (h : Tabled w) (hroom : w.room) :
    Tabled { w with sessions := { w.sessions with
      table := pruneSessions w.now w.sessions.table } } where
  kept i t u hacc hlt := (get?_pruneSessions_iff hroom).mpr ⟨h.kept i t u hacc hlt, hlt⟩
  sound i item hget := h.sound i item ((get?_pruneSessions_iff hroom).mp hget).1

/-- The table answers what is expected, and renews it. -/
theorem Tabled.lookup (h : Tabled w) (hroom : w.room) (hempty : w.account "" = none) (id : String) :
    ∃ table, (table = w.sessions.table ∨ table = pruneSessions w.now w.sessions.table) ∧
      clientSessionTokenHash false id .down w.now w.sessions =
        match w.expected false id with
        | none => (none, { w.sessions with table })
        | some tokenHash => (some tokenHash, { w.sessions with
            table := table.set id (w.now + clientSessionTtlSeconds, tokenHash) }) := by
  rw [clientSessionTokenHash]
  split
  · rename_i hid
    refine ⟨w.sessions.table, .inl rfl, ?_⟩
    rw [World.expected, hid, hempty]
  · rw [if_pos rfl]
    refine ⟨pruneSessions w.now w.sessions.table, .inr rfl, ?_⟩
    rcases tableTokenHash_cases id w.now w.sessions with hnone | ⟨expiresAt, found, hget, hlt, heq⟩
    · have hexpected : w.expected false id = none := by
        by_contra hsome
        obtain ⟨found, hfound⟩ := Option.ne_none_iff_exists'.mp hsome
        obtain ⟨used, haccount, hlt⟩ := expected_eq_some.mp hfound
        have hget := (get?_pruneSessions_iff hroom).mpr ⟨h.kept id found used haccount hlt, hlt⟩
        rw [tableTokenHash] at hnone
        simp only [hget, if_neg (not_le.mpr hlt)] at hnone
        cases congrArg Prod.fst hnone
      rw [hexpected]
      exact hnone
    · obtain ⟨used, haccount, hdeadline⟩ := h.sound id _ (get?_pruneSessions hget).1 hlt
      have hexpected : w.expected false id = some found :=
        expected_eq_some.mpr ⟨used, haccount, lt_of_lt_of_eq hlt hdeadline⟩
      rw [hexpected]
      exact heq

/-! ### What is used now -/

theorem createClientSession_up (id tokenHash : String) (now : Rat) (s : Sessions) :
    createClientSession id tokenHash .up now s = { s with
      redis := Function.update s.redis id
        (some ⟨tokenHash, some (now + clientSessionTtlSeconds)⟩) } :=
  if_neg (by decide)

theorem createClientSession_down (id tokenHash : String) (now : Rat) (s : Sessions) :
    createClientSession id tokenHash .down now s = { s with
      table := (pruneSessions now s.table).set id (now + clientSessionTtlSeconds, tokenHash) } :=
  if_pos rfl

theorem Mirrored.used (h : Mirrored w) (hid : id ≠ "") (hne : tokenHash ≠ "")
    (issued : List String) : Mirrored { w with
      issued
      sessions := { w.sessions with
        redis := Function.update w.sessions.redis id
          (some ⟨tokenHash, some (w.now + clientSessionTtlSeconds)⟩) }
      account := Function.update w.account id (some (tokenHash, w.now)) } where
  redis i := by
    by_cases hi : i = id
    · subst hi
      simp
    · simpa [hi] using h.redis i
  hash i found used haccount := by
    by_cases hi : i = id
    · subst hi
      cases (Function.update_self i _ w.account).symm.trans haccount
      exact hne
    · exact h.hash i found used ((Function.update_of_ne hi ..).symm.trans haccount)
  empty := (Function.update_of_ne (Ne.symm hid) ..).trans h.empty

theorem Tabled.used (h : Tabled { w with sessions := { w.sessions with table } })
    (issued : List String) : Tabled { w with
      issued
      sessions := { w.sessions with
        table := table.set id (w.now + clientSessionTtlSeconds, tokenHash) }
      account := Function.update w.account id (some (tokenHash, w.now)) } where
  kept i found used haccount hlt := by
    by_cases hi : i = id
    · subst hi
      cases (Function.update_self i _ w.account).symm.trans haccount
      exact Dict.get?_set_self ..
    · have hold := h.kept i found used ((Function.update_of_ne hi ..).symm.trans haccount) hlt
      exact (Dict.get?_set_of_ne _ _ (Ne.symm hi)).trans hold
  sound i item hget hlt := by
    by_cases hi : i = id
    · subst hi
      cases (Dict.get?_set_self ..).symm.trans hget
      exact ⟨w.now, Function.update_self .., rfl⟩
    · obtain ⟨used, haccount, heq⟩ :=
        h.sound i item ((Dict.get?_set_of_ne _ _ (Ne.symm hi)).symm.trans hget) hlt
      exact ⟨used, (Function.update_of_ne hi ..).trans haccount, heq⟩

/-! ### Both -/

structure Pair.Related (p : Pair) : Prop where
  now : p.table.now = p.redis.now
  issued : p.table.issued = p.redis.issued
  account : p.table.account = p.redis.account
  mirrored : Mirrored p.redis
  tabled : Tabled p.table

namespace Pair

variable {p : Pair}

theorem related_new (now : Rat) : (new now).Related where
  now := rfl
  issued := rfl
  account := rfl
  mirrored := ⟨fun _ => rfl, fun _ _ _ h => by simp [new, World.new] at h, rfl⟩
  tabled := ⟨fun _ _ _ h => by simp [new, World.new] at h,
    fun _ _ h => by simp [new, World.new] at h⟩

theorem Related.expected (h : p.Related) (id : String) :
    p.table.expected false id = p.redis.expected false id := by
  rw [World.expected, World.expected, h.account, h.now]

theorem Related.alike (h : p.Related) (hroom : p.table.room) : p.Alike := by
  intro id
  constructor
  · rw [World.answer, h.mirrored.lookup id]
    cases p.redis.expected false id <;> rfl
  · obtain ⟨table, -, heq⟩ := h.tabled.lookup hroom (h.account ▸ h.mirrored.empty) id
    rw [World.answer, heq, h.expected]
    cases p.redis.expected false id <;> rfl

theorem Related.lookup (h : p.Related) (hroom : p.table.room) (id : String) :
    (step (.lookup id) p).Related := by
  obtain ⟨table, htable, heq⟩ := h.tabled.lookup hroom (h.account ▸ h.mirrored.empty) id
  have hsame : Tabled { p.table with sessions := { p.table.sessions with table } } := by
    rcases htable with rfl | rfl
    · exact h.tabled
    · exact h.tabled.pruned hroom
  rw [step, Call.via, Call.via]
  simp only [ClientSessions.step, heq, h.mirrored.lookup id, h.expected]
  cases hexpected : p.redis.expected false id with
  | none => exact ⟨h.now, h.issued, h.account, h.mirrored, hsame⟩
  | some tokenHash =>
    obtain ⟨used, haccount, -⟩ := expected_eq_some.mp hexpected
    have hid : id ≠ "" := by
      rintro rfl
      rw [h.mirrored.empty] at haccount
      cases haccount
    exact ⟨h.now, h.issued, by simp only [h.account, h.now],
      h.mirrored.used hid (h.mirrored.hash id tokenHash used haccount) _, hsame.used _⟩

/-- Both worlds have the same time, identifiers and account. -/
theorem Related.exists (h : p.Related) : ∃ now issued account sr st,
    p = ⟨⟨now, sr, issued, account⟩, ⟨now, st, issued, account⟩⟩ := by
  obtain ⟨⟨now, sr, issued, account⟩, ⟨now', st, issued', account'⟩⟩ := p
  obtain rfl : now' = now := h.now
  obtain rfl : issued' = issued := h.issued
  obtain rfl : account' = account := h.account
  exact ⟨_, _, _, _, _, rfl⟩

theorem Related.create (h : p.Related) (hroom : p.table.room) (id tokenHash : String) :
    (step (.create id tokenHash) p).Related := by
  have hmirrored := h.mirrored
  have hpruned := h.tabled.pruned hroom
  obtain ⟨now, issued, account, sr, st, rfl⟩ := h.exists
  by_cases hnew : id ∉ issued ∧ id ≠ "" ∧ tokenHash ≠ ""
  · simp only [step, Call.via, ClientSessions.step, createClientSession_up,
      createClientSession_down, if_pos hnew]
    exact ⟨rfl, rfl, rfl, hmirrored.used hnew.2.1 hnew.2.2 _, hpruned.used _⟩
  · simp only [step, Call.via, ClientSessions.step, if_neg hnew]
    exact h

theorem Related.delete (h : p.Related) (id : String) : (step (.delete id) p).Related := by
  rw [step, Call.via, Call.via]
  simp only [ClientSessions.step, deleteClientSession]
  by_cases hid : id = ""
  · simp only [if_pos hid]
    exact h
  · simp only [if_neg hid, if_true]
    refine ⟨h.now, h.issued, by simp only [h.account], ⟨fun i => ?_, fun i found used hacc => ?_,
      (Function.update_of_ne (Ne.symm hid) ..).trans h.mirrored.empty⟩,
      ⟨fun i found used hacc hlt => ?_, fun i item hget hlt => ?_⟩⟩
    · by_cases hi : i = id
      · subst hi
        simp
      · simpa [hi] using h.mirrored.redis i
    · by_cases hi : i = id
      · subst hi
        cases (Function.update_self i none p.redis.account).symm.trans hacc
      · exact h.mirrored.hash i found used ((Function.update_of_ne hi ..).symm.trans hacc)
    · by_cases hi : i = id
      · subst hi
        cases (Function.update_self i none p.table.account).symm.trans hacc
      · have hold := h.tabled.kept i found used ((Function.update_of_ne hi ..).symm.trans hacc) hlt
        rw [Dict.get?_erase, if_neg hi]
        exact hold
    · rw [Dict.get?_erase] at hget
      split at hget
      · cases hget
      · rename_i hi
        obtain ⟨used, hacc, heq⟩ := h.tabled.sound i item hget hlt
        exact ⟨used, (Function.update_of_ne hi ..).trans hacc, heq⟩

theorem Related.pass (h : p.Related) (time : Rat) : (step (.pass time) p).Related := by
  rw [step, Call.via, Call.via]
  simp only [ClientSessions.step, h.now]
  split
  · rename_i htime
    rw [← h.now] at htime
    exact ⟨rfl, h.issued, h.account, ⟨h.mirrored.redis, h.mirrored.hash, h.mirrored.empty⟩,
      ⟨fun i t u hacc hlt => h.tabled.kept i t u hacc (lt_of_le_of_lt htime hlt),
        fun i item hget hlt => h.tabled.sound i item hget (lt_of_le_of_lt htime hlt)⟩⟩
  · exact h

theorem step_related (call : Call) (p : Pair) (h : p.Related) (hroom : p.table.room) :
    (step call p).Related := by
  cases call with
  | pass time => exact h.pass time
  | create id tokenHash => exact h.create hroom id tokenHash
  | lookup id => exact h.lookup hroom id
  | delete id => exact h.delete id

end Pair

/-- The same calls with Redis and without: as long as the table has room, at all times both answer
every look-up alike, and with the hash of a session that was made or answered less than twelve
hours ago and not deleted since. -/
theorem backends_alike (now : Rat) (calls : List Call)
    (hroom : Throughout Pair.step (fun p => p.table.room) calls (.new now)) :
    Throughout Pair.step Pair.Alike calls (.new now) := by
  have hcalls : AllSteps Pair.step (fun _ p => p.table.room) calls (.new now) :=
    hroom.allSteps fun _ _ h => h
  have hrelated := throughout_of_allSteps Pair.step_related (Pair.related_new now) hcalls
  exact (hrelated.and hroom).mono fun p h => h.1.alike h.2

/-! ### Room -/

theorem size_filter_le (table : Table) (p : String × (Rat × String) → Bool) :
    (table.filter p).size ≤ table.size := List.length_filter_le ..

theorem size_pruneSessions_le : (pruneSessions now table).size ≤ table.size := by
  rw [pruneSessions, Dict.size, Dict.items_drop, List.length_drop]
  exact (Nat.sub_le ..).trans (size_filter_le ..)

theorem size_step_le (call : Call) (w : World) :
    (step false (call.via .down) w).sessions.table.size ≤ w.sessions.table.size + 1 := by
  cases call with
  | pass time =>
    simp only [Call.via, step]
    split <;> exact Nat.le_succ _
  | create id tokenHash =>
    simp only [Call.via, step, createClientSession_down]
    split
    · exact (Dict.size_set_le ..).trans (Nat.succ_le_succ size_pruneSessions_le)
    · exact Nat.le_succ _
  | lookup id =>
    simp only [Call.via, step]
    rcases lookup_cases false id .down w.now w.sessions with ⟨table, htable, heq⟩ | ⟨key, -, heq⟩ |
      ⟨expiresAt, tokenHash, -, -, heq⟩
    · rw [heq]
      rcases htable with rfl | rfl
      · exact Nat.le_succ _
      · exact size_pruneSessions_le.trans (Nat.le_succ _)
    · rw [heq]
      exact Nat.le_succ _
    · rw [heq]
      exact (Dict.size_set_le ..).trans (Nat.succ_le_succ size_pruneSessions_le)
  | delete id =>
    simp only [Call.via, step, deleteClientSession]
    split
    · exact Nat.le_succ _
    · exact (Dict.size_erase_le ..).trans (Nat.le_succ _)

/-- There is room as long as there have been no more calls than that. -/
theorem room_of_length {calls : List Call} {p : Pair}
    (h : p.table.sessions.table.size + calls.length ≤ sessionLimit) :
    Throughout Pair.step (fun p => p.table.room) calls p := by
  induction calls generalizing p with
  | nil => exact (size_filter_le ..).trans h
  | cons call calls ih =>
    have hstep := size_step_le call p.table
    rw [List.length_cons] at h
    refine ⟨(size_filter_le ..).trans (by omega), ih ?_⟩
    exact (Nat.add_le_add_right hstep _).trans (by omega)

/-- A session that is used after an hour and is deleted then. -/
theorem backends_alike_sample :
    Throughout Pair.step (fun p => p.table.room)
        [.create "s" "h", .pass 3600, .lookup "s", .delete "s", .lookup "s"] (.new 0) ∧
      Throughout Pair.step Pair.Alike
        [.create "s" "h", .pass 3600, .lookup "s", .delete "s", .lookup "s"] (.new 0) := by
  have hroom : Throughout Pair.step (fun p => p.table.room)
      [.create "s" "h", .pass 3600, .lookup "s", .delete "s", .lookup "s"] (.new 0) :=
    room_of_length (by rw [sessionLimit]; exact Nat.le_of_ble_eq_true rfl)
  exact ⟨hroom, backends_alike 0 _ hroom⟩

end FetchTask.ClientSessions
