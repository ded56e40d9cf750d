import FetchTask.ClientSessions

/-!
A session answers only for the hash it was made for, and within twelve hours.

`Kept` ties what Redis and the table still hold to the account; only a deletion
that does not reach Redis breaks it, since the account has forgotten the session
and Redis has not.
-/

namespace FetchTask.ClientSessions

open Runs Expiring

variable {lasting : Bool} {w : World} {s : Sessions} {table : Table} {now : Rat}
  {id tokenHash : String} {reach : Reach}

/-! ### The table -/

theorem get?_pruneSessions {item : Rat × String}
    (h : (pruneSessions now table).get? id = some item) :
    table.get? id = some item ∧ now < item.1 := by
  have hmem := (Dict.get?_eq_some_iff _).mp h
  rw [pruneSessions, Dict.items_drop] at hmem
  have hkept := List.mem_of_mem_drop hmem
  rw [Dict.items_filter, List.mem_filter] at hkept
  exact ⟨(Dict.get?_eq_some_iff _).mpr hkept.1, by simpa using hkept.2⟩

theorem contains_pruneSessions (h : table.contains id = false) :
    (pruneSessions now table).contains id = false := by
  rw [Dict.contains, Option.isSome_eq_false_iff, Option.isNone_iff_eq_none] at h ⊢
  cases hget : (pruneSessions now table).get? id with
  | none => rfl
  | some item =>
    rw [(get?_pruneSessions hget).1] at h
    cases h

/-! ### What a look-up does -/

theorem tableTokenHash_cases (id : String) (now : Rat) (s : Sessions) :
    tableTokenHash id now s = (none, { s with table := pruneSessions now s.table }) ∨
      ∃ expiresAt tokenHash, (pruneSessions now s.table).get? id = some (expiresAt, tokenHash) ∧
        now < expiresAt ∧ tableTokenHash id now s = (some tokenHash, { s with
          table := (pruneSessions now s.table).set id
            (now + clientSessionTtlSeconds, tokenHash) }) := by
  have hprune : ∀ item, (pruneSessions now s.table).get? id = some item → _ :=
    fun _ => get?_pruneSessions
  rw [tableTokenHash]
  generalize pruneSessions now s.table = pruned at *
  cases hget : pruned.get? id with
  | none => exact .inl rfl
  | some item =>
    obtain ⟨expiresAt, tokenHash⟩ := item
    have hlt := (hprune _ hget).2
    exact .inr ⟨expiresAt, tokenHash, rfl, hlt, if_neg (not_le.mpr hlt)⟩

/-- A look-up finds nothing, or renews what it finds in Redis, or in the table. -/
theorem lookup_cases (lasting : Bool) (id : String) (reach : Reach) (now : Rat) (s : Sessions) :
    (∃ table, (table = s.table ∨ table = pruneSessions now s.table) ∧
      clientSessionTokenHash lasting id reach now s = (none, { s with table })) ∨
    (∃ key, live lasting now (s.redis id) = some key ∧
      clientSessionTokenHash lasting id reach now s = (some key.value, { s with
        redis := Function.update s.redis id
          (some (expire (now + clientSessionTtlSeconds) key)) })) ∨
    ∃ expiresAt tokenHash, (pruneSessions now s.table).get? id = some (expiresAt, tokenHash) ∧
      now < expiresAt ∧ clientSessionTokenHash lasting id reach now s = (some tokenHash, { s with
        table := (pruneSessions now s.table).set id
          (now + clientSessionTtlSeconds, tokenHash) }) := by
  have htable := (tableTokenHash_cases id now s).imp_left fun h =>
    (⟨_, .inr rfl, h⟩ : ∃ table, (table = s.table ∨ table = pruneSessions now s.table) ∧
      tableTokenHash id now s = (none, { s with table }))
  have hnothing : ∃ table, (table = s.table ∨ table = pruneSessions now s.table) ∧
      ((none, s) : Option String × Sessions) = (none, { s with table }) := ⟨_, .inl rfl, rfl⟩
  rw [clientSessionTokenHash]
  split
  · exact .inl hnothing
  · split
    · exact htable.imp_right .inr
    · cases hlive : live lasting now (s.redis id) with
      | none => exact .inl hnothing
      | some key =>
        simp only
        split
        · exact .inl hnothing
        · split
          · exact htable.imp_right .inr
          · exact .inr (.inl ⟨key, rfl, rfl⟩)

/-! ### The invariant -/

structure Kept (lasting : Bool) (w : World) : Prop where
  redis : ∀ id key, live lasting w.now (w.sessions.redis id) = some key →
    key.value ≠ "" ∧ ∃ used deadline, w.account id = some (key.value, used) ∧
      key.deadline = some deadline ∧ deadline ≤ used + clientSessionTtlSeconds
  table : ∀ id expiresAt tokenHash, w.sessions.table.get? id = some (expiresAt, tokenHash) →
    w.now < expiresAt → ∃ used, w.account id = some (tokenHash, used) ∧
      expiresAt ≤ used + clientSessionTtlSeconds
  past : ∀ id tokenHash used, w.account id = some (tokenHash, used) → used ≤ w.now
  issued : ∀ id, id ∉ w.issued → w.sessions.redis id = none ∧
    w.sessions.table.contains id = false

theorem kept_new (lasting : Bool) (now : Rat) : Kept lasting (.new now) where
  redis id key h := by simp [World.new] at h
  table id e t h := by simp [World.new] at h
  past id t u h := by simp [World.new] at h
  issued _ _ := ⟨rfl, rfl⟩

theorem Kept.honest (h : Kept lasting w) : Honest lasting w := by
  intro id reach tokenHash hanswer
  rw [World.answer] at hanswer
  rcases lookup_cases lasting id reach w.now w.sessions with ⟨_, -, heq⟩ | ⟨key, hlive, heq⟩ |
    ⟨expiresAt, found, hget, hlt, heq⟩
  · rw [heq] at hanswer
    cases hanswer
  · rw [heq] at hanswer
    obtain rfl := Option.some.inj hanswer
    obtain ⟨-, used, deadline, haccount, hdeadline, hle⟩ := h.redis id key hlive
    have hthere := (live_eq_some hlive).2
    rw [hdeadline] at hthere
    rw [World.expected, haccount]
    simp only
    rw [if_pos (there_mono hle hthere)]
  · rw [heq] at hanswer
    obtain rfl := Option.some.inj hanswer
    obtain ⟨used, haccount, hle⟩ := h.table id expiresAt found (get?_pruneSessions hget).1 hlt
    rw [World.expected, haccount]
    simp only
    rw [if_pos (there_of_lt (lt_of_lt_of_le hlt hle))]

/-- What is answered is used now. -/
theorem Kept.answered (h : Kept lasting w) {used : Rat} (haccount : w.account id =
    some (tokenHash, used)) {sessions : Sessions}
    (hredis : ∀ i key, live lasting w.now (sessions.redis i) = some key →
      (live lasting w.now (w.sessions.redis i) = some key) ∨ i = id ∧ key.value = tokenHash ∧
        tokenHash ≠ "" ∧ key.deadline = some (w.now + clientSessionTtlSeconds))
    (htable : ∀ i item, sessions.table.get? i = some item →
      w.sessions.table.get? i = some item ∨
        i = id ∧ item = (w.now + clientSessionTtlSeconds, tokenHash))
    (hissued : ∀ i, i ∉ w.issued → sessions.redis i = none ∧ sessions.table.contains i = false) :
    Kept lasting { w with
      sessions, account := Function.update w.account id (some (tokenHash, w.now)) } where
  redis i key hlive := by
    rcases hredis i key hlive with hold | ⟨rfl, rfl, hne, hdeadline⟩
    · obtain ⟨hne, used', deadline, haccount', hdeadline, hle⟩ := h.redis i key hold
      refine ⟨hne, ?_⟩
      by_cases hi : i = id
      · subst hi
        rw [haccount] at haccount'
        cases haccount'
        exact ⟨w.now, deadline, Function.update_self .., hdeadline,
          hle.trans (add_le_add_left (h.past i _ _ haccount) _)⟩
      · exact ⟨used', deadline, (Function.update_of_ne hi ..).trans haccount', hdeadline, hle⟩
    · exact ⟨hne, w.now, _, Function.update_self .., hdeadline, le_rfl⟩
  table i expiresAt found hget hlt := by
    rcases htable i _ hget with hold | ⟨rfl, heq⟩
    · obtain ⟨used', haccount', hle⟩ := h.table i expiresAt found hold hlt
      by_cases hi : i = id
      · subst hi
        rw [haccount] at haccount'
        cases haccount'
        exact ⟨w.now, Function.update_self .., hle.trans (add_le_add_left (h.past i _ _ haccount) _)⟩
      · exact ⟨used', (Function.update_of_ne hi ..).trans haccount', hle⟩
    · cases heq
      exact ⟨w.now, Function.update_self .., le_rfl⟩
  past i found used' haccount' := by
    by_cases hi : i = id
    · subst hi
      have heq := (Function.update_self i _ w.account).symm.trans haccount'
      cases heq
      exact le_rfl
    · exact h.past i found used' ((Function.update_of_ne hi ..).symm.trans haccount')
  issued := hissued

theorem Kept.withTable (h : Kept lasting w)
    (htable : ∀ i item, table.get? i = some item → w.sessions.table.get? i = some item) :
    Kept lasting { w with sessions := { w.sessions with table } } where
  redis := h.redis
  table i e t hget := h.table i e t (htable i _ hget)
  past := h.past
  issued i hi := by
    refine ⟨(h.issued i hi).1, ?_⟩
    have hnone := (h.issued i hi).2
    rw [Dict.contains, Option.isSome_eq_false_iff, Option.isNone_iff_eq_none] at hnone ⊢
    cases hget : table.get? i with
    | none => rfl
    | some item =>
      rw [htable i item hget] at hnone
      cases hnone

theorem Kept.lookup (h : Kept lasting w) (id : String) (reach : Reach) :
    Kept lasting (step lasting (.lookup id reach) w) := by
  simp only [step]
  rcases lookup_cases lasting id reach w.now w.sessions with ⟨table, htable, heq⟩ |
    ⟨key, hlive, heq⟩ | ⟨expiresAt, found, hget, hlt, heq⟩
  · rw [heq]
    rcases htable with rfl | rfl
    · exact h
    · exact h.withTable fun _ _ hget => (get?_pruneSessions hget).1
  · rw [heq]
    obtain ⟨hne, used, deadline, haccount, -, -⟩ := h.redis id key hlive
    have hstored := (live_eq_some hlive).1
    refine h.answered haccount (fun i key' hlive' => ?_) (fun _ _ hget => .inl hget)
      fun i hi => ⟨?_, (h.issued i hi).2⟩
    · simp only at hlive'
      by_cases hi : i = id
      · subst hi
        rw [Function.update_self] at hlive'
        obtain rfl := Option.some.inj (live_eq_some hlive').1
        exact .inr ⟨rfl, rfl, hne, rfl⟩
      · rw [Function.update_of_ne hi] at hlive'
        exact .inl hlive'
    · have hnone := (h.issued i hi).1
      have hid : i ≠ id := by
        rintro rfl
        rw [hstored] at hnone
        cases hnone
      exact (Function.update_of_ne hid ..).trans hnone
  · rw [heq]
    obtain ⟨used, haccount, -⟩ := h.table id expiresAt found (get?_pruneSessions hget).1 hlt
    refine h.answered haccount (fun _ _ hlive => .inl hlive) (fun i item hitem => ?_)
      fun i hi => ⟨(h.issued i hi).1, ?_⟩
    · rw [Dict.get?_set] at hitem
      split at hitem
      · rename_i heq
        exact .inr ⟨heq.symm, (Option.some.inj hitem).symm⟩
      · exact .inl (get?_pruneSessions hitem).1
    · have hid : id ≠ i := by
        rintro rfl
        have habsent : (pruneSessions w.now w.sessions.table).contains id = false :=
          contains_pruneSessions (h.issued id hi).2
        rw [Dict.contains, hget] at habsent
        cases habsent
      rw [Dict.contains_set, contains_pruneSessions (h.issued i hi).2]
      simpa using hid

theorem Kept.create (h : Kept lasting w) (id tokenHash : String) (reach : Reach) :
    Kept lasting (step lasting (.create id tokenHash reach) w) := by
  simp only [step]
  split
  · rename_i hnew
    obtain ⟨hid, -, hne⟩ := hnew
    obtain ⟨hredis, htable⟩ := h.issued id hid
    have haccount : ∀ i ≠ id, Function.update w.account id (some (tokenHash, w.now)) i =
        w.account i := fun i hi => Function.update_of_ne hi ..
    -- Nothing was kept under the identifier, so what is found under another one is old.
    have hold : ∀ sessions : Sessions,
        (∀ i ≠ id, sessions.redis i = w.sessions.redis i) →
        (∀ key, live lasting w.now (sessions.redis id) = some key →
          key = ⟨tokenHash, some (w.now + clientSessionTtlSeconds)⟩) →
        (∀ i ≠ id, ∀ item, sessions.table.get? i = some item →
          w.sessions.table.get? i = some item) →
        (∀ item, sessions.table.get? id = some item →
          item = (w.now + clientSessionTtlSeconds, tokenHash)) →
        Kept lasting { w with
          sessions
          issued := id :: w.issued
          account := Function.update w.account id (some (tokenHash, w.now)) } := by
      intro sessions hotherR hselfR hotherT hselfT
      refine ⟨fun i key hlive => ?_, fun i e t hget hlt => ?_, fun i t u hacc => ?_,
        fun i hi => ?_⟩
      · by_cases hi : i = id
        · subst hi
          rw [hselfR key hlive]
          exact ⟨hne, w.now, _, Function.update_self .., rfl, le_rfl⟩
        · simp only [hotherR i hi] at hlive
          have hkept := h.redis i key hlive
          rwa [← haccount i hi] at hkept
      · by_cases hi : i = id
        · subst hi
          cases hselfT _ hget
          exact ⟨w.now, Function.update_self .., le_rfl⟩
        · have hkept := h.table i e t (hotherT i hi _ hget) hlt
          rwa [← haccount i hi] at hkept
      · by_cases hi : i = id
        · subst hi
          have heq := (Function.update_self i _ w.account).symm.trans hacc
          cases heq
          exact le_rfl
        · exact h.past i t u ((haccount i hi).symm.trans hacc)
      · obtain ⟨hi, hout⟩ := not_or.mp (mt List.mem_cons.mpr hi)
        obtain ⟨hr, ht⟩ := h.issued i hout
        refine ⟨(hotherR i hi).trans hr, ?_⟩
        rw [Dict.contains, Option.isSome_eq_false_iff, Option.isNone_iff_eq_none] at ht ⊢
        cases hget : sessions.table.get? i with
        | none => rfl
        | some item =>
          rw [hotherT i hi item hget] at ht
          cases ht
    rw [createClientSession]
    split
    · refine hold _ (fun _ _ => rfl) (fun key hlive => ?_) (fun i hi item hget => ?_)
        fun item hget => ?_
      · simp [hredis] at hlive
      · rw [Dict.get?_set_of_ne _ _ (Ne.symm hi)] at hget
        exact (get?_pruneSessions hget).1
      · rw [Dict.get?_set_self] at hget
        exact (Option.some.inj hget).symm
    · refine hold _ (fun i hi => Function.update_of_ne hi ..) (fun key hlive => ?_)
        (fun _ _ _ hget => hget) fun item hget => ?_
      · simp only [Function.update_self] at hlive
        exact (Option.some.inj (live_eq_some hlive).1).symm
      · rw [Dict.contains, hget] at htable
        cases htable
  · exact h

theorem Kept.delete (h : Kept lasting w) (id : String) (reach : Reach)
    (hreach : Reaches lasting (.delete id reach) w) :
    Kept lasting (step lasting (.delete id reach) w) := by
  simp only [step]
  by_cases hempty : id = ""
  · rw [deleteClientSession, if_pos hempty, if_pos hempty]
    exact h
  · have hgone : ∀ i key, live lasting w.now ((deleteClientSession id reach w.sessions).redis i) =
        some key → i ≠ id ∧ live lasting w.now (w.sessions.redis i) = some key := by
      intro i key hlive
      rw [deleteClientSession, if_neg hempty] at hlive
      by_cases hdown : reach = .down
      · simp only [hdown, if_true] at hlive
        refine ⟨?_, hlive⟩
        rintro rfl
        rcases hreach with hup | hid | hnone
        · exact hup hdown
        · exact hempty hid
        · rw [hnone] at hlive
          cases hlive
      · simp only [if_neg hdown] at hlive
        by_cases hi : i = id
        · rw [hi, Function.update_self] at hlive
          cases hlive
        · rw [Function.update_of_ne hi] at hlive
          exact ⟨hi, hlive⟩
    have htable : (deleteClientSession id reach w.sessions).table = w.sessions.table.erase id := by
      rw [deleteClientSession, if_neg hempty]
      simp only
      split <;> rfl
    have hredis : ∀ i, w.sessions.redis i = none →
        (deleteClientSession id reach w.sessions).redis i = none := by
      intro i hnone
      rw [deleteClientSession, if_neg hempty]
      simp only
      split
      · exact hnone
      · by_cases hi : i = id
        · exact hi ▸ Function.update_self ..
        · exact (Function.update_of_ne hi ..).trans hnone
    rw [if_neg hempty]
    refine ⟨fun i key hlive => ?_, fun i e t hget hlt => ?_, fun i t u hacc => ?_, fun i hi => ?_⟩
    · obtain ⟨hi, hlive⟩ := hgone i key hlive
      have hkept := h.redis i key hlive
      rwa [← Function.update_of_ne hi none w.account] at hkept
    · simp only [htable, Dict.get?_erase] at hget
      split at hget
      · cases hget
      · rename_i hi
        have hkept := h.table i e t hget hlt
        rwa [← Function.update_of_ne hi none w.account] at hkept
    · by_cases hi : i = id
      · subst hi
        have heq := (Function.update_self i none w.account).symm.trans hacc
        cases heq
      · exact h.past i t u ((Function.update_of_ne hi ..).symm.trans hacc)
    · obtain ⟨hr, ht⟩ := h.issued i hi
      refine ⟨hredis i hr, ?_⟩
      simp only [htable, Dict.contains_erase, ht, Bool.and_false]

theorem Kept.pass (h : Kept lasting w) {time : Rat} (htime : w.now ≤ time) :
    Kept lasting { w with now := time } where
  redis id key hlive := h.redis id key (live_anti htime hlive)
  table id e t hget hlt := h.table id e t hget (lt_of_le_of_lt htime hlt)
  past id t u hacc := (h.past id t u hacc).trans htime
  issued := h.issued

theorem step_kept (event : Event) (w : World) (h : Kept lasting w)
    (hreach : Reaches lasting event w) : Kept lasting (step lasting event w) := by
  cases event with
  | pass time =>
    simp only [step]
    split
    · exact h.pass ‹_›
    · exact h
  | create id tokenHash reach => exact h.create id tokenHash reach
  | lookup id reach => exact h.lookup id reach
  | delete id reach => exact h.delete id reach hreach

/-- A deletion that leaves the session in Redis is not honest: the session answers on. -/
theorem reaches_of_honest (event : Event) (w : World) (h : Kept lasting w)
    (hhonest : Honest lasting (step lasting event w)) : Reaches lasting event w := by
  cases event with
  | delete id reach =>
    by_contra hnot
    obtain ⟨hdown, hempty, hlive⟩ : reach = .down ∧ id ≠ "" ∧
        live lasting w.now (w.sessions.redis id) ≠ none := by
      simpa [Reaches] using hnot
    obtain ⟨key, hkey⟩ := Option.ne_none_iff_exists'.mp hlive
    have hanswer : (step lasting (.delete id reach) w).answer lasting id .up = some key.value := by
      rw [World.answer, clientSessionTokenHash, if_neg hempty, if_neg (by decide)]
      simp only [step, deleteClientSession, if_neg hempty, hdown, if_true, hkey]
      rw [if_neg (h.redis id key hkey).1, if_neg (by decide)]
    have hexpected := hhonest id .up key.value hanswer
    simp [World.expected, step, if_neg hempty] at hexpected
  | pass time | create id tokenHash reach | lookup id reach => trivial

/-- In every run, whatever calls reach of Redis: at all times the only answers are those of a
session that was made for this hash, was not deleted since, and was made or answered within the
last twelve hours, if and only if every deletion reaches Redis or finds nothing there. -/
theorem sessions_honest_iff (lasting : Bool) (now : Rat) (events : List Event) :
    Throughout (step lasting) (Honest lasting) events (.new now) ↔
      AllSteps (step lasting) (Reaches lasting) events (.new now) :=
  throughout_iff_allSteps_of_kept (fun _ h => h.honest) step_kept reaches_of_honest
    (kept_new lasting now)

end FetchTask.ClientSessions
