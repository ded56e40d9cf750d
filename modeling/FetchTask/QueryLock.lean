import FetchTask.Lib.Dict
import FetchTask.Lib.Runs

/-!
The locks under which tasks are queried (`app/query.py`, `_query_lock`).

A query of a task enters with an `async with`. The lock of a task is in an entry
that the first query makes and the last one removes; in between the entry counts
its users. Entries are objects: one that has been removed and one made later for
the same task are different, and a query keeps the one it found when it entered.

All queries are on one event loop, and a query is alone between two awaits. It
waits for the lock, and is inside while the body runs; in both places it can be
cancelled. Which of those that wait gets a free lock is left open.
-/

namespace FetchTask.QueryLock

open Runs

inductive Phase
  | waiting
  | inside
  deriving DecidableEq

/-- A query that has entered and not left; the entry is the object it found. -/
structure Call where
  taskId : String
  entry : Nat
  phase : Phase
  deriving DecidableEq

/-- `_QueryLockEntry`, with the state of its lock. -/
structure Entry where
  users : Nat
  locked : Bool

structure State where
  /-- `_QUERY_LOCKS`. -/
  locks : Dict String Nat
  /-- The entry objects, and how many have been made. -/
  entry : Nat → Entry
  made : Nat
  calls : Dict Nat Call

def State.new : State where
  locks := .empty
  entry _ := ⟨0, false⟩
  made := 0
  calls := .empty

def State.setEntry (e : Nat) (v : Entry) (s : State) : State :=
  { s with entry := fun i => if i = e then v else s.entry i }

/-- The entry of the task is looked up, or made. -/
def State.entryOf (taskId : String) (s : State) : Nat × State :=
  match s.locks.get? taskId with
  | some e => (e, s)
  | none =>
    (s.made, { s with locks := s.locks.set taskId s.made, made := s.made + 1 }.setEntry s.made
      ⟨0, false⟩)

/-- A query comes to the lock. -/
def State.enter (call : Nat) (taskId : String) (s : State) : State :=
  let (e, s) := s.entryOf taskId
  { s with calls := s.calls.set call ⟨taskId, e, .waiting⟩ }.setEntry e
    { s.entry e with users := (s.entry e).users + 1 }

/-- The `finally`, of a query that has given back the lock or never had it. -/
def State.leave (call : Nat) (c : Call) (s : State) : State :=
  let users := (s.entry c.entry).users - 1
  let s := { s with calls := s.calls.erase call }.setEntry c.entry
    { s.entry c.entry with users := users }
  if users = 0 ∧ s.locks.get? c.taskId = some c.entry then
    { s with locks := s.locks.erase c.taskId }
  else s

inductive Event
  | enter (call : Nat) (taskId : String)
  /-- A query that waits gets the lock. -/
  | acquire (call : Nat)
  /-- The body is over, has raised or is cancelled. -/
  | exit (call : Nat)
  /-- A query is cancelled while it waits. -/
  | cancel (call : Nat)

def step : Event → State → State
  | .enter call taskId, s => if s.calls.contains call then s else s.enter call taskId
  | .acquire call, s =>
    match s.calls.get? call with
    | some c =>
      if c.phase = .waiting ∧ (s.entry c.entry).locked = false then
        { s with calls := s.calls.set call { c with phase := .inside } }.setEntry c.entry
          { s.entry c.entry with locked := true }
      else s
    | none => s
  | .exit call, s =>
    match s.calls.get? call with
    | some c =>
      if c.phase = .inside then
        (s.setEntry c.entry { s.entry c.entry with locked := false }).leave call c
      else s
    | none => s
  | .cancel call, s =>
    match s.calls.get? call with
    | some c => if c.phase = .waiting then s.leave call c else s
    | none => s

/-! ### The invariant -/

/-- The queries that use an entry. -/
def State.usersOf (e : Nat) (s : State) : Finset Nat :=
  s.calls.keysWhere fun _ c => decide (c.entry = e)

/-- The queries that are inside under an entry. -/
def State.insideOf (e : Nat) (s : State) : Finset Nat :=
  s.calls.keysWhere fun _ c => decide (c.entry = e ∧ c.phase = .inside)

variable {s : State} {call e : Nat} {c : Call} {taskId : String}

theorem State.mem_usersOf : call ∈ s.usersOf e ↔ ∃ c, s.calls.get? call = some c ∧ c.entry = e := by
  simp [usersOf, Dict.mem_keysWhere]

theorem State.mem_insideOf :
    call ∈ s.insideOf e ↔ ∃ c, s.calls.get? call = some c ∧ c.entry = e ∧ c.phase = .inside := by
  simp [insideOf, Dict.mem_keysWhere]

/-- Every query finds the entry of its task in the table; the entries of the table count their
users and are locked when somebody is inside. -/
structure State.Counted (s : State) : Prop where
  registered : ∀ call c, s.calls.get? call = some c → s.locks.get? c.taskId = some c.entry
  made : ∀ t e, s.locks.get? t = some e → e < s.made
  injective : ∀ t t' e, s.locks.get? t = some e → s.locks.get? t' = some e → t = t'
  users : ∀ t e, s.locks.get? t = some e → (s.entry e).users = (s.usersOf e).card
  locked : ∀ t e, s.locks.get? t = some e →
    (s.insideOf e).card = if (s.entry e).locked then 1 else 0

/-- Besides, nothing is kept that nobody uses. -/
structure State.Kept (s : State) : Prop extends s.Counted where
  used : ∀ t e, s.locks.get? t = some e → (s.usersOf e).Nonempty

namespace State

theorem kept_new : new.Kept where
  registered call c h := by simp [new] at h
  made t e h := by simp [new] at h
  injective t t' e h := by simp [new] at h
  users t e h := by simp [new] at h
  locked t e h := by simp [new] at h
  used t e h := by simp [new] at h

theorem setEntry_entry (i : Nat) (v : Entry) :
    (s.setEntry e v).entry i = if i = e then v else s.entry i := rfl

theorem setEntry_self : s.setEntry e (s.entry e) = s := by
  rw [setEntry]
  congr 1
  ext i : 1
  split
  · rename_i heq
    rw [heq]
  · rfl

/-- An entry that has not been made has no users. -/
theorem Counted.usersOf_made (h : s.Counted) : s.usersOf s.made = ∅ := by
  refine Finset.eq_empty_of_forall_notMem fun call hmem => ?_
  obtain ⟨c, hc, hentry⟩ := mem_usersOf.mp hmem
  exact absurd (h.made _ _ (h.registered call c hc)) (by omega)

theorem insideOf_subset : s.insideOf e ⊆ s.usersOf e := by
  intro call hmem
  obtain ⟨c, hc, hentry, -⟩ := mem_insideOf.mp hmem
  exact mem_usersOf.mpr ⟨c, hc, hentry⟩

/-! ### Entering -/

theorem Counted.entryOf (h : s.Counted) (taskId : String) :
    (s.entryOf taskId).2.Counted ∧
      (s.entryOf taskId).2.locks.get? taskId = some (s.entryOf taskId).1 ∧
      (s.entryOf taskId).2.calls = s.calls ∧
      ∀ t ≠ taskId, (s.entryOf taskId).2.locks.get? t = s.locks.get? t := by
  cases hfound : s.locks.get? taskId with
  | some e =>
    simp only [State.entryOf, hfound]
    exact ⟨h, trivial, trivial, fun _ _ => trivial⟩
  | none =>
    simp only [State.entryOf, hfound]
    have hlocks : ∀ t e, (s.locks.set taskId s.made).get? t = some e →
        t = taskId ∧ e = s.made ∨ t ≠ taskId ∧ s.locks.get? t = some e ∧ e ≠ s.made := by
      intro t e hget
      by_cases heq : taskId = t
      · subst heq
        rw [Dict.get?_set_self] at hget
        exact .inl ⟨rfl, (Option.some.inj hget).symm⟩
      · rw [Dict.get?_set_of_ne _ _ heq] at hget
        exact .inr ⟨Ne.symm heq, hget, Nat.ne_of_lt (h.made t e hget)⟩
    refine ⟨⟨fun call c hc => ?_, fun t e hget => ?_, fun t t' e hget hget' => ?_,
      fun t e hget => ?_, fun t e hget => ?_⟩, by simp [setEntry], rfl,
      fun t hne => Dict.get?_set_of_ne _ _ (Ne.symm hne)⟩
    · have hreg := h.registered call c hc
      have hne : taskId ≠ c.taskId := fun heq => by simp [heq, hreg] at hfound
      exact (Dict.get?_set_of_ne _ _ hne).trans hreg
    · have hlt : s.made < s.made + 1 := Nat.lt_succ_self _
      rcases hlocks t e hget with ⟨-, rfl⟩ | ⟨-, hold, -⟩
      · exact hlt
      · exact (h.made t e hold).trans hlt
    · rcases hlocks t e hget with ⟨rfl, rfl⟩ | ⟨-, hold, hne⟩
      · rcases hlocks t' _ hget' with ⟨rfl, -⟩ | ⟨-, -, hne'⟩
        · rfl
        · exact absurd rfl hne'
      · rcases hlocks t' e hget' with ⟨-, rfl⟩ | ⟨-, hold', -⟩
        · exact absurd rfl hne
        · exact h.injective t t' e hold hold'
    · rcases hlocks t e hget with ⟨-, rfl⟩ | ⟨-, hold, hne⟩
      · have husers : (s.usersOf s.made).card = 0 := by rw [h.usersOf_made, Finset.card_empty]
        rw [setEntry_entry, if_pos rfl]
        exact husers.symm
      · rw [setEntry_entry, if_neg hne]
        exact h.users t e hold
    · rcases hlocks t e hget with ⟨-, rfl⟩ | ⟨-, hold, hne⟩
      · have hinside : (s.insideOf s.made).card = 0 := by
          rw [Finset.card_eq_zero, ← Finset.subset_empty, ← h.usersOf_made]
          exact insideOf_subset
        rw [setEntry_entry, if_pos rfl]
        exact hinside
      · rw [setEntry_entry, if_neg hne]
        exact h.locked t e hold

/-- The users after a query has come to the entry. -/
theorem usersOf_insert (hnew : s.calls.get? call = none) (taskId : String) (e i : Nat) :
    (s.calls.set call ⟨taskId, e, .waiting⟩).keysWhere (fun _ c => decide (c.entry = i)) =
      if e = i then insert call (s.usersOf i) else s.usersOf i := by
  have hout : call ∉ s.usersOf i := fun hmem => by
    obtain ⟨c, hc, -⟩ := mem_usersOf.mp hmem
    rw [hnew] at hc
    cases hc
  rw [Dict.keysWhere_set]
  by_cases hi : e = i
  · simp [hi, usersOf]
  · rw [if_neg (by simpa using hi), if_neg hi]
    exact Finset.erase_eq_of_notMem hout

theorem insideOf_insert (hnew : s.calls.get? call = none) (taskId : String) (e i : Nat) :
    (s.calls.set call ⟨taskId, e, .waiting⟩).keysWhere
      (fun _ c => decide (c.entry = i ∧ c.phase = .inside)) = s.insideOf i := by
  have hout : call ∉ s.insideOf i := fun hmem => by
    obtain ⟨c, hc, -⟩ := mem_insideOf.mp hmem
    rw [hnew] at hc
    cases hc
  rw [Dict.keysWhere_set, if_neg (by simp)]
  exact Finset.erase_eq_of_notMem hout

theorem Kept.enter (h : s.Kept) (hnew : s.calls.get? call = none) (taskId : String) :
    (s.enter call taskId).Kept := by
  obtain ⟨hcounted, hlock, hcalls, hlocks⟩ := h.toCounted.entryOf taskId
  rw [State.enter]
  generalize s.entryOf taskId = pair at *
  obtain ⟨e, s'⟩ := pair
  simp only at hcounted hlock hcalls hlocks ⊢
  rw [← hcalls] at hnew
  have hout : call ∉ s'.usersOf e := fun hmem => by
    obtain ⟨c, hc, -⟩ := mem_usersOf.mp hmem
    rw [hnew] at hc
    cases hc
  refine ⟨⟨fun k c hc => ?_, hcounted.made, hcounted.injective, fun t i hget => ?_,
    fun t i hget => ?_⟩, fun t i hget => ?_⟩
  · rcases eq_or_ne call k with rfl | hne
    · obtain rfl := Option.some.inj ((Dict.get?_set_self _ _ _).symm.trans hc)
      exact hlock
    · exact hcounted.registered k c ((Dict.get?_set_of_ne _ _ hne).symm.trans hc)
  · rw [setEntry_entry]
    refine Eq.trans ?_ (congrArg Finset.card (usersOf_insert hnew taskId e i)).symm
    have husers := hcounted.users t i hget
    split
    · rename_i heq
      subst heq
      rw [if_pos rfl, Finset.card_insert_of_notMem hout, ← husers]
    · rename_i hne
      rw [if_neg (Ne.symm hne), ← husers]
  · rw [setEntry_entry]
    refine (congrArg Finset.card (insideOf_insert hnew taskId e i)).trans ?_
    have hlocked := hcounted.locked t i hget
    split
    · rename_i heq
      rw [← heq, hlocked]
    · exact hlocked
  · have hset := usersOf_insert hnew taskId e i
    rcases eq_or_ne t taskId with rfl | hne
    · obtain rfl := Option.some.inj (hlock.symm.trans hget)
      rw [if_pos rfl] at hset
      exact ⟨call, hset.ge (Finset.mem_insert_self ..)⟩
    · obtain ⟨k, hk⟩ := h.used t i ((hlocks t hne).symm.trans hget)
      have hk' : k ∈ s'.usersOf i := by
        rw [usersOf, hcalls]
        exact hk
      refine ⟨k, hset.ge ?_⟩
      split
      · exact Finset.mem_insert_of_mem hk'
      · exact hk'

/-! ### Getting the lock -/

theorem Kept.acquire (h : s.Kept) (hc : s.calls.get? call = some c)
    (hfree : (s.entry c.entry).locked = false) :
    { s with calls := s.calls.set call { c with phase := .inside } }.setEntry c.entry
      { s.entry c.entry with locked := true } |>.Kept := by
  have hlock := h.registered call c hc
  have hmem : call ∈ s.usersOf c.entry := mem_usersOf.mpr ⟨c, hc, rfl⟩
  have husers : ∀ i, (s.calls.set call { c with phase := .inside }).keysWhere
      (fun _ c => decide (c.entry = i)) = s.usersOf i := by
    intro i
    rw [Dict.keysWhere_set]
    by_cases hi : c.entry = i
    · rw [if_pos (by simpa using hi)]
      exact Finset.insert_eq_of_mem (hi ▸ hmem)
    · rw [if_neg (by simpa using hi)]
      refine Finset.erase_eq_of_notMem fun hin => ?_
      obtain ⟨c', hc', hentry⟩ := mem_usersOf.mp hin
      rw [hc] at hc'
      exact hi (Option.some.inj hc' ▸ hentry)
  have hinside : ∀ i, (s.calls.set call { c with phase := .inside }).keysWhere
      (fun _ c => decide (c.entry = i ∧ c.phase = .inside)) =
        if c.entry = i then insert call (s.insideOf i) else s.insideOf i := by
    intro i
    rw [Dict.keysWhere_set]
    by_cases hi : c.entry = i
    · simp [hi, insideOf]
    · rw [if_neg (by simpa using hi), if_neg hi]
      refine Finset.erase_eq_of_notMem fun hin => ?_
      obtain ⟨c', hc', hentry, -⟩ := mem_insideOf.mp hin
      rw [hc] at hc'
      exact hi (Option.some.inj hc' ▸ hentry)
  refine ⟨⟨fun k c' hc' => ?_, h.made, h.injective, fun t i hget => ?_, fun t i hget => ?_⟩,
    fun t i hget => ?_⟩
  · rcases eq_or_ne call k with rfl | hne
    · obtain rfl := Option.some.inj ((Dict.get?_set_self _ _ _).symm.trans hc')
      exact hlock
    · exact h.registered k c' ((Dict.get?_set_of_ne _ _ hne).symm.trans hc')
  · rw [setEntry_entry]
    refine Eq.trans ?_ (congrArg Finset.card (husers i)).symm
    have hcount := h.users t i hget
    split
    · rename_i heq
      rw [← heq, hcount]
    · exact hcount
  · rw [setEntry_entry]
    refine (congrArg Finset.card (hinside i)).trans ?_
    have hlocked := h.locked t i hget
    split
    · rename_i heq
      subst heq
      have hnone : s.insideOf c.entry = ∅ := by
        rw [hfree] at hlocked
        simpa using hlocked
      rw [hnone]
      simp
    · rename_i hne
      rw [if_neg (Ne.symm hne)]
      exact hlocked
  · obtain ⟨k, hk⟩ := h.used t i hget
    exact ⟨k, (husers i).ge hk⟩

/-! ### Leaving -/

theorem keysWhere_erase_of_ne {p : Nat → Call → Bool} (hc : s.calls.get? call = some c)
    (hp : p call c = false) : (s.calls.erase call).keysWhere p = s.calls.keysWhere p := by
  rw [Dict.keysWhere_erase]
  refine Finset.erase_eq_of_notMem fun hmem => ?_
  obtain ⟨c', hc', hp'⟩ := (Dict.mem_keysWhere _).mp hmem
  rw [hc] at hc'
  rw [← Option.some.inj hc', hp] at hp'
  cases hp'

theorem leave_eq (hlock : s.locks.get? c.taskId = some c.entry) (locked : Bool) :
    (s.setEntry c.entry { s.entry c.entry with locked }).leave call c =
      { locks := if (s.entry c.entry).users - 1 = 0 then s.locks.erase c.taskId else s.locks
        entry := fun i => if i = c.entry then ⟨(s.entry c.entry).users - 1, locked⟩ else s.entry i
        made := s.made
        calls := s.calls.erase call } := by
  have hentry : ∀ v v' : Entry, ((s.setEntry c.entry v).setEntry c.entry v').entry =
      fun i => if i = c.entry then v' else s.entry i := by
    intro v v'
    ext i : 1
    rw [setEntry_entry, setEntry_entry]
    split <;> rfl
  rw [State.leave]
  simp only [setEntry_entry, if_true]
  by_cases hlast : (s.entry c.entry).users - 1 = 0
  · rw [if_pos ⟨hlast, hlock⟩, if_pos hlast]
    exact congrArg (State.mk _ · _ _) (hentry _ _)
  · rw [if_neg (fun h => hlast h.1), if_neg hlast]
    exact congrArg (State.mk _ · _ _) (hentry _ _)

/-- A query leaves; `locked` is what it makes of the lock. -/
theorem Kept.leave (h : s.Kept) (hc : s.calls.get? call = some c) {locked : Bool}
    (hlocked : ((s.insideOf c.entry).erase call).card = if locked then 1 else 0) :
    ((s.setEntry c.entry { s.entry c.entry with locked }).leave call c).Kept := by
  have hlock := h.registered call c hc
  have hmem : call ∈ s.usersOf c.entry := mem_usersOf.mpr ⟨c, hc, rfl⟩
  have husers := h.users _ _ hlock
  have hcard := Finset.card_erase_of_mem hmem
  have hother : ∀ i ≠ c.entry,
      (s.calls.erase call).keysWhere (fun _ c => decide (c.entry = i)) = s.usersOf i :=
    fun i hne => keysWhere_erase_of_ne hc (by simpa using Ne.symm hne)
  have hself : (s.calls.erase call).keysWhere (fun _ c' => decide (c'.entry = c.entry)) =
      (s.usersOf c.entry).erase call := Dict.keysWhere_erase _ _
  have hinside : ∀ i ≠ c.entry, (s.calls.erase call).keysWhere
      (fun _ c => decide (c.entry = i ∧ c.phase = .inside)) = s.insideOf i :=
    fun i hne => keysWhere_erase_of_ne hc (by simp [Ne.symm hne])
  have hinsideSelf : (s.calls.erase call).keysWhere
      (fun _ c' => decide (c'.entry = c.entry ∧ c'.phase = .inside)) =
        (s.insideOf c.entry).erase call := Dict.keysWhere_erase _ _
  -- What both ends of the `finally` have in common: the table loses at most the entry left.
  have hrest : ∀ locks : Dict String Nat,
      (∀ t e, locks.get? t = some e → s.locks.get? t = some e) →
      (∀ t e, locks.get? t = some e → e ≠ c.entry ∨ ((s.usersOf c.entry).erase call).Nonempty) →
      (∀ k c', (s.calls.erase call).get? k = some c' → locks.get? c'.taskId = some c'.entry) →
      State.Kept { locks, made := s.made, calls := s.calls.erase call, entry := fun i =>
        if i = c.entry then ⟨(s.usersOf c.entry).card - 1, locked⟩ else s.entry i } := by
    intro locks hsub hused hreg
    refine ⟨⟨hreg, fun t e hget => h.made t e (hsub t e hget),
      fun t t' e hget hget' => h.injective t t' e (hsub t e hget) (hsub t' e hget'),
      fun t e hget => ?_, fun t e hget => ?_⟩, fun t e hget => ?_⟩
    · by_cases he : e = c.entry
      · subst he
        simp only [if_pos]
        exact (hcard.symm.trans (congrArg Finset.card hself).symm)
      · simp only [if_neg he]
        exact (h.users t e (hsub t e hget)).trans (congrArg Finset.card (hother e he)).symm
    · by_cases he : e = c.entry
      · subst he
        simp only [if_pos]
        exact (congrArg Finset.card hinsideSelf).trans hlocked
      · simp only [if_neg he]
        exact (congrArg Finset.card (hinside e he)).trans (h.locked t e (hsub t e hget))
    · by_cases he : e = c.entry
      · subst he
        obtain ⟨k, hk⟩ := (hused t _ hget).resolve_left fun hne => hne rfl
        exact ⟨k, hself.ge hk⟩
      · obtain ⟨k, hk⟩ := h.used t e (hsub t e hget)
        exact ⟨k, (hother e he).ge hk⟩
  rw [leave_eq hlock, husers]
  split
  · rename_i hlast
    -- Nobody else uses the entry, so no other query is of the task.
    have halone : ∀ k c', (s.calls.erase call).get? k = some c' → c'.taskId ≠ c.taskId := by
      intro k c' hk heq
      rw [Dict.get?_erase] at hk
      split at hk
      · cases hk
      · rename_i hne
        have hentry : c'.entry = c.entry :=
          Option.some.inj ((h.registered k c' hk).symm.trans (heq ▸ hlock))
        have htwo : 1 < (s.usersOf c.entry).card := Finset.one_lt_card.mpr
          ⟨call, hmem, k, mem_usersOf.mpr ⟨c', hk, hentry⟩, Ne.symm hne⟩
        omega
    have hkeep : ∀ t e, (s.locks.erase c.taskId).get? t = some e →
        t ≠ c.taskId ∧ s.locks.get? t = some e := by
      intro t e hget
      rw [Dict.get?_erase] at hget
      split at hget
      · cases hget
      · exact ⟨‹_›, hget⟩
    refine hrest _ (fun t e hget => (hkeep t e hget).2)
      (fun t e hget => .inl fun he => (hkeep t e hget).1 (h.injective _ _ _ (hkeep t e hget).2
        (he ▸ hlock))) fun k c' hk => ?_
    have hold : s.calls.get? k = some c' := by
      rw [Dict.get?_erase] at hk
      split at hk
      · cases hk
      · exact hk
    rw [Dict.get?_erase, if_neg (halone k c' hk)]
    exact h.registered k c' hold
  · rename_i hlast
    refine hrest _ (fun _ _ hget => hget) (fun t e _ => .inr ?_) fun k c' hk => ?_
    · rw [← Finset.card_pos, hcard]
      omega
    · rw [Dict.get?_erase] at hk
      split at hk
      · cases hk
      · exact h.registered k c' hk

end State

theorem step_kept (event : Event) (s : State) (h : s.Kept) : (step event s).Kept := by
  cases event with
  | enter call taskId =>
    simp only [step]
    split
    · exact h
    · rename_i habsent
      have hnew : s.calls.get? call = none := by
        simpa [Dict.contains] using habsent
      exact h.enter hnew taskId
  | acquire call =>
    simp only [step]
    split
    · rename_i c hc
      split
      · rename_i hready
        exact h.acquire hc hready.2
      · exact h
    · exact h
  | exit call =>
    simp only [step]
    split
    · rename_i c hc
      split
      · rename_i hinside
        have hmem : call ∈ s.insideOf c.entry := State.mem_insideOf.mpr ⟨c, hc, rfl, hinside⟩
        have hone := h.locked _ _ (h.registered call c hc)
        have hle : (s.insideOf c.entry).card ≤ 1 := by
          rw [hone]
          split <;> omega
        have hcard := Finset.card_erase_of_mem hmem
        refine h.leave hc ?_
        simp only [Bool.false_eq_true, if_false]
        omega
      · exact h
    · exact h
  | cancel call =>
    simp only [step]
    split
    · rename_i c hc
      split
      · rename_i hwaiting
        have hout : call ∉ s.insideOf c.entry := by
          intro hmem
          obtain ⟨c', hc', -, hinside⟩ := State.mem_insideOf.mp hmem
          rw [hc] at hc'
          rw [← Option.some.inj hc', hwaiting] at hinside
          cases hinside
        have hlocked : ((s.insideOf c.entry).erase call).card =
            if (s.entry c.entry).locked then 1 else 0 := by
          rw [Finset.erase_eq_of_notMem hout]
          exact h.locked _ _ (h.registered call c hc)
        have hkept := h.leave hc hlocked
        rwa [State.setEntry_self] at hkept
      · exact h
    · exact h

/-! ### Over runs -/

/-- Nobody is inside for the same task as another query. -/
def Exclusive (s : State) : Prop :=
  ∀ call call' c c', s.calls.get? call = some c → s.calls.get? call' = some c' →
    c.phase = .inside → c'.phase = .inside → c.taskId = c'.taskId → call = call'

/-- The entry that is looked up for the task of a query is the one that the query uses, and the
table has an entry for no other task. -/
def Exact (s : State) : Prop :=
  (∀ call c, s.calls.get? call = some c → s.locks.get? c.taskId = some c.entry) ∧
    ∀ taskId, s.locks.contains taskId = true ↔
      ∃ call c, s.calls.get? call = some c ∧ c.taskId = taskId

/-- A query that waits gets in at once when nobody is inside for its task. -/
def Enterable (s : State) : Prop :=
  ∀ call c, s.calls.get? call = some c → c.phase = .waiting →
    (∀ call' c', s.calls.get? call' = some c' → c'.taskId = c.taskId → c'.phase = .waiting) →
      ∃ c', (step (.acquire call) s).calls.get? call = some c' ∧ c'.phase = .inside

theorem State.Kept.exclusive (h : s.Kept) : Exclusive s := by
  intro call call' c c' hc hc' hin hin' htask
  have hreg := h.registered call c hc
  have hreg' := h.registered call' c' hc'
  have hentry : c'.entry = c.entry := by
    rw [← htask, hreg] at hreg'
    exact (Option.some.inj hreg').symm
  have hle : (s.insideOf c.entry).card ≤ 1 := by
    rw [h.locked _ _ hreg]
    split <;> omega
  exact Finset.card_le_one.mp hle _ (State.mem_insideOf.mpr ⟨c, hc, rfl, hin⟩) _
    (State.mem_insideOf.mpr ⟨c', hc', hentry, hin'⟩)

theorem State.Kept.exact (h : s.Kept) : Exact s := by
  refine ⟨h.registered, fun taskId => ?_⟩
  constructor
  · intro hcontains
    obtain ⟨e, he⟩ := Option.isSome_iff_exists.mp hcontains
    obtain ⟨call, hmem⟩ := h.used taskId e he
    obtain ⟨c, hc, rfl⟩ := State.mem_usersOf.mp hmem
    exact ⟨call, c, hc, h.injective _ _ _ (h.registered call c hc) he⟩
  · rintro ⟨call, c, hc, rfl⟩
    exact Option.isSome_iff_exists.mpr ⟨_, h.registered call c hc⟩

theorem State.Kept.enterable (h : s.Kept) : Enterable s := by
  intro call c hc hphase hnobody
  have hempty : s.insideOf c.entry = ∅ := by
    refine Finset.eq_empty_of_forall_notMem fun call' hmem => ?_
    obtain ⟨c', hc', hentry, hin⟩ := State.mem_insideOf.mp hmem
    have htask : c'.taskId = c.taskId :=
      h.injective _ _ _ (h.registered call' c' hc') (hentry ▸ h.registered call c hc)
    rw [hnobody call' c' hc' htask] at hin
    cases hin
  have hfree : (s.entry c.entry).locked = false := by
    have hcount := h.locked _ _ (h.registered call c hc)
    rw [hempty, Finset.card_empty] at hcount
    by_contra hlocked
    rw [if_pos (by simpa using hlocked)] at hcount
    cases hcount
  refine ⟨{ c with phase := .inside }, ?_, rfl⟩
  simp only [step, hc, hphase, hfree, and_self, if_true]
  exact Dict.get?_set_self _ _ _

/-- Whatever queries come, are let in, finish and are cancelled: at most one is inside for a task,
a task nobody is inside for can be entered, and the table has exactly the tasks that are queried. -/
theorem queries_exclusive (events : List Event) :
    Throughout step (fun s => Exclusive s ∧ Enterable s ∧ Exact s) events .new :=
  (throughout_of_step step_kept State.kept_new).mono fun _ h => ⟨h.exclusive, h.enterable, h.exact⟩

-- The entry that a cancelled query shares stays; the last one to leave removes it.
example : (run step [.enter 1 "t", .acquire 1, .enter 2 "t", .cancel 2, .enter 3 "t", .exit 1,
    .acquire 3] .new).locks.items = [("t", 0)] := by decide

end FetchTask.QueryLock
