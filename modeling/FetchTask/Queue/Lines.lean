import FetchTask.Queue.NoTaskLost
import Mathlib.Data.String.Basic

/-!
The line of a kind of task: its ready list and its delayed set.

First-time tasks and retries wait in lines of their own. An operation that puts no
task of a kind into the queue is a promotion of that kind, takes the last task of its
ready list, or at most removes tasks from the line (`handle_line`).
-/

namespace FetchTask.Queue

/-! ### The order of a sorted set -/

instance : Std.Total ZBefore where
  total p q := by
    rcases lt_trichotomy p.2 q.2 with h | h | h
    · exact .inl (.inl h)
    · rcases le_total p.1 q.1 with hid | hid
      · exact .inl (.inr ⟨h, hid⟩)
      · exact .inr (.inr ⟨h.symm, hid⟩)
    · exact .inr (.inl h)

instance : IsTrans (TaskId × Int) ZBefore where
  trans p q s hpq hqs := by
    rcases hpq with hpq | ⟨hpq, hid⟩ <;> rcases hqs with hqs | ⟨hqs, hid'⟩
    · exact .inl (hpq.trans hqs)
    · exact .inl (hqs ▸ hpq)
    · exact .inl (hpq ▸ hqs)
    · exact .inr ⟨hpq.trans hqs, hid.trans hid'⟩

section Zrangebyscore

variable {z : ZSet} {max : Int} {count : Nat} {t : TaskId}

/-- The members that are due, in order. -/
def dueItems (z : ZSet) (max : Int) : List (TaskId × Int) :=
  (z.items.filter fun p => decide (p.2 ≤ max)).insertionSort ZBefore

theorem zrangebyscore_eq : zrangebyscore z max count = ((dueItems z max).take count).map Prod.fst :=
  rfl

theorem length_dueItems_le : (dueItems z max).length ≤ z.items.length := by
  rw [dueItems, List.length_insertionSort]
  exact List.length_filter_le _ _

theorem mem_dueItems {p : TaskId × Int} : p ∈ dueItems z max ↔ p ∈ z.items ∧ p.2 ≤ max := by
  simp [dueItems]

theorem pairwise_dueItems (z : ZSet) (max : Int) : (dueItems z max).Pairwise ZBefore :=
  List.pairwise_insertionSort _ _

/-- What is read comes before what is not. -/
theorem zrangebyscore_before {p q : TaskId × Int} (hp : p ∈ (dueItems z max).take count)
    (hq : q ∈ z.items) (hnot : q.1 ∉ zrangebyscore z max count) : ZBefore p q := by
  by_cases hdue : q.2 ≤ max
  · have hmem : q ∈ (dueItems z max).take count ++ (dueItems z max).drop count := by
      rw [List.take_append_drop]
      exact mem_dueItems.mpr ⟨hq, hdue⟩
    have hdrop : q ∈ (dueItems z max).drop count := by
      rcases List.mem_append.mp hmem with h | h
      · exact absurd (List.mem_map_of_mem h) hnot
      · exact h
    have hsorted := pairwise_dueItems z max
    rw [← List.take_append_drop count (dueItems z max)] at hsorted
    exact (List.pairwise_append.mp hsorted).2.2 p hp q hdrop
  · have hle := (mem_dueItems.mp (List.mem_of_mem_take hp)).2
    exact .inl (by omega)

/-- A due task that is not read leaves room for no other. -/
theorem length_zrangebyscore {s : Int} (ht : (t, s) ∈ z.items) (hs : s ≤ max)
    (hnot : t ∉ zrangebyscore z max count) : (zrangebyscore z max count).length = count := by
  rw [zrangebyscore_eq, List.length_map, List.length_take, min_eq_left]
  by_contra hlt
  refine hnot ?_
  rw [zrangebyscore_eq, List.take_of_length_le (le_of_not_ge hlt)]
  exact List.mem_map_of_mem (mem_dueItems.mpr ⟨ht, hs⟩)

/-- Tasks that are all due and not too many are all read. -/
theorem mem_zrangebyscore_of_few {s : Int} (ht : (t, s) ∈ z.items) (hs : s ≤ max)
    (hfew : z.items.length ≤ count) : t ∈ zrangebyscore z max count := by
  rw [zrangebyscore_eq, List.take_of_length_le (length_dueItems_le.trans hfew)]
  exact List.mem_map_of_mem (mem_dueItems.mpr ⟨ht, hs⟩)

end Zrangebyscore

/-! ### Lines -/

namespace Redis

variable (r : Redis)

/-- The ready list of a kind. -/
def readyOf (retrying : Bool) : List TaskId := if retrying then r.retryReady else r.ready

/-- The delayed set of a kind. -/
def delayedOf (retrying : Bool) : ZSet := if retrying then r.retryDelayed else r.delayed

/-- The tasks that a promotion at `now` moves. -/
def promoted (retrying : Bool) (now : Int) : List TaskId :=
  zrangebyscore (r.delayedOf retrying) now 100

@[simp] theorem readyOf_promoteScript (retrying : Bool) (now : Int) :
    (r.promoteScript retrying now).readyOf retrying =
      r.readyOf retrying ++ (r.promoted retrying now).reverse := by
  cases retrying <;> rfl

@[simp] theorem delayedOf_promoteScript (retrying : Bool) (now : Int) :
    (r.promoteScript retrying now).delayedOf retrying =
      (r.delayedOf retrying).filter fun p => p.1 ∉ r.promoted retrying now := by
  cases retrying <;> rfl

theorem readyOf_promoteScript_of_ne {retrying b : Bool} (h : b ≠ retrying) (now : Int) :
    (r.promoteScript retrying now).readyOf b = r.readyOf b := by
  cases retrying <;> cases b <;> first | rfl | exact absurd rfl h

theorem delayedOf_promoteScript_of_ne {retrying b : Bool} (h : b ≠ retrying) (now : Int) :
    (r.promoteScript retrying now).delayedOf b = r.delayedOf b := by
  cases retrying <;> cases b <;> first | rfl | exact absurd rfl h

/-- Both promotions of a claim. -/
theorem readyOf_promoted (now : Int) :
    ((r.promoteScript false now).promoteScript true now).readyOf false =
      r.readyOf false ++ (r.promoted false now).reverse := by
  rw [readyOf_promoteScript_of_ne _ Bool.false_ne_true, readyOf_promoteScript]

theorem lmove_fst (retrying : Bool) : (r.lmove retrying).1 = (r.readyOf retrying).getLast? := by
  cases hlast : (r.readyOf retrying).getLast? <;> cases retrying <;> simp_all [lmove, readyOf]

/-- An `LMOVE` finds the list empty, or moves its last task. -/
theorem lmove_cases (retrying : Bool) :
    (r.readyOf retrying = [] ∧ r.lmove retrying = (none, r)) ∨
      ∃ t, (r.readyOf retrying).getLast? = some t ∧ (r.lmove retrying).1 = some t ∧
        (r.lmove retrying).2.readyOf retrying = (r.readyOf retrying).dropLast ∧
        (r.lmove retrying).2.readyOf (!retrying) = r.readyOf (!retrying) ∧
        ∀ b, (r.lmove retrying).2.delayedOf b = r.delayedOf b := by
  cases hlast : (r.readyOf retrying).getLast? with
  | none =>
    refine .inl ⟨List.getLast?_eq_none_iff.mp hlast, ?_⟩
    cases retrying <;> simp_all [lmove, readyOf]
  | some t =>
    refine .inr ⟨t, rfl, ?_⟩
    cases retrying <;> simp_all [lmove, readyOf, delayedOf]

end Redis

/-! ### What an operation does to a line -/

/-- The operation puts a task of the kind into its line, other than by a promotion. -/
def Op.Enqueues (retrying : Bool) : Op → Prop
  | .enqueueScript b .. | .requeueScript b .. | .delayClaimedPipeline b .. | .delayOwnedScript b ..
  | .lpushReady b _ => b = retrying
  | _ => False

theorem Redis.insert_of_ne {retrying b : Bool} (h : b ≠ retrying) (r : Redis) (t : TaskId)
    (score now : Int) :
    (r.insert b t score now).readyOf retrying = r.readyOf retrying ∧
      (r.insert b t score now).delayedOf retrying = r.delayedOf retrying := by
  by_cases hdelay : now < score <;> cases retrying <;> cases b <;>
    first
      | exact absurd rfl h
      | simp [insert, zaddDelayed, lpushReady, readyOf, delayedOf, hdelay]

/-- Nothing has come into the line. -/
structure Redis.Shrinks (retrying : Bool) (r r' : Redis) : Prop where
  ready : (r'.readyOf retrying).Sublist (r.readyOf retrying)
  delayed : (r'.delayedOf retrying).items.Sublist (r.delayedOf retrying).items

theorem Redis.Shrinks.of_eq {retrying : Bool} {r r' : Redis}
    (hready : r'.readyOf retrying = r.readyOf retrying)
    (hdelayed : r'.delayedOf retrying = r.delayedOf retrying) : r.Shrinks retrying r' where
  ready := hready ▸ .refl _
  delayed := hdelayed ▸ .refl _

/-- Removing a task from each of its places. -/
theorem Redis.Shrinks.remove {retrying : Bool} {r r' : Redis} {t : TaskId}
    (hready : r'.readyOf retrying = r.readyOf retrying ∨
      r'.readyOf retrying = lrem t (r.readyOf retrying))
    (hdelayed : r'.delayedOf retrying = r.delayedOf retrying ∨
      r'.delayedOf retrying = (r.delayedOf retrying).erase t) : r.Shrinks retrying r' where
  ready := by
    rcases hready with h | h <;> rw [h]
    exact List.filter_sublist
  delayed := by
    rcases hdelayed with h | h <;> rw [h]
    exact List.filter_sublist

theorem Redis.Shrinks.insert {retrying b : Bool} {r r' : Redis} (h : r.Shrinks retrying r')
    (hb : b ≠ retrying) (t : TaskId) (score now : Int) :
    r.Shrinks retrying (r'.insert b t score now) := by
  obtain ⟨hready, hdelayed⟩ := Redis.insert_of_ne hb r' t score now
  exact ⟨hready ▸ h.ready, hdelayed ▸ h.delayed⟩

/-- An operation that enqueues nothing of a kind promotes that kind, takes the last of its ready
list, or lets its line shrink. -/
theorem handle_line (u : Chars) (now : Int) {o : Op} {retrying : Bool} (h : ¬ o.Enqueues retrying)
    (w : World) :
    (∃ time, o = .promoteScript retrying time) ∨ o = .lmove retrying ∨
      w.redis.Shrinks retrying (handle u now o w).2.redis := by
  cases o with
  | promoteScript b time =>
    by_cases hb : b = retrying
    · exact .inl ⟨time, by rw [hb]⟩
    · have hne : retrying ≠ b := Ne.symm hb
      exact .inr (.inr (.of_eq (Redis.readyOf_promoteScript_of_ne _ hne time)
        (Redis.delayedOf_promoteScript_of_ne _ hne time)))
  | lmove b =>
    by_cases hb : b = retrying
    · exact .inr (.inl (by rw [hb]))
    · obtain rfl : retrying = !b := by cases b <;> cases retrying <;> simp_all
      refine .inr (.inr ?_)
      rcases w.redis.lmove_cases b with ⟨-, heq⟩ | ⟨t, -, -, -, hready, hdelayed⟩
      · have hsame : (handle u now (.lmove b) w).2.redis = w.redis := congrArg Prod.snd heq
        exact .of_eq (by rw [hsame]) (by rw [hsame])
      · exact .of_eq hready (hdelayed _)
  | enqueueScript b t score time =>
    have hb : b ≠ retrying := h
    refine .inr (.inr ?_)
    by_cases hknown : w.redis.known t = true
    · have hsame : (handle u now (.enqueueScript b t score time) w).2 = w := by
        simp [handle, Redis.enqueueScript, hknown]
      exact .of_eq (by rw [hsame]) (by rw [hsame])
    · have hkept : w.redis.Shrinks retrying
          { w.redis with known := Function.update w.redis.known t true } := .of_eq rfl rfl
      simpa [handle, Redis.enqueueScript, hknown, World.markSeen] using hkept.insert hb t score time
  | requeueScript b t score time =>
    have hb : b ≠ retrying := h
    refine .inr (.inr (Redis.Shrinks.insert (.remove (t := t) (.inr ?_) (.inr ?_)) hb t score time))
    · cases retrying <;> rfl
    · cases retrying <;> rfl
  | delayClaimedPipeline b t score =>
    have hb : b ≠ retrying := h
    refine .inr (.inr (.remove (t := t) (.inl rfl) (.inr ?_)))
    cases retrying <;> cases b <;> first | rfl | exact absurd rfl hb
  | delayOwnedScript b t worker score =>
    have hb : b ≠ retrying := h
    refine .inr (.inr ?_)
    simp only [handle, Redis.delayOwnedScript]
    split
    · cases retrying <;> cases b <;> first | exact .of_eq rfl rfl | exact absurd rfl hb
    · exact .of_eq rfl rfl
  | ackPipeline t =>
    refine .inr (.inr (.remove (t := t) (.inr ?_) (.inr ?_)))
    · cases retrying <;> rfl
    · cases retrying <;> rfl
  | ackOwnedScript t worker =>
    refine .inr (.inr ?_)
    simp only [handle, Redis.ackOwnedScript]
    split
    · refine .remove (t := t) (.inl rfl) ?_
      cases retrying
      · exact .inr rfl
      · exact .inl rfl
    · exact .of_eq rfl rfl
  | lremRetryReady t =>
    refine .inr (.inr (.remove (t := t) ?_ (.inl rfl)))
    cases retrying
    · exact .inl rfl
    · exact .inr rfl
  | zremRetryDelayed t =>
    refine .inr (.inr (.remove (t := t) (.inl rfl) ?_))
    cases retrying
    · exact .inl rfl
    · exact .inr rfl
  | lpushReady b t =>
    have hb : b ≠ retrying := h
    refine .inr (.inr ?_)
    cases retrying <;> cases b <;> first | exact .of_eq rfl rfl | exact absurd rfl hb
  | heartbeatScript t worker expiry =>
    refine .inr (.inr ?_)
    simp only [handle, Redis.heartbeatScript]
    split <;> exact .of_eq rfl rfl
  | recoverScript t time =>
    refine .inr (.inr ?_)
    simp only [handle, Redis.recoverScript]
    split
    · exact .of_eq rfl rfl
    · split <;> exact .of_eq rfl rfl
  | claimTask t worker owner limit time =>
    refine .inr (.inr ?_)
    simp only [handle]
    split <;> exact .of_eq rfl rfl
  | write t o =>
    refine .inr (.inr ?_)
    simp only [handle]
    split <;> exact .of_eq rfl rfl
  | clock about | readPaused t | setPaused paused | getMeta t | loadResult t | listPending limit
  | leasePipeline t worker expiry | expiredLeases time | sremKnown t =>
    exact .inr (.inr (.of_eq rfl rfl))

/-! ### Who is in a line -/

/-- The task is in the line of a kind. -/
def Redis.Lined (r : Redis) (retrying : Bool) (t : TaskId) : Prop :=
  t ∈ r.readyOf retrying ∨ (r.delayedOf retrying).contains t = true

theorem Redis.Shrinks.lined {retrying : Bool} {r r' : Redis} (h : r.Shrinks retrying r') {t : TaskId}
    (ht : r'.Lined retrying t) : r.Lined retrying t := by
  rcases ht with ht | ht
  · exact .inl (h.ready.subset ht)
  · obtain ⟨score, hmem⟩ := ((r'.delayedOf retrying).contains_iff t).mp ht
    exact .inr (((r.delayedOf retrying).contains_iff t).mpr ⟨score, h.delayed.subset hmem⟩)

theorem Redis.lined_promoteScript {retrying : Bool} {r : Redis} {now : Int} {t : TaskId}
    (ht : (r.promoteScript retrying now).Lined retrying t) : r.Lined retrying t := by
  rcases ht with ht | ht
  · rw [readyOf_promoteScript, List.mem_append, List.mem_reverse] at ht
    exact ht.imp_right mem_of_mem_zrangebyscore
  · rw [delayedOf_promoteScript, Dict.contains_filter_key _ fun i => decide (i ∉ _)] at ht
    exact .inr (Bool.and_elim_right ht)

theorem Redis.lined_lmove {retrying : Bool} {r : Redis} {t : TaskId}
    (ht : (r.lmove retrying).2.Lined retrying t) : r.Lined retrying t := by
  rcases r.lmove_cases retrying with ⟨-, heq⟩ | ⟨j, -, -, hready, -, hdelayed⟩
  · rwa [heq] at ht
  · rw [Lined, hready, hdelayed] at ht
    exact ht.imp_left fun hmem => List.mem_of_mem_dropLast hmem

theorem Redis.lined_insert {b : Bool} {r : Redis} {j t : TaskId} {score now : Int}
    (ht : (r.insert b j score now).Lined b t) : t = j ∨ r.Lined b t := by
  by_cases hdelay : now < score <;> cases b <;>
    simp only [insert, hdelay, if_true, if_false, zaddDelayed, lpushReady, Lined, readyOf,
      delayedOf, List.mem_cons, Dict.contains_set, Bool.or_eq_true, decide_eq_true_eq,
      Bool.false_eq_true] at ht ⊢
  all_goals
    rcases ht with ht | ht
    · tauto
    · tauto

/-- Adding a task to the delayed set of a kind. -/
theorem Redis.lined_zaddDelayed {b : Bool} {r : Redis} {j t : TaskId} {score : Int}
    (ht : (r.zaddDelayed b j score).Lined b t) : t = j ∨ r.Lined b t := by
  cases b <;>
    simp only [zaddDelayed, if_true, if_false, Lined, readyOf, delayedOf, Dict.contains_set,
      Bool.or_eq_true, decide_eq_true_eq, Bool.false_eq_true] at ht ⊢
  all_goals tauto

/-- Who has come into a line, an operation that enqueues has put there. -/
theorem lined_handle {u : Chars} {now : Int} {o : Op} {w : World} {retrying : Bool} {t : TaskId}
    (ht : (handle u now o w).2.redis.Lined retrying t) :
    w.redis.Lined retrying t ∨ o.Enqueues retrying ∧ o.task = some t := by
  by_cases ho : o.Enqueues retrying
  · cases o with
    | enqueueScript b j score time =>
      obtain rfl : b = retrying := ho
      by_cases hknown : w.redis.known j = true
      · rw [show (handle u now (.enqueueScript b j score time) w).2 = w by
          simp [handle, Redis.enqueueScript, hknown]] at ht
        exact .inl ht
      · have hnew : ({ w.redis with known := Function.update w.redis.known j true : Redis }.insert
            b j score time).Lined b t := by
          simpa [handle, Redis.enqueueScript, hknown, World.markSeen] using ht
        rcases Redis.lined_insert hnew with rfl | hline
        · exact .inr ⟨rfl, rfl⟩
        · exact .inl hline
    | requeueScript b j score time =>
      obtain rfl : b = retrying := ho
      rcases Redis.lined_insert ht with rfl | hline
      · exact .inr ⟨rfl, rfl⟩
      · refine .inl (Redis.Shrinks.lined (.remove (t := j) (.inr ?_) (.inr ?_)) hline)
        · cases b <;> rfl
        · cases b <;> rfl
    | delayClaimedPipeline b j score =>
      obtain rfl : b = retrying := ho
      have hline : (w.redis.zaddDelayed b j score).Lined b t := by
        cases b <;> exact ht
      rcases Redis.lined_zaddDelayed hline with rfl | hline
      · exact .inr ⟨rfl, rfl⟩
      · exact .inl hline
    | delayOwnedScript b j worker score =>
      obtain rfl : b = retrying := ho
      by_cases howner : w.redis.owners j = some worker
      · have hline : ({ w.redis with
            processing := lrem j w.redis.processing
            leases := w.redis.leases.erase j
            owners := w.redis.hdel j : Redis }.zaddDelayed b j score).Lined b t := by
          simpa only [handle, Redis.delayOwnedScript, if_pos howner] using ht
        rcases Redis.lined_zaddDelayed hline with rfl | hline
        · exact .inr ⟨rfl, rfl⟩
        · exact .inl hline
      · have hsame : (handle u now (.delayOwnedScript b j worker score) w).2 = w := by
          simp only [handle, Redis.delayOwnedScript, if_neg howner]
        exact .inl (hsame ▸ ht)
    | lpushReady b j =>
      obtain rfl : b = retrying := ho
      have hline : (w.redis.insert b j 0 0).Lined b t := ht
      rcases Redis.lined_insert hline with rfl | hline
      · exact .inr ⟨rfl, rfl⟩
      · exact .inl hline
    | _ => exact absurd ho not_false
  · rcases handle_line u now ho w with ⟨time, rfl⟩ | rfl | hshrinks
    · exact .inl (Redis.lined_promoteScript ht)
    · exact .inl (Redis.lined_lmove ht)
    · exact .inl (hshrinks.lined ht)

end FetchTask.Queue
