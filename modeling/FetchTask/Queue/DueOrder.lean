import FetchTask.Queue.Lines

/-!
In which order delayed tasks are handed out.

A promotion moves at most a hundred due tasks and puts them at the end of the ready
list from which claims take, the earliest last. Within one batch this is the order of
the due times; a second batch goes in front of what is left of the first. So the tasks
of a kind are handed out as they fall due exactly as long as every promotion that moves
some of them finds their ready list empty.
-/

namespace FetchTask.Queue

open Runs

/-! ### What is handed out -/

/-- The task of a kind that an operation hands to a claim. -/
def Op.hands (retrying : Bool) : Op → World → Option TaskId
  | .lmove fromRetry, w => if fromRetry = retrying then (w.redis.lmove fromRetry).1 else none
  | _, _ => none

/-- The task of a kind that a step hands to a claim. -/
def handed (retrying : Bool) : Label QueueCall Int → QueueConfig → Option TaskId
  | .spawn .., _ => none
  | .act i _, c =>
    match c.threads i with
    | .ret _ => none
    | .act o _ => Op.hands retrying o c.shared

/-- A configuration, and the tasks of a kind that have been handed out until then. -/
structure History where
  taken : List TaskId := []
  config : QueueConfig

def History.step (u : Chars) (retrying : Bool) (label : Label QueueCall Int) (h : History) :
    History where
  taken := h.taken ++ (handed retrying label h.config).toList
  config := Queue.step u label h.config

/-- The due times of the delayed tasks of a kind. -/
def dueTimes (c : QueueConfig) (retrying : Bool) (t : TaskId) : Int :=
  ((c.shared.redis.delayedOf retrying).get? t).getD 0

/-- What has been handed out, and then the ready list in the order in which claims take it, is in
increasing order of the due times. -/
def InOrder (due : TaskId → Int) (retrying : Bool) (h : History) : Prop :=
  (h.taken ++ (h.config.shared.redis.readyOf retrying).reverse).Pairwise fun a b => due a < due b

/-- Nothing of the kind is enqueued. -/
def NothingElse (retrying : Bool) (label : Label QueueCall Int) (h : History) : Prop :=
  OnAct (fun _ _ o _ => ¬ Op.Enqueues retrying o) label h.config

/-- A promotion that moves tasks finds the ready list of their kind empty. -/
def Op.IntoEmpty (retrying : Bool) : Op → World → Prop
  | .promoteScript b now, w =>
    b = retrying → w.redis.promoted b now = [] ∨ w.redis.readyOf b = []
  | _, _ => True

def PromotesIntoEmpty (retrying : Bool) (label : Label QueueCall Int) (h : History) : Prop :=
  OnAct (fun _ _ o c => Op.IntoEmpty retrying o c.shared) label h.config

/-! ### What keeps the order -/

/-- The delayed tasks are later than all that have left their set. -/
structure Ordered (due : TaskId → Int) (retrying : Bool) (taken : List TaskId) (r : Redis) :
    Prop where
  inOrder : (taken ++ (r.readyOf retrying).reverse).Pairwise fun a b => due a < due b
  later : ∀ t ∈ taken ++ (r.readyOf retrying).reverse, ∀ p ∈ (r.delayedOf retrying).items, due t < p.2
  scored : ∀ p ∈ (r.delayedOf retrying).items, due p.1 = p.2
  distinct : ((r.delayedOf retrying).items.map Prod.snd).Nodup

section Operations

variable {due : TaskId → Int} {retrying : Bool} {taken : List TaskId} {r r' : Redis}

/-- Different delayed tasks have different due times. -/
theorem Ordered.lt_of_before (h : Ordered due retrying taken r) {p q : TaskId × Int}
    (hp : p ∈ (r.delayedOf retrying).items) (hq : q ∈ (r.delayedOf retrying).items)
    (hne : p.1 ≠ q.1) (hbefore : ZBefore p q) : due p.1 < due q.1 := by
  rw [h.scored p hp, h.scored q hq]
  rcases hbefore with hlt | ⟨heq, -⟩
  · exact hlt
  · exact absurd (congrArg Prod.fst (List.inj_on_of_nodup_map h.distinct hp hq heq)) hne

theorem Ordered.shrink (h : Ordered due retrying taken r) (hr : r.Shrinks retrying r') :
    Ordered due retrying taken r' where
  inOrder := h.inOrder.sublist (hr.ready.reverse.append_left taken)
  later t ht p hp := h.later t ((hr.ready.reverse.append_left taken).subset ht) p (hr.delayed.subset hp)
  scored p hp := h.scored p (hr.delayed.subset hp)
  distinct := (hr.delayed.map Prod.snd).nodup h.distinct

/-- A claim takes what comes first in the order. -/
theorem Ordered.lmove (h : Ordered due retrying taken r) :
    Ordered due retrying (taken ++ (r.lmove retrying).1.toList) (r.lmove retrying).2 := by
  rcases r.lmove_cases retrying with ⟨-, heq⟩ | ⟨t, hlast, hfst, hready, -, hdelayed⟩
  · simpa [heq] using h
  · have hlist : taken ++ [t] ++ (r.readyOf retrying).dropLast.reverse =
        taken ++ (r.readyOf retrying).reverse := by
      have hsplit := List.dropLast_append_getLast? t hlast
      rw [← hsplit, List.reverse_append]
      simp
    rw [hfst, Option.toList_some]
    constructor
    · rw [hready, hlist]
      exact h.inOrder
    · rw [hready, hlist, hdelayed]
      exact h.later
    · rw [hdelayed]
      exact h.scored
    · rw [hdelayed]
      exact h.distinct

/-! ### Promotions -/

theorem Ordered.mem_promoted {t : TaskId} {now : Int} (h : Ordered due retrying taken r)
    (ht : t ∈ r.promoted retrying now) : (t, due t) ∈ (r.delayedOf retrying).items := by
  obtain ⟨⟨j, s⟩, hp, rfl⟩ := List.mem_map.mp ht
  have hitem := (mem_dueItems.mp (List.mem_of_mem_take hp)).1
  rw [h.scored _ hitem]
  exact hitem

theorem Ordered.batch (h : Ordered due retrying taken r) (now : Int) :
    (r.promoted retrying now).Pairwise fun a b => due a < due b := by
  have hsorted := (pairwise_dueItems (r.delayedOf retrying) now).sublist
    (List.take_sublist 100 _)
  have hkeys := List.pairwise_map.mp (nodup_zrangebyscore (r.delayedOf retrying) now 100)
  have hitem : ∀ p ∈ (dueItems (r.delayedOf retrying) now).take 100,
      p ∈ (r.delayedOf retrying).items :=
    fun p hp => (mem_dueItems.mp (List.mem_of_mem_take hp)).1
  refine List.pairwise_map.mpr ((hsorted.and hkeys).imp_of_mem ?_)
  rintro p q hp hq ⟨hbefore, hne⟩
  exact h.lt_of_before (hitem p hp) (hitem q hq) hne hbefore

/-- What a batch leaves behind is later than the batch. -/
theorem Ordered.batch_lt {now : Int} (h : Ordered due retrying taken r) {t : TaskId}
    (ht : t ∈ r.promoted retrying now) {q : TaskId × Int} (hq : q ∈ (r.delayedOf retrying).items)
    (hnot : q.1 ∉ r.promoted retrying now) : due t < q.2 := by
  obtain ⟨p, hp, rfl⟩ := List.mem_map.mp ht
  have hne : p.1 ≠ q.1 := fun heq => hnot (heq ▸ ht)
  rw [← h.scored q hq]
  exact h.lt_of_before (mem_dueItems.mp (List.mem_of_mem_take hp)).1 hq hne
    (zrangebyscore_before hp hq hnot)

theorem Ordered.promote (h : Ordered due retrying taken r) {now : Int}
    (hinto : r.promoted retrying now = [] ∨ r.readyOf retrying = []) :
    Ordered due retrying taken (r.promoteScript retrying now) := by
  have hsub : ((r.promoteScript retrying now).delayedOf retrying).items.Sublist
      (r.delayedOf retrying).items := by
    rw [Redis.delayedOf_promoteScript]
    exact List.filter_sublist
  rcases hinto with hnone | hempty
  · refine h.shrink ⟨?_, hsub⟩
    rw [Redis.readyOf_promoteScript, hnone]
    simp
  · have hready : ((r.promoteScript retrying now).readyOf retrying).reverse =
        r.promoted retrying now := by
      rw [Redis.readyOf_promoteScript, hempty]
      simp
    have htaken : ∀ t ∈ taken, ∀ p ∈ (r.delayedOf retrying).items, due t < p.2 :=
      fun t ht => h.later t (List.mem_append_left _ ht)
    constructor
    · rw [hready, List.pairwise_append]
      refine ⟨(List.pairwise_append.mp h.inOrder).1, h.batch now, fun a ha b hb => ?_⟩
      exact htaken a ha _ (h.mem_promoted hb)
    · intro t ht p hp
      have hitem := hsub.subset hp
      rw [hready] at ht
      rcases List.mem_append.mp ht with ht | ht
      · exact htaken t ht p hitem
      · rw [Redis.delayedOf_promoteScript] at hp
        exact h.batch_lt ht hitem (by simpa using (List.mem_filter.mp hp).2)
    · exact fun p hp => h.scored p (hsub.subset hp)
    · exact (hsub.map Prod.snd).nodup h.distinct

/-- A batch that comes in front of tasks which wait is out of order. -/
theorem Ordered.into_empty {now : Int} (h : Ordered due retrying taken r)
    (hnext : (taken ++ ((r.promoteScript retrying now).readyOf retrying).reverse).Pairwise
      fun a b => due a < due b) : r.promoted retrying now = [] ∨ r.readyOf retrying = [] := by
  by_contra hnot
  rw [not_or] at hnot
  obtain ⟨t, ht⟩ := List.exists_mem_of_ne_nil _ hnot.1
  obtain ⟨j, hj⟩ := List.exists_mem_of_ne_nil _ hnot.2
  have hlater : due j < due t :=
    h.later j (List.mem_append_right _ (List.mem_reverse.mpr hj)) _ (h.mem_promoted ht)
  rw [Redis.readyOf_promoteScript, List.reverse_append, List.reverse_reverse] at hnext
  have hbatch := (List.pairwise_append.mp (List.pairwise_append.mp hnext).2.1).2.2
  exact absurd (hbatch t ht j (List.mem_reverse.mpr hj)) (by omega)

theorem Op.hands_of_ne {o : Op} (h : o ≠ .lmove retrying) (w : World) :
    o.hands retrying w = none := by
  cases o with
  | lmove b => exact if_neg fun hb => h (by rw [hb])
  | _ => rfl

theorem Op.intoEmpty_of_ne {o : Op} (h : ∀ now, o ≠ .promoteScript retrying now) (w : World) :
    o.IntoEmpty retrying w := by
  cases o with
  | promoteScript b now => exact fun hb => absurd (by rw [hb]) (h now)
  | _ => trivial

/-- An operation that enqueues nothing of the kind keeps the order exactly if it does not put a
batch in front of tasks which wait. -/
theorem Ordered.act {o : Op} {w : World} (h : Ordered due retrying taken w.redis) (u : Chars)
    (now : Int) (ho : ¬ o.Enqueues retrying) :
    (o.IntoEmpty retrying w → Ordered due retrying (taken ++ (o.hands retrying w).toList)
      (handle u now o w).2.redis) ∧
    ((taken ++ (o.hands retrying w).toList ++
        ((handle u now o w).2.redis.readyOf retrying).reverse).Pairwise
      (fun a b => due a < due b) → o.IntoEmpty retrying w) := by
  by_cases hmove : o = .lmove retrying
  · subst hmove
    have hhands : (Op.lmove retrying).hands retrying w = (w.redis.lmove retrying).1 := if_pos rfl
    rw [hhands]
    exact ⟨fun _ => h.lmove, fun _ => trivial⟩
  · rw [Op.hands_of_ne hmove, Option.toList_none, List.append_nil]
    by_cases hpromote : ∃ time, o = .promoteScript retrying time
    · obtain ⟨time, rfl⟩ := hpromote
      exact ⟨fun hinto => h.promote (hinto rfl), fun hnext _ => h.into_empty hnext⟩
    · have hinto := Op.intoEmpty_of_ne (fun time heq => hpromote ⟨time, heq⟩) w
      rcases handle_line u now ho w with hline | hline | hshrinks
      · exact absurd hline hpromote
      · exact absurd hline hmove
      · exact ⟨fun _ => h.shrink hshrinks, fun _ => hinto⟩

end Operations

/-! ### Runs -/

section Runs

variable {u : Chars} {retrying : Bool} {due : TaskId → Int}

/-- A step hands nothing out and leaves the shared state alone, or performs an operation. -/
theorem History.step_cases (u : Chars) (retrying : Bool) (label : Label QueueCall Int) (h : History) :
    ((h.step u retrying label).taken = h.taken ∧
        (h.step u retrying label).config.shared = h.config.shared ∧
        ∀ C : Nat → Int → (o : QueueSig.Op) → QueueConfig → Prop, OnAct C label h.config) ∨
      ∃ i now o k, label = .act i now ∧ h.config.threads i = .act o k ∧
        (h.step u retrying label).taken = h.taken ++ (Op.hands retrying o h.config.shared).toList ∧
        (h.step u retrying label).config.shared = (handle u now o h.config.shared).2 := by
  cases label with
  | spawn i call =>
    refine .inl ⟨by simp [History.step, handed], ?_, fun _ => trivial⟩
    rw [History.step, Queue.step, Config.step_spawn_shared]
  | act i now =>
    cases hi : h.config.threads i with
    | ret a =>
      refine .inl ⟨?_, ?_, fun _ => by simp [OnAct, hi]⟩
      · simp [History.step, handed, hi]
      · simp [History.step, Queue.step, Config.step_idle hi]
    | act o k =>
      refine .inr ⟨i, now, o, k, rfl, hi, ?_, ?_⟩
      · simp only [History.step, handed, hi]
      · simp only [History.step, Queue.step, Config.step_act hi]

/-- A condition on the operation that a step performs. -/
theorem onAct_act {C : Nat → Int → (o : QueueSig.Op) → QueueConfig → Prop} {i : Nat} {now : Int}
    {c : QueueConfig} {o : QueueSig.Op} {k : QueueSig.Res o → Call Unit}
    (hi : c.threads i = .act o k) : OnAct C (.act i now : Label QueueCall Int) c ↔ C i now o c := by
  simp [OnAct, hi]

theorem Ordered.step {label : Label QueueCall Int} {h : History}
    (hordered : Ordered due retrying h.taken h.config.shared.redis)
    (hnothing : NothingElse retrying label h) :
    (PromotesIntoEmpty retrying label h →
      Ordered due retrying (h.step u retrying label).taken
        (h.step u retrying label).config.shared.redis) ∧
    (InOrder due retrying (h.step u retrying label) → PromotesIntoEmpty retrying label h) := by
  rcases h.step_cases u retrying label with ⟨htaken, hshared, hidle⟩ | ⟨i, now, o, k, rfl, hi, htaken, hshared⟩
  · rw [htaken, hshared]
    exact ⟨fun _ => hordered, fun _ => hidle _⟩
  · have hkept := hordered.act u now ((onAct_act hi).mp hnothing)
    rw [InOrder, htaken, hshared]
    exact ⟨fun hC => hkept.1 ((onAct_act hi).mp hC), fun hP => (onAct_act hi).mpr (hkept.2 hP)⟩

theorem ordered_start {c : QueueConfig} (hempty : c.shared.redis.readyOf retrying = [])
    (hdistinct : ((c.shared.redis.delayedOf retrying).items.map Prod.snd).Nodup) :
    Ordered (dueTimes c retrying) retrying [] c.shared.redis where
  inOrder := by simp [hempty]
  later := by simp [hempty]
  scored p hp := by
    have hget := ((c.shared.redis.delayedOf retrying).get?_eq_some_iff).mpr hp
    rw [dueTimes, hget, Option.getD_some]
  distinct := hdistinct

/-- In a run in which nothing else of a kind is enqueued, its delayed tasks are handed out as
they fall due, if and only if every promotion that moves some of them finds their ready list
empty. -/
theorem handed_out_as_due_iff (u : Chars) (retrying : Bool) (c : QueueConfig)
    (hempty : c.shared.redis.readyOf retrying = [])
    (hdistinct : ((c.shared.redis.delayedOf retrying).items.map Prod.snd).Nodup)
    (labels : List (Label QueueCall Int))
    (hnothing : AllSteps (History.step u retrying) (NothingElse retrying) labels
      { config := c }) :
    Throughout (History.step u retrying) (InOrder (dueTimes c retrying) retrying)
        labels { config := c } ↔
      AllSteps (History.step u retrying) (PromotesIntoEmpty retrying) labels
        { config := c } :=
  throughout_iff_allSteps_under (fun _ hordered => Ordered.inOrder hordered)
    (fun _ _ hordered hnothing hC => (hordered.step hnothing).1 hC)
    (fun _ _ hordered hnothing hP => (hordered.step hnothing).2 hP)
    (ordered_start hempty hdistinct) hnothing

/-- Whatever a promotion of the kind may find in `z` is due. -/
def Op.AllDue (z : ZSet) (retrying : Bool) : Op → Prop
  | .promoteScript b now => b = retrying → ∀ p ∈ z.items, p.2 ≤ now
  | _ => True

/-- The first promotion moves the whole of the delayed set. -/
structure OneBatch (z : ZSet) (retrying : Bool) (r : Redis) : Prop where
  delayed : (r.delayedOf retrying).items.Sublist z.items
  once : r.readyOf retrying = [] ∨ (r.delayedOf retrying).items = []

theorem OneBatch.shrink {z : ZSet} {r r' : Redis} (h : OneBatch z retrying r)
    (hr : r.Shrinks retrying r') : OneBatch z retrying r' where
  delayed := hr.delayed.trans h.delayed
  once := by
    rcases h.once with hempty | hempty
    · exact .inl (List.sublist_nil.mp (hempty ▸ hr.ready))
    · exact .inr (List.sublist_nil.mp (hempty ▸ hr.delayed))

theorem OneBatch.lmove {z : ZSet} {r : Redis} (h : OneBatch z retrying r) :
    OneBatch z retrying (r.lmove retrying).2 := by
  refine h.shrink ?_
  rcases r.lmove_cases retrying with ⟨-, heq⟩ | ⟨t, -, -, hready, -, hdelayed⟩
  · exact .of_eq (by rw [heq]) (by rw [heq])
  · exact ⟨hready ▸ List.dropLast_sublist _, hdelayed retrying ▸ .refl _⟩

theorem OneBatch.promote {z : ZSet} {r : Redis} {now : Int} (h : OneBatch z retrying r)
    (hfew : z.items.length ≤ 100) (hdue : ∀ p ∈ z.items, p.2 ≤ now) :
    OneBatch z retrying (r.promoteScript retrying now) := by
  have hlength := h.delayed.length_le.trans hfew
  constructor
  · rw [Redis.delayedOf_promoteScript]
    exact List.filter_sublist.trans h.delayed
  · rw [Redis.delayedOf_promoteScript, Dict.items_filter]
    refine .inr (List.filter_eq_nil_iff.mpr fun p hp => ?_)
    have hmem : p.1 ∈ r.promoted retrying now :=
      mem_zrangebyscore_of_few hp (hdue p (h.delayed.subset hp)) hlength
    simpa using hmem

theorem OneBatch.act {z : ZSet} {w : World} {o : Op} (h : OneBatch z retrying w.redis) (u : Chars)
    (now : Int) (hfew : z.items.length ≤ 100) (hnothing : ¬ o.Enqueues retrying) (hdue : o.AllDue z retrying) :
    OneBatch z retrying (handle u now o w).2.redis ∧ o.IntoEmpty retrying w := by
  by_cases hpromote : ∃ time, o = .promoteScript retrying time
  · obtain ⟨time, rfl⟩ := hpromote
    refine ⟨h.promote hfew (hdue rfl), fun _ => ?_⟩
    rcases h.once with hempty | hnone
    · exact .inr hempty
    · left
      rw [Redis.promoted, zrangebyscore, hnone]
      rfl
  · refine ⟨?_, Op.intoEmpty_of_ne (fun time heq => hpromote ⟨time, heq⟩) w⟩
    rcases handle_line u now hnothing w with hline | rfl | hshrinks
    · exact absurd hline hpromote
    · exact h.lmove
    · exact h.shrink hshrinks

/-- At most a hundred delayed tasks that are all due are handed out in order. -/
theorem handed_out_of_few (c : QueueConfig) (hempty : c.shared.redis.readyOf retrying = [])
    (hdistinct : ((c.shared.redis.delayedOf retrying).items.map Prod.snd).Nodup)
    (hfew : (c.shared.redis.delayedOf retrying).items.length ≤ 100)
    (labels : List (Label QueueCall Int))
    (hnothing : AllSteps (History.step u retrying) (NothingElse retrying) labels { config := c })
    (hdue : AllSteps (History.step u retrying)
      (fun label h => OnAct
        (fun _ _ o _ => Op.AllDue (c.shared.redis.delayedOf retrying) retrying o) label h.config)
      labels { config := c }) :
    Throughout (History.step u retrying) (InOrder (dueTimes c retrying) retrying) labels
      { config := c } := by
  refine (handed_out_as_due_iff u retrying c hempty hdistinct labels hnothing).mpr ?_
  refine allSteps_of_invariant (P := fun h => OneBatch (c.shared.redis.delayedOf retrying) retrying
    h.config.shared.redis) ?_ ?_ ⟨.refl _, .inl hempty⟩ (hnothing.and hdue)
  · rintro label h hone ⟨hnothing, hdue⟩
    rcases h.step_cases u retrying label with ⟨-, hshared, -⟩ | ⟨i, now, o, k, rfl, hi, -, hshared⟩
    · rwa [hshared]
    · rw [hshared]
      exact (hone.act u now hfew ((onAct_act hi).mp hnothing) ((onAct_act hi).mp hdue)).1
  · rintro label h hone ⟨hnothing, hdue⟩
    rcases h.step_cases u retrying label with ⟨-, -, hidle⟩ | ⟨i, now, o, k, rfl, hi, -, -⟩
    · exact hidle _
    · refine (onAct_act hi).mpr ?_
      exact (hone.act u now hfew ((onAct_act hi).mp hnothing) ((onAct_act hi).mp hdue)).2

end Runs

/-! ### Two batches -/

/-- The `i`th of the sample tasks. -/
def lateName (i : Nat) : TaskId := String.ofList (List.replicate i 'a')

theorem lateName_injective : Function.Injective lateName := by
  intro i j h
  have hlists := String.ofList_injective h
  simpa using congrArg List.length hlists

/-- `n` delayed tasks, one due at each moment. -/
def lateTasks (n : Nat) : ZSet where
  items := (List.range n).map fun i => (lateName i, (i : Int))
  nodup := by
    rw [List.map_map]
    exact List.nodup_range.map lateName_injective

theorem zrangebyscore_lateTasks {n : Nat} {now : Int} (hnow : (n : Int) ≤ now) :
    zrangebyscore (lateTasks n) now 100 = ((List.range n).take 100).map lateName := by
  have hdue : (lateTasks n).items.filter (fun p => decide (p.2 ≤ now)) = (lateTasks n).items := by
    refine List.filter_eq_self.mpr fun p hp => ?_
    obtain ⟨i, hi, rfl⟩ := List.mem_map.mp hp
    have hlt := List.mem_range.mp hi
    exact decide_eq_true (by simp only; omega)
  have hsorted : (lateTasks n).items.Pairwise ZBefore := by
    refine List.pairwise_map.mpr (List.pairwise_lt_range.imp fun hlt => .inl ?_)
    exact Int.ofNat_lt.mpr hlt
  rw [zrangebyscore, hdue, hsorted.insertionSort_eq, lateTasks, ← List.map_take, List.map_map]
  rfl

/-- What the steps of the sample run meet. -/
abbrev Allowed (z : ZSet) (label : Label QueueCall Int) (h : History) : Prop :=
  NothingElse false label h ∧ OnAct (fun _ _ o _ => Op.AllDue z false o) label h.config

/-- One operation of a thread whose program is known. -/
theorem steps_act {u : Chars} {z : ZSet} {i : Nat} {now : Int} {taken : List TaskId} {w : World}
    {threads : Nat → Call Unit} {o : Op} {k : o.Res → Call Unit} {h' : History}
    {labels : List (Label QueueCall Int)} (ho : ¬ o.Enqueues false ∧ o.AllDue z false)
    (hrest : AllSteps (History.step u false) (Allowed z) labels
        ⟨taken ++ (o.hands false w).toList,
          ⟨(handle u now o w).2, Function.update threads i (k (handle u now o w).1)⟩⟩ ∧
      run (History.step u false) labels
        ⟨taken ++ (o.hands false w).toList,
          ⟨(handle u now o w).2, Function.update threads i (k (handle u now o w).1)⟩⟩ = h') :
    AllSteps (History.step u false) (Allowed z) (.act i now :: labels)
        ⟨taken, ⟨w, Function.update threads i (.act o k)⟩⟩ ∧
      run (History.step u false) (.act i now :: labels)
        ⟨taken, ⟨w, Function.update threads i (.act o k)⟩⟩ = h' := by
  have hi : Function.update threads i (.act o k) i = .act o k := Function.update_self ..
  have hnext : History.step u false (.act i now) ⟨taken, ⟨w, Function.update threads i (.act o k)⟩⟩ =
      ⟨taken ++ (o.hands false w).toList,
        ⟨(handle u now o w).2, Function.update threads i (k (handle u now o w).1)⟩⟩ := by
    rw [History.step, Queue.step, Config.step_act hi, Function.update_idem, handed]
    simp only [hi]
  rw [AllSteps, run, hnext]
  exact ⟨⟨⟨(onAct_act hi).mpr ho.1, (onAct_act hi).mpr ho.2⟩, hrest.1⟩, hrest.2⟩

def World.onRedis (w : World) (r : Redis) : World := { w with redis := r }

@[simp] theorem World.redis_onRedis (w : World) (r : Redis) : (w.onRedis r).redis = r := rfl

/-- What is left when a claim has promoted and taken a first-time task. -/
def Redis.afterTake (r : Redis) (now : Int) : Redis :=
  (((r.promoteScript false now).promoteScript true now).lmove false).2

/-- The steps of a claim up to the first task that it takes. -/
def claimSteps (i : Nat) (now : Int) : List (Label QueueCall Int) :=
  [.spawn i (.claim "w" (fun _ => none) 0), .act i now, .act i now, .act i now, .act i now,
    .act i now, .act i now, .act i now]

theorem claimSteps_take {u : Chars} {z : ZSet} {now : Int} {w : World} {t : TaskId} (r : Redis) (i : Nat)
    (taken : List TaskId) (threads : Nat → Call Unit) (hi : threads i = .ret ())
    (hz : ∀ p ∈ z.items, p.2 ≤ now) (hleases : r.leases = .empty)
    (hlast : (r.readyOf false ++ (r.promoted false now).reverse).getLast? = some t) :
    ∃ p, AllSteps (History.step u false) (Allowed z) (claimSteps i now) ⟨taken, ⟨w.onRedis r, threads⟩⟩ ∧
      run (History.step u false) (claimSteps i now) ⟨taken, ⟨w.onRedis r, threads⟩⟩ =
        ⟨taken ++ [t], ⟨w.onRedis (r.afterTake now), Function.update threads i p⟩⟩ := by
  have hnone : zrangebyscore r.leases now 100 = [] := by
    rw [hleases]
    rfl
  have hmoved : (((r.promoteScript false now).promoteScript true now).lmove false).1 = some t := by
    rw [Redis.lmove_fst, Redis.readyOf_promoted, hlast]
  have hprefer : decide (3 ≤ 0) = false := rfl
  have hspawn : History.step u false (.spawn i (.claim "w" (fun _ => none) 0)) ⟨taken, ⟨w.onRedis r, threads⟩⟩ =
      ⟨taken, ⟨w.onRedis r, Function.update threads i (QueueCall.prog (.claim "w" (fun _ => none) 0))⟩⟩ := by
    simp [History.step, handed, Queue.step, Config.step, hi]
  rw [claimSteps, AllSteps, run, hspawn]
  refine ⟨?_, and_assoc.mpr ⟨⟨trivial, trivial⟩, ?_⟩⟩
  rotate_left
  · refine steps_act ⟨not_false, trivial⟩ (steps_act ⟨not_false, trivial⟩ ?_)
    simp only [handle, Op.hands, Option.toList_none, List.append_nil, World.redis_onRedis, hnone]
    refine steps_act ⟨not_false, trivial⟩ (steps_act ⟨not_false, fun _ => hz⟩ ?_)
    refine steps_act ⟨not_false, trivial⟩ (steps_act ⟨not_false, fun hfalse => Bool.noConfusion hfalse⟩ ?_)
    simp only [handle, Op.hands, Option.toList_none, List.append_nil]
    refine steps_act ⟨not_false, trivial⟩ ⟨trivial, ?_⟩
    simp only [handle, Op.hands, hprefer, if_pos, World.redis_onRedis, hmoved, Option.toList_some, run]
    rfl

section AfterTake

variable (r : Redis) (now : Int)

theorem Redis.readyOf_afterTake :
    (r.afterTake now).readyOf false = (r.readyOf false ++ (r.promoted false now).reverse).dropLast := by
  rcases Redis.lmove_cases ((r.promoteScript false now).promoteScript true now) false with
    ⟨hempty, heq⟩ | ⟨t, -, -, hlist, -⟩
  · rw [afterTake, heq, ← readyOf_promoted, hempty]
    rfl
  · rw [afterTake, hlist, readyOf_promoted]

theorem Redis.delayedOf_afterTake :
    (r.afterTake now).delayedOf false =
      (r.delayedOf false).filter fun p => p.1 ∉ r.promoted false now := by
  have hdelayed : ((r.promoteScript false now).promoteScript true now).delayedOf false =
      (r.delayedOf false).filter fun p => p.1 ∉ r.promoted false now := by
    rw [delayedOf_promoteScript_of_ne _ Bool.false_ne_true, delayedOf_promoteScript]
  rcases Redis.lmove_cases ((r.promoteScript false now).promoteScript true now) false with
    ⟨-, heq⟩ | ⟨t, -, -, -, -, hsame⟩
  · rw [afterTake, heq, hdelayed]
  · rw [afterTake, hsame, hdelayed]

theorem Redis.leases_afterTake : (r.afterTake now).leases = r.leases := by
  simp only [afterTake, lmove]
  split <;> rfl

end AfterTake

/-- A hundred and one tasks. -/
def lateWorld : World where
  redis := { delayed := lateTasks 101 }
  tasks := {
    items := (List.range 101).map fun i => (lateName i, { status := .pending })
    nodup := by
      rw [List.map_map]
      exact List.nodup_range.map lateName_injective }
  results := fun _ => {}
  paused := false

theorem promoted_late {r : Redis} (h : r.delayedOf false = lateTasks 101) :
    r.promoted false 200 = (List.range 100).map lateName := by
  rw [Redis.promoted, h, zrangebyscore_lateTasks (by omega)]
  rfl

/-- What is left of the sample tasks after the first batch. -/
theorem delayed_late : (lateTasks 101).items.filter
    (fun p => decide (p.1 ∉ (List.range 100).map lateName)) = [(lateName 100, 100)] := by
  have hsplit : (lateTasks 101).items =
      (List.range 100).map (fun i => (lateName i, (i : Int))) ++ [(lateName 100, 100)] := by
    show (List.range 101).map (fun i => (lateName i, (i : Int))) = _
    rw [List.range_succ, List.map_append]
    rfl
  rw [hsplit, List.filter_append, List.filter_eq_nil_iff.mpr, List.nil_append,
    List.filter_eq_self.mpr]
  · intro p hp
    rw [List.mem_singleton.mp hp]
    refine decide_eq_true fun hmem => ?_
    obtain ⟨i, hi, heq⟩ := List.mem_map.mp hmem
    exact absurd (List.mem_range.mp hi) (by rw [lateName_injective heq]; omega)
  · intro p hp
    obtain ⟨i, hi, rfl⟩ := List.mem_map.mp hp
    simpa using ⟨i, List.mem_range.mp hi, rfl⟩

abbrev lateConfig : QueueConfig := ⟨lateWorld, fun _ => .ret ()⟩

def lateSteps : List (Label QueueCall Int) :=
  claimSteps 0 200 ++ (claimSteps 1 200 ++ claimSteps 2 200)

/-- Of three claims, the second takes the task that fell due last. -/
theorem takes_late :
    AllSteps (History.step .ascii false) (Allowed (lateTasks 101)) lateSteps { config := lateConfig } ∧
      (run (History.step .ascii false) lateSteps { config := lateConfig }).taken =
        [lateName 0, lateName 100, lateName 1] := by
  have hdue : ∀ p ∈ (lateTasks 101).items, p.2 ≤ 200 := by
    intro p hp
    obtain ⟨i, hi, rfl⟩ := List.mem_map.mp hp
    have hlt := List.mem_range.mp hi
    simp only
    omega
  -- The first claim promotes a hundred tasks and takes the first.
  have hfirst : lateWorld.redis.promoted false 200 = (List.range 100).map lateName :=
    promoted_late rfl
  obtain ⟨p₁, hsteps₁, hrun₁⟩ := claimSteps_take (u := .ascii) (w := lateWorld) (t := lateName 0)
    lateWorld.redis 0 [] (fun _ => .ret ()) rfl hdue rfl (by
      rw [hfirst]
      rfl)
  have hready₁ : (lateWorld.redis.afterTake 200).readyOf false =
      ((List.range 100).map lateName).reverse.dropLast := by
    rw [Redis.readyOf_afterTake, hfirst]
    rfl
  have hdelayed₁ : ((lateWorld.redis.afterTake 200).delayedOf false).items = [(lateName 100, 100)] := by
    rw [Redis.delayedOf_afterTake, hfirst]
    exact delayed_late
  -- The second promotes the last task and takes it.
  have hsecond : (lateWorld.redis.afterTake 200).promoted false 200 = [lateName 100] := by
    rw [Redis.promoted, zrangebyscore, hdelayed₁]
    rfl
  obtain ⟨p₂, hsteps₂, hrun₂⟩ := claimSteps_take (u := .ascii) (w := lateWorld) (t := lateName 100)
    (lateWorld.redis.afterTake 200) 1 [lateName 0] (Function.update (fun _ => .ret ()) 0 p₁) rfl hdue (Redis.leases_afterTake ..) (by
      rw [hsecond]
      exact List.getLast?_concat)
  have hready₂ : ((lateWorld.redis.afterTake 200).afterTake 200).readyOf false =
      ((List.range 100).map lateName).reverse.dropLast := by
    rw [Redis.readyOf_afterTake, hsecond, hready₁]
    exact List.dropLast_concat
  have hdelayed₂ : (((lateWorld.redis.afterTake 200).afterTake 200).delayedOf false).items = [] := by
    rw [Redis.delayedOf_afterTake, hsecond, Dict.items_filter, hdelayed₁]
    simp
  -- The third takes what the first has left.
  have hthird : ((lateWorld.redis.afterTake 200).afterTake 200).promoted false 200 = [] := by
    rw [Redis.promoted, zrangebyscore, hdelayed₂]
    rfl
  obtain ⟨p₃, hsteps₃, hrun₃⟩ := claimSteps_take (u := .ascii) (w := lateWorld) (t := lateName 1)
    ((lateWorld.redis.afterTake 200).afterTake 200) 2 [lateName 0, lateName 100] (Function.update (Function.update (fun _ => .ret ()) 0 p₁) 1 p₂) rfl hdue
    ((Redis.leases_afterTake ..).trans (Redis.leases_afterTake ..)) (by
      rw [hthird, hready₂]
      rfl)
  rw [List.nil_append, show lateWorld.onRedis lateWorld.redis = lateWorld from rfl] at hrun₁
  rw [List.singleton_append] at hrun₂
  constructor
  · rw [lateSteps, allSteps_append, allSteps_append, hrun₁, hrun₂]
    exact ⟨hsteps₁, hsteps₂, hsteps₃⟩
  · rw [lateSteps, run_append, run_append, hrun₁, hrun₂, hrun₃]
    rfl

theorem distinct_late : ((lateTasks 101).items.map Prod.snd).Nodup := by
  rw [lateTasks, List.map_map]
  exact List.nodup_range.map fun i j hij => Int.ofNat_inj.mp hij

theorem handed_out_as_due_iff_late :
    Throughout (History.step .ascii false) (InOrder (dueTimes lateConfig false) false) lateSteps
        { config := lateConfig } ↔
      AllSteps (History.step .ascii false) (PromotesIntoEmpty false) lateSteps
        { config := lateConfig } :=
  handed_out_as_due_iff .ascii false lateConfig rfl distinct_late lateSteps
    (takes_late.1.mono fun _ _ hallowed => hallowed.1)

theorem dueTimes_late {i : Nat} (hi : i < 101) (threads : Nat → Call Unit) :
    dueTimes ⟨lateWorld, threads⟩ false (lateName i) = i := by
  have hget : (lateTasks 101).get? (lateName i) = some (i : Int) :=
    (lateTasks 101).get?_eq_some_iff.mpr (List.mem_map_of_mem (List.mem_range.mpr hi))
  show ((lateTasks 101).get? (lateName i)).getD 0 = i
  rw [hget, Option.getD_some]

/-- Delayed tasks are not always handed out as they fall due, even if all of them are due and
nothing else is enqueued. -/
theorem second_batch_first : ¬ ∀ (u : Chars) (retrying : Bool) (c : QueueConfig),
    c.shared.redis.readyOf retrying = [] →
    ((c.shared.redis.delayedOf retrying).items.map Prod.snd).Nodup →
    ∀ labels : List (Label QueueCall Int),
      AllSteps (History.step u retrying) (NothingElse retrying) labels { config := c } →
      AllSteps (History.step u retrying)
        (fun label h => OnAct
          (fun _ _ o _ => Op.AllDue (c.shared.redis.delayedOf retrying) retrying o) label h.config)
        labels { config := c } →
      (run (History.step u retrying) labels { config := c }).taken.Pairwise
        fun a b => dueTimes c retrying a < dueTimes c retrying b := by
  intro h
  obtain ⟨hsteps, htaken⟩ := takes_late
  have horder := h .ascii false lateConfig rfl distinct_late lateSteps
    (hsteps.mono fun _ _ hallowed => hallowed.1) (hsteps.mono fun _ _ hallowed => hallowed.2)
  rw [htaken] at horder
  have hlast := (List.pairwise_cons.mp (List.pairwise_cons.mp horder).2).1 (lateName 1) (by simp)
  rw [dueTimes_late (by omega), dueTimes_late (by omega)] at hlast
  omega

end FetchTask.Queue
