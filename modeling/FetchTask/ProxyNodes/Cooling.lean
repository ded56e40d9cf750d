import FetchTask.ProxyNodes

/-!
How long a node cools down.

A reader of the reports keeps two things of a node: until when it was sentenced to
cool down, the latest deadline since Doubao last succeeded through it, and when it
last could not be measured, if nothing better is known since. The tables say the
same, although they drop deadlines that have passed and overwrite the others.
-/

namespace FetchTask.ProxyNodes

open Runs

/-- What a reader of the reports keeps of a node. -/
structure Record where
  cooldown : Rat := 0
  failed : Option Rat := none

def Record.sentenced (now : Rat) (seconds : Int) (r : Record) : Record where
  cooldown := max r.cooldown (now + max 1 seconds)
  failed := some now

/-- The seconds of cooldown that a report leads to. -/
def Report.sentence (now : Rat) (node : String) (s : Nodes) : Report → Option Int
  | .unavailable cooldownSeconds _ => some cooldownSeconds
  | .gatewayFailure status =>
    if (recordNodeGatewayFailure now node status s).1 then some nodeGatewayFailureCooldownSeconds
    else none
  | .doubaoVerification account =>
    if 0 < (recordNodeDoubaoVerification now node account s).1 then
      some (recordNodeDoubaoVerification now node account s).1
    else none
  | _ => none

def Record.after (now : Rat) (node : String) (s : Nodes) (report : Report) (r : Record) : Record :=
  match report.sentence now node s, report with
  | some seconds, _ => r.sentenced now seconds
  | none, .doubaoSuccess => {}
  | none, .measured (some _) => { r with failed := none }
  | none, .measured none => { r with failed := some now }
  | none, _ => r

/-- The seconds until the node may be used again, rounded up. -/
def Record.remaining (now : Rat) (r : Record) : Int :=
  if now < r.cooldown then max 1 ⌈r.cooldown - now⌉
  else
    match r.failed with
    | some failedAt => max 0 ⌈nodeFailureCooldownSeconds - (now - failedAt)⌉
    | none => 0

/-- The world and what the reader keeps of each node. -/
structure Read where
  world : World
  records : String → Record

def Read.new (now : Rat) : Read := ⟨⟨now, .new⟩, fun _ => {}⟩

def Read.step (event : Event) (p : Read) : Read where
  world := ProxyNodes.step event p.world
  records := match event with
    | .pass _ => p.records
    | .report node report =>
      Function.update p.records node ((p.records node).after p.world.now node p.world.nodes report)
    | .forgetDelays => fun node => { p.records node with failed := none }

/-! ### What a failure and a verification do -/

/-- A failure of a gateway leaves the cooldowns as they are, or marks the node. -/
theorem recordNodeGatewayFailure_cases (now : Rat) (node : String) (status : Int) (s : Nodes) :
    ((recordNodeGatewayFailure now node status s).1 = false ∧
      (recordNodeGatewayFailure now node status s).2.cooldowns = s.cooldowns ∧
      (recordNodeGatewayFailure now node status s).2.delays = s.delays) ∨
    ∃ reason, (recordNodeGatewayFailure now node status s).1 = true ∧
      (recordNodeGatewayFailure now node status s).2.cooldowns =
        (markNodeUnavailable now node nodeGatewayFailureCooldownSeconds reason s).cooldowns ∧
      (recordNodeGatewayFailure now node status s).2.delays =
        (markNodeUnavailable now node nodeGatewayFailureCooldownSeconds reason s).delays := by
  by_cases hcall : node = "" ∨ status ∉ [502, 503, 504]
  · rw [recordNodeGatewayFailure, if_pos hcall]
    exact .inl ⟨rfl, rfl, rfl⟩
  · have hnode : node ≠ "" := fun h => hcall (.inl h)
    rw [recordNodeGatewayFailure, if_neg hcall]
    simp only [markNodeUnavailable, if_neg hnode]
    generalize (if now - ((s.gatewayFailures node).getD (0, 0)).2 ≤ nodeGatewayFailureWindowSeconds
      then ((s.gatewayFailures node).getD (0, 0)).1 + 1 else 1) = count
    by_cases hcount : count < nodeGatewayFailureThreshold
    · rw [if_pos hcount]
      exact .inl ⟨rfl, rfl, rfl⟩
    · rw [if_neg hcount]
      exact .inr ⟨_, rfl, rfl, rfl⟩

/-- And so does a verification. -/
theorem recordNodeDoubaoVerification_cases (now : Rat) (node account : String) (s : Nodes) :
    ((recordNodeDoubaoVerification now node account s).1 = 0 ∧
      (recordNodeDoubaoVerification now node account s).2.cooldowns = s.cooldowns ∧
      (recordNodeDoubaoVerification now node account s).2.delays = s.delays) ∨
    ∃ reason, 0 < (recordNodeDoubaoVerification now node account s).1 ∧
      (recordNodeDoubaoVerification now node account s).2.cooldowns = (markNodeUnavailable now node
        (recordNodeDoubaoVerification now node account s).1 reason s).cooldowns ∧
      (recordNodeDoubaoVerification now node account s).2.delays = (markNodeUnavailable now node
        (recordNodeDoubaoVerification now node account s).1 reason s).delays := by
  by_cases hcall : node = "" ∨ account = ""
  · rw [recordNodeDoubaoVerification, if_pos hcall]
    exact .inl ⟨rfl, rfl, rfl⟩
  · have hnode : node ≠ "" := fun h => hcall (.inl h)
    rw [recordNodeDoubaoVerification, if_neg hcall]
    simp only [markNodeUnavailable, if_neg hnode]
    generalize (if nodeDoubaoVerificationStrikeTtlSeconds <
        now - ((s.doubaoVerificationStrikes node).getD (0, 0)).2 then 0
      else ((s.doubaoVerificationStrikes node).getD (0, 0)).1) = strikes
    split
    · exact .inl ⟨rfl, rfl, rfl⟩
    · refine .inr ⟨_, ?_, rfl, rfl⟩
      simp only
      split <;> decide

/-! ### The tables and the record of one node -/

variable {now : Rat} {node other : String} {s s' : Nodes} {r : Record}

/-- The tables have the deadline and the failure of the record. -/
structure Kept (now : Rat) (node : String) (s : Nodes) (r : Record) : Prop where
  cooldown : match s.cooldowns node with
    | some (deadline, _) => deadline = r.cooldown ∧ 0 < deadline
    | none => r.cooldown ≤ now
  delays : match s.delays node with
    | some (none, checkedAt) => r.failed = some checkedAt ∧ 0 < checkedAt
    | _ => r.failed = none

theorem Kept.deadline_lt_iff (h : Kept now node s r) (hnow : 0 < now) :
    now < s.deadline node ↔ now < r.cooldown := by
  have hcooldown := h.cooldown
  rw [Nodes.deadline]
  cases hget : s.cooldowns node with
  | none =>
    simp only [hget] at hcooldown
    simp [not_lt.mpr hcooldown, hnow.le]
  | some item =>
    simp only [hget] at hcooldown
    simp [hcooldown.1]

theorem Kept.retryAfter (h : Kept now node s r) (hnow : 0 < now) (hnode : node ≠ "") :
    (nodeRetryAfter now node s).1 = r.remaining now := by
  rw [nodeRetryAfter, if_neg hnode, Record.remaining]
  by_cases hlt : now < r.cooldown
  · rw [if_pos ((h.deadline_lt_iff hnow).mpr hlt), if_pos hlt]
    have hcooldown := h.cooldown
    cases hget : s.cooldowns node with
    | none =>
      simp only [hget] at hcooldown
      exact absurd hlt (not_lt.mpr hcooldown)
    | some item =>
      simp only [hget] at hcooldown
      simp [Nodes.deadline, hget, hcooldown.1]
  · rw [if_neg (fun h' => hlt ((h.deadline_lt_iff hnow).mp h')), if_neg hlt]
    have hdelays := h.delays
    simp only
    cases hget : s.delays node with
    | none =>
      simp only [hget] at hdelays
      simp [hdelays]
    | some item =>
      obtain ⟨delay, checkedAt⟩ := item
      cases delay with
      | none =>
        simp only [hget] at hdelays
        simp [hdelays.1, hdelays.2]
      | some delay =>
        simp only [hget] at hdelays
        simp [hdelays]

/-- Nothing that the record is about has changed. -/
theorem Kept.congr (h : Kept now node s r) (hcooldowns : s'.cooldowns node = s.cooldowns node)
    (hdelays : s'.delays node = s.delays node) : Kept now node s' r where
  cooldown := by
    rw [hcooldowns]
    exact h.cooldown
  delays := by
    rw [hdelays]
    exact h.delays

theorem Kept.marked (h : Kept now node s r) (hnow : 0 < now) (hnode : node ≠ "") (seconds : Int)
    (reason : String) :
    Kept now node (markNodeUnavailable now node seconds reason s) (r.sentenced now seconds) := by
  have hpos : (0 : Rat) < now + max 1 seconds := by
    have hone : (1 : Rat) ≤ max 1 seconds := by exact_mod_cast le_max_left (1 : Int) seconds
    linarith
  rw [markNodeUnavailable, if_neg hnode]
  refine ⟨?_, ?_⟩
  · have hcooldown := h.cooldown
    have hdeadline : s.deadline node = ((s.cooldowns node).map Prod.fst).getD 0 := rfl
    simp only [Record.sentenced]
    cases hget : s.cooldowns node with
    | none =>
      simp only [hget] at hcooldown hdeadline
      have hle : s.deadline node ≤ now + max 1 seconds := by
        rw [hdeadline]
        exact hpos.le
      have hmax : max r.cooldown (now + max 1 seconds) = now + max 1 seconds :=
        max_eq_right (hcooldown.trans (by
          have hone : (1 : Rat) ≤ max 1 seconds := by exact_mod_cast le_max_left (1 : Int) seconds
          linarith))
      simp only [if_pos hle, Function.update_self, hmax]
      exact ⟨trivial, hpos⟩
    | some item =>
      obtain ⟨deadline, old⟩ := item
      simp only [hget] at hcooldown hdeadline
      have hd : s.deadline node = deadline := hdeadline
      by_cases hle : s.deadline node ≤ now + max 1 seconds
      · have hmax : max r.cooldown (now + max 1 seconds) = now + max 1 seconds :=
          max_eq_right (hcooldown.1 ▸ hd ▸ hle)
        simp only [if_pos hle, Function.update_self, hmax]
        exact ⟨trivial, hpos⟩
      · have hmax : max r.cooldown (now + max 1 seconds) = deadline := by
          rw [← hcooldown.1]
          exact max_eq_left (hd ▸ (not_le.mp hle).le)
        simp only [if_neg hle, hget, hmax]
        exact ⟨trivial, hcooldown.2⟩
  · simp only [Function.update_self]
    exact ⟨rfl, hnow⟩

theorem Kept.failed_after (h : Kept now node s r) (hcooldowns : s'.cooldowns node = s.cooldowns node)
    (hnow : 0 < now) (hdelays : s'.delays node = some (none, now)) :
    Kept now node s' { r with failed := some now } where
  cooldown := by
    rw [hcooldowns]
    exact h.cooldown
  delays := by
    rw [hdelays]
    exact ⟨rfl, hnow⟩

/-- A delay of the node is known, or nothing is. -/
theorem Kept.alive (h : Kept now node s r) (hcooldowns : s'.cooldowns node = s.cooldowns node)
    (hdelays : ∀ checkedAt, s'.delays node ≠ some (none, checkedAt)) :
    Kept now node s' { r with failed := none } where
  cooldown := by
    rw [hcooldowns]
    exact h.cooldown
  delays := by
    cases hget : s'.delays node with
    | none => rfl
    | some item =>
      obtain ⟨delay, checkedAt⟩ := item
      cases delay with
      | none => exact absurd hget (hdelays checkedAt)
      | some delay => rfl

theorem Kept.failed_iff (h : Kept now node s r) {at_ : Rat} :
    r.failed = some at_ ↔ s.delays node = some (none, at_) := by
  have hdelays := h.delays
  cases hget : s.delays node with
  | none =>
    simp only [hget] at hdelays
    simp [hdelays]
  | some item =>
    obtain ⟨delay, checkedAt⟩ := item
    cases delay with
    | none =>
      simp only [hget] at hdelays
      simp [hdelays.1]
    | some delay =>
      simp only [hget] at hdelays
      simp [hdelays]

/-- Asking drops a deadline only when it has passed. -/
theorem Kept.asked (h : Kept now node s r) (hnow : 0 < now) :
    Kept now node (nodeRetryAfter now node s).2 r := by
  rw [nodeRetryAfter]
  split
  · exact h
  split
  · exact h
  · rename_i hlt
    have hkept : Kept now node { s with
        cooldowns := if s.deadline node = 0 then s.cooldowns
          else Function.update s.cooldowns node none } r := by
      split
      · exact h.congr rfl rfl
      · refine ⟨?_, h.delays⟩
        simp only [Function.update_self]
        exact not_lt.mp fun h' => hlt ((h.deadline_lt_iff hnow).mpr h')
    simp only
    split
    · split <;> exact hkept
    · exact hkept

theorem Kept.gatewayFailure (h : Kept now node s r) (hnow : 0 < now) (hnode : node ≠ "")
    (status : Int) : Kept now node (recordNodeGatewayFailure now node status s).2
      (if (recordNodeGatewayFailure now node status s).1 then
        r.sentenced now nodeGatewayFailureCooldownSeconds else r) := by
  obtain ⟨hfalse, hcooldowns, hdelays⟩ | ⟨reason, htrue, hcooldowns, hdelays⟩ :=
    recordNodeGatewayFailure_cases now node status s
  · rw [hfalse]
    exact h.congr (congrFun hcooldowns node) (congrFun hdelays node)
  · rw [htrue]
    exact (h.marked hnow hnode _ reason).congr (congrFun hcooldowns node) (congrFun hdelays node)

theorem Kept.doubaoVerification (h : Kept now node s r) (hnow : 0 < now) (hnode : node ≠ "")
    (account : String) : Kept now node (recordNodeDoubaoVerification now node account s).2
      (if 0 < (recordNodeDoubaoVerification now node account s).1 then
        r.sentenced now (recordNodeDoubaoVerification now node account s).1 else r) := by
  obtain ⟨hzero, hcooldowns, hdelays⟩ | ⟨reason, hpos, hcooldowns, hdelays⟩ :=
    recordNodeDoubaoVerification_cases now node account s
  · rw [hzero, if_neg (lt_irrefl 0)]
    exact h.congr (congrFun hcooldowns node) (congrFun hdelays node)
  · rw [if_pos hpos]
    exact (h.marked hnow hnode _ reason).congr (congrFun hcooldowns node) (congrFun hdelays node)

theorem Kept.doubaoSuccess (hnow : 0 < now) (hnode : node ≠ "") :
    Kept now node (recordNodeDoubaoSuccess now node s) {} := by
  rw [recordNodeDoubaoSuccess, if_neg hnode]
  refine ⟨?_, ?_⟩
  · simp only [Function.update_self]
    exact hnow.le
  · simp only [Function.update_self]
    cases s.lastGood node <;> trivial

theorem Kept.measured (h : Kept now node s r) (hnow : 0 < now) (delay : Option Nat) :
    Kept now node (recordDelay now node delay s)
      { r with failed := if delay.isSome then none else some now } := by
  cases delay with
  | none => exact h.failed_after rfl hnow (by simp [recordDelay])
  | some delay => exact h.alive rfl fun checkedAt => by simp [recordDelay]

theorem Kept.loaded (h : Kept now node s r) (measuredAt : Rat) (delay : Nat) :
    Kept now node (loadDelay measuredAt node delay s) r := by
  refine ⟨h.cooldown, ?_⟩
  have hdelays := h.delays
  rw [loadDelay]
  simp only
  cases hget : s.delays node with
  | none =>
    simp only [hget] at hdelays
    simp [hdelays]
  | some item =>
    simp only [hget] at hdelays
    simpa [hget] using hdelays

theorem Kept.after (h : Kept now node s r) (hnow : 0 < now) (hnode : node ≠ "") (report : Report) :
    Kept now node (report.apply now node s) (r.after now node s report) := by
  cases report with
  | unavailable seconds reason => exact h.marked hnow hnode seconds reason
  | gatewayFailure status =>
    have hkept := h.gatewayFailure hnow hnode status
    simp only [Record.after, Report.sentence]
    by_cases hmarked : (recordNodeGatewayFailure now node status s).1 = true
    · rw [if_pos hmarked] at hkept ⊢
      exact hkept
    · rw [if_neg hmarked] at hkept ⊢
      exact hkept
  | success =>
    simp only [Report.apply, recordNodeSuccess, if_neg hnode]
    exact h.congr rfl rfl
  | doubaoVerification account =>
    have hkept := h.doubaoVerification hnow hnode account
    simp only [Record.after, Report.sentence]
    by_cases hmarked : 0 < (recordNodeDoubaoVerification now node account s).1
    · rw [if_pos hmarked] at hkept ⊢
      exact hkept
    · rw [if_neg hmarked] at hkept ⊢
      exact hkept
  | doubaoSuccess => exact Kept.doubaoSuccess hnow hnode
  | measured delay =>
    have hkept := h.measured hnow delay
    cases delay <;> exact hkept
  | loaded measuredAt delay => exact h.loaded measuredAt delay
  | asked => exact h.asked hnow

/-! ### Other nodes -/

theorem markNodeUnavailable_of_ne (h : node ≠ other) (seconds : Int) (reason : String) :
    (markNodeUnavailable now other seconds reason s).cooldowns node = s.cooldowns node ∧
      (markNodeUnavailable now other seconds reason s).delays node = s.delays node := by
  rw [markNodeUnavailable]
  split
  · exact ⟨rfl, rfl⟩
  · refine ⟨?_, Function.update_of_ne h _ _⟩
    simp only
    split
    · exact Function.update_of_ne h _ _
    · rfl

/-- A report is about one node. -/
theorem Report.apply_of_ne (h : node ≠ other) (report : Report) :
    (report.apply now other s).cooldowns node = s.cooldowns node ∧
      (report.apply now other s).delays node = s.delays node := by
  cases report with
  | unavailable seconds reason => exact markNodeUnavailable_of_ne h seconds reason
  | gatewayFailure status =>
    obtain ⟨-, hcooldowns, hdelays⟩ | ⟨reason, -, hcooldowns, hdelays⟩ :=
      recordNodeGatewayFailure_cases now other status s
    · exact ⟨congrFun hcooldowns node, congrFun hdelays node⟩
    · obtain ⟨hcooldown, hdelay⟩ := markNodeUnavailable_of_ne h _ reason
      exact ⟨(congrFun hcooldowns node).trans hcooldown, (congrFun hdelays node).trans hdelay⟩
  | success =>
    rw [Report.apply, recordNodeSuccess]
    split <;> exact ⟨rfl, rfl⟩
  | doubaoVerification account =>
    obtain ⟨-, hcooldowns, hdelays⟩ | ⟨reason, -, hcooldowns, hdelays⟩ :=
      recordNodeDoubaoVerification_cases now other account s
    · exact ⟨congrFun hcooldowns node, congrFun hdelays node⟩
    · obtain ⟨hcooldown, hdelay⟩ := markNodeUnavailable_of_ne h _ reason
      exact ⟨(congrFun hcooldowns node).trans hcooldown, (congrFun hdelays node).trans hdelay⟩
  | doubaoSuccess =>
    rw [Report.apply, recordNodeDoubaoSuccess]
    split
    · exact ⟨rfl, rfl⟩
    · exact ⟨Function.update_of_ne h _ _, Function.update_of_ne h _ _⟩
  | measured delay => exact ⟨rfl, Function.update_of_ne h _ _⟩
  | loaded measuredAt delay =>
    refine ⟨rfl, ?_⟩
    simp only [Report.apply, loadDelay]
    split
    · rfl
    · exact Function.update_of_ne h _ _
  | asked =>
    rw [Report.apply, nodeRetryAfter]
    split
    · exact ⟨rfl, rfl⟩
    split
    · exact ⟨rfl, rfl⟩
    · have hcooldowns : (if s.deadline other = 0 then s.cooldowns
          else Function.update s.cooldowns other none) node = s.cooldowns node := by
        split
        · rfl
        · exact Function.update_of_ne h _ _
      simp only
      split
      · split <;> exact ⟨hcooldowns, rfl⟩
      · exact ⟨hcooldowns, rfl⟩

/-! ### Runs -/

/-- The clock has started, and the tables have what the reader keeps of each node. -/
structure Read.Kept (p : Read) : Prop where
  now_pos : 0 < p.world.now
  kept : ∀ node, node ≠ "" → ProxyNodes.Kept p.world.now node p.world.nodes (p.records node)

theorem Read.Kept.step {p : Read} (h : p.Kept) (event : Event) : (Read.step event p).Kept := by
  cases event with
  | pass time =>
    simp only [Read.step, ProxyNodes.step]
    split
    · rename_i hle
      -- a deadline that the tables have dropped only gets older
      refine ⟨h.now_pos.trans_le hle, fun node hnode => ⟨?_, (h.kept node hnode).delays⟩⟩
      have hcooldown := (h.kept node hnode).cooldown
      simp only
      cases hget : p.world.nodes.cooldowns node with
      | none =>
        simp only [hget] at hcooldown
        exact hcooldown.trans hle
      | some item =>
        simp only [hget] at hcooldown
        exact hcooldown
    · exact ⟨h.now_pos, h.kept⟩
  | report other report =>
    refine ⟨h.now_pos, fun node hnode => ?_⟩
    by_cases hother : node = other
    · subst hother
      have hkept := (h.kept node hnode).after h.now_pos hnode report
      rw [Read.step, ProxyNodes.step]
      simp only [Function.update_self]
      exact hkept
    · obtain ⟨hcooldowns, hdelays⟩ := report.apply_of_ne hother
      rw [Read.step, ProxyNodes.step]
      simp only [Function.update_of_ne hother]
      exact (h.kept node hnode).congr hcooldowns hdelays
  | forgetDelays =>
    -- the failures were in the table of delays
    refine ⟨h.now_pos, fun node hnode => (h.kept node hnode).alive rfl fun checkedAt => ?_⟩
    exact Option.some_ne_none _ |>.symm

theorem Read.Kept.later {p : Read} (h : p.Kept) (events : List Event) :
    (run Read.step events p).Kept :=
  (throughout_of_step (fun event _ h => h.step event) h).final

theorem Read.Kept.new {now : Rat} (hnow : 0 < now) : (Read.new now).Kept :=
  ⟨hnow, fun _ _ => ⟨hnow.le, rfl⟩⟩

theorem kept_throughout {now : Rat} (hnow : 0 < now) (events : List Event) :
    Throughout Read.step Read.Kept events (Read.new now) :=
  throughout_of_step (fun event _ h => h.step event) (.new hnow)

/-- Whenever anybody asks, what a node is said to have left of its cooldown is what the reports
so far come to: the latest deadline since Doubao last succeeded through it, and after that the rest
of the ninety seconds since it could last not be measured. -/
theorem cooling_exact (now : Rat) (hnow : 0 < now) (events : List Event) :
    Throughout Read.step (fun p => ∀ node, node ≠ "" →
      (nodeRetryAfter p.world.now node p.world.nodes).1 = (p.records node).remaining p.world.now)
      events (Read.new now) :=
  (kept_throughout hnow events).mono fun _ h node hnode =>
    (h.kept node hnode).retryAfter h.now_pos hnode

theorem cooling_exact_sample :
    Throughout Read.step (fun p => ∀ node, node ≠ "" →
      (nodeRetryAfter p.world.now node p.world.nodes).1 = (p.records node).remaining p.world.now)
      [.report "node" (.unavailable 60 "proxy_transport"), .pass 70, .report "node" .asked]
      (Read.new 10) :=
  cooling_exact 10 (by norm_num) _

/-! ### Coming back when told to -/

theorem Record.remaining_nonneg (now : Rat) (r : Record) : 0 ≤ r.remaining now := by
  rw [Record.remaining]
  split
  · exact zero_le_one.trans (le_max_left _ _)
  · split
    · exact le_max_left _ _
    · exact le_refl 0

theorem Record.remaining_eq_zero_iff (now : Rat) (r : Record) : r.remaining now = 0 ↔
    r.cooldown ≤ now ∧ ∀ failedAt, r.failed = some failedAt →
      failedAt + nodeFailureCooldownSeconds ≤ now := by
  rw [Record.remaining]
  by_cases hlt : now < r.cooldown
  · rw [if_pos hlt]
    -- one second at least is told of a deadline that lies ahead
    refine iff_of_false (fun h => ?_) fun h => absurd hlt (not_lt.mpr h.1)
    exact absurd h (zero_lt_one.trans_le (le_max_left (1 : Int) _)).ne'
  · rw [if_neg hlt]
    cases hfailed : r.failed with
    | none => simpa using not_lt.mp hlt
    | some failedAt =>
      have hceil : max 0 ⌈nodeFailureCooldownSeconds - (now - failedAt)⌉ = 0 ↔
          failedAt + nodeFailureCooldownSeconds ≤ now := by
        rw [max_eq_left_iff, Int.ceil_le, Int.cast_zero]
        constructor <;> intro h <;> linarith
      simp only [hceil, not_lt.mp hlt, true_and, Option.some.injEq, forall_eq']

/-- Whoever waits as long as told outlasts what the answer was about. -/
theorem Record.waited (r : Record) {now later : Rat} (h : now + r.remaining now ≤ later) :
    r.cooldown ≤ later ∧ (r.cooldown ≤ now → ∀ failedAt, r.failed = some failedAt →
      failedAt + nodeFailureCooldownSeconds ≤ later) := by
  have hnonneg : (0 : Rat) ≤ r.remaining now := by exact_mod_cast r.remaining_nonneg now
  by_cases hlt : now < r.cooldown
  · refine ⟨?_, fun hle => absurd hlt (not_lt.mpr hle)⟩
    rw [Record.remaining, if_pos hlt] at h
    have hceil : r.cooldown - now ≤ (max 1 ⌈r.cooldown - now⌉ : Int) :=
      (Int.le_ceil _).trans (by exact_mod_cast le_max_right _ _)
    linarith
  · refine ⟨by linarith [not_lt.mp hlt], fun _ failedAt hfailed => ?_⟩
    simp only [Record.remaining, if_neg hlt, hfailed] at h
    have hceil : nodeFailureCooldownSeconds - (now - failedAt) ≤
        (max 0 ⌈nodeFailureCooldownSeconds - (now - failedAt)⌉ : Int) :=
      (Int.le_ceil _).trans (by exact_mod_cast le_max_right _ _)
    linarith

/-- Time passes, other nodes are reported on, and this one is only asked for. -/
def Event.Quiet (node : String) : Event → Prop
  | .pass _ => True
  | .report other news => other ≠ node ∨ news = .asked
  | .forgetDelays => False

theorem records_of_quiet (quiet : List Event) (h : ∀ event ∈ quiet, event.Quiet node) (p : Read) :
    (run Read.step quiet p).records node = p.records node := by
  induction quiet generalizing p with
  | nil => rfl
  | cons event quiet ih =>
    rw [run, ih fun event' hmem => h event' (List.mem_cons_of_mem _ hmem)]
    have hevent := h event List.mem_cons_self
    cases event with
    | pass time => rfl
    | report other report =>
      by_cases hother : node = other
      · obtain hne | rfl := hevent
        · exact absurd hother.symm hne
        · subst hother
          exact Function.update_self ..
      · exact Function.update_of_ne hother _ _
    | forgetDelays => exact absurd hevent id

/-- Whoever comes back after the time that was told, and nothing was reported of the node in
between, finds it free, except that a node whose cooldown was told of stays away for ninety seconds
after it failed, however short the cooldown. -/
theorem told_iff (now : Rat) (hnow : 0 < now) (events : List Event) :
    Throughout Read.step (fun p => ∀ node, node ≠ "" → ∀ quiet, (∀ event ∈ quiet, event.Quiet node) →
      p.world.now + (nodeRetryAfter p.world.now node p.world.nodes).1 ≤
        (run Read.step quiet p).world.now →
      ((nodeRetryAfter (run Read.step quiet p).world.now node (run Read.step quiet p).world.nodes).1 = 0 ↔
        (p.world.now < (p.records node).cooldown → ∀ failedAt, (p.records node).failed = some failedAt →
          failedAt + nodeFailureCooldownSeconds ≤ (run Read.step quiet p).world.now)))
      events (Read.new now) := by
  refine (kept_throughout hnow events).mono fun p h node hnode quiet hquiet hwaited => ?_
  have hlater := h.later quiet
  rw [(h.kept node hnode).retryAfter h.now_pos hnode] at hwaited
  rw [(hlater.kept node hnode).retryAfter hlater.now_pos hnode, records_of_quiet quiet hquiet p,
    Record.remaining_eq_zero_iff]
  obtain ⟨hcooldown, hfailed⟩ := (p.records node).waited hwaited
  constructor
  · rintro ⟨-, hfree⟩ -
    exact hfree
  · intro hfree
    refine ⟨hcooldown, ?_⟩
    -- the answer was about the failure only if the deadline had passed
    by_cases hlt : p.world.now < (p.records node).cooldown
    · exact hfree hlt
    · exact hfailed (not_lt.mp hlt)

/-- Sixty seconds are told of, and after sixty seconds thirty are left. -/
theorem told_sample :
    (nodeRetryAfter 70 "node" (markNodeUnavailable 10 "node" 60 "transport_failure" .new)).1 ≠ 0 := by
  have hiff := (told_iff 10 (by norm_num)
    [.report "node" (.unavailable 60 "transport_failure")]).final "node" (by decide) [.pass 70]
    (fun event hmem => by
      obtain rfl := List.mem_singleton.mp hmem
      trivial) (by decide +kernel)
  have hrecord : ((run Read.step [.report "node" (.unavailable 60 "transport_failure")]
      (Read.new 10)).records "node") = ⟨70, some 10⟩ := by
    simp [run, Read.step, Read.new, Record.after, Report.sentence, Record.sentenced]
    norm_num
  rw [hrecord] at hiff
  intro hzero
  exact absurd (hiff.mp hzero (by decide +kernel) 10 rfl) (by decide +kernel)

end FetchTask.ProxyNodes
