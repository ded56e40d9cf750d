import FetchTask.ProxyNodes.Cooling
import FetchTask.TaskMihomo
import Mathlib.Data.List.MinMax
import Mathlib.Data.Prod.Lex

/-!
The choice of a node (`_choose_subscription_node` of `app/proxy_manager.py`).

The nodes that may be chosen are gathered at once, but where no delay is known they
are measured first, and while that goes on anything can be reported. The measurement
can raise, where mihomo does not start, and the call raises with it. What is chosen
then was free when the choice began and is fast enough when it ends, so it can only
be cooling down because something was reported meanwhile.
-/

namespace FetchTask.ProxyNodes

open Runs TaskMihomo

structure ChoiceRequest where
  autoSelect : Bool := false
  selectedNode : String := ""
  selectedCountries : List String := []
  latencyThresholdMs : Int
  excludedNodeIds : List String := []
  randomSelect : Bool := false
  preferCountryOrder : Bool := false
  excludedCountries : List String := []

/-- The texts that are not blank, stripped, each once, in the order they come in. -/
def countryOrder (u : Chars) (r : ChoiceRequest) : List String :=
  ((r.selectedCountries.map u.strip).filter (· != "")).eraseDups

def eligible (u : Chars) (r : ChoiceRequest) (nodes : List ProxyNode) : List ProxyNode :=
  let countries := countryOrder u r
  let eligible :=
    if r.autoSelect then nodes.filter fun node => !countries.isEmpty && node.country ∈ countries
    else if r.randomSelect then
      nodes.filter fun node => countries.isEmpty || node.country ∈ countries
    else nodes
  eligible.filter fun node => node.country ∉ strippedSet u r.excludedCountries

/-- The nodes that are not excluded and not cooling down, each of them asked for. -/
def selectable (now : Rat) (excluded : List String) : List ProxyNode → Nodes → List ProxyNode × Nodes
  | [], s => ([], s)
  | node :: nodes, s =>
    if node.id ∈ excluded then selectable now excluded nodes s
    else
      let asked := nodeRetryAfter now node.id s
      let rest := selectable now excluded nodes asked.2
      (if 0 < asked.1 then rest.1 else node :: rest.1, rest.2)

/-- A delay that was found a short time ago. -/
def freshDelay (now : Rat) (node : String) (s : Nodes) : Option Nat :=
  match s.delays node with
  | some (some delay, measuredAt) =>
    if now - measuredAt < nodeDelayTtlSeconds then some delay else none
  | _ => none

def knownDelay (node : String) (s : Nodes) : Option Nat := (s.delays node).bind Prod.fst

/-- The nodes with a delay, and the delays. -/
def withDelay (delay : String → Option Nat) (nodes : List ProxyNode) : List (Nat × ProxyNode) :=
  nodes.filterMap fun node => (delay node.id).map (·, node)

/-- `available`: the nodes whose delay is fresh and below the threshold. -/
def quick (now : Rat) (r : ChoiceRequest) (nodes : List ProxyNode) (s : Nodes) :
    List (Nat × ProxyNode) :=
  (withDelay (freshDelay now · s) nodes).filter fun item => (item.1 : Int) ≤ r.latencyThresholdMs

/-- How a call goes on once the nodes are gathered. -/
inductive Gathered
  | done (outcome : Except String ProxyNode)
  /-- It waits for the delays of these nodes. -/
  | measuring (nodes : List ProxyNode)

/-- The choice by delay; `draw` is what `secrets.choice` draws. -/
def chooseByDelay (u : Chars) (now : Rat) (r : ChoiceRequest) (draw : Nat) (nodes : List ProxyNode)
    (s : Nodes) : Except String ProxyNode :=
  let available := quick now r nodes s
  let order := countryOrder u r
  let chosen :=
    if r.randomSelect then available[draw % available.length]?
    else if r.preferCountryOrder && !order.isEmpty then
      available.argmin fun item => toLex (order.idxOf item.2.country, item.1)
    else available.argmin fun item => item.1
  match chosen with
  | some item => .ok item.2
  | none =>
    if (withDelay (freshDelay now · s) nodes).isEmpty then
      .error "all eligible proxy nodes are unavailable"
    else .error "all eligible proxy nodes exceed the latency threshold"

/-- The node in place of a selected one that may not be used. -/
def chooseInstead (delay : String → Option Nat) (nodes : List ProxyNode) : Except String ProxyNode :=
  match (withDelay delay nodes).argmin fun item => item.1 with
  | some item => .ok item.2
  | none => .error "selected proxy node is unavailable"

def gather (u : Chars) (now : Rat) (r : ChoiceRequest) (draw : Nat) (nodes : List ProxyNode)
    (s : Nodes) : Gathered × Nodes :=
  let excluded := strippedSet u r.excludedNodeIds
  if (eligible u r nodes).isEmpty then
    (.done (.error (if r.autoSelect && (countryOrder u r).isEmpty then
      "automatic proxy selection requires at least one selected country"
    else "selected proxy countries contain no usable nodes")), s)
  else
    let (free, s) := selectable now excluded (eligible u r nodes) s
    match free with
    | [] =>
      (.done (.error (if excluded.isEmpty then "all eligible proxy nodes are temporarily unavailable"
        else "no alternative proxy node is currently available")), s)
    | first :: _ =>
      if r.autoSelect || r.randomSelect then
        if (withDelay (freshDelay now · s) free).isEmpty then (.measuring free, s)
        else (.done (chooseByDelay u now r draw free s), s)
      else
        match free.find? fun node => node.id = r.selectedNode with
        | some node => (.done (.ok node), s)
        | none =>
          if r.selectedNode = "" then (.done (.ok first), s)
          else if (withDelay (freshDelay now · s) free).isEmpty then (.measuring free, s)
          else (.done (chooseInstead (freshDelay now · s) free), s)

/-- What follows the measurement. -/
def afterMeasuring (u : Chars) (now : Rat) (r : ChoiceRequest) (draw : Nat) (nodes : List ProxyNode)
    (s : Nodes) : Except String ProxyNode :=
  if r.autoSelect || r.randomSelect then chooseByDelay u now r draw nodes s
  else chooseInstead (knownDelay · s) nodes

/-- A whole call, and the world it returns in. If it waits for the delays, `during` happens, and
`failure` is what `measure_node_delays` raises then, if it raises. -/
def chooseSubscriptionNode (u : Chars) (r : ChoiceRequest) (draw : Nat) (nodes : List ProxyNode)
    (during : List Event) (failure : Option String) (w : World) : Except String ProxyNode × World :=
  let (gathered, tables) := gather u w.now r draw nodes w.nodes
  let w := { w with nodes := tables }
  match gathered with
  | .done outcome => (outcome, w)
  | .measuring free =>
    let w := run step during w
    match failure with
    | some text => (.error text, w)
    | none => (afterMeasuring u w.now r draw free w.nodes, w)

/-! ### Gathering -/

variable {u : Chars} {r : ChoiceRequest} {draw : Nat} {nodes free : List ProxyNode}
  {node : ProxyNode} {excluded : List String} {p : Read}

theorem run_world (events : List Event) (p : Read) :
    (run Read.step events p).world = run step events p.world := by
  induction events generalizing p with
  | nil => rfl
  | cons event events ih => exact ih _

/-- Somebody asks for each of these nodes. -/
def asks (excluded : List String) (nodes : List ProxyNode) : List Event :=
  (nodes.filter fun node => node.id ∉ excluded).map fun node => .report node.id .asked

theorem asks_cons_of_not_mem (h : node.id ∉ excluded) (nodes : List ProxyNode) :
    asks excluded (node :: nodes) = .report node.id .asked :: asks excluded nodes := by
  simp [asks, h]

theorem asks_cons_of_mem (h : node.id ∈ excluded) (nodes : List ProxyNode) :
    asks excluded (node :: nodes) = asks excluded nodes := by
  simp [asks, h]

theorem Read.records_asked (p : Read) (id : String) :
    (Read.step (.report id .asked) p).records = p.records :=
  Function.update_eq_self id p.records

theorem records_asks (excluded : List String) (nodes : List ProxyNode) (p : Read) :
    (run Read.step (asks excluded nodes) p).records = p.records := by
  induction nodes generalizing p with
  | nil => rfl
  | cons node nodes ih =>
    by_cases hmem : node.id ∈ excluded
    · rw [asks_cons_of_mem hmem]
      exact ih p
    · rw [asks_cons_of_not_mem hmem, run, ih]
      exact p.records_asked node.id

theorem now_asks (excluded : List String) (nodes : List ProxyNode) (p : Read) :
    (run Read.step (asks excluded nodes) p).world.now = p.world.now := by
  induction nodes generalizing p with
  | nil => rfl
  | cons node nodes ih =>
    by_cases hmem : node.id ∈ excluded
    · rw [asks_cons_of_mem hmem]
      exact ih p
    · rw [asks_cons_of_not_mem hmem, run, ih]
      rfl

theorem selectable_tables (excluded : List String) (nodes : List ProxyNode) (p : Read) :
    (selectable p.world.now excluded nodes p.world.nodes).2 =
      (run Read.step (asks excluded nodes) p).world.nodes := by
  induction nodes generalizing p with
  | nil => rfl
  | cons node nodes ih =>
    by_cases hmem : node.id ∈ excluded
    · rw [asks_cons_of_mem hmem, selectable, if_pos hmem]
      exact ih p
    · rw [asks_cons_of_not_mem hmem, selectable, if_neg hmem]
      exact ih (Read.step (.report node.id .asked) p)

/-- What is left of a cooldown, by the record. -/
theorem Read.Kept.retryAfter_eq_zero_iff (h : p.Kept) (id : String) :
    (nodeRetryAfter p.world.now id p.world.nodes).1 = 0 ↔
      id = "" ∨ (p.records id).remaining p.world.now = 0 := by
  by_cases hid : id = ""
  · simp [nodeRetryAfter, hid]
  · rw [(h.kept id hid).retryAfter h.now_pos hid]
    simp [hid]

theorem nodeRetryAfter_nonneg (now : Rat) (id : String) (s : Nodes) :
    0 ≤ (nodeRetryAfter now id s).1 := by
  rw [nodeRetryAfter]
  split
  · exact le_refl 0
  split
  · exact zero_le_one.trans (le_max_left _ _)
  · simp only
    split
    · split
      · exact le_max_left _ _
      · exact le_refl 0
    · exact le_refl 0

/-- Asking for the nodes one after the other finds those that are free at the start. -/
theorem mem_selectable (h : p.Kept) :
    node ∈ (selectable p.world.now excluded nodes p.world.nodes).1 ↔
      node ∈ nodes ∧ node.id ∉ excluded ∧
        (nodeRetryAfter p.world.now node.id p.world.nodes).1 = 0 := by
  induction nodes generalizing p with
  | nil => simp [selectable]
  | cons first nodes ih =>
    by_cases hmem : first.id ∈ excluded
    · rw [selectable, if_pos hmem, ih h]
      constructor
      · rintro ⟨hin, hrest⟩
        exact ⟨List.mem_cons_of_mem _ hin, hrest⟩
      · rintro ⟨hin, hnot, hfree⟩
        obtain rfl | hin := List.mem_cons.mp hin
        · exact absurd hmem hnot
        · exact ⟨hin, hnot, hfree⟩
    · have hnext := h.step (.report first.id .asked)
      have hrest : node ∈ (selectable p.world.now excluded nodes
          (nodeRetryAfter p.world.now first.id p.world.nodes).2).1 ↔ node ∈ nodes ∧
            node.id ∉ excluded ∧ (nodeRetryAfter p.world.now node.id p.world.nodes).1 = 0 := by
        rw [h.retryAfter_eq_zero_iff, ← p.records_asked first.id]
        exact (ih hnext).trans (by rw [hnext.retryAfter_eq_zero_iff]; rfl)
      have hnonneg := nodeRetryAfter_nonneg p.world.now first.id p.world.nodes
      rw [selectable, if_neg hmem]
      by_cases hcooling : 0 < (nodeRetryAfter p.world.now first.id p.world.nodes).1
      · simp only [if_pos hcooling, hrest, List.mem_cons]
        constructor
        · rintro ⟨hin, hrest⟩
          exact ⟨.inr hin, hrest⟩
        · rintro ⟨rfl | hin, hnot, hfree⟩
          · exact absurd hfree hcooling.ne'
          · exact ⟨hin, hnot, hfree⟩
      · simp only [if_neg hcooling, List.mem_cons, hrest]
        constructor
        · rintro (rfl | ⟨hin, hrest⟩)
          · exact ⟨.inl rfl, hmem, le_antisymm (not_lt.mp hcooling) hnonneg⟩
          · exact ⟨.inr hin, hrest⟩
        · rintro ⟨rfl | hin, hrest⟩
          · exact .inl rfl
          · exact .inr ⟨hin, hrest⟩

/-! ### Choosing -/

variable {now : Rat} {s : Nodes} {delay : String → Option Nat}

theorem mem_withDelay {item : Nat × ProxyNode} :
    item ∈ withDelay delay nodes ↔ item.2 ∈ nodes ∧ delay item.2.id = some item.1 := by
  obtain ⟨found, node⟩ := item
  simp only [withDelay, List.mem_filterMap, Option.map_eq_some_iff, Prod.mk.injEq]
  constructor
  · rintro ⟨other, hmem, value, hvalue, rfl, rfl⟩
    exact ⟨hmem, hvalue⟩
  · rintro ⟨hmem, hvalue⟩
    exact ⟨node, hmem, found, hvalue, rfl, rfl⟩

/-- What a node is chosen by, apart from chance. -/
def rank (u : Chars) (r : ChoiceRequest) (item : Nat × ProxyNode) : Nat ×ₗ Nat :=
  toLex (if r.preferCountryOrder then (countryOrder u r).idxOf item.2.country else 0, item.1)

theorem mem_quick {item : Nat × ProxyNode} : item ∈ quick now r nodes s ↔
    item.2 ∈ nodes ∧ freshDelay now item.2.id s = some item.1 ∧
      (item.1 : Int) ≤ r.latencyThresholdMs := by
  simp [quick, mem_withDelay, and_assoc]

theorem chooseByDelay_ok (h : chooseByDelay u now r draw nodes s = .ok node) :
    ∃ found, (found, node) ∈ quick now r nodes s ∧
      (r.randomSelect = false → ∀ item ∈ quick now r nodes s, rank u r (found, node) ≤ rank u r item) := by
  simp only [chooseByDelay] at h
  split at h
  · rename_i item hchosen
    obtain ⟨found, chosen⟩ := item
    obtain rfl : chosen = node := Except.ok.inj h
    refine ⟨found, ?_⟩
    by_cases hrandom : r.randomSelect = true
    · rw [if_pos hrandom] at hchosen
      refine ⟨List.mem_of_getElem? hchosen, fun hfalse => ?_⟩
      rw [hrandom] at hfalse
      contradiction
    · rw [if_neg hrandom] at hchosen
      by_cases horder : (r.preferCountryOrder && !(countryOrder u r).isEmpty) = true
      · rw [if_pos horder] at hchosen
        refine ⟨List.argmin_mem hchosen, fun _ item hitem => ?_⟩
        have hprefer : r.preferCountryOrder = true := (Bool.and_eq_true_iff.mp horder).1
        have hle := List.le_of_mem_argmin hitem hchosen
        simp only [rank, hprefer, if_true]
        exact hle
      · rw [if_neg horder] at hchosen
        refine ⟨List.argmin_mem hchosen, fun _ item hitem => ?_⟩
        have hle : found ≤ item.1 := List.le_of_mem_argmin hitem hchosen
        have hfirst : ∀ other : Nat × ProxyNode, (if r.preferCountryOrder then
            (countryOrder u r).idxOf other.2.country else 0) = 0 := by
          intro other
          split
          · rename_i hprefer
            rw [hprefer, Bool.true_and, Bool.not_eq_true, Bool.not_eq_false',
              List.isEmpty_iff] at horder
            rw [horder]
            rfl
          · rfl
        exact Prod.Lex.toLex_le_toLex.mpr
          (.inr ⟨(hfirst (found, chosen)).trans (hfirst item).symm, hle⟩)
  · split at h <;> contradiction

/-- A choice by delay fails only if there is nothing to choose from. -/
theorem chooseByDelay_isOk : (∃ node, chooseByDelay u now r draw nodes s = .ok node) ↔
    ∃ item, item ∈ quick now r nodes s := by
  constructor
  · rintro ⟨node, h⟩
    obtain ⟨found, hmem, -⟩ := chooseByDelay_ok h
    exact ⟨_, hmem⟩
  · rintro ⟨item, hitem⟩
    simp only [chooseByDelay]
    split
    · exact ⟨_, rfl⟩
    · rename_i hnone
      have hlength : 0 < (quick now r nodes s).length := List.length_pos_of_mem hitem
      split at hnone
      · rw [List.getElem?_eq_none_iff] at hnone
        exact absurd (Nat.mod_lt draw hlength) (not_lt.mpr hnone)
      · split at hnone <;>
        · rw [List.argmin_eq_none] at hnone
          rw [hnone] at hitem
          contradiction

theorem chooseInstead_ok (h : chooseInstead delay nodes = .ok node) :
    node ∈ nodes ∧ ∃ found, delay node.id = some found := by
  rw [chooseInstead] at h
  split at h
  · rename_i item hchosen
    obtain ⟨hmem, hfound⟩ := mem_withDelay.mp (List.argmin_mem hchosen)
    obtain rfl : item.2 = node := Except.ok.inj h
    exact ⟨hmem, _, hfound⟩
  · contradiction

/-! ### A whole call -/

theorem freshDelay_known {now : Rat} {id : String} {s : Nodes} {found : Nat}
    (h : freshDelay now id s = some found) : knownDelay id s = some found := by
  rw [freshDelay] at h
  split at h
  · rename_i value measuredAt hget
    split at h
    · rw [knownDelay, hget]
      exact h
    · contradiction
  · contradiction

/-- The call returns after `before` and the part of `during` that it waited for. -/
def afterGather (u : Chars) (r : ChoiceRequest) (nodes : List ProxyNode) (p : Read) : Read :=
  if (eligible u r nodes).isEmpty then p
  else run Read.step (asks (strippedSet u r.excludedNodeIds) (eligible u r nodes)) p

/-- The nodes that may be chosen. -/
def freeNodes (u : Chars) (r : ChoiceRequest) (nodes : List ProxyNode) (w : World) :
    List ProxyNode :=
  (selectable w.now (strippedSet u r.excludedNodeIds) (eligible u r nodes) w.nodes).1

/-- No delay of these nodes was found a short time ago. -/
def Unmeasured (w : World) (nodes : List ProxyNode) : Prop :=
  ∀ node ∈ nodes, freshDelay w.now node.id w.nodes = none

/-- How a call ends, from what it gathered, whether it waited, and where it returns. -/
inductive Ended (u : Chars) (r : ChoiceRequest) (draw : Nat) (free : List ProxyNode)
    (failure : Option String) (start : World) (waited : Bool) (w : World) :
    Except String ProxyNode → Prop
  | none (text : String) : free = [] → Ended u r draw free failure start waited w (.error text)
  | raised (text : String) : failure = some text → Unmeasured start free →
      Ended u r draw free failure start waited w (.error text)
  | byDelay : r.autoSelect || r.randomSelect → (waited = true → failure = .none) →
      Ended u r draw free failure start waited w (chooseByDelay u w.now r draw free w.nodes)
  | selected (node : ProxyNode) : ¬ (r.autoSelect || r.randomSelect) → node ∈ free → waited = false →
      Ended u r draw free failure start waited w (.ok node)
  | instead (delay : String → Option Nat) : ¬ (r.autoSelect || r.randomSelect) →
      (∀ id found, delay id = some found → knownDelay id w.nodes = some found) →
      Ended u r draw free failure start waited w (chooseInstead delay free)

theorem unmeasured_of_isEmpty {w : World}
    (h : (withDelay (freshDelay w.now · w.nodes) free).isEmpty = true) : Unmeasured w free := by
  intro node hnode
  cases hfound : freshDelay w.now node.id w.nodes with
  | none => rfl
  | some found =>
    have hmem : (found, node) ∈ withDelay (freshDelay w.now · w.nodes) free :=
      mem_withDelay.mpr ⟨hnode, hfound⟩
    rw [List.isEmpty_iff.mp h] at hmem
    exact absurd hmem List.not_mem_nil

theorem gather_ended (u : Chars) (r : ChoiceRequest) (draw : Nat) (nodes : List ProxyNode)
    (failure : Option String) (p : Read) : (gather u p.world.now r draw nodes p.world.nodes).2 =
        (afterGather u r nodes p).world.nodes ∧
      match (gather u p.world.now r draw nodes p.world.nodes).1 with
      | .done outcome => Ended u r draw (freeNodes u r nodes p.world) failure
          (afterGather u r nodes p).world false (afterGather u r nodes p).world outcome
      | .measuring free => free = freeNodes u r nodes p.world ∧
          Unmeasured (afterGather u r nodes p).world free := by
  rw [gather, afterGather, freeNodes]
  by_cases hempty : (eligible u r nodes).isEmpty = true
  · rw [if_pos hempty, if_pos hempty]
    refine ⟨rfl, .none _ ?_⟩
    rw [List.isEmpty_iff.mp hempty, selectable]
  · rw [if_neg hempty, if_neg hempty]
    have htables := selectable_tables (strippedSet u r.excludedNodeIds) (eligible u r nodes) p
    have hnow := now_asks (strippedSet u r.excludedNodeIds) (eligible u r nodes) p
    revert htables hnow
    generalize run Read.step (asks (strippedSet u r.excludedNodeIds) (eligible u r nodes)) p = q
    generalize selectable p.world.now (strippedSet u r.excludedNodeIds) (eligible u r nodes)
      p.world.nodes = gathered
    rintro htables hnow
    obtain ⟨free, tables⟩ := gathered
    obtain rfl : tables = q.world.nodes := htables
    rw [← hnow]
    simp only
    split
    · exact ⟨rfl, .none _ rfl⟩
    · rename_i first rest
      by_cases hdelay : (r.autoSelect || r.randomSelect) = true
      · rw [if_pos hdelay]
        split
        · rename_i hunmeasured
          exact ⟨rfl, rfl, unmeasured_of_isEmpty hunmeasured⟩
        · exact ⟨rfl, .byDelay hdelay fun h => by cases h⟩
      · rw [if_neg hdelay]
        split
        · rename_i node hfind
          exact ⟨rfl, .selected node hdelay (List.mem_of_find?_eq_some hfind) rfl⟩
        · split
          · exact ⟨rfl, .selected first hdelay List.mem_cons_self rfl⟩
          · split
            · rename_i hunmeasured
              exact ⟨rfl, rfl, unmeasured_of_isEmpty hunmeasured⟩
            · exact ⟨rfl, .instead _ hdelay fun id found => freshDelay_known⟩

theorem chooseSubscriptionNode_ended (u : Chars) (r : ChoiceRequest) (draw : Nat)
    (nodes : List ProxyNode) (during : List Event) (failure : Option String) (p : Read) :
    ∃ waited : Bool,
      (chooseSubscriptionNode u r draw nodes during failure p.world).2 =
        (run Read.step (if waited then during else []) (afterGather u r nodes p)).world ∧
      Ended u r draw (freeNodes u r nodes p.world) failure (afterGather u r nodes p).world waited
        (chooseSubscriptionNode u r draw nodes during failure p.world).2
        (chooseSubscriptionNode u r draw nodes during failure p.world).1 := by
  obtain ⟨htables, hended⟩ := gather_ended u r draw nodes failure p
  have hworld : ({ p.world with nodes := (afterGather u r nodes p).world.nodes } : World) =
      (afterGather u r nodes p).world := by
    have hnow : p.world.now = (afterGather u r nodes p).world.now := by
      rw [afterGather]
      split
      · rfl
      · exact (now_asks ..).symm
    simp only [hnow]
  rw [chooseSubscriptionNode]
  simp only [htables, hworld]
  split at hended
  · rename_i outcome hdone
    exact ⟨false, rfl, hended⟩
  · rename_i free hmeasuring
    obtain ⟨rfl, hunmeasured⟩ := hended
    cases failure with
    | some text => exact ⟨true, (run_world ..).symm, .raised text rfl hunmeasured⟩
    | none =>
      refine ⟨true, (run_world ..).symm, ?_⟩
      simp only [afterMeasuring]
      by_cases hdelay : (r.autoSelect || r.randomSelect) = true
      · rw [if_pos hdelay]
        exact .byDelay hdelay fun _ => rfl
      · rw [if_neg hdelay]
        exact .instead _ hdelay fun id found h => h

/-! ### What is chosen -/

/-- Only a sentence moves a deadline on. -/
theorem Record.after_cooldown {now : Rat} {id : String} {s : Nodes} {report : Report}
    (h : report.sentence now id s = none) (c : Record) :
    (c.after now id s report).cooldown = c.cooldown ∨ (c.after now id s report).cooldown = 0 := by
  unfold Record.after
  rw [h]
  cases report with
  | doubaoSuccess => exact .inr rfl
  | measured delay => cases delay <;> exact .inl rfl
  | _ => exact .inl rfl

/-- A deadline that the node was given lies ahead. -/
def Read.Sentenced (id : String) (q : Read) : Prop := q.world.now < (q.records id).cooldown

/-- A node that may be chosen is still cooling down, or again, only if it was reported on while
the call waited. -/
theorem Read.Kept.sentenced_of_cooling {q : Read} (h : q.Kept) {id : String} (during : List Event)
    (hfree : (q.records id).cooldown ≤ q.world.now)
    (hcooling : (run Read.step during q).world.now < ((run Read.step during q).records id).cooldown) :
    ∃ before report after, during = before ++ .report id report :: after ∧
      (report.sentence (run Read.step before q).world.now id
        (run Read.step before q).world.nodes).isSome := by
  obtain ⟨before, event, after, hduring, hbefore, hturn⟩ :=
    exists_turn (Q := Read.Sentenced id) (not_lt.mpr hfree) hcooling
  have hkept := h.later before
  generalize hq : run Read.step before q = q' at hbefore hturn hkept
  cases event with
  | pass time =>
    -- time alone begins no cooldown
    refine absurd ?_ hbefore
    simp only [Read.Sentenced, Read.step, ProxyNodes.step] at hturn
    split at hturn
    · rename_i hle
      exact hle.trans_lt hturn
    · exact hturn
  | report other report =>
    by_cases hother : id = other
    · subst hother
      refine ⟨before, report, after, hduring, ?_⟩
      simp only [Read.Sentenced, Read.step, ProxyNodes.step, Function.update_self] at hturn
      rw [hq]
      -- without a sentence the deadline stands or is taken back
      by_contra hnone
      obtain hsame | hzero :=
        Record.after_cooldown (Option.not_isSome_iff_eq_none.mp hnone) (q'.records id)
      · rw [hsame] at hturn
        exact hbefore hturn
      · exact absurd hkept.now_pos (lt_asymm (hzero ▸ hturn))
    · refine absurd ?_ hbefore
      simpa only [Read.Sentenced, Read.step, ProxyNodes.step, Function.update_of_ne hother] using hturn
  | forgetDelays => exact absurd hturn hbefore

/-- What a call that was given these nodes may choose when it begins. -/
structure Candidate (u : Chars) (r : ChoiceRequest) (nodes : List ProxyNode) (w : World)
    (node : ProxyNode) : Prop where
  eligible : node ∈ eligible u r nodes
  not_excluded : node.id ∉ strippedSet u r.excludedNodeIds
  free : (nodeRetryAfter w.now node.id w.nodes).1 = 0

theorem mem_freeNodes (h : p.Kept) :
    node ∈ freeNodes u r nodes p.world ↔ Candidate u r nodes p.world node := by
  rw [freeNodes, mem_selectable h]
  exact ⟨fun ⟨hin, hnot, hfree⟩ => ⟨hin, hnot, hfree⟩, fun ⟨hin, hnot, hfree⟩ => ⟨hin, hnot, hfree⟩⟩

/-- What is known of a chosen node where the call returns. -/
structure Chosen (u : Chars) (r : ChoiceRequest) (nodes : List ProxyNode) (during : List Event)
    (start resumed later : World) (node : ProxyNode) : Prop where
  candidate : Candidate u r nodes start node
  quickest : r.autoSelect || r.randomSelect → ∃ found,
    freshDelay later.now node.id later.nodes = some found ∧ (found : Int) ≤ r.latencyThresholdMs ∧
      (r.randomSelect = false → ∀ other, Candidate u r nodes start other → ∀ found',
        freshDelay later.now other.id later.nodes = some found' →
          (found' : Int) ≤ r.latencyThresholdMs → rank u r (found, node) ≤ rank u r (found', other))
  cooling : 0 < (nodeRetryAfter later.now node.id later.nodes).1 →
    ∃ before report after, during = before ++ .report node.id report :: after ∧
      (report.sentence (run step before resumed).now node.id (run step before resumed).nodes).isSome

theorem afterGather_kept (h : p.Kept) (u : Chars) (r : ChoiceRequest) (nodes : List ProxyNode) :
    (afterGather u r nodes p).Kept := by
  rw [afterGather]
  split
  · exact h
  · exact h.later _

theorem afterGather_now (u : Chars) (r : ChoiceRequest) (nodes : List ProxyNode) (p : Read) :
    (afterGather u r nodes p).world.now = p.world.now := by
  rw [afterGather]
  split
  · rfl
  · exact now_asks ..

theorem afterGather_records (u : Chars) (r : ChoiceRequest) (nodes : List ProxyNode) (p : Read) :
    (afterGather u r nodes p).records = p.records := by
  rw [afterGather]
  split
  · rfl
  · exact records_asks ..

/-- A candidate whose delay is known when the call returns is cooling down only because of what was
reported while it waited. -/
theorem Candidate.cooling (h : p.Kept) (hcandidate : Candidate u r nodes p.world node)
    (during : List Event) (hknown : ∃ found, knownDelay node.id
      (run Read.step during (afterGather u r nodes p)).world.nodes = some found)
    (hcooling : 0 < (nodeRetryAfter (run Read.step during (afterGather u r nodes p)).world.now node.id
      (run Read.step during (afterGather u r nodes p)).world.nodes).1) :
    ∃ before report after, during = before ++ .report node.id report :: after ∧
      (report.sentence (run step before (afterGather u r nodes p).world).now node.id
        (run step before (afterGather u r nodes p).world).nodes).isSome := by
  have hgathered := afterGather_kept h u r nodes
  have hlater := hgathered.later during
  have hid : node.id ≠ "" := by
    intro hid
    rw [(hlater.retryAfter_eq_zero_iff node.id).mpr (.inl hid)] at hcooling
    exact absurd hcooling (lt_irrefl 0)
  have hfree : ((afterGather u r nodes p).records node.id).cooldown ≤
      (afterGather u r nodes p).world.now := by
    rw [afterGather_records, afterGather_now]
    have hzero := ((h.retryAfter_eq_zero_iff node.id).mp hcandidate.free).resolve_left hid
    exact (((p.records node.id).remaining_eq_zero_iff _).mp hzero).1
  -- a node with a known delay did not fail when it was last measured
  have hfailed : ((run Read.step during (afterGather u r nodes p)).records node.id).failed = none := by
    cases hget : ((run Read.step during (afterGather u r nodes p)).records node.id).failed with
    | none => rfl
    | some failedAt =>
      obtain ⟨found, hfound⟩ := hknown
      rw [knownDelay, (hlater.kept node.id hid).failed_iff.mp hget] at hfound
      contradiction
  have hlt : (run Read.step during (afterGather u r nodes p)).world.now <
      ((run Read.step during (afterGather u r nodes p)).records node.id).cooldown := by
    by_contra hnot
    have hzero := (Record.remaining_eq_zero_iff _ _).mpr ⟨not_lt.mp hnot, fun failedAt hget => by
      rw [hfailed] at hget
      contradiction⟩
    rw [(hlater.retryAfter_eq_zero_iff node.id).mpr (.inr hzero)] at hcooling
    exact absurd hcooling (lt_irrefl 0)
  obtain ⟨before, report, after, hduring, hsentence⟩ :=
    hgathered.sentenced_of_cooling during hfree hlt
  refine ⟨before, report, after, hduring, ?_⟩
  rwa [run_world] at hsentence

theorem Chosen.of_ok (h : p.Kept) {during : List Event} {failure : Option String}
    (hok : (chooseSubscriptionNode u r draw nodes during failure p.world).1 = .ok node) :
    Chosen u r nodes during p.world (afterGather u r nodes p).world
      (chooseSubscriptionNode u r draw nodes during failure p.world).2 node := by
  obtain ⟨waited, hlater, hended⟩ := chooseSubscriptionNode_ended u r draw nodes during failure p
  generalize (chooseSubscriptionNode u r draw nodes during failure p.world).1 = outcome at hok hended
  generalize (chooseSubscriptionNode u r draw nodes during failure p.world).2 = later at hlater hended ⊢
  subst hlater
  -- a call that did not wait has nothing to fear
  have hcooling : ∀ hcandidate : Candidate u r nodes p.world node, (waited = true → ∃ found,
      knownDelay node.id (run Read.step during (afterGather u r nodes p)).world.nodes = some found) →
      0 < (nodeRetryAfter (run Read.step (if waited then during else [])
        (afterGather u r nodes p)).world.now node.id (run Read.step (if waited then during else [])
          (afterGather u r nodes p)).world.nodes).1 →
      ∃ before report after, during = before ++ .report node.id report :: after ∧
        (report.sentence (run step before (afterGather u r nodes p).world).now node.id
          (run step before (afterGather u r nodes p).world).nodes).isSome := by
    intro hcandidate hknown hpos
    cases waited with
    | true => exact hcandidate.cooling h during (hknown rfl) hpos
    | false =>
      simp only [Bool.false_eq_true, if_false, run] at hpos
      have hzero := (h.retryAfter_eq_zero_iff node.id).mp hcandidate.free
      rw [← afterGather_records u r nodes p, ← afterGather_now u r nodes p,
        ← (afterGather_kept h u r nodes).retryAfter_eq_zero_iff] at hzero
      exact absurd hzero hpos.ne'
  cases hended with
  | none text hnone => contradiction
  | raised text hfailure hunmeasured => contradiction
  | byDelay hdelay hmeasured =>
    obtain ⟨found, hmem, hbest⟩ := chooseByDelay_ok hok
    obtain ⟨hfree, hfound, hquick⟩ := mem_quick.mp hmem
    have hcandidate := (mem_freeNodes h).mp hfree
    refine ⟨hcandidate, fun _ => ⟨found, hfound, hquick, fun hrandom other hother found' hfound' hquick' =>
      hbest hrandom (found', other) ?_⟩, hcooling hcandidate fun hwaited => ⟨found, ?_⟩⟩
    · exact mem_quick.mpr ⟨(mem_freeNodes h).mpr hother, hfound', hquick'⟩
    · subst hwaited
      exact freshDelay_known hfound
  | selected chosen hmanual hmem hwaited =>
    obtain rfl : chosen = node := Except.ok.inj hok
    have hcandidate := (mem_freeNodes h).mp hmem
    refine ⟨hcandidate, fun hdelay => absurd hdelay hmanual, hcooling hcandidate fun hwaited' => ?_⟩
    rw [hwaited] at hwaited'
    contradiction
  | instead delay hmanual hknown =>
    obtain ⟨hmem, found, hfound⟩ := chooseInstead_ok hok
    have hcandidate := (mem_freeNodes h).mp hmem
    refine ⟨hcandidate, fun hdelay => absurd hdelay hmanual, hcooling hcandidate fun hwaited =>
      ⟨found, ?_⟩⟩
    subst hwaited
    exact hknown _ _ hfound

/-- Whatever was reported before and is reported while a call waits: the node that it chooses is one
of those it was asked for, was not cooling down when the call began, and, if delays decide, has the
best fresh delay below the threshold when it ends. It is cooling down then only if something was
reported meanwhile that led to a cooldown. -/
theorem choice_sound (now : Rat) (hnow : 0 < now) (events : List Event) :
    Throughout Read.step (fun p => ∀ (u : Chars) (r : ChoiceRequest) (draw : Nat)
      (nodes : List ProxyNode) (during : List Event) (failure : Option String) (node : ProxyNode),
      (chooseSubscriptionNode u r draw nodes during failure p.world).1 = .ok node →
      Chosen u r nodes during p.world (afterGather u r nodes p).world
        (chooseSubscriptionNode u r draw nodes during failure p.world).2 node) events (Read.new now) :=
  (kept_throughout hnow events).mono fun _ h _ _ _ _ _ _ _ hok => .of_ok h hok

/-- Two nodes, of which the quicker was given a verdict by a gateway. -/
def sampleEvents : List Event :=
  [.report "slow" (.measured (some 200)), .report "quick" (.measured (some 50)),
    .report "quick" (.gatewayFailure 502), .report "quick" (.gatewayFailure 503), .pass 20]

def sampleNodes : List ProxyNode :=
  [⟨"slow", "Slow", "JP", "vless", "vless://slow"⟩, ⟨"quick", "Quick", "JP", "vless", "vless://quick"⟩]

def sampleRequest : ChoiceRequest :=
  { autoSelect := true, selectedCountries := ["JP"], latencyThresholdMs := 500 }

theorem choice_sound_sample :
    Chosen .ascii sampleRequest sampleNodes [] (run step sampleEvents ⟨10, .new⟩)
      (afterGather .ascii sampleRequest sampleNodes (run Read.step sampleEvents (Read.new 10))).world
      (chooseSubscriptionNode .ascii sampleRequest 0 sampleNodes [] none
        (run step sampleEvents ⟨10, .new⟩)).2
      ⟨"slow", "Slow", "JP", "vless", "vless://slow"⟩ := by
  have hchosen := (choice_sound 10 (by norm_num) sampleEvents).final .ascii sampleRequest 0 sampleNodes []
    none ⟨"slow", "Slow", "JP", "vless", "vless://slow"⟩
  rw [run_world] at hchosen
  exact hchosen (by decide +kernel)

theorem delays_asks (excluded : List String) (nodes : List ProxyNode) (p : Read) :
    (run Read.step (asks excluded nodes) p).world.nodes.delays = p.world.nodes.delays := by
  induction nodes generalizing p with
  | nil => rfl
  | cons node nodes ih =>
    by_cases hmem : node.id ∈ excluded
    · rw [asks_cons_of_mem hmem]
      exact ih p
    · rw [asks_cons_of_not_mem hmem, run, ih]
      simp only [Read.step, step, Report.apply, nodeRetryAfter]
      split
      · rfl
      split
      · rfl
      · split
        · split <;> rfl
        · rfl

/-- Gathering the nodes changes no delay. -/
theorem freshDelay_afterGather (u : Chars) (r : ChoiceRequest) (nodes : List ProxyNode) (p : Read)
    (id : String) :
    freshDelay (afterGather u r nodes p).world.now id (afterGather u r nodes p).world.nodes =
      freshDelay p.world.now id p.world.nodes := by
  have hdelays : (afterGather u r nodes p).world.nodes.delays = p.world.nodes.delays := by
    rw [afterGather]
    split
    · rfl
    · exact delays_asks ..
  rw [freshDelay, freshDelay, afterGather_now, hdelays]

/-- Some node that may be chosen has a delay that was found a short time ago. -/
def Measured (u : Chars) (r : ChoiceRequest) (nodes : List ProxyNode) (w : World) : Prop :=
  ∃ node, Candidate u r nodes w node ∧ (freshDelay w.now node.id w.nodes).isSome

/-- A choice by delay fails exactly if none of the nodes that were free when it began has a fresh
delay below the threshold when it ends, or none had a fresh delay when it began and the measurement
raises. -/
theorem choice_isOk_iff (now : Rat) (hnow : 0 < now) (events : List Event) :
    Throughout Read.step (fun p => ∀ (u : Chars) (r : ChoiceRequest) (draw : Nat)
      (nodes : List ProxyNode) (during : List Event) (failure : Option String),
      r.autoSelect || r.randomSelect →
      let later := (chooseSubscriptionNode u r draw nodes during failure p.world).2
      ((∃ node, (chooseSubscriptionNode u r draw nodes during failure p.world).1 = .ok node) ↔
        (failure = none ∨ Measured u r nodes p.world) ∧
          ∃ node, Candidate u r nodes p.world node ∧ ∃ found,
            freshDelay later.now node.id later.nodes = some found ∧
              (found : Int) ≤ r.latencyThresholdMs)) events (Read.new now) := by
  refine (kept_throughout hnow events).mono fun p h u r draw nodes during failure hdelay => ?_
  obtain ⟨waited, hlater, hended⟩ := chooseSubscriptionNode_ended u r draw nodes during failure p
  simp only
  generalize (chooseSubscriptionNode u r draw nodes during failure p.world).2 = later at hlater hended ⊢
  have hquick : (∃ item, item ∈ quick later.now r (freeNodes u r nodes p.world) later.nodes) ↔
      ∃ node, Candidate u r nodes p.world node ∧ ∃ found,
        freshDelay later.now node.id later.nodes = some found ∧
          (found : Int) ≤ r.latencyThresholdMs := by
    constructor
    · rintro ⟨item, hitem⟩
      obtain ⟨hmem, hfound, hle⟩ := mem_quick.mp hitem
      exact ⟨item.2, (mem_freeNodes h).mp hmem, item.1, hfound, hle⟩
    · rintro ⟨node, hcandidate, found, hfound, hle⟩
      exact ⟨(found, node), mem_quick.mpr ⟨(mem_freeNodes h).mpr hcandidate, hfound, hle⟩⟩
  rw [← hquick]
  generalize (chooseSubscriptionNode u r draw nodes during failure p.world).1 = outcome at hended
  cases hended with
  | none text hnone =>
    rw [hnone]
    refine iff_of_false ?_ ?_
    · rintro ⟨node, hok⟩
      contradiction
    · rintro ⟨-, item, hitem⟩
      exact absurd (mem_quick.mp hitem).1 List.not_mem_nil
  | raised text hfailure hunmeasured =>
    refine iff_of_false ?_ ?_
    · rintro ⟨node, hok⟩
      contradiction
    · rintro ⟨hnone | ⟨node, hcandidate, hmeasured⟩, -⟩
      · rw [hfailure] at hnone
        contradiction
      · have hfresh := hunmeasured node ((mem_freeNodes h).mpr hcandidate)
        rw [freshDelay_afterGather] at hfresh
        rw [hfresh] at hmeasured
        contradiction
  | byDelay hdelay hmeasured =>
    rw [chooseByDelay_isOk]
    refine ⟨fun hitem => ⟨?_, hitem⟩, And.right⟩
    cases waited with
    | true => exact .inl (hmeasured rfl)
    | false =>
      -- the call did not wait, so the delay it chose by was there when it began
      obtain ⟨item, hitem⟩ := hitem
      obtain ⟨hmem, hfound, -⟩ := mem_quick.mp hitem
      obtain rfl : later = (afterGather u r nodes p).world := hlater
      rw [freshDelay_afterGather] at hfound
      exact .inr ⟨item.2, (mem_freeNodes h).mp hmem, hfound ▸ rfl⟩
  | selected chosen hmanual hmem hwaited => exact absurd hdelay hmanual
  | instead delay hmanual hknown => exact absurd hdelay hmanual

theorem choice_isOk_sample :
    ∃ node, (chooseSubscriptionNode .ascii sampleRequest 0 sampleNodes [] (some "mihomo")
      (run step sampleEvents ⟨10, .new⟩)).1 = .ok node := by
  have hiff := (choice_isOk_iff 10 (by norm_num) sampleEvents).final .ascii sampleRequest 0 sampleNodes []
    (some "mihomo") rfl
  rw [run_world] at hiff
  have hcandidate : Candidate .ascii sampleRequest sampleNodes (run step sampleEvents ⟨10, .new⟩)
      ⟨"slow", "Slow", "JP", "vless", "vless://slow"⟩ :=
    ⟨by decide +kernel, by decide +kernel, by decide +kernel⟩
  refine hiff.mpr ⟨.inr ⟨_, hcandidate, ?_⟩, _, hcandidate, 200, ?_, ?_⟩
  all_goals decide +kernel

end FetchTask.ProxyNodes
