import FetchTask.ApiProxyPool

/-!
The accounts of the API proxy pool.

A call that runs is the only one that changes, so what it contributes to the
counts is set aside until it waits again: `Working` is the invariant with the
call at `k` left out and `x` refreshes of its own. Every function of the pool
takes a working call to one that waits, and the invariant holds again. The one
way out that does not is a cancellation inside a refresh.
-/

namespace FetchTask.ApiProxyPool

open Runs Tally

/-! ### The law -/

/-- The leases on a slot that are not released. -/
def Pool.unreleased (s : Pool) (i : Nat) : Nat :=
  s.leases.countP fun lease => lease.slot == i && !lease.released

/-- The acquires inside a refresh. -/
def Pool.refreshing (s : Pool) : Nat := s.calls.countP Call.refreshing

/-- The ids of the valid slots. -/
def Pool.nodes (s : Pool) : List String :=
  (s.pooled.filter fun i => !(s.slots i).invalid).map fun i => (s.slots i).nodeId

/-- Every slot is accounted for. -/
structure Accounted (cfg : Config) (s : Pool) : Prop where
  bounded : s.pooled.length + s.refreshing ≤ cfg.maxEndpoints
  launching : s.launching = s.refreshing
  active : ∀ i, (s.slots i).active = s.unreleased i ∧ (s.slots i).active ≤ cfg.contextsPerEndpoint
  distinct : s.nodes.Nodup

def AccountedBeforeStop (cfg : Config) (s : Pool) : Prop := s.stopping = false → Accounted cfg s

/-- The action cancels an acquire inside a refresh, before the pool is stopped. -/
def CancelsRefresh : Action → Pool → Prop
  | .cancel k, s => s.stopping = false ∧ ∃ call ∈ s.calls[k]?, call.refreshing = true
  | _, _ => False

/-! ### The invariant -/

/-- The pool and the leases speak of slots that were made. -/
structure Sound (s : Pool) : Prop where
  pooled : ∀ i ∈ s.pooled, i < s.made
  leases : ∀ lease ∈ s.leases, lease.slot < s.made

structure Kept (cfg : Config) (s : Pool) : Prop extends Accounted cfg s, Sound s

/-- The invariant while the call at `k` runs, `x` refreshes being its own. -/
structure Working (cfg : Config) (k x : Nat) (s : Pool) : Prop extends Sound s where
  here : k < s.calls.length
  bounded : s.pooled.length + s.launching ≤ cfg.maxEndpoints
  launching : s.launching = others Call.refreshing s.calls k + x
  active : ∀ i, (s.slots i).active = s.unreleased i ∧ (s.slots i).active ≤ cfg.contextsPerEndpoint
  distinct : s.nodes.Nodup

variable {cfg : Config} {u : Chars} {s s' : Pool} {turn : Turn} {k x i : Nat} {request : Request}
  {call : Call} {r : Refresh}

@[simp] theorem Call.refreshing_notify (call : Call) : call.notify.refreshing = call.refreshing := by
  obtain ⟨request, phase⟩ := call
  cases phase <;> rfl

@[simp] theorem setSlot_self (slot : Slot) : (s.setSlot i slot).slots i = slot :=
  Function.update_self ..

theorem setSlot_of_ne {j : Nat} (hne : j ≠ i) (slot : Slot) :
    (s.setSlot i slot).slots j = s.slots j :=
  Function.update_of_ne hne ..

theorem nodes_congr (hpooled : s'.pooled = s.pooled)
    (hinvalid : ∀ i, (s'.slots i).invalid = (s.slots i).invalid)
    (hnode : ∀ i, (s'.slots i).nodeId = (s.slots i).nodeId) : s'.nodes = s.nodes := by
  simp only [Pool.nodes, hpooled, hinvalid, hnode]

theorem nodes_setSlot {slot : Slot} (hinvalid : slot.invalid = (s.slots i).invalid)
    (hnode : slot.nodeId = (s.slots i).nodeId) : (s.setSlot i slot).nodes = s.nodes := by
  refine nodes_congr rfl (fun j => ?_) fun j => ?_
  · rcases eq_or_ne j i with rfl | hne
    · rw [setSlot_self, hinvalid]
    · rw [setSlot_of_ne hne]
  · rcases eq_or_ne j i with rfl | hne
    · rw [setSlot_self, hnode]
    · rw [setSlot_of_ne hne]

theorem distinct_setSlot {slot : Slot} (h : s.nodes.Nodup)
    (hinvalid : slot.invalid = (s.slots i).invalid) (hnode : slot.nodeId = (s.slots i).nodeId) :
    (s.setSlot i slot).nodes.Nodup := by
  rwa [nodes_setSlot hinvalid hnode]

/-- Slots that leave the pool take no id in. -/
theorem nodes_sublist (hpooled : s'.pooled.Sublist s.pooled) (hslots : s'.slots = s.slots) :
    s'.nodes.Sublist s.nodes := by
  rw [Pool.nodes, Pool.nodes, hslots]
  exact (hpooled.filter _).map _

/-! ### What a running call does -/

theorem Kept.working (h : Kept cfg s) (hcall : s.calls[k]? = some call) :
    Working cfg k call.refreshing.toNat s where
  here := (List.getElem?_eq_some_iff.mp hcall).1
  bounded := by
    rw [h.launching]
    exact h.bounded
  launching := h.launching.trans (countP_eq Call.refreshing hcall)
  active := h.active
  distinct := h.distinct
  pooled := h.pooled
  leases := h.leases

namespace Working

/-- The call waits again or is done. -/
theorem setPhase (h : Working cfg k x s) {phase : Phase}
    (hx : (Call.refreshing ⟨request, phase⟩).toNat = x) : Kept cfg (s.setPhase k request phase) := by
  have hcount : (s.setPhase k request phase).refreshing = s.launching := by
    rw [h.launching, ← hx]
    exact countP_set Call.refreshing h.here _
  refine { bounded := ?_, launching := hcount.symm, active := h.active, distinct := h.distinct,
           pooled := h.pooled, leases := h.leases }
  rw [hcount]
  exact h.bounded

theorem notifyAll (h : Working cfg k x s) : Working cfg k x s.notifyAll where
  here := by
    rw [Pool.notifyAll, List.length_map]
    exact h.here
  bounded := h.bounded
  launching := by
    rw [Pool.notifyAll, others_map _ Call.refreshing_notify]
    exact h.launching
  active := h.active
  distinct := h.distinct
  pooled := h.pooled
  leases := h.leases

theorem prune (h : Working cfg k x s) : Working cfg k x s.prune where
  here := h.here
  bounded := (Nat.add_le_add_right (List.length_filter_le _ _) _).trans h.bounded
  launching := h.launching
  active := h.active
  distinct :=
    have hless : s.prune.pooled.Sublist s.pooled := List.filter_sublist
    (nodes_sublist hless rfl).nodup h.distinct
  pooled i hi := h.pooled i (List.mem_of_mem_filter hi)
  leases := h.leases

/-- A refresh of the call begins. -/
theorem launch (h : Working cfg k 0 s) (hroom : s.pooled.length + s.launching < cfg.maxEndpoints) :
    Working cfg k 1 { s with launching := s.launching + 1 } where
  here := h.here
  bounded := hroom
  launching := congrArg (· + 1) h.launching
  active := h.active
  distinct := h.distinct
  pooled := h.pooled
  leases := h.leases

/-- A refresh of the call is over. -/
theorem settle (h : Working cfg k 1 s) : Working cfg k 0 { s with launching := s.launching - 1 } where
  here := h.here
  bounded := (Nat.add_le_add_left (Nat.sub_le _ _) _).trans h.bounded
  launching := by
    have hlaunching := h.launching
    show s.launching - 1 = others Call.refreshing s.calls k + 0
    omega
  active := h.active
  distinct := h.distinct
  pooled := h.pooled
  leases := h.leases

/-- A slot that the pool does not have yet, with an id that no valid slot has. -/
theorem add (h : Working cfg k x s) (slot : Slot) (hactive : slot.active = 0)
    (hroom : s.pooled.length + s.launching < cfg.maxEndpoints) (hnew : slot.nodeId ∉ s.nodes) :
    Working cfg k x { s.setSlot s.made slot with
      made := s.made + 1, pooled := s.pooled ++ [s.made] } where
  here := h.here
  bounded := by
    show (s.pooled ++ [s.made]).length + s.launching ≤ cfg.maxEndpoints
    rw [List.length_append, List.length_singleton]
    omega
  launching := h.launching
  active i := by
    show ((s.setSlot s.made slot).slots i).active = s.unreleased i ∧
      ((s.setSlot s.made slot).slots i).active ≤ cfg.contextsPerEndpoint
    rcases eq_or_ne i s.made with rfl | hne
    · have hnone : s.unreleased s.made = 0 := by
        refine List.countP_eq_zero.mpr fun lease hlease => ?_
        have hlt := h.leases lease hlease
        simp only [Bool.and_eq_true, beq_iff_eq, not_and]
        omega
      simp [hactive, hnone]
    · rw [setSlot_of_ne hne]
      exact h.active i
  distinct := by
    have hold : ∀ i ∈ s.pooled, (s.setSlot s.made slot).slots i = s.slots i := fun i hi =>
      setSlot_of_ne (h.pooled i hi).ne slot
    have hkept : (s.setSlot s.made slot).nodes = s.nodes := by
      rw [Pool.nodes, Pool.nodes]
      refine (congrArg _ (List.filter_congr fun i hi => ?_)).trans
        (List.map_congr_left fun i hi => ?_)
      · rw [hold i hi]
      · rw [hold i (List.mem_of_mem_filter hi)]
    show (((s.pooled ++ [s.made]).filter fun i => !((s.setSlot s.made slot).slots i).invalid).map
      fun i => ((s.setSlot s.made slot).slots i).nodeId).Nodup
    have hdistinct := h.distinct
    rw [List.filter_append, List.map_append, List.nodup_append]
    refine ⟨?_, ?_, ?_⟩
    · rw [← hkept] at hdistinct
      exact hdistinct
    · exact (List.filter_sublist.map _).nodup (by simp)
    · rintro a ha b hb rfl
      obtain ⟨i, hi, rfl⟩ := List.mem_map.mp hb
      obtain rfl := List.mem_singleton.mp (List.mem_of_mem_filter hi)
      rw [setSlot_self] at ha
      exact hnew (hkept ▸ ha)
  pooled i hi := by
    rcases List.mem_append.mp hi with hold | hself
    · exact (h.pooled i hold).trans (Nat.lt_succ_self _)
    · obtain rfl := List.mem_singleton.mp hself
      exact Nat.lt_succ_self _
  leases lease hlease := (h.leases lease hlease).trans (Nat.lt_succ_self _)

/-- A slot with room is leased. -/
theorem grant (h : Working cfg k 0 s) (hmade : i < s.made)
    (hroom : (s.slots i).active < cfg.contextsPerEndpoint) :
    Kept cfg (s.grant turn k request i) := by
  have hactive : ∀ j, ((s.leaseSlot turn i).slots j).active = s.unreleased j + (i == j).toNat ∧
      ((s.leaseSlot turn i).slots j).active ≤ cfg.contextsPerEndpoint := by
    intro j
    have hj := h.active j
    rcases eq_or_ne j i with rfl | hne
    · rw [Pool.leaseSlot, setSlot_self, beq_self_eq_true]
      exact ⟨congrArg (· + 1) hj.1, hroom⟩
    · rw [Pool.leaseSlot, setSlot_of_ne hne, beq_false_of_ne hne.symm]
      exact hj
  have hnodes : (s.leaseSlot turn i).nodes = s.nodes := nodes_setSlot rfl rfl
  refine setPhase (x := 0) ?_ rfl
  exact {
    here := h.here
    bounded := h.bounded
    launching := h.launching
    active := by
      intro j
      have hcount : (s.leases ++ [Lease.mk i false]).countP
          (fun lease => lease.slot == j && !lease.released) = s.unreleased j + (i == j).toNat := by
        rw [countP_append_singleton, Bool.not_false, Bool.and_true]
        rfl
      exact ⟨(hactive j).1.trans hcount.symm, (hactive j).2⟩
    distinct := by
      have hdistinct := h.distinct
      rw [← hnodes] at hdistinct
      exact hdistinct
    pooled := h.pooled
    leases := by
      intro lease hlease
      rcases List.mem_append.mp hlease with hold | hself
      · exact h.leases lease hold
      · obtain rfl := List.mem_singleton.mp hself
        exact hmade }

/-- The rest of the state does not matter. -/
theorem congr (h : Working cfg k x s) (hslots : s'.slots = s.slots) (hmade : s'.made = s.made)
    (hpooled : s'.pooled = s.pooled) (hlaunching : s'.launching = s.launching)
    (hcalls : s'.calls = s.calls) (hleases : s'.leases = s.leases) : Working cfg k x s' := by
  obtain ⟨⟨hknown, hheld⟩, hhere, hbounded, hcount, hactive, hdistinct⟩ := h
  refine ⟨⟨?_, ?_⟩, ?_, ?_, ?_, ?_, ?_⟩
  · rwa [hpooled, hmade]
  · rwa [hleases, hmade]
  · rwa [hcalls]
  · rwa [hpooled, hlaunching]
  · rwa [hlaunching, hcalls]
  · simpa only [Pool.unreleased, hslots, hleases] using hactive
  · rwa [nodes_congr hpooled (by simp [hslots]) (by simp [hslots])]

/-! ### Refreshes -/

theorem refreshFailed (h : Working cfg k 1 s) (e : Raised) :
    Kept cfg (s.refreshFailed u turn k request e) := by
  have hsettled : Working cfg k 0 { s with
      lastError := takeText 500 (e.describe u)
      launching := s.launching - 1
      consecutiveRefreshFailures := s.consecutiveRefreshFailures + 1
      refreshNotBefore := max s.refreshNotBefore (turn.now + min refreshFailureBackoffMaxSeconds
        ((2 : Rat) ^ min 3 (s.consecutiveRefreshFailures + 1))) } :=
    h.settle.congr rfl rfl rfl rfl rfl rfl
  exact hsettled.notifyAll.setPhase rfl

theorem startFetch (h : Working cfg k 1 s) : Kept cfg (s.startFetch turn k request r) :=
  (h.congr rfl rfl rfl rfl rfl rfl :
    Working cfg k 1 { s with lastFetchStartedAt := turn.later, pacing := false }).setPhase rfl

theorem pace (h : Working cfg k 1 s) : Kept cfg (s.pace cfg turn k request r) := by
  unfold Pool.pace
  split
  · exact (h.congr rfl rfl rfl rfl rfl rfl : Working cfg k 1 { s with pacing := true }).setPhase rfl
  · exact h.startFetch

theorem tryFetch (h : Working cfg k 1 s) : Kept cfg (s.tryFetch cfg u turn k request r) := by
  unfold Pool.tryFetch
  dsimp only
  split_ifs
  · exact h.setPhase rfl
  · exact h.pace
  · exact h.refreshFailed _

theorem fetchFailed (h : Working cfg k 1 s) (e : Raised) :
    Kept cfg (s.fetchFailed cfg u turn k request r e) := by
  unfold Pool.fetchFailed
  dsimp only
  split_ifs
  · exact h.refreshFailed _
  · exact h.tryFetch

theorem fetched (h : Working cfg k 1 s) (proxy : Fetched) :
    Kept cfg (s.fetched cfg u turn k request r proxy) := by
  unfold Pool.fetched
  dsimp only
  split_ifs
  · exact h.tryFetch
  · exact h.tryFetch
  · exact h.tryFetch
  · exact h.setPhase rfl

theorem refreshed (h : Working cfg k x s) : Working cfg k x s.refreshed :=
  h.congr rfl rfl rfl rfl rfl rfl

/-- A refresh found an endpoint: the call leases the slot that has it, waits because that one is
full, or adds a slot. -/
theorem land (h : Working cfg k 1 s) (hrunning : s.stopping = false)
    (server hostPort nodeId : String) :
    Kept cfg (s.land u cfg turn k request server hostPort nodeId) := by
  have hsettled := h.settle
  unfold Pool.land
  dsimp only
  rw [if_neg (by simp [hrunning])]
  split
  · rename_i i hfound
    split_ifs with hroom
    · exact hsettled.refreshed.notifyAll.grant
        (hsettled.pooled i (List.mem_of_find?_eq_some hfound)) hroom.2
    · exact hsettled.notifyAll.setPhase rfl
  · rename_i hfresh
    have hnew : nodeId ∉ s.nodes := by
      intro hmem
      obtain ⟨i, hi, hnode⟩ := List.mem_map.mp hmem
      obtain ⟨hpooled, hvalid⟩ := List.mem_filter.mp hi
      exact List.find?_eq_none.mp hfresh i hpooled (by simpa [hnode] using hvalid)
    have hroom : s.pooled.length + (s.launching - 1) < cfg.maxEndpoints := by
      have hbounded := h.bounded
      have hlaunching := h.launching
      omega
    have hadded := hsettled.add { server, hostPort, nodeId } rfl hroom hnew
    refine hadded.refreshed.notifyAll.grant (Nat.lt_succ_self s.made) ?_
    show ((s.setSlot s.made _).slots s.made).active < _
    rw [setSlot_self]
    exact cfg.contexts_pos

end Working

theorem select_mem {candidates : List Nat} (h : s.select request turn candidates = some i) :
    i ∈ candidates := by
  unfold Pool.select at h
  dsimp only at h
  split_ifs at h
  · exact List.mem_of_mem_filter (List.mem_of_getElem? h)
  · exact List.mem_of_mem_filter (List.argmin_mem h)

/-- The stretch of an acquire that begins at the head of its loop. -/
theorem Working.attempt (h : Working cfg k 0 s) :
    Kept cfg (s.attempt cfg u turn k request) := by
  unfold Pool.attempt
  split_ifs with hstopping
  · exact h.setPhase rfl
  have hpruned := h.prune
  dsimp only
  split
  · rename_i i hselected
    obtain ⟨hpooled, husable⟩ := List.mem_filter.mp (select_mem hselected)
    simp only [Pool.usable, Bool.and_eq_true, decide_eq_true_eq] at husable
    exact hpruned.grant (hpruned.pooled i hpooled) husable.1.2
  · split_ifs with hwait hroom hcooling
    · exact hpruned.setPhase rfl
    · exact (hpruned.launch hroom.1).tryFetch
    · exact hpruned.setPhase rfl
    · exact hpruned.setPhase rfl

/-! ### Actions -/

namespace Kept

theorem acquire (h : Kept cfg s) (request : Request) : Working cfg s.calls.length 0
    { s with calls := s.calls ++ [Call.mk request .sleeping] } where
  here := by simp
  bounded := by
    rw [h.launching]
    exact h.bounded
  launching := by
    rw [others_append_self]
    exact h.launching
  active := h.active
  distinct := h.distinct
  pooled := h.pooled
  leases := h.leases

theorem resume (h : Kept cfg s) (hcall : s.calls[k]? = some call) :
    Kept cfg (s.resume cfg u turn k call) := by
  have hworking := h.working hcall
  obtain ⟨request, phase⟩ := call
  unfold Pool.resume
  dsimp only
  split
  · exact hworking.attempt
  · exact hworking.attempt
  · split_ifs
    · exact h
    · exact hworking.pace
  · exact hworking.startFetch
  · exact h

theorem fetcherDone (h : Kept cfg s) (hcall : s.calls[k]? = some call)
    (outcome : Except Raised Fetched) : Kept cfg (s.fetcherDone cfg u turn k call outcome) := by
  have hworking := h.working hcall
  obtain ⟨request, phase⟩ := call
  unfold Pool.fetcherDone
  dsimp only
  split
  · exact hworking.fetchFailed _
  · exact hworking.fetched _
  · exact h

theorem probeDone (h : Kept cfg s) (hcall : s.calls[k]? = some call) (hrunning : s.stopping = false)
    (outcome : Except Raised Bool) : Kept cfg (s.probeDone cfg u turn k call outcome) := by
  have hworking := h.working hcall
  obtain ⟨request, phase⟩ := call
  unfold Pool.probeDone
  dsimp only
  split
  · exact hworking.refreshFailed _
  · exact hworking.tryFetch
  · exact hworking.land hrunning ..
  · exact h

/-- A call that is no refresh may be cancelled. -/
theorem cancel (h : Kept cfg s) (hcall : s.calls[k]? = some call) (hidle : call.refreshing = false) :
    Kept cfg (s.cancel k call) := by
  have hworking := h.working hcall
  rw [hidle] at hworking
  obtain ⟨request, phase⟩ := call
  cases phase with
  | refreshing r stage => cases hidle
  | returned | raised | cancelled => exact h
  | waiting | sleeping => exact hworking.setPhase rfl

theorem notifyAll (h : Kept cfg s) : Kept cfg s.notifyAll := by
  have hcount : s.notifyAll.refreshing = s.refreshing := countP_map _ Call.refreshing_notify
  refine { bounded := ?_, launching := h.launching.trans hcount.symm, active := h.active,
           distinct := h.distinct, pooled := h.pooled, leases := h.leases }
  rw [hcount]
  exact h.bounded

/-- Slots leave the pool. -/
theorem drop (h : Kept cfg s) {pooled : List Nat} (hless : pooled.Sublist s.pooled) :
    Kept cfg { s with pooled } where
  bounded := (Nat.add_le_add_right hless.length_le _).trans h.bounded
  launching := h.launching
  active := h.active
  distinct := by
    have hnodes : Pool.nodes { s with pooled } |>.Sublist s.nodes := nodes_sublist hless rfl
    exact hnodes.nodup h.distinct
  pooled i hi := h.pooled i (hless.subset hi)
  leases := h.leases

/-- A slot changes, not in what it counts. -/
theorem setSlot (h : Kept cfg s) {slot : Slot} (hactive : slot.active = (s.slots i).active)
    (hdistinct : (s.setSlot i slot).nodes.Nodup) : Kept cfg (s.setSlot i slot) where
  bounded := h.bounded
  launching := h.launching
  active j := by
    rcases eq_or_ne j i with rfl | hne
    · rw [setSlot_self, hactive]
      exact h.active j
    · rw [setSlot_of_ne hne]
      exact h.active j
  distinct := hdistinct
  pooled := h.pooled
  leases := h.leases

theorem invalidate (h : Kept cfg s) : Kept cfg (s.invalidate i) := by
  refine h.setSlot rfl (List.Sublist.nodup ?_ h.distinct)
  have hnode : ∀ j, ((s.invalidate i).slots j).nodeId = (s.slots j).nodeId := by
    intro j
    rcases eq_or_ne j i with rfl | hne
    · rw [Pool.invalidate, setSlot_self]
    · rw [Pool.invalidate, setSlot_of_ne hne]
  show (s.invalidate i).nodes.Sublist s.nodes
  simp only [Pool.nodes, hnode]
  refine (List.monotone_filter_right s.pooled fun j hj => ?_).map _
  rcases eq_or_ne j i with rfl | hne
  · simp [Pool.invalidate] at hj
  · rwa [Pool.invalidate, setSlot_of_ne hne] at hj

theorem cooldown (h : Kept cfg s) (now seconds : Rat) : Kept cfg (s.cooldown i now seconds) :=
  h.setSlot rfl (distinct_setSlot h.distinct rfl rfl)

theorem release {j : Nat} {lease : Lease} (h : Kept cfg s) (hlease : s.leases[j]? = some lease) :
    Kept cfg (s.release j lease) := by
  unfold Pool.release
  split_ifs with hreleased
  · exact h
  have hback : Kept cfg ({ s with leases := s.leases.set j { lease with released := true } }.setSlot
      lease.slot { s.slots lease.slot with active := (s.slots lease.slot).active - 1 }) := {
    bounded := h.bounded
    launching := h.launching
    active := by
      intro i
      obtain ⟨hsame, hle⟩ := h.active i
      have hcount := countP_set_add (fun l => l.slot == i && !l.released) hlease
        { lease with released := true }
      simp only [hreleased, Bool.not_true, Bool.and_false, Bool.not_false, Bool.and_true,
        Bool.toNat_false, Nat.add_zero] at hcount
      rcases eq_or_ne i lease.slot with rfl | hne
      · rw [setSlot_self]
        rw [beq_self_eq_true, Bool.toNat_true] at hcount
        refine ⟨?_, (Nat.sub_le _ _).trans hle⟩
        show (s.slots lease.slot).active - 1 = _
        rw [hsame]
        exact Nat.sub_eq_of_eq_add hcount.symm
      · rw [setSlot_of_ne hne]
        rw [beq_false_of_ne hne.symm] at hcount
        exact ⟨hsame.trans hcount.symm, hle⟩
    distinct := distinct_setSlot h.distinct rfl rfl
    pooled := h.pooled
    leases := by
      intro l hl
      rcases List.mem_or_eq_of_mem_set hl with hold | rfl
      · exact h.leases l hold
      · exact h.leases lease (List.mem_of_getElem? hlease) }
  dsimp only
  refine (hback.drop ?_).notifyAll
  split_ifs
  · exact List.erase_sublist
  · exact .refl _

end Kept

/-! ### Stopping -/

section Stopping

@[simp] theorem stopping_refreshFailed (e : Raised) :
    (s.refreshFailed u turn k request e).stopping = s.stopping := rfl

@[simp] theorem stopping_tryFetch : (s.tryFetch cfg u turn k request r).stopping = s.stopping := by
  unfold Pool.tryFetch Pool.pace
  dsimp only
  split_ifs <;> rfl

@[simp] theorem stopping_attempt : (s.attempt cfg u turn k request).stopping = s.stopping := by
  unfold Pool.attempt
  split_ifs
  · rfl
  dsimp only
  split
  · rfl
  · split_ifs <;> first | rfl | exact stopping_tryFetch

@[simp] theorem stopping_resume : (s.resume cfg u turn k call).stopping = s.stopping := by
  unfold Pool.resume Pool.pace
  split
  · exact stopping_attempt
  · exact stopping_attempt
  · split_ifs <;> rfl
  · rfl
  · rfl

@[simp] theorem stopping_fetcherDone (outcome : Except Raised Fetched) :
    (s.fetcherDone cfg u turn k call outcome).stopping = s.stopping := by
  unfold Pool.fetcherDone Pool.fetchFailed Pool.fetched
  dsimp only
  split
  · split_ifs
    · rfl
    · exact stopping_tryFetch
  · split_ifs <;> first | rfl | exact stopping_tryFetch
  · rfl

@[simp] theorem stopping_land (server hostPort nodeId : String) :
    (s.land u cfg turn k request server hostPort nodeId).stopping = s.stopping := by
  unfold Pool.land
  dsimp only
  split_ifs
  · rfl
  · split
    · split_ifs <;> rfl
    · rfl

@[simp] theorem stopping_probeDone (outcome : Except Raised Bool) :
    (s.probeDone cfg u turn k call outcome).stopping = s.stopping := by
  unfold Pool.probeDone
  split
  · rfl
  · exact stopping_tryFetch
  · exact stopping_land ..
  · rfl

@[simp] theorem stopping_cancel : (s.cancel k call).stopping = s.stopping := by
  unfold Pool.cancel
  split <;> rfl

@[simp] theorem stopping_release (j : Nat) (lease : Lease) :
    (s.release j lease).stopping = s.stopping := by
  unfold Pool.release
  split_ifs <;> rfl

theorem onEntry_cases {α : Type} {table : List α} {f : α → Pool} {P : Pool → Prop} (hs : P s)
    (h : ∀ entry, table[k]? = some entry → P (f entry)) : P (onEntry table k s f) := by
  unfold onEntry
  split
  · exact h _ ‹_›
  · exact hs

/-- A pool that is stopped stays so. -/
theorem step_stopping (action : Action) (h : s.stopping = true) :
    (step cfg u action s).stopping = true := by
  have hentry : ∀ {α : Type} {table : List α} {k : Nat} {f : α → Pool},
      (∀ entry, (f entry).stopping = true) → (onEntry table k s f).stopping = true := fun hf =>
    onEntry_cases (P := fun s => s.stopping = true) h fun entry _ => hf entry
  cases action with
  | acquire request turn => exact stopping_attempt.trans h
  | resume k turn => exact hentry fun _ => stopping_resume.trans h
  | fetched k outcome turn => exact hentry fun _ => (stopping_fetcherDone _).trans h
  | probed k outcome turn => exact hentry fun _ => (stopping_probeDone _).trans h
  | cancel k => exact hentry fun _ => stopping_cancel.trans h
  | release j => exact hentry fun _ => (stopping_release _ _).trans h
  | invalidate j => exact hentry fun _ => h
  | cooldown j now seconds => exact hentry fun _ => h
  | stop => rfl

end Stopping

/-! ### Runs -/

/-- Every action that cancels no refresh keeps the accounts. -/
theorem step_kept (action : Action) (h : Kept cfg s) (hrunning : s.stopping = false)
    (hstep : ¬ CancelsRefresh action s) (hnext : (step cfg u action s).stopping = false) :
    Kept cfg (step cfg u action s) := by
  cases action with
  | acquire request turn => exact (h.acquire request).attempt
  | resume k turn => exact onEntry_cases h fun _ hcall => h.resume hcall
  | fetched k outcome turn => exact onEntry_cases h fun _ hcall => h.fetcherDone hcall outcome
  | probed k outcome turn =>
    exact onEntry_cases h fun _ hcall => h.probeDone hcall hrunning outcome
  | cancel k =>
    refine onEntry_cases h fun call hcall => h.cancel hcall ?_
    exact Bool.eq_false_iff.mpr fun hrefreshing => hstep ⟨hrunning, call, hcall, hrefreshing⟩
  | release j => exact onEntry_cases h fun _ hlease => h.release hlease
  | invalidate j => exact onEntry_cases h fun _ _ => h.invalidate
  | cooldown j now seconds => exact onEntry_cases h fun _ _ => h.cooldown now seconds
  | stop => cases hnext

/-- After a refresh is cancelled, one refresh is counted that no call is in. -/
theorem cancel_refresh (h : Kept cfg s) (hcall : s.calls[k]? = some call)
    (hrefreshing : call.refreshing = true) :
    (s.cancel k call).launching = (s.cancel k call).refreshing + 1 := by
  have hworking := h.working hcall
  obtain ⟨request, phase⟩ := call
  have hcount : ∀ calls, calls = s.calls.set k ⟨request, .cancelled⟩ →
      calls.countP Call.refreshing = others Call.refreshing s.calls k := by
    rintro _ rfl
    exact countP_set Call.refreshing hworking.here ⟨request, .cancelled⟩
  have hlaunching := hworking.launching
  rw [hrefreshing] at hlaunching
  cases phase with
  | refreshing r stage =>
    cases stage with
    | queued | pacing | fetching | probing =>
      exact hlaunching.trans (congrArg (· + 1) (hcount _ rfl).symm)
  | waiting | sleeping | returned | raised | cancelled => cases hrefreshing

theorem kept_empty : Kept cfg {} where
  bounded := Nat.zero_le _
  launching := rfl
  active _ := ⟨rfl, Nat.zero_le _⟩
  distinct := List.nodup_nil
  pooled _ h := by cases h
  leases _ h := by cases h

/-- The pool accounts for every slot until an acquire is cancelled inside a refresh. -/
theorem slots_accounted_iff (cfg : Config) (u : Chars) (actions : List Action) :
    Throughout (step cfg u) (AccountedBeforeStop cfg) actions {} ↔
      AllSteps (step cfg u) (fun action s => ¬ CancelsRefresh action s) actions {} := by
  refine throughout_iff_allSteps_of_kept
    (fun s (h : s.stopping = false → Kept cfg s) hrunning => (h hrunning).toAccounted) ?_ ?_ fun _ => kept_empty
  · intro action s h hstep hnext
    have hrunning : s.stopping = false := by
      by_contra hstopped
      rw [step_stopping action (by simpa using hstopped)] at hnext
      cases hnext
    exact step_kept action (h hrunning) hrunning hstep hnext
  · intro action s h hnext hcancels
    cases action with
    | cancel k =>
      obtain ⟨hrunning, call, hcall, hrefreshing⟩ := hcancels
      have hstep : step cfg u (.cancel k) s = s.cancel k call := by
        rw [step, onEntry, Option.mem_def.mp hcall]
      rw [hstep] at hnext
      have haccounted := hnext (stopping_cancel.trans hrunning)
      have hleak := cancel_refresh (h hrunning) hcall hrefreshing
      have hsame := haccounted.launching
      omega
    | acquire | resume | fetched | probed | release | invalidate | cooldown | stop => exact hcancels

/-- An acquire is cancelled while it waits for the fetcher. -/
theorem refresh_lost : ¬ ∀ (cfg : Config) (u : Chars) (actions : List Action),
    Throughout (step cfg u) (AccountedBeforeStop cfg) actions {} := by
  intro h
  have hfinal := (h (configure 1 1 1 apiFetchMinIntervalSeconds) .ascii
    [.acquire {} { now := 1 }, .cancel 0]).final
  have hsame := (hfinal (by decide +kernel)).launching
  exact absurd hsame (by decide +kernel)

end FetchTask.ApiProxyPool
