import FetchTask.BrowserPool

/-!
The accounts of the browser pool.

`Fits` says of one slot how its fields go with what is counted elsewhere: the
leases on it, the acquires that hold it, those that launch it and the releases
that close a context of it. `Working` is the invariant while the call at `k` runs
and holds `w`. An acquire that is cut while it holds a slot gives nothing back,
and one that waits for another browser to close may find its slot marked since.
The law says that these are the only steps that break the accounts.
-/

namespace FetchTask.BrowserPool

open Held Runs Tally

/-! ### The law -/

def Phase.held : Phase → Option Held
  | .closing held => some held
  | .launching i => some (.launch i)
  | .creating i => some (.selected i)
  | _ => none

def Call.holds (i : Nat) (call : Call) : Bool := Held.holds i call.phase.held

def Call.launches (i : Nat) (call : Call) : Bool := Held.launches i call.phase.held

/-- The leases on a slot that are not released. -/
def Pool.unreleased (s : Pool) (i : Nat) : Nat :=
  s.leases.countP fun lease => lease.slot == i && !lease.released

/-- The acquires that are to create a context on a slot. -/
def Pool.creating (s : Pool) (i : Nat) : Nat := s.calls.countP (Call.holds i)

/-- Every context is accounted for. -/
structure Accounted (cfg : Config) (s : Pool) : Prop where
  bounded : s.pooled.length ≤ cfg.maxProcesses
  active : ∀ i, (s.slots i).active = s.unreleased i + s.creating i ∧
    (s.slots i).active ≤ cfg.contextsPerProcess
  launching : ∀ i ∈ s.pooled, (s.slots i).launching = true →
    ∃ call ∈ s.calls, call.launches i = true

/-- The call at `k` creates a context on a slot. -/
def CreatesOn (s : Pool) (k i : Nat) : Prop := ∃ key, s.calls[k]? = some ⟨key, .creating i⟩

/-- No call begins to create a context on a slot that is marked to retire. -/
def UsesUnmarked (cfg : Config) (action : Action) (s : Pool) : Prop :=
  ∀ k i, CreatesOn (step cfg action s) k i →
    CreatesOn s k i ∨ (s.slots i).retireRequested = false

/-- No acquire that holds a slot is cut, and none finds its slot marked after another browser is
closed. -/
def Undisturbed : Action → Pool → Prop
  | .cancel k, s => ∀ call ∈ s.calls[k]?, call.phase.held = none
  | .browserClosed k outcome _, s => ∀ call ∈ s.calls[k]?, ∀ held, call.phase = .closing held →
      outcome = .ok () ∧ ∀ i, held = .selected i → (s.slots i).retireRequested = false
  | _, _ => True

/-! ### One slot -/

/-- How a slot goes with what is counted elsewhere. -/
structure Fits (cfg : Config) (slot : Slot) (pooled : Prop)
    (leases holders launchers closers : Nat) : Prop where
  active : slot.active = leases + holders
  room : slot.active ≤ cfg.contextsPerProcess
  closing : slot.closing = closers
  marks : slot.retiring = (slot.retireRequested || decide (0 < slot.closing))
  launched : pooled → slot.launching = true → 0 < launchers
  launch : 0 < launchers → pooled ∧ slot.launching = true ∧ slot.active = 1 ∧ slot.closing = 0 ∧
    slot.retireRequested = false

namespace Fits

variable {cfg : Config} {slot : Slot} {pooled pooled' : Prop} {u n l c : Nat}

/-- No one launches a slot that is launched. -/
theorem none_launches (h : Fits cfg slot pooled u n l c) (hlaunching : slot.launching = false) :
    l = 0 := by
  by_contra hne
  have hon := (h.launch (by omega)).2.1
  rw [hlaunching] at hon
  cases hon

/-- A slot that two hold is not being launched. -/
theorem none_launches_of_others (h : Fits cfg slot pooled u n l c) (hone : u + n ≠ 1) : l = 0 := by
  by_contra hne
  have hsingle := (h.launch (by omega)).2.2.1
  have hactive := h.active
  omega

/-- A slot that one holds is launched by no other. -/
theorem none_launches_else {m : Nat} (h : Fits cfg slot pooled u (n + 1) (l + m) c) (hfew : l ≤ n) :
    l = 0 := by
  by_contra hne
  have hnone := h.none_launches_of_others (by omega)
  omega

theorem take (h : Fits cfg slot pooled u n l c) (hlaunching : slot.launching = false)
    (hroom : slot.active < cfg.contextsPerProcess) :
    Fits cfg { slot with active := slot.active + 1 } pooled u (n + 1) l c where
  active := congrArg (· + 1) h.active
  room := hroom
  closing := h.closing
  marks := h.marks
  launched := h.launched
  launch hl := by
    have hnone := h.none_launches hlaunching
    omega

/-- A new slot. -/
theorem made (cfg : Config) (key : String) (now : Rat) :
    Fits cfg { key, active := 1, createdAt := now } True 0 1 1 0 where
  active := rfl
  room := cfg.contexts_pos
  closing := rfl
  marks := rfl
  launched _ _ := Nat.one_pos
  launch _ := ⟨trivial, rfl, rfl, rfl, rfl⟩

/-- A slot in use by no one leaves the pool. -/
theorem leave (h : Fits cfg slot pooled u n l c) (hlaunching : slot.launching = false) :
    Fits cfg slot pooled' u n l c where
  active := h.active
  room := h.room
  closing := h.closing
  marks := h.marks
  launched _ hon := by
    rw [hlaunching] at hon
    cases hon
  launch hl := by
    have hnone := h.none_launches hlaunching
    omega

/-- The browser is launched. -/
theorem launch_done (h : Fits cfg slot pooled u (n + 1) (l + 1) c) (hfew : l ≤ n) :
    Fits cfg { slot with browser := true, launching := false } pooled u (n + 1) l c where
  active := h.active
  room := h.room
  closing := h.closing
  marks := h.marks
  launched _ hon := by cases hon
  launch hl := by
    have hsingle := (h.launch (Nat.succ_pos l)).2.2.1
    have hactive := h.active
    omega

/-- The context is created. -/
theorem lease (h : Fits cfg slot pooled u (n + 1) l c) : Fits cfg slot pooled (u + 1) n l c where
  active := by
    have hactive := h.active
    omega
  room := h.room
  closing := h.closing
  marks := h.marks
  launched := h.launched
  launch := h.launch

/-- A slot that is given back stays in the pool only with what is still counted. -/
theorem back {slot' : Slot} {u' n' l' c' : Nat} (h : Fits cfg slot pooled u n l c)
    (hpooled : pooled' → pooled) (hactive : slot'.active = u' + n')
    (hless : slot'.active ≤ slot.active) (hclosing : slot'.closing = c')
    (hlaunching : slot'.launching = slot.launching)
    (hmarks : slot'.retiring = (slot'.retireRequested || decide (0 < slot'.closing)))
    (hnone : l' = 0) (hgone : pooled' → l = 0) : Fits cfg slot' pooled' u' n' l' c' where
  active := hactive
  room := hless.trans h.room
  closing := hclosing
  marks := hmarks
  launched hin hon := by
    have hpos := h.launched (hpooled hin) (hlaunching ▸ hon)
    have hzero := hgone hin
    omega
  launch hl := by omega

end Fits

/-! ### The invariant -/

/-- The releases that close a context of a slot. -/
def Pool.closers (s : Pool) (i : Nat) : Nat :=
  s.releases.countP fun release => release.slot == i && release.phase == .closingContext

/-- A slot goes with what is counted, the call at `k` holding `w`. -/
def FitsAt (cfg : Config) (k : Nat) (w : Option Held) (s : Pool) (i : Nat) : Prop :=
  Fits cfg (s.slots i) (i ∈ s.pooled) (s.unreleased i)
    (others (Call.holds i) s.calls k + (holds i w).toNat)
    (others (Call.launches i) s.calls k + (launches i w).toNat) (s.closers i)

/-- The invariant while the call at `k` runs and holds `w`. -/
structure Working (cfg : Config) (k : Nat) (w : Option Held) (s : Pool) : Prop where
  bounded : s.pooled.length ≤ cfg.maxProcesses
  nodup : s.pooled.Nodup
  known : ∀ i ∈ s.pooled, i < s.made
  fits : ∀ i, FitsAt cfg k w s i
  fresh : ∀ i, s.made ≤ i → s.unreleased i = 0 ∧
    others (Call.holds i) s.calls k + (holds i w).toNat = 0 ∧ s.closers i = 0

/-- The invariant while no call runs. -/
def Kept (cfg : Config) (s : Pool) : Prop := Working cfg s.calls.length none s

variable {cfg : Config} {s s' : Pool} {turn : Turn} {k i : Nat} {w w' : Option Held} {call : Call}
  {key : String} {phase : Phase}

@[simp] theorem setSlot_self (slot : Slot) : (s.setSlot i slot).slots i = slot :=
  Function.update_self ..

theorem setSlot_of_ne {j : Nat} (hne : j ≠ i) (slot : Slot) :
    (s.setSlot i slot).slots j = s.slots j :=
  Function.update_of_ne hne ..

@[simp] theorem setSlot_pooled (slot : Slot) : (s.setSlot i slot).pooled = s.pooled := rfl

@[simp] theorem setSlot_calls (slot : Slot) : (s.setSlot i slot).calls = s.calls := rfl

@[simp] theorem setSlot_unreleased (slot : Slot) (j : Nat) :
    (s.setSlot i slot).unreleased j = s.unreleased j := rfl

@[simp] theorem setSlot_closers (slot : Slot) (j : Nat) :
    (s.setSlot i slot).closers j = s.closers j := rfl

@[simp] theorem Call.holds_notify (i : Nat) (call : Call) :
    call.notify.holds i = call.holds i := by
  obtain ⟨key, phase⟩ := call
  cases phase <;> rfl

@[simp] theorem Call.launches_notify (i : Nat) (call : Call) :
    call.notify.launches i = call.launches i := by
  obtain ⟨key, phase⟩ := call
  cases phase <;> rfl

/-- Who launches a slot holds it. -/
theorem launchers_le (s : Pool) (k i : Nat) :
    others (Call.launches i) s.calls k ≤ others (Call.holds i) s.calls k :=
  others_mono _ (fun _ => holds_of_launches) _ _

theorem Kept.working (h : Kept cfg s) (hcall : s.calls[k]? = some call) :
    Working cfg k call.phase.held s := by
  have hholds : ∀ i, others (Call.holds i) s.calls s.calls.length + (holds i none).toNat =
      others (Call.holds i) s.calls k + (holds i call.phase.held).toNat := fun i =>
    (others_length _ _).trans (countP_eq (Call.holds i) hcall)
  have hlaunches : ∀ i, others (Call.launches i) s.calls s.calls.length + (launches i none).toNat =
      others (Call.launches i) s.calls k + (launches i call.phase.held).toNat := fun i =>
    (others_length _ _).trans (countP_eq (Call.launches i) hcall)
  refine ⟨h.bounded, h.nodup, h.known, fun i => ?_, fun i hi => ?_⟩
  · have hfits := h.fits i
    rwa [FitsAt, hholds, hlaunches] at hfits
  · have hfresh := h.fresh i hi
    rwa [hholds] at hfresh

namespace Working

/-- The call waits again or is done. -/
theorem setPhase (h : Working cfg k w s) (hk : k < s.calls.length) (hw : phase.held = w) :
    Kept cfg (s.setPhase k key phase) := by
  subst hw
  have hholds : ∀ i, others (Call.holds i) (s.setPhase k key phase).calls
      (s.setPhase k key phase).calls.length + (holds i none).toNat =
        others (Call.holds i) s.calls k + (holds i phase.held).toNat := fun i =>
    (others_length _ _).trans (countP_set (Call.holds i) hk ⟨key, phase⟩)
  have hlaunches : ∀ i, others (Call.launches i) (s.setPhase k key phase).calls
      (s.setPhase k key phase).calls.length + (launches i none).toNat =
        others (Call.launches i) s.calls k + (launches i phase.held).toNat := fun i =>
    (others_length _ _).trans (countP_set (Call.launches i) hk ⟨key, phase⟩)
  refine ⟨h.bounded, h.nodup, h.known, fun i => ?_, fun i hi => ?_⟩
  · rw [FitsAt, hholds, hlaunches]
    exact h.fits i
  · rw [hholds]
    exact h.fresh i hi

theorem notifyAll (h : Working cfg k w s) : Working cfg k w s.notifyAll := by
  have hholds : ∀ i, others (Call.holds i) s.notifyAll.calls k = others (Call.holds i) s.calls k :=
    fun i => others_map _ (Call.holds_notify i)
  have hlaunches : ∀ i, others (Call.launches i) s.notifyAll.calls k =
      others (Call.launches i) s.calls k := fun i => others_map _ (Call.launches_notify i)
  refine ⟨h.bounded, h.nodup, h.known, fun i => ?_, fun i hi => ?_⟩
  · rw [FitsAt, hholds, hlaunches]
    exact h.fits i
  · rw [hholds]
    exact h.fresh i hi

/-- What changes at one slot only is to be shown for that slot only. -/
theorem change (h : Working cfg k w s) (i : Nat) (hcalls : s'.calls = s.calls)
    (hmade : s'.made = s.made) (hpooled : s'.pooled.Sublist s.pooled)
    (hslots : ∀ j ≠ i, s'.slots j = s.slots j ∧ (j ∈ s.pooled → j ∈ s'.pooled))
    (hcounts : ∀ j ≠ i, s'.unreleased j = s.unreleased j ∧ s'.closers j = s.closers j)
    (hheld : ∀ j ≠ i, holds j w' = holds j w ∧ launches j w' = launches j w)
    (hi : i < s.made) (hfits : FitsAt cfg k w' s' i) : Working cfg k w' s' := by
  refine ⟨hpooled.length_le.trans h.bounded, hpooled.nodup h.nodup, fun j hj => ?_, fun j => ?_,
    fun j hj => ?_⟩
  · rw [hmade]
    exact h.known j (hpooled.subset hj)
  · rcases eq_or_ne j i with rfl | hne
    · exact hfits
    · have hsame : (j ∈ s'.pooled) = (j ∈ s.pooled) :=
        propext ⟨fun hin => hpooled.subset hin, (hslots j hne).2⟩
      rw [FitsAt, (hslots j hne).1, hsame, (hcounts j hne).1, (hcounts j hne).2,
        (hheld j hne).1, (hheld j hne).2, hcalls]
      exact h.fits j
  · rw [hmade] at hj
    rw [(hcounts j (by omega)).1, (hcounts j (by omega)).2, (hheld j (by omega)).1, hcalls]
    exact h.fresh j hj

/-- A slot that is not being launched leaves the pool. -/
theorem remove (h : Working cfg k w s) (hlaunching : (s.slots i).launching = false) :
    Working cfg k w (s.remove i) := by
  by_cases hi : i ∈ s.pooled
  · refine h.change i rfl rfl List.erase_sublist (fun j hne => ⟨rfl, ?_⟩) (fun _ _ => ⟨rfl, rfl⟩)
      (fun _ _ => ⟨rfl, rfl⟩) (h.known i hi) ((h.fits i).leave hlaunching)
    exact (List.mem_erase_of_ne hne).mpr
  · have hsame : s.remove i = s := by
      rw [Pool.remove, List.erase_of_not_mem hi]
    rwa [hsame]

theorem removeAny (h : Working cfg k w s) {retired : Option Nat}
    (hretired : ∀ i ∈ retired, (s.slots i).launching = false) :
    Working cfg k w (s.removeAny retired) := by
  cases retired with
  | none => exact h
  | some i => exact h.remove (hretired i rfl)

/-- The call takes room in a slot. -/
theorem take (h : Working cfg k none s) (hi : i ∈ s.pooled)
    (hlaunching : (s.slots i).launching = false)
    (hroom : (s.slots i).active < cfg.contextsPerProcess) :
    Working cfg k (some (.selected i))
      (s.setSlot i { s.slots i with active := (s.slots i).active + 1 }) := by
  refine h.change i rfl rfl (.refl _) (fun j hne => ⟨setSlot_of_ne hne _, id⟩)
    (fun _ _ => ⟨rfl, rfl⟩) (fun j hne => ?_) (h.known i hi) ?_
  · simp [hne.symm]
  · have hfits := (h.fits i).take hlaunching hroom
    rw [FitsAt, setSlot_self]
    simpa using hfits

/-- The call adds a slot. -/
theorem add (h : Working cfg k none s) (hroom : s.pooled.length < cfg.maxProcesses) :
    Working cfg k (some (.launch s.made))
      { s.setSlot s.made { key, active := 1, createdAt := turn.now } with
        made := s.made + 1, pooled := s.pooled ++ [s.made] } := by
  have hnew : s.made ∉ s.pooled := fun hin => (h.known _ hin).false
  obtain ⟨hleases, hholders, hclosers⟩ := h.fresh s.made le_rfl
  refine ⟨?_, ?_, ?_, fun i => ?_, fun i hi => ?_⟩
  · rw [List.length_append]
    exact hroom
  · exact List.nodup_append.mpr ⟨h.nodup, by simp, by simpa using fun i hin => (h.known i hin).ne⟩
  · intro i hi
    rcases List.mem_append.mp hi with hold | hself
    · exact (h.known i hold).trans (Nat.lt_succ_self _)
    · exact (List.mem_singleton.mp hself).trans_lt (Nat.lt_succ_self _)
  · show Fits cfg ((s.setSlot s.made _).slots i) (i ∈ s.pooled ++ [s.made]) (s.unreleased i)
      (others (Call.holds i) s.calls k + _) (others (Call.launches i) s.calls k + _) (s.closers i)
    rcases eq_or_ne i s.made with rfl | hne
    · have hfew := launchers_le s k s.made
      have hin : (s.made ∈ s.pooled ++ [s.made]) = True := by simp
      have hh : others (Call.holds s.made) s.calls k = 0 := by omega
      have hl : others (Call.launches s.made) s.calls k = 0 := by omega
      rw [setSlot_self, hin, hleases, hclosers, hh, hl]
      simpa using Fits.made cfg key turn.now
    · have hfits := h.fits i
      have hin : (i ∈ s.pooled ++ [s.made]) = (i ∈ s.pooled) := by simp [hne]
      rw [setSlot_of_ne hne, hin]
      simpa [FitsAt, beq_false_of_ne hne.symm] using hfits
  · have hold : s.made ≤ i := (Nat.le_succ _).trans hi
    have hne : s.made ≠ i := by
      have hlt : s.made + 1 ≤ i := hi
      omega
    have hfresh := h.fresh i hold
    show s.unreleased i = 0 ∧
      others (Call.holds i) s.calls k + (holds i (some (.launch s.made))).toNat = 0 ∧
        s.closers i = 0
    simpa [beq_false_of_ne hne] using hfresh

/-- The browser of the slot is launched. -/
theorem launch_done (h : Working cfg k (some (.launch i)) s) :
    Working cfg k (some (.selected i))
      (s.setSlot i { s.slots i with browser := true, launching := false }) := by
  have hfits := h.fits i
  have hmade : i < s.made := by
    by_contra hge
    have hnone := (h.fresh i (by omega)).2.1
    simp at hnone
  refine h.change i rfl rfl (.refl _) (fun j hne => ⟨setSlot_of_ne hne _, id⟩)
    (fun _ _ => ⟨rfl, rfl⟩) (fun j hne => ?_) hmade ?_
  · simp [hne.symm]
  · rw [FitsAt, setSlot_self]
    simp only [FitsAt, holds_some, slot_launch, beq_self_eq_true, Bool.toNat_true,
      launches_launch] at hfits
    simpa using hfits.launch_done (launchers_le s k i)

/-- The context is created and leased. -/
theorem lease (h : Working cfg k (some (.selected i)) s) :
    Working cfg k none { s with leases := s.leases ++ [Lease.mk i false] } := by
  have hfits := h.fits i
  have hmade : i < s.made := by
    by_contra hge
    have hnone := (h.fresh i (by omega)).2.1
    simp at hnone
  have hleases : ∀ j, Pool.unreleased { s with leases := s.leases ++ [Lease.mk i false] } j =
      s.unreleased j + (i == j).toNat := by
    intro j
    rw [Pool.unreleased, countP_append_singleton, Bool.not_false, Bool.and_true]
    rfl
  refine h.change i rfl rfl (.refl _) (fun _ _ => ⟨rfl, id⟩) (fun j hne => ⟨?_, rfl⟩)
    (fun j hne => ?_) hmade ?_
  · rw [hleases, beq_false_of_ne hne.symm]
    rfl
  · simp [hne.symm]
  · rw [FitsAt, hleases, beq_self_eq_true]
    simp only [FitsAt, holds_some, slot_selected, beq_self_eq_true, Bool.toNat_true,
      launches_selected] at hfits
    exact hfits.lease

/-- A slot that was changed leaves the pool when it is marked and not in use. -/
theorem retire (h : Working cfg k w s) (hcalls : s'.calls = s.calls) (hmade : s'.made = s.made)
    (hpooled : s'.pooled = s.pooled) (hslots : ∀ j ≠ i, s'.slots j = s.slots j)
    (hcounts : ∀ j ≠ i, s'.unreleased j = s.unreleased j ∧ s'.closers j = s.closers j)
    (hheld : ∀ j ≠ i, holds j w' = holds j w ∧ launches j w' = launches j w) (hi : i < s.made)
    (hfits : ∀ stays : Prop, (stays → i ∈ s.pooled) → (stays → ¬ ((s'.slots i).active = 0 ∧
      (s'.slots i).closing = 0 ∧ (s'.slots i).retireRequested = true)) →
        Fits cfg (s'.slots i) stays (s'.unreleased i)
          (others (Call.holds i) s.calls k + (holds i w').toNat)
          (others (Call.launches i) s.calls k + (launches i w').toNat) (s'.closers i)) :
    Working cfg k w' (s'.retire i).1 := by
  unfold Pool.retire
  dsimp only
  split_ifs with hleaves
  · have hnodup : s'.pooled.Nodup := hpooled ▸ h.nodup
    have hremoved : Working cfg k w' (s'.remove i) := by
      refine h.change i hcalls hmade ?_ (fun j hne => ⟨hslots j hne, ?_⟩) hcounts hheld hi ?_
      · exact hpooled ▸ List.erase_sublist
      · exact fun hin => (List.mem_erase_of_ne hne).mpr (hpooled ▸ hin)
      · have hout : i ∉ s'.pooled.erase i := hnodup.not_mem_erase
        rw [FitsAt, Pool.remove, hcalls]
        exact hfits _ (fun hin => absurd hin hout) fun hin => absurd hin hout
    exact hremoved.notifyAll
  · refine (h.change i hcalls hmade (hpooled ▸ .refl _) (fun j hne => ⟨hslots j hne, ?_⟩) hcounts
      hheld hi ?_).notifyAll
    · exact fun hin => hpooled ▸ hin
    · rw [FitsAt, hcalls]
      exact hfits _ (fun hin => hpooled ▸ hin) fun hin hidle => hleaves ⟨hin, hidle⟩

theorem made_of_holds (h : Working cfg k w s) (hw : holds i w = true) : i < s.made := by
  by_contra hge
  have hnone := (h.fresh i (by omega)).2.1
  rw [hw] at hnone
  simp at hnone

/-- The slot that the call holds is given back after an error. -/
theorem giveBack {held : Held} (h : Working cfg k (some held) s) :
    Working cfg k none (s.releaseSlot turn held.slot false true).1 := by
  have hfits := h.fits held.slot
  have hfew := launchers_le s k held.slot
  rw [FitsAt, holds_some, beq_self_eq_true, Bool.toNat_true] at hfits
  have hnone : others (Call.launches held.slot) s.calls k = 0 := hfits.none_launches_else hfew
  refine h.retire rfl rfl rfl (fun j hne => setSlot_of_ne hne _) (fun _ _ => ⟨rfl, rfl⟩)
    (fun _ => not_held _) (h.made_of_holds (by simp)) fun stays hin hstays => ?_
  rw [setSlot_self] at hstays ⊢
  refine hfits.back hin ?_ (Nat.sub_le _ _) hfits.closing rfl rfl hnone fun hstay => ?_
  · exact Nat.sub_eq_of_eq_add hfits.active
  · by_contra hne
    obtain ⟨-, -, hsingle, hclosing, -⟩ := hfits.launch (Nat.pos_of_ne_zero hne)
    refine hstays hstay ⟨?_, hclosing, ?_⟩
    · exact Nat.sub_eq_of_eq_add hsingle
    · exact Bool.or_true _

end Working

/-! ### Functions -/

@[simp] theorem retire_calls_length : (s.retire i).1.calls.length = s.calls.length := by
  unfold Pool.retire
  dsimp only
  split_ifs <;> exact List.length_map ..

theorem idle_launching (h : s.idle i = true) : (s.slots i).launching = false := by
  rw [Pool.idle, Bool.and_eq_true, Bool.not_eq_true'] at h
  exact h.1

theorem dead_launching (h : i ∈ s.dead turn) : (s.slots i).launching = false := by
  have hdead := List.find?_some (Option.mem_def.mp h)
  rw [Bool.and_eq_true] at hdead
  exact idle_launching hdead.1

theorem spare_launching (h : i ∈ s.spare cfg) : (s.slots i).launching = false := by
  unfold Pool.spare at h
  split_ifs at h
  · exact idle_launching (List.find?_some (Option.mem_def.mp h))
  · cases h

@[simp] theorem removeAny_calls (retired : Option Nat) : (s.removeAny retired).calls = s.calls := by
  cases retired <;> rfl

theorem closers_setRelease {phase : ReleasePhase} (hrelease : s.releases[k]? = some ⟨i, phase⟩)
    (phase' : ReleasePhase) (j : Nat) :
    (s.setRelease k i phase').closers j + (i == j && phase == .closingContext).toNat =
      s.closers j + (i == j && phase' == .closingContext).toNat :=
  countP_set_add (fun release : Release =>
    release.slot == j && release.phase == .closingContext) hrelease ⟨i, phase'⟩

namespace Working

theorem failed (held : Held) (h : Working cfg k (some held) s) (hk : k < s.calls.length)
    (e : Raised) : Kept cfg (s.failed turn k key held.slot e) := by
  unfold Pool.failed
  dsimp only
  have hlength : (s.releaseSlot turn held.slot false true).1.calls.length = s.calls.length :=
    retire_calls_length
  refine h.giveBack.setPhase (by rwa [hlength]) ?_
  split <;> rfl

theorem proceed {held : Held} (h : Working cfg k (some held) s) (hk : k < s.calls.length) :
    Kept cfg (s.proceed turn k key held) := by
  cases held with
  | selected i => exact h.setPhase hk rfl
  | launch i =>
    rw [Pool.proceed]
    split_ifs
    · exact h.setPhase hk rfl
    · exact h.failed (.launch i) hk _

theorem closeRetired {held : Held} (h : Working cfg k (some held) s) (hk : k < s.calls.length)
    (retired : Option Nat) : Kept cfg (s.closeRetired turn k key retired held) := by
  unfold Pool.closeRetired
  split
  · exact h.setPhase hk rfl
  · exact h.proceed hk

theorem addSlot (h : Working cfg k none s) (hk : k < s.calls.length)
    (hroom : s.pooled.length < cfg.maxProcesses) (retired : Option Nat) :
    Kept cfg (s.addSlot turn k key retired) :=
  (h.add hroom).closeRetired hk retired

/-- The stretch of an acquire that begins at the head of its loop. -/
theorem attempt (h : Working cfg k none s) (hk : k < s.calls.length) :
    Kept cfg (s.attempt cfg turn k key) := by
  have hleft : Working cfg k none (s.removeAny (s.dead turn)) :=
    h.removeAny fun i hi => dead_launching hi
  have hk' : k < (s.removeAny (s.dead turn)).calls.length := by rwa [removeAny_calls]
  unfold Pool.attempt
  dsimp only
  split
  · rename_i i hfound
    have husable := List.find?_some hfound
    simp only [Pool.usable, Bool.and_eq_true, Bool.not_eq_true', decide_eq_true_eq] at husable
    obtain ⟨⟨⟨⟨-, hlaunching⟩, -⟩, -⟩, hroom⟩ := husable
    exact (hleft.take (List.mem_of_find?_eq_some hfound) hlaunching hroom).closeRetired hk' _
  · have hspare := hleft.removeAny fun i (hi : i ∈ Pool.spare cfg _) => spare_launching hi
    split_ifs with hlaunched hroom
    · exact hleft.setPhase hk' rfl
    · exact hspare.addSlot (by rwa [removeAny_calls]) hroom _
    · exact hspare.setPhase (by rwa [removeAny_calls]) rfl

theorem start (h : Working cfg k none s) (hk : k < s.calls.length) :
    Kept cfg (s.start cfg turn k key) := by
  unfold Pool.start
  split
  · exact h.attempt hk
  · exact setPhase (s := { s with startLocked := true })
      ⟨h.bounded, h.nodup, h.known, h.fits, h.fresh⟩ hk rfl

end Working

namespace Kept

theorem append (h : Kept cfg s) (key : String) :
    Kept cfg { s with calls := s.calls ++ [Call.mk key .startQueued] } := by
  have hholds : ∀ i, others (Call.holds i) (s.calls ++ [Call.mk key .startQueued])
      (s.calls ++ [Call.mk key .startQueued]).length =
        others (Call.holds i) s.calls s.calls.length := by
    intro i
    rw [others_length, countP_append_singleton, others_length]
    rfl
  have hlaunches : ∀ i, others (Call.launches i) (s.calls ++ [Call.mk key .startQueued])
      (s.calls ++ [Call.mk key .startQueued]).length =
        others (Call.launches i) s.calls s.calls.length := by
    intro i
    rw [others_length, countP_append_singleton, others_length]
    rfl
  refine ⟨h.bounded, h.nodup, h.known, fun i => ?_, fun i hi => ?_⟩
  · rw [FitsAt, hholds, hlaunches]
    exact h.fits i
  · rw [hholds]
    exact h.fresh i hi

theorem acquire (h : Kept cfg s) : Kept cfg (s.acquire cfg turn key) := by
  have happended := h.append key
  unfold Pool.acquire
  dsimp only
  split
  · exact happended
  · have hcall : (s.calls ++ [Call.mk key .startQueued])[s.calls.length]? =
        some ⟨key, .startQueued⟩ := by simp
    exact (happended.working hcall).start (by simp)

theorem resume (h : Kept cfg s) (hcall : s.calls[k]? = some call) :
    Kept cfg (s.resume cfg turn k call) := by
  have hk := (List.getElem?_eq_some_iff.mp hcall).1
  have hworking := h.working hcall
  obtain ⟨key, phase⟩ := call
  unfold Pool.resume
  dsimp only
  split
  · split
    · exact h
    · exact hworking.start hk
  · exact hworking.attempt hk
  · exact h

theorem started (h : Kept cfg s) (hcall : s.calls[k]? = some call)
    (outcome : Except Raised Unit) : Kept cfg (s.started cfg turn k call outcome) := by
  have hk := (List.getElem?_eq_some_iff.mp hcall).1
  have hworking := h.working hcall
  obtain ⟨key, phase⟩ := call
  unfold Pool.started
  dsimp only
  split
  · exact Working.setPhase (s := { s with startLocked := false })
      ⟨hworking.bounded, hworking.nodup, hworking.known, hworking.fits, hworking.fresh⟩ hk rfl
  · exact Working.attempt (s := { s with startLocked := false, playwright := true })
      ⟨hworking.bounded, hworking.nodup, hworking.known, hworking.fits, hworking.fresh⟩ hk
  · exact h

/-- Another browser is closed, and the call goes on with the slot it holds. -/
theorem browserClosed (h : Kept cfg s) (hcall : s.calls[k]? = some call)
    {outcome : Except Raised Unit}
    (hclosed : ∀ held, call.phase = .closing held → outcome = .ok ()) :
    Kept cfg (s.browserClosed turn k call outcome) := by
  have hk := (List.getElem?_eq_some_iff.mp hcall).1
  have hworking := h.working hcall
  obtain ⟨key, phase⟩ := call
  unfold Pool.browserClosed
  dsimp only at hclosed ⊢
  split
  · exact hworking.proceed hk
  · cases hclosed _ rfl
  · exact hworking.setPhase hk rfl
  · exact h

theorem launched (h : Kept cfg s) (hcall : s.calls[k]? = some call)
    (outcome : Except Raised Unit) : Kept cfg (s.launched turn k call outcome) := by
  have hk := (List.getElem?_eq_some_iff.mp hcall).1
  have hworking := h.working hcall
  obtain ⟨key, phase⟩ := call
  unfold Pool.launched
  dsimp only
  split
  · exact hworking.launch_done.notifyAll.setPhase (by rwa [Pool.notifyAll, List.length_map]) rfl
  · exact hworking.failed (.launch _) hk _
  · exact h

theorem created (h : Kept cfg s) (hcall : s.calls[k]? = some call)
    (outcome : Except Raised Unit) : Kept cfg (s.created turn k call outcome) := by
  have hk := (List.getElem?_eq_some_iff.mp hcall).1
  have hworking := h.working hcall
  obtain ⟨key, phase⟩ := call
  unfold Pool.created
  dsimp only
  split
  · exact hworking.lease.setPhase hk rfl
  · exact hworking.failed (.selected _) hk _
  · exact h

/-- A call that holds no slot may be cancelled. -/
theorem cancel (h : Kept cfg s) (hcall : s.calls[k]? = some call) (hfree : call.phase.held = none) :
    Kept cfg (s.cancel k call) := by
  have hk := (List.getElem?_eq_some_iff.mp hcall).1
  have hworking := h.working hcall
  rw [hfree] at hworking
  unfold Pool.cancel
  split
  · exact h
  · exact h
  · exact h
  · exact Working.setPhase (s := { s with startLocked := false })
      ⟨hworking.bounded, hworking.nodup, hworking.known, hworking.fits, hworking.fresh⟩ hk rfl
  · exact hworking.setPhase hk rfl

theorem releaseDone {release : Release} (h : Kept cfg s)
    (hrelease : s.releases[k]? = some release) : Kept cfg (s.releaseDone k release) := by
  obtain ⟨i, phase⟩ := release
  cases phase with
  | closingContext | done => exact h
  | closingBrowser =>
    have hclosers : ∀ j, (s.setRelease k i .done).closers j = s.closers j := by
      intro j
      have hset := closers_setRelease hrelease .done j
      rwa [show (ReleasePhase.closingBrowser == .closingContext) = false by decide,
        show (ReleasePhase.done == .closingContext) = false by decide, Bool.and_false] at hset
    refine ⟨h.bounded, h.nodup, h.known, fun j => ?_, fun j hj => ?_⟩
    · show FitsAt cfg s.calls.length none (s.setRelease k i .done) j
      rw [FitsAt, hclosers]
      exact h.fits j
    · show _ ∧ _ ∧ (s.setRelease k i .done).closers j = 0
      rw [hclosers]
      exact h.fresh j hj

end Kept

/-- A lease is released, and the context is to be closed. -/
theorem Kept.release {j : Nat} {lease : Lease} (h : Kept cfg s)
    (hlease : s.leases[j]? = some lease) : Kept cfg (s.release turn j lease) := by
  unfold Pool.release
  split_ifs with hreleased
  · exact h
  have hcount : ∀ i, (s.leases.set j { lease with released := true }).countP
      (fun l => l.slot == i && !l.released) + (lease.slot == i).toNat = s.unreleased i := by
    intro i
    have hset := countP_set_add (fun l => l.slot == i && !l.released) hlease
      { lease with released := true }
    simpa [hreleased, Pool.unreleased] using hset
  have hclosers : ∀ i, (s.releases ++ [Release.mk lease.slot .closingContext]).countP
      (fun release => release.slot == i && release.phase == .closingContext) =
        s.closers i + (lease.slot == i).toNat := by
    intro i
    rw [countP_append_singleton]
    simp [Pool.closers]
  have hmade : lease.slot < s.made := by
    by_contra hge
    have hnone := (h.fresh lease.slot (by omega)).1
    have hself := hcount lease.slot
    simp at hself
    omega
  have hfits := h.fits lease.slot
  have hfew := launchers_le s s.calls.length lease.slot
  rw [FitsAt, ← hcount, beq_self_eq_true, Bool.toNat_true] at hfits
  have hnone : others (Call.launches lease.slot) s.calls s.calls.length + 0 = 0 := by
    by_contra hne
    have hzero := hfits.none_launches_of_others (by omega)
    exact hne hzero
  unfold Kept
  rw [Pool.releaseSlot, retire_calls_length]
  refine Working.retire h rfl rfl rfl (fun j hne => setSlot_of_ne hne _) (fun i hne => ⟨?_, ?_⟩)
    (fun _ _ => ⟨rfl, rfl⟩) hmade fun stays hin hstays => ?_
  · show (s.leases.set j { lease with released := true }).countP _ = s.unreleased i
    rw [← hcount i, beq_false_of_ne hne.symm]
    rfl
  · exact (hclosers i).trans (by rw [beq_false_of_ne hne.symm]; rfl)
  · rw [setSlot_self]
    refine hfits.back hin ?_ (Nat.sub_le _ _) ?_ rfl rfl hnone fun _ => hnone
    · exact Nat.sub_eq_of_eq_add (hfits.active.trans (Nat.add_right_comm _ _ _))
    · refine Eq.symm ((hclosers lease.slot).trans ?_)
      rw [beq_self_eq_true]
      exact congrArg (· + 1) hfits.closing.symm

theorem finishRelease_setRelease (j : Nat) (closeFailed : Bool) (phase : ReleasePhase) :
    (s.finishRelease i closeFailed).1.setRelease k j phase =
      ((s.setRelease k j phase).finishRelease i closeFailed).1 := by
  unfold Pool.finishRelease Pool.retire
  dsimp only
  split_ifs with hleft hright hright
  · rfl
  · exact absurd hleft hright
  · exact absurd hright hleft
  · rfl

/-- The context of a release is closed, or not. -/
theorem Kept.contextClosed {release : Release} (h : Kept cfg s)
    (hrelease : s.releases[k]? = some release) (closeFailed : Bool) :
    Kept cfg (s.contextClosed k release closeFailed) := by
  obtain ⟨i, phase⟩ := release
  cases phase with
  | closingBrowser | done => exact h
  | closingContext =>
    have hcount : ∀ phase : ReleasePhase, phase ≠ .closingContext → ∀ j,
        (s.setRelease k i phase).closers j + (i == j).toNat = s.closers j := by
      intro phase hphase j
      have hset := closers_setRelease hrelease phase j
      rwa [beq_self_eq_true, beq_false_of_ne hphase, Bool.and_true, Bool.and_false] at hset
    have hdone : ∀ phase : ReleasePhase, phase ≠ .closingContext →
        Kept cfg ((s.finishRelease i closeFailed).1.setRelease k i phase) := by
      intro phase hphase
      have hclosers := hcount phase hphase i
      rw [beq_self_eq_true, Bool.toNat_true] at hclosers
      have hmade : i < s.made := by
        by_contra hge
        have hzero := (h.fresh i (by omega)).2.2
        omega
      have hfits := h.fits i
      have hnone : others (Call.launches i) s.calls s.calls.length + 0 = 0 := by
        by_contra hne
        have hidle := (hfits.launch (Nat.pos_of_ne_zero hne)).2.2.2.1
        have hclosing := hfits.closing
        omega
      rw [finishRelease_setRelease]
      unfold Kept
      rw [Pool.finishRelease, retire_calls_length]
      refine Working.retire h rfl rfl rfl (fun j hne => setSlot_of_ne hne _)
        (fun j hne => ⟨rfl, ?_⟩) (fun _ _ => ⟨rfl, rfl⟩) hmade fun stays hin _ => ?_
      · have hother := hcount phase hphase j
        rwa [beq_false_of_ne hne.symm] at hother
      · rw [setSlot_self]
        refine hfits.back hin hfits.active le_rfl ?_ rfl rfl hnone fun _ => hnone
        show (s.slots i).closing - 1 = (s.setRelease k i phase).closers i
        rw [hfits.closing]
        omega
    unfold Pool.contextClosed
    dsimp only
    split_ifs
    · exact hdone _ (by decide)
    · exact hdone _ (by decide)

/-! ### Marked slots -/

section Marked

variable {j : Nat}

theorem creates_setPhase (h : CreatesOn (s.setPhase k key phase) j i) :
    CreatesOn s j i ∨ phase = .creating i := by
  obtain ⟨key', hcall⟩ := h
  rw [Pool.setPhase, List.getElem?_set] at hcall
  split_ifs at hcall
  · exact .inr (Call.mk.inj (Option.some.inj hcall)).2
  · exact .inl ⟨key', hcall⟩

/-- A notification begins nothing. -/
theorem creates_map_notify (hcalls : s'.calls = s.calls.map Call.notify) (h : CreatesOn s' j i) :
    CreatesOn s j i := by
  obtain ⟨key, hcall⟩ := h
  rw [hcalls, List.getElem?_map, Option.map_eq_some_iff] at hcall
  obtain ⟨⟨key', phase⟩, hcall, hnotified⟩ := hcall
  cases phase with
  | waiting => cases hnotified
  | creating => exact ⟨key', hcall.trans (by cases hnotified; rfl)⟩
  | startQueued | starting | closing | launching | failing | returned | raised | cancelled =>
    cases hnotified

theorem retire_calls : (s.retire i).1.calls = s.calls.map Call.notify := by
  unfold Pool.retire
  dsimp only
  split_ifs <;> rfl

theorem releaseSlot_calls {context failed : Bool} :
    (s.releaseSlot turn i context failed).1.calls = s.calls.map Call.notify :=
  retire_calls

theorem creates_failed {i' : Nat} {e : Raised} (h : CreatesOn (s.failed turn k key i' e) j i) :
    CreatesOn s j i := by
  unfold Pool.failed at h
  dsimp only at h
  rcases creates_setPhase h with hold | hphase
  · exact creates_map_notify releaseSlot_calls hold
  · split_ifs at hphase

theorem creates_proceed {held : Held} (h : CreatesOn (s.proceed turn k key held) j i) :
    CreatesOn s j i ∨ held = .selected i := by
  cases held with
  | selected i' =>
    refine (creates_setPhase h).imp_right fun hphase => ?_
    rw [Phase.creating.inj hphase]
  | launch i' =>
    rw [Pool.proceed] at h
    split_ifs at h
    · refine (creates_setPhase h).imp_right fun hphase => ?_
      cases hphase
    · exact .inl (creates_failed h)

theorem creates_closeRetired {held : Held} {retired : Option Nat}
    (h : CreatesOn (s.closeRetired turn k key retired held) j i) :
    CreatesOn s j i ∨ held = .selected i := by
  unfold Pool.closeRetired at h
  split_ifs at h
  · refine (creates_setPhase h).imp_right fun hphase => ?_
    cases hphase
  · exact creates_proceed h

/-- A call that does not go on to create a context begins nothing. -/
theorem creates_of_ne (h : CreatesOn (s.setPhase k key phase) j i)
    (hphase : ∀ i, phase ≠ .creating i) : CreatesOn s j i :=
  (creates_setPhase h).resolve_right (hphase i)

/-- A slot that is marked is retiring. -/
def MarksKept (s : Pool) : Prop := ∀ i, (s.slots i).retiring =
  ((s.slots i).retireRequested || decide (0 < (s.slots i).closing))

/-- An acquire selects no slot that is marked. -/
theorem creates_attempt (h : CreatesOn (s.attempt cfg turn k key) j i) (hmarks : MarksKept s) :
    CreatesOn s j i ∨ (s.slots i).retireRequested = false := by
  have hleft : ∀ (s : Pool) (retired : Option Nat),
      CreatesOn (s.removeAny retired) j i → CreatesOn s j i := by
    rintro s retired ⟨key, hcall⟩
    rw [removeAny_calls] at hcall
    exact ⟨key, hcall⟩
  have hslots : (s.removeAny (s.dead turn)).slots = s.slots := by
    cases s.dead turn <;> rfl
  unfold Pool.attempt at h
  dsimp only at h
  split at h
  · rename_i i' hfound
    refine (creates_closeRetired h).imp (hleft s _) fun hheld => ?_
    obtain rfl := Held.selected.inj hheld
    have husable := List.find?_some hfound
    simp only [Pool.usable, hslots, Bool.and_eq_true, Bool.not_eq_true', decide_eq_true_eq]
      at husable
    have hfree := husable.1.1.2
    rw [hmarks i', Bool.or_eq_false_iff] at hfree
    exact hfree.1
  · split_ifs at h
    · exact .inl (hleft s _ (creates_of_ne h nofun))
    · rcases creates_closeRetired h with hold | hheld
      · exact .inl (hleft s _ (hleft _ _ hold))
      · cases hheld
    · exact .inl (hleft s _ (hleft _ _ (creates_of_ne h nofun)))

theorem creates_start (h : CreatesOn (s.start cfg turn k key) j i) (hmarks : MarksKept s) :
    CreatesOn s j i ∨ (s.slots i).retireRequested = false := by
  unfold Pool.start at h
  split_ifs at h
  · exact creates_attempt h hmarks
  · exact .inl (creates_of_ne h nofun)

theorem creates_acquire (h : CreatesOn (s.acquire cfg turn key) j i) (hmarks : MarksKept s) :
    CreatesOn s j i ∨ (s.slots i).retireRequested = false := by
  have happended : ∀ s' : Pool, s'.calls = s.calls ++ [Call.mk key .startQueued] →
      CreatesOn s' j i → CreatesOn s j i := by
    rintro s' hcalls ⟨key', hcall⟩
    rw [hcalls, List.getElem?_append] at hcall
    split_ifs at hcall
    · exact ⟨key', hcall⟩
    · obtain ⟨-, hphase⟩ := Call.mk.inj (List.mem_singleton.mp (List.mem_of_getElem? hcall))
      cases hphase
  unfold Pool.acquire at h
  dsimp only at h
  split at h
  · exact .inl (happended _ rfl h)
  · exact (creates_start h hmarks).imp_left (happended _ rfl)

theorem creates_resume (h : CreatesOn (s.resume cfg turn k call) j i) (hmarks : MarksKept s) :
    CreatesOn s j i ∨ (s.slots i).retireRequested = false := by
  unfold Pool.resume at h
  split at h
  · split_ifs at h
    · exact .inl h
    · exact creates_start h hmarks
  · exact creates_attempt h hmarks
  · exact .inl h

theorem creates_started {outcome : Except Raised Unit}
    (h : CreatesOn (s.started cfg turn k call outcome) j i) (hmarks : MarksKept s) :
    CreatesOn s j i ∨ (s.slots i).retireRequested = false := by
  unfold Pool.started at h
  split at h
  · exact .inl (creates_of_ne (s := { s with startLocked := false }) h nofun)
  · exact creates_attempt (s := { s with startLocked := false, playwright := true }) h hmarks
  · exact .inl h

theorem creates_browserClosed {outcome : Except Raised Unit}
    (h : CreatesOn (s.browserClosed turn k call outcome) j i) :
    CreatesOn s j i ∨ call.phase = .closing (.selected i) := by
  unfold Pool.browserClosed at h
  split at h
  · rename_i held hphase
    exact (creates_proceed h).imp_right fun hheld => hphase.trans (by rw [hheld])
  · exact .inl (creates_of_ne h nofun)
  · exact .inl (creates_of_ne h nofun)
  · exact .inl h

theorem creates_launched {outcome : Except Raised Unit}
    (h : CreatesOn (s.launched turn k call outcome) j i) :
    CreatesOn s j i ∨ call.phase = .launching i := by
  unfold Pool.launched at h
  split at h
  · rename_i i' hphase
    rcases creates_setPhase h with hold | hcreating
    · exact .inl (creates_map_notify (s := s) rfl hold)
    · exact .inr (hphase.trans (congrArg _ (Phase.creating.inj hcreating)))
  · exact .inl (creates_failed h)
  · exact .inl h

theorem creates_created {outcome : Except Raised Unit}
    (h : CreatesOn (s.created turn k call outcome) j i) : CreatesOn s j i := by
  unfold Pool.created at h
  split at h
  · exact creates_of_ne (s := { s with leases := _ }) h nofun
  · exact creates_failed h
  · exact h

theorem creates_cancel (h : CreatesOn (s.cancel k call) j i) : CreatesOn s j i := by
  unfold Pool.cancel at h
  split at h
  · exact h
  · exact h
  · exact h
  · exact creates_of_ne (s := { s with startLocked := false }) h nofun
  · exact creates_of_ne h nofun

theorem creates_release {l : Nat} {lease : Lease} (h : CreatesOn (s.release turn l lease) j i) :
    CreatesOn s j i := by
  unfold Pool.release at h
  split_ifs at h
  · exact h
  · have hcreates := creates_map_notify releaseSlot_calls h
    exact hcreates

theorem creates_contextClosed {release : Release} {closeFailed : Bool}
    (h : CreatesOn (s.contextClosed k release closeFailed) j i) : CreatesOn s j i := by
  unfold Pool.contextClosed at h
  split at h
  · have hcalls : (s.finishRelease release.slot closeFailed).1.calls = s.calls.map Call.notify :=
      retire_calls
    exact creates_map_notify hcalls h
  · exact h

theorem creates_releaseDone {release : Release} (h : CreatesOn (s.releaseDone k release) j i) :
    CreatesOn s j i := by
  unfold Pool.releaseDone at h
  split at h
  · exact h
  · exact h

theorem onEntry_cases {α : Type} {table : List α} {f : α → Pool} {P : Pool → Prop} (hs : P s)
    (h : ∀ entry, table[k]? = some entry → P (f entry)) : P (onEntry table k s f) := by
  unfold onEntry
  split
  · exact h _ ‹_›
  · exact hs

/-- A step that begins a context begins it on a slot that is not marked. -/
theorem step_unmarked (h : Kept cfg s) (action : Action) (hstep : Undisturbed action s) :
    UsesUnmarked cfg action s := by
  intro j i
  have hmarks : MarksKept s := fun i => (h.fits i).marks
  have hentry : ∀ {α : Type} {table : List α} {k : Nat} {f : α → Pool},
      (∀ entry, table[k]? = some entry → CreatesOn (f entry) j i →
        CreatesOn s j i ∨ (s.slots i).retireRequested = false) →
      CreatesOn (onEntry table k s f) j i →
        CreatesOn s j i ∨ (s.slots i).retireRequested = false := fun hf =>
    onEntry_cases (P := fun s' => CreatesOn s' j i →
      CreatesOn s j i ∨ (s.slots i).retireRequested = false) .inl hf
  cases action with
  | acquire key turn => exact fun hcreates => creates_acquire hcreates hmarks
  | resume k turn => exact hentry fun _ _ hcreates => creates_resume hcreates hmarks
  | started k outcome turn => exact hentry fun _ _ hcreates => creates_started hcreates hmarks
  | browserClosed k outcome turn =>
    refine hentry fun call hcall hcreates => ?_
    exact (creates_browserClosed hcreates).imp_right fun hphase =>
      (hstep call hcall _ hphase).2 i rfl
  | launched k outcome turn =>
    refine hentry fun call hcall hcreates => (creates_launched hcreates).imp_right fun hphase => ?_
    have hworking := h.working hcall
    rw [hphase] at hworking
    have hpos : 0 < others (Call.launches i) s.calls k +
        (launches i (Phase.launching i).held).toNat := by
      simp [Phase.held]
    exact ((hworking.fits i).launch hpos).2.2.2.2
  | created k outcome turn => exact hentry fun _ _ hcreates => .inl (creates_created hcreates)
  | cancel k => exact hentry fun _ _ hcreates => .inl (creates_cancel hcreates)
  | release l turn => exact hentry fun _ _ hcreates => .inl (creates_release hcreates)
  | contextClosed l closeFailed =>
    exact hentry fun _ _ hcreates => .inl (creates_contextClosed hcreates)
  | releaseDone l => exact hentry fun _ _ hcreates => .inl (creates_releaseDone hcreates)

end Marked

/-! ### Runs -/

theorem kept_empty : Kept cfg {} where
  bounded := Nat.zero_le _
  nodup := List.nodup_nil
  known _ h := by cases h
  fits i := {
    active := rfl
    room := Nat.zero_le _
    closing := rfl
    marks := rfl
    launched := fun h => by cases h
    launch := fun h => by cases h }
  fresh _ _ := ⟨rfl, rfl, rfl⟩

theorem Kept.accounted (h : Kept cfg s) : Accounted cfg s where
  bounded := h.bounded
  active i := by
    have hfits := h.fits i
    rw [FitsAt, others_length, others_length] at hfits
    exact ⟨hfits.active, hfits.room⟩
  launching i hi hlaunching := by
    have hfits := h.fits i
    rw [FitsAt, others_length, others_length] at hfits
    exact List.countP_pos_iff.mp (hfits.launched hi hlaunching)

theorem step_kept (h : Kept cfg s) (action : Action) (hstep : Undisturbed action s) :
    Kept cfg (step cfg action s) := by
  cases action with
  | acquire key turn => exact h.acquire
  | resume k turn => exact onEntry_cases h fun _ hcall => h.resume hcall
  | started k outcome turn => exact onEntry_cases h fun _ hcall => h.started hcall outcome
  | browserClosed k outcome turn =>
    exact onEntry_cases h fun call hcall =>
      h.browserClosed hcall fun held hphase => (hstep call hcall held hphase).1
  | launched k outcome turn => exact onEntry_cases h fun _ hcall => h.launched hcall outcome
  | created k outcome turn => exact onEntry_cases h fun _ hcall => h.created hcall outcome
  | cancel k => exact onEntry_cases h fun call hcall => h.cancel hcall (hstep call hcall)
  | release j turn => exact onEntry_cases h fun _ hlease => h.release hlease
  | contextClosed k closeFailed =>
    exact onEntry_cases h fun _ hrelease => h.contextClosed hrelease closeFailed
  | releaseDone k => exact onEntry_cases h fun _ hrelease => h.releaseDone hrelease

/-- An acquire that is cut while it holds a slot leaves the slot in use by no one. -/
theorem cut {held : Held} (h : Kept cfg s) (hcall : s.calls[k]? = some call)
    (hheld : call.phase.held = some held) (hphase : phase.held = none) :
    ¬ Accounted cfg (s.setPhase k key phase) := by
  intro haccounted
  have hk := (List.getElem?_eq_some_iff.mp hcall).1
  have hactive := ((h.working hcall).fits held.slot).active
  have hsame := (haccounted.active held.slot).1
  have hcreating : (s.setPhase k key phase).creating held.slot =
      others (Call.holds held.slot) s.calls k + (holds held.slot phase.held).toNat :=
    countP_set _ hk _
  rw [hphase, holds_none, Bool.toNat_false] at hcreating
  rw [hheld, holds_some, beq_self_eq_true, Bool.toNat_true] at hactive
  rw [hcreating] at hsame
  have hunreleased : (s.setPhase k key phase).unreleased held.slot = s.unreleased held.slot := rfl
  have hslots : (s.setPhase k key phase).slots held.slot = s.slots held.slot := rfl
  rw [hunreleased, hslots] at hsame
  omega

/-- A step that keeps the accounts and uses no marked slot disturbs no acquire that holds one. -/
theorem undisturbed_of_step (h : Kept cfg s) {action : Action}
    (hnext : Accounted cfg (step cfg action s)) (hunmarked : UsesUnmarked cfg action s) :
    Undisturbed action s := by
  cases action with
  | cancel k =>
    intro call hcall
    by_contra hheld
    obtain ⟨held, hheld⟩ := Option.ne_none_iff_exists'.mp hheld
    have hstep : step cfg (.cancel k) s = s.setPhase k call.key .cancelled := by
      rw [step, onEntry, Option.mem_def.mp hcall]
      obtain ⟨key, phase⟩ := call
      cases phase with
      | closing | launching | creating => rfl
      | startQueued | starting | waiting | failing | returned | raised | cancelled => cases hheld
    rw [hstep] at hnext
    exact cut h hcall hheld rfl hnext
  | browserClosed k outcome turn =>
    intro call hcall held hphase
    obtain ⟨key, phase⟩ := call
    obtain rfl : phase = .closing held := hphase
    have hstep : step cfg (.browserClosed k outcome turn) s =
        s.browserClosed turn k ⟨key, .closing held⟩ outcome := by
      rw [step, onEntry, Option.mem_def.mp hcall]
    cases outcome with
    | error e =>
      rw [hstep] at hnext
      exact absurd hnext (cut h hcall rfl rfl)
    | ok _ =>
      refine ⟨rfl, fun i hselected => ?_⟩
      subst hselected
      have hk := (List.getElem?_eq_some_iff.mp hcall).1
      refine (hunmarked k i ?_).resolve_left ?_
      · rw [hstep]
        exact ⟨key, List.getElem?_set_self hk⟩
      · rintro ⟨key', hcreating⟩
        cases (Option.mem_def.mp hcall).symm.trans hcreating
  | acquire | resume | started | launched | created | release | contextClosed | releaseDone =>
    trivial

/-- The pool accounts for every context, and uses no marked slot, exactly as long as no acquire
that holds a slot is disturbed. -/
theorem contexts_accounted_iff (cfg : Config) (actions : List Action) :
    Throughout (step cfg) (Accounted cfg) actions {} ∧
        AllSteps (step cfg) (UsesUnmarked cfg) actions {} ↔
      AllSteps (step cfg) Undisturbed actions {} := by
  refine throughout_and_allSteps_iff (fun _ (h : Kept cfg _) => h.accounted)
    (fun action _ h => step_kept h action) (fun action s h => ⟨?_, fun hstep => ?_⟩) kept_empty
  · exact fun hnext => undisturbed_of_step h hnext.1 hnext.2
  · exact ⟨(step_kept h action hstep).accounted, step_unmarked h action hstep⟩

/-- An acquire is cancelled while it launches a browser. -/
theorem launch_lost : ¬ ∀ (cfg : Config) (actions : List Action),
    Throughout (step cfg) (Accounted cfg) actions {} ∧
      AllSteps (step cfg) (UsesUnmarked cfg) actions {} := by
  intro h
  have hfinal := (h (configure 1 1) [.acquire "" {}, .started 0 (.ok ()) {}, .cancel 0]).1.final
  have hactive := (hfinal.active 0).1
  exact absurd hactive (by decide +kernel)

end FetchTask.BrowserPool
