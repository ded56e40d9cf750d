import FetchTask.TaskMihomo
import Mathlib.Order.Basic
import Mathlib.Order.Defs.LinearOrder
import Mathlib.Algebra.Order.Group.Nat

/-!
The limits of the Mihomo exits.

The invariant has two halves. `Books` says how the slots go with what is counted
elsewhere while the call at `k` runs and holds `w`; `Lock` says what the other
calls may rely on, of which only the holder of the lock relies on the list. What
changes the list runs while no other call holds the lock. The law says that the
limits hold until a call is cancelled that holds a slot, or a proxy is released a
second time while its slot is in use.
-/

namespace FetchTask.TaskMihomo

open Held Runs Tally

/-! ### The law -/

/-- What a call holds, until it returns a proxy. -/
def Call.held : Call → Option Held
  | .task _ (.launching _ _ i) => some (.launch i)
  | .socks _ (.terminating held) => held
  | .socks _ (.launching i) => some (.launch i)
  | .socks _ (.launchFailed i _) => some (.launch i)
  | .socks _ (.launched i) => some (.selected i)
  | _ => none

def Call.holds (i : Nat) (call : Call) : Bool := Held.holds i call.held

def Call.launches (i : Nat) (call : Call) : Bool := Held.launches i call.held

/-- The proxies on a slot that are handed out and not released. -/
def Pool.outstanding (s : Pool) (i : Nat) : Nat :=
  s.proxies.countP fun proxy => proxy.slot == i && !proxy.released

/-- The acquires that are to hand out a proxy on a slot. -/
def Pool.holding (s : Pool) (i : Nat) : Nat := s.calls.countP (Call.holds i)

/-- A slot that stands for its exit. -/
def Slot.settled (slot : Slot) : Bool := slot.byTask && !slot.launching && !slot.retiring

/-- No two slots stand for one exit. -/
def Exits (s : Pool) : Prop :=
  ∀ i ∈ s.pooled, ∀ j ∈ s.pooled, i ≠ j → (s.slots i).settled = true → (s.slots j).settled = true →
    (s.slots i).exitId ≠ (s.slots j).exitId

/-- The pool respects its limits. -/
structure Respected (cfg : Config) (s : Pool) : Prop where
  bounded : s.pooled.length ≤ cfg.maxSlots
  active : ∀ i ∈ s.pooled, (s.slots i).active = s.outstanding i + s.holding i ∧
    (s.slots i).active ≤ cfg.contextsPerExit
  launching : ∀ i ∈ s.pooled, (s.slots i).launching = true →
    ∃ call ∈ s.calls, call.launches i = true
  exits : Exits s

/-- A second release does nothing, or makes the slot leave the list. -/
def Harmless (turn : Turn) (slot : Slot) : Prop :=
  slot.active = 0 ∨
    slot.active = 1 ∧ (slot.retiring || turn.coolingDown slot.nodeId) = true

/-- No call that holds a slot of the list is cancelled, and no proxy on a slot of the list is
released a second time, unless that is harmless. -/
def Undisturbed : Action → Pool → Prop
  | .cancel k, s => ∀ call ∈ s.calls[k]?, ∀ held ∈ call.held, held.slot ∉ s.pooled
  | .enterRelease r turn, s => s.locked = false →
      ∀ release ∈ s.releases[r]?, release.phase = .locking →
        ∀ proxy ∈ s.proxies[release.proxy]?, proxy.released = true → proxy.slot ∈ s.pooled →
          Harmless turn (s.slots proxy.slot)
  | _, _ => True

/-! ### One slot -/

/-- How a slot goes with what is counted elsewhere. -/
structure Fits (cfg : Config) (slot : Slot) (pooled : Prop) (proxies holders launchers : Nat) :
    Prop where
  active : pooled → slot.active = proxies + holders
  room : pooled → slot.active ≤ cfg.contextsPerExit
  launched : pooled → slot.launching = true → 0 < launchers
  launch : 0 < launchers → pooled ∧ slot.launching = true ∧ slot.active = 1

namespace Fits

variable {cfg : Config} {slot slot' : Slot} {pooled pooled' : Prop} {u n l m : Nat}

/-- No one launches a slot that is launched. -/
theorem none_launches (h : Fits cfg slot pooled u n l) (hlaunching : slot.launching = false) :
    l = 0 := by
  by_contra hne
  have hon := (h.launch (by omega)).2.1
  rw [hlaunching] at hon
  cases hon

/-- A slot that one launches is launched by no other. -/
theorem none_launches_else (h : Fits cfg slot pooled u (n + 1) (l + 1)) (hfew : l ≤ n) : l = 0 := by
  obtain ⟨hin, -, hsingle⟩ := h.launch (Nat.succ_pos l)
  have hactive := h.active hin
  omega

/-- Of what is not in the list only the launchers matter. -/
theorem outside (hpooled : ¬ pooled) (hl : l = 0) : Fits cfg slot pooled u n l where
  active hin := absurd hin hpooled
  room hin := absurd hin hpooled
  launched hin := absurd hin hpooled
  launch hpos := by omega

/-- Neither the mark nor the list matters to a slot that is launched. -/
theorem of_launched (h : Fits cfg slot pooled u n l) (hpooled : pooled' → pooled)
    (hactive : slot'.active = slot.active) (hlaunching : slot.launching = false)
    (hlaunching' : slot'.launching = false) : Fits cfg slot' pooled' u n l where
  active hin := hactive.trans (h.active (hpooled hin))
  room hin := hactive.le.trans (h.room (hpooled hin))
  launched _ hon := by
    rw [hlaunching'] at hon
    cases hon
  launch hpos := by
    have hnone := h.none_launches hlaunching
    omega

/-- The mark does not matter. -/
theorem marked (h : Fits cfg slot pooled u n l) (hactive : slot'.active = slot.active)
    (hlaunching : slot'.launching = slot.launching) : Fits cfg slot' pooled u n l where
  active hin := hactive.trans (h.active hin)
  room hin := hactive.le.trans (h.room hin)
  launched hin hon := h.launched hin (hlaunching ▸ hon)
  launch hpos := by
    obtain ⟨hin, hon, hsingle⟩ := h.launch hpos
    exact ⟨hin, hlaunching.trans hon, hactive.trans hsingle⟩

theorem take (h : Fits cfg slot pooled u n l) (hin : pooled) (hlaunching : slot.launching = false)
    (hroom : slot.active < cfg.contextsPerExit) :
    Fits cfg { slot with active := slot.active + 1 } pooled u (n + 1) l where
  active _ := congrArg (· + 1) (h.active hin)
  room _ := hroom
  launched := h.launched
  launch hpos := by
    have hnone := h.none_launches hlaunching
    omega

/-- The slot is launched. -/
theorem launch_done (h : Fits cfg slot pooled u (n + 1) (l + 1)) (hfew : l ≤ n)
    (hactive : slot'.active = slot.active) (hlaunching : slot'.launching = false) :
    Fits cfg slot' pooled u (n + 1) l where
  active hin := hactive.trans (h.active hin)
  room hin := hactive.le.trans (h.room hin)
  launched _ hon := by
    rw [hlaunching] at hon
    cases hon
  launch hpos := by
    have hnone := h.none_launches_else hfew
    omega

/-- The proxy is handed out. -/
theorem hand (h : Fits cfg slot pooled u (n + 1) l) : Fits cfg slot pooled (u + 1) n l where
  active hin := by
    have hactive := h.active hin
    omega
  room := h.room
  launched := h.launched
  launch := h.launch

end Fits

/-! ### The invariant -/

variable {cfg : Config} {u : Chars} {s s' : Pool} {turn : Turn} {k i : Nat} {w w' : Option Held}
  {call : Call}

/-- A slot goes with what is counted, the call at `k` holding `w`. -/
def FitsAt (cfg : Config) (k : Nat) (w : Option Held) (s : Pool) (i : Nat) : Prop :=
  Fits cfg (s.slots i) (i ∈ s.pooled) (s.outstanding i)
    (others (Call.holds i) s.calls k + (holds i w).toNat)
    (others (Call.launches i) s.calls k + (launches i w).toNat)

/-- The slots while the call at `k` runs and holds `w`. -/
structure Books (cfg : Config) (k : Nat) (w : Option Held) (s : Pool) : Prop where
  bounded : s.pooled.length ≤ cfg.maxSlots
  nodup : s.pooled.Nodup
  known : ∀ i ∈ s.pooled, i < s.made
  fits : ∀ i, FitsAt cfg k w s i
  fresh : ∀ i, s.made ≤ i → s.outstanding i = 0 ∧
    others (Call.holds i) s.calls k + (holds i w).toNat = 0
  given : ∀ proxy ∈ s.proxies, proxy.slot < s.made ∧ (s.slots proxy.slot).launching = false
  exits : Exits s

/-- A slot that is in the list and launched. -/
def Pool.Standing (s : Pool) (i : Nat) : Prop := i ∈ s.pooled ∧ (s.slots i).launching = false

/-- What the holder of the lock relies on. -/
def Relies (cfg : Config) (s : Pool) : Call → Prop
  | .task _ (.choosing ready _) => s.pooled.length < cfg.maxSlots ∧
      ∀ i ∈ ready, s.Standing i ∧ (s.slots i).active < cfg.contextsPerExit
  | .task _ (.checking ..) | .task _ (.identifying ..) => s.pooled.length < cfg.maxSlots
  | .task _ (.dropping _ d) => s.Standing d
  | _ => True

/-- What the other function launches it has made itself, and what it hands out is launched. -/
def OwnSlot (s : Pool) : Call → Prop
  | .socks _ (.terminating (some (.launch i))) | .socks _ (.launching i) =>
    i < s.made ∧ (s.slots i).byTask = false
  | .socks _ (.terminating (some (.selected i))) | .socks _ (.launched i) =>
    i < s.made ∧ (s.slots i).launching = false
  | _ => True

/-- The calls other than the one at `k`. -/
structure Lock (cfg : Config) (k : Nat) (s : Pool) : Prop where
  single : others Pool.holdsLock s.calls k = s.locked.toNat
  own : ∀ j ≠ k, ∀ call, s.calls[j]? = some call → OwnSlot s call
  relies : s.locked = true → ∀ j ≠ k, ∀ call, s.calls[j]? = some call → Relies cfg s call

/-- The invariant while no call runs. -/
structure Kept (cfg : Config) (s : Pool) : Prop where
  books : Books cfg s.calls.length none s
  lock : Lock cfg s.calls.length s

/-! ### Small facts -/

@[simp] theorem setSlot_self (slot : Slot) : (s.setSlot i slot).slots i = slot :=
  Function.update_self ..

theorem setSlot_of_ne {j : Nat} (hne : j ≠ i) (slot : Slot) :
    (s.setSlot i slot).slots j = s.slots j :=
  Function.update_of_ne hne ..

theorem setSlot_same (s : Pool) (i : Nat) : s.setSlot i (s.slots i) = s := by
  rw [Pool.setSlot, Function.update_eq_self]

@[simp] theorem setSlot_pooled (slot : Slot) : (s.setSlot i slot).pooled = s.pooled := rfl

@[simp] theorem setSlot_calls (slot : Slot) : (s.setSlot i slot).calls = s.calls := rfl

@[simp] theorem setSlot_outstanding (slot : Slot) (j : Nat) :
    (s.setSlot i slot).outstanding j = s.outstanding j := rfl

@[simp] theorem Call.held_notify (call : Call) : call.notify.held = call.held := by
  cases call with
  | task l stage => cases stage <;> rfl
  | socks l stage => cases stage <;> rfl
  | returned | raised | cancelled => rfl

@[simp] theorem holdsLock_notify (call : Call) : Pool.holdsLock call.notify = Pool.holdsLock call := by
  cases call with
  | task l stage => cases stage <;> rfl
  | socks l stage => cases stage <;> rfl
  | returned | raised | cancelled => rfl

theorem Call.holds_notify (i : Nat) (call : Call) : call.notify.holds i = call.holds i :=
  congrArg (Held.holds i) call.held_notify

theorem Call.launches_notify (i : Nat) (call : Call) : call.notify.launches i = call.launches i :=
  congrArg (Held.launches i) call.held_notify

theorem ownSlot_notify : OwnSlot s call.notify ↔ OwnSlot s call := by
  cases call with
  | task l stage => cases stage <;> rfl
  | socks l stage => cases stage <;> rfl
  | returned | raised | cancelled => rfl

theorem relies_notify : Relies cfg s call.notify ↔ Relies cfg s call := by
  cases call with
  | task l stage => cases stage <;> rfl
  | socks l stage => cases stage <;> rfl
  | returned | raised | cancelled => rfl

/-- Only the holder of the lock relies on the list. -/
theorem relies_of_free (h : Pool.holdsLock call = false) : Relies cfg s call := by
  cases call with
  | task l stage =>
    cases stage with
    | locking | waiting => trivial
    | terminating | choosing | checking | identifying | launching | dropping => cases h
  | socks | returned | raised | cancelled => trivial

theorem launchers_le (s : Pool) (k i : Nat) :
    others (Call.launches i) s.calls k ≤ others (Call.holds i) s.calls k :=
  others_mono _ (fun _ => holds_of_launches) _ _

/-- Slots leave the list or lose what makes them stand for an exit. -/
theorem Exits.mono (h : Exits s) (hpooled : ∀ i ∈ s'.pooled, i ∈ s.pooled)
    (hsettled : ∀ i ∈ s'.pooled, (s'.slots i).settled = true →
      (s.slots i).settled = true ∧ (s'.slots i).exitId = (s.slots i).exitId) : Exits s' := by
  intro i hi j hj hne hsi hsj
  obtain ⟨hsi, hei⟩ := hsettled i hi hsi
  obtain ⟨hsj, hej⟩ := hsettled j hj hsj
  rw [hei, hej]
  exact h i (hpooled i hi) j (hpooled j hj) hne hsi hsj

/-- Slots keep their maker, and what is launched stays so. -/
structure Grows (s s' : Pool) : Prop where
  made : s.made ≤ s'.made
  maker : ∀ i < s.made, (s'.slots i).byTask = (s.slots i).byTask
  launched : ∀ i < s.made, (s.slots i).launching = false → (s'.slots i).launching = false

theorem grows_setSlot {slot : Slot} (hmaker : slot.byTask = (s.slots i).byTask)
    (hlaunched : (s.slots i).launching = false → slot.launching = false) :
    Grows s (s.setSlot i slot) where
  made := le_rfl
  maker j _ := by
    rcases eq_or_ne j i with rfl | hne
    · rw [setSlot_self, hmaker]
    · rw [setSlot_of_ne hne]
  launched j _ hj := by
    rcases eq_or_ne j i with rfl | hne
    · rw [setSlot_self]
      exact hlaunched hj
    · rwa [setSlot_of_ne hne]

theorem OwnSlot.grow (h : OwnSlot s call) (hgrows : Grows s s') : OwnSlot s' call := by
  unfold OwnSlot at h ⊢
  split at h
  · exact ⟨h.1.trans_le hgrows.made, (hgrows.maker _ h.1).trans h.2⟩
  · exact ⟨h.1.trans_le hgrows.made, (hgrows.maker _ h.1).trans h.2⟩
  · exact ⟨h.1.trans_le hgrows.made, hgrows.launched _ h.1 h.2⟩
  · exact ⟨h.1.trans_le hgrows.made, hgrows.launched _ h.1 h.2⟩
  · trivial

theorem Relies.grow (h : Relies cfg s call) (hpooled : s'.pooled = s.pooled)
    (hactive : ∀ i, (s'.slots i).active = (s.slots i).active)
    (hlaunched : ∀ i, (s.slots i).launching = false → (s'.slots i).launching = false) :
    Relies cfg s' call := by
  have hstanding : ∀ i, s.Standing i → s'.Standing i := fun i hi =>
    ⟨hpooled.symm ▸ hi.1, hlaunched i hi.2⟩
  unfold Relies at h ⊢
  split at h
  · refine ⟨hpooled.symm ▸ h.1, fun i hi => ⟨hstanding i (h.2 i hi).1, ?_⟩⟩
    rw [hactive]
    exact (h.2 i hi).2
  · exact hpooled.symm ▸ h
  · exact hpooled.symm ▸ h
  · exact hstanding _ h
  · trivial

/-! ### Setting a call aside -/

namespace Kept

theorem booksAt (h : Kept cfg s) (hcall : s.calls[k]? = some call) : Books cfg k call.held s := by
  have hholds : ∀ i, others (Call.holds i) s.calls s.calls.length + (holds i none).toNat =
      others (Call.holds i) s.calls k + (holds i call.held).toNat := fun i =>
    (others_length _ _).trans (countP_eq (Call.holds i) hcall)
  have hlaunches : ∀ i, others (Call.launches i) s.calls s.calls.length +
      (launches i none).toNat =
        others (Call.launches i) s.calls k + (launches i call.held).toNat := fun i =>
    (others_length _ _).trans (countP_eq (Call.launches i) hcall)
  obtain ⟨⟨hbounded, hnodup, hknown, hfits, hfresh, hgiven, hexits⟩, -⟩ := h
  refine ⟨hbounded, hnodup, hknown, fun i => ?_, fun i hi => ?_, hgiven, hexits⟩
  · have hi := hfits i
    rwa [FitsAt, hholds, hlaunches] at hi
  · have hnone := hfresh i hi
    rwa [hholds] at hnone

theorem single (h : Kept cfg s) (hcall : s.calls[k]? = some call) :
    others Pool.holdsLock s.calls k + (Pool.holdsLock call).toNat = s.locked.toNat := by
  rw [← h.lock.single, others_length]
  exact (countP_eq Pool.holdsLock hcall).symm

theorem own (h : Kept cfg s) (hcall : s.calls[k]? = some call) : OwnSlot s call :=
  h.lock.own k (List.getElem?_eq_some_iff.mp hcall).1.ne call hcall

/-- A call that does not hold the lock. -/
theorem lockAt (h : Kept cfg s) (hcall : s.calls[k]? = some call)
    (hfree : Pool.holdsLock call = false) : Lock cfg k s where
  single := by
    have hsingle := h.single hcall
    rwa [hfree] at hsingle
  own _ _ _ hother := h.own hother
  relies hlocked j _ _ hother := h.lock.relies hlocked j
    (List.getElem?_eq_some_iff.mp hother).1.ne _ hother

/-- The call that holds the lock. -/
theorem unlockAt (h : Kept cfg s) (hcall : s.calls[k]? = some call)
    (hholds : Pool.holdsLock call = true) : Lock cfg k s.unlock ∧ Relies cfg s call := by
  have hsingle := h.single hcall
  rw [hholds, Bool.toNat_true] at hsingle
  have hlocked : s.locked = true := by
    cases hlocked : s.locked with
    | true => rfl
    | false =>
      rw [hlocked, Bool.toNat_false] at hsingle
      omega
  rw [hlocked, Bool.toNat_true] at hsingle
  refine ⟨⟨Nat.add_right_cancel (hsingle.trans (Nat.zero_add 1).symm), fun _ _ _ hother => ?_, ?_⟩, ?_⟩
  · exact h.own hother
  · exact fun hfalse => by cases hfalse
  · exact h.lock.relies hlocked k (List.getElem?_eq_some_iff.mp hcall).1.ne call hcall

end Kept

/-! ### The lock -/

namespace Lock

theorem notifyAll (h : Lock cfg k s) : Lock cfg k s.notifyAll where
  single := by
    rw [Pool.notifyAll, others_map _ holdsLock_notify]
    exact h.single
  own j hne call hcall := by
    rw [Pool.notifyAll, List.getElem?_map, Option.map_eq_some_iff] at hcall
    obtain ⟨call, hcall, rfl⟩ := hcall
    exact ownSlot_notify.mpr (h.own j hne call hcall)
  relies hlocked j hne call hcall := by
    rw [Pool.notifyAll, List.getElem?_map, Option.map_eq_some_iff] at hcall
    obtain ⟨call, hcall, rfl⟩ := hcall
    exact relies_notify.mpr (h.relies hlocked j hne call hcall)

/-- While no other call holds the lock the list may change. -/
theorem exclusive (h : Lock cfg k s) (hlocked : s.locked = false) (hlocked' : s'.locked = false)
    (hcalls : s'.calls = s.calls) (hgrows : Grows s s') : Lock cfg k s' where
  single := by
    rw [hcalls, hlocked', ← hlocked]
    exact h.single
  own j hne call hcall := (h.own j hne call (hcalls ▸ hcall)).grow hgrows
  relies htrue := by
    rw [hlocked'] at htrue
    cases htrue

/-- The call waits without the lock or is done. -/
theorem setCall (h : Lock cfg k s) (hk : k < s.calls.length)
    (hfree : Pool.holdsLock call = false) (hown : OwnSlot s call) :
    Lock cfg (s.setCall k call).calls.length (s.setCall k call) := by
  have hother : ∀ j other, (s.setCall k call).calls[j]? = some other →
      j = k ∧ other = call ∨ j ≠ k ∧ s.calls[j]? = some other := by
    intro j other hcall
    rw [Pool.setCall, List.getElem?_set] at hcall
    split_ifs at hcall with hj
    · exact .inl ⟨hj.symm, (Option.some.inj hcall).symm⟩
    · exact .inr ⟨fun heq => hj heq.symm, hcall⟩
  refine ⟨?_, fun j _ other hcall => ?_, fun hlocked j _ other hcall => ?_⟩
  · rw [others_length]
    refine (countP_set Pool.holdsLock hk call).trans ?_
    rw [hfree]
    exact h.single
  · rcases hother j other hcall with ⟨-, rfl⟩ | ⟨hne, hcall⟩
    · exact hown
    · exact h.own j hne other hcall
  · rcases hother j other hcall with ⟨-, rfl⟩ | ⟨hne, hcall⟩
    · exact relies_of_free hfree
    · exact h.relies hlocked j hne other hcall

/-- The call waits and keeps the lock. -/
theorem holdLock (h : Lock cfg k s) (hlocked : s.locked = false) (hk : k < s.calls.length)
    (hholds : Pool.holdsLock call = true) (hrelies : Relies cfg s call) :
    Lock cfg (s.holdLock k call).calls.length (s.holdLock k call) := by
  have hnone : others Pool.holdsLock s.calls k = 0 := by
    rw [h.single, hlocked]
    rfl
  have hother : ∀ j other, (s.holdLock k call).calls[j]? = some other →
      j = k ∧ other = call ∨ j ≠ k ∧ s.calls[j]? = some other := by
    intro j other hcall
    rw [Pool.holdLock, Pool.setCall, List.getElem?_set] at hcall
    split_ifs at hcall with hj
    · exact .inl ⟨hj.symm, (Option.some.inj hcall).symm⟩
    · exact .inr ⟨fun heq => hj heq.symm, hcall⟩
  have htask : OwnSlot s call := by
    cases call with
    | task => trivial
    | socks | returned | raised | cancelled => cases hholds
  refine ⟨?_, fun j _ other hcall => ?_, fun _ j _ other hcall => ?_⟩
  · rw [others_length]
    refine (countP_set Pool.holdsLock hk call).trans ?_
    rw [hnone, hholds]
    rfl
  · rcases hother j other hcall with ⟨-, rfl⟩ | ⟨hne, hcall⟩
    · exact htask
    · exact h.own j hne other hcall
  · rcases hother j other hcall with ⟨-, rfl⟩ | ⟨hne, hcall⟩
    · exact hrelies
    · refine relies_of_free ?_
      have hzero := List.countP_eq_zero.mp hnone other ?_
      · simpa using hzero
      · exact List.mem_eraseIdx_iff_getElem?.mpr ⟨j, hne, hcall⟩

end Lock

/-- Who stays in the list. -/
theorem mem_sweep {retires : Nat → Bool} : i ∈ (s.sweep retires).1.pooled ↔ i ∈ s.pooled ∧
    (!(((s.sweep retires).1.slots i).retiring && ((s.sweep retires).1.slots i).active == 0 &&
      !((s.sweep retires).1.slots i).launching)) = true :=
  List.mem_filter

/-! ### The slots -/

namespace Books

theorem notifyAll (h : Books cfg k w s) : Books cfg k w s.notifyAll := by
  have hholds : ∀ i, others (Call.holds i) s.notifyAll.calls k = others (Call.holds i) s.calls k :=
    fun i => others_map _ (Call.holds_notify i)
  have hlaunches : ∀ i, others (Call.launches i) s.notifyAll.calls k =
      others (Call.launches i) s.calls k := fun i => others_map _ (Call.launches_notify i)
  refine ⟨h.bounded, h.nodup, h.known, fun i => ?_, fun i hi => ?_, h.given, h.exits⟩
  · rw [FitsAt, hholds, hlaunches]
    exact h.fits i
  · rw [hholds]
    exact h.fresh i hi

theorem setCall (h : Books cfg k w s) (hk : k < s.calls.length) (hw : call.held = w) :
    Books cfg (s.setCall k call).calls.length none (s.setCall k call) := by
  subst hw
  have hholds : ∀ i, others (Call.holds i) (s.setCall k call).calls
      (s.setCall k call).calls.length + (holds i none).toNat =
        others (Call.holds i) s.calls k + (holds i call.held).toNat := fun i =>
    (others_length _ _).trans (countP_set (Call.holds i) hk call)
  have hlaunches : ∀ i, others (Call.launches i) (s.setCall k call).calls
      (s.setCall k call).calls.length + (launches i none).toNat =
        others (Call.launches i) s.calls k + (launches i call.held).toNat := fun i =>
    (others_length _ _).trans (countP_set (Call.launches i) hk call)
  refine ⟨h.bounded, h.nodup, h.known, fun i => ?_, fun i hi => ?_, h.given, h.exits⟩
  · rw [FitsAt, hholds, hlaunches]
    exact h.fits i
  · rw [hholds]
    exact h.fresh i hi

theorem made_of_holds (h : Books cfg k w s) (hw : holds i w = true) : i < s.made := by
  by_contra hge
  have hnone := (h.fresh i (by omega)).2
  rw [hw] at hnone
  simp at hnone

/-- A slot that is launched for the first time has no proxies. -/
theorem none_given (h : Books cfg k w s) (hlaunching : (s.slots i).launching = true) :
    ∀ proxy ∈ s.proxies, proxy.slot ≠ i := by
  rintro proxy hproxy rfl
  rw [(h.given proxy hproxy).2] at hlaunching
  cases hlaunching

/-- What changes at one slot only is to be shown for that slot only. -/
theorem change (h : Books cfg k w s) (i : Nat) (hcalls : s'.calls = s.calls)
    (hmade : s'.made = s.made) (hpooled : s'.pooled.Sublist s.pooled)
    (hslots : ∀ j ≠ i, s'.slots j = s.slots j ∧ (j ∈ s.pooled → j ∈ s'.pooled))
    (hproxies : ∀ j ≠ i, s'.outstanding j = s.outstanding j)
    (hheld : ∀ j ≠ i, holds j w' = holds j w ∧ launches j w' = launches j w)
    (hi : i < s.made) (hfits : FitsAt cfg k w' s' i)
    (hgiven : ∀ proxy ∈ s'.proxies, proxy.slot < s'.made ∧ (s'.slots proxy.slot).launching = false)
    (hexits : Exits s') : Books cfg k w' s' := by
  refine ⟨hpooled.length_le.trans h.bounded, hpooled.nodup h.nodup, fun j hj => ?_, fun j => ?_,
    fun j hj => ?_, hgiven, hexits⟩
  · rw [hmade]
    exact h.known j (hpooled.subset hj)
  · rcases eq_or_ne j i with rfl | hne
    · exact hfits
    · have hsame : (j ∈ s'.pooled) = (j ∈ s.pooled) :=
        propext ⟨fun hin => hpooled.subset hin, (hslots j hne).2⟩
      rw [FitsAt, (hslots j hne).1, hsame, hproxies j hne, (hheld j hne).1, (hheld j hne).2, hcalls]
      exact h.fits j
  · rw [hmade] at hj
    rw [hproxies j (by omega), (hheld j (by omega)).1, hcalls]
    exact h.fresh j hj

/-- The proxies stay on slots that are launched. -/
theorem given_set (h : Books cfg k w s) {slot : Slot}
    (hlaunching : (s.slots i).launching = true ∨ slot.launching = false) :
    ∀ proxy ∈ s.proxies, proxy.slot < s.made ∧
      ((s.setSlot i slot).slots proxy.slot).launching = false := by
  intro proxy hproxy
  refine ⟨(h.given proxy hproxy).1, ?_⟩
  rcases eq_or_ne proxy.slot i with heq | hne
  · rcases hlaunching with hon | hoff
    · exact absurd heq (h.none_given hon proxy hproxy)
    · rw [heq, setSlot_self, hoff]
  · rw [setSlot_of_ne hne]
    exact (h.given proxy hproxy).2

/-- A change of one slot that does not make it stand for another exit. -/
theorem exits_set (h : Books cfg k w s) {slot : Slot} (hsettled : slot.settled = true →
    (s.slots i).settled = true ∧ slot.exitId = (s.slots i).exitId) : Exits (s.setSlot i slot) := by
  refine h.exits.mono (fun _ hin => hin) fun j _ hj => ?_
  rcases eq_or_ne j i with rfl | hne
  · rw [setSlot_self] at hj ⊢
    exact hsettled hj
  · rw [setSlot_of_ne hne] at hj ⊢
    exact ⟨hj, rfl⟩

theorem take (h : Books cfg k none s) (hi : s.Standing i)
    (hroom : (s.slots i).active < cfg.contextsPerExit) :
    Books cfg k (some (.selected i)) (s.take i) := by
  refine h.change i rfl rfl (.refl _) (fun j hne => ⟨setSlot_of_ne hne _, id⟩) (fun _ _ => rfl)
    (fun j hne => ?_) (h.known i hi.1) ?_ (h.given_set (.inr hi.2))
    (h.exits_set fun hsettled => ⟨hsettled, rfl⟩)
  · have hfree := not_held (.selected i) hne
    exact ⟨hfree.1.symm, hfree.2.symm⟩
  · have hfits := (h.fits i).take hi.1 hi.2 hroom
    rw [FitsAt, Pool.take, setSlot_self]
    simpa using hfits

/-- A proxy is handed out on the slot that the call holds. -/
theorem hand (h : Books cfg k (some (.selected i)) s) (hlaunching : (s.slots i).launching = false)
    (proxy : Proxy) (hslot : proxy.slot = i) (hreleased : proxy.released = false) :
    Books cfg k none { s with proxies := s.proxies ++ [proxy] } := by
  have hmade : i < s.made := h.made_of_holds (by simp)
  have hcount : ∀ j, Pool.outstanding { s with proxies := s.proxies ++ [proxy] } j =
      s.outstanding j + (i == j).toNat := by
    intro j
    rw [Pool.outstanding, countP_append_singleton, hslot, hreleased, Bool.not_false, Bool.and_true]
    rfl
  refine h.change i rfl rfl (.refl _) (fun _ _ => ⟨rfl, id⟩) (fun j hne => ?_)
    (fun _ => not_held (.selected i)) hmade ?_ (fun other hother => ?_) h.exits
  · rw [hcount, beq_false_of_ne hne.symm]
    rfl
  · have hfits := h.fits i
    rw [FitsAt, hcount, beq_self_eq_true]
    simp only [FitsAt, holds_some, slot_selected, beq_self_eq_true, Bool.toNat_true,
      launches_selected] at hfits
    exact hfits.hand
  · rcases List.mem_append.mp hother with hold | hself
    · exact h.given other hold
    · obtain rfl := List.mem_singleton.mp hself
      rw [hslot]
      exact ⟨hmade, hlaunching⟩

/-- The slot that the call launches is launched. -/
theorem launch_done (h : Books cfg k (some (.launch i)) s) {slot : Slot}
    (hactive : slot.active = (s.slots i).active) (hlaunching : slot.launching = false)
    (hexits : Exits (s.setSlot i slot)) : Books cfg k (some (.selected i)) (s.setSlot i slot) := by
  have hfits := h.fits i
  refine h.change i rfl rfl (.refl _) (fun j hne => ⟨setSlot_of_ne hne _, id⟩) (fun _ _ => rfl)
    (fun j hne => ?_) (h.made_of_holds (by simp)) ?_ (h.given_set (.inr hlaunching)) hexits
  · have hfree := not_held (.selected i) hne
    have hheld := not_held (.launch i) hne
    exact ⟨hfree.1.symm.trans hheld.1, hfree.2.symm.trans hheld.2⟩
  · rw [FitsAt, setSlot_self]
    simp only [FitsAt, holds_some, slot_launch, beq_self_eq_true, Bool.toNat_true,
      launches_launch] at hfits
    have hdone := hfits.launch_done (launchers_le s k i) hactive hlaunching
    simpa using hdone

/-- The slot that the call launches leaves the list. -/
theorem launch_dropped (h : Books cfg k (some (.launch i)) s) (slot : Slot) :
    Books cfg k none ((s.setSlot i slot).remove i) := by
  have hfits := h.fits i
  simp only [FitsAt, holds_some, slot_launch, beq_self_eq_true, Bool.toNat_true,
    launches_launch] at hfits
  have hlaunching := (hfits.launch (Nat.succ_pos _)).2.1
  have hout : i ∉ s.pooled.erase i := h.nodup.not_mem_erase
  refine h.change i rfl rfl List.erase_sublist (fun j hne => ⟨setSlot_of_ne hne _, ?_⟩)
    (fun _ _ => rfl) (fun _ => not_held (.launch i)) (h.made_of_holds (by simp)) ?_
    (h.given_set (.inl hlaunching)) ?_
  · exact (List.mem_erase_of_ne hne).mpr
  · exact Fits.outside hout (hfits.none_launches_else (launchers_le s k i))
  · refine h.exits.mono (fun j hj => List.mem_of_mem_erase hj) fun j hj hsettled => ?_
    have hne : j ≠ i := fun heq => hout (heq ▸ hj)
    have hsame : ((s.setSlot i slot).remove i).slots j = s.slots j := setSlot_of_ne hne slot
    rw [hsame] at hsettled ⊢
    exact ⟨hsettled, rfl⟩

/-- What is held of a slot that is not in the list may be forgotten. -/
theorem drop {held : Held} (h : Books cfg k (some held) s) (hout : held.slot ∉ s.pooled) :
    Books cfg k none s := by
  have hmade : held.slot < s.made := h.made_of_holds (by simp)
  have hnone : others (Call.launches held.slot) s.calls k + (launches held.slot none).toNat = 0 := by
    by_contra hne
    have hpos : 0 < others (Call.launches held.slot) s.calls k +
        (launches held.slot (some held)).toNat := by
      simp only [launches_none, Bool.toNat_false] at hne
      omega
    exact hout ((h.fits held.slot).launch hpos).1
  exact h.change held.slot rfl rfl (.refl _) (fun _ _ => ⟨rfl, id⟩) (fun _ _ => rfl)
    (fun _ => not_held held) hmade (Fits.outside hout hnone) h.given h.exits

/-- The lock does not matter to the slots. -/
theorem setLocked (h : Books cfg k w s) (locked : Bool) : Books cfg k w { s with locked } :=
  ⟨h.bounded, h.nodup, h.known, h.fits, h.fresh, h.given, h.exits⟩

/-- A slot that no one launches leaves the list. -/
theorem remove (h : Books cfg k w s) (hlaunching : (s.slots i).launching = false) :
    Books cfg k w (s.remove i) := by
  by_cases hi : i ∈ s.pooled
  · have hnone := (h.fits i).none_launches hlaunching
    refine h.change i rfl rfl List.erase_sublist (fun j hne => ⟨rfl, ?_⟩) (fun _ _ => rfl)
      (fun _ _ => ⟨rfl, rfl⟩) (h.known i hi) (Fits.outside h.nodup.not_mem_erase hnone) h.given
      (h.exits.mono (fun j hj => List.mem_of_mem_erase hj) fun j _ hsettled => ⟨hsettled, rfl⟩)
    exact (List.mem_erase_of_ne hne).mpr
  · have hsame : s.remove i = s := by
      rw [Pool.remove, List.erase_of_not_mem hi]
    rwa [hsame]

/-- A slot is added that the call holds. -/
theorem add (held : Held) (slot : Slot) (h : Books cfg k none s) (hheld : held.slot = s.made)
    (hroom : s.pooled.length < cfg.maxSlots) (hactive : slot.active = 1)
    (hlaunching : slot.launching = launches s.made (some held))
    (hexits : slot.settled = true → ∀ i ∈ s.pooled, (s.slots i).settled = true →
      (s.slots i).exitId ≠ slot.exitId) : Books cfg k (some held) (s.add slot) := by
  have hnew : s.made ∉ s.pooled := fun hin => (h.known _ hin).false
  obtain ⟨hproxies, hholders⟩ := h.fresh s.made le_rfl
  have hfew := launchers_le s k s.made
  have hh : others (Call.holds s.made) s.calls k = 0 := by omega
  have hl : others (Call.launches s.made) s.calls k = 0 := by omega
  have hslots : ∀ j ≠ s.made, (s.add slot).slots j = s.slots j := fun j hne =>
    setSlot_of_ne hne slot
  have hself : (s.add slot).slots s.made = slot := setSlot_self slot
  refine ⟨?_, ?_, ?_, fun i => ?_, fun i hi => ?_, fun proxy hproxy => ?_, ?_⟩
  · exact (List.length_append ..).trans_le hroom
  · exact List.nodup_append.mpr ⟨h.nodup, by simp, by simpa using fun i hin => (h.known i hin).ne⟩
  · intro i hi
    rcases List.mem_append.mp hi with hold | hself
    · exact (h.known i hold).trans (Nat.lt_succ_self _)
    · exact (List.mem_singleton.mp hself).trans_lt (Nat.lt_succ_self _)
  · show Fits cfg ((s.add slot).slots i) (i ∈ s.pooled ++ [s.made]) (s.outstanding i)
      (others (Call.holds i) s.calls k + _) (others (Call.launches i) s.calls k + _)
    rcases eq_or_ne i s.made with rfl | hne
    · have hin : s.made ∈ s.pooled ++ [s.made] := by simp
      rw [hself, hproxies, hh, hl, holds_some, hheld, beq_self_eq_true]
      exact {
        active := fun _ => hactive
        room := fun _ => hactive.trans_le cfg.contexts_pos
        launched := fun _ hon => by
          rw [← hlaunching, hon]
          exact Nat.one_pos
        launch := fun hpos => by
          refine ⟨hin, hlaunching.trans ?_, hactive⟩
          cases hon : launches s.made (some held) with
          | true => rfl
          | false =>
            rw [hon] at hpos
            exact absurd hpos (Nat.lt_irrefl 0) }
    · have hin : (i ∈ s.pooled ++ [s.made]) = (i ∈ s.pooled) := by simp [hne]
      have hfree := not_held held (hheld.symm ▸ hne)
      rw [hslots i hne, hin, ← hfree.1, ← hfree.2]
      exact h.fits i
  · have hlt : s.made < i := hi
    have hfresh := h.fresh i hlt.le
    have hfree := not_held held (hheld.symm ▸ hlt.ne')
    show s.outstanding i = 0 ∧ others (Call.holds i) s.calls k + (holds i (some held)).toNat = 0
    rwa [← hfree.1]
  · obtain ⟨hlt, hlaunched⟩ := h.given proxy hproxy
    exact ⟨hlt.trans (Nat.lt_succ_self _), (congrArg Slot.launching (hslots _ hlt.ne)).trans hlaunched⟩
  · have hold : ∀ i ∈ s.pooled, (s.add slot).slots i = s.slots i := fun i hi =>
      hslots i (h.known i hi).ne
    intro i hi j hj hne hsi hsj
    rcases List.mem_append.mp hi with hi | hi
    · rcases List.mem_append.mp hj with hj | hj
      · rw [hold i hi] at hsi ⊢
        rw [hold j hj] at hsj ⊢
        exact h.exits i hi j hj hne hsi hsj
      · obtain rfl := List.mem_singleton.mp hj
        rw [hold i hi] at hsi ⊢
        rw [hself] at hsj ⊢
        exact hexits hsj i hi hsi
    · obtain rfl := List.mem_singleton.mp hi
      rcases List.mem_append.mp hj with hj | hj
      · rw [hself] at hsi ⊢
        rw [hold j hj] at hsj ⊢
        exact fun heq => hexits hsi j hj hsj heq.symm
      · exact absurd (List.mem_singleton.mp hj).symm hne

/-- Slots are marked, and those that are marked and not in use leave the list. -/
theorem sweep (h : Books cfg k w s) (retires : Nat → Bool) :
    Books cfg k w (s.sweep retires).1 := by
  have hslot : ∀ i, ((s.sweep retires).1.slots i).active = (s.slots i).active ∧
      ((s.sweep retires).1.slots i).launching = (s.slots i).launching ∧
      (((s.sweep retires).1.slots i).settled = true → (s.slots i).settled = true) ∧
      ((s.sweep retires).1.slots i).exitId = (s.slots i).exitId := by
    intro i
    unfold Pool.sweep
    dsimp only
    split_ifs
    · exact ⟨rfl, rfl, fun hsettled => by simp [Slot.settled] at hsettled, rfl⟩
    · exact ⟨rfl, rfl, id, rfl⟩
  have hless : (s.sweep retires).1.pooled.Sublist s.pooled := List.filter_sublist
  refine ⟨hless.length_le.trans h.bounded, hless.nodup h.nodup,
    fun i hi => h.known i (hless.subset hi), fun i => ?_, h.fresh, fun proxy hproxy => ?_, ?_⟩
  · show Fits cfg ((s.sweep retires).1.slots i) (i ∈ (s.sweep retires).1.pooled) (s.outstanding i)
      (others (Call.holds i) s.calls k + _) (others (Call.launches i) s.calls k + _)
    obtain ⟨hactive, hlaunching, -, -⟩ := hslot i
    by_cases hlaunched : (s.slots i).launching = true
    · have hsame : (i ∈ (s.sweep retires).1.pooled) = (i ∈ s.pooled) := by
        refine propext ⟨fun hi => hless.subset hi, fun hi => mem_sweep.mpr ⟨hi, ?_⟩⟩
        rw [hlaunching, hlaunched, Bool.not_true, Bool.and_false, Bool.not_false]
      rw [hsame]
      exact (h.fits i).marked hactive hlaunching
    · rw [Bool.not_eq_true] at hlaunched
      exact (h.fits i).of_launched (fun hi => hless.subset hi) hactive hlaunched
        (hlaunching.trans hlaunched)
  · obtain ⟨hlt, hlaunched⟩ := h.given proxy hproxy
    exact ⟨hlt, (hslot proxy.slot).2.1.trans hlaunched⟩
  · exact h.exits.mono (fun i hi => hless.subset hi) fun i _ hsettled =>
      ⟨(hslot i).2.2.1 hsettled, (hslot i).2.2.2⟩

end Books

/-! ### A call that runs -/

/-- The call at `k` runs and holds `w`. -/
structure Aside (cfg : Config) (k : Nat) (w : Option Held) (s : Pool) : Prop where
  books : Books cfg k w s
  lock : Lock cfg k s
  here : k < s.calls.length

/-- The call runs inside the lock. -/
structure Running (cfg : Config) (k : Nat) (w : Option Held) (s : Pool) : Prop
    extends Aside cfg k w s where
  free : s.locked = false

namespace Aside

theorem notifyAll (h : Aside cfg k w s) : Aside cfg k w s.notifyAll :=
  ⟨h.books.notifyAll, h.lock.notifyAll, h.here.trans_eq (List.length_map ..).symm⟩

theorem setCall (h : Aside cfg k w s) (hw : call.held = w) (hfree : Pool.holdsLock call = false)
    (hown : OwnSlot s call) : Kept cfg (s.setCall k call) :=
  ⟨h.books.setCall h.here hw, h.lock.setCall h.here hfree hown⟩

theorem handOut (h : Aside cfg k (some (.selected i)) s)
    (hlaunching : (s.slots i).launching = false) : Kept cfg (s.handOut k i) := by
  have hbooks := h.books.hand hlaunching {
    slot := i
    server := (s.slots i).server
    nodeId := (s.slots i).nodeId
    nodeName := (s.slots i).nodeName
    native := (s.slots i).native
    exitId := textOr (s.slots i).exitId ("node:" ++ (s.slots i).nodeId) } rfl rfl
  exact setCall ⟨hbooks, ⟨h.lock.single, h.lock.own, h.lock.relies⟩, h.here⟩ rfl rfl trivial

end Aside

namespace Running

theorem notifyAll (h : Running cfg k w s) : Running cfg k w s.notifyAll :=
  ⟨h.toAside.notifyAll, h.free⟩

theorem holdLock (h : Running cfg k w s) (hw : call.held = w)
    (hholds : Pool.holdsLock call = true) (hrelies : Relies cfg s call) :
    Kept cfg (s.holdLock k call) :=
  ⟨(h.books.setLocked true).setCall h.here hw, h.lock.holdLock h.free h.here hholds hrelies⟩

theorem take (h : Running cfg k none s) (hi : s.Standing i)
    (hroom : (s.slots i).active < cfg.contextsPerExit) :
    Running cfg k (some (.selected i)) (s.take i) :=
  ⟨⟨h.books.take hi hroom, h.lock.exclusive h.free h.free rfl (grows_setSlot rfl id), h.here⟩,
    h.free⟩

theorem add (held : Held) (slot : Slot) (h : Running cfg k none s) (hheld : held.slot = s.made)
    (hroom : s.pooled.length < cfg.maxSlots) (hactive : slot.active = 1)
    (hlaunching : slot.launching = launches s.made (some held))
    (hexits : slot.settled = true → ∀ i ∈ s.pooled, (s.slots i).settled = true →
      (s.slots i).exitId ≠ slot.exitId) : Running cfg k (some held) (s.add slot) := by
  have hold : ∀ i < s.made, (s.add slot).slots i = s.slots i := fun i hi => setSlot_of_ne hi.ne slot
  refine ⟨⟨h.books.add held slot hheld hroom hactive hlaunching hexits,
    h.lock.exclusive h.free h.free rfl ⟨Nat.le_succ _, fun i hi => ?_, fun i hi hl => ?_⟩, h.here⟩,
    h.free⟩
  · rw [hold i hi]
  · rwa [hold i hi]

theorem remove (h : Running cfg k w s) (hlaunching : (s.slots i).launching = false) :
    Running cfg k w (s.remove i) :=
  ⟨⟨h.books.remove hlaunching, h.lock.exclusive h.free h.free rfl
    ⟨le_rfl, fun _ _ => rfl, fun _ _ hl => hl⟩, h.here⟩, h.free⟩

theorem sweep (h : Running cfg k w s) (retires : Nat → Bool) :
    Running cfg k w (s.sweep retires).1 := by
  refine ⟨⟨h.books.sweep retires, h.lock.exclusive h.free h.free rfl ⟨le_rfl, ?_, ?_⟩, h.here⟩,
    h.free⟩
  · intro i _
    unfold Pool.sweep
    dsimp only
    split_ifs <;> rfl
  · intro i _ hlaunching
    unfold Pool.sweep
    dsimp only
    split_ifs <;> exact hlaunching

/-- The slot that the call launches leaves the list. -/
theorem launch_dropped (h : Running cfg k (some (.launch i)) s) (slot : Slot)
    (hmaker : slot.byTask = (s.slots i).byTask)
    (hlaunched : (s.slots i).launching = false → slot.launching = false) :
    Running cfg k none ((s.setSlot i slot).remove i) := by
  have hgrows : Grows s (s.setSlot i slot) := grows_setSlot hmaker hlaunched
  exact ⟨⟨h.books.launch_dropped slot, h.lock.exclusive h.free h.free rfl
    ⟨hgrows.made, hgrows.maker, hgrows.launched⟩, h.here⟩, h.free⟩

end Running

/-! ### Functions -/

theorem least_mem {ready : List Nat} (h : s.least turn ready = some i) : i ∈ ready :=
  List.mem_of_mem_filter (List.mem_of_getElem? h)

theorem taskReady_standing {l : Task} (hi : i ∈ s.taskReady cfg turn l) :
    s.Standing i ∧ (s.slots i).active < cfg.contextsPerExit := by
  obtain ⟨hin, hready⟩ := List.mem_filter.mp hi
  simp only [Bool.and_eq_true, Bool.not_eq_true', decide_eq_true_eq] at hready
  exact ⟨⟨hin, hready.1.1.1.1.1⟩, hready.1.2⟩

theorem socksReady_standing {l : Socks} (hi : i ∈ s.socksReady cfg turn l) :
    s.Standing i ∧ (s.slots i).active < cfg.contextsPerExit := by
  obtain ⟨hin, hready⟩ := List.mem_filter.mp hi
  simp only [Bool.and_eq_true, Bool.not_eq_true', decide_eq_true_eq] at hready
  exact ⟨⟨hin, hready.1.1.1.1.2⟩, hready.2⟩

theorem duplicate_standing {exitId : String} {except : Option Nat}
    (h : s.duplicate exitId except = some i) : s.Standing i := by
  have hfound := List.find?_some h
  simp only [Bool.and_eq_true, Bool.not_eq_true'] at hfound
  exact ⟨List.mem_of_find?_eq_some h, hfound.1.2⟩

/-- Where no other slot has the exit, none stands for it. -/
theorem exitId_ne_of_duplicate {exitId : String} {except : Option Nat}
    (h : s.duplicate exitId except = none) (hi : i ∈ s.pooled) (hne : some i ≠ except)
    (hsettled : (s.slots i).settled = true) : (s.slots i).exitId ≠ exitId := by
  intro heq
  have hnot := List.find?_eq_none.mp h i hi
  simp only [Slot.settled, Bool.and_eq_true, Bool.not_eq_true'] at hsettled
  simp [hne, hsettled, heq] at hnot

namespace Running

variable {l : Task}

/-- A slot of the list with room is taken, and the call returns. -/
theorem takeOut (h : Running cfg k none s) (hi : s.Standing i)
    (hroom : (s.slots i).active < cfg.contextsPerExit) :
    Kept cfg ((s.take i).notifyAll.handOut k i) := by
  refine (h.take hi hroom).notifyAll.handOut ?_
  show ((s.take i).slots i).launching = false
  rw [Pool.take, setSlot_self]
  exact hi.2

theorem taskUnchosen (h : Running cfg k none s) {ready : List Nat}
    (hready : ∀ i ∈ ready, s.Standing i ∧ (s.slots i).active < cfg.contextsPerExit)
    (chooseError : Option Raised) : Kept cfg (s.taskUnchosen turn k l ready chooseError) := by
  unfold Pool.taskUnchosen
  split
  · rename_i i hleast
    obtain ⟨hi, hroom⟩ := hready i (least_mem hleast)
    exact h.takeOut hi hroom
  · split
    · split_ifs
      · exact h.setCall rfl rfl trivial
      · exact h.setCall rfl rfl trivial
    · exact h.setCall rfl rfl trivial

theorem taskSelect (h : Running cfg k none s) : Kept cfg (s.taskSelect cfg turn k l) := by
  unfold Pool.taskSelect
  dsimp only
  split_ifs with hlaunch
  · refine h.holdLock rfl rfl ⟨?_, fun i hi => taskReady_standing hi⟩
    unfold Pool.canLaunch at hlaunch
    exact of_decide_eq_true (Bool.and_eq_true _ _ ▸ hlaunch).1
  · exact h.taskUnchosen (fun i hi => taskReady_standing hi) none

theorem taskHead (h : Running cfg k none s) : Kept cfg (s.taskHead cfg turn k l) := by
  have hswept := h.sweep (s.taskRetires turn l)
  unfold Pool.taskHead
  dsimp only
  split
  · exact hswept.holdLock rfl rfl trivial
  · exact hswept.taskSelect

theorem taskChosen (h : Running cfg k none s) (hroom : s.pooled.length < cfg.maxSlots)
    (activeNodes : List String) (chosen : ProxyNode) :
    Kept cfg (s.taskChosen k l activeNodes chosen) := by
  unfold Pool.taskChosen
  split_ifs
  · exact h.holdLock rfl rfl hroom
  · have hadded := h.add (.launch s.made) {
      nodeId := chosen.id
      nodeName := chosen.name
      subscriptionUrl := l.subscriptionUrl
      snapshotDigest := l.digest
      byTask := true } rfl hroom rfl (by simp) fun hsettled => by cases hsettled
    exact hadded.holdLock rfl rfl trivial

theorem taskShare (h : Running cfg k none s) {d : Nat} (hd : s.Standing d)
    (activeNodes : List String) (launched : Bool) :
    Kept cfg (s.taskShare cfg k l activeNodes d launched) := by
  unfold Pool.taskShare
  dsimp only
  split_ifs with hremaining hfull hlaunched
  · exact h.notifyAll.setCall rfl rfl trivial
  · exact h.notifyAll.setCall rfl rfl trivial
  · exact h.setCall rfl rfl trivial
  · exact h.takeOut hd (Nat.lt_of_not_le hfull)

theorem taskIdentified (h : Running cfg k none s) (hroom : s.pooled.length < cfg.maxSlots)
    (chosen : ProxyNode) (activeNodes : List String) (exitId : ExitIdentity) :
    Kept cfg (s.taskIdentified cfg k l chosen activeNodes exitId) := by
  unfold Pool.taskIdentified
  split
  · rename_i d hfound
    exact h.taskShare (duplicate_standing hfound) activeNodes false
  · rename_i hnone
    have hadded := h.add (.selected s.made) {
      nodeId := chosen.id
      nodeName := chosen.name
      subscriptionUrl := l.subscriptionUrl
      snapshotDigest := l.digest
      server := chosen.server
      native := true
      exitId := exitId.text
      launching := false
      byTask := true } rfl hroom rfl (by simp) fun _ i hi hsettled =>
        exitId_ne_of_duplicate hnone hi nofun hsettled
    refine hadded.notifyAll.handOut ?_
    exact congrArg Slot.launching (setSlot_self (s := s) (i := s.made) _)

/-- The slot that the call launches is launched, and no other slot has its exit. -/
theorem taskLaunched (h : Running cfg k (some (.launch i)) s) (chosen : ProxyNode)
    (activeNodes : List String) (result : Launched) :
    Kept cfg (s.taskLaunched k l chosen activeNodes i result) := by
  unfold Pool.taskLaunched
  dsimp only
  split
  · rename_i d hfound
    have hd := duplicate_standing hfound
    have hne : d ≠ i := by
      rintro rfl
      have hother := List.find?_some hfound
      simp at hother
    have hdropped : Running cfg k none ((s.setLaunched i result).remove i) :=
      h.launch_dropped _ rfl fun _ => rfl
    refine hdropped.holdLock rfl rfl ?_
    exact ⟨(List.mem_erase_of_ne hne).mpr hd.1, hd.2⟩
  · rename_i hnone
    have hmade := h.books.made_of_holds (i := i) (by simp)
    have hexits : Exits (s.setLaunched i result) := by
      have hother : ∀ j ∈ s.pooled, j ≠ i →
          ((s.setLaunched i result).slots j).settled = true →
            ((s.setLaunched i result).slots j).exitId ≠ result.exitId.text := fun j hj hne hsettled =>
        exitId_ne_of_duplicate hnone hj (by simpa using hne) hsettled
      have hself : ((s.setLaunched i result).slots i).exitId = result.exitId.text :=
        congrArg Slot.exitId (setSlot_self _)
      intro j hj j' hj' hne hsj hsj'
      rcases eq_or_ne j i with rfl | hji
      · rw [hself]
        exact (hother j' hj' hne.symm hsj').symm
      · rcases eq_or_ne j' i with rfl | hji'
        · rw [hself]
          exact hother j hj hji hsj
        · have hsame : ∀ m ≠ i, (s.setLaunched i result).slots m = s.slots m := fun m hm =>
            setSlot_of_ne hm _
          rw [hsame j hji] at hsj ⊢
          rw [hsame j' hji'] at hsj' ⊢
          exact h.books.exits j hj j' hj' hne hsj hsj'
    have hdone : Running cfg k (some (.selected i)) (s.setLaunched i result) :=
      ⟨⟨h.books.launch_done rfl rfl hexits,
        h.lock.exclusive h.free h.free rfl (grows_setSlot rfl fun _ => rfl), h.here⟩, h.free⟩
    refine hdone.notifyAll.handOut ?_
    exact congrArg Slot.launching (setSlot_self (s := s) (i := i) _)

/-- The launch fails, and the slot leaves the list. -/
theorem launch_failed (h : Running cfg k (some (.launch i)) s) : Running cfg k none (s.remove i) := by
  have hdropped := h.launch_dropped (s.slots i) rfl id
  rwa [setSlot_same] at hdropped

theorem taskLaunchFailed (h : Running cfg k (some (.launch i)) s) (chosen : ProxyNode)
    (e : Raised) : Kept cfg (s.taskLaunchFailed k l chosen i e) := by
  unfold Pool.taskLaunchFailed
  dsimp only
  split_ifs
  · exact h.launch_failed.notifyAll.setCall rfl rfl trivial
  · exact h.launch_failed.notifyAll.setCall rfl rfl trivial

end Running

/-- The processes are terminated, and the other function goes on with what it holds. -/
theorem Aside.socksProceed {l : Socks} {held : Option Held} (h : Aside cfg k held s)
    (hown : OwnSlot s (.socks l (.terminating held))) : Kept cfg (s.socksProceed k l held) := by
  cases held with
  | none => exact h.setCall rfl rfl trivial
  | some held =>
    cases held with
    | selected i => exact h.handOut hown.2
    | launch i => exact h.setCall rfl rfl hown

theorem Aside.socksLeave {l : Socks} {held : Option Held} (h : Aside cfg k held s)
    (hown : OwnSlot s (.socks l (.terminating held))) (retired : Bool) :
    Kept cfg (s.socksLeave k l retired held) := by
  unfold Pool.socksLeave
  split_ifs
  · exact h.setCall rfl rfl hown
  · exact h.socksProceed hown

theorem Running.socksHead {l : Socks} (h : Running cfg k none s) :
    Kept cfg (s.socksHead cfg turn k l) := by
  have hswept := h.sweep (s.socksRetires turn)
  unfold Pool.socksHead
  dsimp only
  split
  · rename_i i hleast
    obtain ⟨hi, hroom⟩ := socksReady_standing (least_mem hleast)
    refine (hswept.take hi hroom).notifyAll.socksLeave ⟨hswept.books.known i hi.1, ?_⟩ _
    refine (congrArg Slot.launching (setSlot_self _)).trans ?_
    exact hi.2
  · have hidle : Running cfg k none ((s.sweep (s.socksRetires turn)).1.removeAny
        ((s.sweep (s.socksRetires turn)).1.socksIdle cfg)) := by
      cases hfound : (s.sweep (s.socksRetires turn)).1.socksIdle cfg with
      | none => exact hswept
      | some i =>
        refine hswept.remove ?_
        unfold Pool.socksIdle at hfound
        split_ifs at hfound
        have hnot := List.find?_some hfound
        rw [Bool.and_eq_true, Bool.not_eq_true'] at hnot
        exact hnot.1
    split_ifs with hfull
    · exact hidle.setCall rfl rfl trivial
    · have hadded := hidle.add (.launch _) {
        nodeId := l.nodeId
        nodeName := l.nodeName
        subscriptionUrl := l.poolKey
        snapshotDigest := l.digest } rfl (Nat.lt_of_not_le hfull) rfl (by simp)
          fun hsettled => by cases hsettled
      refine hadded.socksLeave ⟨Nat.lt_succ_self _, ?_⟩ _
      exact congrArg Slot.byTask (setSlot_self _)

/-! ### Steps -/

namespace Kept

theorem here (hcall : s.calls[k]? = some call) : k < s.calls.length :=
  (List.getElem?_eq_some_iff.mp hcall).1

/-- A call enters the lock. -/
theorem running (h : Kept cfg s) (hcall : s.calls[k]? = some call)
    (hfree : Pool.holdsLock call = false) (hlocked : s.locked = false) :
    Running cfg k call.held s :=
  ⟨⟨h.booksAt hcall, h.lockAt hcall hfree, here hcall⟩, hlocked⟩

/-- The call that holds the lock goes on. -/
theorem unlocked (h : Kept cfg s) (hcall : s.calls[k]? = some call)
    (hholds : Pool.holdsLock call = true) : Running cfg k call.held s.unlock :=
  ⟨⟨(h.booksAt hcall).setLocked false, (h.unlockAt hcall hholds).1, here hcall⟩, rfl⟩

theorem relied (h : Kept cfg s) (hcall : s.calls[k]? = some call)
    (hholds : Pool.holdsLock call = true) : Relies cfg s call :=
  (h.unlockAt hcall hholds).2

theorem enter (h : Kept cfg s) (hcall : s.calls[k]? = some call) :
    Kept cfg (s.enter cfg turn k call) := by
  unfold Pool.enter
  split_ifs with hlocked
  · exact h
  · rw [Bool.not_eq_true] at hlocked
    split
    · exact (h.running hcall rfl hlocked).taskHead
    · exact (h.running hcall rfl hlocked).taskHead
    · exact (h.running hcall rfl hlocked).socksHead
    · exact (h.running hcall rfl hlocked).socksHead
    · exact (h.running hcall rfl hlocked).setCall rfl rfl trivial
    · exact (h.running hcall rfl hlocked).launch_failed.notifyAll.setCall rfl rfl trivial
    · exact (h.running hcall rfl hlocked).notifyAll.handOut (h.own hcall).2
    · exact h

theorem terminated (h : Kept cfg s) (hcall : s.calls[k]? = some call) :
    Kept cfg (s.terminated cfg turn k call) := by
  unfold Pool.terminated
  split
  · exact (h.unlocked hcall rfl).taskSelect
  · exact (h.unlocked hcall rfl).taskShare (h.relied hcall rfl) _ true
  · have haside : Aside cfg k _ s := ⟨h.booksAt hcall, h.lockAt hcall rfl, here hcall⟩
    exact haside.socksProceed (h.own hcall)
  · exact h

theorem chose (h : Kept cfg s) (hcall : s.calls[k]? = some call)
    (outcome : Except Raised ProxyNode) : Kept cfg (s.chose turn k call outcome) := by
  unfold Pool.chose
  split
  · exact (h.unlocked hcall rfl).taskUnchosen (h.relied hcall rfl).2 _
  · exact (h.unlocked hcall rfl).taskChosen (h.relied hcall rfl).1 _ _
  · exact h

theorem checked (h : Kept cfg s) (hcall : s.calls[k]? = some call)
    (outcome : Except Raised Bool) : Kept cfg (s.checked k call outcome) := by
  unfold Pool.checked
  split
  · exact (h.unlocked hcall rfl).setCall rfl rfl trivial
  · exact (h.unlocked hcall rfl).setCall rfl rfl trivial
  · exact (h.unlocked hcall rfl).holdLock rfl rfl (h.relied hcall rfl)
  · exact h

theorem identified (h : Kept cfg s) (hcall : s.calls[k]? = some call)
    (outcome : Except Raised ExitIdentity) : Kept cfg (s.identified cfg k call outcome) := by
  unfold Pool.identified
  split
  · exact (h.unlocked hcall rfl).setCall rfl rfl trivial
  · exact (h.unlocked hcall rfl).taskIdentified (h.relied hcall rfl) _ _ _
  · exact h

/-- The other function launches without the lock. -/
theorem socksLaunched {l : Socks} (h : Kept cfg s)
    (hcall : s.calls[k]? = some (.socks l (.launching i))) (result : Launched) :
    Kept cfg ((s.setLaunched i result).setCall k (.socks l (.launched i))) := by
  have hbooks := h.booksAt hcall
  have hlock := h.lockAt hcall rfl
  obtain ⟨hmade, hmaker⟩ := h.own hcall
  have hgrows : Grows s (s.setLaunched i result) := grows_setSlot rfl fun _ => rfl
  have hexits : Exits (s.setLaunched i result) := hbooks.exits_set fun hsettled => by
    simp [Slot.settled, hmaker] at hsettled
  have haside : Aside cfg k (some (.selected i)) (s.setLaunched i result) := by
    refine ⟨hbooks.launch_done rfl rfl hexits, ⟨hlock.single, ?_, ?_⟩, here hcall⟩
    · exact fun j hne other hother => (hlock.own j hne other hother).grow hgrows
    · intro hlocked j hne other hother
      refine (hlock.relies hlocked j hne other hother).grow rfl (fun m => ?_) fun m hm => ?_
      · rcases eq_or_ne m i with rfl | hmi
        · rw [Pool.setLaunched, setSlot_self]
        · rw [Pool.setLaunched, setSlot_of_ne hmi]
      · rcases eq_or_ne m i with rfl | hmi
        · rw [Pool.setLaunched, setSlot_self]
        · rwa [Pool.setLaunched, setSlot_of_ne hmi]
  refine haside.setCall rfl rfl ⟨hmade, ?_⟩
  exact congrArg Slot.launching (setSlot_self _)

theorem launched (h : Kept cfg s) (hcall : s.calls[k]? = some call)
    (outcome : Except Raised Launched) : Kept cfg (s.launched k call outcome) := by
  unfold Pool.launched
  split
  · exact (h.unlocked hcall rfl).taskLaunchFailed _ _
  · exact (h.unlocked hcall rfl).taskLaunched _ _ _
  · have haside : Aside cfg k _ s := ⟨h.booksAt hcall, h.lockAt hcall rfl, here hcall⟩
    exact haside.setCall rfl rfl trivial
  · exact h.socksLaunched hcall _
  · exact h

/-- Who waits for the lock is in no one's way. -/
theorem begin (h : Kept cfg s) (hnone : call.held = none) (hfree : Pool.holdsLock call = false)
    (hown : OwnSlot s call) : Kept cfg { s with calls := s.calls ++ [call] } := by
  have hholds : ∀ i, others (Call.holds i) (s.calls ++ [call]) (s.calls ++ [call]).length =
      others (Call.holds i) s.calls s.calls.length := by
    intro i
    rw [others_length, others_length, countP_append_singleton, Call.holds, hnone]
    rfl
  have hlaunches : ∀ i, others (Call.launches i) (s.calls ++ [call]) (s.calls ++ [call]).length =
      others (Call.launches i) s.calls s.calls.length := by
    intro i
    rw [others_length, others_length, countP_append_singleton, Call.launches, hnone]
    rfl
  have hother : ∀ (j : Nat) other, (s.calls ++ [call])[j]? = some other →
      other = call ∨ s.calls[j]? = some other := by
    intro j other hj
    rw [List.getElem?_append] at hj
    split_ifs at hj
    · exact .inr hj
    · exact .inl (List.mem_singleton.mp (List.mem_of_getElem? hj))
  obtain ⟨⟨hbounded, hnodup, hknown, hfits, hfresh, hgiven, hexits⟩, hlock⟩ := h
  refine ⟨⟨hbounded, hnodup, hknown, fun i => ?_, fun i hi => ?_, hgiven, hexits⟩,
    ⟨?_, fun j _ other hj => ?_, fun hlocked j _ other hj => ?_⟩⟩
  · rw [FitsAt, hholds, hlaunches]
    exact hfits i
  · rw [hholds]
    exact hfresh i hi
  · rw [← hlock.single, others_length, others_length, countP_append_singleton, hfree]
    rfl
  · rcases hother j other hj with rfl | hj
    · exact hown
    · exact hlock.own j (here hj).ne other hj
  · rcases hother j other hj with rfl | hj
    · exact relies_of_free hfree
    · exact hlock.relies hlocked j (here hj).ne other hj

/-- Where a release is does not matter. -/
theorem setReleases (h : Kept cfg s) (releases : List Release) : Kept cfg { s with releases } :=
  ⟨⟨h.books.bounded, h.books.nodup, h.books.known, h.books.fits, h.books.fresh, h.books.given,
    h.books.exits⟩, ⟨h.lock.single, h.lock.own, h.lock.relies⟩⟩

/-- A call is cancelled that holds no slot of the list. -/
theorem cancel (h : Kept cfg s) (hcall : s.calls[k]? = some call)
    (hheld : ∀ held ∈ call.held, held.slot ∉ s.pooled) : Kept cfg (s.cancel k call) := by
  have hbooks : Books cfg k none s := by
    have hat := h.booksAt hcall
    cases hw : call.held with
    | none => rwa [hw] at hat
    | some held =>
      rw [hw] at hat
      exact hat.drop (hheld held hw)
  have haside : Aside cfg k none { s with locked := s.locked && !Pool.holdsLock call } := by
    refine ⟨hbooks.setLocked _, ?_, here hcall⟩
    cases hholds : Pool.holdsLock call with
    | true =>
      rw [Bool.not_true, Bool.and_false]
      exact (h.unlockAt hcall hholds).1
    | false =>
      rw [Bool.not_false, Bool.and_true]
      exact h.lockAt hcall hholds
  cases call with
  | task | socks => exact haside.setCall rfl rfl trivial
  | returned | raised | cancelled => exact h

end Kept

/-! ### Releases -/

/-- The release of a proxy makes it no longer count. -/
theorem outstanding_release {j : Nat} {proxy : Proxy} (hproxy : s.proxies[j]? = some proxy)
    (m : Nat) :
    Pool.outstanding { s with proxies := s.proxies.set j { proxy with released := true } } m +
      (proxy.slot == m && !proxy.released).toNat = s.outstanding m := by
  refine (countP_set_add _ hproxy _).trans ?_
  rw [Bool.not_true, Bool.and_false]
  rfl

/-- A proxy is released, and its slot leaves the list or has one user less. -/
theorem Books.released (h : Books cfg k none s) {j : Nat} {proxy : Proxy}
    (hproxy : s.proxies[j]? = some proxy) {slot : Slot} {pooled : List Nat}
    (hlaunching : slot.launching = false)
    (hsettled : slot.settled = true →
      (s.slots proxy.slot).settled = true ∧ slot.exitId = (s.slots proxy.slot).exitId)
    (hpooled : pooled.Sublist s.pooled) (hother : ∀ m ≠ proxy.slot, m ∈ s.pooled → m ∈ pooled)
    (hactive : proxy.slot ∈ pooled →
      slot.active + (!proxy.released).toNat = (s.slots proxy.slot).active) :
    Books cfg k none { s.setSlot proxy.slot slot with
      proxies := s.proxies.set j { proxy with released := true }, pooled } := by
  obtain ⟨hmade, hlaunched⟩ := h.given proxy (List.mem_of_getElem? hproxy)
  have hnone := (h.fits proxy.slot).none_launches hlaunched
  have hcount := outstanding_release hproxy
  have hfits := h.fits proxy.slot
  refine h.change proxy.slot rfl rfl hpooled (fun m hne => ⟨setSlot_of_ne hne _, hother m hne⟩)
    (fun m hne => ?_) (fun _ _ => ⟨rfl, rfl⟩) hmade ?_ (fun other hin => ?_) ?_
  · have hm := hcount m
    rwa [beq_false_of_ne hne.symm] at hm
  · have hself := hcount proxy.slot
    rw [beq_self_eq_true, Bool.true_and] at hself
    show Fits cfg ((s.setSlot proxy.slot slot).slots proxy.slot) (proxy.slot ∈ pooled)
      (Pool.outstanding { s with proxies := s.proxies.set j { proxy with released := true } }
        proxy.slot) (others (Call.holds proxy.slot) s.calls k + (holds proxy.slot none).toNat)
      (others (Call.launches proxy.slot) s.calls k + (launches proxy.slot none).toNat)
    rw [setSlot_self]
    exact {
      active := fun hin => by
        have hbefore := hfits.active (hpooled.subset hin)
        have hafter := hactive hin
        omega
      room := fun hin => by
        have hbefore := hfits.room (hpooled.subset hin)
        have hafter := hactive hin
        omega
      launched := fun _ hon => by
        rw [hlaunching] at hon
        cases hon
      launch := fun hpos => absurd hnone hpos.ne' }
  · have hgiven := h.given_set (i := proxy.slot) (.inr hlaunching)
    rcases List.mem_or_eq_of_mem_set hin with hold | rfl
    · exact hgiven other hold
    · exact hgiven proxy (List.mem_of_getElem? hproxy)
  · exact (h.exits_set hsettled).mono (fun m hm => hpooled.subset hm) fun _ _ hm => ⟨hm, rfl⟩

namespace Kept

/-- A proxy is released. -/
theorem released (h : Kept cfg s) (hlocked : s.locked = false) {j : Nat} {proxy : Proxy}
    (hproxy : s.proxies[j]? = some proxy) (slot : Slot) {pooled : List Nat}
    (hmaker : slot.byTask = (s.slots proxy.slot).byTask)
    (hlaunching : slot.launching = (s.slots proxy.slot).launching)
    (hsettled : slot.settled = true →
      (s.slots proxy.slot).settled = true ∧ slot.exitId = (s.slots proxy.slot).exitId)
    (hpooled : pooled.Sublist s.pooled) (hother : ∀ m ≠ proxy.slot, m ∈ s.pooled → m ∈ pooled)
    (hactive : proxy.slot ∈ pooled →
      slot.active + (!proxy.released).toNat = (s.slots proxy.slot).active) :
    Kept cfg { s.setSlot proxy.slot slot with
      proxies := s.proxies.set j { proxy with released := true }, pooled } := by
  have hlaunched := hlaunching.trans (h.books.given proxy (List.mem_of_getElem? hproxy)).2
  have hgrows : Grows s (s.setSlot proxy.slot slot) := grows_setSlot hmaker fun _ => hlaunched
  exact ⟨h.books.released hproxy hlaunched hsettled hpooled hother hactive,
    h.lock.exclusive hlocked hlocked rfl ⟨hgrows.made, hgrows.maker, hgrows.launched⟩⟩

theorem notifyAll (h : Kept cfg s) : Kept cfg s.notifyAll := by
  have hlength : s.notifyAll.calls.length = s.calls.length := List.length_map ..
  exact ⟨hlength.symm ▸ h.books.notifyAll, hlength.symm ▸ h.lock.notifyAll⟩

/-- The slot of a proxy that is not released is in use. -/
theorem active_pos (h : Kept cfg s) {proxy : Proxy} (hproxy : proxy ∈ s.proxies)
    (hreleased : proxy.released = false) (hin : proxy.slot ∈ s.pooled) :
    0 < (s.slots proxy.slot).active := by
  rw [(h.books.fits proxy.slot).active hin]
  have hcounted : 0 < s.outstanding proxy.slot :=
    List.countP_pos_iff.mpr ⟨proxy, hproxy, by simp [hreleased]⟩
  omega

/-- A release enters the lock. -/
theorem enterRelease (h : Kept cfg s) {r : Nat} {release : Release}
    (hharmless : s.locked = false → release.phase = .locking →
      ∀ proxy ∈ s.proxies[release.proxy]?, proxy.released = true → proxy.slot ∈ s.pooled →
        Harmless turn (s.slots proxy.slot)) : Kept cfg (s.enterRelease turn r release) := by
  unfold Pool.enterRelease
  split
  · rename_i proxy hphase hlocked hproxy
    have hother : ∀ m ≠ proxy.slot, m ∈ s.pooled → m ∈ s.pooled.erase proxy.slot := fun m hne =>
      (List.mem_erase_of_ne hne).mpr
    dsimp only
    split_ifs with hin hleaves
    · refine setReleases (s := Pool.notifyAll _) (notifyAll ?_) _
      refine h.released hlocked hproxy _ rfl rfl ?_ List.erase_sublist hother ?_
      · simp [Slot.settled, hleaves.2]
      · exact fun hstays => absurd hstays h.books.nodup.not_mem_erase
    · refine setReleases (s := Pool.notifyAll _) (notifyAll ?_) _
      refine h.released hlocked hproxy _ rfl rfl (fun hsettled => ⟨?_, rfl⟩) (.refl _)
        (fun _ _ => id) fun _ => ?_
      · simp only [Slot.settled, Bool.and_eq_true, Bool.not_eq_true', Bool.or_eq_false_iff]
          at hsettled ⊢
        exact ⟨hsettled.1, hsettled.2.1⟩
      · show (s.slots proxy.slot).active - 1 + (!proxy.released).toNat = (s.slots proxy.slot).active
        cases hreleased : proxy.released with
        | false =>
          have hpos := h.active_pos (List.mem_of_getElem? hproxy) hreleased hin
          exact Nat.sub_add_cancel hpos
        | true =>
          rcases hharmless hlocked hphase proxy hproxy hreleased hin with hzero | ⟨hone, hmarked⟩
          · rw [hzero]
            rfl
          · exact absurd ⟨by omega, hmarked⟩ hleaves
    · have hsame := h.released hlocked hproxy (s.slots proxy.slot) rfl rfl
        (fun hsettled => ⟨hsettled, rfl⟩) (.refl _) (fun _ _ => id) fun hstays => absurd hstays hin
      rw [setSlot_same] at hsame
      exact hsame.setReleases _
  · exact h

end Kept

/-! ### Runs -/

theorem kept_empty (cfg : Config) : Kept cfg {} where
  books := {
    bounded := Nat.zero_le _
    nodup := .nil
    known := fun _ hi => by cases hi
    fits := fun i => Fits.outside (by simp) rfl
    fresh := fun _ _ => ⟨rfl, rfl⟩
    given := fun _ hproxy => by cases hproxy
    exits := fun _ hi => by cases hi }
  lock := {
    single := rfl
    own := fun j _ call hcall => by simp at hcall
    relies := fun hlocked => by cases hlocked }

theorem Kept.respected (h : Kept cfg s) : Respected cfg s where
  bounded := h.books.bounded
  active i hi := by
    have hactive := (h.books.fits i).active hi
    rw [others_length] at hactive
    exact ⟨hactive, (h.books.fits i).room hi⟩
  launching i hi hlaunching := by
    have hpos := (h.books.fits i).launched hi hlaunching
    rw [others_length] at hpos
    exact List.countP_pos_iff.mp hpos
  exits := h.books.exits

/-- What is not there changes nothing. -/
theorem onEntry_kept {α : Type} {table : List α} {f : α → Pool} (h : Kept cfg s)
    (hf : ∀ entry, table[k]? = some entry → Kept cfg (f entry)) :
    Kept cfg (onEntry table k s f) := by
  unfold onEntry
  split
  · rename_i entry hentry
    exact hf entry hentry
  · exact h

theorem step_kept (action : Action) (h : Kept cfg s) (hundisturbed : Undisturbed action s) :
    Kept cfg (step cfg u action s) := by
  cases action with
  | task request =>
    unfold step
    dsimp only
    split
    · exact h.begin rfl rfl trivial
    · exact h.begin rfl rfl trivial
  | socks l => exact h.begin rfl rfl trivial
  | enter k turn => exact onEntry_kept h fun _ hcall => h.enter hcall
  | terminated k turn => exact onEntry_kept h fun _ hcall => h.terminated hcall
  | chose k outcome turn => exact onEntry_kept h fun _ hcall => h.chose hcall outcome
  | checked k outcome => exact onEntry_kept h fun _ hcall => h.checked hcall outcome
  | identified k outcome => exact onEntry_kept h fun _ hcall => h.identified hcall outcome
  | launched k outcome => exact onEntry_kept h fun _ hcall => h.launched hcall outcome
  | cancel k => exact onEntry_kept h fun call hcall => h.cancel hcall (hundisturbed call hcall)
  | release j => exact h.setReleases _
  | enterRelease r turn =>
    exact onEntry_kept h fun release hrelease =>
      h.enterRelease fun hlocked => hundisturbed hlocked release hrelease
  | releaseDone r => exact onEntry_kept h fun _ _ => h.setReleases _

/-- A call that holds a slot of the list is not cancelled where the slots stay accounted for. -/
theorem held_of_cancel (h : Kept cfg s) (hcall : s.calls[k]? = some call) {held : Held}
    (hheld : call.held = some held) (hafter : Respected cfg (s.cancel k call)) :
    held.slot ∉ s.pooled := by
  intro hin
  have hcancel : s.cancel k call =
      { s with locked := s.locked && !Pool.holdsLock call }.setCall k .cancelled := by
    cases call with
    | task | socks => rfl
    | returned | raised | cancelled => cases hheld
  rw [hcancel] at hafter
  have hbefore := ((h.booksAt hcall).fits held.slot).active hin
  rw [hheld, holds_some, beq_self_eq_true] at hbefore
  have hactive : (s.slots held.slot).active = s.outstanding held.slot +
      (s.calls.set k .cancelled).countP (Call.holds held.slot) := (hafter.active held.slot hin).1
  rw [countP_set _ (Kept.here hcall)] at hactive
  simp [Call.holds, Call.held] at hactive hbefore
  omega

/-- A second release is harmless where the slots stay accounted for. -/
theorem harmless_of_enterRelease (h : Kept cfg s) {r : Nat} {release : Release} {proxy : Proxy}
    (hlocked : s.locked = false) (hphase : release.phase = .locking)
    (hproxy : s.proxies[release.proxy]? = some proxy) (hreleased : proxy.released = true)
    (hin : proxy.slot ∈ s.pooled) (hafter : Respected cfg (s.enterRelease turn r release)) :
    Harmless turn (s.slots proxy.slot) := by
  unfold Pool.enterRelease at hafter
  rw [hphase, hlocked, hproxy] at hafter
  dsimp only at hafter
  rw [if_pos hin] at hafter
  split_ifs at hafter with hleaves
  · obtain ⟨hless, hmarked⟩ := hleaves
    rcases Nat.le_one_iff_eq_zero_or_eq_one.mp (Nat.sub_eq_zero_iff_le.mp hless) with hzero | hone
    · exact .inl hzero
    · exact .inr ⟨hone, hmarked⟩
  · have hbefore := (h.respected.active proxy.slot hin).1
    have hactive : (s.slots proxy.slot).active - 1 =
        Pool.outstanding { s with
          proxies := s.proxies.set release.proxy { proxy with released := true } } proxy.slot +
          (s.calls.map Call.notify).countP (Call.holds proxy.slot) := by
      refine Eq.trans ?_ (hafter.active proxy.slot hin).1
      simp only [Pool.notifyAll, Pool.setSlot, Function.update_self]
    have hcount := outstanding_release hproxy proxy.slot
    rw [hreleased, Bool.not_true, Bool.and_false, Bool.toNat_false, Nat.add_zero] at hcount
    rw [hcount, countP_map _ (Call.holds_notify proxy.slot)] at hactive
    rw [Pool.holding] at hbefore
    exact .inl (by omega)

/-- The limits hold for as long as no call that holds a slot of the list is cancelled and no proxy
is released a second time. -/
theorem respected_iff (cfg : Config) (u : Chars) (actions : List Action) :
    Throughout (step cfg u) (Respected cfg) actions {} ↔
      AllSteps (step cfg u) Undisturbed actions {} := by
  refine throughout_iff_allSteps_of_kept (fun _ => Kept.respected) (fun action s => step_kept action)
    (fun action s h hafter => ?_) (kept_empty cfg)
  cases action with
  | cancel k =>
    intro call hcall held hheld
    rw [step, onEntry, hcall] at hafter
    exact held_of_cancel h hcall hheld hafter
  | enterRelease r turn =>
    intro hlocked release hrelease hphase proxy hproxy hreleased hin
    rw [step, onEntry, hrelease] at hafter
    exact harmless_of_enterRelease h hlocked hphase hproxy hreleased hin hafter
  | task | socks | enter | terminated | chose | checked | identified | launched | release
  | releaseDone => trivial

/-- An acquire is cancelled while it launches a process. -/
theorem process_launch_lost : ¬ ∀ (cfg : Config) (u : Chars) (actions : List Action),
    Throughout (step cfg u) (Respected cfg) actions {} := by
  intro h
  have hfinal := (h (config none none) Chars.ascii
    [.socks ⟨"", "", "", ""⟩, .enter 0 {}, .cancel 0]).final
  have hactive := (hfinal.active 0 (by decide +kernel)).1
  exact absurd hactive (by decide +kernel)

end FetchTask.TaskMihomo
