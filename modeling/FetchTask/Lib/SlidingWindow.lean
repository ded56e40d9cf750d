import Mathlib.Algebra.Order.Group.Basic
import Mathlib.Data.List.Basic

/-!
Sliding windows.

A log of times, oldest first, where each entry came when fewer than `limit` of
the earlier ones were less than a window old. Then no stretch of time that is
shorter than a window holds more than `limit` entries (`Spaced.countP_le`), and
once the oldest recent entry is a window old there is room again
(`Spaced.room_later`).
-/

namespace FetchTask.SlidingWindow

universe u

variable {K : Type u} [AddCommGroup K] [LinearOrder K] {window now later : K} {limit : Nat}
  {log : List K}

/-- The entries that are less than a window old. -/
def recent (window now : K) (log : List K) : List K := log.filter fun t => decide (now - t < window)

@[simp] theorem recent_nil : recent window now ([] : List K) = [] := rfl

theorem recent_append (log log' : List K) :
    recent window now (log ++ log') = recent window now log ++ recent window now log' :=
  List.filter_append ..

/-- Nothing is recent once everything is a window old. -/
theorem recent_eq_nil (h : ∀ t ∈ log, window ≤ now - t) : recent window now log = [] := by
  refine List.filter_eq_nil_iff.mpr fun t ht => ?_
  simpa using h t ht

/-- Fewer entries are recent where being recent is harder. -/
theorem length_recent_le_map {L : Type u} [AddCommGroup L] [LinearOrder L] {f : K → L}
    {window' now' : L} (h : ∀ t ∈ log, now - t < window → now' - f t < window') :
    (recent window now log).length ≤ (recent window' now' (log.map f)).length := by
  simp only [recent, ← List.countP_eq_length_filter, List.countP_map]
  refine List.countP_mono_left fun t ht hrecent => ?_
  simpa using h t ht (by simpa using hrecent)

/-- The same entries are recent on another scale. -/
theorem recent_map {L : Type u} [AddCommGroup L] [LinearOrder L] {f : K → L} {window' now' : L}
    (h : ∀ t ∈ log, now' - f t < window' ↔ now - t < window) :
    recent window' now' (log.map f) = (recent window now log).map f := by
  rw [recent, recent, List.filter_map]
  refine congrArg _ (List.filter_congr fun t ht => ?_)
  simpa using h t ht

/-- The log of what came while there was room. -/
inductive Spaced (window : K) (limit : Nat) : List K → Prop
  | nil : Spaced window limit []
  | snoc {log : List K} {t : K} (hlog : Spaced window limit log) (hlast : ∀ s ∈ log, s ≤ t)
      (hroom : (recent window t log).length < limit) : Spaced window limit (log ++ [t])

/-- No more than `limit` entries are pairwise less than a window apart. -/
theorem Spaced.countP_le (h : Spaced window limit log) {p : K → Bool}
    (hp : ∀ s ∈ log, ∀ t ∈ log, p s → p t → s ≤ t → t - s < window) : log.countP p ≤ limit := by
  induction h with
  | nil => exact Nat.zero_le limit
  | @snoc log t _ hlast hroom ih =>
    have hold := ih fun r hr s hs => hp r (by simp [hr]) s (by simp [hs])
    rw [List.countP_append, List.countP_singleton]
    by_cases ht : p t = true
    · -- What lies in the stretch with the last entry is recent when that one comes.
      have hle : log.countP p ≤ (recent window t log).length := by
        rw [recent, ← List.countP_eq_length_filter]
        refine List.countP_mono_left fun s hs hps => ?_
        simpa using hp s (by simp [hs]) t (by simp) hps ht (hlast s hs)
      rw [if_pos ht]
      omega
    · rw [if_neg ht]
      omega

variable [IsOrderedAddMonoid K]

/-- What is recent later was recent before. -/
theorem recent_recent (h : now ≤ later) (log : List K) :
    recent window later (recent window now log) = recent window later log := by
  rw [recent, recent, List.filter_filter, recent]
  refine List.filter_congr fun t _ => ?_
  have himp : later - t < window → now - t < window := fun hlater =>
    lt_of_le_of_lt (sub_le_sub_right h t) hlater
  by_cases hlater : later - t < window
  · simp [hlater, himp hlater]
  · simp [hlater]

theorem Spaced.length_recent_le (h : Spaced window limit log) (hlast : ∀ t ∈ log, t ≤ now) :
    (recent window now log).length ≤ limit := by
  rw [recent, ← List.countP_eq_length_filter]
  refine h.countP_le fun s _ t ht hs _ _ => ?_
  exact lt_of_le_of_lt (sub_le_sub_right (hlast t ht) s) (by simpa using hs)

/-- Once the oldest recent entry is a window old, there is room. -/
theorem Spaced.room_later (h : Spaced window limit log) (hlast : ∀ t ∈ log, t ≤ now)
    (hnow : now ≤ later) {oldest : K} (holdest : (recent window now log).head? = some oldest)
    (hwait : window ≤ later - oldest) : (recent window later log).length < limit := by
  have hmost := h.length_recent_le hlast
  rw [← recent_recent hnow]
  obtain ⟨rest, hrest⟩ : ∃ rest, recent window now log = oldest :: rest :=
    List.head?_eq_some_iff.mp holdest
  rw [hrest] at hmost ⊢
  have hgone : ¬ later - oldest < window := not_lt.mpr hwait
  have hfewer : (recent window later (oldest :: rest)).length ≤ rest.length := by
    rw [recent, List.filter_cons_of_neg (by simpa using hgone)]
    exact List.length_filter_le ..
  exact lt_of_le_of_lt hfewer (Nat.lt_of_succ_le hmost)

end FetchTask.SlidingWindow
