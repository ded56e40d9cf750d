import FetchTask.Resilience

/-!
Whether a breaker gets stuck, and whether it probes one at a time.

The mark of a probe is meant to stand for an iteration that is under way. It does
as long as every iteration that was admitted as the probe ends with a report, and
as long as no second probe is let through while the first one goes on after the
report of another iteration has cleared its mark.
-/

namespace FetchTask.Resilience

open Runs

def Guard.Marked (g : Guard) (platform : String) : Prop :=
  ∃ c, g.circuits platform = some c ∧ c.probe.isSome = true

/-- The iteration of a loop is in progress and was admitted as the probe of a platform. -/
def World.Probes (w : World) (i : WorkerId) (platform : String) : Prop :=
  (w.loops i).phase = .admitted true ∧ (w.loops i).platform = some platform

/-- A mark has its iteration, and a platform has one probe at most. -/
structure Sound (w : World) : Prop where
  held : ∀ platform, w.guard.Marked platform → ∃ i, w.Probes i platform
  single : ∀ platform i j, w.Probes i platform → w.Probes j platform → i = j

/-- The bucket of a platform has a token at a time. -/
def Guard.HasToken (policy : ResiliencePolicy) (now : Rat) (platform : String) (g : Guard) : Prop :=
  let bucket := (g.buckets platform).getD ⟨policy.platformBurst, now⟩
  1 ≤ min (policy.platformBurst : Rat)
    (bucket.tokens + max 0 (now - bucket.updated) * (policy.platformRatePerMinute / 60))

/-- The breaker is open, past its recovery time and not marked. -/
def Guard.Recovered (policy : ResiliencePolicy) (now : Rat) (platform : String) (g : Guard) :
    Prop :=
  ∃ c opened, g.circuits platform = some c ∧ c.opened = some opened ∧
    policy.circuitRecoverySeconds ≤ now - opened ∧ c.probe = none

/-- The condition on an event. An admission of a claimed iteration does not find a recovered
breaker and a token while an earlier probe of the platform goes on; an iteration that was
admitted as the probe, and whose mark still stands, ends with a report. -/
def Respects (policy : ResiliencePolicy) : Event → World → Prop
  | .admitPlatform i now, w => ∀ platform, (w.loops i).phase = .claimed →
      (w.loops i).platform = some platform → platform ≠ "dola" →
      w.guard.Recovered policy now platform → w.guard.HasToken policy now platform →
      ∀ j, ¬ w.Probes j platform
  | .finish i exit _, w => ∀ platform, w.Probes i platform → w.guard.Marked platform →
      (w.loops i).reports exit ≠ []
  | _, _ => True

variable {policy : ResiliencePolicy} {now : Rat} {platform : String} {g : Guard} {w : World}
  {i j : WorkerId}

/-! ### The guard -/

theorem setCircuit_ne {p : String} {c : Option Circuit} (h : p ≠ platform) :
    (g.setCircuit platform c).circuits p = g.circuits p := Function.update_of_ne h _ _

theorem setCircuit_self {c : Option Circuit} :
    (g.setCircuit platform c).circuits platform = c := Function.update_self _ _ _

theorem marked_congr {g' : Guard} (h : g'.circuits platform = g.circuits platform) :
    g'.Marked platform ↔ g.Marked platform := by rw [Guard.Marked, h]; rfl

theorem marked_setCircuit {c : Circuit} :
    (g.setCircuit platform (some c)).Marked platform ↔ c.probe.isSome = true := by
  rw [Guard.Marked, setCircuit_self]
  constructor
  · rintro ⟨c', hc, hprobe⟩
    obtain rfl := Option.some.inj hc
    exact hprobe
  · exact fun hprobe => ⟨c, rfl, hprobe⟩

theorem takeToken_circuits : (takeToken policy now platform g).2.circuits = g.circuits := by
  simp only [takeToken]
  split <;> rfl

theorem takeToken_allowed :
    (takeToken policy now platform g).1.allowed = true ↔ g.HasToken policy now platform := by
  simp only [takeToken, Guard.HasToken]
  split
  next h => exact iff_of_true rfl h
  next h => exact iff_of_false (by simp) h

/-- The three answers of the breaker. -/
theorem admitCircuit_cases (policy : ResiliencePolicy) (now : Rat) (platform : String) (g : Guard) :
    (admitCircuit policy now platform g = (⟨true, "", 0⟩, g) ∧
        ¬ g.Recovered policy now platform) ∨
      ((admitCircuit policy now platform g).1.allowed = false ∧
        (admitCircuit policy now platform g).2 = g ∧ ¬ g.Recovered policy now platform) ∨
      ∃ c, g.circuits platform = some c ∧ c.probe = none ∧ g.Recovered policy now platform ∧
        admitCircuit policy now platform g =
          (⟨true, "half_open", policy.circuitRecoverySeconds⟩,
            g.setCircuit platform (some { c with probe := some now })) := by
  rw [admitCircuit]
  cases hc : g.circuits platform with
  | none =>
    refine .inl ⟨rfl, ?_⟩
    rintro ⟨c, _, hc', -⟩
    cases hc.symm.trans hc'
  | some c =>
    dsimp only
    cases ho : c.opened with
    | none =>
      refine .inl ⟨rfl, ?_⟩
      rintro ⟨c', opened, hc', ho', -⟩
      obtain rfl : c = c' := Option.some.inj (hc.symm.trans hc')
      cases ho.symm.trans ho'
    | some opened =>
      dsimp only
      split
      next hearly =>
        refine .inr (.inl ⟨rfl, rfl, ?_⟩)
        rintro ⟨c', opened', hc', ho', hlate, -⟩
        obtain rfl : c = c' := Option.some.inj (hc.symm.trans hc')
        obtain rfl : opened = opened' := Option.some.inj (ho.symm.trans ho')
        exact absurd hearly (not_lt.mpr hlate)
      next hlate =>
        split
        next hprobe =>
          refine .inr (.inl ⟨rfl, rfl, ?_⟩)
          rintro ⟨c', _, hc', -, -, hnone⟩
          obtain rfl : c = c' := Option.some.inj (hc.symm.trans hc')
          rw [hnone] at hprobe
          cases hprobe
        next hprobe =>
          have hnone : c.probe = none := by simpa using hprobe
          exact .inr (.inr ⟨c, rfl, hnone, ⟨c, opened, hc, ho, not_lt.mp hlate, hnone⟩, by rw [ho]⟩)

/-- What an admission does: to the circuits of other platforms nothing, and its own platform
is marked afterwards if it was before or if the caller is the probe. -/
structure Admits (policy : ResiliencePolicy) (now : Rat) (platform : String) (g : Guard)
    (r : Admission × Bool × Guard) : Prop where
  others : ∀ p, p ≠ platform → r.2.2.circuits p = g.circuits p
  marked : r.2.2.Marked platform ↔ g.Marked platform ∨ r.2.1 = true
  probe : r.2.1 = true ↔ g.Recovered policy now platform ∧ g.HasToken policy now platform
  allowed : r.2.1 = true → r.1.allowed = true

theorem admit_admits (policy : ResiliencePolicy) (now : Rat) (platform : String) (g : Guard) :
    Admits policy now platform g (admitPlatform policy now platform g) := by
  rw [admitPlatform]
  rcases admitCircuit_cases policy now platform g with
    ⟨hplain, hnot⟩ | ⟨hrefused, hguard, hnot⟩ | ⟨c, hc, hnone, hrecovered, hhalf⟩
  · rw [hplain]
    have hcircuits := @takeToken_circuits policy now platform g
    have hplain_reason : (("" : String) == "half_open") = false := by decide
    simp only [Bool.not_true, Bool.false_eq_true, if_false, hplain_reason, Bool.and_false]
    refine ⟨fun p _ => congrFun hcircuits p, ?_, ?_, ?_⟩
    · simp [marked_congr (congrFun hcircuits platform)]
    · simp [hnot]
    · simp
  · simp only [hrefused, Bool.not_false, if_true]
    rw [hguard]
    exact ⟨fun _ _ => rfl, by simp, by simp [hnot], by simp⟩
  · rw [hhalf]
    have hunmarked : ¬ g.Marked platform := by
      rintro ⟨c', hc', hprobe⟩
      obtain rfl : c = c' := Option.some.inj (hc.symm.trans hc')
      rw [hnone] at hprobe
      cases hprobe
    have hcircuits := @takeToken_circuits policy now platform
      (g.setCircuit platform (some { c with probe := some now }))
    have htoken := @takeToken_allowed policy now platform
      (g.setCircuit platform (some { c with probe := some now }))
    have hmark : (g.setCircuit platform (some { c with probe := some now })).Marked platform :=
      marked_setCircuit.mpr rfl
    simp only [Bool.not_true, Bool.false_eq_true, if_false, beq_self_eq_true, Bool.and_true]
    cases hallowed : (takeToken policy now platform
        (g.setCircuit platform (some { c with probe := some now }))).1.allowed with
    | true =>
      simp only [Bool.not_true, Bool.false_eq_true, if_false]
      refine ⟨fun p hp => ?_, ?_, ?_, fun _ => hallowed⟩
      · rw [hcircuits]
        exact setCircuit_ne hp
      · rw [marked_congr (congrFun hcircuits platform)]
        exact iff_of_true hmark (.inr rfl)
      · exact iff_of_true rfl ⟨hrecovered, htoken.mp hallowed⟩
    | false =>
      -- The mark was set for nothing and is taken back.
      simp only [Bool.not_false, if_true]
      have hrefused : ¬ g.HasToken policy now platform := fun h =>
        absurd (hallowed.symm.trans (htoken.mpr h)) (by decide)
      have hfound : (takeToken policy now platform
          (g.setCircuit platform (some { c with probe := some now }))).2.circuits platform =
            some { c with probe := some now } := by rw [hcircuits, setCircuit_self]
      rw [releaseProbe, hfound]
      refine ⟨fun p hp => ?_, ?_, ?_, fun h => by cases h⟩
      · dsimp only
        rw [setCircuit_ne hp, hcircuits]
        exact setCircuit_ne hp
      · dsimp only
        rw [marked_setCircuit]
        simp [hunmarked]
      · simp [hrefused]

/-- A report takes the mark away and leaves the other platforms. -/
theorem applyReport_unmarked (r : Report) : ¬ (applyReport policy now platform g r).Marked platform := by
  cases r with
  | success =>
    rintro ⟨c, hc, -⟩
    cases (setCircuit_self (g := g)).symm.trans hc
  | failure =>
    intro h
    cases marked_setCircuit.mp h

theorem applyReport_ne (r : Report) {p : String} (h : p ≠ platform) :
    (applyReport policy now platform g r).circuits p = g.circuits p := by
  cases r with
  | success => exact setCircuit_ne h
  | failure => exact setCircuit_ne h

theorem foldl_reports_ne (rs : List Report) {p : String} (h : p ≠ platform) :
    (rs.foldl (applyReport policy now platform) g).circuits p = g.circuits p := by
  induction rs generalizing g with
  | nil => rfl
  | cons r rs ih => rw [List.foldl_cons, ih, applyReport_ne r h]

theorem foldl_reports_unmarked {rs : List Report} (h : ¬ g.Marked platform) :
    ¬ (rs.foldl (applyReport policy now platform) g).Marked platform := by
  induction rs generalizing g with
  | nil => exact h
  | cons r rs ih => exact ih (applyReport_unmarked r)

theorem foldl_reports_marked {rs : List Report} :
    (rs.foldl (applyReport policy now platform) g).Marked platform ↔ rs = [] ∧ g.Marked platform := by
  cases rs with
  | nil => simp
  | cons r rs =>
    have hfirst : ¬ (applyReport policy now platform g r).Marked platform := applyReport_unmarked r
    have hunmarked : ¬ (rs.foldl (applyReport policy now platform)
        (applyReport policy now platform g r)).Marked platform := foldl_reports_unmarked hfirst
    exact iff_of_false hunmarked (by simp)

/-! ### The loops -/

theorem probes_setLoop {l : Loop} {g : Guard} :
    World.Probes { w.setLoop i l with guard := g } j platform ↔
      if j = i then l.phase = .admitted true ∧ l.platform = some platform
      else w.Probes j platform := by
  split
  next h =>
    subst h
    simp [World.Probes, World.setLoop]
  next h => simp [World.Probes, World.setLoop, Function.update_of_ne h]

/-- A loop that is not admitted probes nothing. -/
theorem not_probes_of_claimed (h : (w.loops i).phase = .claimed) : ¬ w.Probes i platform := by
  rintro ⟨hphase, -⟩
  cases h.symm.trans hphase

/-- Where no loop is admitted and the guard stays, nothing changes. -/
theorem sound_setLoop {l : Loop} (hbefore : ∀ p, ¬ w.Probes i p) (hl : l.phase ≠ .admitted true)
    (h : Sound w) : Sound (w.setLoop i l) := by
  have hsame : ∀ j p, (w.setLoop i l).Probes j p ↔ w.Probes j p := by
    intro j p
    rw [show w.setLoop i l = { w.setLoop i l with guard := w.guard } from rfl, probes_setLoop]
    split
    next hj =>
      subst hj
      exact iff_of_false (fun hp => hl hp.1) (hbefore p)
    next => rfl
  refine ⟨fun p hmarked => ?_, fun p j k hj hk => ?_⟩
  · obtain ⟨j, hj⟩ := h.held p hmarked
    exact ⟨j, (hsame j p).mpr hj⟩
  · exact h.single p j k ((hsame j p).mp hj) ((hsame k p).mp hk)

/-- An admission keeps the law exactly when it does not let a second probe through. -/
theorem admit_sound_iff (hclaimed : (w.loops i).phase = .claimed)
    (hplatform : (w.loops i).platform = some platform) {r : Admission × Bool × Guard}
    (hr : Admits policy now platform w.guard r) (h : Sound w) :
    Sound { w.setLoop i { w.loops i with phase := if r.1.allowed then .admitted r.2.1 else .idle }
            with guard := r.2.2 } ↔
      (r.2.1 = true → ∀ j, ¬ w.Probes j platform) := by
  have hidle := fun p => @not_probes_of_claimed p w i hclaimed
  -- The loop itself probes its platform when it is the probe, and the others are as they were.
  have hself : ∀ p, World.Probes
      { w.setLoop i { w.loops i with phase := if r.1.allowed then .admitted r.2.1 else .idle }
        with guard := r.2.2 } i p ↔ r.2.1 = true ∧ p = platform := by
    intro p
    rw [probes_setLoop, if_pos rfl]
    dsimp only
    rw [hplatform]
    constructor
    · rintro ⟨hphase, hp⟩
      cases hallowed : r.1.allowed with
      | true =>
        rw [hallowed, if_pos rfl] at hphase
        exact ⟨Phase.admitted.inj hphase, (Option.some.inj hp).symm⟩
      | false =>
        rw [hallowed, if_neg (by decide)] at hphase
        cases hphase
    · rintro ⟨hprobe, rfl⟩
      rw [hr.allowed hprobe, hprobe]
      exact ⟨rfl, rfl⟩
  have hother : ∀ j p, j ≠ i → (World.Probes
      { w.setLoop i { w.loops i with phase := if r.1.allowed then .admitted r.2.1 else .idle }
        with guard := r.2.2 } j p ↔ w.Probes j p) := by
    intro j p hj
    rw [probes_setLoop, if_neg hj]
  have hne : ∀ j p, w.Probes j p → j ≠ i := by
    rintro j p hj rfl
    exact hidle p hj
  constructor
  · intro hsound hprobe j hj
    exact hne j platform hj (hsound.single platform j i
      ((hother j platform (hne j platform hj)).mpr hj) ((hself platform).mpr ⟨hprobe, rfl⟩))
  · intro hfree
    refine ⟨fun p hmarked => ?_, fun p j k hj hk => ?_⟩
    · have hbefore : w.guard.Marked p ∨ r.2.1 = true ∧ p = platform := by
        rcases eq_or_ne p platform with rfl | hp
        · rcases hr.marked.mp hmarked with hold | hprobe
          · exact .inl hold
          · exact .inr ⟨hprobe, rfl⟩
        · exact .inl ((marked_congr (hr.others p hp)).mp hmarked)
      rcases hbefore with hold | hnew
      · obtain ⟨j, hj⟩ := h.held p hold
        exact ⟨j, (hother j p (hne j p hj)).mpr hj⟩
      · exact ⟨i, (hself p).mpr hnew⟩
    · rcases eq_or_ne j i with rfl | hji
      · rcases eq_or_ne k j with rfl | hkj
        · rfl
        · obtain ⟨hprobe, rfl⟩ := (hself p).mp hj
          exact absurd ((hother k p hkj).mp hk) (hfree hprobe k)
      · have hj' := (hother j p hji).mp hj
        rcases eq_or_ne k i with rfl | hki
        · obtain ⟨hprobe, rfl⟩ := (hself p).mp hk
          exact absurd hj' (hfree hprobe j)
        · exact h.single p j k hj' ((hother k p hki).mp hk)

theorem tell_ne {l : Loop} {exit : Exit} {p : String} (h : p ≠ l.platform.getD "") :
    (l.tell policy now exit g).circuits p = g.circuits p := foldl_reports_ne _ h

theorem tell_marked {l : Loop} {exit : Exit} :
    (l.tell policy now exit g).Marked (l.platform.getD "") ↔
      l.reports exit = [] ∧ g.Marked (l.platform.getD "") := foldl_reports_marked

theorem marked_of_tell {l : Loop} {exit : Exit} {p : String}
    (h : (l.tell policy now exit g).Marked p) : g.Marked p := by
  rcases eq_or_ne p (l.platform.getD "") with rfl | hp
  · exact (tell_marked.mp h).2
  · exact (marked_congr (tell_ne hp)).mp h

/-- The end of an iteration keeps the law exactly when a probe whose mark stands reports. -/
theorem finish_sound_iff (exit : Exit) (h : Sound w) :
    Sound { w.setLoop i { w.loops i with phase := .idle } with
      guard := (w.loops i).tell policy now exit w.guard } ↔
      ∀ p, w.Probes i p → w.guard.Marked p → (w.loops i).reports exit ≠ [] := by
  have hprobes : ∀ j p, World.Probes { w.setLoop i { w.loops i with phase := .idle } with
      guard := (w.loops i).tell policy now exit w.guard } j p ↔ j ≠ i ∧ w.Probes j p := by
    intro j p
    rw [probes_setLoop]
    split
    next hj => exact iff_of_false (fun hp => by cases hp.1) fun hp => hp.1 hj
    next hj => exact ⟨fun hp => ⟨hj, hp⟩, fun hp => hp.2⟩
  constructor
  · intro hsound p hprobe hmarked hsilent
    have hstill : ((w.loops i).tell policy now exit w.guard).Marked p := by
      rw [Loop.tell, hsilent]
      exact hmarked
    obtain ⟨j, hj⟩ := hsound.held p hstill
    obtain ⟨hji, hprobe'⟩ := (hprobes j p).mp hj
    exact hji (h.single p j i hprobe' hprobe)
  · intro hreports
    refine ⟨fun p hmarked => ?_, fun p j k hj hk => ?_⟩
    · obtain ⟨j, hj⟩ := h.held p (marked_of_tell hmarked)
      refine ⟨j, (hprobes j p).mpr ⟨?_, hj⟩⟩
      rintro rfl
      -- Its report has taken the mark away.
      have hp : (w.loops j).platform.getD "" = p := by rw [hj.2]; rfl
      have hboth := @tell_marked policy now w.guard (w.loops j) exit
      rw [hp] at hboth
      obtain ⟨hsilent, hbefore⟩ := hboth.mp hmarked
      exact hreports p hj hbefore hsilent
    · exact h.single p j k ((hprobes j p).mp hj).2 ((hprobes k p).mp hk).2

theorem event_sound_iff (event : Event) (h : Sound w) :
    Sound (step policy event w) ↔ Respects policy event w := by
  cases event with
  | claim i =>
    refine iff_of_true ?_ trivial
    simp only [step]
    split
    next hidle =>
      refine sound_setLoop (fun p hp => ?_) nofun h
      cases hidle.symm.trans hp.1
    next => exact h
  | setPlatform i platform =>
    refine iff_of_true ?_ trivial
    simp only [step]
    split
    next hclaimed =>
      refine sound_setLoop (fun p => not_probes_of_claimed hclaimed) ?_ h
      show (w.loops i).phase ≠ .admitted true
      rw [hclaimed]
      nofun
    next => exact h
  | admitPlatform i now =>
    simp only [step]
    split
    next platform hclaimed hplatform =>
      split
      next hdola =>
        refine iff_of_true h ?_
        intro p _ hp hother
        exact absurd ((Option.some.inj (hplatform.symm.trans hp)).symm.trans hdola) hother
      next hother =>
        have hadmits := admit_admits policy now platform w.guard
        rw [admit_sound_iff hclaimed hplatform hadmits h]
        constructor
        · intro hfree p _ hp _ hrecovered htoken
          obtain rfl : platform = p := Option.some.inj (hplatform.symm.trans hp)
          exact hfree (hadmits.probe.mpr ⟨hrecovered, htoken⟩)
        · intro hrespects hprobe
          obtain ⟨hrecovered, htoken⟩ := hadmits.probe.mp hprobe
          exact hrespects platform hclaimed hplatform hother hrecovered htoken
    next hnot =>
      refine iff_of_true h ?_
      intro p hclaimed hp
      exact absurd hp (hnot p hclaimed)
  | finish i exit now =>
    simp only [step]
    split
    next hidle =>
      refine iff_of_true h ?_
      intro p hp
      cases hidle.symm.trans hp.1
    next => exact finish_sound_iff exit h

theorem sound_start : Sound {} := by
  refine ⟨fun p hmarked => ?_, fun p i j hi _ => ?_⟩
  · obtain ⟨c, hc, -⟩ := hmarked
    cases hc
  · cases hi.1

/-- In every reachable state a mark has its probe and a platform has one probe at most,
exactly when every event of the run respects the breaker. -/
theorem breaker_sound_iff (policy : ResiliencePolicy) (events : List Event) :
    Throughout (step policy) Sound events {} ↔ AllSteps (step policy) (Respects policy) events {} :=
  throughout_iff_allSteps (fun event _ h => event_sound_iff event h) sound_start

/-! ### A probe that submits its task -/

/-- The events of an iteration of the first worker loop up to its end. -/
def iteration (platform : String) (now : Rat) : List Event :=
  [.claim 0, .setPlatform 0 platform, .admitPlatform 0 now]

/-- An automation that fails in a way that counts. -/
def failing : Exit := { outcome := some { retryable := true } }

/-- The generation request is sent and its result is polled for later. -/
def submitting : Exit := { outcome := some { submitted := true } }

/-- Five failures open the breaker, and a minute later one iteration is let through. -/
def probingRun : List Event :=
  (List.replicate 5 (iteration "doubao" 1000 ++ [.finish 0 failing 1000])).flatten ++
    iteration "doubao" 1100

/-- The probe submits its task, which is neither a success nor a failure: its mark stays. -/
theorem probe_stuck :
    ¬ Throughout (step {}) Sound (probingRun ++ [.finish 0 submitting 1110]) {} := by
  intro h
  have hsteps := (throughout_iff_allSteps (fun event _ h => event_sound_iff event h) sound_start).mp h
  have hlast := (allSteps_append.mp hsteps).2.1
  have hprobe : (run (step {}) probingRun {}).Probes 0 "doubao" :=
    ⟨by decide +kernel, by decide +kernel⟩
  have hmarked : (run (step {}) probingRun {}).guard.Marked "doubao" :=
    ⟨{ failures := 5, opened := some 1000, probe := some 1100 }, by decide +kernel, rfl⟩
  exact hlast "doubao" hprobe hmarked (by decide +kernel)

end FetchTask.Resilience
