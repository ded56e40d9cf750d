import FetchTask.Purchases.Effects

/-!
What a user pays for and owns, over whole runs.

No package is owned twice at a time (`packages_once`). The memberships of a user
are those that were paid for, one for one and in turn, exactly as long as no
purchase fails after it has taken the points (`purchases_paid_iff`).
-/

namespace FetchTask.Purchases

open Memberships Runs

variable {S : Setting} {s : State}

theorem Effect.sound {now : Int} {s' : State} (h : Effect now s s') (hs : Sound s.member.toEntry) :
    Sound s'.member.toEntry := by
  cases h with
  | free h => exact h.member.sound
  | sold package hpaid hmember => exact hmember.sound
  | lost package hpaid hmember =>
    rw [hmember]
    exact hs

theorem Effect.once {now : Int} {s' : State} (h : Effect now s s')
    (honce : Once now s.member.memberships) : Once now s'.member.memberships := by
  cases h with
  | free h => exact h.member.once honce now le_rfl
  | sold package hpaid hmember => exact hmember.once honce now le_rfl
  | lost package hpaid hmember =>
    rw [hmember]
    exact honce

/-- What every call keeps: the memberships are bought ones, and none is owned twice from now on. -/
structure Owned (s : State) : Prop where
  sound : Sound s.member.toEntry
  once : Once s.clock s.member.memberships

theorem step_owned (e : Event) (s : State) (h : Owned s) : Owned (step S e s) := by
  have heffect : Effect (s.clock + e.wait) s (act S (s.clock + e.wait) e s) := act_effect e h.sound
  refine ⟨heffect.sound h.sound, ?_⟩
  exact heffect.once (h.once.later (by omega))

section Start

variable (tokenHash : String) (freeLimit baseConcurrency effectiveConcurrency : Int) (tokens : TempAccess.Tokens)
  (clock : Int)

theorem owned_start :
    Owned (start tokenHash freeLimit baseConcurrency effectiveConcurrency tokens clock) where
  sound :=
    { bought := fun _ h => by cases h
      one := fun _ _ _ _ h => by cases h
      none := fun _ => rfl }
  once _ _ _ _ h := by cases h

/-- Whatever the calls, their order and their failures, no two memberships of one package have
time left at the same moment, in the state that is reached or later. -/
theorem packages_once (S : Setting) (events : List Event) :
    Throughout (step S) (fun s => ∀ t, s.clock ≤ t → Once t s.member.memberships) events
      (start tokenHash freeLimit baseConcurrency effectiveConcurrency tokens clock) :=
  (throughout_of_step step_owned (owned_start ..)).mono fun _ h _ => h.once.later

end Start

/-! ### What was paid for -/

/-- The memberships are what was paid for, in turn. -/
def Paid (s : State) : Prop := s.payments = s.member.memberships.map payment

instance (s : State) : Decidable (Paid s) :=
  inferInstanceAs (Decidable (s.payments = s.member.memberships.map payment))

/-- A purchase that takes the points meets no failure after that. -/
def Whole (S : Setting) : Event → State → Prop
  | .purchase wait packageId reads faults, s =>
    ∀ package ∈ getMembership S packageId reads.draws reads.shown,
      Taken S package reads (s.clock + wait) faults s →
        faults.concurrencyWrite = false ∧ faults.userWrite = false
  | _, _ => True

/-- What a purchase takes from the entry and adds to it is the price of the package and its video
quota, whether it fails after that or not. No other call pays. -/
def Pays (S : Setting) (e : Event) (s : State) : Prop :=
  match e with
  | .purchase wait packageId reads faults =>
    (∀ package ∈ getMembership S packageId reads.draws reads.shown,
      Taken S package reads (s.clock + wait) faults s →
        (step S e s).payments = s.payments ++ [package.payment]) ∧
    ((∀ package ∈ getMembership S packageId reads.draws reads.shown,
      ¬ Taken S package reads (s.clock + wait) faults s) → (step S e s).payments = s.payments)
  | _ => (step S e s).payments = s.payments

structure Settled (s : State) : Prop where
  sound : Sound s.member.toEntry
  paid : Paid s

theorem Paid.free {now : Int} {s' : State} (h : Paid s) (hfree : Free now s s') : Paid s' :=
  hfree.payments.trans (h.trans hfree.member.paid.symm)

theorem Paid.sold {now : Int} {s' : State} {package : Package} (h : Paid s)
    (hpaid : s'.payments = s.payments ++ [package.payment])
    (hmember : Sold now package s.member.toEntry s'.member.toEntry) : Paid s' := by
  rw [Paid, hpaid, hmember.paid, show s.payments = _ from h]

/-- There is a payment too many. -/
theorem Paid.not_lost {s' : State} {package : Package} (h : Paid s)
    (hpaid : s'.payments = s.payments ++ [package.payment]) (hmember : s'.member = s.member) :
    ¬ Paid s' := by
  intro hpaid'
  have hlength := congrArg List.length (hpaid.symm.trans hpaid')
  have hbefore := congrArg List.length (show s.payments = _ from h)
  rw [hmember] at hlength
  simp only [List.length_append, List.length_singleton, List.length_map] at hlength hbefore
  omega

theorem purchase_paid {now : Int} {package : Package} {reads : Readings} {faults : Faults}
    (h : Settled s) : Paid (purchaseUserMembership S package reads now faults s) ↔
      (Taken S package reads now faults s →
        faults.concurrencyWrite = false ∧ faults.userWrite = false) := by
  by_cases htaken : Taken S package reads now faults s
  · obtain ⟨hpaid, hmember⟩ := purchase_taken h.sound htaken
    split_ifs at hmember with hwrites
    · exact iff_of_true (h.paid.sold hpaid hmember) fun _ => hwrites
    · exact iff_of_false (h.paid.not_lost hpaid hmember) fun hall => hwrites (hall htaken)
  · obtain ⟨hpaid, hmember⟩ := purchase_not_taken htaken
    have hfree : Free now s _ := free_of_eq h.sound hpaid hmember
    exact iff_of_true (h.paid.free hfree) fun htaken' => absurd htaken' htaken

theorem act_free (now : Int) (e : Event) (hs : Sound s.member.toEntry)
    (hcall : ∀ wait packageId reads faults, e ≠ .purchase wait packageId reads faults) :
    Free now s (act S now e s) := by
  cases e with
  | purchase wait packageId reads faults => exact absurd rfl (hcall wait packageId reads faults)
  | sync wait known draws d text faults => exact sync_free known draws d text hs
  | look wait writes d => exact look_free writes d hs
  | setConcurrency wait concurrency d d' text faults =>
    exact setConcurrency_free concurrency d d' text hs
  | tokens wait tokens => exact free_of_eq hs rfl rfl

theorem step_pays (e : Event) (s : State) (hs : Sound s.member.toEntry) : Pays S e s := by
  cases e with
  | purchase wait packageId reads faults =>
    simp only [Pays, step, act, Event.wait]
    cases getMembership S packageId reads.draws reads.shown with
    | none => exact ⟨fun package h => (by cases h), fun _ => rfl⟩
    | some package =>
      refine ⟨?_, fun hnot => (purchase_not_taken (hnot package rfl)).1⟩
      intro package' hpackage htaken
      obtain rfl := Option.some.inj hpackage
      exact (purchase_taken hs htaken).1
  | sync => exact (act_free _ _ hs (by simp)).payments
  | look => exact (act_free _ _ hs (by simp)).payments
  | setConcurrency => exact (act_free _ _ hs (by simp)).payments
  | tokens => exact (act_free _ _ hs (by simp)).payments

theorem step_paid (e : Event) (s : State) (h : Settled s) : Paid (step S e s) ↔ Whole S e s := by
  show Paid (act S (s.clock + e.wait) e s) ↔ _
  cases e with
  | purchase wait packageId reads faults =>
    cases hpackage : getMembership S packageId reads.draws reads.shown with
    | none => simpa [act, Whole, hpackage] using h.paid
    | some package => simpa [act, Whole, hpackage, Event.wait] using purchase_paid h
  | sync => exact iff_of_true (h.paid.free (act_free _ _ h.sound (by simp))) trivial
  | look => exact iff_of_true (h.paid.free (act_free _ _ h.sound (by simp))) trivial
  | setConcurrency => exact iff_of_true (h.paid.free (act_free _ _ h.sound (by simp))) trivial
  | tokens => exact iff_of_true (h.paid.free (act_free _ _ h.sound (by simp))) trivial

/-- Each payment of a run is the price of a package and gives its video quota, and what a user owns
is what was paid for, throughout the run exactly if no purchase fails once it has taken the points. -/
theorem purchases_paid_iff (S : Setting) (tokenHash : String)
    (freeLimit baseConcurrency effectiveConcurrency : Int) (tokens : TempAccess.Tokens) (clock : Int)
    (events : List Event) :
    AllSteps (step S) (Pays S) events
        (start tokenHash freeLimit baseConcurrency effectiveConcurrency tokens clock) ∧
      (Throughout (step S) Paid events
          (start tokenHash freeLimit baseConcurrency effectiveConcurrency tokens clock) ↔
        AllSteps (step S) (Whole S) events
          (start tokenHash freeLimit baseConcurrency effectiveConcurrency tokens clock)) := by
  constructor
  · exact (throughout_of_step step_owned (owned_start ..)).allSteps fun e s h => step_pays e s h.sound
  · exact throughout_iff_allSteps_of_kept (fun _ => Settled.paid)
      (fun e s h hwhole => ⟨(act_effect e h.sound).sound h.sound, (step_paid e s h).mpr hwhole⟩)
      (fun e s h => (step_paid e s h).mp) ⟨(owned_start ..).sound, rfl⟩

/-! ### A purchase and its failure -/

section Sample

def monthly : RawPackage where
  id := "m1"
  name := "月卡"
  pointsCost := .number 3
  price := .missing
  durationDays := 30
  concurrency := 2
  bonusFreeUses := 4
  taskDiscountPoints := .missing
  enabled := true
  sortOrder := 0
  createdAt := "2025-01-01"

def sampleSetting : Setting := ⟨.ascii, .postgres, fun _ => "2025-02-01"⟩

/-- An entry with five points. -/
def sampleTokens : TempAccess.Tokens := Function.update (fun _ => none) "a"
  (some { TempAccess.createdEntry "tmp_a" 1 1 "ann" 7 "2025-01-01" with creditUnits := 50 })

/-- The package is bought; the write of the record fails or not. -/
def sampleCall (userWrite : Bool) : Event :=
  .purchase 5 "m1"
    { shown := [monthly], known := [monthly], catalog := [monthly], draws := ⟨"", ""⟩, id := "r1"
      first := fun _ => ⟨"", ""⟩, second := fun _ => ⟨"", ""⟩, now := "2025-02-01" }
    { userWrite }

def sampleRun (userWrite : Bool) : State :=
  run (step sampleSetting) [sampleCall userWrite] (start "a" 1 1 1 sampleTokens 0)

example : (sampleRun false).payments = [⟨"m1", 30, 40⟩] ∧ Paid (sampleRun false) ∧
    (sampleRun false).member.effectiveConcurrency = 2 := by decide +kernel

example : (sampleRun true).payments = [⟨"m1", 30, 40⟩] ∧ (sampleRun true).member.memberships = [] := by
  decide +kernel

end Sample

end FetchTask.Purchases
