import FetchTask.InvitationCodes.Counted

/-!
How many codes there are, and how often they were used.

Only a deletion takes a code away, and it leaves the last one while a code is
required. The use of a code is lost from the sum that the administration is shown
when a code that was used is deleted, and when a user is created with a code and the
use is not counted, since the code is gone or the registration fails.
-/

namespace FetchTask.InvitationCodes

open Runs

variable {S : Setting} {d d' d'' : Data} {codes : Codes} {w : World} {codeHash : String}

/-- No code and no use is lost or counted. -/
structure Level (d d' : Data) : Prop where
  required : d'.required = d.required
  size : d.codes.size ≤ d'.codes.size
  uses : (counts d').uses = (counts d).uses

theorem Level.refl (d : Data) : Level d d := ⟨rfl, le_rfl, rfl⟩

theorem Level.trans (h : Level d d') (h' : Level d' d'') : Level d d'' :=
  ⟨h'.required.trans h.required, h.size.trans h'.size, h'.uses.trans h.uses⟩

theorem level_normalizeData (S : Setting) (d : Data) : Level d (normalizeData S d) where
  required := rfl
  size := (Dict.size_mapValues _ _).ge
  uses := by
    have hcount : Code.useCount ∘ Code.normalized S = Code.useCount := by
      funext r
      simp only [Function.comp_apply, Code.normalized]
    simp only [counts, normalizeData]
    rw [Dict.total_mapValues, hcount]

theorem contains_normalizeData (S : Setting) (d : Data) (codeHash : String) :
    (normalizeData S d).codes.contains codeHash = d.codes.contains codeHash := by
  simp [normalizeData, Dict.contains]

/-- A new code has not been used. -/
theorem level_drawCodes (S : Setting) (now note : String) (count : Nat)
    (draws : List (String × String)) (d : Data) :
    Level d { d with codes := (drawCodes S now note count draws d.codes).2 } := by
  induction draws generalizing count d with
  | nil => cases count <;> exact .refl d
  | cons draw draws ih =>
    obtain ⟨code, id⟩ := draw
    cases count with
    | zero => exact .refl d
    | succ count =>
      by_cases hknown : d.codes.contains (S.digest code) = true
      · simp only [drawCodes, if_pos hknown]
        exact ih (count + 1) d
      · simp only [drawCodes, if_neg hknown]
        have hrest := ih count { d with
          codes := d.codes.set (S.digest code)
            { id, code, codeHash := S.digest code, createdAt := now, note } }
        have habsent : d.codes.weight Code.useCount (S.digest code) = 0 := by
          rw [Bool.not_eq_true, Dict.contains, Option.isSome_eq_false_iff,
            Option.isNone_iff_eq_none] at hknown
          rw [Dict.weight, hknown]
          rfl
        have htotal := Dict.total_set Code.useCount d.codes (S.digest code)
          { id, code, codeHash := S.digest code, createdAt := now, note }
        rw [habsent] at htotal
        have hset : Level d { d with
            codes := d.codes.set (S.digest code)
              { id, code, codeHash := S.digest code, createdAt := now, note } } :=
          ⟨rfl, Dict.size_le_set _ _ _, htotal⟩
        exact hset.trans hrest

theorem level_reserveCode (S : Setting) (code : String) (d : Data) :
    Level d (reserveCode S code d).2 := by
  rw [reserveCode]
  split
  · exact .refl d
  · refine mutate_of (.refl d) fun answer d' heq => ?_
    simp only at heq
    split at heq
    · contradiction
    · obtain ⟨-, rfl⟩ := Prod.mk.inj (Except.ok.inj heq)
      exact level_normalizeData S d

theorem level_invitation (S : Setting) (code : String) (d : Data) :
    Level d (invitation S code d).2 := by
  rw [invitation]
  split
  · exact .refl d
  split
  · exact .refl d
  · exact level_reserveCode S _ d

theorem level_generateCodes (S : Setting) (now : String) (draws : List (String × String))
    (count length : Int) (note : String) (d : Data) :
    Level d (generateCodes S now draws count length note d).2 := by
  rw [generateCodes]
  split
  · exact .refl d
  split
  · exact .refl d
  · exact (level_normalizeData S d).trans (level_drawCodes S now _ _ draws _)

theorem level_updateCodeNote (S : Setting) (codeId note : String) (d : Data) :
    Level d (updateCodeNote S codeId note d).2 := by
  rw [updateCodeNote]
  split
  · exact .refl d
  · refine mutate_of (.refl d) fun answer d' heq => ?_
    simp only at heq
    split at heq
    · obtain ⟨-, rfl⟩ := Prod.mk.inj (Except.ok.inj heq)
      exact level_normalizeData S d
    · rename_i codeHash record hfind
      obtain ⟨-, rfl⟩ := Prod.mk.inj (Except.ok.inj heq)
      refine (level_normalizeData S d).trans ⟨rfl, Dict.size_le_set _ _ _, ?_⟩
      have htotal := Dict.total_set Code.useCount (normalizeData S d).codes codeHash
        { record with note := takeText 120 (S.chars.strip note) }
      rw [Dict.weight, findCode_get? hfind] at htotal
      exact Nat.add_right_cancel htotal

/-- What a deletion that returns a code has done. -/
structure Deleted (d d' : Data) (record : Code) : Prop where
  required : d'.required = d.required
  spared : d.required = true → 1 < d.codes.size
  size : d.codes.size ≤ d'.codes.size + 1
  uses : (counts d').uses + record.useCount = (counts d).uses

theorem deleteCode_cases (S : Setting) (codeId : String) (d : Data) :
    (Level d (deleteCode S codeId d).2 ∧
      ∀ record, (deleteCode S codeId d).1 ≠ .ok (some record)) ∨
    ∃ record, (deleteCode S codeId d).1 = .ok (some record) ∧
      Deleted d (deleteCode S codeId d).2 record := by
  have hlevel := level_normalizeData S d
  rw [deleteCode]
  split
  · exact .inl ⟨.refl d, fun record h => by cases h⟩
  · rw [mutate]
    cases hfind : findCode S codeId (normalizeData S d).codes with
    | none => exact .inl ⟨hlevel, fun record h => by cases h⟩
    | some found =>
      obtain ⟨codeHash, record⟩ := found
      simp only
      by_cases hlast : (normalizeData S d).required = true ∧ (normalizeData S d).codes.size ≤ 1
      · simp only [if_pos hlast]
        exact .inl ⟨.refl d, fun record h => by cases h⟩
      · simp only [if_neg hlast]
        have htotal := Dict.total_erase Code.useCount (normalizeData S d).codes codeHash
        rw [Dict.weight, findCode_get? hfind] at htotal
        have hsize : d.codes.size = (normalizeData S d).codes.size :=
          (Dict.size_mapValues _ _).symm
        refine .inr ⟨record, rfl, rfl, fun hrequired => ?_, ?_, htotal.trans hlevel.uses⟩
        · by_contra hle
          exact hlast ⟨hrequired, hsize ▸ Nat.not_lt.mp hle⟩
        · rw [hsize]
          exact Dict.size_le_erase _ _

theorem completeReservation_absent (use : Use) (h : d.codes.contains codeHash = false) :
    Level d (completeReservation S codeHash use d).2 := by
  rw [← contains_normalizeData S, Dict.contains, Option.isSome_eq_false_iff,
    Option.isNone_iff_eq_none] at h
  rw [completeReservation, mutate]
  simp only [h]
  exact level_normalizeData S d

theorem completeReservation_present (use : Use) (h : d.codes.contains codeHash = true) :
    (completeReservation S codeHash use d).2.required = d.required ∧
      d.codes.size ≤ (completeReservation S codeHash use d).2.codes.size ∧
      (counts (completeReservation S codeHash use d).2).uses = (counts d).uses + 1 := by
  rw [← contains_normalizeData S, Dict.contains, Option.isSome_iff_exists] at h
  obtain ⟨record, hget⟩ := h
  have hlevel := level_normalizeData S d
  rw [completeReservation, mutate]
  simp only [hget]
  refine ⟨rfl, hlevel.size.trans (Dict.size_le_set _ _ _), ?_⟩
  have htotal := Dict.total_set Code.useCount (normalizeData S d).codes codeHash (record.used use)
  rw [Dict.weight, hget] at htotal
  have huses := hlevel.uses
  simp only [counts, Option.elim, Code.used] at htotal huses ⊢
  omega

/-! ### The last code -/

/-- If a code is required, there is one. -/
def World.Open (w : World) : Prop := w.data.required = true → 0 < w.data.codes.size

theorem Level.keepsOpen (h : Level w.data d) (hw : w.Open) {w' : World} (hdata : w'.data = d) :
    w'.Open := by
  subst hdata
  exact fun hrequired => (hw (h.required ▸ hrequired)).trans_le h.size

theorem counted_open (hw : w.Open) (use : Use) (invitation : Option String) :
    (w.counted S use invitation).Open := by
  cases invitation with
  | none => exact hw
  | some codeHash =>
    cases hcontains : w.data.codes.contains codeHash with
    | false => exact (completeReservation_absent use hcontains).keepsOpen hw rfl
    | true =>
      obtain ⟨hrequired, hsize, -⟩ := completeReservation_present (S := S) use hcontains
      exact fun h => (hw (hrequired ▸ h)).trans_le hsize

theorem step_open (hw : w.Open) (event : Event) (hevent : event ≠ .setRequired true) :
    (step S event w).Open := by
  cases event with
  | setRequired required =>
    cases required with
    | true => exact absurd rfl hevent
    | false => exact fun h => by cases h
  | generate now draws count length note =>
    have hlevel := level_generateCodes S now draws count length note w.data
    simp only [step]
    split <;>
    · rename_i heq
      rw [heq] at hlevel
      exact hlevel.keepsOpen hw rfl
  | delete codeId =>
    obtain ⟨hlevel, -⟩ | ⟨record, -, hdeleted⟩ := deleteCode_cases S codeId w.data
    · exact hlevel.keepsOpen hw rfl
    · intro hrequired
      -- two codes stood before the deletion
      have hspared := hdeleted.spared (hdeleted.required ▸ hrequired)
      have hsize := hdeleted.size
      simp only [step]
      omega
  | note codeId note => exact (level_updateCodeNote S codeId note w.data).keepsOpen hw rfl
  | start call code =>
    have hlevel := level_invitation S code w.data
    simp only [step]
    split
    · rename_i heq
      rw [heq] at hlevel
      split <;> exact hlevel.keepsOpen hw rfl
    · rename_i heq
      rw [heq] at hlevel
      exact hlevel.keepsOpen hw rfl
  | create call userId username =>
    simp only [step]
    split <;> exact hw
  | complete call now =>
    simp only [step]
    split
    · exact counted_open hw _ _
    · exact hw
  | fail call => exact hw

/-- While a code is required there is one, in a whole run, exactly if the requirement is never
turned on without a code: no deletion, and no registration under way, takes the last one. -/
theorem codes_left_iff (S : Setting) (w : World) (hw : w.Open) (events : List Event) :
    Throughout (step S) World.Open events w ↔
      AllSteps (step S) (fun event w => event = .setRequired true → 0 < w.data.codes.size)
        events w := by
  refine throughout_iff_allSteps (fun event w hw => ?_) hw
  by_cases hevent : event = .setRequired true
  · subst hevent
    have hsize : (step S (.setRequired true) w).data.codes.size = w.data.codes.size :=
      Dict.size_mapValues _ _
    constructor
    · intro hopen _
      exact hsize ▸ hopen rfl
    · intro hleft _
      exact hsize ▸ hleft rfl
  · exact iff_of_true (step_open hw event hevent) fun heq => absurd heq hevent

def sampleSetting : Setting where
  chars := .ascii
  normalize code := code
  sha256 text := text

theorem codes_left_sample :
    Throughout (step sampleSetting) World.Open
      [.generate "now" [("WELCOME", "1"), ("FRIENDS", "2")] 2 7 "", .setRequired true, .delete "1",
        .delete "2"] { data := { required := false } } := by
  refine (codes_left_iff sampleSetting _ (fun h => by cases h) _).mpr
    ⟨?_, fun _ => ?_, ?_, ?_, trivial⟩
  · intro h
    cases h
  · decide +kernel
  · intro h
    cases h
  · intro h
    cases h

/-! ### The sum of the uses -/

/-- The users who were created with a code. -/
def World.invited (w : World) : Nat := w.registered.countP (·.invitation.isSome)

/-- A user was created with a code, and the use is not yet counted. -/
def Registration.uncounted (registration : Registration) : Nat :=
  if registration.user.isSome && registration.invitation.isSome then 1 else 0

def World.AddsUp (w : World) : Prop :=
  (counts w.data).uses + w.calls.total Registration.uncounted = w.invited

/-- No use is lost: a code that is deleted was not used, the code of a use that is counted stands,
and no registration fails between the creation of its user and the count. -/
def Event.Spares (S : Setting) (event : Event) (w : World) : Prop :=
  match event with
  | .delete codeId => ∀ record, (deleteCode S codeId w.data).1 = .ok (some record) →
      record.useCount = 0
  | .complete call _ => ∀ registration codeHash, w.calls.get? call = some registration →
      registration.user.isSome → registration.invitation = some codeHash →
        w.data.codes.contains codeHash = true
  | .fail call => ∀ registration, w.calls.get? call = some registration →
      registration.uncounted = 0
  | _ => True

theorem Level.addsUp (h : Level w.data d) (hw : w.AddsUp) {w' : World} (hdata : w'.data = d)
    (hcalls : w'.calls.total Registration.uncounted = w.calls.total Registration.uncounted)
    (hregistered : w'.registered = w.registered) : w'.AddsUp := by
  subst hdata
  rw [World.AddsUp, World.invited, hregistered, hcalls, h.uses]
  exact hw

/-- What a registration that ends takes from the uncounted ones. -/
theorem uncounted_erase {call : String} {registration : Registration}
    (hcall : w.calls.get? call = some registration) :
    (w.calls.erase call).total Registration.uncounted + registration.uncounted =
      w.calls.total Registration.uncounted := by
  have htotal := Dict.total_erase Registration.uncounted w.calls call
  rwa [Dict.weight, hcall] at htotal

theorem create_addsUp (hw : w.AddsUp) (call userId username : String) :
    (step S (.create call userId username) w).AddsUp := by
  simp only [step]
  split
  · rename_i required invitation hcall
    have htotal := Dict.total_set Registration.uncounted w.calls call
      ⟨required, invitation, some (userId, username)⟩
    rw [Dict.weight, hcall] at htotal
    cases invitation <;>
    · simp [World.AddsUp, World.invited, Registration.uncounted] at hw htotal ⊢
      omega
  · exact hw

theorem complete_addsUp_iff (hw : w.AddsUp) (call now : String) :
    (step S (.complete call now) w).AddsUp ↔ (Event.complete call now).Spares S w := by
  simp only [step]
  split
  · rename_i required invitation userId username hcall
    have herase := uncounted_erase hcall
    cases invitation with
    | none =>
      refine iff_of_true ?_ fun registration codeHash hget _ hinvitation => ?_
      · exact (congrArg (_ + ·) herase).trans hw
      · rw [hcall] at hget
        obtain rfl := Option.some.inj hget
        contradiction
    | some codeHash =>
      have hspares : (Event.complete call now).Spares S w ↔
          w.data.codes.contains codeHash = true := by
        constructor
        · exact fun h => h _ _ hcall rfl rfl
        · rintro h registration other hget - hinvitation
          rw [hcall] at hget
          obtain rfl := Option.some.inj hget
          obtain rfl := Option.some.inj hinvitation
          exact h
      rw [hspares]
      simp only [World.AddsUp, World.invited, World.counted, Registration.uncounted,
        Option.isSome_some, Bool.and_self, if_true] at hw herase ⊢
      cases hcontains : w.data.codes.contains codeHash with
      | true =>
        obtain ⟨-, -, huses⟩ :=
          completeReservation_present (S := S) (useOf now userId username) hcontains
        rw [huses]
        exact iff_of_true (by omega) rfl
      | false =>
        -- the code was deleted while the registration was under way
        have huses := (completeReservation_absent (S := S) (useOf now userId username) hcontains).uses
        rw [huses]
        exact iff_of_false (by omega) Bool.false_ne_true
  · rename_i hnone
    refine iff_of_true hw fun registration codeHash hget huser _ => ?_
    obtain ⟨required, invitation, user⟩ := registration
    obtain ⟨⟨userId, username⟩, rfl⟩ := Option.isSome_iff_exists.mp huser
    exact absurd hget (hnone _ _ _ _)

theorem fail_addsUp_iff (hw : w.AddsUp) (call : String) :
    (step S (.fail call) w).AddsUp ↔ (Event.fail call).Spares S w := by
  simp only [step, Event.Spares]
  cases hcall : w.calls.get? call with
  | none =>
    have htotal := Dict.total_erase Registration.uncounted w.calls call
    rw [Dict.weight, hcall] at htotal
    exact iff_of_true ((congrArg (_ + ·) htotal).trans hw) fun registration h => by cases h
  | some registration =>
    have herase := uncounted_erase hcall
    simp only [World.AddsUp, World.invited, Option.some.injEq, forall_eq'] at hw ⊢
    omega

theorem step_addsUp_iff (hw : w.AddsUp) (event : Event) :
    (step S event w).AddsUp ↔ event.Spares S w := by
  cases event with
  | setRequired required =>
    exact iff_of_true ((congrArg (· + _) (level_normalizeData S w.data).uses).trans hw) trivial
  | generate now draws count length note =>
    have hlevel := level_generateCodes S now draws count length note w.data
    refine iff_of_true ?_ trivial
    simp only [step]
    split <;>
    · rename_i heq
      rw [heq] at hlevel
      exact hlevel.addsUp hw rfl rfl rfl
  | delete codeId =>
    obtain ⟨hlevel, hnone⟩ | ⟨record, hanswer, hdeleted⟩ := deleteCode_cases S codeId w.data
    · exact iff_of_true (hlevel.addsUp hw rfl rfl rfl) fun record h => absurd h (hnone record)
    · have huses := hdeleted.uses
      -- the uses of the code are gone, the users who came with it are not
      simp only [World.AddsUp] at hw
      constructor
      · intro hafter other hother
        obtain rfl := Option.some.inj (Except.ok.inj (hanswer.symm.trans hother))
        simp only [World.AddsUp, step, World.invited] at hafter hw
        omega
      · intro hspares
        have hzero := hspares record hanswer
        simp only [World.AddsUp, step, World.invited] at hw ⊢
        omega
  | note codeId note =>
    exact iff_of_true ((level_updateCodeNote S codeId note w.data).addsUp hw rfl rfl rfl) trivial
  | start call code =>
    have hlevel := level_invitation S code w.data
    refine iff_of_true ?_ trivial
    simp only [step]
    split
    · rename_i invitation data heq
      rw [heq] at hlevel
      split
      · exact hlevel.addsUp hw rfl rfl rfl
      · rename_i hnew
        have htotal := Dict.total_set Registration.uncounted w.calls call
          ⟨(normalizeData S w.data).required, invitation, none⟩
        rw [Bool.not_eq_true, Dict.contains, Option.isSome_eq_false_iff,
          Option.isNone_iff_eq_none] at hnew
        rw [Dict.weight, hnew] at htotal
        exact hlevel.addsUp hw rfl htotal rfl
    · rename_i heq
      rw [heq] at hlevel
      exact hlevel.addsUp hw rfl rfl rfl
  | create call userId username => exact iff_of_true (create_addsUp hw call userId username) trivial
  | complete call now => exact complete_addsUp_iff hw call now
  | fail call => exact fail_addsUp_iff hw call

/-- The uses that the administration is shown, and those that are about to be counted, are the users
that were created with a code, in a whole run, exactly if no code that was used is deleted, no use is
counted of a code that is gone, and no registration fails before the use of its user is counted. -/
theorem uses_add_up_iff (S : Setting) (events : List Event) :
    Throughout (step S)
        (fun w => (counts w.data).uses + w.calls.total Registration.uncounted = w.invited) events {} ↔
      AllSteps (step S) (Event.Spares S) events {} :=
  throughout_iff_allSteps (P := World.AddsUp) (fun event _ hw => step_addsUp_iff hw event) rfl

end FetchTask.InvitationCodes
