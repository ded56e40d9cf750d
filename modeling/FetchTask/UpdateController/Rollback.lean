import FetchTask.UpdateController

/-!
What a failed update leaves behind.

The rollback starts from the commit that `deploy` read first, and from the
`rollback` tag. The tag is written after the commit has been read: where nothing
was saved under it, it names the image of an earlier update, and the rollback
gives that one to the services. `Recoverable` says when the services get back what
they had.
-/

namespace FetchTask.UpdateController

open Raising

variable (S : Setting) (o : Outcomes) (h : Host)

/-! ### The condition -/

/-- The update gets as far as reading the commit. -/
def Checked : Prop :=
  (∃ url repository, o.originUrl = .ok url ∧ S.normalizedRepository url = .ok repository ∧
    S.normalizedRepository S.expectedOrigin = .ok repository) ∧
  o.status = none ∧ h.changes = [] ∧ o.revParse = none

/-- The image of the api is saved under the `rollback` tag. -/
def Captured : Prop :=
  o.ps = none ∧ h.api ≠ none ∧ o.inspect = none ∧ o.tagRollback.done = true

instance : Decidable (Captured o h) := inferInstanceAs (Decidable (_ ∧ _))

def Pulled : Prop :=
  o.fetch = .ok ∧ o.target = none ∧
    (h.head ≠ o.fetched → o.isAncestor = none ∧ o.merge = .ok)

/-- The pulled commit is not the one that runs. -/
def Rebuilds : Prop :=
  match S.readVersion o.fetched, S.imageName o.fetched with
  | .ok version, .ok _ => ¬ (h.head = o.fetched ∧ o.runtimeVersion = version)
  | _, _ => False

/-- A new image gets the tag of the services. -/
def Builds : Prop :=
  Captured o h ∧ o.tagRollback = .ok ∧ Pulled o h ∧ Rebuilds S o h ∧ o.build.done = true

/-- The services run the image of their tag. -/
def Coherent : Prop := h.images (S.serviceImage h.head) = h.api ∧ h.worker = h.api

/-- The `rollback` tag names the image of the api when it is needed. -/
def Saved : Prop :=
  (Builds S o h ∧ S.serviceImage o.fetched = S.rollbackImageName → h.api = some o.built) ∧
  (Captured o h ∨ Builds S o h ∧ S.serviceImage o.fetched = S.rollbackImageName ∨
    h.images S.rollbackImageName = h.api)

/-- The tag of the services still names the image of the api. -/
def Untouched : Prop :=
  h.api ≠ none ∧
  (Builds S o h ∧ S.serviceImage o.fetched = S.serviceImage h.head → h.api = some o.built)

/-- The controller restores the tag `VERSION`, the services have the one of `compose.yaml`. -/
def Recoverable : Prop :=
  Checked S o h → Coherent S h ∧
    (S.imageName h.head = .ok (S.serviceImage h.head) → Saved S o h) ∧
    (S.imageName h.head ≠ .ok (S.serviceImage h.head) → Untouched S o h)

/-! ### The images that a failed update leaves -/

/-- After the image of the api was saved. -/
def savedImages : String → Option ImageId :=
  if Captured o h then Function.update h.images S.rollbackImageName h.api else h.images

open Classical in
/-- After the build. -/
noncomputable def leftImages : String → Option ImageId :=
  if Builds S o h then
    Function.update (savedImages S o h) (S.serviceImage o.fetched) (some o.built)
  else savedImages S o h

variable {S o h} {h' : Host}

/-- The state after an update that raised. Where nothing was pulled and the running
version is current, the tag `VERSION` may have been written. -/
def Left (S : Setting) (o : Outcomes) (h h' : Host) : Prop :=
  ∀ name, name = S.rollbackImageName ∨ S.imageName h.head ≠ .ok name →
    h'.images name = leftImages S o h name

theorem left_of_saved (hb : ¬ Builds S o h) (hi : h'.images = savedImages S o h) :
    Left S o h h' := by
  intro name hname
  rw [hi, leftImages, if_neg hb]

theorem left_of_built (hb : Builds S o h) (hi : h'.images =
    Function.update (savedImages S o h) (S.serviceImage o.fetched) (some o.built)) :
    Left S o h h' := by
  intro name hname
  rw [hi, leftImages, if_pos hb]

/-! ### Commands -/

theorem answer_ends {α : Type} (r : Reply) (f : Host → α) :
    Ends (r.answer f) h (fun a h' => r = none ∧ a = f h ∧ h' = h)
      (fun _ h' => r ≠ none ∧ h' = h) := by
  cases r with
  | none => exact ⟨rfl, rfl, rfl⟩
  | some e => exact ⟨nofun, rfl⟩

theorem run_ends (c : Outcome) (effect : Host → Host) :
    Ends (c.run effect) h (fun _ h' => c = .ok ∧ h' = effect h)
      (fun _ h' => c ≠ .ok ∧ h' = if c.done then effect h else h) := by
  cases c with
  | ok => exact ⟨rfl, rfl⟩
  | raised e done => exact ⟨nofun, rfl⟩

theorem runningServiceImage_ends :
    Ends (runningServiceImage o) h
      (fun image h' => (o.ps = none ∧ o.inspect = none ∧ h.api = some image) ∧ h' = h)
      (fun _ h' => ¬ Captured o h ∧ h' = h) := by
  refine Ends.bind (Q := fun image h' => (o.ps = none ∧ h.api = some image) ∧ h' = h) ?_ ?_
  · refine Ends.bind ((answer_ends o.ps Host.api).mono (fun _ _ hq => hq) fun _ _ hr => ?_) ?_
    · exact ⟨fun hc => hr.1 hc.1, hr.2⟩
    · rintro container h' ⟨hps, rfl, rfl⟩
      split
      next happ => exact Ends.throw ⟨fun hc => hc.2.1 happ, rfl⟩
      next image happ => exact Ends.pure ⟨⟨hps, happ⟩, rfl⟩
  · rintro image h' ⟨⟨hps, happ⟩, rfl⟩
    refine (answer_ends o.inspect _).mono ?_ ?_
    · rintro _ _ ⟨hinspect, rfl, rfl⟩
      exact ⟨⟨hps, hinspect, happ⟩, rfl⟩
    · rintro _ _ ⟨hinspect, rfl⟩
      exact ⟨fun hc => hinspect hc.2.2.1, rfl⟩

theorem checkRepository_ends :
    Ends (checkRepository S o) h (fun before h' => Checked S o h ∧ before = h.head ∧ h' = h)
      (fun _ h' => ¬ Checked S o h ∧ h' = h) := by
  refine Ends.bind (Q := fun url h' => o.originUrl = .ok url ∧ h' = h) (Ends.result ?_ ?_) ?_
  · exact fun url hurl => ⟨hurl, rfl⟩
  · rintro e he
    refine ⟨fun hc => ?_, rfl⟩
    obtain ⟨⟨url, -, hurl, -⟩, -⟩ := hc
    cases he.symm.trans hurl
  rintro url h ⟨hurl, rfl⟩
  refine Ends.bind (Q := fun origin h' => S.normalizedRepository url = .ok origin ∧ h' = h)
    (Ends.result ?_ ?_) ?_
  · exact fun origin horigin => ⟨horigin, rfl⟩
  · rintro e he
    refine ⟨fun hc => ?_, rfl⟩
    obtain ⟨⟨url', repository, hurl', horigin, -⟩, -⟩ := hc
    obtain rfl := Except.ok.inj (hurl.symm.trans hurl')
    cases he.symm.trans horigin
  rintro origin h ⟨horigin, rfl⟩
  refine Ends.bind
    (Q := fun expected h' => S.normalizedRepository S.expectedOrigin = .ok expected ∧ h' = h)
    (Ends.result ?_ ?_) ?_
  · exact fun expected hexpected => ⟨hexpected, rfl⟩
  · rintro e he
    refine ⟨fun hc => ?_, rfl⟩
    obtain ⟨⟨_, _, _, _, hexpected⟩, _⟩ := hc
    cases he.symm.trans hexpected
  rintro expected h ⟨hexpected, rfl⟩
  split
  next hne =>
    refine Ends.throw ⟨fun hc => hne ?_, rfl⟩
    obtain ⟨⟨url', repository, hurl', horigin', hexpected'⟩, -⟩ := hc
    obtain rfl := Except.ok.inj (hurl.symm.trans hurl')
    exact (Except.ok.inj (horigin.symm.trans horigin')).trans
      (Except.ok.inj (hexpected'.symm.trans hexpected))
  next heq =>
    refine Ends.bind ((answer_ends o.status Host.changes).mono (fun _ _ hq => hq) ?_) ?_
    · rintro _ _ ⟨hstatus, rfl⟩
      exact ⟨fun hc => hstatus hc.2.1, rfl⟩
    rintro changes h' ⟨hstatus, rfl, rfl⟩
    split
    next hchanges => exact Ends.throw ⟨fun hc => hchanges hc.2.2.1, rfl⟩
    next hchanges =>
      refine (answer_ends o.revParse Host.head).mono ?_ ?_
      · rintro _ _ ⟨hrev, rfl, rfl⟩
        obtain rfl := not_not.mp heq
        exact ⟨⟨⟨url, origin, hurl, horigin, hexpected⟩, hstatus, not_not.mp hchanges, hrev⟩,
          rfl, rfl⟩
      · rintro _ _ ⟨hrev, rfl⟩
        exact ⟨fun hc => hrev hc.2.2.2, rfl⟩

/-! ### The update -/

theorem images_eq_saved {image : ImageId} (hps : o.ps = none) (hinspect : o.inspect = none)
    (happ : h.api = some image) :
    (if o.tagRollback.done then h.tag S.rollbackImageName image else h).images =
      savedImages S o h := by
  by_cases hdone : o.tagRollback.done = true
  · have hc : Captured o h := ⟨hps, by simp [happ], hinspect, hdone⟩
    rw [if_pos hdone, savedImages, if_pos hc, happ]
    rfl
  · have hc : ¬ Captured o h := fun hc => hdone hc.2.2.2
    rw [if_neg hdone, savedImages, if_neg hc]

/-- The repository is pulled, and the images are left alone. -/
theorem fastForward_ends (h₁ : Host) (hhead : h₁.head = h.head)
    (hi : h₁.images = savedImages S o h) (ho : o.fetch = .ok) (ht : o.target = none) :
    Ends (fastForward o h.head o.fetched) h₁
      (fun _ h' => Pulled o h ∧ h'.head = o.fetched ∧ h'.images = savedImages S o h)
      (fun _ h' => Left S o h h') := by
  unfold fastForward
  split
  next hne =>
    have hnot : ¬ (o.isAncestor = none ∧ o.merge = .ok) → ¬ Builds S o h :=
      fun hm hb => hm (hb.2.2.1.2.2 hne)
    refine Ends.bind ((answer_ends o.isAncestor _).mono (fun _ _ hq => hq) ?_) ?_
    · rintro _ _ ⟨hancestor, rfl⟩
      exact left_of_saved (hnot fun hm => hancestor hm.1) hi
    rintro _ h₂ ⟨hancestor, -, rfl⟩
    refine (run_ends o.merge _).mono ?_ ?_
    · rintro _ _ ⟨hmerge, rfl⟩
      exact ⟨⟨ho, ht, fun _ => ⟨hancestor, hmerge⟩⟩, rfl, hi⟩
    · rintro _ _ ⟨hmerge, rfl⟩
      refine left_of_saved (hnot fun hm => hmerge hm.2) ?_
      split <;> exact hi
  next heq =>
    have heq := not_not.mp heq
    exact Ends.pure ⟨⟨ho, ht, fun hne => absurd heq hne⟩, hhead.trans heq, hi⟩

/-- The services are restarted with what was built. -/
theorem restart_ends {h₁ : Host} (hc : Captured o h) (htag : o.tagRollback = .ok)
    (hpulled : Pulled o h) (hrebuilds : Rebuilds S o h) (hhead : h₁.head = o.fetched)
    (hi : h₁.images = savedImages S o h) :
    Ends (do
        composeBuild S o.build o.built
        composeUp S o.up o.built
        o.health.answer fun _ => ()
        pure { phase := "更新完成", updated := true } : Command Progress) h₁
      (fun _ _ => True) (fun _ h' => Left S o h h') := by
  have hbuilds : o.build.done = true → Builds S o h :=
    fun hdone => ⟨hc, htag, hpulled, hrebuilds, hdone⟩
  have hbuilt : (h₁.tag (S.serviceImage h₁.head) o.built).images =
      Function.update (savedImages S o h) (S.serviceImage o.fetched) (some o.built) := by
    rw [← hi, ← hhead]
    rfl
  refine Ends.bind ((run_ends o.build _).mono (fun _ _ hq => hq) ?_) ?_
  · rintro _ _ ⟨-, rfl⟩
    by_cases hdone : o.build.done = true
    · rw [if_pos hdone]
      exact left_of_built (hbuilds hdone) hbuilt
    · rw [if_neg hdone]
      exact left_of_saved (fun hb => hdone hb.2.2.2.2) hi
  rintro _ h₂ ⟨hok, rfl⟩
  have hb : Builds S o h := hbuilds (by rw [hok]; rfl)
  have hleft := left_of_built hb hbuilt
  refine Ends.bind (Q := fun _ h' => Left S o h h') ?_ ?_
  · unfold Ends composeUp
    cases o.up with
    | ok =>
      -- The image of the tag is the one that was built, so the tag keeps it.
      refine left_of_built hb ?_
      rw [← hbuilt]
      show Function.update (h₁.tag _ _).images _ _ = (h₁.tag _ _).images
      rw [Function.update_eq_self_iff]
      simp [Host.tag]
    | raised e api worker => exact hleft
  · intro _ h₃ hleft₃
    refine Ends.bind ((answer_ends o.health _).mono (fun _ _ _ => trivial) ?_) ?_
    · rintro _ _ ⟨-, rfl⟩
      exact hleft₃
    · intro _ _ _
      exact Ends.pure trivial

theorem update_ends : Ends (update S o h.head) h (fun _ _ => True) (fun _ h' => Left S o h h') := by
  refine Ends.bind (runningServiceImage_ends.mono (fun _ _ hq => hq) ?_) ?_
  · rintro _ _ ⟨hc, rfl⟩
    refine left_of_saved (fun hb => hc hb.1) ?_
    rw [savedImages, if_neg hc]
  rintro image h ⟨⟨hps, hinspect, happ⟩, rfl⟩
  have hsaved := images_eq_saved (S := S) hps hinspect happ
  refine Ends.bind ((run_ends o.tagRollback _).mono (fun _ _ hq => hq) ?_) ?_
  · rintro _ _ ⟨htag, rfl⟩
    exact left_of_saved (fun hb => htag hb.2.1) hsaved
  rintro _ h₁ ⟨htag, rfl⟩
  have hc : Captured o h := ⟨hps, by simp [happ], hinspect, by rw [htag]; rfl⟩
  have hsaved : (h.tag S.rollbackImageName image).images = savedImages S o h := by
    rw [← hsaved, htag]
    rfl
  refine Ends.bind ((run_ends o.fetch _).mono (fun _ _ hq => hq) ?_) ?_
  · rintro _ _ ⟨hfetch, rfl⟩
    refine left_of_saved (fun hb => hfetch hb.2.2.1.1) ?_
    split <;> exact hsaved
  rintro _ h₂ ⟨hfetch, rfl⟩
  refine Ends.bind ((answer_ends o.target _).mono (fun _ _ hq => hq) ?_) ?_
  · rintro _ _ ⟨htarget, rfl⟩
    exact left_of_saved (fun hb => htarget hb.2.2.1.2.1) hsaved
  rintro _ h₃ ⟨htarget, rfl, rfl⟩
  have hpull := fastForward_ends (h := h) { h.tag S.rollbackImageName image with upstream := o.fetched }
    rfl hsaved hfetch htarget
  refine Ends.bind hpull ?_
  rintro _ h₄ ⟨hpulled, hhead, hi⟩
  refine Ends.bind (Q := fun c h' => c = o.fetched ∧ h' = h₄) ⟨hhead, rfl⟩ ?_
  rintro _ h₄ ⟨rfl, rfl⟩
  refine Ends.bind (Q := fun version h' => S.readVersion o.fetched = .ok version ∧ h' = h₄)
    (Ends.result (fun version hv => ⟨hv, rfl⟩) ?_) ?_
  · intro e he
    refine left_of_saved (fun hb => ?_) hi
    have hrebuilds := hb.2.2.2.1
    simp only [Rebuilds, he] at hrebuilds
  rintro version h₄ ⟨hversion, rfl⟩
  refine Ends.bind (Q := fun name h' => S.imageName o.fetched = .ok name ∧ h' = h₄)
    (Ends.result (fun name hn => ⟨hn, rfl⟩) ?_) ?_
  · intro e he
    refine left_of_saved (fun hb => ?_) hi
    have hrebuilds := hb.2.2.2.1
    simp only [Rebuilds, hversion, he] at hrebuilds
  rintro name h₄ ⟨hname, rfl⟩
  have hrebuilds : Rebuilds S o h ↔ ¬ (h.head = o.fetched ∧ o.runtimeVersion = version) := by
    simp only [Rebuilds, hversion, hname]
  split
  next hcurrent =>
    have hnot : ¬ Builds S o h := fun hb => hrebuilds.mp hb.2.2.2.1 hcurrent
    refine Ends.bind ((run_ends o.tagCurrent _).mono (fun _ _ _ => trivial) ?_) fun _ _ _ =>
      Ends.pure trivial
    rintro _ _ ⟨-, rfl⟩
    split
    next =>
      intro name' hname'
      have hkept := left_of_saved hnot hi name' hname'
      rw [← hkept]
      rcases eq_or_ne name' name with rfl | hne
      · -- The tag can only be the `rollback` tag, and that names this image already.
        rcases hname' with hroll | hother
        · rw [hkept, leftImages, if_neg hnot, savedImages, if_pos hc, hroll, happ]
          simp [Host.tag]
        · exact absurd (hcurrent.1 ▸ hname) hother
      · simp [Host.tag, hne]
    next => exact left_of_saved hnot hi
  next hstale => exact restart_ends hc htag hpulled (hrebuilds.mpr hstale) hhead hi

/-! ### The rollback -/

/-- The image that the services get from a rollback. -/
def servicesAfter (S : Setting) (o : Outcomes) (before : Commit) (images : String → Option ImageId)
    (name : String) (image : ImageId) : ImageId :=
  (Function.update images name (some image) (S.serviceImage before)).getD o.rebuilt

structure RolledBack (S : Setting) (o : Outcomes) (before : Commit) (h h' : Host)
    (name : String) (image : ImageId) : Prop where
  named : S.imageName before = .ok name
  rollbackImage : h.images S.rollbackImageName = some image
  head : h'.head = before
  tag : h'.images (S.serviceImage before) = some (servicesAfter S o before h.images name image)
  api : h'.api = some (servicesAfter S o before h.images name image)
  worker : h'.worker = some (servicesAfter S o before h.images name image)

theorem rollback_ends {before : Commit} :
    Ends (rollback S o before) h
      (fun _ h' => ∃ name image, RolledBack S o before h h' name image) (fun _ _ => True) := by
  refine Ends.bind ((run_ends o.reset _).mono (fun _ _ hq => hq) fun _ _ _ => trivial) ?_
  rintro _ h₁ ⟨-, rfl⟩
  refine Ends.bind (Q := fun h' h'' => h' = { h with head := before, changes := [] } ∧ h'' = h')
    ⟨rfl, rfl⟩ ?_
  rintro _ h₁ ⟨rfl, rfl⟩
  refine Ends.bind (Q := fun name h' => S.imageName before = .ok name ∧
      h' = { h with head := before, changes := [] })
    (Ends.result (fun name hname => ⟨hname, rfl⟩) fun _ _ => trivial) ?_
  rintro name h₁ ⟨hname, rfl⟩
  dsimp only
  cases himage : h.images S.rollbackImageName with
  | none => exact Ends.bind (Q := fun _ _ => False) (Ends.throw trivial) fun _ _ hf => hf.elim
  | some image =>
    refine Ends.bind ((run_ends o.tagBack _).mono (fun _ _ hq => hq) fun _ _ _ => trivial) ?_
    rintro _ h₁ ⟨-, rfl⟩
    refine Ends.bind (Q := fun _ h' => RolledBack S o before h h' name image) ?_ ?_
    · unfold Ends composeUp
      cases o.upBack with
      | ok =>
        refine ⟨hname, himage, rfl, ?_, rfl, rfl⟩
        exact Function.update_self ..
      | raised e api worker => trivial
    · intro _ h₂ hback
      refine (answer_ends o.healthBack _).mono ?_ fun _ _ _ => trivial
      rintro _ _ ⟨-, -, rfl⟩
      exact ⟨name, image, hback⟩

/-! ### What the rollback finds -/

theorem leftImages_rollback :
    leftImages S o h S.rollbackImageName = h.api ↔ Saved S o h := by
  by_cases hb : Builds S o h ∧ S.serviceImage o.fetched = S.rollbackImageName
  · have hleft : leftImages S o h S.rollbackImageName = some o.built := by
      rw [leftImages, if_pos hb.1, hb.2, Function.update_self]
    rw [hleft]
    exact ⟨fun h => ⟨fun _ => h.symm, .inr (.inl hb)⟩, fun h => (h.1 hb).symm⟩
  · have hleft : leftImages S o h S.rollbackImageName =
        savedImages S o h S.rollbackImageName := by
      rw [leftImages]
      split
      next hbuilds => exact Function.update_of_ne (fun heq => hb ⟨hbuilds, heq.symm⟩) ..
      next => rfl
    rw [hleft, savedImages]
    by_cases hc : Captured o h
    · rw [if_pos hc, Function.update_self]
      exact ⟨fun _ => ⟨fun h => absurd h hb, .inl hc⟩, fun _ => rfl⟩
    · rw [if_neg hc]
      refine ⟨fun h => ⟨fun h => absurd h hb, .inr (.inr h)⟩, ?_⟩
      rintro ⟨-, h | h | h⟩
      · exact absurd h hc
      · exact absurd h hb
      · exact h

theorem leftImages_service (hcoherent : h.images (S.serviceImage h.head) = h.api) :
    some ((leftImages S o h (S.serviceImage h.head)).getD o.rebuilt) = h.api ↔
      Untouched S o h := by
  by_cases hb : Builds S o h ∧ S.serviceImage o.fetched = S.serviceImage h.head
  · have hleft : leftImages S o h (S.serviceImage h.head) = some o.built := by
      rw [leftImages, if_pos hb.1, ← hb.2, Function.update_self]
    rw [hleft]
    constructor
    · intro h
      exact ⟨by rw [← h]; exact Option.some_ne_none _, fun _ => h.symm⟩
    · intro h
      exact (h.2 hb).symm
  · have hsaved : savedImages S o h (S.serviceImage h.head) = h.api := by
      rw [savedImages]
      split
      next =>
        rw [Function.update_apply, hcoherent]
        split <;> rfl
      next => exact hcoherent
    have hleft : leftImages S o h (S.serviceImage h.head) = h.api := by
      rw [leftImages]
      split
      next hbuilds =>
        exact (Function.update_of_ne (fun heq => hb ⟨hbuilds, heq.symm⟩) ..).trans hsaved
      next => exact hsaved
    rw [hleft]
    cases happ : h.api with
    | none => exact ⟨nofun, fun hu => absurd happ hu.1⟩
    | some image =>
      refine ⟨fun _ => ⟨?_, fun hbuilt => absurd hbuilt hb⟩, fun _ => rfl⟩
      rw [happ]
      exact Option.some_ne_none image

/-! ### A failed update -/

/-- The host is on its commit again, and the services run the image they ran, under the
tag that it had. -/
structure Restored (S : Setting) (h h' : Host) : Prop where
  head : h'.head = h.head
  tag : h'.images (S.serviceImage h'.head) = h.images (S.serviceImage h.head)
  api : h'.api = h.api
  worker : h'.worker = h.worker

/-- `deploy` raises, and the commands of the rollback succeed where it has one. -/
def failsUndone (S : Setting) (o : Outcomes) (h : Host) : Bool :=
  match checkRepository S o h with
  | .error _ _ => true
  | .ok before h =>
    match update S o before h with
    | .ok _ _ => false
    | .error _ h =>
      match rollback S o before h with
      | .ok _ _ => true
      | .error _ _ => false

theorem restored_iff_of_rolledBack {h₁ h₂ : Host} {name : String} {image : ImageId}
    (hleft : Left S o h h₁) (hback : RolledBack S o h.head h₁ h₂ name image) :
    Restored S h h₂ ↔ Coherent S h ∧
      (S.imageName h.head = .ok (S.serviceImage h.head) → Saved S o h) ∧
      (S.imageName h.head ≠ .ok (S.serviceImage h.head) → Untouched S o h) := by
  have hservices : Restored S h h₂ ↔ Coherent S h ∧
      some (servicesAfter S o h.head h₁.images name image) = h.api := by
    constructor
    · rintro ⟨hhead, htag, happ, hworker⟩
      rw [hhead, hback.tag] at htag
      rw [hback.api] at happ
      rw [hback.worker] at hworker
      exact ⟨⟨htag.symm.trans happ, hworker.symm.trans happ⟩, happ⟩
    · rintro ⟨⟨htag, hworker⟩, hsame⟩
      refine ⟨hback.head, ?_, hback.api.trans hsame, (hback.worker.trans hsame).trans hworker.symm⟩
      rw [hback.head, hback.tag, hsame, htag]
  rw [hservices]
  by_cases hname : name = S.serviceImage h.head
  · -- The services get the image of the `rollback` tag.
    have hagree : S.imageName h.head = .ok (S.serviceImage h.head) := hname ▸ hback.named
    have hsame : some (servicesAfter S o h.head h₁.images name image) =
        leftImages S o h S.rollbackImageName := by
      rw [servicesAfter, hname, Function.update_self, Option.getD_some, ← hback.rollbackImage]
      exact hleft _ (.inl rfl)
    rw [hsame, leftImages_rollback]
    exact and_congr_right fun _ =>
      ⟨fun h => ⟨fun _ => h, fun hne => absurd hagree hne⟩, fun h => h.1 hagree⟩
  · -- The `rollback` image goes to another tag than theirs.
    have hdiffer : S.imageName h.head ≠ .ok (S.serviceImage h.head) := fun heq =>
      hname (Except.ok.inj (hback.named.symm.trans heq))
    have hsame : servicesAfter S o h.head h₁.images name image =
        (leftImages S o h (S.serviceImage h.head)).getD o.rebuilt := by
      rw [servicesAfter, Function.update_of_ne (Ne.symm hname), hleft _ (.inr hdiffer)]
    rw [hsame]
    refine and_congr_right fun hcoherent => ?_
    rw [leftImages_service hcoherent.1]
    exact ⟨fun h => ⟨fun heq => absurd heq hdiffer, fun _ => h⟩, fun h => h.2 hdiffer⟩

/-- A failed update restores the previous deployment exactly when it was recoverable. -/
theorem deploy_restores_iff (hfails : failsUndone S o h = true) :
    Restored S h (deploy S o h).2 ↔ Recoverable S o h := by
  unfold failsUndone at hfails
  unfold deploy Recoverable
  have hcheck := checkRepository_ends (S := S) (o := o) (h := h)
  cases hchecked : checkRepository S o h with
  | error e h' =>
    obtain ⟨hnot, rfl⟩ := hcheck.of_error hchecked
    exact ⟨fun _ hc => absurd hc hnot, fun _ => ⟨rfl, rfl, rfl, rfl⟩⟩
  | ok before h' =>
    obtain ⟨hc, rfl, rfl⟩ := hcheck.of_ok hchecked
    rw [hchecked] at hfails
    dsimp only at hfails ⊢
    cases hupdate : update S o h'.head h' with
    | ok progress h₁ =>
      rw [hupdate] at hfails
      cases hfails
    | error e h₁ =>
      have hleft := update_ends.of_error hupdate
      rw [hupdate] at hfails
      dsimp only at hfails ⊢
      cases hback : rollback S o h'.head h₁ with
      | error e' h₂ =>
        rw [hback] at hfails
        cases hfails
      | ok u h₂ =>
        obtain ⟨name, image, hrolled⟩ := rollback_ends.of_ok hback
        rw [restored_iff_of_rolledBack hleft hrolled]
        exact ⟨fun h _ => h, fun h => h hc⟩

/-- Where the services run the image of their tag, it is enough that this image was saved. -/
theorem recoverable_of_captured (hagree : S.imageName h.head = .ok (S.serviceImage h.head))
    (hcoherent : Coherent S h) (hc : Captured o h)
    (hother : S.serviceImage o.fetched ≠ S.rollbackImageName) : Recoverable S o h := by
  refine fun _ => ⟨hcoherent, fun _ => ⟨fun hb => absurd hb.2 hother, .inl hc⟩, fun hne => ?_⟩
  exact absurd hagree hne

/-! ### Two updates that fail -/

def released : Setting where
  chars := .ascii
  urlparse _ := .ok ⟨"https", "github.com", "/1055660108/api-.git"⟩
  imageRepository := "dola-fetch-service"
  imageTag := ""
  expectedOrigin := "https://github.com/1055660108/api-.git"
  checkout c := if c = "new" then ⟨some "1.10.110", "1.10.110"⟩ else ⟨some "1.10.109", "1.10.109"⟩

/-- An earlier update has left its `rollback` tag. -/
def updatedOnce : Host where
  head := "old"
  upstream := "old"
  images name :=
    if name = "dola-fetch-service:1.10.109" then some "sha256:running"
    else if name = "dola-fetch-service:rollback" then some "sha256:stale"
    else none
  api := some "sha256:running"
  worker := some "sha256:running"

def buildFails : Outcomes where
  originUrl := .ok "https://github.com/1055660108/api-.git"
  fetched := "new"
  runtimeVersion := "1.10.109"
  build := .raised "command timed out after 2400 seconds" true
  built := "sha256:new"
  rebuilt := "sha256:new"

def inspectFails : Outcomes :=
  { buildFails with inspect := some "command timed out after 15 seconds" }

theorem deploy_restores_iff_buildFails :
    Restored released updatedOnce (deploy released buildFails updatedOnce).2 := by
  have hfails : failsUndone released buildFails updatedOnce = true := by decide +kernel
  refine (deploy_restores_iff hfails).mpr (recoverable_of_captured ?_ ?_ ?_ ?_)
  · rfl
  · exact ⟨by decide +kernel, rfl⟩
  · decide
  · decide +kernel

/-- The image of the api cannot be read, and the rollback starts the one of the update
before. -/
theorem stale_rollback_started : ¬ ∀ (S : Setting) (o : Outcomes) (h : Host),
    failsUndone S o h = true → Restored S h (deploy S o h).2 := by
  intro hall
  have hrestored := hall released inspectFails updatedOnce (by decide +kernel)
  have hstale : (deploy released inspectFails updatedOnce).2.api = some "sha256:stale" := by
    decide +kernel
  have hsame := hstale.symm.trans hrestored.api
  simp [updatedOnce] at hsame

end FetchTask.UpdateController
