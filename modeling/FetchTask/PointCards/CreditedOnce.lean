import FetchTask.Lib.Knowledge
import FetchTask.PointCards
import FetchTask.TempAccess.Conservation

/-!
A card is credited once, and no card is lost.

A redemption takes its card, credits it, and settles it; a card that is taken is
not `unused`. A write puts the whole document in the place of the stored one, so it
does no harm while the stored document is the one that the call has seen: then what
the call has found of its card still holds, and the other cards stay as they are.
-/

namespace FetchTask.PointCards

open TempAccess Runs Knowledge

/-! ### The law -/

/-- The card can be redeemed. -/
def Unused (cards : Cards) (digest : String) : Prop :=
  (cards.get? digest).join.any (fun card => card.status == "unused") = true

instance (cards : Cards) (digest : String) : Decidable (Unused cards digest) :=
  inferInstanceAs (Decidable (_ = true))

structure Store.Lawful (s : Store) : Prop where
  /-- No card's points were added twice. -/
  once : s.credited.Nodup
  /-- A card that was returned is unused, unless it was deleted or its redemption has begun. -/
  kept : ∀ d ∈ s.returned, Unused s.cards d ∨ d ∈ s.deleted ∨ d ∈ s.taken
  /-- A card whose redemption has returned is not unused. -/
  spent : ∀ d ∈ s.redeemed, ¬ Unused s.cards d

abbrev CardConfig := Config CardSig Store

def step (S : Setting) : Label Call Env → CardConfig → CardConfig :=
  Config.step (handle S) (Call.prog S)

def CardConfig.Idle (c : CardConfig) : Prop := ∀ i, (c.threads i).isDone = true

/-! ### What a call holds -/

/-- The card that a redemption has taken, and whether its points have been added. -/
inductive Holding
  | nothing
  | took (digest : String)
  | paid (digest : String)

structure Known where
  /-- The document that the call has read or written last. -/
  seen : Option Cards := none
  holding : Holding := .nothing

/-- The cards that a change is not about are in both documents alike. -/
def Change.Spares (change : Change) (seen cards : Cards) : Prop :=
  ∀ d, d ∉ change.digests → (Unused cards d ↔ Unused seen d)

/-- What a change makes of the document that was seen. -/
def Change.Made (seen cards : Cards) : Change → Prop
  | .generate digests => ∀ d ∈ digests, Unused cards d
  | .delete digests => ∀ d ∈ digests, ¬ Unused cards d
  | .take digest => Unused seen digest ∧ ¬ Unused cards digest
  | .settle digest => ¬ Unused cards digest
  | .giveBack digest => Unused cards digest

/-- What a call knows, and what it may do with it. -/
def holdings : Knowledge CardSig Known where
  start := {}
  may
    | k, .write cards change => (∀ seen ∈ k.seen, change.Spares seen cards ∧ change.Made seen cards) ∧
      match change with
      | .giveBack digest => k.holding = .took digest
      | .settle digest => k.holding = .paid digest
      | _ => True
    | k, .addCredit digest .. => k.holding = .took digest
    | _, _ => True
  can _ _ := True
  learn
    | k, .read, cards => { k with seen := some cards }
    | _, .write cards (.take digest), _ => { seen := some cards, holding := .took digest }
    | _, .write cards (.giveBack _), _ | _, .write cards (.settle _), _ => { seen := some cards }
    | k, .write cards _, _ => { k with seen := some cards }
    | k, .addCredit digest .., .ok _ => { k with holding := .paid digest }
    | k, _, _ => k

/-- No other call has written since the call has read or written last: the stored document is the
one that it has seen. And no code is generated whose card has been taken. -/
def Op.Undisturbed (k : Known) : Op → Store → Prop
  | .write _ change, s => k.seen = some s.cards ∧
    match change with
    | .generate digests => ∀ d ∈ digests, d ∉ s.taken
    | _ => True
  | _, _ => True

instance (k : Known) (o : Op) (s : Store) : Decidable (o.Undisturbed k s) := by
  cases o with
  | write cards change =>
    cases change <;> exact inferInstanceAs (Decidable (_ ∧ _))
  | _ => exact inferInstanceAs (Decidable True)

/-! ### Documents -/

section Documents

variable {cards : Cards} {digest d : String} {card : Card}

theorem unused_set : Unused (cards.set digest (some card)) d ↔
    if digest = d then card.status = "unused" else Unused cards d := by
  unfold Unused
  rw [Dict.get?_set]
  split
  · simp
  · rfl

/-- A removed card is not in the document any more. -/
theorem not_unused_removed {isDeleted : String × Option Card → Bool}
    (hd : d ∈ (cards.items.filter isDeleted).map Prod.fst) :
    ¬ Unused (cards.filter fun item => !isDeleted item) d := by
  intro hunused
  obtain ⟨⟨d, value⟩, hitem, rfl⟩ := List.mem_map.mp hd
  obtain ⟨hmem, hdeleted⟩ := List.mem_filter.mp hitem
  have hget : cards.get? d = some value := cards.get?_eq_some_iff.mpr hmem
  cases hleft : (cards.filter fun item => !isDeleted item).get? d with
  | none => simp [Unused, hleft] at hunused
  | some value' =>
    obtain ⟨hmem', hkept⟩ := List.mem_filter.mp ((Dict.get?_eq_some_iff _).mp hleft)
    have hget' : cards.get? d = some value' := cards.get?_eq_some_iff.mpr hmem'
    obtain rfl : value = value' := Option.some.inj (hget.symm.trans hget')
    simp [hdeleted] at hkept

/-- A card that is not removed stays as it is. -/
theorem unused_kept {isDeleted : String × Option Card → Bool}
    (hd : d ∉ (cards.items.filter isDeleted).map Prod.fst) :
    Unused (cards.filter fun item => !isDeleted item) d ↔ Unused cards d := by
  have hkept : ∀ value, cards.get? d = some value → isDeleted (d, value) = false := by
    intro value hget
    by_contra htrue
    rw [Bool.not_eq_false] at htrue
    have hmem := List.mem_filter.mpr ⟨cards.get?_eq_some_iff.mp hget, htrue⟩
    exact hd (List.mem_map_of_mem hmem)
  have hsame : (cards.filter fun item => !isDeleted item).get? d = cards.get? d := by
    refine Option.ext fun value => ?_
    rw [Dict.get?_eq_some_iff, Dict.get?_eq_some_iff]
    refine ⟨fun hin => (List.mem_filter.mp hin).1, fun hin => List.mem_filter.mpr ⟨hin, ?_⟩⟩
    simpa using hkept value (cards.get?_eq_some_iff.mpr hin)
  rw [Unused, hsame, Unused]

/-- A card that is put in leaves the others as they are. -/
theorem unused_set_of_ne (h : d ≠ digest) :
    Unused (cards.set digest (some card)) d ↔ Unused cards d := by
  rw [unused_set, if_neg h.symm]

end Documents

/-! ### The programs -/

section Programs

variable {S : Setting} {k : Known}

/-- The call keeps to what it may do. -/
abbrev Keeps {α : Type} (k : Known) (p : Run α) (Q : α → Known → Prop) : Prop :=
  holdings.Does Q (fun _ _ => True) k p

section Rules

variable {α β : Type} {Q : α → Known → Prop}

theorem keeps_op {o : Op} {Q : o.Res → Known → Prop} (ho : holdings.may k o)
    (h : ∀ r, Q r (holdings.learn k o r)) : Keeps k (op o) Q :=
  does_act ho fun r _ => h r

/-- One operation, and what follows it. -/
theorem keeps_op_bind {o : Op} {f : o.Res → Run α} (ho : holdings.may k o)
    (h : ∀ r, Keeps (holdings.learn k o r) (f r) Q) : Keeps k (op o >>= f) Q :=
  (keeps_op (Q := fun r k' => k' = holdings.learn k o r) ho fun _ => rfl).bind fun r _ hk => hk ▸ h r

theorem keeps_raised_bind {a : Except String β} {f : β → Run α} (h : ∀ v, Keeps k (f v) Q) :
    Keeps k (raised a >>= f) Q := by
  cases a with
  | ok v => exact h v
  | error message => exact does_throw trivial

end Rules

/-- The new cards are put into the document, and the others stay. -/
theorem keeps_newCards (units : Int) (note : String) (count : Nat) (cards : Cards) :
    Keeps k (newCards S units note count cards) fun r k' => k' = k ∧
      (∀ d ∈ r.2, Unused r.1 d) ∧ ∀ d, d ∉ r.2 → (Unused r.1 d ↔ Unused cards d) := by
  induction count generalizing cards with
  | zero => exact does_pure ⟨rfl, by simp, fun _ _ => Iff.rfl⟩
  | succ count ih =>
    refine keeps_op_bind trivial fun r => ?_
    refine keeps_raised_bind fun digest => ?_
    refine keeps_op_bind trivial fun now => ?_
    refine (ih _).bind ?_
    rintro ⟨cards', digests⟩ _ ⟨rfl, hdigests, hothers⟩
    refine does_pure ⟨rfl, fun d hd => ?_, fun d hd => ?_⟩
    -- two of the new cards may have one code: then the later one is in the document
    · by_cases hlater : d ∈ digests
      · exact hdigests d hlater
      · obtain rfl : d = digest := (List.mem_cons.mp hd).resolve_right hlater
        refine (hothers d hlater).mpr (unused_set.mpr ?_)
        rw [if_pos rfl]
        rfl
    · rw [List.mem_cons, not_or] at hd
      exact (hothers d hd.2).trans (unused_set_of_ne hd.1)

/-- What is removed is what the call has seen, less the deleted cards. -/
theorem keeps_removeCards {cards : Cards} (hseen : k.seen = some cards)
    (isDeleted : String × Option Card → Bool) :
    Keeps k (removeCards cards isDeleted) fun _ _ => True := by
  unfold removeCards
  dsimp only
  split
  · exact does_pure trivial
  · refine keeps_op ⟨fun seen hin => ?_, trivial⟩ fun _ => trivial
    obtain rfl : cards = seen := Option.some.inj (hseen.symm.trans hin)
    exact ⟨fun d hd => unused_kept hd, fun d hd => not_unused_removed hd⟩

/-- A card is put in, as the only change to what the call has seen. -/
theorem spares_set {change : Change} {digest : String} (hchange : change.digests = [digest])
    {seen cards : Cards} (hcards : ∀ d, d ≠ digest → (Unused cards d ↔ Unused seen d)) (card : Card) :
    change.Spares seen (cards.set digest (some card)) := by
  intro d hd
  rw [hchange, List.mem_singleton] at hd
  exact (unused_set_of_ne hd).trans (hcards d hd)

theorem keeps_redeemCard (code userId tokenHash username : String) :
    Keeps k (redeemCard S code userId tokenHash username) fun _ _ => True := by
  unfold redeemCard
  dsimp only
  split
  · exact does_throw trivial
  · refine keeps_raised_bind fun digest => ?_
    refine keeps_op_bind trivial fun cards => ?_
    split
    · exact does_throw trivial
    next card hget =>
      split
      · exact does_throw trivial
      next hstatus =>
        have hunused : Unused cards digest := by
          rw [Unused, hget]
          simpa using hstatus
        -- the document that the call has written differs from the first one at the card only
        have htaken : ∀ redeeming d, d ≠ digest →
            (Unused cards d ↔ Unused (cards.set digest (some redeeming)) d) :=
          fun redeeming d hd => (unused_set_of_ne hd).symm
        have hself : ∀ card' : Card, card'.status ≠ "unused" →
            ¬ Unused (cards.set digest (some card')) digest := by
          intro card' hspent
          rwa [unused_set, if_pos rfl]
        refine keeps_op_bind ⟨?_, trivial⟩ fun _ => keeps_op_bind rfl fun credited => ?_
        · rintro seen ⟨⟩
          exact ⟨spares_set rfl (fun _ _ => Iff.rfl) _, hunused, hself _ (by simp)⟩
        cases credited with
        -- `except`: the card is given back before the exception goes on
        | error e =>
          refine keeps_op_bind ⟨?_, rfl⟩ fun _ => does_throw trivial
          rintro seen ⟨⟩
          refine ⟨spares_set rfl (htaken _) _, unused_set.mpr ?_⟩
          rw [if_pos rfl]
        | ok token =>
          refine keeps_op_bind trivial fun now => keeps_op ⟨?_, rfl⟩ fun _ => trivial
          rintro seen ⟨⟩
          exact ⟨spares_set rfl (htaken _) _, hself _ (by simp)⟩

theorem ensures_prog (call : Call) :
    holdings.Ensures (fun _ _ => True) holdings.start (call.prog S) := by
  have hrun : Keeps holdings.start (call.run S) fun _ _ => True := by
    cases call with
    | generateCards units count note =>
      show Keeps _ (generateCards S units count note) _
      unfold generateCards
      split
      · exact does_throw trivial
      · refine keeps_op_bind trivial fun cards => ?_
        refine (keeps_newCards units note count.toNat cards).bind ?_
        rintro ⟨cards', digests⟩ _ ⟨rfl, hdigests, hothers⟩
        refine keeps_op ⟨?_, trivial⟩ fun _ => trivial
        rintro seen ⟨⟩
        exact ⟨hothers, hdigests⟩
    | deleteCards cardIds status =>
      show Keeps _ (deleteCards S cardIds status) _
      unfold deleteCards
      dsimp only
      split
      · exact does_throw trivial
      · split
        · exact does_throw trivial
        · exact keeps_op_bind trivial fun cards => keeps_removeCards rfl _
    | purgeLegacyCards => exact keeps_op_bind trivial fun cards => keeps_removeCards rfl _
    | redeemCard code userId tokenHash username =>
      exact keeps_redeemCard code userId tokenHash username
  exact Ensures.bind hrun fun _ _ _ => trivial

end Programs

/-! ### The invariant -/

structure Inv (s : Store) (known : Nat → Known) : Prop where
  /-- A card that a call has taken is not credited, and no other call has taken it. -/
  took : ∀ i d, (known i).holding = .took d →
    d ∈ s.taken ∧ d ∉ s.credited ∧ ∀ j, (known j).holding = .took d → j = i
  paid : ∀ i d, (known i).holding = .paid d → d ∈ s.credited
  credited : ∀ d ∈ s.credited, d ∈ s.taken
  redeemed : ∀ d ∈ s.redeemed, d ∈ s.credited
  once : s.credited.Nodup
  taken : ∀ d ∈ s.taken, ¬ Unused s.cards d
  kept : ∀ d ∈ s.returned, Unused s.cards d ∨ d ∈ s.deleted ∨ d ∈ s.taken

section Invariant

variable {S : Setting} {e : Env} {s : Store} {known : Nat → Known} {cards : Cards} {i : Nat}
  {digest : String} {digests : List String} {seen : Option Cards} {change : Change}

theorem Inv.lawful (h : Inv s known) : s.Lawful where
  once := h.once
  kept := h.kept
  spent d hd := h.taken d (h.credited d (h.redeemed d hd))

/-- A call that lets its card go, or starts. -/
theorem Inv.forget (h : Inv s known) (i : Nat) (seen : Option Cards) :
    Inv s (Function.update known i { seen }) := by
  have hknown : ∀ j k, (Function.update known i { seen } j).holding = k → k ≠ .nothing →
      (known j).holding = k := by
    intro j k hj hk
    rcases eq_or_ne j i with rfl | hji
    · rw [Function.update_self] at hj
      exact absurd hj.symm hk
    · rwa [Function.update_of_ne hji] at hj
  refine { h with took := fun j d hj => ?_, paid := fun j d hj => ?_ }
  · obtain ⟨htaken, hcredited, hunique⟩ := h.took j d (hknown j _ hj (by simp))
    exact ⟨htaken, hcredited, fun j' hj' => hunique j' (hknown j' _ hj' (by simp))⟩
  · exact h.paid j d (hknown j _ hj (by simp))

/-- A call sees another document. -/
theorem Inv.sees (h : Inv s known) (i : Nat) (seen : Option Cards) :
    Inv s (Function.update known i { known i with seen }) := by
  have hsame : ∀ j, (Function.update known i { known i with seen } j).holding =
      (known j).holding := by
    intro j
    rcases eq_or_ne j i with rfl | hji
    · rw [Function.update_self]
    · rw [Function.update_of_ne hji]
  refine { h with took := fun j d hj => ?_, paid := fun j d hj => ?_ }
  · rw [hsame] at hj
    obtain ⟨htaken, hcredited, hunique⟩ := h.took j d hj
    exact ⟨htaken, hcredited, fun j' hj' => hunique j' (by rwa [hsame] at hj')⟩
  · rw [hsame] at hj
    exact h.paid j d hj

/-- The written document agrees with the stored one where the invariant needs it. -/
theorem Inv.write (h : Inv s known) (htaken : ∀ d ∈ s.taken, ¬ Unused cards d)
    (hkept : ∀ d ∈ s.returned, Unused s.cards d → Unused cards d ∨ d ∈ s.deleted ∨ d ∈ s.taken) :
    Inv { s with cards := cards } known :=
  { h with
    taken := htaken
    kept := fun d hd => (h.kept d hd).elim (hkept d hd) .inr }

/-- A card that a write is not about stays taken. -/
theorem Inv.spares (h : Inv s known) (hspares : change.Spares s.cards cards) {d : String}
    (hd : d ∉ change.digests) (htaken : d ∈ s.taken) : ¬ Unused cards d :=
  fun hunused => h.taken d htaken ((hspares d hd).mp hunused)

theorem inv_generate (h : Inv s known) (hspares : (Change.generate digests).Spares s.cards cards)
    (hmade : ∀ d ∈ digests, Unused cards d) (hnew : ∀ d ∈ digests, d ∉ s.taken) :
    Inv ((Change.generate digests).record { s with cards := cards }) known := by
  have hwrite : Inv { s with cards := cards } known := by
    refine h.write (fun d hd => ?_) fun d hd hunused => ?_
    · exact h.spares hspares (fun hown => hnew d hown hd) hd
    · by_cases hown : d ∈ digests
      · exact .inl (hmade d hown)
      · exact .inl ((hspares d hown).mpr hunused)
  refine { hwrite with kept := fun d hd => ?_ }
  rcases List.mem_append.mp hd with hnew | hold
  · exact .inl (hmade d hnew)
  · exact hwrite.kept d hold

theorem inv_delete (h : Inv s known) (hspares : (Change.delete digests).Spares s.cards cards)
    (hmade : ∀ d ∈ digests, ¬ Unused cards d) :
    Inv ((Change.delete digests).record { s with cards := cards }) known := by
  refine { h with taken := fun d hd hunused => ?_, kept := fun d hd => ?_ }
  · by_cases hown : d ∈ digests
    · exact hmade d hown hunused
    · exact h.spares hspares hown hd hunused
  · by_cases hown : d ∈ digests
    · exact .inr (.inl (List.mem_append_left _ hown))
    · rcases h.kept d hd with hunused | hdeleted | htaken
      · exact .inl ((hspares d hown).mpr hunused)
      · exact .inr (.inl (List.mem_append_right _ hdeleted))
      · exact .inr (.inr htaken)

/-- A card that is found unused has not been taken. -/
theorem inv_take (h : Inv s known) (hspares : (Change.take digest).Spares s.cards cards)
    (hfound : Unused s.cards digest) (hmade : ¬ Unused cards digest) :
    Inv ((Change.take digest).record { s with cards := cards })
      (Function.update known i { seen, holding := .took digest }) := by
  have hfree : digest ∉ s.taken := fun htaken => h.taken digest htaken hfound
  have hnone : ∀ j, (known j).holding ≠ .took digest := fun j hj => hfree (h.took j digest hj).1
  refine ⟨fun j d hj => ?_, fun j d hj => ?_, fun d hd => ?_, h.redeemed, h.once, fun d hd => ?_,
    fun d hd => ?_⟩
  · by_cases hji : j = i
    · subst hji
      rw [Function.update_self] at hj
      cases hj
      refine ⟨List.mem_cons_self, fun hd => hfree (h.credited _ hd), fun j' hj' => ?_⟩
      by_contra hne
      rw [Function.update_of_ne hne] at hj'
      exact hnone j' hj'
    · rw [Function.update_of_ne hji] at hj
      obtain ⟨htaken, hcredited, hunique⟩ := h.took j d hj
      refine ⟨List.mem_cons_of_mem _ htaken, hcredited, fun j' hj' => ?_⟩
      by_cases hj'i : j' = i
      · subst hj'i
        rw [Function.update_self] at hj'
        cases hj'
        exact absurd htaken hfree
      · rw [Function.update_of_ne hj'i] at hj'
        exact hunique j' hj'
  · by_cases hji : j = i
    · subst hji
      rw [Function.update_self] at hj
      cases hj
    · rw [Function.update_of_ne hji] at hj
      exact h.paid j d hj
  · exact List.mem_cons_of_mem _ (h.credited d hd)
  · by_cases hown : d = digest
    · exact hown ▸ hmade
    · exact h.spares hspares (mt List.mem_singleton.mp hown) ((List.mem_cons.mp hd).resolve_left hown)
  · by_cases hown : d = digest
    · exact .inr (.inr (hown ▸ List.mem_cons_self))
    · rcases h.kept d hd with hunused | hdeleted | htaken
      · exact .inl ((hspares d (mt List.mem_singleton.mp hown)).mpr hunused)
      · exact .inr (.inl hdeleted)
      · exact .inr (.inr (List.mem_cons_of_mem _ htaken))

theorem inv_giveBack (h : Inv s known) (hk : (known i).holding = .took digest)
    (hspares : (Change.giveBack digest).Spares s.cards cards) (hmade : Unused cards digest) :
    Inv ((Change.giveBack digest).record { s with cards := cards })
      (Function.update known i { seen }) := by
  obtain ⟨-, hnot, hunique⟩ := h.took i digest hk
  have hforget := h.forget i seen
  have hothers : ∀ {d}, d ≠ digest → d ∈ s.taken → d ∈ s.taken.filter (· ≠ digest) :=
    fun hne hd => List.mem_filter.mpr ⟨hd, by simpa using hne⟩
  refine ⟨fun j d hj => ?_, hforget.paid, fun d hd => ?_, h.redeemed, h.once, fun d hd => ?_,
    fun d hd => ?_⟩
  · obtain ⟨htaken, hcredited, hsame⟩ := hforget.took j d hj
    refine ⟨hothers ?_ htaken, hcredited, hsame⟩
    rintro rfl
    have hji : j ≠ i := by
      rintro rfl
      rw [Function.update_self] at hj
      cases hj
    rw [Function.update_of_ne hji] at hj
    exact hji (hunique j hj)
  · refine hothers ?_ (h.credited d hd)
    rintro rfl
    exact hnot hd
  · obtain ⟨htaken, hne⟩ := List.mem_filter.mp hd
    exact h.spares hspares (mt List.mem_singleton.mp (by simpa using hne)) htaken
  · by_cases hown : d = digest
    · exact .inl (hown ▸ hmade)
    · rcases h.kept d hd with hunused | hdeleted | htaken
      · exact .inl ((hspares d (mt List.mem_singleton.mp hown)).mpr hunused)
      · exact .inr (.inl hdeleted)
      · exact .inr (.inr (hothers hown htaken))

theorem inv_settle (h : Inv s known) (hk : (known i).holding = .paid digest)
    (hspares : (Change.settle digest).Spares s.cards cards) (hmade : ¬ Unused cards digest) :
    Inv ((Change.settle digest).record { s with cards := cards })
      (Function.update known i { seen }) := by
  have hcredited := h.paid i digest hk
  have hwrite : Inv { s with cards := cards } known := by
    refine h.write (fun d hd hunused => ?_) fun d hd hunused => ?_
    · by_cases hown : d = digest
      · exact hmade (hown ▸ hunused)
      · exact h.spares hspares (mt List.mem_singleton.mp hown) hd hunused
    · by_cases hown : d = digest
      · exact .inr (.inr (hown ▸ h.credited digest hcredited))
      · exact .inl ((hspares d (mt List.mem_singleton.mp hown)).mpr hunused)
  refine { hwrite.forget i seen with redeemed := fun d hd => ?_ }
  rcases List.mem_cons.mp hd with rfl | hold
  · exact hcredited
  · exact h.redeemed d hold

theorem inv_credit (h : Inv s known) (hk : (known i).holding = .took digest) (tokens : Tokens) :
    Inv { s with tokens := tokens, credited := digest :: s.credited }
      (Function.update known i { seen, holding := .paid digest }) := by
  obtain ⟨htaken, hnot, hunique⟩ := h.took i digest hk
  refine ⟨fun j d hj => ?_, fun j d hj => ?_, fun d hd => ?_, fun d hd => ?_, ?_, h.taken, h.kept⟩
  · have hji : j ≠ i := by
      rintro rfl
      rw [Function.update_self] at hj
      cases hj
    rw [Function.update_of_ne hji] at hj
    obtain ⟨hd, hcredited, hsame⟩ := h.took j d hj
    refine ⟨hd, fun hmem => ?_, fun j' hj' => hsame j' ?_⟩
    · rcases List.mem_cons.mp hmem with rfl | hold
      · exact hji (hunique j hj)
      · exact hcredited hold
    · by_cases hj'i : j' = i
      · subst hj'i
        rw [Function.update_self] at hj'
        cases hj'
      · rwa [Function.update_of_ne hj'i] at hj'
  · by_cases hji : j = i
    · subst hji
      rw [Function.update_self] at hj
      cases hj
      exact List.mem_cons_self
    · rw [Function.update_of_ne hji] at hj
      exact List.mem_cons_of_mem _ (h.paid j d hj)
  · rcases List.mem_cons.mp hd with rfl | hold
    · exact htaken
    · exact h.credited d hold
  · exact List.mem_cons_of_mem _ (h.redeemed d hd)
  · exact List.nodup_cons.mpr ⟨hnot, h.once⟩

/-- Every operation that a call may perform keeps the invariant. -/
theorem keeps_inv : holdings.Keeps (handle S) Inv fun k _ o s => o.Undisturbed k s := by
  intro i e o s known h hmay hundisturbed
  refine ⟨trivial, ?_⟩
  cases o with
  | read => exact h.sees i (some s.cards)
  | write cards change =>
    obtain ⟨hwritten, hown⟩ := hmay
    obtain ⟨hseen, hnew⟩ := hundisturbed
    obtain ⟨hspares, hmade⟩ := hwritten s.cards hseen
    cases change with
    | generate digests =>
      exact (inv_generate h hspares hmade hnew).sees i (some cards)
    | delete digests => exact (inv_delete h hspares hmade).sees i (some cards)
    | take digest => exact inv_take h hspares hmade.1 hmade.2
    | giveBack digest => exact inv_giveBack h hown hspares hmade
    | settle digest => exact inv_settle h hown hspares hmade
  | addCredit digest tokenHash units =>
    have hk : (known i).holding = .took digest := hmay
    simp only [handle]
    rcases hcredit : addTempCreditUnits S.chars .postgres tokenHash units e.now s.tokens with
      ⟨e' | token, tokens⟩
    · show Inv _ (Function.update known i (known i))
      rw [Function.update_eq_self]
      exact { h with }
    · exact inv_credit h hk tokens
  | now | newCode =>
    show Inv _ (Function.update known i (known i))
    rw [Function.update_eq_self]
    exact h

/-- No call has seen the document yet. -/
def CardConfig.untold (c : CardConfig) : Tracked CardSig Store Known where
  config := c
  known _ := {}

/-- Where no other call writes the document between the read or write of a call and its next write,
in every state of the run no card has been credited twice, no returned card is lost, and no
redeemed card is unused. -/
theorem cards_credited_once (S : Setting) (labels : List (Label Call Env)) (c : CardConfig)
    (hidle : c.Idle) (hfresh : c.shared = { cards := c.shared.cards, tokens := c.shared.tokens })
    (hundisturbed : AllSteps (holdings.step (handle S) (Call.prog S))
      (OnKnown fun k _ o s => o.Undisturbed k s) labels c.untold) :
    Throughout (step S) (fun c => c.shared.Lawful) labels c := by
  have hfollows : holdings.Follows (fun _ => True) Inv c.untold := by
    refine ⟨fun i => ?_, ?_⟩
    · show holdings.Ensures _ _ (c.threads i)
      cases hi : c.threads i with
      | ret u => trivial
      | act o k =>
        have hdone := hidle i
        simp [hi, Prog.isDone] at hdone
    · show Inv c.shared _
      rw [hfresh]
      constructor <;> simp [CardConfig.untold]
  have hall := follows_run (ensures_prog (S := S)) (fun _ _ i h _ => h.forget i none) keeps_inv
    hfollows hundisturbed
  exact throughout_config.mp (hall.mono fun t ht => ht.inv.lawful)

end Invariant

/-! ### One card, redeemed in two processes -/

section Sample

def sampleSetting : Setting where
  chars := .ascii
  normalize code := code
  sha256 text := .ok text

def sampleCard : Card where
  id := "1"
  codeHash := "HSABCDEFGHIJ"
  code := "HSABCDEFGHIJ"
  codeHint := "HSABCDE...GHIJ"
  pointsUnits := 50
  status := "unused"
  note := ""
  createdAt := "2025-01-01"

/-- Two users, one unused card, and no call in progress. -/
def oneCard : CardConfig where
  shared :=
    { cards := Dict.empty.set "HSABCDEFGHIJ" (some sampleCard)
      tokens := Function.update sampleTokens "b" (some sampleEntry) }
  threads _ := .ret ()

def operations (i count : Nat) : List (Label Call Env) := List.replicate count (.act i {})

/-- A second user comes after the first has redeemed the card. -/
def redeemInTurn : List (Label Call Env) :=
  .spawn 0 (.redeemCard "HSABCDEFGHIJ" "1" "a" "") :: operations 0 5 ++
    .spawn 1 (.redeemCard "HSABCDEFGHIJ" "2" "b" "") :: operations 1 1

/-- Both users read the document before either writes it. -/
def redeemAtOnce : List (Label Call Env) :=
  [.spawn 0 (.redeemCard "HSABCDEFGHIJ" "1" "a" ""), .spawn 1 (.redeemCard "HSABCDEFGHIJ" "2" "b" "")] ++
    operations 0 1 ++ operations 1 1 ++ operations 0 2 ++ operations 1 2

theorem cards_credited_once_in_turn :
    Throughout (step sampleSetting) (fun c => c.shared.Lawful) redeemInTurn oneCard :=
  cards_credited_once sampleSetting redeemInTurn oneCard (fun _ => rfl) rfl (by decide +kernel)

theorem card_credited_twice : oneCard.Idle ∧
    ¬ Throughout (step sampleSetting) (fun c => c.shared.Lawful) redeemAtOnce oneCard := by
  refine ⟨fun _ => rfl, fun h => ?_⟩
  have honce := h.final.once
  revert honce
  decide +kernel

example : (run (step sampleSetting) redeemAtOnce oneCard).shared.credited =
    ["HSABCDEFGHIJ", "HSABCDEFGHIJ"] := by
  decide +kernel

end Sample

end FetchTask.PointCards
