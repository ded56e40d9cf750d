import Mathlib.Algebra.Order.Group.Int
import Mathlib.Data.Finset.Sort
import Mathlib.Data.List.GetD
import Mathlib.Data.List.Rotate
import Mathlib.Data.String.Basic

/-!
The turns of the owners of batch jobs (`app/batch_jobs.py`).

`next_owner` chooses who may start a row. In one process a cursor walks over the
eligible owners; with Redis a list of all known owners is rotated until an eligible
one comes up, and other processes may register owners before any of its commands.
What counts there is the order in which the eligible owners stand in the list: stale
owners and new ones leave it alone, and the owner that is returned goes to its end.
-/

namespace FetchTask.Batch

/-- `normalized`. -/
def normalizedOwners (eligible : Finset String) : List String :=
  (eligible.filter (· ≠ "")).sort (· ≤ ·)

theorem nodup_normalizedOwners (eligible : Finset String) : (normalizedOwners eligible).Nodup :=
  Finset.sort_nodup ..

theorem mem_normalizedOwners {eligible : Finset String} {owner : String} :
    owner ∈ normalizedOwners eligible ↔ owner ∈ eligible ∧ owner ≠ "" := by
  rw [normalizedOwners, Finset.mem_sort, Finset.mem_filter]

/-! ### In one process -/

/-- `next_owner` with the cursor of the process. -/
def nextLocalOwner (eligible : Finset String) (cursor : Int) : String × Int :=
  let normalized := normalizedOwners eligible
  if normalized = [] then ("", cursor)
  else
    (normalized.getD (cursor % normalized.length).toNat "",
      (cursor + 1) % max 1 (normalized.length : Int))

/-- What so many calls return. -/
def localTurns (eligible : Finset String) : Nat → Int → List String
  | 0, _ => []
  | calls + 1, cursor =>
    let (owner, cursor) := nextLocalOwner eligible cursor
    owner :: localTurns eligible calls cursor

/-! ### With Redis -/

/-- The list of the owners; the set of the known owners is that of its members. -/
structure OwnerList where
  owners : List String
  nodup : owners.Nodup
  named : "" ∉ owners

namespace OwnerList

/-- The script of `register_owner`. -/
def register (owner : String) (z : OwnerList) : OwnerList :=
  if h : owner = "" ∨ owner ∈ z.owners then z
  else
    { owners := z.owners ++ [owner]
      nodup := List.nodup_append.mpr ⟨z.nodup, List.nodup_singleton owner, by
        rintro a ha b hb rfl
        exact h (Or.inr (List.mem_singleton.mp hb ▸ ha))⟩
      named := by
        rw [List.mem_append, List.mem_singleton]
        rintro (hin | heq)
        · exact z.named hin
        · exact h (Or.inl heq.symm) }

/-- `LMOVE` from the left end to the right end. -/
def lmove (z : OwnerList) : String × OwnerList :=
  match hz : z.owners with
  | [] => ("", z)
  | owner :: owners =>
    (owner,
      { owners := owners ++ [owner]
        nodup := (List.perm_append_singleton owner owners).nodup_iff.mpr (hz ▸ z.nodup)
        named := fun hin => z.named
          (hz ▸ (List.perm_append_singleton owner owners).mem_iff.mp hin) })

end OwnerList

/-- Redis, with the number of commands that the scheduler has sent. -/
structure OwnerRedis where
  list : OwnerList
  commands : Nat

section Redis

variable (others : Nat → List String) (eligible : Finset String)

/-- The list with what other processes have registered since the last command. -/
def OwnerRedis.arrived (r : OwnerRedis) : OwnerList :=
  (others r.commands).foldl (fun z owner => z.register owner) r.list

/-- A command of the scheduler. -/
def OwnerRedis.command {α : Type} (r : OwnerRedis) (f : OwnerList → α × OwnerList) :
    α × OwnerRedis :=
  let result := f (r.arrived others)
  (result.1, ⟨result.2, r.commands + 1⟩)

/-- `for owner in normalized: self.register_owner(owner)`. -/
def registerOwners : List String → OwnerRedis → OwnerRedis
  | [], r => r
  | owner :: owners, r =>
    registerOwners owners (r.command others fun z => ((), z.register owner)).2

/-- The loop of `next_owner`, with the attempts that are left. -/
def probeOwners : Nat → OwnerRedis → Option String × OwnerRedis
  | 0, r => (none, r)
  | attempts + 1, r =>
    let (owner, r) := r.command others OwnerList.lmove
    if owner ∈ eligible then (some owner, r) else probeOwners attempts r

/-- `next_owner` with Redis. -/
def nextOwner (r : OwnerRedis) : String × OwnerRedis :=
  let normalized := normalizedOwners eligible
  if normalized = [] then ("", r)
  else
    let r := registerOwners others normalized r
    let (length, r) := r.command others fun z => (z.owners.length, z)
    let attempts := max normalized.length length
    let (found, r) := probeOwners others eligible (max 1 attempts) r
    (found.getD (normalized.headD ""), r)

/-- What so many calls return. -/
def redisTurns : Nat → OwnerRedis → List String
  | 0, _ => []
  | calls + 1, r =>
    let (owner, r) := nextOwner others eligible r
    owner :: redisTurns calls r

end Redis

/-! ### The order of the eligible owners -/

section Order

variable {others : Nat → List String} {eligible : Finset String} {z : OwnerList} {r : OwnerRedis}

/-- The owners that may be returned, in the order of the list. -/
def OwnerList.turn (eligible : Finset String) (z : OwnerList) : List String :=
  z.owners.filter (· ∈ eligible)

/-- Every eligible owner is known. -/
def OwnerList.Registered (eligible : Finset String) (z : OwnerList) : Prop :=
  ∀ owner ∈ normalizedOwners eligible, owner ∈ z.owners

theorem prefix_register (owner : String) (z : OwnerList) :
    z.owners <+: (z.register owner).owners := by
  rw [OwnerList.register]
  split
  · exact List.prefix_rfl
  · exact List.prefix_append ..

theorem mem_register {owner : String} (hne : owner ≠ "") (z : OwnerList) :
    owner ∈ (z.register owner).owners := by
  rw [OwnerList.register]
  split
  next h => exact h.resolve_left hne
  next h => exact List.mem_append_right _ (List.mem_singleton_self owner)

/-- The turn holds every eligible owner once. -/
theorem turn_perm (h : z.Registered eligible) : (z.turn eligible).Perm (normalizedOwners eligible) := by
  refine (List.perm_ext_iff_of_nodup (z.nodup.filter _) (nodup_normalizedOwners eligible)).mpr
    fun owner => ?_
  rw [List.mem_filter, decide_eq_true_eq, mem_normalizedOwners]
  constructor
  · rintro ⟨hin, helig⟩
    exact ⟨helig, fun heq => z.named (heq ▸ hin)⟩
  · rintro ⟨helig, hne⟩
    exact ⟨h owner (mem_normalizedOwners.mpr ⟨helig, hne⟩), helig⟩

variable {z' : OwnerList}

theorem OwnerList.Registered.of_grown (h : z.Registered eligible) (hgrown : z.owners <+: z'.owners) :
    z'.Registered eligible := fun owner hin => hgrown.subset (h owner hin)

/-- Owners that are added while every eligible one is known are not eligible. -/
theorem filter_new {new : List String} (h : z.Registered eligible)
    (hnew : z.owners ++ new = z'.owners) : new.filter (· ∈ eligible) = [] := by
  refine List.filter_eq_nil_iff.mpr fun owner hin helig => ?_
  have hne : owner ≠ "" := fun heq => z'.named (hnew ▸ List.mem_append_right _ (heq ▸ hin))
  have hold := h owner (mem_normalizedOwners.mpr ⟨of_decide_eq_true helig, hne⟩)
  exact List.disjoint_of_nodup_append (hnew ▸ z'.nodup) hold hin

theorem turn_of_grown (h : z.Registered eligible) (hgrown : z.owners <+: z'.owners) :
    z'.turn eligible = z.turn eligible := by
  obtain ⟨new, hnew⟩ := hgrown
  rw [OwnerList.turn, ← hnew, List.filter_append, filter_new h hnew, List.append_nil]
  rfl

theorem prefix_arrived (others : Nat → List String) (r : OwnerRedis) :
    r.list.owners <+: (r.arrived others).owners := by
  rw [OwnerRedis.arrived]
  generalize r.list = z
  induction others r.commands generalizing z with
  | nil => exact List.prefix_rfl
  | cons owner owners ih => exact (prefix_register owner z).trans (ih (z.register owner))

/-! What each part of `next_owner` does to the list. -/

theorem lmove_cons {owner : String} {owners : List String} (h : z.owners = owner :: owners) :
    z.lmove.1 = owner ∧ z.lmove.2.owners = owners ++ [owner] := by
  rw [OwnerList.lmove]
  split
  next hnil => cases hnil.symm.trans h
  next other rest hcons =>
    cases hcons.symm.trans h
    exact ⟨rfl, rfl⟩

theorem OwnerList.Registered.lmove (h : z.Registered eligible) : z.lmove.2.Registered eligible := by
  intro owner hin
  have hold := h owner hin
  cases hz : z.owners with
  | nil =>
    rw [hz] at hold
    cases hold
  | cons first rest =>
    rw [(lmove_cons hz).2, (List.perm_append_singleton first rest).mem_iff, ← hz]
    exact hold

theorem prefix_registerOwners (others : Nat → List String) (owners : List String)
    (r : OwnerRedis) :
    r.list.owners <+: (registerOwners others owners r).list.owners := by
  induction owners generalizing r with
  | nil => exact List.prefix_rfl
  | cons owner owners ih =>
    have hcommand := (prefix_arrived others r).trans (prefix_register owner _)
    exact hcommand.trans (ih (r.command others fun z => ((), z.register owner)).2)

theorem mem_registerOwners {owner : String} {owners : List String} (hin : owner ∈ owners)
    (hne : owner ≠ "") (r : OwnerRedis) :
    owner ∈ (registerOwners others owners r).list.owners := by
  induction owners generalizing r with
  | nil => cases hin
  | cons other owners ih =>
    rcases List.mem_cons.mp hin with rfl | hin
    · exact (prefix_registerOwners others owners
        (r.command others fun z => ((), z.register owner)).2).subset (mem_register hne _)
    · exact ih hin _

theorem registered_registerOwners (others : Nat → List String) (eligible : Finset String)
    (r : OwnerRedis) :
    (registerOwners others (normalizedOwners eligible) r).list.Registered eligible :=
  fun _ hin => mem_registerOwners hin (mem_normalizedOwners.mp hin).2 r

/-- The loop comes to the owner whose turn it is, past the stale ones before it. -/
theorem probeOwners_spec (others : Nat → List String) {stale rest : List String} {owner : String} {attempts : Nat}
    (hreg : r.list.Registered eligible) (hlist : r.list.owners = stale ++ owner :: rest)
    (hstale : ∀ other ∈ stale, other ∉ eligible) (howner : owner ∈ eligible)
    (hattempts : stale.length < attempts) :
    ∃ r', probeOwners others eligible attempts r = (some owner, r') ∧
      r'.list.Registered eligible ∧
      r'.list.turn eligible = rest.filter (· ∈ eligible) ++ [owner] := by
  induction attempts generalizing r stale rest with
  | zero => omega
  | succ attempts ih =>
    have hreg' := hreg.of_grown (prefix_arrived others r)
    obtain ⟨new, hnew⟩ := prefix_arrived others r
    have hnone := filter_new hreg hnew
    rw [hlist, List.append_assoc, List.cons_append] at hnew
    rw [probeOwners]
    cases stale with
    | nil =>
      obtain ⟨hfirst, hmoved⟩ := lmove_cons hnew.symm
      simp only [OwnerRedis.command, hfirst, if_pos howner]
      refine ⟨_, rfl, hreg'.lmove, ?_⟩
      rw [OwnerList.turn, hmoved, List.filter_append, List.filter_append, hnone, List.append_nil]
      simp [howner]
    | cons first stale =>
      obtain ⟨hfirst, hmoved⟩ := lmove_cons hnew.symm
      have hpast : first ∉ eligible := hstale first List.mem_cons_self
      simp only [OwnerRedis.command, hfirst, if_neg hpast]
      obtain ⟨r', hfound, hreg'', hturn⟩ :=
        @ih ⟨(r.arrived others).lmove.2, r.commands + 1⟩ stale (rest ++ new ++ [first]) hreg'.lmove (by simpa using hmoved)
        (fun other hin => hstale other (List.mem_cons_of_mem _ hin))
        (Nat.lt_of_succ_lt_succ hattempts)
      refine ⟨r', hfound, hreg'', ?_⟩
      rw [hturn, List.filter_append, List.filter_append, hnone, List.append_nil]
      simp [hpast]

/-- A call returns the owner whose turn it is and puts it last. -/
theorem nextOwner_spec {owner : String} {owners : List String}
    (hreg : (registerOwners others (normalizedOwners eligible) r).list.Registered eligible)
    (hturn : (registerOwners others (normalizedOwners eligible) r).list.turn eligible =
      owner :: owners) :
    ∃ r', nextOwner others eligible r = (owner, r') ∧ r'.list.Registered eligible ∧
      r'.list.turn eligible = owners ++ [owner] := by
  have hsome : normalizedOwners eligible ≠ [] := by
    intro hnil
    have hperm := turn_perm hreg
    rw [hturn, hnil] at hperm
    exact List.cons_ne_nil _ _ hperm.eq_nil
  obtain ⟨r₁, hr₁⟩ : ∃ r₁, r₁ = registerOwners others (normalizedOwners eligible) r := ⟨_, rfl⟩
  rw [← hr₁] at hreg hturn
  have hgrown := prefix_arrived others r₁
  rw [← turn_of_grown hreg hgrown] at hturn
  obtain ⟨stale, rest, hlist, hstale, howner, hrest⟩ := List.filter_eq_cons_iff.mp hturn
  have hattempts : stale.length <
      max 1 (max (normalizedOwners eligible).length (r₁.arrived others).owners.length) := by
    rw [hlist, List.length_append, List.length_cons]
    omega
  obtain ⟨r', hfound, hreg', hturn'⟩ := probeOwners_spec others
    (r := ⟨r₁.arrived others, r₁.commands + 1⟩) (hreg.of_grown hgrown) hlist
    (by simpa using hstale) (of_decide_eq_true howner) hattempts
  refine ⟨r', ?_, hreg', by rw [hturn', hrest]⟩
  rw [nextOwner, if_neg hsome, ← hr₁]
  simp only [OwnerRedis.command, hfound, Option.getD_some]

/-- Calls return the owners in the order of their turn. -/
theorem redisTurns_spec (others : Nat → List String) {owners later : List String}
    (hreg : r.list.Registered eligible)
    (hturn : r.list.turn eligible = owners ++ later) :
    redisTurns others eligible owners.length r = owners := by
  induction owners generalizing r later with
  | nil => rfl
  | cons owner owners ih =>
    have hgrown := prefix_registerOwners others (normalizedOwners eligible) r
    have hnext := (turn_of_grown hreg hgrown).trans hturn
    rw [List.cons_append] at hnext
    obtain ⟨r', hcall, hreg', hturn'⟩ := nextOwner_spec (hreg.of_grown hgrown) hnext
    rw [List.append_assoc] at hturn'
    rw [List.length_cons, redisTurns, hcall]
    exact congrArg _ (ih hreg' hturn')

/-- As many calls as there are eligible owners return each of them once. -/
theorem redisTurns_perm (others : Nat → List String) (eligible : Finset String) (r : OwnerRedis) :
    (redisTurns others eligible (normalizedOwners eligible).length r).Perm
      (normalizedOwners eligible) := by
  have hreg := registered_registerOwners others eligible r
  have hperm := turn_perm hreg
  rw [← hperm.length_eq]
  cases hturn : (registerOwners others (normalizedOwners eligible) r).list.turn eligible with
  | nil =>
    rw [hturn] at hperm
    exact hperm
  | cons owner owners =>
    -- The first call may still have to register owners; the later ones find all of them.
    obtain ⟨r', hcall, hreg', hturn'⟩ := nextOwner_spec hreg hturn
    have hrest := redisTurns_spec others hreg' hturn'
    rw [List.length_cons, redisTurns, hcall]
    simp only [hrest]
    rw [hturn] at hperm
    exact hperm

end Order

/-! ### Turns -/

section Turns

variable {eligible : Finset String} {cursor : Int}

/-- The cursor gives the owner at its place and moves on by one. -/
theorem nextLocalOwner_spec (hsome : normalizedOwners eligible ≠ []) :
    nextLocalOwner eligible cursor =
      ((normalizedOwners eligible).getD (cursor % (normalizedOwners eligible).length).toNat "",
        (cursor + 1) % (normalizedOwners eligible).length) := by
  have hpos := List.length_pos_of_ne_nil hsome
  have hone : max 1 ((normalizedOwners eligible).length : Int) =
      (normalizedOwners eligible).length := by omega
  rw [nextLocalOwner, if_neg hsome, hone]

theorem localTurns_eq (hsome : normalizedOwners eligible ≠ []) (calls : Nat) :
    localTurns eligible calls cursor = (List.range calls).map fun i : Nat =>
      (normalizedOwners eligible).getD
        ((cursor + i) % (normalizedOwners eligible).length).toNat "" := by
  induction calls generalizing cursor with
  | zero => rfl
  | succ calls ih =>
    rw [localTurns, nextLocalOwner_spec hsome, List.range_succ_eq_map, List.map_cons, List.map_map]
    simp only [ih]
    congr 1
    · simp
    · refine List.map_congr_left fun i _ => ?_
      simp only [Function.comp_apply, Int.emod_add_emod]
      congr 3
      push_cast
      omega

/-- The cursor walks once round the eligible owners. -/
theorem localTurns_perm (eligible : Finset String) (cursor : Int) :
    (localTurns eligible (normalizedOwners eligible).length cursor).Perm
      (normalizedOwners eligible) := by
  by_cases hsome : normalizedOwners eligible = []
  · rw [hsome]
    exact List.Perm.nil
  · have hpos := List.length_pos_of_ne_nil hsome
    suffices h : localTurns eligible (normalizedOwners eligible).length cursor =
        (normalizedOwners eligible).rotate
          (cursor % (normalizedOwners eligible).length).toNat by
      rw [h]
      exact List.rotate_perm ..
    rw [localTurns_eq hsome]
    refine List.ext_getElem (by simp) fun i hi hi' => ?_
    simp only [List.getElem_map, List.getElem_range, List.getElem_rotate]
    have hplace : ((cursor + i) % (normalizedOwners eligible).length).toNat =
        (i + (cursor % (normalizedOwners eligible).length).toNat) %
          (normalizedOwners eligible).length := by
      have hne : ((normalizedOwners eligible).length : Int) ≠ 0 :=
        Int.natCast_ne_zero.mpr hpos.ne'
      refine Int.natCast_inj.mp ?_
      rw [Int.toNat_of_nonneg (Int.emod_nonneg _ hne), Int.natCast_mod, Int.natCast_add,
        Int.toNat_of_nonneg (Int.emod_nonneg _ hne), Int.add_emod_emod, add_comm]
    rw [hplace, List.getD_eq_getElem _ _ (Nat.mod_lt _ hpos)]

theorem count_turns {returned : List String} (h : returned.Perm (normalizedOwners eligible))
    (owner : String) :
    returned.count owner = if owner ∈ eligible ∧ owner ≠ "" then 1 else 0 := by
  rw [h.count_eq]
  split
  next hin =>
    exact List.count_eq_one_of_mem (nodup_normalizedOwners eligible) (mem_normalizedOwners.mpr hin)
  next hin => exact List.count_eq_zero.mpr fun hmem => hin (mem_normalizedOwners.mp hmem)

/-- In as many calls as there are eligible owners each of them is returned once and nobody else is,
with any cursor in one process, and with any list in Redis whatever other processes register. -/
theorem owners_take_turns (eligible : Finset String) :
    (∀ cursor owner, (localTurns eligible (normalizedOwners eligible).length cursor).count owner =
      if owner ∈ eligible ∧ owner ≠ "" then 1 else 0) ∧
    ∀ others r owner,
      (redisTurns others eligible (normalizedOwners eligible).length r).count owner =
        if owner ∈ eligible ∧ owner ≠ "" then 1 else 0 :=
  ⟨fun cursor => count_turns (localTurns_perm eligible cursor),
    fun others r => count_turns (redisTurns_perm others eligible r)⟩

end Turns

end FetchTask.Batch
