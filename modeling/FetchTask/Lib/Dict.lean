import Mathlib.Algebra.BigOperators.Group.List.Basic
import Mathlib.Data.Finset.Card
import Mathlib.Data.List.Nodup

/-!
Insertion-ordered dictionaries.

A `Dict κ ν` is a list of key–value pairs in which no key occurs twice; the
proof of that is part of the value. Assigning to a key that is present replaces
its value in place, assigning to a new key appends. `total f` adds up a weight
over all values: it is the quantity that ledgers and balances are about, and
`total_set` says what an assignment does to it.
-/

namespace FetchTask

universe u v w

/-- A dictionary: pairs in insertion order, no key twice. -/
structure Dict (κ : Type u) (ν : Type v) where
  items : List (κ × ν)
  nodup : (items.map Prod.fst).Nodup

namespace Dict

variable {κ : Type u} {ν : Type v} [DecidableEq κ]

instance [DecidableEq ν] : DecidableEq (Dict κ ν) := fun d d' =>
  decidable_of_iff (d.items = d'.items) <| by
    cases d
    cases d'
    rw [mk.injEq]

def empty : Dict κ ν := ⟨[], by simp⟩

/-- The value found first under `k` in a list of pairs. -/
def lookup (k : κ) : List (κ × ν) → Option ν
  | [] => none
  | p :: ps => if p.1 = k then some p.2 else lookup k ps

/-- Replace the value under `k`, or append the pair. -/
def assign (k : κ) (v : ν) : List (κ × ν) → List (κ × ν)
  | [] => [(k, v)]
  | p :: ps => if p.1 = k then (k, v) :: ps else p :: assign k v ps

theorem mem_keys_assign {k j : κ} {v : ν} {l : List (κ × ν)} :
    j ∈ (assign k v l).map Prod.fst ↔ j = k ∨ j ∈ l.map Prod.fst := by
  induction l with
  | nil => simp [assign]
  | cons p ps ih =>
    by_cases h : p.1 = k
    · simp [assign, h]
    · simp only [assign, h, if_false, List.map_cons, List.mem_cons, ih]
      tauto

theorem nodup_assign {k : κ} {v : ν} {l : List (κ × ν)} (h : (l.map Prod.fst).Nodup) :
    ((assign k v l).map Prod.fst).Nodup := by
  induction l with
  | nil => simp [assign]
  | cons p ps ih =>
    simp only [List.map_cons, List.nodup_cons] at h
    by_cases hk : p.1 = k
    · simp only [assign, hk, if_true, List.map_cons, List.nodup_cons]
      exact ⟨hk ▸ h.1, h.2⟩
    · simp only [assign, hk, if_false, List.map_cons, List.nodup_cons]
      refine ⟨fun hmem => ?_, ih h.2⟩
      rcases mem_keys_assign.mp hmem with heq | hps
      · exact hk heq
      · exact h.1 hps

/-- `d.get(k)`. -/
def get? (d : Dict κ ν) (k : κ) : Option ν := lookup k d.items

/-- `d[k] = v`. -/
def set (d : Dict κ ν) (k : κ) (v : ν) : Dict κ ν :=
  ⟨assign k v d.items, nodup_assign d.nodup⟩

/-- The pairs that satisfy `p`, in order. -/
def filter (d : Dict κ ν) (p : κ × ν → Bool) : Dict κ ν :=
  ⟨d.items.filter p, (List.filter_sublist.map Prod.fst).nodup d.nodup⟩

/-- The pairs after the first `n`. -/
def drop (d : Dict κ ν) (n : Nat) : Dict κ ν :=
  ⟨d.items.drop n, ((List.drop_sublist n d.items).map Prod.fst).nodup d.nodup⟩

def size (d : Dict κ ν) : Nat := d.items.length

omit [DecidableEq κ] in
theorem items_filter (d : Dict κ ν) (p : κ × ν → Bool) : (d.filter p).items = d.items.filter p := rfl

omit [DecidableEq κ] in
theorem items_drop (d : Dict κ ν) (n : Nat) : (d.drop n).items = d.items.drop n := rfl

@[simp] theorem get?_empty (k : κ) : (empty : Dict κ ν).get? k = none := rfl

theorem lookup_assign (k j : κ) (v : ν) (l : List (κ × ν)) :
    lookup j (assign k v l) = if k = j then some v else lookup j l := by
  induction l with
  | nil => simp [assign, lookup]
  | cons p ps ih =>
    by_cases hp : p.1 = k
    · by_cases hj : k = j <;> simp [assign, lookup, hp, hj]
    · by_cases hj : k = j
      · subst hj
        simp [assign, lookup, hp, ih]
      · simp only [assign, hp, if_false, lookup, ih, if_neg hj]

theorem get?_set (d : Dict κ ν) (k j : κ) (v : ν) :
    (d.set k v).get? j = if k = j then some v else d.get? j :=
  lookup_assign k j v d.items

@[simp] theorem get?_set_self (d : Dict κ ν) (k : κ) (v : ν) : (d.set k v).get? k = some v := by
  simp [get?_set]

@[simp] theorem get?_set_of_ne (d : Dict κ ν) {k j : κ} (v : ν) (h : k ≠ j) :
    (d.set k v).get? j = d.get? j := by
  simp [get?_set, h]

theorem lookup_eq_some_iff {k : κ} {v : ν} {l : List (κ × ν)} (h : (l.map Prod.fst).Nodup) :
    lookup k l = some v ↔ (k, v) ∈ l := by
  induction l with
  | nil => simp [lookup]
  | cons p ps ih =>
    simp only [List.map_cons, List.nodup_cons] at h
    by_cases hp : p.1 = k
    · subst hp
      have habs : (p.1, v) ∉ ps := fun hmem => h.1 (List.mem_map.mpr ⟨_, hmem, rfl⟩)
      simp only [lookup, if_true, Option.some.injEq, List.mem_cons, habs, or_false]
      exact ⟨fun hv => by rw [← hv], fun hv => congrArg Prod.snd hv.symm⟩
    · have hne : (k, v) ≠ p := fun heq => hp (by rw [← heq])
      simp [lookup, hp, hne, ih h.2]

/-- Reading a dictionary finds exactly the pairs it lists. -/
theorem get?_eq_some_iff (d : Dict κ ν) {k : κ} {v : ν} : d.get? k = some v ↔ (k, v) ∈ d.items :=
  lookup_eq_some_iff d.nodup

/-- Whether a key is present. -/
def contains (d : Dict κ ν) (k : κ) : Bool := (d.get? k).isSome

/-- `d.pop(k, None)`. -/
def erase (d : Dict κ ν) (k : κ) : Dict κ ν := d.filter fun p => p.1 ≠ k

theorem lookup_filter_key {q : κ → Bool} (k : κ) (l : List (κ × ν)) :
    lookup k (l.filter fun p => q p.1) = if q k then lookup k l else none := by
  induction l with
  | nil => simp [lookup]
  | cons p ps ih =>
    by_cases hp : p.1 = k
    · subst hp
      cases hq : q p.1 <;> simp [lookup, hq, ih]
    · cases hq : q p.1 <;> simp [lookup, hq, hp, ih]

theorem get?_filter_key (d : Dict κ ν) (q : κ → Bool) (k : κ) :
    (d.filter fun p => q p.1).get? k = if q k then d.get? k else none :=
  lookup_filter_key k d.items

theorem contains_filter_key (d : Dict κ ν) (q : κ → Bool) (k : κ) :
    (d.filter fun p => q p.1).contains k = (q k && d.contains k) := by
  rw [contains, get?_filter_key]
  cases q k <;> simp [contains]

@[simp] theorem get?_erase (d : Dict κ ν) (k j : κ) :
    (d.erase k).get? j = if j = k then none else d.get? j := by
  have h := get?_filter_key d (fun i => decide (i ≠ k)) j
  rw [erase, h]
  by_cases hj : j = k <;> simp [hj]

@[simp] theorem contains_empty (k : κ) : (empty : Dict κ ν).contains k = false := rfl

@[simp] theorem contains_set (d : Dict κ ν) (k j : κ) (v : ν) :
    (d.set k v).contains j = (decide (k = j) || d.contains j) := by
  by_cases h : k = j <;> simp [contains, h]

@[simp] theorem contains_erase (d : Dict κ ν) (k j : κ) :
    (d.erase k).contains j = (decide (j ≠ k) && d.contains j) := by
  by_cases h : j = k <;> simp [contains, h]

theorem contains_iff (d : Dict κ ν) (k : κ) : d.contains k = true ↔ ∃ v, (k, v) ∈ d.items := by
  rw [contains, Option.isSome_iff_exists]
  simp only [get?_eq_some_iff]

theorem contains_iff_mem_keys (d : Dict κ ν) (k : κ) :
    d.contains k = true ↔ k ∈ d.items.map Prod.fst := by
  rw [contains_iff, List.mem_map]
  constructor
  · rintro ⟨v, hmem⟩
    exact ⟨(k, v), hmem, rfl⟩
  · rintro ⟨⟨j, v⟩, hmem, rfl⟩
    exact ⟨v, hmem⟩

theorem assign_of_notMem {k : κ} {l : List (κ × ν)} (h : k ∉ l.map Prod.fst) (v : ν) :
    assign k v l = l ++ [(k, v)] := by
  induction l with
  | nil => rfl
  | cons p ps ih =>
    rw [List.map_cons, List.mem_cons, not_or] at h
    obtain ⟨hne, hrest⟩ := h
    rw [assign, if_neg (Ne.symm hne), ih hrest, List.cons_append]

/-- A new key goes to the end. -/
theorem items_set_of_absent {d : Dict κ ν} {k : κ} (h : d.contains k = false) (v : ν) :
    (d.set k v).items = d.items ++ [(k, v)] := by
  refine assign_of_notMem (fun hmem => ?_) v
  rw [(contains_iff_mem_keys d k).mpr hmem] at h
  cases h

/-! ### Properties of the values -/

section Values

variable {d : Dict κ ν} {k : κ} {v : ν}

/-- A property of single pairs that the written pair has is kept by an assignment. -/
theorem forall_set {P : κ → ν → Prop} (hv : P k v) (h : ∀ j w, d.get? j = some w → P j w) (j : κ)
    (w : ν) (hget : (d.set k v).get? j = some w) : P j w := by
  rw [get?_set] at hget
  split_ifs at hget with hj
  · subst hj
    cases hget
    exact hv
  · exact h j w hget

theorem forall_erase {P : κ → ν → Prop} (h : ∀ j w, d.get? j = some w → P j w) (j : κ) (w : ν)
    (hget : (d.erase k).get? j = some w) : P j w := by
  rw [get?_erase] at hget
  split_ifs at hget
  exact h j w hget

variable {α : Type w} {f : ν → α} {p : α → Prop}

/-- No two keys have the same `f`, of those that satisfy `p`. -/
def Distinct (d : Dict κ ν) (f : ν → α) (p : α → Prop) : Prop :=
  ∀ j k v w, d.get? j = some v → d.get? k = some w → p (f v) → f v = f w → j = k

theorem distinct_empty : (empty : Dict κ ν).Distinct f p := by
  intro j k v w hv
  cases hv

theorem Distinct.set (h : d.Distinct f p)
    (hv : p (f v) → ∀ j w, d.get? j = some w → f w = f v → j = k) : (d.set k v).Distinct f p := by
  intro i j a b ha hb hp heq
  rw [get?_set] at ha hb
  split_ifs at ha hb with hi hj hj
  · rw [← hi, hj]
  · cases ha
    rw [← hi]
    exact (hv hp j b hb heq.symm).symm
  · cases hb
    rw [← hj]
    exact hv (heq ▸ hp) i a ha heq
  · exact h i j a b ha hb hp heq

theorem Distinct.erase (h : d.Distinct f p) : (d.erase k).Distinct f p := by
  intro i j a b ha hb hp heq
  rw [get?_erase] at ha hb
  split_ifs at ha hb
  exact h i j a b ha hb hp heq

end Values

section MapValues

variable {ν' : Type w} (f : ν → ν')

/-- `{k: f(v) for k, v in d.items()}`. -/
def mapValues (d : Dict κ ν) : Dict κ ν' where
  items := d.items.map fun p => (p.1, f p.2)
  nodup := by
    rw [List.map_map]
    exact d.nodup

theorem lookup_map (k : κ) (l : List (κ × ν)) :
    lookup k (l.map fun p => (p.1, f p.2)) = (lookup k l).map f := by
  induction l with
  | nil => rfl
  | cons p ps ih =>
    by_cases hp : p.1 = k
    · simp [lookup, hp]
    · simp [lookup, hp, ih]

@[simp] theorem get?_mapValues (d : Dict κ ν) (k : κ) : (d.mapValues f).get? k = (d.get? k).map f :=
  lookup_map f k d.items

omit [DecidableEq κ] in
theorem size_mapValues (d : Dict κ ν) : (d.mapValues f).size = d.size :=
  List.length_map _

end MapValues

section OfList

/-- `{key(v): v for v in values}`. -/
def ofList (key : ν → κ) (values : List ν) : Dict κ ν :=
  values.foldl (fun d v => d.set (key v) v) empty

theorem items_foldl_set {key : ν → κ} {values : List ν} {d : Dict κ ν}
    (h : (d.items.map Prod.fst ++ values.map key).Nodup) :
    (values.foldl (fun d v => d.set (key v) v) d).items =
      d.items ++ values.map fun v => (key v, v) := by
  induction values generalizing d with
  | nil => simp
  | cons v vs ih =>
    have habsent : d.contains (key v) = false := by
      rw [Bool.eq_false_iff]
      intro hin
      have hmem := (contains_iff_mem_keys d (key v)).mp hin
      exact (List.disjoint_of_nodup_append h) hmem (List.mem_map_of_mem List.mem_cons_self)
    have hitems := items_set_of_absent habsent v
    have hnext : ((d.set (key v) v).items.map Prod.fst ++ vs.map key).Nodup := by
      rw [hitems, List.map_append, List.append_assoc]
      exact h
    rw [List.foldl_cons, ih hnext, hitems, List.append_assoc]
    rfl

theorem items_ofList {key : ν → κ} {values : List ν} (h : (values.map key).Nodup) :
    (ofList key values).items = values.map fun v => (key v, v) :=
  items_foldl_set h

end OfList

section Total

variable {M : Type w} [AddCommMonoid M] (f : ν → M)

/-- The sum of a weight over the values. -/
def total (d : Dict κ ν) : M := (d.items.map fun p => f p.2).sum

/-- The weight of the value under a key, nothing when the key is absent. -/
def weight (d : Dict κ ν) (k : κ) : M := (d.get? k).elim 0 f

omit [DecidableEq κ] in
@[simp] theorem total_empty : (empty : Dict κ ν).total f = 0 := rfl

theorem sum_assign (k : κ) (v : ν) (l : List (κ × ν)) :
    ((assign k v l).map fun p => f p.2).sum + (lookup k l).elim 0 f =
      (l.map fun p => f p.2).sum + f v := by
  induction l with
  | nil => simp [assign, lookup]
  | cons p ps ih =>
    by_cases hp : p.1 = k
    · simp only [assign, lookup, hp, if_true, List.map_cons, List.sum_cons, Option.elim]
      rw [add_comm (f v), add_comm (f p.2), add_right_comm]
    · simp only [assign, lookup, hp, if_false, List.map_cons, List.sum_cons, add_assoc, ih]

/-- An assignment trades the old weight under the key for the new one. -/
theorem total_set (d : Dict κ ν) (k : κ) (v : ν) :
    (d.set k v).total f + d.weight f k = d.total f + f v :=
  sum_assign f k v d.items

omit [DecidableEq κ] in
theorem total_mapValues {ν' : Type*} (g : ν' → ν) (d : Dict κ ν') :
    (d.mapValues g).total f = d.total (f ∘ g) := by
  simp [total, mapValues, Function.comp_def]

/-- A removal takes the weight under the key away. -/
theorem total_erase (d : Dict κ ν) (k : κ) : (d.erase k).total f + d.weight f k = d.total f := by
  obtain ⟨items, nodup⟩ := d
  simp only [total, weight, erase, filter, get?]
  induction items with
  | nil => simp [lookup]
  | cons p ps ih =>
    obtain ⟨hnot, htail⟩ := List.nodup_cons.mp nodup
    by_cases hp : p.1 = k
    · have hrest : ps.filter (fun q => decide (q.1 ≠ k)) = ps := by
        refine List.filter_eq_self.mpr fun q hq => decide_eq_true ?_
        rintro rfl
        exact hnot (hp ▸ List.mem_map_of_mem hq)
      simp only [List.filter_cons, lookup, hp, ne_eq, not_true_eq_false, decide_false,
        Bool.false_eq_true, if_false, if_true, List.map_cons, List.sum_cons, Option.elim]
      rw [hrest, add_comm]
    · have ih' := ih htail
      simp only [List.filter_cons, lookup, hp, ne_eq, not_false_eq_true, decide_true, if_true,
        if_false, List.map_cons, List.sum_cons] at ih' ⊢
      rw [add_assoc, ih']

/-- An assignment in a selection of the keys that has the key. -/
theorem sum_filter_assign {q : κ → Bool} {k : κ} (hk : q k = true) (v : ν) {l : List (κ × ν)}
    (hl : (l.map Prod.fst).Nodup) :
    (((assign k v l).filter fun p => q p.1).map fun p => f p.2).sum =
      ((l.filter fun p => p.1 ≠ k ∧ q p.1).map fun p => f p.2).sum + f v := by
  induction l with
  | nil => simp [assign, hk]
  | cons p ps ih =>
    obtain ⟨hnot, htail⟩ := List.nodup_cons.mp hl
    by_cases hp : p.1 = k
    · have hrest : ps.filter (fun p => q p.1) = ps.filter fun p => p.1 ≠ k ∧ q p.1 := by
        refine List.filter_congr fun r hr => ?_
        have hne : r.1 ≠ k := fun heq => hnot (List.mem_map.mpr ⟨r, hr, heq.trans hp.symm⟩)
        simp [hne]
      simp only [assign, hp, if_true, List.filter_cons, hk, List.map_cons, List.sum_cons, hrest,
        ne_eq, not_true, false_and, decide_false, Bool.false_eq_true, if_false]
      exact add_comm _ _
    · have ih' := ih htail
      cases hq : q p.1 with
      | true => simp [assign, hp, hq, ih', add_assoc]
      | false => simp [assign, hp, hq, ih']

/-- Assignments to distinct keys trade the weights under these keys for the new ones. -/
theorem total_foldl_set {pairs : List (κ × ν)} (h : (pairs.map Prod.fst).Nodup) (d : Dict κ ν) :
    (pairs.foldl (fun d p => d.set p.1 p.2) d).total f =
      (d.filter fun p => p.1 ∉ pairs.map Prod.fst).total f + (pairs.map fun p => f p.2).sum := by
  induction pairs generalizing d with
  | nil => simp [total, filter]
  | cons p ps ih =>
    obtain ⟨hnot, htail⟩ := List.nodup_cons.mp h
    have hkey : decide (p.1 ∉ ps.map Prod.fst) = true := decide_eq_true hnot
    have hset := sum_filter_assign (q := fun k => decide (k ∉ ps.map Prod.fst)) f hkey p.2 d.nodup
    have hrest : (d.items.filter fun r => decide (r.1 ≠ p.1 ∧ decide (r.1 ∉ ps.map Prod.fst) = true)) =
        d.items.filter fun r => decide (r.1 ∉ (p :: ps).map Prod.fst) :=
      List.filter_congr fun r _ => by
        rw [decide_eq_decide, decide_eq_true_iff, List.map_cons, List.mem_cons, not_or]
    rw [hrest] at hset
    calc (List.foldl (fun d p => d.set p.1 p.2) d (p :: ps)).total f
      _ = ((d.set p.1 p.2).filter fun r => r.1 ∉ ps.map Prod.fst).total f +
          (ps.map fun p => f p.2).sum := ih htail _
      _ = (d.filter fun r => r.1 ∉ (p :: ps).map Prod.fst).total f + f p.2 +
          (ps.map fun p => f p.2).sum := congrArg (· + (ps.map fun p => f p.2).sum) hset
      _ = (d.filter fun r => r.1 ∉ (p :: ps).map Prod.fst).total f +
          ((p :: ps).map fun p => f p.2).sum := add_assoc _ _ _

end Total

/-! ### Sets of keys -/

section Keys

variable {p q : κ → ν → Bool}

/-- The keys whose pair satisfies `p`. -/
def keysWhere (d : Dict κ ν) (p : κ → ν → Bool) : Finset κ :=
  ((d.items.filter fun e => p e.1 e.2).map Prod.fst).toFinset

theorem mem_keysWhere (d : Dict κ ν) {k : κ} :
    k ∈ d.keysWhere p ↔ ∃ v, d.get? k = some v ∧ p k v = true := by
  simp only [keysWhere, List.mem_toFinset, List.mem_map, List.mem_filter, get?_eq_some_iff]
  constructor
  · rintro ⟨⟨j, v⟩, ⟨hmem, hp⟩, rfl⟩
    exact ⟨v, hmem, hp⟩
  · rintro ⟨v, hmem, hp⟩
    exact ⟨(k, v), ⟨hmem, hp⟩, rfl⟩

/-- An assignment decides about its own key. -/
theorem keysWhere_set (d : Dict κ ν) (k : κ) (v : ν) :
    (d.set k v).keysWhere p =
      if p k v then insert k (d.keysWhere p) else (d.keysWhere p).erase k := by
  ext j
  by_cases hj : k = j
  · subst hj
    by_cases hp : p k v = true <;> simp [mem_keysWhere, hp]
  · have hne : j ≠ k := fun h => hj h.symm
    by_cases hp : p k v = true <;> simp [mem_keysWhere, hp, hj, hne]

theorem keysWhere_erase (d : Dict κ ν) (k : κ) :
    (d.erase k).keysWhere p = (d.keysWhere p).erase k := by
  ext j
  by_cases hj : j = k <;> simp [mem_keysWhere, hj]

/-- No key is counted twice. -/
theorem card_keysWhere (d : Dict κ ν) :
    (d.keysWhere p).card = d.items.countP fun e => p e.1 e.2 := by
  have hnodup : ((d.items.filter fun e => p e.1 e.2).map Prod.fst).Nodup :=
    (List.filter_sublist.map Prod.fst).nodup d.nodup
  rw [keysWhere, List.toFinset_card_of_nodup hnodup, List.length_map, List.countP_eq_length_filter]

theorem card_keysWhere_le (d : Dict κ ν) (hpq : ∀ k v, p k v = true → q k v = true) :
    (d.keysWhere p).card ≤ d.items.countP fun e => q e.1 e.2 := by
  rw [card_keysWhere]
  exact List.countP_mono_left fun e _ => hpq e.1 e.2

theorem size_eq_card (d : Dict κ ν) : d.size = (d.keysWhere fun _ _ => true).card := by
  rw [card_keysWhere, List.countP_eq_length.mpr fun _ _ => rfl, size]

theorem size_set_le (d : Dict κ ν) (k : κ) (v : ν) : (d.set k v).size ≤ d.size + 1 := by
  rw [size_eq_card, size_eq_card]
  have hsub : (d.set k v).keysWhere (fun _ _ => true) ⊆
      insert k (d.keysWhere fun _ _ => true) := by
    intro j hj
    obtain ⟨v', hget, -⟩ := (mem_keysWhere _).mp hj
    by_cases hkj : k = j
    · rw [hkj]
      exact Finset.mem_insert_self ..
    · rw [get?_set_of_ne _ _ hkj] at hget
      exact Finset.mem_insert_of_mem ((mem_keysWhere _).mpr ⟨v', hget, rfl⟩)
  exact (Finset.card_le_card hsub).trans (Finset.card_insert_le ..)

theorem size_erase_le (d : Dict κ ν) (k : κ) : (d.erase k).size ≤ d.size :=
  List.length_filter_le ..

theorem filter_assign (k : κ) (v : ν) (l : List (κ × ν)) :
    (assign k v l).filter (fun p => p.1 ≠ k) = l.filter fun p => p.1 ≠ k := by
  induction l with
  | nil => simp [assign]
  | cons p ps ih =>
    by_cases hp : p.1 = k
    · simp [assign, hp]
    · simp only [assign, hp, if_false, List.filter_cons, ih]

theorem length_assign_of_mem {k : κ} {l : List (κ × ν)} (h : k ∈ l.map Prod.fst) (v : ν) :
    (assign k v l).length = l.length := by
  induction l with
  | nil => cases h
  | cons p ps ih =>
    by_cases hp : p.1 = k
    · simp [assign, hp]
    · have hrest : k ∈ ps.map Prod.fst := (List.mem_cons.mp h).resolve_left (Ne.symm hp)
      simp [assign, hp, ih hrest]

theorem size_set_of_contains {d : Dict κ ν} {k : κ} (h : d.contains k = true) (v : ν) :
    (d.set k v).size = d.size :=
  length_assign_of_mem ((contains_iff_mem_keys d k).mp h) v

theorem size_set_of_absent {d : Dict κ ν} {k : κ} (h : d.contains k = false) (v : ν) :
    (d.set k v).size = d.size + 1 := by
  rw [size, items_set_of_absent h, List.length_append]
  rfl

theorem size_le_set (d : Dict κ ν) (k : κ) (v : ν) : d.size ≤ (d.set k v).size := by
  cases h : d.contains k with
  | true => rw [size_set_of_contains h]
  | false =>
    rw [size_set_of_absent h]
    exact Nat.le_succ _

/-- An assignment leaves the other keys alone. -/
theorem erase_set (d : Dict κ ν) (k : κ) (v : ν) : (d.set k v).erase k = d.erase k := by
  simp only [erase, filter, set, filter_assign]

/-- Without one key a dictionary is smaller by at most one. -/
theorem size_le_erase (d : Dict κ ν) (k : κ) : d.size ≤ (d.erase k).size + 1 := by
  have hone : d.items.countP (fun p => decide (p.1 = k)) ≤ 1 := by
    have hcount := List.nodup_iff_count_le_one.mp d.nodup k
    rw [List.count, List.countP_map] at hcount
    refine le_trans (List.countP_mono_left fun p _ hp => ?_) hcount
    simpa using hp
  have hsplit := List.length_eq_countP_add_countP (fun p : κ × ν => decide (p.1 ≠ k)) (l := d.items)
  have hrest : d.items.countP (fun p => decide ¬(decide (p.1 ≠ k)) = true) =
      d.items.countP (fun p => decide (p.1 = k)) := by
    refine List.countP_congr fun p _ => ?_
    simp
  simp only [size, erase, filter, ← List.countP_eq_length_filter]
  omega

end Keys

end Dict

end FetchTask
