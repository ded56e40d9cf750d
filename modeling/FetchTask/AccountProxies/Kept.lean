import FetchTask.AccountProxies
import FetchTask.Lib.Runs

/-!
The invariant of the store of account proxies.

No id occurs twice, there are at most three hundred proxies, and the selected
ids are distinct ids of enabled proxies. Each operation is a change of the store
between a read and a write; the changes keep the invariant, and whatever is
raised before the write leaves the file. An import is described by what it
appends.
-/

namespace FetchTask.AccountProxies

open Runs

/-! ### The law -/

def Store.ids (store : Store) : List String := store.proxies.map (·.id)

structure Store.Sound (store : Store) : Prop where
  unique : store.ids.Nodup
  bounded : store.proxies.length ≤ maxAccountProxies
  distinct : store.selectedIds.Nodup
  enabled : ∀ id ∈ store.selectedIds, ∃ entry ∈ store.proxies, entry.id = id ∧ entry.enabled = true

/-- Without a file the store is what the old settings make of it. -/
def StoreFile.Sound : StoreFile → Prop
  | .missing => True
  | .damaged => False
  | .stored store => store.Sound

/-- What an import of the entries `parsed` makes of a store. -/
structure Added (earlier later : Store) (parsed : List AccountProxy) (addedIds : List String) :
    Prop where
  kept : ∃ new, later.proxies = earlier.proxies ++ new ∧ new.map (·.id) = addedIds ∧
    ∀ entry ∈ new, entry ∈ parsed
  once : addedIds.Nodup
  isNew : ∀ id, id ∈ addedIds ↔ id ∈ parsed.map (·.id) ∧ id ∉ earlier.ids
  selected : later.selectedIds = earlier.selectedIds ++ addedIds

section Law

variable (L : Library)

/-- An import that raises before the write leaves the file; any other adds what its lines say. -/
def ImportKeeps (text : String) (around : Surroundings) (file : StoreFile) : Prop :=
  let outcome := importAccountProxies L text around file
  ((∃ e, outcome.1 = .error e) ∧ outcome.2 = file) ∨
    ∃ parsed earlier later addedIds,
      (importLines L text).Forall₂
        (fun line entry => parseAccountProxyLine L line around.now = .ok entry) parsed ∧
      readStore L around file = .ok earlier ∧ outcome.2 = .stored later ∧
      Added earlier later parsed addedIds ∧
      ∀ result, outcome.1 = .ok result → result.addedIds = addedIds ∧
        result.added = addedIds.length ∧
        result.added + result.duplicates = (importLines L text).length

inductive Call
  | importProxies (text : String)
  | select (proxyIds : List String) (rotationEnabled : Bool)
  | setEnabled (proxyIds : List String) (enabled : Bool)
  | delete (proxyIds : List String)
  | updateLatencies (results : String → Option (Bool × Option Int))

/-- Whether a call raises, and the file after it. -/
def Call.apply (around : Surroundings) (file : StoreFile) :
    Call → Except StoreError Unit × StoreFile
  | .importProxies text =>
    let (answer, file) := importAccountProxies L text around file
    (answer.map fun _ => (), file)
  | .select proxyIds rotationEnabled =>
    let (answer, file) := selectAccountProxies L proxyIds rotationEnabled around file
    (answer.map fun _ => (), file)
  | .setEnabled proxyIds enabled =>
    let (answer, file) := setAccountProxiesEnabled L proxyIds enabled around file
    (answer.map fun _ => (), file)
  | .delete proxyIds =>
    let (answer, file) := deleteAccountProxies L proxyIds around file
    (answer.map fun _ => (), file)
  | .updateLatencies results =>
    let (answer, file) := updateAccountProxyLatencies L results around file
    (answer.map fun _ => (), file)

def step (call : Call × Surroundings) (file : StoreFile) : StoreFile :=
  (call.1.apply L call.2 file).2

/-- What the law says of one call: a `ValueError` leaves the file, and an import keeps what is there. -/
def Orderly (call : Call × Surroundings) (file : StoreFile) : Prop :=
  (∀ message, (call.1.apply L call.2 file).1 = .error (.valueError message) →
    step L call file = file) ∧
  ∀ text, call.1 = .importProxies text → ImportKeeps L text call.2 file

end Law

/-! ### Lists of ids -/

theorem nodup_fromKeys (items : List String) : (fromKeys items).Nodup := by
  induction h : items.length using Nat.strong_induction_on generalizing items with
  | _ n ih =>
    cases items with
    | nil => exact List.nodup_nil
    | cons item items =>
      rw [fromKeys, List.eraseDups_cons, List.nodup_cons]
      have hshort : (items.filter fun b => !b == item).length < n := by
        have hle := List.length_filter_le (fun b => !b == item) items
        rw [List.length_cons] at h
        omega
      refine ⟨fun hmem => ?_, ih _ hshort _ rfl⟩
      have hfiltered := (List.mem_filter.mp (List.mem_eraseDups.mp hmem)).2
      simp at hfiltered

@[simp] theorem mem_fromKeys {id : String} {items : List String} :
    id ∈ fromKeys items ↔ id ∈ items := List.mem_eraseDups

theorem fromKeys_of_nodup {items : List String} (h : items.Nodup) : fromKeys items = items := by
  induction items with
  | nil => rfl
  | cons item items ih =>
    obtain ⟨hnot, hrest⟩ := List.nodup_cons.mp h
    have hkept : (items.filter fun b => !b == item) = items := by
      rw [List.filter_eq_self]
      intro b hb
      have hne : b ≠ item := fun heq => hnot (heq ▸ hb)
      simp [hne]
    rw [fromKeys, List.eraseDups_cons, hkept]
    exact congrArg (item :: ·) (ih hrest)

theorem nodup_requestedIds (L : Library) (proxyIds : List String) :
    (requestedIds L proxyIds).Nodup := nodup_fromKeys _

/-! ### Reading lines -/

section Reading

variable {L : Library}

theorem parseLines_ok {now : String} {index : Nat} {lines : List String}
    {parsed : List AccountProxy} (h : parseLines L now index lines = (parsed, [])) :
    lines.Forall₂ (fun line entry => parseAccountProxyLine L line now = .ok entry) parsed := by
  induction lines generalizing index parsed with
  | nil =>
    obtain ⟨rfl, -⟩ := Prod.mk.inj h
    exact .nil
  | cons line lines ih =>
    cases hrest : parseLines L now (index + 1) lines with
    | mk rest errors =>
      simp only [parseLines, hrest] at h
      split at h
      · rename_i entry hentry
        obtain ⟨rfl, rfl⟩ := Prod.mk.inj h
        exact .cons hentry (ih hrest)
      · cases h
      · cases h

theorem parseImport_ok {text now : String} {parsed : List AccountProxy}
    (h : parseImport L text now = .ok parsed) :
    (importLines L text).Forall₂ (fun line entry => parseAccountProxyLine L line now = .ok entry)
      parsed := by
  simp only [parseImport] at h
  split_ifs at h
  split at h
  · rename_i entries hentries
    cases h
    exact parseLines_ok hentries
  · cases h

/-- A proxy that has just been read is enabled. -/
theorem parsed_enabled {line now : String} {entry : AccountProxy}
    (h : parseAccountProxyLine L line now = .ok entry) : entry.enabled = true := by
  simp only [parseAccountProxyLine] at h
  split_ifs at h
  all_goals
    obtain ⟨parts, -, hparts⟩ := bind_ok h
    split_ifs at hparts
    cases hparts
    rfl

theorem legacy_enabled {settings : Settings} {now : String} {entry : AccountProxy}
    (h : legacyEntry L settings now = .ok (some entry)) : entry.enabled = true := by
  rw [legacyEntry] at h
  split at h
  · cases h
  obtain ⟨scheme, -, hscheme⟩ := bind_ok h
  obtain ⟨host, -, hhost⟩ := bind_ok hscheme
  cases hhost
  rfl

end Reading

/-! ### Changes of the store -/

section Changes

variable {store later : Store}

/-- The loop of an import appends the entries whose ids are new. -/
theorem addParsed_ok {parsed : List AccountProxy} {existing existing' : Dict String AccountProxy}
    {addedIds addedIds' : List String}
    (h : addParsed parsed existing addedIds = .ok (existing', addedIds')) :
    ∃ new : List AccountProxy, existing'.items = existing.items ++ new.map (fun entry => (entry.id, entry)) ∧
      addedIds' = addedIds ++ new.map (·.id) ∧ (∀ entry ∈ new, entry ∈ parsed) ∧
      (∀ entry ∈ parsed, existing'.contains entry.id = true) ∧
      (existing.size ≤ maxAccountProxies → existing'.size ≤ maxAccountProxies) := by
  induction parsed generalizing existing addedIds with
  | nil =>
    obtain ⟨rfl, rfl⟩ := Prod.mk.inj (Except.ok.inj h)
    exact ⟨[], by simp, by simp, by simp, by simp, fun hsize => hsize⟩
  | cons entry parsed ih =>
    rw [addParsed] at h
    split_ifs at h with hin hfull
    · obtain ⟨new, hitems, hadded, hnew, hall, hsize⟩ := ih h
      refine ⟨new, hitems, hadded, fun e he => List.mem_cons_of_mem _ (hnew e he), ?_, hsize⟩
      intro e he
      rcases List.mem_cons.mp he with rfl | he
      · rw [Dict.contains_iff_mem_keys] at hin ⊢
        rw [hitems, List.map_append]
        exact List.mem_append_left _ hin
      · exact hall e he
    · have habsent : existing.contains entry.id = false := by simpa using hin
      have hset := Dict.items_set_of_absent habsent entry
      obtain ⟨new, hitems, hadded, hnew, hall, hsize⟩ := ih h
      refine ⟨entry :: new, ?_, ?_, ?_, ?_, fun _ => hsize ?_⟩
      · rw [hitems, hset, List.append_assoc]
        rfl
      · rw [hadded, List.append_assoc]
        rfl
      · intro e he
        rcases List.mem_cons.mp he with rfl | he
        · exact List.mem_cons_self
        · exact List.mem_cons_of_mem _ (hnew e he)
      · intro e he
        rcases List.mem_cons.mp he with rfl | he
        · rw [Dict.contains_iff_mem_keys, hitems, hset]
          simp
        · exact hall e he
      · rw [Dict.size, hset, List.length_append]
        rw [Dict.size] at hfull
        simp only [List.length_cons, List.length_nil]
        omega

theorem imported_ok (hs : store.Sound) {parsed : List AccountProxy}
    (henabled : ∀ entry ∈ parsed, entry.enabled = true) {addedIds : List String}
    (h : imported parsed store = .ok (later, addedIds)) :
    Added store later parsed addedIds ∧ later.Sound := by
  obtain ⟨⟨existing, added⟩, hloop, hpure⟩ := bind_ok h
  obtain ⟨rfl, rfl⟩ := Prod.mk.inj (Except.ok.inj hpure)
  obtain ⟨new, hitems, hadded, hnew, hall, hsize⟩ := addParsed_ok hloop
  have hold : (Dict.ofList AccountProxy.id store.proxies).items =
      store.proxies.map fun entry => (entry.id, entry) := Dict.items_ofList hs.unique
  have hproxies : existing.items.map Prod.snd = store.proxies ++ new := by
    rw [hitems, hold]
    simp [Function.comp_def]
  have hkeys : existing.items.map Prod.fst = store.ids ++ new.map (·.id) := by
    rw [hitems, hold]
    simp [Function.comp_def, Store.ids]
  have hunique : (store.ids ++ new.map (·.id)).Nodup := hkeys ▸ existing.nodup
  have haddedIds : added = new.map (·.id) := by simpa using hadded
  have hdisjoint := List.disjoint_of_nodup_append hunique
  have hselected : fromKeys (store.selectedIds ++ added) = store.selectedIds ++ added := by
    refine fromKeys_of_nodup (List.nodup_append.mpr ⟨hs.distinct, ?_, ?_⟩)
    · exact haddedIds ▸ (List.nodup_append.mp hunique).2.1
    · intro id hid id' hid' heq
      obtain ⟨entry, hentry, rfl, -⟩ := hs.enabled id hid
      exact hdisjoint (List.mem_map_of_mem hentry) (haddedIds ▸ heq ▸ hid')
  constructor
  · constructor
    · exact ⟨new, hproxies, haddedIds.symm, hnew⟩
    · exact haddedIds ▸ (List.nodup_append.mp hunique).2.1
    · intro id
      constructor
      · intro hid
        obtain ⟨entry, hentry, rfl⟩ := List.mem_map.mp (haddedIds ▸ hid)
        exact ⟨List.mem_map_of_mem (hnew entry hentry),
          fun hearlier => hdisjoint hearlier (List.mem_map_of_mem hentry)⟩
      · rintro ⟨hid, hearlier⟩
        obtain ⟨entry, hentry, rfl⟩ := List.mem_map.mp hid
        have hin := hall entry hentry
        rw [Dict.contains_iff_mem_keys, hkeys] at hin
        exact haddedIds ▸ (List.mem_append.mp hin).resolve_left hearlier
    · exact hselected
  · constructor
    · simp only [Store.ids, hproxies, List.map_append]
      exact hunique
    · have hstart : (Dict.ofList AccountProxy.id store.proxies).size ≤ maxAccountProxies := by
        rw [Dict.size, hold, List.length_map]
        exact hs.bounded
      simp only [List.length_map]
      exact hsize hstart
    · exact nodup_fromKeys _
    · intro id hid
      simp only [hselected, hproxies] at hid ⊢
      rcases List.mem_append.mp hid with hold | hadded
      · obtain ⟨entry, hentry, hentryId⟩ := hs.enabled id hold
        exact ⟨entry, List.mem_append_left _ hentry, hentryId⟩
      · obtain ⟨entry, hentry, hentryId⟩ := List.mem_map.mp (haddedIds ▸ hadded)
        exact ⟨entry, List.mem_append_right _ hentry, hentryId, henabled entry (hnew entry hentry)⟩

theorem selected_ok (hs : store.Sound) {requested : List String} (hrequested : requested.Nodup)
    {rotationEnabled : Bool} (h : selected requested rotationEnabled store = .ok later) :
    later.Sound := by
  simp only [selected] at h
  split_ifs at h with hany
  cases h
  refine ⟨hs.unique, hs.bounded, hrequested, fun id hid => ?_⟩
  have havailable : id ∈ (store.proxies.filter (·.enabled)).map (·.id) := by
    by_contra hnot
    exact hany (List.any_eq_true.mpr ⟨id, hid, by simpa using hnot⟩)
  obtain ⟨entry, hentry, hentryId⟩ := List.mem_map.mp havailable
  obtain ⟨hmem, henabled⟩ := List.mem_filter.mp hentry
  exact ⟨entry, hmem, hentryId, henabled⟩

/-- Changing proxies in place, without their ids, and selecting fewer of them. -/
theorem sound_of_map (hs : store.Sound) {f : AccountProxy → AccountProxy}
    (hproxies : later.proxies = store.proxies.map f) (hid : ∀ entry, (f entry).id = entry.id)
    (hselected : later.selectedIds.Sublist store.selectedIds)
    (henabled : ∀ entry, entry.id ∈ later.selectedIds → entry.enabled = true →
      (f entry).enabled = true) : later.Sound := by
  have hids : later.ids = store.ids := by
    rw [Store.ids, hproxies, List.map_map]
    exact List.map_congr_left fun entry _ => hid entry
  refine ⟨hids ▸ hs.unique, ?_, hselected.nodup hs.distinct, fun id hin => ?_⟩
  · rw [hproxies, List.length_map]
    exact hs.bounded
  · obtain ⟨entry, hentry, rfl, hentryEnabled⟩ := hs.enabled id (hselected.subset hin)
    refine ⟨f entry, ?_, hid entry, henabled entry hin hentryEnabled⟩
    rw [hproxies]
    exact List.mem_map_of_mem hentry

theorem enabledSet_ok (hs : store.Sound) {requested : List String} {enabled : Bool}
    (h : enabledSet requested enabled store = .ok later) : later.Sound := by
  simp only [enabledSet] at h
  split at h
  · cases h
  cases h
  refine sound_of_map hs rfl (fun entry => ?_) ?_ fun entry hin hentry => ?_
  · split <;> rfl
  · cases enabled with
    | true => exact .refl _
    | false => exact List.filter_sublist
  · split
    · rename_i hrequested
      cases enabled with
      | true => rfl
      | false =>
        -- A proxy that is disabled is taken out of the selection.
        have hout := (List.mem_filter.mp hin).2
        simp [hrequested] at hout
    · exact hentry

theorem latenciesUpdated_sound (hs : store.Sound)
    (results : String → Option (Bool × Option Int)) (checkedAt : String) :
    (latenciesUpdated results checkedAt store).Sound := by
  refine sound_of_map hs rfl (fun entry => ?_) (.refl _) fun entry _ hentry => ?_
  · split <;> rfl
  · split
    · exact hentry
    · exact hentry

theorem deleted_ok (hs : store.Sound) {requested : List String}
    (h : deleted requested store = .ok later) : later.Sound := by
  simp only [deleted] at h
  split_ifs at h with hcount
  cases h
  refine ⟨?_, ?_, hs.distinct.filter _, fun id hid => ?_⟩
  · exact (List.filter_sublist.map AccountProxy.id).nodup hs.unique
  · exact (List.length_filter_le ..).trans hs.bounded
  · obtain ⟨hid, hkept⟩ := List.mem_filter.mp hid
    obtain ⟨entry, hentry, rfl, henabled⟩ := hs.enabled id hid
    exact ⟨entry, List.mem_filter.mpr ⟨hentry, hkept⟩, rfl, henabled⟩

end Changes

/-! ### Operations -/

section Operations

variable {L : Library} {around : Surroundings} {file : StoreFile}

theorem readStore_sound (hfile : file.Sound) {store : Store}
    (h : readStore L around file = .ok store) : store.Sound := by
  cases file with
  | damaged => exact hfile.elim
  | stored stored =>
    rw [readStore] at h
    split at h
    · cases h
    · cases h
      exact hfile
  | missing =>
    obtain ⟨legacy, hlegacy, hstore⟩ := bind_ok h
    cases legacy with
    | none =>
      cases hstore
      exact ⟨List.nodup_nil, Nat.zero_le _, List.nodup_nil, fun id hid => by cases hid⟩
    | some entry =>
      cases hstore
      have henabled : entry.enabled = true := legacy_enabled hlegacy
      refine ⟨List.nodup_singleton _, (show 1 ≤ maxAccountProxies by decide), List.nodup_singleton _, fun id hid => ?_⟩
      obtain rfl := List.mem_singleton.mp hid
      exact ⟨entry, List.mem_singleton.mpr rfl, rfl, henabled⟩

/-- A store is either written, or something other than a `ValueError` keeps it from that. -/
theorem writeAndList_cases (L : Library) (around : Surroundings) (store : Store) (file : StoreFile) :
    (writeAndList L around store file).2 = file ∧
        (writeAndList L around store file).1 = .error .osError ∨
      (writeAndList L around store file).2 = .stored { store with updatedAt := around.now } ∧
        ∀ message, (writeAndList L around store file).1 ≠ .error (.valueError message) := by
  rw [writeAndList, writeStore]
  cases around.writeFails with
  | true => exact .inl ⟨rfl, rfl⟩
  | false =>
    refine .inr ⟨rfl, fun message heq => ?_⟩
    simp only [Bool.false_eq_true, if_false, listAccountProxies, readStore] at heq
    split at heq <;> cases heq

/-- An operation that started from `file` keeps the invariant, and a `ValueError` leaves the file. -/
structure Safe {α : Type} (file : StoreFile) (outcome : Except StoreError α × StoreFile) : Prop where
  sound : outcome.2.Sound
  atomic : ∀ message, outcome.1 = .error (.valueError message) → outcome.2 = file

theorem safe_left {α : Type} (hfile : file.Sound) (answer : Except StoreError α) :
    Safe file (answer, file) := ⟨hfile, fun _ _ => rfl⟩

theorem Safe.map {α β : Type} {outcome : Except StoreError α × StoreFile} (h : Safe file outcome)
    (f : α → β) : Safe file (outcome.1.map f, outcome.2) := by
  refine ⟨h.sound, fun message heq => ?_⟩
  obtain ⟨answer, after⟩ := outcome
  cases answer with
  | error e =>
    cases heq
    exact h.atomic message rfl
  | ok a => cases heq

theorem writeAndList_safe (hfile : file.Sound) {store : Store} (hs : store.Sound) :
    Safe file (writeAndList L around store file) := by
  rcases writeAndList_cases L around store file with
    ⟨hafter, -⟩ | ⟨hafter, hnot⟩
  · exact ⟨hafter.symm ▸ hfile, fun _ _ => hafter⟩
  · refine ⟨?_, fun message heq => absurd heq (hnot message)⟩
    rw [hafter]
    exact ⟨hs.unique, hs.bounded, hs.distinct, hs.enabled⟩

theorem changeStore_safe (hfile : file.Sound) {change : Store → Except StoreError Store}
    (hchange : ∀ store later, store.Sound → change store = .ok later → later.Sound) :
    Safe file (changeStore L around change file) := by
  rw [changeStore]
  split
  · exact safe_left hfile _
  · rename_i store hread
    split
    · exact safe_left hfile _
    · rename_i later hlater
      exact writeAndList_safe hfile (hchange store later (readStore_sound hfile hread) hlater)

theorem parseImport_enabled {text now : String} {parsed : List AccountProxy}
    (h : parseImport L text now = .ok parsed) : ∀ entry ∈ parsed, entry.enabled = true := by
  intro entry hentry
  obtain ⟨i, hi, rfl⟩ := List.getElem_of_mem hentry
  have hlines := parseImport_ok h
  exact parsed_enabled (List.Forall₂.get hlines (hlines.length_eq ▸ hi) hi)

theorem importAccountProxies_safe (hfile : file.Sound) (text : String) :
    Safe file (importAccountProxies L text around file) := by
  rw [importAccountProxies]
  split
  · exact safe_left hfile _
  rename_i parsed hparsed
  split
  · exact safe_left hfile _
  rename_i store hread
  split
  · exact safe_left hfile _
  rename_i later addedIds hlater
  obtain ⟨-, hsound⟩ :=
    imported_ok (readStore_sound hfile hread) (parseImport_enabled hparsed) hlater
  exact (writeAndList_safe hfile hsound).map _

theorem setAccountProxiesEnabled_safe (hfile : file.Sound) (proxyIds : List String)
    (enabled : Bool) : Safe file (setAccountProxiesEnabled L proxyIds enabled around file) := by
  simp only [setAccountProxiesEnabled]
  split
  · exact safe_left hfile _
  · exact changeStore_safe hfile fun store later hs h => enabledSet_ok hs h

theorem deleteAccountProxies_safe (hfile : file.Sound) (proxyIds : List String) :
    Safe file (deleteAccountProxies L proxyIds around file) := by
  simp only [deleteAccountProxies]
  split
  · exact safe_left hfile _
  · exact changeStore_safe hfile fun store later hs h => deleted_ok hs h

theorem Call.apply_safe (hfile : file.Sound) (call : Call) :
    Safe file (call.apply L around file) := by
  cases call with
  | importProxies text => exact (importAccountProxies_safe hfile text).map _
  | select proxyIds rotationEnabled =>
    exact (changeStore_safe hfile fun store later hs h =>
      selected_ok hs (nodup_requestedIds L proxyIds) h).map _
  | setEnabled proxyIds enabled => exact (setAccountProxiesEnabled_safe hfile proxyIds enabled).map _
  | delete proxyIds => exact (deleteAccountProxies_safe hfile proxyIds).map _
  | updateLatencies results =>
    exact (changeStore_safe hfile fun store later hs h =>
      Except.ok.inj h ▸ latenciesUpdated_sound hs results around.now).map _

theorem Added.length_le {earlier later : Store} {parsed : List AccountProxy}
    {addedIds : List String} (h : Added earlier later parsed addedIds) :
    addedIds.length ≤ parsed.length := by
  have hsub : addedIds ⊆ parsed.map (·.id) := fun id hid => ((h.isNew id).mp hid).1
  have hle := (List.subperm_of_subset h.once hsub).length_le
  rwa [List.length_map] at hle

theorem import_keeps (hfile : file.Sound) (text : String) : ImportKeeps L text around file := by
  simp only [ImportKeeps, importAccountProxies]
  cases hparsed : parseImport L text around.now with
  | error e => exact .inl ⟨⟨e, rfl⟩, rfl⟩
  | ok parsed =>
    simp only
    cases hread : readStore L around file with
    | error e => exact .inl ⟨⟨e, rfl⟩, rfl⟩
    | ok earlier =>
      simp only
      cases hlater : imported parsed earlier with
      | error e => exact .inl ⟨⟨e, rfl⟩, rfl⟩
      | ok outcome =>
        obtain ⟨later, addedIds⟩ := outcome
        obtain ⟨hadded, -⟩ :=
          imported_ok (readStore_sound hfile hread) (parseImport_enabled hparsed) hlater
        have hlines := parseImport_ok hparsed
        simp only
        rcases writeAndList_cases L around later file with
          ⟨hafter, hanswer⟩ | ⟨hafter, -⟩
        · exact .inl ⟨⟨.osError, congrArg (Except.map _) hanswer⟩, hafter⟩
        · refine .inr ⟨parsed, earlier, { later with updatedAt := around.now }, addedIds, hlines, rfl,
            hafter, ⟨hadded.kept, hadded.once, hadded.isNew, hadded.selected⟩, ?_⟩
          intro result hresult
          cases hlist : (writeAndList L around later file).1 with
          | error e =>
            rw [hlist] at hresult
            cases hresult
          | ok list =>
            rw [hlist] at hresult
            cases hresult
            refine ⟨rfl, rfl, ?_⟩
            have hle := hadded.length_le
            have hlength := hlines.length_eq
            simp only
            omega

end Operations

/-! ### Runs -/

/-- Over any sequence of calls the store stays sound, and every call is orderly. -/
theorem store_kept (L : Library) (calls : List (Call × Surroundings)) (file : StoreFile)
    (hfile : file.Sound) :
    Throughout (step L) StoreFile.Sound calls file ∧
      AllSteps (step L) (Orderly L) calls file := by
  have hstep : ∀ call file, StoreFile.Sound file → (step L call file).Sound :=
    fun call file hfile => (call.1.apply_safe hfile).sound
  have hrun : Throughout (step L) StoreFile.Sound calls file := throughout_of_step hstep hfile
  refine ⟨hrun, hrun.allSteps fun call file hfile => ⟨(call.1.apply_safe hfile).atomic, ?_⟩⟩
  exact fun text _ => import_keeps hfile text

/-- The library on ASCII texts without addresses and escapes, with the digests of two proxies. -/
def plainLibrary : Library where
  toChars := .ascii
  isAlnum := Char.isAlphanum
  toInt := String.toInt?
  urlsplit _ := none
  unquote text := text
  ipAddress _ := none
  sha256 text :=
    if text = "socks5\x00proxy.example\x001080\x00jp-user\x00secret" then
      "0c42094fe07318df4d1b9443e48d27569234195ed6b79dd1bcb3d06d4c2307ab"
    else "3e88b51b0ec425738a95360289cb505122376cc46a4f8a921de5197bc14a6e4d"

def firstProxy : AccountProxy :=
  newEntry plainLibrary "socks5" "proxy.example" 1080 "jp-user" "secret" "t0"

/-- One proxy, which is selected. -/
def oneProxy : Store where
  proxies := [firstProxy]
  selectedIds := [firstProxy.id]
  rotationEnabled := true
  updatedAt := "t0"

theorem oneProxy_sound : oneProxy.Sound := by
  refine ⟨List.nodup_singleton _, (show 1 ≤ maxAccountProxies by decide), List.nodup_singleton _,
    fun id hid => ?_⟩
  obtain rfl := List.mem_singleton.mp hid
  exact ⟨firstProxy, List.mem_singleton.mpr rfl, rfl, rfl⟩

def undisturbed : Surroundings where
  now := "t1"
  settings := ⟨"socks5", "", 0, "", ""⟩
  readFails := false
  writeFails := false
  rereadFails := false

/-- The same proxy is imported again with a second one twice, and then disabled. -/
def importThenDisable : List (Call × Surroundings) :=
  [(.importProxies "proxy.example:1080:jp-user:secret\nproxy.example:1081:us-user:secret\n\nproxy.example:1081:us-user:secret",
      undisturbed),
    (.setEnabled [firstProxy.id] false, undisturbed)]

theorem store_kept_importThenDisable :
    oneProxy.Sound ∧
      Throughout (step plainLibrary) StoreFile.Sound importThenDisable (.stored oneProxy) ∧
      AllSteps (step plainLibrary) (Orderly plainLibrary) importThenDisable (.stored oneProxy) :=
  ⟨oneProxy_sound, store_kept plainLibrary importThenDisable (.stored oneProxy) oneProxy_sound⟩

end FetchTask.AccountProxies
