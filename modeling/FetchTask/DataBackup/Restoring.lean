import FetchTask.DataBackup
import FetchTask.Runtime
import FetchTask.Lib.Replace

/-!
When a restore is all or nothing.

The three stores are replaced by three writes, and nothing undoes the first when
the second raises. So a restore that raises leaves the stores as they were only
if what was written before was there already. The database moreover drops the
records of the users and the tokens that are no objects or have no key. The law
says which restores do neither.
-/

namespace FetchTask.DataBackup

open Raising StorageMigrate Replace

/-! ### The law -/

/-- What a store holds: the document of a file, or the rows of a table by key. -/
abbrev View := Option Json ⊕ (String → Option Json)

def table : StoreName → Database → Dict String Json
  | .users => Database.users
  | .tempTokens => Database.tempTokens
  | .accounts => Database.accounts

/-- The width of the key column. -/
def width : StoreName → Option Nat
  | .users => none
  | _ => some 64

section Law

variable (S : Setting)

def view (w : World) (name : StoreName) : View :=
  if S.enabled then .inr fun key => (table name w.db).get? key
  else .inl (w.data.documents name.file)

/-- The records of a payload with their keys. -/
def recordRows (payloads : Payloads) : StoreName → List (String × Json)
  | .accounts => ((accountItems payloads).getD []).map fun item =>
      (Json.textOf S.str (item.get? "id"), item)
  | name => records payloads name

/-- Whether the database takes a record. -/
def isRow (row : String × Json) : Bool := row.2.members?.isSome && row.1 != ""

def storedRows (payloads : Payloads) (name : StoreName) : List (String × Json) :=
  (recordRows S payloads name).filter isRow

/-- The store as the archive has it. -/
def archived (payloads : Payloads) (name : StoreName) : View :=
  if S.enabled then .inr fun key => Dict.lookup key (recordRows S payloads name)
  else .inl (some (payloads name))

/-- The store as it is after the write. -/
def written (payloads : Payloads) (name : StoreName) : View :=
  if S.enabled then .inr fun key => Dict.lookup key (storedRows S payloads name)
  else .inl (some (payloads name))

/-- The table takes each row, no key is too long, and none occurs twice. -/
def Accepts (width : Option Nat) (rows : List (String × Json)) : Prop :=
  (∀ row ∈ rows, takesRow S row = true ∧ ∀ n ∈ width, row.1.length ≤ n) ∧ (rows.map Prod.fst).Nodup

instance (width : Option Nat) (rows : List (String × Json)) : Decidable (Accepts S width rows) :=
  inferInstanceAs (Decidable (_ ∧ _))

/-- The number of the first command that writes a store; six come before the writes. -/
def firstCommand (w : World) (name : StoreName) : Nat :=
  w.commands + 6 + (if S.enabled then 1 else 2) *
    match name with
    | .users => 0
    | .tempTokens => 1
    | .accounts => 2

/-- The write of a store raises: it is disturbed, or the database refuses the rows, or the text of
the file cannot be encoded. -/
def writeRaises (payloads : Payloads) (w : World) (name : StoreName) : Bool :=
  let n := firstCommand S w name
  if S.enabled then
    (S.faults n).isSome || !decide (Accepts S (width name) (storedRows S payloads name))
  else (S.faults n).isSome || !encodes S (payloads name) || (S.faults (n + 1)).isSome

/-- The document of a store in the database. -/
def databaseDocument (name : StoreName) (db : Database) : Json :=
  let rows := S.ordered (table name db).items
  .object [(name.key, if name = .accounts then .array (rows.map Prod.snd) else .object rows)]

def currentDocument (w : World) (name : StoreName) : Except String Json :=
  if S.enabled then .ok (databaseDocument S name w.db)
  else fileDocument name (w.data.documents name.file)

/-- The copy of what is there can be made. -/
def SnapshotTaken (w : World) : Prop :=
  (∀ i < 6, S.faults (w.commands + i) = none) ∧
    ∃ current : Payloads, (∀ name, currentDocument S w name = .ok (current name)) ∧
      validatePayloads S.str current = .ok () ∧ ∀ name, encodes S (current name) = true

/-- A restore replaces all stores by what the archive has, or raises and leaves them. -/
def AllOrNothing (L : Library) (raw : List UInt8) (now snapshot : String) (w : World) : Prop :=
  match restoreBackup S L raw now snapshot w with
  | .ok _ w' => ∃ payloads, decodeBackup L S.str raw = .ok payloads ∧
      view S w' = archived S payloads
  | .error _ w' => view S w' = view S w

/-- The condition on the archive, the stores and the writes that raise. -/
structure Safe (payloads : Payloads) (w : World) : Prop where
  unchanged : Unchanged (writeRaises S payloads w) (written S payloads) storeNames (view S w)
  taken : S.enabled = true → (∀ name ∈ storeNames, writeRaises S payloads w name = false) →
    ∀ name ∈ storeNames, ∀ row ∈ recordRows S payloads name, isRow row = true

/-- A store by its records: a missing file has none. -/
def recordsView (w : World) (name : StoreName) : View :=
  match view S w name with
  | .inl none => .inl (some (defaultDocument name))
  | stored => stored

/-- The rows are those that a write makes: objects under their keys. -/
def RowsSound (db : Database) : Prop :=
  ∀ name, ∀ row ∈ (table name db).items,
    isRow row = true ∧ (name = .accounts → row.1 = Json.textOf S.str (row.2.get? "id"))

/-- Restoring the archive that `createBackup` makes changes no records, whatever raises. -/
def BackupRestores (L : Library) (raw : List UInt8) (now snapshot : String) (w : World) : Prop :=
  ∀ archive w₁ members, createBackup S now w = .ok archive w₁ → L.openZip raw = some members →
    (∀ entry ∈ archive, readMember members entry.1 = .ok entry.2) →
      Ends (restoreBackup S L raw now snapshot) w₁
        (fun _ w' => recordsView S w' = recordsView S w)
        (fun _ w' => recordsView S w' = recordsView S w)

end Law

/-! ### Rows -/

section Rows

variable {S : Setting}

theorem insert_ok_iff {width : Option Nat} {rows done : Dict String Json} {row : String × Json} :
    insert S width rows row = .ok done ↔
      (takesRow S row = true ∧ ∀ n ∈ width, row.1.length ≤ n) ∧ row.1 ∉ rows.items.map Prod.fst ∧
        done.items = rows.items ++ [row] := by
  have hitems : row.1 ∉ rows.items.map Prod.fst → (rows.set row.1 row.2).items = rows.items ++ [row] :=
    fun hnew => Dict.assign_of_notMem hnew row.2
  have hfound : (rows.get? row.1).isSome = true ↔ row.1 ∈ rows.items.map Prod.fst :=
    Dict.contains_iff_mem_keys rows row.1
  rw [StorageMigrate.insert]
  split_ifs with htakes hwide hold
  · exact iff_of_false (fun h => by cases h) fun h => by simp [htakes] at h
  · obtain ⟨n, hn, hlong⟩ := (Option.any_eq_true _ _).mp hwide
    refine iff_of_false (fun h => by cases h) fun h => ?_
    have hle := h.1.2 n hn
    have hlt := of_decide_eq_true hlong
    omega
  · exact iff_of_false (fun h => by cases h) fun h => h.2.1 (hfound.mp hold)
  · have hnew : row.1 ∉ rows.items.map Prod.fst := fun hmem => hold (hfound.mpr hmem)
    have hshort : ∀ n ∈ width, row.1.length ≤ n := by
      intro n hn
      by_contra hlong
      exact hwide ((Option.any_eq_true _ _).mpr ⟨n, hn, decide_eq_true (by omega)⟩)
    constructor
    · intro h
      obtain rfl := Except.ok.inj h
      exact ⟨⟨Bool.not_eq_false _ ▸ htakes, hshort⟩, hnew, hitems hnew⟩
    · rintro ⟨-, -, hdone⟩
      obtain ⟨items, hnodup⟩ := done
      obtain rfl : items = (rows.set row.1 row.2).items := hdone.trans (hitems hnew).symm
      rfl

/-- The database takes the rows that it accepts, and all of them. -/
theorem foldlM_insert_iff {width : Option Nat} {rows : List (String × Json)}
    {start done : Dict String Json} :
    rows.foldlM (insert S width) start = .ok done ↔
      (∀ row ∈ rows, takesRow S row = true ∧ ∀ n ∈ width, row.1.length ≤ n) ∧
        (start.items.map Prod.fst ++ rows.map Prod.fst).Nodup ∧
        done.items = start.items ++ rows := by
  induction rows generalizing start with
  | nil =>
    constructor
    · intro h
      obtain rfl := Except.ok.inj h
      exact ⟨by simp, by simpa using start.nodup, by simp⟩
    · rintro ⟨-, -, hdone⟩
      obtain ⟨items, hnodup⟩ := done
      obtain rfl : items = start.items := by simpa using hdone
      rfl
  | cons row rows ih =>
    have happend : ∀ middle : Dict String Json, middle.items = start.items ++ [row] →
        middle.items.map Prod.fst ++ rows.map Prod.fst =
          start.items.map Prod.fst ++ (row :: rows).map Prod.fst := by
      intro middle hmiddle
      simp [hmiddle]
    rw [List.foldlM_cons]
    constructor
    · intro h
      cases hinsert : insert S width start row with
      | error e =>
        rw [hinsert] at h
        cases h
      | ok middle =>
        rw [hinsert] at h
        obtain ⟨hfits, -, hmiddle⟩ := insert_ok_iff.mp hinsert
        obtain ⟨hrest, hnodup, hdone⟩ := ih.mp h
        refine ⟨?_, happend middle hmiddle ▸ hnodup, by simp [hdone, hmiddle]⟩
        intro r hr
        rcases List.mem_cons.mp hr with rfl | hr
        · exact hfits
        · exact hrest r hr
    · rintro ⟨hfits, hnodup, hdone⟩
      have hnew : row.1 ∉ start.items.map Prod.fst := fun hmem =>
        (List.disjoint_of_nodup_append hnodup) hmem (by simp)
      have hinsert : insert S width start row = .ok (start.set row.1 row.2) :=
        insert_ok_iff.mpr ⟨hfits row List.mem_cons_self, hnew, Dict.assign_of_notMem hnew row.2⟩
      obtain ⟨-, -, hmiddle⟩ := insert_ok_iff.mp hinsert
      rw [hinsert]
      refine ih.mpr ⟨fun r hr => hfits r (List.mem_cons_of_mem _ hr), ?_, ?_⟩
      · rw [happend _ hmiddle]
        exact hnodup
      · simp [hdone, hmiddle]

theorem insertAll_iff {width : Option Nat} {rows : List (String × Json)} {done : Dict String Json} :
    insertAll S width rows = .ok done ↔ Accepts S width rows ∧ done.items = rows := by
  rw [insertAll, foldlM_insert_iff]
  simp [Accepts, Dict.empty, and_assoc]

/-- Leaving records out is seen exactly when there are some to leave out. -/
theorem lookup_filter_iff {rows : List (String × Json)} (hnodup : (rows.map Prod.fst).Nodup)
    (p : String × Json → Bool) :
    (∀ key, Dict.lookup key (rows.filter p) = Dict.lookup key rows) ↔
      ∀ row ∈ rows, p row = true := by
  constructor
  · intro h row hrow
    have hfound : Dict.lookup row.1 rows = some row.2 :=
      (Dict.lookup_eq_some_iff hnodup).mpr hrow
    have hfiltered : ((rows.filter p).map Prod.fst).Nodup :=
      (List.filter_sublist.map Prod.fst).nodup hnodup
    have hmem := (Dict.lookup_eq_some_iff hfiltered).mp ((h row.1).trans hfound)
    exact (List.mem_filter.mp hmem).2
  · intro h key
    rw [List.filter_eq_self.mpr h]

end Rows

/-! ### Commands -/

section Commands

variable {S : Setting} {w w' : World} {name : StoreName} {payloads : Payloads}

/-- Only commands were counted. -/
def Counted (w w' : World) : Prop := ∃ n, w' = { w with commands := n }

theorem Counted.view (h : Counted w w') : view S w' = view S w := by
  obtain ⟨n, rfl⟩ := h
  rfl

theorem command_ends {α : Type} (f : World → Except String (α × World)) :
    Ends (command S f) w
      (fun a w' => S.faults w.commands = none ∧
        f { w with commands := w.commands + 1 } = .ok (a, w'))
      (fun _ w' => (S.faults w.commands ≠ none ∨
        ∃ e, f { w with commands := w.commands + 1 } = .error e) ∧ Counted w w') := by
  unfold Ends command
  dsimp only
  rw [Nat.add_sub_cancel]
  cases hfault : S.faults w.commands with
  | some error => exact ⟨.inl (by simp), ⟨_, rfl⟩⟩
  | none =>
    cases hf : f { w with commands := w.commands + 1 } with
    | error e => exact ⟨.inr ⟨e, rfl⟩, ⟨_, rfl⟩⟩
    | ok outcome => exact ⟨rfl, rfl⟩

theorem writing_exact (f : World → World) : Ends (writing S f) w
    (fun _ w' => S.faults w.commands = none ∧ w' = f { w with commands := w.commands + 1 })
    (fun _ w' => S.faults w.commands ≠ none ∧ Counted w w') := by
  refine (command_ends _).mono ?_ ?_
  · rintro a w' ⟨hfault, hf⟩
    exact ⟨hfault, (Prod.mk.inj (Except.ok.inj hf)).2.symm⟩
  · rintro e w' ⟨hfault | ⟨e', hf⟩, hcounted⟩
    · exact ⟨hfault, hcounted⟩
    · cases hf

theorem reading_exact {α : Type} (f : World → Except String α) : Ends (reading S f) w
    (fun a w' => S.faults w.commands = none ∧ f { w with commands := w.commands + 1 } = .ok a ∧
      w' = { w with commands := w.commands + 1 })
    (fun _ w' => (S.faults w.commands ≠ none ∨
      ∃ e, f { w with commands := w.commands + 1 } = .error e) ∧ Counted w w') := by
  refine (command_ends _).mono ?_ ?_
  · rintro a w' ⟨hfault, hf⟩
    cases hread : f { w with commands := w.commands + 1 } with
    | error e =>
      rw [hread] at hf
      cases hf
    | ok b =>
      rw [hread] at hf
      obtain ⟨rfl, rfl⟩ := Prod.mk.inj (Except.ok.inj hf)
      exact ⟨hfault, rfl, rfl⟩
  · rintro e w' ⟨hfault | ⟨e', hf⟩, hcounted⟩
    · exact ⟨.inl hfault, hcounted⟩
    · refine ⟨.inr ?_, hcounted⟩
      cases hread : f { w with commands := w.commands + 1 } with
      | error e'' => exact ⟨e'', rfl⟩
      | ok b =>
        rw [hread] at hf
        cases hf

/-- The stored document of a database, read under its name. -/
theorem readDocument_eq (name : StoreName) :
    readDocument S name.document = reading S fun w => .ok (databaseDocument S name w.db) := by
  cases name <;> rfl

theorem currentPayload_ends : Ends (currentPayload S name) w
    (fun a w' => S.faults w.commands = none ∧ currentDocument S w name = .ok a ∧
      w' = { w with commands := w.commands + 1 })
    (fun _ w' => (S.faults w.commands ≠ none ∨ ∃ e, currentDocument S w name = .error e) ∧
      Counted w w') := by
  rw [currentPayload]
  unfold currentDocument
  split
  · rw [readDocument_eq]
    exact reading_exact _
  · exact reading_exact _

theorem currentPayloads_ends : Ends (currentPayloads S) w
    (fun current w' => (∀ i < 4, S.faults (w.commands + i) = none) ∧
      (∀ name, currentDocument S w name = .ok (current name)) ∧
      w' = { w with commands := w.commands + 4 })
    (fun _ w' => ((∃ i < 4, S.faults (w.commands + i) ≠ none) ∨
      ∃ name e, currentDocument S w name = .error e) ∧ Counted w w') := by
  unfold currentPayloads
  refine Ends.bind ((writing_exact _).mono (fun _ _ h => h) ?_) ?_
  · rintro _ w' ⟨hfault, hcounted⟩
    exact ⟨.inl ⟨0, by omega, hfault⟩, hcounted⟩
  rintro _ _ ⟨h₀, rfl⟩
  refine Ends.bind (currentPayload_ends.mono (fun _ _ h => h) ?_) ?_
  · rintro _ w' ⟨hfault | ⟨e, he⟩, n, rfl⟩
    · exact ⟨.inl ⟨1, by omega, hfault⟩, n, rfl⟩
    · exact ⟨.inr ⟨_, e, he⟩, n, rfl⟩
  rintro users _ ⟨h₁, husers, rfl⟩
  refine Ends.bind (currentPayload_ends.mono (fun _ _ h => h) ?_) ?_
  · rintro _ w' ⟨hfault | ⟨e, he⟩, n, rfl⟩
    · exact ⟨.inl ⟨2, by omega, hfault⟩, n, rfl⟩
    · exact ⟨.inr ⟨_, e, he⟩, n, rfl⟩
  rintro tempTokens _ ⟨h₂, htempTokens, rfl⟩
  refine Ends.bind (currentPayload_ends.mono (fun _ _ h => h) ?_) ?_
  · rintro _ w' ⟨hfault | ⟨e, he⟩, n, rfl⟩
    · exact ⟨.inl ⟨3, by omega, hfault⟩, n, rfl⟩
    · exact ⟨.inr ⟨_, e, he⟩, n, rfl⟩
  rintro accounts _ ⟨h₃, haccounts, rfl⟩
  refine Ends.pure ⟨fun i hi => ?_, fun name => ?_, rfl⟩
  · have hcases : i = 0 ∨ i = 1 ∨ i = 2 ∨ i = 3 := by omega
    rcases hcases with rfl | rfl | rfl | rfl
    · exact h₀
    · exact h₁
    · exact h₂
    · exact h₃
  · cases name with
    | users => exact husers
    | tempTokens => exact htempTokens
    | accounts => exact haccounts

theorem encoded_ok_iff {current : Payloads} :
    encoded S (storeNames.map current) = .ok () ↔ ∀ name, encodes S (current name) = true := by
  have hall : (storeNames.map current).all (encodes S) = true ↔
      ∀ name, encodes S (current name) = true := by
    rw [List.all_map, List.all_eq_true]
    exact ⟨fun h name => h name (by cases name <;> decide), fun h name _ => h name⟩
  rw [encoded, ← hall]
  split_ifs with h
  · exact iff_of_true rfl h
  · exact iff_of_false (fun h => by cases h) h

/-- The snapshot is taken with six commands, or something keeps it from being taken. -/
theorem takeSnapshot_ends (now : String) : Ends (takeSnapshot S now) w
    (fun _ w' => SnapshotTaken S w ∧ w' = { w with commands := w.commands + 6 })
    (fun _ w' => ¬ SnapshotTaken S w ∧ Counted w w') := by
  unfold takeSnapshot createBackup
  refine Ends.bind ((writing_exact _).mono (fun _ _ h => h) ?_) ?_
  · rintro _ w' ⟨hfault, hcounted⟩
    exact ⟨fun htaken => hfault (htaken.1 0 (by omega)), hcounted⟩
  rintro _ _ ⟨h₀, rfl⟩
  -- `ensure_dirs` and three reads follow, and the write of the archive comes last
  refine Ends.bind (Q := fun _ w' => (∀ i < 4, S.faults (w.commands + 1 + i) = none) ∧
    (∃ current : Payloads, (∀ name, currentDocument S w name = .ok (current name)) ∧
      validatePayloads S.str current = .ok () ∧ ∀ name, encodes S (current name) = true) ∧
        w' = { w with commands := w.commands + 5 }) ?_ ?_
  · refine Ends.bind (currentPayloads_ends.mono (fun _ _ h => h) ?_) ?_
    · rintro _ w' ⟨⟨i, hi, hfault⟩ | ⟨name, e, he⟩, n, rfl⟩
      · refine ⟨fun htaken => hfault ?_, n, rfl⟩
        have hquiet := htaken.1 (i + 1) (by omega)
        rwa [Nat.add_comm i, ← Nat.add_assoc] at hquiet
      · refine ⟨?_, n, rfl⟩
        rintro ⟨-, current, hcurrent, -⟩
        have hok : currentDocument S w name = .error e := he
        rw [hcurrent name] at hok
        cases hok
    rintro current _ ⟨hquiet, hcurrent, rfl⟩
    have hsame : ∀ current' : Payloads, (∀ name, currentDocument S w name = .ok (current' name)) →
        current' = current := fun current' hcurrent' => funext fun name =>
      Except.ok.inj ((hcurrent' name).symm.trans (hcurrent name))
    refine Ends.bind (Q := fun _ w' => validatePayloads S.str current = .ok () ∧
      w' = { w with commands := w.commands + 1 + 4 }) (Ends.result ?_ ?_) ?_
    · exact fun _ hvalid => ⟨hvalid, rfl⟩
    · refine fun e hinvalid => ⟨?_, _, rfl⟩
      rintro ⟨-, current', hcurrent', hvalid, -⟩
      rw [hsame current' hcurrent', hinvalid] at hvalid
      cases hvalid
    rintro _ _ ⟨hvalid, rfl⟩
    refine Ends.bind (Q := fun _ w' => encoded S (storeNames.map current) = .ok () ∧
      w' = { w with commands := w.commands + 1 + 4 }) (Ends.result ?_ ?_) ?_
    · exact fun _ hencoded => ⟨hencoded, rfl⟩
    · refine fun e hencoded => ⟨?_, _, rfl⟩
      rintro ⟨-, current', hcurrent', -, hall⟩
      rw [encoded_ok_iff.mpr fun name => hsame current' hcurrent' ▸ hall name] at hencoded
      cases hencoded
    · rintro _ _ ⟨hencoded, rfl⟩
      exact Ends.pure ⟨hquiet, ⟨current, hcurrent, hvalid, encoded_ok_iff.mp hencoded⟩, rfl⟩
  rintro _ _ ⟨hquiet, hcurrent, rfl⟩
  refine (writing_exact _).mono ?_ ?_
  · rintro _ _ ⟨h₅, rfl⟩
    refine ⟨⟨fun i hi => ?_, hcurrent⟩, rfl⟩
    have hcases : i = 0 ∨ i = 5 ∨ 1 ≤ i ∧ i < 5 := by omega
    rcases hcases with rfl | rfl | ⟨hle, hlt⟩
    · exact h₀
    · exact h₅
    · have hmiddle := hquiet (i - 1) (by omega)
      rwa [show w.commands + 1 + (i - 1) = w.commands + i by omega] at hmiddle
  · rintro _ w' ⟨hfault, n, rfl⟩
    exact ⟨fun htaken => hfault (htaken.1 5 (by omega)), n, rfl⟩

def setTable (name : StoreName) (rows : Dict String Json) (db : Database) : Database :=
  match name with
  | .users => { db with users := rows }
  | .tempTokens => { db with tempTokens := rows }
  | .accounts => { db with accounts := rows }

theorem accountRows_eq (h : (accountItems payloads).isSome = true) :
    accountRows S (payloads .accounts) = .ok (storedRows S payloads .accounts) := by
  unfold accountItems at h
  split at h
  · rename_i items hitems
    have haccounts : (payloads .accounts).getD "accounts" (.array []) = .array items := by
      rw [Json.getD, hitems]
      rfl
    have hmap : recordRows S payloads .accounts =
        items.map fun item => (Json.textOf S.str (item.get? "id"), item) := by
      simp [recordRows, accountItems, hitems]
    simp only [accountRows, haccounts]
    rw [storedRows, hmap, List.filter_map, ← List.filterMap_eq_map, List.filterMap_filter]
    refine congrArg Except.ok (List.filterMap_congr fun item _ => ?_)
    simp [accountRow?, isRow]
  · cases h

/-- One transaction replaces the rows of a table. -/
theorem writeDocument_eq (h : (accountItems payloads).isSome = true) (name : StoreName) :
    writeDocument S name.document (payloads name) = onDatabase S fun db =>
      (insertAll S (width name) (storedRows S payloads name)).map fun rows => setTable name rows db := by
  unfold writeDocument
  refine congrArg (onDatabase S) (funext fun db => ?_)
  cases name with
  | users =>
    change (insertAll S (width .users) (storedRows S payloads .users) >>= fun rows => _) = _
    cases insertAll S (width .users) (storedRows S payloads .users) <;> rfl
  | tempTokens =>
    change (insertAll S (width .tempTokens) (storedRows S payloads .tempTokens) >>= fun rows => _) = _
    cases insertAll S (width .tempTokens) (storedRows S payloads .tempTokens) <;> rfl
  | accounts =>
    change (accountRows S (payloads .accounts) >>= fun rows => _) = _
    rw [accountRows_eq h]
    change (insertAll S (width .accounts) (storedRows S payloads .accounts) >>= fun rows => _) = _
    cases insertAll S (width .accounts) (storedRows S payloads .accounts) <;> rfl

theorem view_setTable (henabled : S.enabled = true) (name : StoreName) (rows : Dict String Json)
    (w : World) : view S { w with db := setTable name rows w.db } =
      Function.update (view S w) name (.inr fun key => rows.get? key) := by
  funext other
  by_cases hother : other = name
  · subst hother
    rw [Function.update_self, view, if_pos henabled]
    cases other <;> rfl
  · rw [Function.update_of_ne hother, view, view, if_pos henabled, if_pos henabled]
    cases other <;> cases name <;> first | rfl | exact absurd rfl hother

theorem view_setFile (hdisabled : S.enabled = false) (name : StoreName) (value : Json) (w : World) :
    view S { w with data := { w.data with
        documents := Function.update w.data.documents name.file (some value) } } =
      Function.update (view S w) name (.inl (some value)) := by
  have hoff : ¬ S.enabled = true := by simp [hdisabled]
  funext other
  by_cases hother : other = name
  · subst hother
    rw [Function.update_self, view, if_neg hoff]
    exact congrArg Sum.inl (Function.update_self other.file (some value) w.data.documents)
  · have hfile : other.file ≠ name.file := by
      cases other <;> cases name <;> first | decide | exact absurd rfl hother
    rw [Function.update_of_ne hother, view, view, if_neg hoff, if_neg hoff]
    exact congrArg Sum.inl (Function.update_of_ne hfile (some value) w.data.documents)

/-- A store is replaced exactly when its write does not raise. -/
theorem replaceStore_ends (start : World) (haccounts : (accountItems payloads).isSome = true)
    (hcount : w.commands = firstCommand S start name) :
    Ends (replaceStore S payloads name) w
      (fun _ w' => writeRaises S payloads start name = false ∧
        w'.commands = w.commands + (if S.enabled then 1 else 2) ∧
        view S w' = Function.update (view S w) name (written S payloads name))
      (fun _ w' => writeRaises S payloads start name = true ∧ view S w' = view S w) := by
  cases henabled : S.enabled with
  | true =>
    have hraises : writeRaises S payloads start name = ((S.faults w.commands).isSome ||
        !decide (Accepts S (width name) (storedRows S payloads name))) := by
      simp [writeRaises, henabled, hcount]
    simp only [replaceStore, henabled, if_true, writeDocument_eq haccounts]
    refine (command_ends _).mono ?_ ?_
    · rintro _ w' ⟨hfault, hf⟩
      cases hinsert : insertAll S (width name) (storedRows S payloads name) with
      | error e =>
        simp only [hinsert] at hf
        cases hf
      | ok rows =>
        simp only [hinsert] at hf
        obtain ⟨-, rfl⟩ := Prod.mk.inj (Except.ok.inj hf)
        obtain ⟨haccepts, hitems⟩ := insertAll_iff.mp hinsert
        refine ⟨by simp [hraises, hfault, haccepts], rfl, ?_⟩
        rw [written, if_pos henabled, ← hitems]
        exact view_setTable henabled name rows _
    · rintro _ w' ⟨hfault | ⟨e, hf⟩, hcounted⟩
      · refine ⟨?_, hcounted.view⟩
        obtain ⟨error, herror⟩ := Option.ne_none_iff_exists'.mp hfault
        simp [hraises, herror]
      · refine ⟨?_, hcounted.view⟩
        have hrefused : ¬ Accepts S (width name) (storedRows S payloads name) := by
          intro haccepts
          have hdone := insertAll_iff.mpr ⟨haccepts,
            (rfl : (Dict.mk (storedRows S payloads name) haccepts.2).items = _)⟩
          simp only [hdone] at hf
          cases hf
        simp [hraises, hrefused]
  | false =>
    -- a temporary file is written, and then put in the place of the store
    have hraises : writeRaises S payloads start name = ((S.faults w.commands).isSome ||
        !encodes S (payloads name) || (S.faults (w.commands + 1)).isSome) := by
      simp [writeRaises, henabled, hcount]
    simp only [replaceStore, henabled, Bool.false_eq_true, if_false]
    refine Ends.bind (Q := fun _ w' => S.faults w.commands = none ∧ encodes S (payloads name) = true ∧
      w' = { w with commands := w.commands + 1 }) ((command_ends _).mono ?_ ?_) ?_
    · rintro _ w' ⟨hfault, hf⟩
      cases hencodes : encodes S (payloads name) with
      | true =>
        simp only [encoded, List.all_cons, List.all_nil, hencodes] at hf
        exact ⟨hfault, rfl, (Prod.mk.inj (Except.ok.inj hf)).2.symm⟩
      | false =>
        simp only [encoded, List.all_cons, hencodes] at hf
        cases hf
    · rintro _ w' ⟨hfault | ⟨e, hf⟩, hcounted⟩
      · obtain ⟨error, herror⟩ := Option.ne_none_iff_exists'.mp hfault
        exact ⟨by simp [hraises, herror], hcounted.view⟩
      · refine ⟨?_, hcounted.view⟩
        cases hencodes : encodes S (payloads name) with
        | true =>
          simp only [encoded, List.all_cons, List.all_nil, hencodes] at hf
          cases hf
        | false => simp [hraises, hencodes]
    rintro _ _ ⟨h₀, hencodes, rfl⟩
    refine (writing_exact _).mono ?_ ?_
    · rintro _ _ ⟨h₁, rfl⟩
      refine ⟨?_, rfl, ?_⟩
      · have hsecond : S.faults (w.commands + 1) = none := h₁
        simp [hraises, h₀, hencodes, hsecond]
      · rw [written, if_neg (by simp [henabled])]
        exact view_setFile henabled name (payloads name) _
    · rintro _ w' ⟨hfault, n, rfl⟩
      obtain ⟨error, herror⟩ := Option.ne_none_iff_exists'.mp hfault
      have hsecond : S.faults (w.commands + 1) = some error := herror
      exact ⟨by simp [hraises, hsecond], rfl⟩

end Commands

/-! ### Archives -/

section Archives

variable {L : Library} {str : Json → String} {raw : List UInt8} {payloads : Payloads}

theorem readMember_loaded {members : List Member} {name : String} {value : Json}
    (h : readMember members name = .ok value) : Loaded value := by
  unfold readMember at h
  split at h
  · cases h
  · rename_i hdata
    cases h
    obtain ⟨member, -, hcontent⟩ := Option.bind_eq_some_iff.mp hdata
    exact member.loaded value hcontent

theorem readPayload_ok {members : List Member} {name : StoreName} {value : Json}
    (h : readPayload members name = .ok value) : readMember members name.file = .ok value := by
  obtain ⟨data, hdata, hvalue⟩ := bind_ok h
  split at hvalue
  · cases hvalue
    exact hdata
  · cases hvalue

/-- What a decoded archive is known to be. -/
theorem decodeBackup_ok (h : decodeBackup L str raw = .ok payloads) :
    (∃ members, L.openZip raw = some members ∧
      ∀ name, readMember members name.file = .ok (payloads name)) ∧
      validatePayloads str payloads = .ok () := by
  unfold decodeBackup at h
  split_ifs at h
  split at h
  · cases h
  rename_i members hmembers
  simp only at h
  split_ifs at h
  obtain ⟨metadata, -, h⟩ := bind_ok h
  obtain ⟨-, -, h⟩ := bind_ok h
  obtain ⟨users, husers, h⟩ := bind_ok h
  obtain ⟨tempTokens, htempTokens, h⟩ := bind_ok h
  obtain ⟨accounts, haccounts, h⟩ := bind_ok h
  obtain ⟨⟨⟩, hvalid, h⟩ := bind_ok h
  cases h
  refine ⟨⟨members, hmembers, fun name => ?_⟩, hvalid⟩
  cases name with
  | users => exact readPayload_ok husers
  | tempTokens => exact readPayload_ok htempTokens
  | accounts => exact readPayload_ok haccounts

theorem validatePayloads_accounts (h : validatePayloads str payloads = .ok ()) :
    ∃ items, accountItems payloads = some items ∧
      ∀ item ∈ items, item.members?.isSome = true ∧ Json.textOf str (item.get? "id") ≠ "" := by
  unfold validatePayloads at h
  split_ifs at h
  split at h
  · cases h
  rename_i items hitems
  split_ifs at h with hmany hany
  refine ⟨items, hitems, fun item hitem => ?_⟩
  have hgood : ¬ (item.members?.isNone || Json.textOf str (item.get? "id") == "") = true :=
    fun hbad => hany (List.any_eq_true.mpr ⟨item, hitem, hbad⟩)
  rw [Bool.or_eq_true, not_or] at hgood
  exact ⟨by simpa [Option.isSome_iff_ne_none] using hgood.1, by simpa using hgood.2⟩

/-- The records of a loaded document have distinct keys. -/
theorem records_nodup {name : StoreName} (h : Loaded (payloads name)) :
    ((records payloads name).map Prod.fst).Nodup := by
  unfold records
  cases hvalue : payloads name with
  | object members =>
    obtain ⟨-, hinner⟩ := h members hvalue
    cases hmember : members.find? fun m => m.1 == name.key with
    | none => simp [Json.get?, Json.members?, hmember]
    | some member =>
      cases hobject : member.2 with
      | object inner =>
        have hnodup := hinner member (List.mem_of_find?_eq_some hmember) inner hobject
        simpa [Json.get?, Json.members?, hmember, hobject] using hnodup
      | null | bool | number | text | array =>
        simp [Json.get?, Json.members?, hmember, hobject]
  | null | bool | number | text | array => simp [Json.get?, Json.members?]

end Archives

/-! ### Restores -/

section Restores

variable {S : Setting} {L : Library} {raw : List UInt8} {now snapshot : String} {w : World}
  {payloads : Payloads}

theorem restore_undecoded {e : String} (h : decodeBackup L S.str raw = .error e) :
    restoreBackup S L raw now snapshot w = .error e w := by
  have hresult : (result (decodeBackup L S.str raw) : Script Payloads) w = .error e w := by
    rw [h]
    rfl
  show EStateM.bind _ _ w = _
  unfold EStateM.bind
  rw [hresult]

/-- A restore of a decoded archive writes the stores one after the other. -/
theorem restore_ends (hdecode : decodeBackup L S.str raw = .ok payloads) :
    Ends (restoreBackup S L raw now snapshot) w
      (fun _ w' => SnapshotTaken S w ∧
        replaceAll (writeRaises S payloads w) (written S payloads) storeNames (view S w) =
          (true, view S w'))
      (fun _ w' => ¬ SnapshotTaken S w ∧ view S w' = view S w ∨
        SnapshotTaken S w ∧
          replaceAll (writeRaises S payloads w) (written S payloads) storeNames (view S w) =
            (false, view S w')) := by
  obtain ⟨-, hvalid⟩ := decodeBackup_ok hdecode
  obtain ⟨items, hitems, -⟩ := validatePayloads_accounts hvalid
  have haccounts : (accountItems payloads).isSome = true := by rw [hitems]; rfl
  unfold restoreBackup
  rw [hdecode]
  refine Ends.bind (Q := fun a w' => payloads = a ∧ w = w')
    (Ends.result (fun a ha => ⟨Except.ok.inj ha, rfl⟩) fun e he => by cases he) ?_
  rintro _ _ ⟨rfl, rfl⟩
  refine Ends.bind ((takeSnapshot_ends now).mono (fun _ _ h => h) ?_) ?_
  · rintro _ w' ⟨hnot, hcounted⟩
    exact .inl ⟨hnot, hcounted.view⟩
  rintro _ _ ⟨htaken, rfl⟩
  refine Ends.bind ((replaceStore_ends w haccounts rfl).mono (fun _ _ h => h) ?_) ?_
  -- the first write that raises ends the restore, and nothing is put back
  · rintro _ w' ⟨hraises, hview⟩
    refine .inr ⟨htaken, ?_⟩
    rw [hview]
    simp only [storeNames, replaceAll, hraises, if_true]
    rfl
  rintro _ w₂ ⟨husers, hcount₂, hview₂⟩
  refine Ends.bind ((replaceStore_ends w haccounts ?_).mono (fun _ _ h => h) ?_) ?_
  · exact hcount₂.trans (by simp [firstCommand])
  · rintro _ w' ⟨hraises, hview⟩
    refine .inr ⟨htaken, ?_⟩
    rw [hview, hview₂]
    simp only [storeNames, replaceAll, husers, hraises, if_true, Bool.false_eq_true, if_false]
    rfl
  rintro _ w₃ ⟨htokens, hcount₃, hview₃⟩
  refine Ends.bind ((replaceStore_ends w haccounts ?_).mono (fun _ _ h => h) ?_) ?_
  · rw [hcount₃, hcount₂]
    simp only [firstCommand]
    split <;> omega
  · rintro _ w' ⟨hraises, hview⟩
    refine .inr ⟨htaken, ?_⟩
    rw [hview, hview₃, hview₂]
    simp only [storeNames, replaceAll, husers, htokens, hraises, if_true, Bool.false_eq_true,
      if_false]
    rfl
  rintro _ w₄ ⟨hlast, -, hview₄⟩
  refine Ends.pure ⟨htaken, ?_⟩
  rw [hview₄, hview₃, hview₂]
  simp only [storeNames, replaceAll, husers, htokens, hlast, Bool.false_eq_true, if_false]
  rfl

/-- The stores are written as the archive has them exactly when no record is left out. -/
theorem written_eq_archived_iff (hdecode : decodeBackup L S.str raw = .ok payloads) :
    written S payloads = archived S payloads ↔ (S.enabled = true →
      ∀ name ∈ storeNames, ∀ row ∈ recordRows S payloads name, isRow row = true) := by
  obtain ⟨⟨members, -, hread⟩, hvalid⟩ := decodeBackup_ok hdecode
  obtain ⟨items, hitems, hgood⟩ := validatePayloads_accounts hvalid
  cases henabled : S.enabled with
  | false =>
    refine iff_of_true (funext fun name => ?_) fun h => by cases h
    simp [written, archived, henabled]
  | true =>
    have hname : ∀ name, written S payloads name = archived S payloads name ↔
        ∀ row ∈ recordRows S payloads name, isRow row = true := by
      intro name
      have hkeys : written S payloads name = archived S payloads name ↔
          ∀ key, Dict.lookup key (storedRows S payloads name) =
            Dict.lookup key (recordRows S payloads name) := by
        simp only [written, archived, henabled, if_true, Sum.inr.injEq, funext_iff]
      rw [hkeys]
      cases name with
      | users => exact lookup_filter_iff (records_nodup (readMember_loaded (hread .users))) isRow
      | tempTokens =>
        exact lookup_filter_iff (records_nodup (readMember_loaded (hread .tempTokens))) isRow
      | accounts =>
        have hall : ∀ row ∈ recordRows S payloads .accounts, isRow row = true := by
          intro row hrow
          simp only [recordRows, hitems, Option.getD_some, List.mem_map] at hrow
          obtain ⟨item, hitem, rfl⟩ := hrow
          obtain ⟨hobject, hid⟩ := hgood item hitem
          simp [isRow, hobject, hid]
        refine iff_of_true (fun key => ?_) hall
        rw [storedRows, List.filter_eq_self.mpr hall]
    constructor
    · intro h _ name _
      exact (hname name).mp (congrFun h name)
    · intro h
      funext name
      exact (hname name).mpr (h rfl name (by cases name <;> decide))

theorem allOrNothing_iff (hdecode : decodeBackup L S.str raw = .ok payloads) :
    AllOrNothing S L raw now snapshot w ↔ (SnapshotTaken S w → Safe S payloads w) := by
  unfold AllOrNothing
  cases hrun : restoreBackup S L raw now snapshot w with
  | ok restored w' =>
    obtain ⟨htaken, hreplaced⟩ := (restore_ends hdecode).of_ok hrun
    have hdone := congrArg Prod.fst hreplaced
    have hquiet := replaceAll_fst_iff.mp hdone
    have hview : view S w' = written S payloads := by
      funext name
      have hcell := replaceAll_of_true hdone name
      rwa [hreplaced, if_pos (by cases name <;> decide)] at hcell
    constructor
    · rintro ⟨payloads', hdecode', harchived⟩ -
      obtain rfl := Except.ok.inj (hdecode.symm.trans hdecode')
      refine ⟨fun before name after hsplit _ hraises => ?_, fun henabled _ => ?_⟩
      · rw [hquiet name (by rw [hsplit]; simp)] at hraises
        cases hraises
      · exact (written_eq_archived_iff hdecode).mp (hview.symm.trans harchived) henabled
    · intro hsafe
      refine ⟨payloads, hdecode, hview.trans ?_⟩
      exact (written_eq_archived_iff hdecode).mpr fun henabled =>
        (hsafe htaken).taken henabled hquiet
  | error e w' =>
    rcases (restore_ends hdecode).of_error hrun with ⟨hnot, hview⟩ | ⟨htaken, hreplaced⟩
    · exact iff_of_true hview fun htaken => absurd htaken hnot
    · have hcut := congrArg Prod.fst hreplaced
      have hiff := unchanged_iff hcut
      rw [hreplaced] at hiff
      constructor
      · intro hview _
        refine ⟨hiff.mp hview, fun _ hquiet => ?_⟩
        rw [replaceAll_fst_iff.mpr hquiet] at hcut
        cases hcut
      · intro hsafe
        exact hiff.mpr (hsafe htaken).unchanged

/-- What a backup holds is what the stores hold. -/
theorem createBackup_ends : Ends (createBackup S now) w
    (fun archive w' => Counted w w' ∧ ∃ current : Payloads,
      (∀ name, currentDocument S w name = .ok (current name)) ∧
        ∀ name, (name.file, current name) ∈ archive)
    (fun _ _ => True) := by
  unfold createBackup
  refine Ends.bind (currentPayloads_ends.mono (fun _ _ h => h) fun _ _ _ => trivial) ?_
  rintro current _ ⟨-, hcurrent, rfl⟩
  refine Ends.bind (Q := fun _ w' => w' = { w with commands := w.commands + 4 })
    (Ends.result (fun _ _ => rfl) fun _ _ => trivial) ?_
  rintro _ _ rfl
  refine Ends.bind (Q := fun _ w' => w' = { w with commands := w.commands + 4 })
    (Ends.result (fun _ _ => rfl) fun _ _ => trivial) ?_
  rintro _ _ rfl
  refine Ends.pure ⟨⟨_, rfl⟩, current, hcurrent, fun name => List.mem_cons_of_mem _ ?_⟩
  exact List.mem_map.mpr ⟨name, by cases name <;> decide, rfl⟩

theorem lookup_perm {rows rows' : List (String × Json)} (h : rows.Perm rows')
    (hnodup : (rows'.map Prod.fst).Nodup) (key : String) :
    Dict.lookup key rows = Dict.lookup key rows' := by
  have hnodup' : (rows.map Prod.fst).Nodup := ((h.map Prod.fst).nodup_iff).mpr hnodup
  ext value
  rw [Dict.lookup_eq_some_iff hnodup', Dict.lookup_eq_some_iff hnodup]
  exact h.mem_iff

/-- Writing back what is there changes no records. -/
theorem written_current (hrows : S.enabled = true → RowsSound S w.db)
    (hcurrent : ∀ name, currentDocument S w name = .ok (payloads name)) (name : StoreName) :
    written S payloads name = recordsView S w name := by
  cases henabled : S.enabled with
  | false =>
    have hname := hcurrent name
    simp only [currentDocument, henabled, Bool.false_eq_true, if_false, fileDocument] at hname
    simp only [written, recordsView, view, henabled, Bool.false_eq_true, if_false]
    split at hname
    · rename_i hmissing
      rw [hmissing, Except.ok.inj hname]
    · rename_i data hdata
      split_ifs at hname
      rw [hdata, Except.ok.inj hname]
  | true =>
    have hdocument : ∀ name, payloads name = databaseDocument S name w.db := by
      intro name
      have hname := hcurrent name
      simp only [currentDocument, henabled, if_true] at hname
      exact (Except.ok.inj hname).symm
    have hsound := hrows henabled
    have hordered := S.ordered_perm (table name w.db).items
    have hrecords : recordRows S payloads name = S.ordered (table name w.db).items := by
      cases name with
      | users =>
        simp [recordRows, records, hdocument, databaseDocument, StoreName.key, Json.get?,
          Json.members?]
      | tempTokens =>
        simp [recordRows, records, hdocument, databaseDocument, StoreName.key, Json.get?,
          Json.members?]
      | accounts =>
        have hitems : accountItems payloads =
            some ((S.ordered (table .accounts w.db).items).map Prod.snd) := by
          simp [accountItems, hdocument, databaseDocument, StoreName.key, Json.get?, Json.members?]
        simp only [recordRows, hitems, Option.getD_some, List.map_map]
        rw [List.map_congr_left (g := id), List.map_id]
        intro row hrow
        obtain ⟨-, hid⟩ := hsound .accounts row (hordered.mem_iff.mp hrow)
        exact Prod.ext (hid rfl).symm rfl
    have hstored : storedRows S payloads name = S.ordered (table name w.db).items := by
      rw [storedRows, hrecords, List.filter_eq_self]
      exact fun row hrow => (hsound name row (hordered.mem_iff.mp hrow)).1
    simp only [written, recordsView, view, henabled, if_true, hstored]
    exact congrArg Sum.inr (funext fun key =>
      lookup_perm hordered (table name w.db).nodup key)

theorem recordsView_of_view {w w' : World} {name : StoreName}
    (h : view S w' name = view S w name) : recordsView S w' name = recordsView S w name := by
  rw [recordsView, h, recordsView]

theorem recordsView_of_records {w w' : World} {name : StoreName}
    (h : view S w' name = recordsView S w name) : recordsView S w' name = recordsView S w name := by
  rw [recordsView, h]
  unfold recordsView
  cases view S w name with
  | inl content => cases content <;> rfl
  | inr rows => rfl

theorem backup_restores (hrows : S.enabled = true → RowsSound S w.db) :
    BackupRestores S L raw now snapshot w := by
  intro archive w₁ members hcreate hzip hread
  obtain ⟨⟨n, rfl⟩, current, hcurrent, harchive⟩ := createBackup_ends.of_ok hcreate
  cases hdecode : decodeBackup L S.str raw with
  | error e =>
    unfold Ends
    rw [restore_undecoded hdecode]
    rfl
  | ok payloads =>
    obtain ⟨⟨members', hzip', hpayloads⟩, -⟩ := decodeBackup_ok hdecode
    obtain rfl := Option.some.inj (hzip.symm.trans hzip')
    have hsame : payloads = current := by
      funext name
      exact Except.ok.inj ((hpayloads name).symm.trans (hread _ (harchive name)))
    subst hsame
    have hcell : ∀ w', (∀ name, view S w' name = view S w name ∨
        view S w' name = written S payloads name) → recordsView S w' = recordsView S w := by
      intro w' h
      funext name
      rcases h name with hold | hnew
      · exact recordsView_of_view hold
      · exact recordsView_of_records (hnew.trans (written_current hrows hcurrent name))
    have hreplaced : ∀ done w', replaceAll (writeRaises S payloads { w with commands := n })
        (written S payloads) storeNames (view S w) = (done, view S w') →
          recordsView S w' = recordsView S w := by
      intro done w' h
      refine hcell w' fun name => ?_
      have hview := (congrFun (congrArg Prod.snd h) name).symm
      exact (replaceAll_cell name).imp (fun hold => hview.trans hold) fun hnew =>
        hview.trans hnew.2
    refine (restore_ends hdecode).mono (fun _ w' h => hreplaced true w' h.2) ?_
    rintro _ w' (⟨-, hview⟩ | ⟨-, hcut⟩)
    · exact hcell w' fun name => .inl (congrFun hview name)
    · exact hreplaced false w' hcut

end Restores

/-- An archive of one user, no tokens and no accounts. -/
def smallArchive : List UInt8 :=
  [80, 75, 3, 4, 20, 0, 0, 0, 0, 0, 0, 0, 33, 0, 56, 235, 6, 65, 52, 0, 0, 0, 52, 0, 0, 0, 13, 0,
    0, 0, 109, 101, 116, 97, 100, 97, 116, 97, 46, 106, 115, 111, 110, 123, 34, 102, 111, 114,
    109, 97, 116, 34, 58, 32, 34, 100, 111, 108, 97, 45, 117, 115, 101, 114, 45, 97, 99, 99, 111,
    117, 110, 116, 45, 98, 97, 99, 107, 117, 112, 34, 44, 32, 34, 118, 101, 114, 115, 105, 111,
    110, 34, 58, 32, 49, 125, 80, 75, 3, 4, 20, 0, 0, 0, 0, 0, 0, 0, 33, 0, 65, 57, 60, 233, 24,
    0, 0, 0, 24, 0, 0, 0, 10, 0, 0, 0, 117, 115, 101, 114, 115, 46, 106, 115, 111, 110, 123, 34,
    117, 115, 101, 114, 115, 34, 58, 32, 123, 34, 97, 108, 105, 99, 101, 34, 58, 32, 123, 125,
    125, 125, 80, 75, 3, 4, 20, 0, 0, 0, 0, 0, 0, 0, 33, 0, 88, 178, 250, 137, 14, 0, 0, 0, 14, 0,
    0, 0, 16, 0, 0, 0, 116, 101, 109, 112, 95, 116, 111, 107, 101, 110, 115, 46, 106, 115, 111,
    110, 123, 34, 116, 111, 107, 101, 110, 115, 34, 58, 32, 123, 125, 125, 80, 75, 3, 4, 20, 0, 0,
    0, 0, 0, 0, 0, 33, 0, 236, 93, 154, 70, 16, 0, 0, 0, 16, 0, 0, 0, 13, 0, 0, 0, 97, 99, 99,
    111, 117, 110, 116, 115, 46, 106, 115, 111, 110, 123, 34, 97, 99, 99, 111, 117, 110, 116, 115,
    34, 58, 32, 91, 93, 125, 80, 75, 1, 2, 20, 3, 20, 0, 0, 0, 0, 0, 0, 0, 33, 0, 56, 235, 6, 65,
    52, 0, 0, 0, 52, 0, 0, 0, 13, 0, 0, 0, 0, 0, 0, 0, 0, 0, 0, 0, 128, 1, 0, 0, 0, 0, 109, 101,
    116, 97, 100, 97, 116, 97, 46, 106, 115, 111, 110, 80, 75, 1, 2, 20, 3, 20, 0, 0, 0, 0, 0, 0,
    0, 33, 0, 65, 57, 60, 233, 24, 0, 0, 0, 24, 0, 0, 0, 10, 0, 0, 0, 0, 0, 0, 0, 0, 0, 0, 0, 128,
    1, 95, 0, 0, 0, 117, 115, 101, 114, 115, 46, 106, 115, 111, 110, 80, 75, 1, 2, 20, 3, 20, 0,
    0, 0, 0, 0, 0, 0, 33, 0, 88, 178, 250, 137, 14, 0, 0, 0, 14, 0, 0, 0, 16, 0, 0, 0, 0, 0, 0, 0,
    0, 0, 0, 0, 128, 1, 159, 0, 0, 0, 116, 101, 109, 112, 95, 116, 111, 107, 101, 110, 115, 46,
    106, 115, 111, 110, 80, 75, 1, 2, 20, 3, 20, 0, 0, 0, 0, 0, 0, 0, 33, 0, 236, 93, 154, 70, 16,
    0, 0, 0, 16, 0, 0, 0, 13, 0, 0, 0, 0, 0, 0, 0, 0, 0, 0, 0, 128, 1, 219, 0, 0, 0, 97, 99, 99,
    111, 117, 110, 116, 115, 46, 106, 115, 111, 110, 80, 75, 5, 6, 0, 0, 0, 0, 4, 0, 4, 0, 236, 0,
    0, 0, 22, 1, 0, 0, 0, 0]

def smallMembers : List Member :=
  [{ name := "metadata.json", fileSize := 52
     content := some (.object [("format", .text backupFormat), ("version", .number "1" false)])
     loaded := by
       simp only [Option.mem_some_iff, Loaded]
       rintro _ rfl _ h
       obtain rfl := Json.object.inj h
       exact ⟨by decide, by simp⟩ },
   { name := "users.json", fileSize := 24
     content := some (.object [("users", .object [("alice", .object [])])])
     loaded := by simp [Loaded] },
   { name := "temp_tokens.json", fileSize := 14
     content := some (.object [("tokens", .object [])])
     loaded := by simp [Loaded] },
   { name := "accounts.json", fileSize := 16
     content := some (.object [("accounts", .array [])])
     loaded := by simp [Loaded] }]

def smallLibrary : Library where
  openZip raw := if raw = smallArchive then some smallMembers else none
  toInt
    | .number "1" _ => some 1
    | _ => none

/-- The disk is full when the tokens are written. -/
def fullDisk : Setting where
  enabled := false
  str _ := "?"
  ordered rows := rows
  orderedTasks rows := rows
  ordered_perm _ := .rfl
  orderedTasks_perm _ := .rfl
  faults n := if n = 8 then some "No space left on device" else none

/-- No user is there, and nothing else. -/
def noUsers : World where
  data :=
    { documents := fun name =>
        if name = "users.json" then some (.object [("users", .object [])]) else none }

/-- A database that writes nothing after the users. -/
def lockedTokens : Setting where
  enabled := true
  str _ := "?"
  ordered rows := rows
  orderedTasks rows := rows
  ordered_perm _ := .rfl
  orderedTasks_perm _ := .rfl
  faults n := if n = 7 then some "canceling statement due to lock timeout" else none

def alice : World where
  data := {}
  db := { users := Dict.empty.set "alice" (.object []) }

end FetchTask.DataBackup
