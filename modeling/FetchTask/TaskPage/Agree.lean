import FetchTask.TaskPage

/-!
Where the two pages agree.

The page of the files is brought to the form of the page of the database: the rows that
are shown, those of them that are chosen, sorted, and the counts over them. Two such
pages agree where each row is judged alike and any two rows are ordered alike; and where
the pages of all parts of a store agree, its rows are judged and ordered so.
-/

namespace FetchTask.TaskPage

open Sorting

/-! ### Counts and pages -/

section Counts

variable {α β : Type} {c c' : Collation} {reasons reasons' : List String}

theorem separates_ranked (rows : List (String × Nat)) : Separates c.ranked rows :=
  fun _ _ _ _ => c.eq_of_ranked

theorem countReasons_perm (h : reasons.Perm reasons') :
    countReasons c reasons = countReasons c reasons' := by
  refine insertionSort_eq_of_perm (separates_ranked _) ?_
  have hcount : (fun reason => (reason, reasons.count reason)) =
      fun reason => (reason, reasons'.count reason) :=
    funext fun reason => by rw [h.count_eq]
  rw [hcount]
  exact h.dedup.map _

theorem mem_countReasons {row : String × Nat} (h : row ∈ countReasons c reasons) :
    row.1 ∈ reasons := by
  rw [countReasons, List.mem_insertionSort] at h
  obtain ⟨reason, hin, rfl⟩ := List.mem_map.mp h
  exact List.mem_dedup.mp hin

theorem countReasons_congr (h : ∀ a ∈ reasons, ∀ b ∈ reasons, c.le a b = c'.le a b) :
    countReasons c reasons = countReasons c' reasons := by
  refine insertionSort_congr fun x hx y hy => ?_
  obtain ⟨a, ha, rfl⟩ := List.mem_map.mp hx
  obtain ⟨b, hb, rfl⟩ := List.mem_map.mp hy
  rw [Collation.ranked, Collation.ranked,
    h a (List.mem_dedup.mp ha) b (List.mem_dedup.mp hb)]

theorem pageOf_map (f : α → β) (current : Int) (pageSize : Nat) (rows : List α) :
    pageOf current pageSize (rows.map f) = (pageOf current pageSize rows).map f := by
  rw [pageOf, pageOf, ← List.map_drop, ← List.map_take]

theorem mem_of_mem_pageOf {current : Int} {pageSize : Nat} {rows : List α} {a : α}
    (h : a ∈ pageOf current pageSize rows) : a ∈ rows :=
  List.mem_of_mem_drop (List.mem_of_mem_take h)

theorem Stats.of_map (f : β → α) (marks : α → Marks) (rows : List β)
    (failureReasons : List (String × Nat)) :
    Stats.of marks (rows.map f) failureReasons =
      Stats.of (fun row => marks (f row)) rows failureReasons := by
  simp only [Stats.of, List.length_map, List.countP_map, Function.comp_def]

theorem Stats.of_perm (marks : α → Marks) {rows rows' : List α} (h : rows.Perm rows')
    (failureReasons : List (String × Nat)) :
    Stats.of marks rows failureReasons = Stats.of marks rows' failureReasons := by
  simp only [Stats.of, h.length_eq, h.countP_eq]

theorem Stats.of_congr {marks marks' : α → Marks} {rows : List α}
    (h : ∀ row ∈ rows, marks row = marks' row) (failureReasons : List (String × Nat)) :
    Stats.of marks rows failureReasons = Stats.of marks' rows failureReasons := by
  have hcount : ∀ mark : Marks → Bool,
      rows.countP (fun row => mark (marks row)) = rows.countP fun row => mark (marks' row) :=
    fun mark => List.countP_congr fun row hrow => by rw [h row hrow]
  simp only [Stats.of, hcount]

end Counts

/-! ### Two pages of one form -/

/-- The page of the identifiers, in their order. -/
def pageFrom (page : Int) (pageSize : Nat) (chosen : List String) (stats : Stats) : Page where
  items := pageOf (currentPage page (totalPages chosen.length pageSize)) pageSize chosen
  total := chosen.length
  page := currentPage page (totalPages chosen.length pageSize)
  pageSize := pageSize
  totalPages := totalPages chosen.length pageSize
  stats := stats

section Forms

variable (u : Texts) (db : Database) (now : Int) (q : Query)

/-- The files show the task. -/
def isShown (t : StoredTask) : Bool := isListed u q t && !(taskListItem u now q t).hidden q

def isChosen (t : StoredTask) : Bool := isShown u now q t && (taskListItem u now q t).selected u q

def hasFailedToday (t : StoredTask) : Bool :=
  isShown u now q t && (taskListItem u now q t).marks.todayFailed

/-- The order of the files, on the stored tasks. -/
def fileOrder : StoredTask → StoredTask → Prop :=
  Collation.codePoints.newestBy fun t => (taskListItem u now q t).key

instance : DecidableRel (fileOrder u now q) :=
  inferInstanceAs (DecidableRel (Collation.codePoints.newestBy _))

instance : Std.Total (fileOrder u now q) :=
  inferInstanceAs (Std.Total (Collation.codePoints.newestBy _))

instance : IsTrans StoredTask (fileOrder u now q) :=
  inferInstanceAs (IsTrans StoredTask (Collation.codePoints.newestBy _))

variable {u now q} {tasks : List StoredTask}

theorem separates_fileOrder (hids : (tasks.map StoredTask.id).Nodup) :
    Separates (fileOrder u now q) tasks := by
  intro a ha b hb hab hba
  have hkey : (taskListItem u now q a).key = (taskListItem u now q b).key :=
    Collation.codePoints.eq_of_newest hab hba
  exact List.inj_on_of_nodup_map hids ha hb (congrArg Prod.snd hkey)

theorem separates_items (hids : (tasks.map StoredTask.id).Nodup) :
    Separates (Collation.codePoints.newestBy Item.key) (tasks.map (taskListItem u now q)) := by
  intro x hx y hy hxy hyx
  obtain ⟨a, ha, rfl⟩ := List.mem_map.mp hx
  obtain ⟨b, hb, rfl⟩ := List.mem_map.mp hy
  exact congrArg _ (separates_fileOrder hids a ha b hb hxy hyx)

theorem map_insertionSort_fileOrder (rows : List StoredTask) :
    (rows.insertionSort (fileOrder u now q)).map (taskListItem u now q) =
      (rows.map (taskListItem u now q)).insertionSort (Collation.codePoints.newestBy Item.key) :=
  List.map_insertionSort (fileOrder u now q) _ _ rows fun _ _ _ _ => Iff.rfl

theorem listTasks_filter (hids : (tasks.map StoredTask.id).Nodup) (p : Item → Bool) :
    (listTasks u now q tasks).filter p =
      ((tasks.filter fun t => isListed u q t && p (taskListItem u now q t)).insertionSort
        (fileOrder u now q)).map (taskListItem u now q) := by
  have hlisted : ((tasks.filter (isListed u q)).map StoredTask.id).Nodup :=
    hids.sublist (List.filter_sublist.map _)
  rw [listTasks, filter_insertionSort (separates_items hlisted), List.filter_map,
    List.filter_filter, map_insertionSort_fileOrder]
  refine congrArg (fun rows : List StoredTask =>
    (rows.map (taskListItem u now q)).insertionSort _) (List.filter_congr fun t _ => ?_)
  exact Bool.and_comm ..

theorem filePage_eq (hids : (tasks.map StoredTask.id).Nodup) (page : Int) (pageSize : Nat) :
    filePage u now q page pageSize tasks =
      pageFrom page pageSize
        (((tasks.filter (isChosen u now q)).insertionSort (fileOrder u now q)).map StoredTask.id)
        (Stats.of (fun t => (taskListItem u now q t).marks) (tasks.filter (isShown u now q))
          (countReasons Collation.codePoints
            ((tasks.filter (hasFailedToday u now q)).map fun t =>
              (taskListItem u now q t).reason u))) := by
  have hselected : ((listTasks u now q tasks).filter fun item => !item.hidden q).filter
      (Item.selected u q) =
      ((tasks.filter (isChosen u now q)).insertionSort (fileOrder u now q)).map
        (taskListItem u now q) := by
    rw [List.filter_filter, listTasks_filter hids]
    refine congrArg (fun rows : List StoredTask => (rows.insertionSort _).map _)
      (List.filter_congr fun t _ => ?_)
    rw [isChosen, isShown, Bool.and_assoc, Bool.and_comm (Item.selected ..)]
  have hfailed : ((listTasks u now q tasks).filter fun item => !item.hidden q).filter
      (fun item => item.marks.todayFailed) =
      ((tasks.filter (hasFailedToday u now q)).insertionSort (fileOrder u now q)).map
        (taskListItem u now q) := by
    rw [List.filter_filter, listTasks_filter hids]
    refine congrArg (fun rows : List StoredTask => (rows.insertionSort _).map _)
      (List.filter_congr fun t _ => ?_)
    rw [hasFailedToday, isShown, Bool.and_assoc, Bool.and_comm (Marks.todayFailed _)]
  have hshown : (listTasks u now q tasks).filter (fun item => !item.hidden q) =
      ((tasks.filter (isShown u now q)).insertionSort (fileOrder u now q)).map
        (taskListItem u now q) := listTasks_filter hids _
  have hid : Item.id ∘ taskListItem u now q = StoredTask.id := rfl
  rw [filePage, hselected, hfailed, hshown, Stats.of_map, List.map_map,
    Stats.of_perm _ (List.perm_insertionSort ..),
    countReasons_perm ((List.perm_insertionSort ..).map _), pageFrom, pageOf_map, pageOf_map,
    List.map_map, List.length_map, List.length_map, hid, Function.comp_def]

/-- A reason is never empty, so the default is not taken again. -/
theorem textOr_sqlReason (t : StoredTask) :
    textOr (sqlReason db t) unknownReason = sqlReason db t := by
  have hne : sqlReason db t ≠ "" := by
    rw [sqlReason]
    cases herror : (t.sqlText db "error").filter (· != "") with
    | none => decide
    | some error => simpa using (Option.filter_eq_some_iff.mp herror).2
  rw [textOr, if_neg hne]

theorem queryTaskPage_eq (page : Int) (pageSize : Nat) :
    queryTaskPage u db now q page pageSize tasks =
      pageFrom page pageSize
        (((tasks.filter fun t => sqlInScope db q t && sqlSelected u db q t).insertionSort
          (db.collation.newestBy (sqlKey db))).map StoredTask.id)
        (Stats.of (sqlMarks u db now) (tasks.filter (sqlInScope db q))
          (countReasons db.collation
            (((tasks.filter (sqlInScope db q)).filter fun t => (sqlMarks u db now t).todayFailed).map
              (sqlReason db)))) := by
  have hreasons : ∀ failures : List StoredTask,
      (countReasons db.collation (failures.map (sqlReason db))).map
        (fun row => (textOr row.1 unknownReason, row.2)) =
      countReasons db.collation (failures.map (sqlReason db)) := by
    intro failures
    refine (List.map_congr_left fun row hrow => ?_).trans (List.map_id _)
    obtain ⟨t, -, ht⟩ := List.mem_map.mp (mem_countReasons hrow)
    rw [← ht, textOr_sqlReason, ht, id]
  rw [queryTaskPage, hreasons, pageFrom, pageOf_map, List.length_map, List.length_insertionSort]

end Forms

/-! ### Rows taken alike -/

section Alike

variable (u : Texts) (db : Database) (now : Int) (q : Query)

/-- The row is judged alike: it is in the scope of the request, counted and selected in the
database as in the files, and gives the same reason. -/
structure AlikeRow (t : StoredTask) : Prop where
  scope : sqlInScope db q t = isShown u now q t
  marks : isShown u now q t = true → sqlMarks u db now t = (taskListItem u now q t).marks
  selected : isShown u now q t = true →
    sqlSelected u db q t = (taskListItem u now q t).selected u q
  reason : hasFailedToday u now q t = true → sqlReason db t = (taskListItem u now q t).reason u

/-- Two rows that are chosen, and the reasons of two that have failed, are ordered alike. -/
structure AlikePair (a b : StoredTask) : Prop where
  order : isChosen u now q a = true → isChosen u now q b = true →
    (db.collation.newestBy (sqlKey db) a b ↔ fileOrder u now q a b)
  reasons : hasFailedToday u now q a = true → hasFailedToday u now q b = true →
    db.collation.le (sqlReason db a) (sqlReason db b) =
      Collation.codePoints.le (sqlReason db a) (sqlReason db b)

structure Alike (tasks : List StoredTask) : Prop where
  row : ∀ t ∈ tasks, AlikeRow u db now q t
  pair : ∀ a ∈ tasks, ∀ b ∈ tasks, AlikePair u db now q a b

variable {u db now q} {tasks rows directories : List StoredTask}

theorem isTaskId_of_isShown {t : StoredTask} (h : isShown u now q t = true) :
    isTaskId t.id = true := by
  rw [isShown, isListed, Bool.and_assoc, Bool.and_eq_true] at h
  exact h.1

theorem AlikeRow.chosen {t : StoredTask} (h : AlikeRow u db now q t) :
    (sqlInScope db q t && sqlSelected u db q t) = isChosen u now q t := by
  rw [isChosen, h.scope]
  cases hshown : isShown u now q t with
  | false => rfl
  | true => rw [h.selected hshown]

theorem AlikeRow.failedToday {t : StoredTask} (h : AlikeRow u db now q t) :
    ((sqlMarks u db now t).todayFailed && sqlInScope db q t) = hasFailedToday u now q t := by
  rw [hasFailedToday, h.scope, Bool.and_comm]
  cases hshown : isShown u now q t with
  | false => rfl
  | true => rw [h.marks hshown]

/-- The pages of rows and directories of the same tasks agree. -/
theorem Alike.pages_agree (h : Alike u db now q rows) (hids : (rows.map StoredTask.id).Nodup)
    (hperm : directories.Perm rows) (page : Int) (pageSize : Nat) :
    sqlPage u db now q page pageSize rows = filePage u now q page pageSize directories := by
  have hidsd : (directories.map StoredTask.id).Nodup :=
    (hperm.map StoredTask.id).nodup_iff.mpr hids
  have hscope : rows.filter (sqlInScope db q) = rows.filter (isShown u now q) :=
    List.filter_congr fun t ht => (h.row t ht).scope
  have hchosen : (rows.filter fun t => sqlInScope db q t && sqlSelected u db q t) =
      rows.filter (isChosen u now q) := List.filter_congr fun t ht => (h.row t ht).chosen
  have hfailed : ((rows.filter (sqlInScope db q)).filter fun t =>
      (sqlMarks u db now t).todayFailed) = rows.filter (hasFailedToday u now q) := by
    rw [List.filter_filter]
    exact List.filter_congr fun t ht => (h.row t ht).failedToday
  have hsorted : (rows.filter (isChosen u now q)).insertionSort (db.collation.newestBy (sqlKey db)) =
      (directories.filter (isChosen u now q)).insertionSort (fileOrder u now q) := by
    have hsame : (rows.filter (isChosen u now q)).insertionSort
        (db.collation.newestBy (sqlKey db)) =
        (rows.filter (isChosen u now q)).insertionSort (fileOrder u now q) := by
      refine insertionSort_congr fun a ha b hb => ?_
      obtain ⟨hain, hachosen⟩ := List.mem_filter.mp ha
      obtain ⟨hbin, hbchosen⟩ := List.mem_filter.mp hb
      exact (h.pair a hain b hbin).order hachosen hbchosen
    rw [hsame]
    exact insertionSort_eq_of_perm
      ((separates_fileOrder hids).sublist List.filter_sublist) (hperm.symm.filter _)
  have hreasons : countReasons db.collation
        ((rows.filter (hasFailedToday u now q)).map (sqlReason db)) =
      countReasons Collation.codePoints
        ((directories.filter (hasFailedToday u now q)).map fun t =>
          (taskListItem u now q t).reason u) := by
    have hcollation : countReasons db.collation
          ((rows.filter (hasFailedToday u now q)).map (sqlReason db)) =
        countReasons Collation.codePoints
          ((rows.filter (hasFailedToday u now q)).map (sqlReason db)) := by
      refine countReasons_congr fun x hx y hy => ?_
      obtain ⟨a, ha, rfl⟩ := List.mem_map.mp hx
      obtain ⟨b, hb, rfl⟩ := List.mem_map.mp hy
      obtain ⟨hain, hafailed⟩ := List.mem_filter.mp ha
      obtain ⟨hbin, hbfailed⟩ := List.mem_filter.mp hb
      exact (h.pair a hain b hbin).reasons hafailed hbfailed
    have htexts : (rows.filter (hasFailedToday u now q)).map (sqlReason db) =
        (rows.filter (hasFailedToday u now q)).map fun t => (taskListItem u now q t).reason u := by
      refine List.map_congr_left fun t ht => ?_
      obtain ⟨hin, hfailed⟩ := List.mem_filter.mp ht
      exact (h.row t hin).reason hfailed
    rw [hcollation, htexts]
    exact countReasons_perm ((hperm.symm.filter _).map _)
  have hstats : ∀ reasons, Stats.of (sqlMarks u db now) (rows.filter (isShown u now q)) reasons =
      Stats.of (fun t => (taskListItem u now q t).marks) (directories.filter (isShown u now q))
        reasons := by
    intro reasons
    refine (Stats.of_congr (fun t ht => ?_) reasons).trans
      (Stats.of_perm _ (hperm.symm.filter _) reasons)
    obtain ⟨hin, hshown⟩ := List.mem_filter.mp ht
    exact (h.row t hin).marks hshown
  have hfrom : queryTaskPage u db now q page pageSize rows =
      filePage u now q page pageSize directories := by
    rw [queryTaskPage_eq, filePage_eq hidsd, hchosen, hfailed, hscope, hsorted, hreasons,
      hstats]
  have hitems : ∀ id ∈ (filePage u now q page pageSize directories).items,
      isTaskId id = true := by
    intro id hid
    rw [filePage_eq hidsd] at hid
    obtain ⟨t, ht, rfl⟩ := List.mem_map.mp (mem_of_mem_pageOf hid)
    rw [List.mem_insertionSort, List.mem_filter, isChosen, Bool.and_eq_true] at ht
    exact isTaskId_of_isShown ht.2.1
  rw [sqlPage, hfrom, List.filter_eq_self.mpr hitems]

/-! ### What agreement says of the rows -/

theorem filter_singleton_length_inj {α : Type} {p p' : α → Bool} {a : α}
    (h : ([a].filter p).length = ([a].filter p').length) : p a = p' a := by
  cases hp : p a <;> cases hp' : p' a <;> simp_all

theorem Stats.of_singleton_inj {α : Type} {marks marks' : α → Marks} {a : α}
    {reasons reasons' : List (String × Nat)}
    (h : Stats.of marks [a] reasons = Stats.of marks' [a] reasons') :
    marks a = marks' a := by
  have hcount : ∀ mark : Marks → Bool,
      [a].countP (fun row => mark (marks row)) = [a].countP (fun row => mark (marks' row)) →
        mark (marks a) = mark (marks' a) := by
    intro mark hmark
    simp only [List.countP_eq_length_filter] at hmark
    exact filter_singleton_length_inj hmark
  rw [Stats.of, Stats.of, Stats.mk.injEq] at h
  obtain ⟨-, hpending, hrunning, hsuccess, hfailed, hcompleted, htodaySuccess, htodayFailed, -⟩ := h
  exact Marks.ext (hcount _ hpending) (hcount _ hrunning) (hcount _ hsuccess) (hcount _ hfailed)
    (hcount _ hcompleted) (hcount _ htodaySuccess) (hcount _ htodayFailed)

theorem countReasons_singleton (c : Collation) (reason : String) :
    countReasons c [reason] = [(reason, 1)] := by
  simp [countReasons]

/-- A task is judged alike where the pages of it alone agree. -/
theorem alikeRow_of_pages {t : StoredTask}
    (h : sqlPage u db now q 1 1 [t] = filePage u now q 1 1 [t]) : AlikeRow u db now q t := by
  have hids : ([t].map StoredTask.id).Nodup := List.nodup_singleton t.id
  rw [sqlPage, queryTaskPage_eq, filePage_eq hids] at h
  have hstats := congrArg Page.stats h
  have htotal := congrArg Page.total h
  simp only [pageFrom, List.length_map, List.length_insertionSort] at hstats htotal
  have hscope : sqlInScope db q t = isShown u now q t :=
    filter_singleton_length_inj (congrArg Stats.total hstats)
  have hchosen := filter_singleton_length_inj htotal
  have hmarks : isShown u now q t = true →
      sqlMarks u db now t = (taskListItem u now q t).marks := by
    intro hshown
    have hscoped : sqlInScope db q t = true := hscope.trans hshown
    simp only [List.filter_cons_of_pos hshown, List.filter_cons_of_pos hscoped,
      List.filter_nil] at hstats
    exact Stats.of_singleton_inj hstats
  refine ⟨hscope, hmarks, fun hshown => ?_, fun hfailed => ?_⟩
  · rw [isChosen, hscope, hshown] at hchosen
    exact hchosen
  · have hboth := hfailed
    rw [hasFailedToday, Bool.and_eq_true] at hboth
    obtain ⟨hshown, htoday⟩ := hboth
    have hscoped : sqlInScope db q t = true := hscope.trans hshown
    have hsql : (sqlMarks u db now t).todayFailed = true := by
      rw [hmarks hshown]
      exact htoday
    have hfailures : ([t].filter (sqlInScope db q)).filter
        (fun t => (sqlMarks u db now t).todayFailed) = [t] := by
      rw [List.filter_cons_of_pos hscoped, List.filter_nil]
      exact List.filter_cons_of_pos hsql
    have hreasons := congrArg Stats.failureReasons hstats
    simp only [Stats.of, hfailures, List.filter_cons_of_pos hfailed, List.filter_nil,
      List.map_cons, List.map_nil, countReasons_singleton, List.cons.injEq, Prod.mk.injEq]
      at hreasons
    exact hreasons.1.1

/-- Where all rows fit into a page, the first page has them all. -/
theorem pageOf_first {α : Type} {rows : List α} {pageSize : Nat} (h : rows.length ≤ pageSize) :
    pageOf (currentPage 1 (totalPages rows.length pageSize)) pageSize rows = rows := by
  have hfirst : currentPage 1 (totalPages rows.length pageSize) = 1 := by
    rw [currentPage, totalPages]
    omega
  rw [hfirst, pageOf, sub_self, Int.zero_mul, Int.toNat_zero, List.drop_zero,
    List.take_of_length_le h]

theorem filter_pair {α : Type} {p : α → Bool} {a b : α} (ha : p a = true) (hb : p b = true) :
    [a, b].filter p = [a, b] := by
  rw [List.filter_cons_of_pos ha, List.filter_cons_of_pos hb, List.filter_nil]

theorem AlikePair.self (t : StoredTask) : AlikePair u db now q t t where
  order _ _ := by
    refine iff_of_true (db.collation.newest_refl _) ?_
    exact Collation.codePoints.newest_refl (taskListItem u now q t).key
  reasons _ _ := by rw [Collation.refl, Collation.refl]

theorem countReasons_pair {c c' : Collation} {x y : String}
    (h : countReasons c [x, y] = countReasons c' [x, y]) : c.le x y = c'.le x y := by
  by_cases hxy : x = y
  · rw [hxy, c.refl, c'.refl]
  · have hdedup : [x, y].dedup = [x, y] := List.Nodup.dedup (by simpa using hxy)
    have hx : [x, y].count x = 1 := by simp [Ne.symm hxy]
    have hy : [x, y].count y = 1 := by simp [hxy]
    rw [countReasons, countReasons, hdedup] at h
    simp only [List.map_cons, List.map_nil, hx, hy] at h
    have hranked : c.ranked (x, 1) (y, 1) ↔ c'.ranked (x, 1) (y, 1) :=
      congr_of_insertionSort_pair Prod.fst hxy (congrArg (List.map Prod.fst) h)
    have hiff : c.le x y = true ↔ c'.le x y = true := by
      simpa only [Collation.ranked, lt_irrefl, false_or, true_and] using hranked
    exact Bool.eq_iff_iff.mpr hiff

/-- Two tasks are ordered alike where the pages of the two agree. -/
theorem alikePair_of_pages {a b : StoredTask} (hne : a.id ≠ b.id)
    (ha : AlikeRow u db now q a) (hb : AlikeRow u db now q b)
    (h : sqlPage u db now q 1 2 [a, b] = filePage u now q 1 2 [a, b]) :
    AlikePair u db now q a b := by
  have hids : ([a, b].map StoredTask.id).Nodup := by simpa using hne
  rw [sqlPage, queryTaskPage_eq, filePage_eq hids] at h
  refine ⟨fun hca hcb => ?_, fun hfa hfb => ?_⟩
  · have hsql : [a, b].filter (fun t => sqlInScope db q t && sqlSelected u db q t) = [a, b] :=
      filter_pair (ha.chosen.trans hca) (hb.chosen.trans hcb)
    have hfile : [a, b].filter (isChosen u now q) = [a, b] := filter_pair hca hcb
    have hlength : ∀ rows : List StoredTask, rows.Perm [a, b] →
        (rows.map StoredTask.id).length ≤ 2 := by
      intro rows hperm
      rw [List.length_map, hperm.length_eq]
      rfl
    have hitems := congrArg Page.items h
    simp only [pageFrom, hsql, hfile] at hitems
    rw [pageOf_first (hlength _ (List.perm_insertionSort ..)),
      pageOf_first (hlength _ (List.perm_insertionSort ..)), List.filter_eq_self.mpr] at hitems
    · exact congr_of_insertionSort_pair StoredTask.id hne hitems
    · intro id hid
      obtain ⟨t, ht, rfl⟩ := List.mem_map.mp hid
      rw [List.mem_insertionSort, ← hfile, List.mem_filter, isChosen, Bool.and_eq_true] at ht
      exact isTaskId_of_isShown ht.2.1
  · have hsql : ([a, b].filter (sqlInScope db q)).filter
        (fun t => (sqlMarks u db now t).todayFailed) = [a, b] := by
      rw [List.filter_filter]
      exact filter_pair (ha.failedToday.trans hfa) (hb.failedToday.trans hfb)
    have hfile : [a, b].filter (hasFailedToday u now q) = [a, b] := filter_pair hfa hfb
    have hreasons := congrArg (fun page => page.stats.failureReasons) h
    simp only [pageFrom, Stats.of, hsql, hfile, List.map_cons, List.map_nil, ← ha.reason hfa,
      ← hb.reason hfb] at hreasons
    exact countReasons_pair hreasons

end Alike

/-! ### The pages of a store -/

section Store

variable {u : Texts} {db : Database} {now : Int} {q : Query}

/-- A part of the stored tasks. -/
def TaskStore.part (store : TaskStore u now) (rows : List StoredTask) (hrows : rows.Nodup)
    (hpart : rows ⊆ store.tasks) : TaskStore u now where
  tasks := rows
  ids := hrows.map_on fun _ ha _ hb heq =>
    List.inj_on_of_nodup_map store.ids (hpart ha) (hpart hb) heq
  created := hrows.map_on fun _ ha _ hb heq =>
    List.inj_on_of_nodup_map store.created (hpart ha) (hpart hb) heq
  live t ht := store.live t (hpart ht)

/-- The pages agree for every part of the store, whatever page is asked for, exactly where
its tasks are judged and ordered alike. -/
theorem pages_agree_iff (store : TaskStore u now) :
    (∀ part : TaskStore u now, part.tasks ⊆ store.tasks → ∀ directories : List StoredTask,
      directories.Perm part.tasks → ∀ (page : Int) (pageSize : Nat), 0 < pageSize →
        sqlPage u db now q page pageSize part.tasks =
          filePage u now q page pageSize directories) ↔
      Alike u db now q store.tasks := by
  constructor
  · intro h
    have hrow : ∀ t ∈ store.tasks, AlikeRow u db now q t := by
      intro t ht
      have hpart : [t] ⊆ store.tasks := List.cons_subset.mpr ⟨ht, List.nil_subset _⟩
      exact alikeRow_of_pages
        (h (store.part [t] (List.nodup_singleton t) hpart) hpart [t] (List.Perm.refl _) 1 1
          Nat.one_pos)
    refine ⟨hrow, fun a ha b hb => ?_⟩
    by_cases hab : a = b
    · subst hab
      exact AlikePair.self a
    · have hpart : [a, b] ⊆ store.tasks :=
        List.cons_subset.mpr ⟨ha, List.cons_subset.mpr ⟨hb, List.nil_subset _⟩⟩
      have hrows : [a, b].Nodup := by simpa using hab
      have hid : a.id ≠ b.id := fun heq => hab (List.inj_on_of_nodup_map store.ids ha hb heq)
      exact alikePair_of_pages hid (hrow a ha) (hrow b hb)
        (h (store.part [a, b] hrows hpart) hpart [a, b] (List.Perm.refl _) 1 2 Nat.two_pos)
  · intro h part hpart directories hperm page pageSize _
    have halike : Alike u db now q part.tasks :=
      ⟨fun t ht => h.row t (hpart ht), fun a ha b hb => h.pair a (hpart ha) b (hpart hb)⟩
    exact halike.pages_agree part.ids hperm page pageSize

/-! ### A character of patterns as the keyword -/

/-- The first minute of a year, on texts of ASCII characters. -/
def sampleTexts : Texts where
  toChars := .ascii
  lower_empty := rfl
  casefold := Chars.ascii.lower
  str _ := ""
  int _ := 0
  fromisoformat s := if s = "2024-01-01T00:00:00+00:00" then some (1704067200 * 1000000) else none
  isoformat t :=
    if t = 1704038400 * 1000000 then "2023-12-31T16:00:00+00:00" else "2024-01-01T16:00:00+00:00"

def sampleNow : Int := 1704067230 * 1000000

def sampleDatabase : Database where
  lower := Chars.ascii.lower
  jsonText _ := ""
  collation := .codePoints

def sampleTask : StoredTask where
  id := "0123456789abcdef0123456789abcdef"
  record := [("prompt", .text "a cat"), ("status", .text "pending"), ("platform", .text "dola"),
    ("created_at", .text "2024-01-01T00:00:00+00:00")]

def sampleStore : TaskStore sampleTexts sampleNow where
  tasks := [sampleTask]
  ids := List.nodup_singleton _
  created := List.nodup_singleton _
  live := by decide +kernel

end Store

end FetchTask.TaskPage
