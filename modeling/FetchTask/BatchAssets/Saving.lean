import FetchTask.BatchAssets

/-!
A chunk saves its images over the earlier ones, or leaves everything as it was.

`Assets` is what an upload is for: at most one image for every position. The
metadata and the files represent it. In the first pass the new images wait under
names that no image file has; in the last pass they take their places, in the
directory by the rules of `Staging` and in the records one by one. What raises
before the last pass leaves temporary files only, and these are removed.
-/

namespace FetchTask.BatchAssets

open Staging Padded

/-! ### Names of files -/

section Names

/-- A suffix starts with a dot. -/
theorem suffix_toList (s : Suffix) : ∃ rest, s.val.toList = '.' :: rest := by
  have hall : ∀ s ∈ imageSuffixes, s.toList.head? = some '.' := by decide
  exact List.head?_eq_some_iff.mp (hall s.val s.property)

/-- A number and a suffix after it can be told apart. -/
theorem padded_suffix_inj {width m n : Nat} {s t : Suffix}
    (h : padded width m ++ s.val.toList = padded width n ++ t.val.toList) : m = n ∧ s = t := by
  obtain ⟨rest, hs⟩ := suffix_toList s
  obtain ⟨rest', ht⟩ := suffix_toList t
  rw [hs, ht, append_cons_inj (notMem_padded rfl _ _) (notMem_padded rfl _ _)] at h
  refine ⟨padded_injective width h.1, Subtype.ext (String.toList_injective ?_)⟩
  rw [hs, ht, h.2]

theorem fileName_inj {p q : Position} {s t : Suffix} (h : fileName p s = fileName q t) :
    p = q ∧ s = t := by
  have hlist := congrArg String.toList h
  rw [fileName, fileName, String.toList_ofList, String.toList_ofList,
    append_cons_inj (notMem_padded rfl _ _) (notMem_padded rfl _ _)] at hlist
  obtain ⟨himage, rfl⟩ := padded_suffix_inj hlist.2
  exact ⟨Prod.ext (padded_injective 6 hlist.1) himage, rfl⟩

theorem temporaryName_inj {t t' : Token} {m n : Nat} {s s' : Suffix}
    (h : temporaryName t m s = temporaryName t' n s') : m = n := by
  have hlist := congrArg String.toList h
  rw [temporaryName, temporaryName, String.toList_ofList, String.toList_ofList] at hlist
  have hlength : t.val.toList.length = t'.val.toList.length := by
    rw [String.length_toList, String.length_toList, t.property, t'.property]
  have hrest := (List.append_inj (List.cons.inj hlist).2 hlength).2
  exact (padded_suffix_inj (List.cons.inj hrest).2).1

/-- An image file starts with a digit. -/
theorem fileName_ne_temporaryName (p : Position) (s : Suffix) (t : Token) (n : Nat) (s' : Suffix) :
    fileName p s ≠ temporaryName t n s' := by
  intro h
  have hlist := congrArg String.toList h
  rw [fileName, temporaryName, String.toList_ofList, String.toList_ofList] at hlist
  cases hdigits : padded 6 p.1 with
  | nil => exact padded_ne_nil 6 p.1 hdigits
  | cons c cs =>
    rw [hdigits, List.cons_append] at hlist
    obtain ⟨rfl, -⟩ := List.cons.inj hlist
    exact notMem_padded (c := '.') rfl 6 p.1 (hdigits ▸ List.mem_cons_self)

theorem fileName_ne_empty (p : Position) (s : Suffix) : fileName p s ≠ "" := by
  intro h
  have hlist := congrArg String.toList h
  rw [fileName, String.toList_ofList] at hlist
  exact List.append_ne_nil_of_right_ne_nil _ (List.cons_ne_nil _ _) hlist

end Names

/-! ### What an upload stands for -/

structure Asset where
  suffix : Suffix
  name : Text
  content : Bytes

/-- The last accepted image of every position. -/
abbrev Assets := Position → Option Asset

/-- The record of an image. -/
def Asset.record (p : Position) (a : Asset) : Record where
  rowIndex := p.1
  imageIndex := p.2
  file := fileName p a.suffix
  originalName := a.name
  size := a.content.length

@[simp] theorem Asset.record_position (p : Position) (a : Asset) : (a.record p).position = p := rfl

/-- Where the images of an upload lie. -/
def naming : Naming Position Asset String where
  place p a := fileName p a.suffix
  key_eq h := (fileName_inj h).1

/-- The metadata lists the images, one for each position, and the files are theirs. -/
structure Lists (assets : Assets) (upload : Upload) : Prop where
  images : ∀ r, r ∈ upload.metadata.images ↔ ∃ p a, assets p = some a ∧ a.record p = r
  once : (upload.metadata.images.map Record.position).Nodup
  files : Holds naming Asset.content assets [] upload.dir.files

section Lists

variable {assets : Assets} {upload : Upload}

theorem Lists.items (h : Lists assets upload) :
    upload.records.items = upload.metadata.images.map fun r => (r.position, r) :=
  Dict.items_ofList h.once

theorem Lists.get?_records (h : Lists assets upload) (p : Position) :
    upload.records.get? p = (assets p).map (Asset.record p) := by
  refine Option.ext fun r => ?_
  rw [Dict.get?_eq_some_iff, h.items, Option.map_eq_some_iff, List.mem_map]
  constructor
  · rintro ⟨r', hr', heq⟩
    obtain ⟨rfl, rfl⟩ := Prod.mk.inj heq
    obtain ⟨q, a, ha, rfl⟩ := (h.images r').mp hr'
    exact ⟨a, ha, rfl⟩
  · rintro ⟨a, ha, rfl⟩
    exact ⟨a.record p, (h.images _).mpr ⟨p, a, ha, rfl⟩, rfl⟩

/-- An image file is one of an image that the upload stands for. -/
theorem Lists.file_iff (h : Lists assets upload) (name : String) (content : Bytes) :
    upload.dir.files name = some content ↔
      ∃ p a, assets p = some a ∧ fileName p a.suffix = name ∧ a.content = content := by
  rw [h.files name content]
  exact or_iff_left fun ⟨s, hs, _⟩ => nomatch hs

end Lists

/-! ### The first pass -/

/-- The image that an entry and its file make; `none` where the entry is rejected. -/
def itemOf (u : Chars) (p : Entry × UploadFile) : Option (Position × Asset) :=
  match p.1.rowIndex, p.1.imageIndex with
  | some rowIndex, some imageIndex =>
    if h : lowerSuffix u p.2.filename ∈ imageSuffixes then
      let name := if p.1.name = [] then textOf p.2.filename else p.1.name
      some ((rowIndex.toNat, imageIndex.toNat),
        { suffix := ⟨lowerSuffix u p.2.filename, h⟩
          name := referenceImageName u name imageIndex.toNat (lowerSuffix u p.2.filename)
          content := p.2.content })
    else none
  | _, _ => none

/-- The images of a chunk. -/
def Chunk.items (u : Chars) (chunk : Chunk) : List (Position × Asset) :=
  (chunk.entries.zip chunk.uploads).filterMap (itemOf u)

/-- A waiting image as the first pass keeps it. -/
def toPrepared (s : Staged Position Asset String) : Prepared where
  key := s.key
  temporary := s.temporary
  filename := fileName s.key s.item.suffix
  originalName := s.item.name

section FirstPass

variable {u : Chars} {chunk : Chunk} {upload : UploadFile} {target : String} {now : Int}

/-- Whatever becomes of an image, the other files stay. -/
theorem saveUploadedImage_other {name : String} (h : name ≠ target) (d : Dir) :
    (saveUploadedImage u upload target now d).2.files name = d.files name := by
  have hwrite : ∀ content, (d.write now target content).files name = d.files name := fun content =>
    Function.update_of_ne h ..
  unfold saveUploadedImage
  split
  · rfl
  · split
    · exact hwrite _
    · split
      · exact hwrite _
      · exact (Function.update_of_ne h ..).trans (hwrite _)

/-- An image that is not rejected is written as it is. -/
theorem saveUploadedImage_ok {d d' : Dir} (h : saveUploadedImage u upload target now d = (none, d')) :
    d'.files = Staging.write target upload.content d.files := by
  unfold saveUploadedImage at h
  split at h
  · cases (Prod.mk.inj h).1
  · split at h
    · cases (Prod.mk.inj h).1
    · split at h
      · rw [← (Prod.mk.inj h).2]
        rfl
      · cases (Prod.mk.inj h).1

/-- Only files under temporary names have changed. -/
structure Untouched (files : Files String Bytes) (work : Work) : Prop where
  other : ∀ name, name ∉ work.temporaryPaths → work.dir.files name = files name
  temporary : ∀ name ∈ work.temporaryPaths, ∃ t n s, name = temporaryName t n s

/-- The images so far wait under the temporary names, at one position each. -/
structure FirstPass (assets : Assets) (offset : Nat) (seen : List Position) (work : Work)
    (staged : List (Staged Position Asset String)) : Prop where
  holds : Holds naming Asset.content assets staged work.dir.files
  nodup : (staged.map Staged.temporary).Nodup
  names : ∀ s ∈ staged, ∃ t n suffix, n < offset ∧ s.temporary = temporaryName t n suffix
  prepared : work.prepared = staged.map toPrepared
  temporaryPaths : work.temporaryPaths = staged.map Staged.temporary
  seen : ∀ s ∈ staged, s.key ∈ seen
  keys : (staged.map Staged.key).Nodup

theorem FirstPass.apart {assets : Assets} {offset : Nat} {seen : List Position} {work : Work}
    {staged : List (Staged Position Asset String)} (h : FirstPass assets offset seen work staged) :
    Apart naming staged where
  nodup := h.nodup
  place_ne s hs k a := by
    obtain ⟨t, n, suffix, -, hname⟩ := h.names s hs
    rw [hname]
    exact fileName_ne_temporaryName k a.suffix t n suffix

/-- The first pass at one image: it is rejected at once, or it is written and then rejected, or it
waits and the pass goes on. -/
theorem prepare_cons_cases (u : Chars) (chunk : Chunk) (offset : Nat) (p : Entry × UploadFile)
    (rest : List (Entry × UploadFile)) (seen : List Position) (work : Work) :
    (∃ rejection, prepare u chunk offset (p :: rest) seen work = (some rejection, work)) ∨
    ∃ key item, itemOf u p = some (key, item) ∧ key ∉ seen ∧ item.content = p.2.content ∧
      let temporary := temporaryName (chunk.tokens offset) offset item.suffix
      let saved := saveUploadedImage u p.2 temporary chunk.now work.dir
      let paths := work.temporaryPaths ++ [temporary]
      (∃ rejection, saved.1 = some rejection ∧ prepare u chunk offset (p :: rest) seen work =
          (some rejection, { dir := saved.2, temporaryPaths := paths, prepared := work.prepared })) ∨
        (saved.1 = none ∧ prepare u chunk offset (p :: rest) seen work =
          prepare u chunk (offset + 1) rest (key :: seen)
            { dir := saved.2, temporaryPaths := paths
              prepared := work.prepared ++ [toPrepared ⟨key, item, temporary⟩] }) := by
  obtain ⟨entry, upload⟩ := p
  cases hrow : entry.rowIndex with
  | none => exact .inl ⟨.raised, by simp [prepare, hrow]⟩
  | some rowIndex =>
    cases himage : entry.imageIndex with
    | none => exact .inl ⟨.raised, by simp [prepare, hrow, himage]⟩
    | some imageIndex =>
      simp only [prepare, hrow, himage, itemOf]
      by_cases hbad : rowIndex < 1 ∨ 2000 < rowIndex ∨ imageIndex < 1 ∨
          chunk.maxImageCount < imageIndex ∨ (rowIndex.toNat, imageIndex.toNat) ∈ seen
      · exact .inl ⟨_, if_pos hbad⟩
      · rw [if_neg hbad]
        by_cases hsuffix : lowerSuffix u upload.filename ∈ imageSuffixes
        · rw [dif_pos hsuffix, dif_pos hsuffix]
          refine .inr ⟨_, _, rfl, fun hseen => hbad (.inr (.inr (.inr (.inr hseen)))), rfl, ?_⟩
          dsimp only
          split
          · rename_i rejection d hsave
            rw [hsave]
            exact .inl ⟨rejection, rfl, rfl⟩
          · rename_i d hsave
            rw [hsave]
            exact .inr ⟨rfl, rfl⟩
        · rw [dif_neg hsuffix]
          exact .inl ⟨_, rfl⟩

theorem Untouched.save {files : Files String Bytes} {work : Work} (h : Untouched files work)
    (t : Token) (n : Nat) (suffix : Suffix) (prepared : List Prepared) :
    Untouched files
      { dir := (saveUploadedImage u upload (temporaryName t n suffix) now work.dir).2
        temporaryPaths := work.temporaryPaths ++ [temporaryName t n suffix], prepared } := by
  constructor
  · intro name hname
    rw [List.mem_append, List.mem_singleton, not_or] at hname
    exact (saveUploadedImage_other hname.2 work.dir).trans (h.other name hname.1)
  · intro name hname
    rcases List.mem_append.mp hname with hold | hnew
    · exact h.temporary name hold
    · exact ⟨t, n, suffix, List.mem_singleton.mp hnew⟩

theorem prepare_untouched {files : Files String Bytes} (zipped : List (Entry × UploadFile))
    {offset : Nat} {seen : List Position} {work : Work} (h : Untouched files work) :
    Untouched files (prepare u chunk offset zipped seen work).2 := by
  induction zipped generalizing offset seen work with
  | nil => exact h
  | cons p rest ih =>
    rcases prepare_cons_cases u chunk offset p rest seen work with
      ⟨rejection, heq⟩ | ⟨key, item, -, -, -, ⟨rejection, -, heq⟩ | ⟨-, heq⟩⟩
    · rw [heq]
      exact h
    · rw [heq]
      exact h.save _ _ _ _
    · rw [heq]
      exact ih (h.save _ _ _ _)

/-- One more image waits. -/
theorem FirstPass.save {assets : Assets} {offset : Nat} {seen : List Position} {work : Work}
    {staged : List (Staged Position Asset String)} (h : FirstPass assets offset seen work staged)
    {key : Position} (hkey : key ∉ seen) {item : Asset} {d : Dir}
    (hd : d.files = Staging.write (temporaryName (chunk.tokens offset) offset item.suffix)
      item.content work.dir.files) :
    let new : Staged Position Asset String :=
      ⟨key, item, temporaryName (chunk.tokens offset) offset item.suffix⟩
    FirstPass assets (offset + 1) (key :: seen)
      { dir := d
        temporaryPaths := work.temporaryPaths ++ [new.temporary]
        prepared := work.prepared ++ [toPrepared new] }
      (staged ++ [new]) := by
  intro new
  -- The number in the name is a new one.
  have hfresh : ∀ s ∈ staged, s.temporary ≠ new.temporary := by
    intro s hs heq
    obtain ⟨t, n, suffix, hn, hname⟩ := h.names s hs
    exact absurd (temporaryName_inj (hname.symm.trans heq)) (Nat.ne_of_lt hn)
  constructor
  · rw [hd]
    exact h.holds.write (s := new) hfresh
      fun k a => fileName_ne_temporaryName k a.suffix _ offset item.suffix
  · rw [List.map_append, List.map_singleton]
    refine h.nodup.append (List.nodup_singleton _) ?_
    rw [List.disjoint_singleton]
    intro hmem
    obtain ⟨s, hs, heq⟩ := List.mem_map.mp hmem
    exact hfresh s hs heq
  · intro s hs
    rcases List.mem_append.mp hs with hold | hnew
    · obtain ⟨t, n, suffix, hn, hname⟩ := h.names s hold
      exact ⟨t, n, suffix, Nat.lt_succ_of_lt hn, hname⟩
    · obtain rfl := List.mem_singleton.mp hnew
      exact ⟨_, offset, item.suffix, Nat.lt_succ_self offset, rfl⟩
  · rw [h.prepared, List.map_append, List.map_singleton]
  · rw [h.temporaryPaths, List.map_append, List.map_singleton]
  · intro s hs
    rcases List.mem_append.mp hs with hold | hnew
    · exact List.mem_cons_of_mem _ (h.seen s hold)
    · obtain rfl := List.mem_singleton.mp hnew
      exact List.mem_cons_self
  · rw [List.map_append, List.map_singleton]
    refine h.keys.append (List.nodup_singleton _) ?_
    rw [List.disjoint_singleton]
    intro hmem
    obtain ⟨s, hs, rfl⟩ := List.mem_map.mp hmem
    exact hkey (h.seen s hs)

/-- A first pass that rejects nothing leaves the images of all entries waiting. -/
theorem prepare_ok {assets : Assets} {zipped : List (Entry × UploadFile)} {offset : Nat}
    {seen : List Position} {work work' : Work} {staged : List (Staged Position Asset String)}
    (hpass : FirstPass assets offset seen work staged)
    (h : prepare u chunk offset zipped seen work = (none, work')) :
    ∃ staged' offset' seen', FirstPass assets offset' seen' work' staged' ∧
      staged'.map Staged.pair = staged.map Staged.pair ++ zipped.filterMap (itemOf u) := by
  induction zipped generalizing offset seen work staged with
  | nil =>
    obtain rfl := (Prod.mk.inj h).2
    exact ⟨staged, offset, seen, hpass, (List.append_nil _).symm⟩
  | cons p rest ih =>
    rcases prepare_cons_cases u chunk offset p rest seen work with
      ⟨rejection, heq⟩ | ⟨key, item, hitem, hkey, hcontent, ⟨rejection, -, heq⟩ | ⟨hsaved, heq⟩⟩
    · rw [heq] at h
      cases (Prod.mk.inj h).1
    · rw [heq] at h
      cases (Prod.mk.inj h).1
    · rw [heq] at h
      have hwritten := saveUploadedImage_ok (Prod.ext hsaved rfl)
      rw [← hcontent] at hwritten
      obtain ⟨staged', offset', seen', hpass', hpairs⟩ := ih (hpass.save hkey hwritten) h
      refine ⟨staged', offset', seen', hpass', ?_⟩
      rw [hpairs, List.map_append, List.map_singleton, List.append_assoc, List.singleton_append,
        List.filterMap_cons_some hitem]
      rfl

end FirstPass

/-! ### The last pass -/

section LastPass

variable {assets : Assets} {existing : Dict Position Record}

/-- The records are those of the images. -/
def Recorded (assets : Assets) (existing : Dict Position Record) : Prop :=
  ∀ p, existing.get? p = (assets p).map (Asset.record p)

theorem Recorded.set (h : Recorded assets existing) (p : Position) (a : Asset) :
    Recorded (Function.update assets p (some a)) (existing.set p (a.record p)) := by
  intro q
  rw [Dict.get?_set]
  by_cases hq : p = q
  · subst hq
    rw [if_pos rfl, Function.update_self]
    rfl
  · rw [if_neg hq, Function.update_of_ne (Ne.symm hq), h q]

/-- What the position had in another place is removed. -/
theorem files_clearPlace (h : Recorded assets existing) (now : Int) (s : Staged Position Asset String)
    (d : Dir) :
    let previousName := ((existing.get? s.key).map Record.file).getD ""
    (if previousName ≠ "" ∧ previousName ≠ fileName s.key s.item.suffix then d.unlink now previousName
      else d).files = clearPlace naming (assets s.key) s d.files := by
  intro previousName
  cases hold : assets s.key with
  | none =>
    have hname : previousName = "" := by simp only [previousName, h s.key, hold]; rfl
    rw [if_neg fun hne => hne.1 hname]
    rfl
  | some a =>
    have hname : previousName = fileName s.key a.suffix := by
      simp only [previousName, h s.key, hold]
      rfl
    rw [hname]
    by_cases hsame : fileName s.key a.suffix = fileName s.key s.item.suffix
    · rw [if_neg fun hne => hne.2 hsame]
      exact (if_pos hsame).symm
    · rw [if_pos ⟨fileName_ne_empty _ _, hsame⟩]
      exact (if_neg hsame).symm

/-- The last pass puts the images in place one by one, and records them. -/
theorem commit_eq (now : Int) {staged : List (Staged Position Asset String)} {d : Dir}
    (hrecorded : Recorded assets existing) (hholds : Holds naming Asset.content assets staged d.files)
    (hapart : Apart naming staged) (paths : List String) :
    (commit now (staged.map toPrepared) d existing paths).1.files =
        placeAll naming assets staged d.files ∧
      (commit now (staged.map toPrepared) d existing paths).2.1 =
        (staged.map fun s => (s.key, s.item.record s.key)).foldl (fun d p => d.set p.1 p.2) existing ∧
      (commit now (staged.map toPrepared) d existing paths).2.2 =
        (staged.map Staged.temporary).foldl List.erase paths := by
  induction staged generalizing assets existing d paths with
  | nil => exact ⟨rfl, rfl, rfl⟩
  | cons s rest ih =>
    have hclear := files_clearPlace hrecorded now s d
    have hplaced := hholds.placeOne hapart
    rw [List.map_cons, commit]
    -- The directory before the record is made.
    generalize hd' : Dir.rename now (toPrepared s).temporary (toPrepared s).filename
      (if ((existing.get? (toPrepared s).key).map Record.file).getD "" ≠ "" ∧
          ((existing.get? (toPrepared s).key).map Record.file).getD "" ≠ (toPrepared s).filename then
        d.unlink now (((existing.get? (toPrepared s).key).map Record.file).getD "") else d) = d'
    have hfiles : d'.files = placeOne naming (assets s.key) s d.files := by
      rw [← hd']
      exact congrArg (Staging.rename s.temporary (fileName s.key s.item.suffix)) hclear
    have hsize : d'.size (toPrepared s).filename = s.item.content.length := by
      have hfile : d'.files (fileName s.key s.item.suffix) = some s.item.content := by
        rw [hfiles]
        exact (hplaced _ _).mpr (.inl ⟨s.key, s.item, Function.update_self .., rfl, rfl⟩)
      exact congrArg (fun file => file.elim 0 List.length) hfile
    rw [← hfiles] at hplaced
    obtain ⟨hdir, hexisting, hpaths⟩ := ih (hrecorded.set s.key s.item) hplaced hapart.tail
      (paths.erase s.temporary)
    rw [hsize]
    refine ⟨hdir.trans ?_, hexisting, hpaths⟩
    rw [hfiles]
    rfl

theorem recorded_foldl (h : Recorded assets existing) (items : List (Position × Asset)) :
    Recorded (overlay assets items)
      ((items.map fun i => (i.1, i.2.record i.1)).foldl (fun d p => d.set p.1 p.2) existing) := by
  induction items generalizing assets existing with
  | nil => exact h
  | cons i rest ih => exact ih (h.set i.1 i.2)

theorem mem_sortedRecords (h : Recorded assets existing) (r : Record) :
    r ∈ sortedRecords existing ↔ ∃ p a, assets p = some a ∧ a.record p = r := by
  rw [sortedRecords, List.mem_map]
  constructor
  · rintro ⟨⟨p, r⟩, hmem, rfl⟩
    have hget := (Dict.get?_eq_some_iff existing).mpr ((List.mem_insertionSort _).mp hmem)
    rw [h p] at hget
    obtain ⟨a, ha, rfl⟩ := Option.map_eq_some_iff.mp hget
    exact ⟨p, a, ha, rfl⟩
  · rintro ⟨p, a, ha, rfl⟩
    have hget : existing.get? p = some (a.record p) := by rw [h p, ha]; rfl
    exact ⟨(p, a.record p),
      (List.mem_insertionSort _).mpr ((Dict.get?_eq_some_iff existing).mp hget), rfl⟩

theorem nodup_sortedRecords (h : Recorded assets existing) :
    ((sortedRecords existing).map Record.position).Nodup := by
  have hkeys : (sortedRecords existing).map Record.position =
      (existing.items.insertionSort fun e f => Position.le e.1 f.1).map Prod.fst := by
    rw [sortedRecords, List.map_map]
    refine List.map_congr_left fun e he => ?_
    have hget := (Dict.get?_eq_some_iff existing).mpr ((List.mem_insertionSort _).mp he)
    rw [h e.1] at hget
    obtain ⟨a, -, ha⟩ := Option.map_eq_some_iff.mp hget
    exact (congrArg Record.position ha).symm
  rw [hkeys]
  exact ((List.perm_insertionSort _ existing.items).map Prod.fst).nodup_iff.mpr existing.nodup

/-- What is retained and what is new are the sizes of the new records. -/
theorem total_sortedRecords {staged : List (Staged Position Asset String)} {d : Dir}
    (hholds : Holds naming Asset.content assets staged d.files)
    (hkeys : (staged.map Staged.key).Nodup) (existing : Dict Position Record) :
    retainedBytes ((staged.map toPrepared).map Prepared.key) existing +
        ((staged.map toPrepared).map fun p => d.size p.temporary).sum =
      ((sortedRecords ((staged.map fun s => (s.key, s.item.record s.key)).foldl
        (fun d p => d.set p.1 p.2) existing)).map Record.size).sum := by
  have hpairs : (staged.map fun s => (s.key, s.item.record s.key)).map Prod.fst =
      staged.map Staged.key := List.map_map
  have hnew : ((staged.map toPrepared).map fun p => d.size p.temporary) =
      (staged.map fun s => (s.key, s.item.record s.key)).map fun p => p.2.size := by
    rw [List.map_map, List.map_map]
    refine List.map_congr_left fun s hs => ?_
    exact congrArg (fun file => file.elim 0 List.length) (hholds.temporary hs)
  have hsum := Dict.total_foldl_set Record.size (hpairs.symm ▸ hkeys) existing
  have hsorted : ∀ e : Dict Position Record,
      ((sortedRecords e).map Record.size).sum = e.total Record.size := by
    intro e
    rw [sortedRecords, List.map_map]
    exact ((List.perm_insertionSort _ e.items).map _).sum_eq
  have hreplaced : (staged.map toPrepared).map Prepared.key = staged.map Staged.key := List.map_map
  rw [hsorted, hsum, hpairs, hreplaced, hnew]
  refine congrArg (· + _) ?_
  refine congrArg (fun l : List (Position × Record) => (l.map fun e => e.2.size).sum)
    (?_ : existing.items.filter _ = existing.items.filter _)
  exact List.filter_congr fun e _ => decide_eq_decide.mpr Iff.rfl

end LastPass

/-! ### A chunk on one upload -/

/-- The metadata and the files represent the images, and the sizes add up. -/
structure Represents (assets : Assets) (upload : Upload) : Prop extends Lists assets upload where
  names : ∀ p a, assets p = some a → encodable a.name = true
  total : upload.metadata.totalBytes = some (upload.metadata.images.map Record.size).sum
  bound : (upload.metadata.images.map Record.size).sum ≤ maxBatchAssetUploadBytes

section SaveInto

variable {u : Chars} {chunk : Chunk} {assets : Assets} {upload : Upload}

theorem discard_files (now : Int) (paths : List String) (d : Dir) :
    (discard now paths d).files = paths.foldl (fun files name => Staging.unlink name files) d.files := by
  induction paths generalizing d with
  | nil => rfl
  | cons name rest ih => exact ih (d.unlink now name)

/-- Without the temporary files everything is as it was. -/
theorem Lists.discard (h : Lists assets upload) {work : Work} (hwork : Untouched upload.dir.files work)
    (now : Int) : (discard now work.temporaryPaths work.dir).files = upload.dir.files := by
  funext name
  rw [discard_files, foldl_unlink_apply]
  by_cases hmem : name ∈ work.temporaryPaths
  · rw [if_pos hmem]
    obtain ⟨t, n, suffix, rfl⟩ := hwork.temporary name hmem
    refine (Option.eq_none_iff_forall_ne_some.mpr fun content hfile => ?_).symm
    obtain ⟨p, a, -, hname, -⟩ := (h.file_iff _ content).mp hfile
    exact fileName_ne_temporaryName p a.suffix t n suffix hname
  · rw [if_neg hmem]
    exact hwork.other name hmem

/-- The images of the chunk pass their checks, and with them the upload is not too large. -/
def Writes (u : Chars) (chunk : Chunk) (upload : Upload) : Prop :=
  let (rejection, work) :=
    prepare u chunk 1 (chunk.entries.zip chunk.uploads) [] { dir := upload.dir }
  rejection = none ∧
    retainedBytes (work.prepared.map Prepared.key) upload.records +
      (work.prepared.map fun p => work.dir.size p.temporary).sum ≤ maxBatchAssetUploadBytes

/-- The first pass before any image. -/
theorem Lists.firstPass (h : Lists assets upload) :
    FirstPass assets 1 [] { dir := upload.dir } [] where
  holds := h.files
  nodup := List.nodup_nil
  names _ hs := nomatch hs
  prepared := rfl
  temporaryPaths := rfl
  seen _ hs := nomatch hs
  keys := List.nodup_nil

theorem names_over {items : List (Position × Asset)}
    (hassets : ∀ p a, assets p = some a → encodable a.name = true)
    (hitems : ∀ i ∈ items, encodable i.2.name = true) :
    ∀ p a, overlay assets items p = some a → encodable a.name = true := by
  induction items generalizing assets with
  | nil => exact hassets
  | cons i rest ih =>
    refine ih (fun p a ha => ?_) fun j hj => hitems j (List.mem_cons_of_mem _ hj)
    by_cases hp : p = i.1
    · subst hp
      rw [Function.update_self] at ha
      exact Option.some.inj ha ▸ hitems i List.mem_cons_self
    · rw [Function.update_of_ne hp] at ha
      exact hassets p a ha

theorem foldl_erase_self (paths : List String) : paths.foldl List.erase paths = [] := by
  induction paths with
  | nil => rfl
  | cons path rest ih =>
    rw [List.foldl_cons, List.erase_cons_head]
    exact ih

/-- A chunk on an upload is rejected and changes nothing but times, or its images are put in place,
and then the metadata is written or cannot be. -/
theorem saveInto_passes (u : Chars) (chunk : Chunk) (hlists : Lists assets upload) (id : String) :
    (∃ rejection, (saveInto u chunk id upload).1 = .error rejection ∧
      (saveInto u chunk id upload).2.metadata = upload.metadata ∧
      (saveInto u chunk id upload).2.dir.files = upload.dir.files) ∨
    ∃ (dir : Dir) (existing : Dict Position Record),
      Holds naming Asset.content (overlay assets (chunk.items u)) [] dir.files ∧
      Recorded (overlay assets (chunk.items u)) existing ∧ Writes u chunk upload ∧
      let totalBytes := ((sortedRecords existing).map Record.size).sum
      totalBytes ≤ maxBatchAssetUploadBytes ∧
      saveInto u chunk id upload =
        if (sortedRecords existing).all fun r => encodable r.originalName then
          (.ok { id, uploadedCount := (sortedRecords existing).length, totalBytes },
            { metadata :=
                { upload.metadata with
                  images := sortedRecords existing, totalBytes := some totalBytes
                  updatedAt := chunk.utcNow }
              dir := { dir with mtime := chunk.now } })
        else
          (.error .raised,
            { upload with
              dir := dir.write chunk.now ("metadata.json." ++ chunk.metadataToken ++ ".tmp") [] }) := by
  have huntouched : Untouched upload.dir.files
      (prepare u chunk 1 (chunk.entries.zip chunk.uploads) [] { dir := upload.dir }).2 :=
    prepare_untouched _ ⟨fun _ _ => rfl, fun _ hmem => nomatch hmem⟩
  rw [saveInto]
  cases hprepare : prepare u chunk 1 (chunk.entries.zip chunk.uploads) [] { dir := upload.dir } with
  | mk result work =>
    rw [hprepare] at huntouched
    cases result with
    | some rejection => exact .inl ⟨rejection, rfl, rfl, hlists.discard huntouched chunk.now⟩
    | none =>
      obtain ⟨staged, offset, seen, hpass, hpairs⟩ := prepare_ok hlists.firstPass hprepare
      rw [List.map_nil, List.nil_append] at hpairs
      have hrecorded : Recorded assets upload.records := hlists.get?_records
      obtain ⟨hdir, hexisting, hpaths⟩ := commit_eq chunk.now hrecorded hpass.holds hpass.apart
        work.temporaryPaths
      have htotal := total_sortedRecords hpass.holds hpass.keys upload.records
      have hplaced := holds_placeAll hpass.holds hpass.apart
      have hnew := recorded_foldl hrecorded (staged.map Staged.pair)
      rw [List.map_map, hpairs] at hnew
      rw [hpairs, ← hdir] at hplaced
      rw [← hexisting] at htotal
      -- No temporary file is left after the last pass.
      rw [hpass.temporaryPaths, foldl_erase_self] at hpaths
      dsimp only
      rw [hpass.prepared]
      split
      · exact .inl ⟨_, rfl, rfl, hlists.discard huntouched chunk.now⟩
      · rename_i hbound
        have hwrites : Writes u chunk upload := by
          rw [Writes, hprepare]
          exact ⟨rfl, hpass.prepared ▸ Nat.le_of_not_lt hbound⟩
        refine .inr ⟨_, _, hplaced, hexisting ▸ hnew, hwrites, htotal ▸ Nat.le_of_not_lt hbound, ?_⟩
        rw [hpass.temporaryPaths, hpaths, htotal, hpass.temporaryPaths]
        rfl

/-- A chunk is rejected and changes nothing but times, or its images are saved over the earlier
ones, or one of its names cannot be written. -/
theorem saveInto_cases (u : Chars) (chunk : Chunk) (hlists : Lists assets upload)
    (hnames : ∀ p a, assets p = some a → encodable a.name = true) (id : String) :
    (∃ rejection, (saveInto u chunk id upload).1 = .error rejection ∧
      (saveInto u chunk id upload).2.metadata = upload.metadata ∧
      (saveInto u chunk id upload).2.dir.files = upload.dir.files) ∨
    (∃ saved, (saveInto u chunk id upload).1 = .ok saved ∧
      Represents (overlay assets (chunk.items u)) (saveInto u chunk id upload).2) ∨
    Writes u chunk upload ∧ (¬ ∀ i ∈ chunk.items u, encodable i.2.name = true) ∧
      (saveInto u chunk id upload).1 = .error .raised := by
  rcases saveInto_passes u chunk hlists id with
    hrejected | ⟨dir, existing, hplaced, hnew, hwrites, hbound, heq⟩
  · exact .inl hrejected
  · split at heq
    · rename_i hencodable
      rw [heq]
      refine .inr (.inl ⟨_, rfl, ?_⟩)
      exact {
        images := mem_sortedRecords hnew
        once := nodup_sortedRecords hnew
        files := hplaced
        names := fun p a ha => List.all_eq_true.mp hencodable (a.record p)
          ((mem_sortedRecords hnew _).mpr ⟨p, a, ha, rfl⟩)
        total := rfl
        bound := hbound }
    · rename_i hencodable
      rw [heq]
      refine .inr (.inr ⟨hwrites, fun hitems => hencodable ?_, rfl⟩)
      refine List.all_eq_true.mpr fun r hr => ?_
      obtain ⟨p, a, ha, rfl⟩ := (mem_sortedRecords hnew r).mp hr
      exact names_over hnames hitems p a ha

end SaveInto

end FetchTask.BatchAssets
