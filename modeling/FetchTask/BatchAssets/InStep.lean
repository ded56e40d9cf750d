import FetchTask.BatchAssets.Saving
import FetchTask.Lib.Runs

/-!
Files and metadata stay in step.

The law is about every sequence of calls, on one upload and on others. `History`
keeps beside the store what the accepted calls have left on the upload, the last
image of every position; `Careful` is the condition on a call. A call finds an
upload that has not run out of time, and if its images pass their checks, their
names can be written. The end of an upload (`consume_iff`) compares positions only,
so that it gives every row its images.
-/

namespace FetchTask.BatchAssets

open Staging Runs

variable {u : Chars} {chunk : Chunk} {assets : Assets} {store : Store} {path : String}

/-! ### One call -/

/-- The call is about the upload at `path`. -/
def Chunk.On (u : Chars) (path : String) (chunk : Chunk) : Prop :=
  batchAssetUploadPath u (chunk.normalizedUploadId u) = .ok path

instance Chunk.On.decidable (u : Chars) (path : String) (chunk : Chunk) :
    Decidable (chunk.On u path) :=
  inferInstanceAs (Decidable (batchAssetUploadPath u (chunk.normalizedUploadId u) = .ok path))

/-- The upload at `path` is not removed for its age. -/
def Fresh (path : String) (now : Int) (store : Store) : Prop :=
  ∀ upload, store path = some upload → now - maxBatchReferenceAgeSeconds ≤ upload.dir.mtime

theorem cleanup_fresh {now : Int} (h : Fresh path now store) :
    cleanupBatchAssetUploads now store path = store path := by
  unfold cleanupBatchAssetUploads
  cases hupload : store path with
  | none => rfl
  | some upload => exact (Option.filter_some_pos (decide_eq_true (h upload hupload)))

/-- A call does nothing to the upload, or it saves into it, or it makes it. -/
theorem save_cases (u : Chars) (chunk : Chunk) (hfresh : Fresh path chunk.now store) :
    let id := chunk.normalizedUploadId u
    let after := saveBatchAssetChunk u chunk store
    (after.2 path = store path ∧ (chunk.On u path → ∃ rejection, after.1 = .error rejection)) ∨
    (chunk.On u path ∧ ∃ upload, store path = some upload ∧
      after.1 = (saveInto u chunk id upload).1 ∧
      after.2 path = some (saveInto u chunk id upload).2) ∨
    (chunk.On u path ∧ store path = none ∧
      ((∃ rejection, after.1 = .error rejection ∧ after.2 path = none) ∨
        ∃ saved, (saveInto u chunk id (chunk.created id)).1 = .ok saved ∧ after.1 = .ok saved ∧
          after.2 path = some (saveInto u chunk id (chunk.created id)).2)) := by
  intro id after
  have hcleanup := cleanup_fresh hfresh
  simp only [after, saveBatchAssetChunk]
  split
  · exact .inl ⟨rfl, fun _ => ⟨_, rfl⟩⟩
  · split
    · exact .inl ⟨rfl, fun _ => ⟨_, rfl⟩⟩
    · split
      · -- A later call of an upload.
        unfold loadBatchAssetUpload
        cases hpath : batchAssetUploadPath u id with
        | error e => exact .inl ⟨hcleanup, fun _ => ⟨_, rfl⟩⟩
        | ok place =>
          simp only
          cases hupload : cleanupBatchAssetUploads chunk.now store place with
          | none => exact .inl ⟨hcleanup, fun _ => ⟨_, rfl⟩⟩
          | some upload =>
            simp only
            split
            · exact .inl ⟨hcleanup, fun _ => ⟨_, rfl⟩⟩
            · by_cases hplace : path = place
              · subst hplace
                exact .inr (.inl ⟨hpath, upload, hcleanup ▸ hupload, rfl, Function.update_self ..⟩)
              · refine .inl ⟨(Function.update_of_ne hplace ..).trans hcleanup, fun hon => ?_⟩
                exact absurd (Except.ok.inj (hon.symm.trans hpath)) hplace
      · -- The first call.
        cases hpath : batchAssetUploadPath u id with
        | error e => exact .inl ⟨hcleanup, fun _ => ⟨_, rfl⟩⟩
        | ok place =>
          simp only
          split
          · exact .inl ⟨hcleanup, fun _ => ⟨_, rfl⟩⟩
          · rename_i hnone
            rw [Bool.not_eq_true, Option.isSome_eq_false_iff, Option.isNone_iff_eq_none] at hnone
            by_cases hplace : path = place
            · subst hplace
              rw [hcleanup] at hnone
              refine .inr (.inr ⟨hpath, hnone, ?_⟩)
              cases hsave : saveInto u chunk id (chunk.created id) with
              | mk result upload =>
                cases result with
                | error rejection => exact .inl ⟨rejection, rfl, Function.update_self ..⟩
                | ok saved => exact .inr ⟨saved, rfl, rfl, Function.update_self ..⟩
            · refine .inl ⟨?_, fun hon => absurd (Except.ok.inj (hon.symm.trans hpath)) hplace⟩
              cases saveInto u chunk id (chunk.created id) with
              | mk result upload =>
                cases result with
                | error rejection => exact (Function.update_of_ne hplace ..).trans hcleanup
                | ok saved => exact (Function.update_of_ne hplace ..).trans hcleanup

/-! ### Sequences of calls -/

/-- The uploads, and what the accepted calls have left on one of them. -/
structure History where
  store : Store
  assets : Assets

/-- The last accepted image of every position, after one more call. -/
def lastAccepted (u : Chars) (path : String) (chunk : Chunk) (result : Except Rejection Saved)
    (assets : Assets) : Assets :=
  match result with
  | .ok _ => if chunk.On u path then overlay assets (chunk.items u) else assets
  | .error _ => assets

def History.step (u : Chars) (path : String) (chunk : Chunk) (h : History) : History :=
  let (result, store) := saveBatchAssetChunk u chunk h.store
  { store, assets := lastAccepted u path chunk result h.assets }

/-- The metadata and the image files are those of the images. -/
def InStep (assets : Assets) : Option Upload → Prop
  | none => ∀ p, assets p = none
  | some upload => Represents assets upload

/-- What a call must not change when it is rejected. -/
def Upload.contents (upload : Upload) : Metadata × Files String Bytes :=
  (upload.metadata, upload.dir.files)

/-- If the call is rejected, metadata and files are as they were. -/
def RejectedUnchanged (u : Chars) (path : String) (chunk : Chunk) (h : History) : Prop :=
  ∀ rejection, (saveBatchAssetChunk u chunk h.store).1 = .error rejection →
    ((saveBatchAssetChunk u chunk h.store).2 path).map Upload.contents =
      (h.store path).map Upload.contents

structure Careful (u : Chars) (path : String) (chunk : Chunk) (h : History) : Prop where
  fresh : Fresh path chunk.now h.store
  names : chunk.On u path → ∀ upload, h.store path = some upload → Writes u chunk upload →
    ∀ i ∈ chunk.items u, encodable i.2.name = true

/-- An upload that has just been made has no images. -/
theorem created_lists (chunk : Chunk) (id : String) : Lists (fun _ => none) (chunk.created id) where
  images r := by
    refine ⟨fun hr => absurd hr List.not_mem_nil, ?_⟩
    rintro ⟨p, a, ha, -⟩
    cases ha
  once := List.nodup_nil
  files _ _ := by
    refine ⟨fun hfile => absurd hfile (Option.some_ne_none _).symm, ?_⟩
    rintro (⟨k, a, ha, -⟩ | ⟨s, hs, -⟩)
    · cases ha
    · exact absurd hs List.not_mem_nil

/-- One call keeps metadata and files in step, and changes nothing when it is rejected. -/
theorem step_inStep {h : History} (hcareful : Careful u path chunk h)
    (hstep : InStep h.assets (h.store path)) :
    InStep (h.step u path chunk).assets ((h.step u path chunk).store path) ∧
      RejectedUnchanged u path chunk h := by
  simp only [History.step, RejectedUnchanged]
  rcases save_cases u chunk hcareful.fresh with
    ⟨hsame, hrejected⟩ | ⟨hon, upload, hupload, hresult, hafter⟩ | ⟨hon, hnone, hmade⟩
  · refine ⟨?_, fun _ _ => by rw [hsame]⟩
    rw [hsame]
    cases hresult : (saveBatchAssetChunk u chunk h.store).1 with
    | error rejection => exact hstep
    | ok saved =>
      -- It was accepted, so it was on another upload.
      have hother : ¬ chunk.On u path := fun hon => by
        obtain ⟨rejection, hrejection⟩ := hrejected hon
        cases hresult.symm.trans hrejection
      rw [lastAccepted, if_neg hother]
      exact hstep
  · rw [hafter, hresult, hupload]
    rw [hupload] at hstep
    have hrep : Represents h.assets upload := hstep
    rcases saveInto_cases u chunk hrep.toLists hrep.names
        (chunk.normalizedUploadId u) with
      ⟨rejection, herror, hmetadata, hfiles⟩ | ⟨saved, hok, hnew⟩ | ⟨hwrites, hnames, -⟩
    · rw [herror]
      refine ⟨?_, fun _ _ => congrArg some (Prod.ext hmetadata hfiles)⟩
      exact {
        images := hmetadata ▸ hrep.images
        once := hmetadata ▸ hrep.once
        files := hfiles ▸ hrep.files
        names := hrep.names
        total := hmetadata ▸ hrep.total
        bound := hmetadata ▸ hrep.bound }
    · rw [hok, lastAccepted, if_pos hon]
      exact ⟨hnew, fun _ herror => by cases herror⟩
    · exact absurd (hcareful.names hon upload hupload hwrites) hnames
  · rw [hnone]
    rw [hnone] at hstep
    have hassets : h.assets = fun _ => none := funext hstep
    rcases hmade with ⟨rejection, herror, hafter⟩ | ⟨saved, hsaved, hok, hafter⟩
    · rw [hafter, herror]
      exact ⟨hstep, fun _ _ => rfl⟩
    · rw [hafter, hok, lastAccepted, if_pos hon, hassets]
      refine ⟨?_, fun _ herror => by cases herror⟩
      rcases saveInto_cases u chunk
          (created_lists chunk (chunk.normalizedUploadId u)) (fun _ _ ha => by cases ha)
          (chunk.normalizedUploadId u) with
        ⟨rejection, herror, -⟩ | ⟨saved', -, hnew⟩ | ⟨-, -, herror⟩
      · cases hsaved.symm.trans herror
      · exact hnew
      · cases hsaved.symm.trans herror

/-! ### The end of an upload -/

/-- The rows with their images, each in the order of its images. -/
def announced (assets : Assets) : Nat → List Row → List Row
  | _, [] => []
  | rowIndex, row :: rows =>
    let images := (rowPositions rowIndex row).filterMap fun p => (assets p).map fun a => (p, a)
    { row with
      imageFiles := images.map fun i => fileName i.1 i.2.suffix
      imageNames := images.map fun i => i.2.name } :: announced assets (rowIndex + 1) rows

section Consume

variable {upload : Upload}

theorem Lists.isSome_file (h : Lists assets upload) {p : Position} {a : Asset}
    (ha : assets p = some a) : (upload.dir.files (a.record p).file).isSome = true :=
  Option.isSome_iff_exists.mpr ⟨a.content, (h.file_iff _ _).mpr ⟨p, a, ha, rfl, rfl⟩⟩

/-- The loop over the rows finds every file. -/
theorem fillRows_eq (h : Lists assets upload) (rowIndex : Nat) (rows : List Row) :
    fillRows upload.records upload.dir rowIndex rows = some (announced assets rowIndex rows) := by
  induction rows generalizing rowIndex with
  | nil => rfl
  | cons row rows ih =>
    have hrecords : (rowPositions rowIndex row).filterMap upload.records.get? =
        ((rowPositions rowIndex row).filterMap fun p => (assets p).map fun a => (p, a)).map
          fun i => i.2.record i.1 := by
      rw [List.map_filterMap]
      refine List.filterMap_congr fun p _ => ?_
      rw [h.get?_records, Option.map_map]
      rfl
    have hfiles : ¬ (((rowPositions rowIndex row).filterMap upload.records.get?).any fun r =>
        (upload.dir.files r.file).isNone) = true := by
      rw [List.any_eq_true]
      rintro ⟨r, hr, hmissing⟩
      obtain ⟨p, -, hp⟩ := List.mem_filterMap.mp hr
      rw [h.get?_records] at hp
      obtain ⟨a, ha, rfl⟩ := Option.map_eq_some_iff.mp hp
      have hfile := h.isSome_file ha
      rw [Option.isNone_iff_eq_none.mp hmissing] at hfile
      cases hfile
    rw [fillRows, if_neg hfiles, ih, hrecords, announced, List.map_map, List.map_map]
    rfl

theorem mem_keys_records (h : Lists assets upload) (p : Position) :
    p ∈ upload.records.items.map Prod.fst ↔ (assets p).isSome = true := by
  rw [← Dict.contains_iff_mem_keys, Dict.contains, h.get?_records, Option.isSome_map]

/-- An upload ends exactly when its positions are those that the rows announce, and then every row
has its images. -/
theorem consume_cases (h : Lists assets upload) {uploadId : String}
    (hpath : batchAssetUploadPath u uploadId = .ok path) (hupload : store path = some upload)
    (rows : List Row) :
    let result := (consumeBatchAssetUpload u uploadId upload.metadata.ownerTokenHash
      upload.metadata.batchId rows store).1
    ((∃ rejection, result = .error rejection) ∧
        ¬ ∀ p, (assets p).isSome = true ↔ p ∈ expectedPositions 1 rows) ∨
      (result = .ok (announced assets 1 rows, upload) ∧
        ∀ p, (assets p).isSome = true ↔ p ∈ expectedPositions 1 rows) := by
  have hload : loadBatchAssetUpload u uploadId store = .ok (path, upload) := by
    unfold loadBatchAssetUpload
    rw [hpath]
    simp only [hupload]
  intro result
  simp only [result, consumeBatchAssetUpload, hload]
  rw [if_neg (by simp)]
  split
  · rename_i hsame
    refine .inr ⟨by rw [fillRows_eq h], fun p => ?_⟩
    rw [← mem_keys_records h]
    exact ⟨fun hp => hsame.1 hp, fun hp => hsame.2 hp⟩
  · rename_i hother
    refine .inl ⟨⟨_, rfl⟩, fun hsame => hother ⟨fun p hp => ?_, fun p hp => ?_⟩⟩
    · exact (hsame p).mp ((mem_keys_records h p).mp hp)
    · exact (mem_keys_records h p).mpr ((hsame p).mpr hp)

/-- A list of rows ends the upload exactly when it announces the images, and has them then. -/
def EndsAsAnnounced (u : Chars) (path : String) (h : History) : Prop :=
  ∀ uploadId upload rows, batchAssetUploadPath u uploadId = .ok path → h.store path = some upload →
    let result := (consumeBatchAssetUpload u uploadId upload.metadata.ownerTokenHash
      upload.metadata.batchId rows h.store).1
    ((∃ filled, result = .ok filled) ↔
        ∀ p, (h.assets p).isSome = true ↔ p ∈ expectedPositions 1 rows) ∧
      ∀ filled, result = .ok filled → filled = (announced h.assets 1 rows, upload)

theorem endsAsAnnounced {h : History} (hstep : InStep h.assets (h.store path)) :
    EndsAsAnnounced u path h := by
  intro uploadId upload rows hpath hupload
  rw [hupload] at hstep
  have hrep : Represents h.assets upload := hstep
  intro result
  rcases consume_cases hrep.toLists hpath hupload rows with
    ⟨⟨rejection, herror⟩, hother⟩ | ⟨hok, hsame⟩
  · refine ⟨iff_of_false ?_ hother, ?_⟩
    · rintro ⟨filled, hfilled⟩
      cases herror.symm.trans hfilled
    · intro filled hfilled
      cases herror.symm.trans hfilled
  · exact ⟨iff_of_true ⟨_, hok⟩ hsame, fun filled hfilled => Except.ok.inj (hfilled.symm.trans hok)⟩

end Consume

/-! ### The law -/

/-- In a run of careful calls, a call that is rejected changes nothing, metadata and files are in
step throughout, and the upload can be ended with the rows that announce its images. -/
theorem chunks_in_step {h : History} {chunks : List Chunk}
    (hstart : InStep h.assets (h.store path))
    (hcareful : AllSteps (History.step u path) (Careful u path) chunks h) :
    AllSteps (History.step u path) (RejectedUnchanged u path) chunks h ∧
      Throughout (History.step u path)
        (fun h => InStep h.assets (h.store path) ∧ EndsAsAnnounced u path h) chunks h := by
  have hstep : ∀ chunk h, InStep h.assets (h.store path) → Careful u path chunk h →
      InStep (History.step u path chunk h).assets ((History.step u path chunk h).store path) :=
    fun chunk h hin hcareful => (step_inStep hcareful hin).1
  constructor
  · exact allSteps_of_invariant hstep (fun chunk h hin hcareful => (step_inStep hcareful hin).2)
      hstart hcareful
  · exact (throughout_of_allSteps hstep hstart hcareful).mono fun h hin =>
      ⟨hin, endsAsAnnounced hin⟩

/-! ### Three calls -/

def sampleId : String := "0123456789abcdef0123456789abcdef"

/-- An image for the first place of the first row. -/
def sampleChunk (uploadId filename : String) (name : Text) (content : Bytes) : Chunk where
  ownerTokenHash := "owner"
  batchId := "batch"
  uploadId := uploadId
  entries := [{ rowIndex := some 1, imageIndex := some 1, name }]
  uploads := [{ filename, content }]
  maxImageCount := 9
  now := 0
  utcNow := "2024-01-01T00:00:00+00:00"
  newId := sampleId
  tokens _ := ⟨"0011223344556677", rfl⟩
  metadataToken := "00112233"

def firstChunk : Chunk :=
  sampleChunk "" "cat.png" (textOf "cat.png") [0x89, 0x50, 0x4e, 0x47, 0x0d, 0x0a, 0x1a, 0x0a]

def secondChunk : Chunk := sampleChunk sampleId "cat.jpg" (textOf "cat.jpg") [0xff, 0xd8, 0xff, 0x00]

/-- The second call with a name that ends in half of a surrogate pair. -/
def halfNamed : Chunk := sampleChunk sampleId "cat.jpg" [99, 0xd800] [0xff, 0xd8, 0xff, 0x00]

def noUploads : History where
  store _ := none
  assets _ := none

theorem chunks_in_step_replaced :
    AllSteps (History.step .ascii sampleId) (RejectedUnchanged .ascii sampleId)
        [firstChunk, secondChunk] noUploads ∧
      Throughout (History.step .ascii sampleId)
        (fun h => InStep h.assets (h.store sampleId) ∧ EndsAsAnnounced .ascii sampleId h)
        [firstChunk, secondChunk] noUploads := by
  refine chunks_in_step (fun _ => rfl) ⟨⟨?_, ?_⟩, ⟨?_, ?_⟩, trivial⟩
  · intro upload hupload
    cases hupload
  · intro _ upload hupload
    cases hupload
  · show ∀ upload ∈ (History.step .ascii sampleId firstChunk noUploads).store sampleId,
      (0 : Int) - maxBatchReferenceAgeSeconds ≤ upload.dir.mtime
    decide
  · intro _ upload _ _
    decide

/-- The name cannot be written, but the image has replaced the first one by then. -/
theorem half_named_replaces :
    ¬ AllSteps (History.step .ascii sampleId) (RejectedUnchanged .ascii sampleId)
      [firstChunk, halfNamed] noUploads := by
  intro h
  have hunchanged := h.2.1 .raised (by decide)
  have hfile := congrArg (fun contents => contents.map fun c => c.2 "000001-01.png") hunchanged
  revert hfile
  decide

end FetchTask.BatchAssets
