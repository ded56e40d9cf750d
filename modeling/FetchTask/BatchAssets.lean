import FetchTask.Runtime
import FetchTask.Lib.Dict
import FetchTask.Lib.Padded
import FetchTask.Lib.Staging
import Mathlib.Algebra.Ring.Nat
import Mathlib.Data.List.Sort

/-!
Reference images of a batch, uploaded in chunks (`app/main.py`).

An upload is a directory of image files and a metadata file that lists them. A
chunk is saved in three passes: every image is written under a temporary name, the
sizes are added up, and then the images take their places one by one and the
metadata is written. What raises before the last pass is undone. `consume` moves
a complete upload to its job.

The names of images are texts with lone surrogates, as the language reads them
from JSON; such a text cannot be written to a file. The lock around the calls
makes them a sequence, in which other operations on files succeed. Times are in
seconds, and random tokens are arguments.
-/

namespace FetchTask.BatchAssets

open Staging Padded

def maxUploadBytes : Nat := 20 * 1024 * 1024
def maxBatchAssetUploadBytes : Nat := 2 * 1024 * 1024 * 1024
def maxBatchAssetChunkFiles : Nat := 16
def maxBatchReferenceAgeSeconds : Int := 24 * 60 * 60
def maxReferenceImageNameLength : Nat := 180

/-! ### Texts -/

/-- What comes after the last occurrence of a character. -/
def afterLast (sep : Nat) (t : Text) : Text := (t.reverse.takeWhile (· != sep)).reverse

def stripText (t : Text) : Text :=
  let space (c : Nat) : Bool := isStrSpace (Char.ofNat c)
  ((t.dropWhile space).reverse.dropWhile space).reverse

/-- `Path(t).name`. -/
def pathName (t : Text) : Text :=
  ((t.splitOn 47).filter fun part => part ≠ [] ∧ part ≠ [46]).getLastD []

/-- `Path(t).suffix`. -/
def pathSuffix (t : Text) : Text :=
  let name := pathName t
  let extension := afterLast 46 name
  if extension ≠ [] ∧ extension.length + 1 < name.length then 46 :: extension else []

/-- `Path(s).suffix.lower()`. -/
def lowerSuffix (u : Chars) (s : String) : String :=
  u.lower (String.ofList ((pathSuffix (textOf s)).map Char.ofNat))

/-! ### Images -/

abbrev Bytes := List UInt8

/-- `IMAGE_MAGIC`. -/
def imageMagic : List (String × List Bytes) :=
  [(".jpg", [[0xff, 0xd8, 0xff]]), (".jpeg", [[0xff, 0xd8, 0xff]]),
    (".png", [[0x89, 0x50, 0x4e, 0x47, 0x0d, 0x0a, 0x1a, 0x0a]]), (".webp", [[0x52, 0x49, 0x46, 0x46]])]

/-- `ALLOWED_IMAGE_SUFFIXES`, which are also those of `IMAGE_MAGIC`. -/
def imageSuffixes : List String := imageMagic.map Prod.fst

abbrev Suffix := { s : String // s ∈ imageSuffixes }

/-- `_reference_image_name`. -/
def referenceImageName (u : Chars) (value : Text) (index : Nat) (suffix : String) : Text :=
  let raw := afterLast 47 (value.map fun c => if c = 92 then 47 else c)
  let cleaned := stripText (raw.filter fun c => 32 ≤ c && c ≠ 127)
  let fallbackSuffix := if u.lower suffix ∈ imageSuffixes then u.lower suffix else ""
  if cleaned = [] then textOf ("参考图-" ++ toString (max 1 index) ++ fallbackSuffix)
  else if cleaned.length ≤ maxReferenceImageNameLength then cleaned
  else
    let extension := (pathSuffix cleaned).take 16
    let stemLimit := max 1 (maxReferenceImageNameLength - extension.length)
    if extension = [] then cleaned.take maxReferenceImageNameLength
    else (cleaned.take (cleaned.length - extension.length)).take stemLimit ++ extension

inductive Rejection
  | http (statusCode : Nat) (detail : String)
  /-- Another exception, from `int` or from a file operation. -/
  | raised
  deriving DecidableEq

/-! ### Directories -/

/-- The files of an upload other than its metadata. -/
structure Dir where
  files : Files String Bytes
  mtime : Int

def Dir.write (now : Int) (name : String) (content : Bytes) (d : Dir) : Dir :=
  { files := Staging.write name content d.files, mtime := now }

/-- `unlink(missing_ok=True)`. -/
def Dir.unlink (now : Int) (name : String) (d : Dir) : Dir :=
  { files := Staging.unlink name d.files, mtime := if (d.files name).isSome then now else d.mtime }

/-- `replace`. -/
def Dir.rename (now : Int) (name new : String) (d : Dir) : Dir :=
  { files := Staging.rename name new d.files, mtime := now }

/-- `stat().st_size`. -/
def Dir.size (d : Dir) (name : String) : Nat := (d.files name).elim 0 List.length

/-- An uploaded file: its name, and what is read from it. -/
structure UploadFile where
  filename : String
  content : Bytes

/-- `_save_uploaded_image`. -/
def saveUploadedImage (u : Chars) (upload : UploadFile) (target : String) (now : Int) (d : Dir) :
    Option Rejection × Dir :=
  match imageMagic.lookup (lowerSuffix u target) with
  | none => (some (.http 400 "unsupported image type"), d)
  | some magics =>
    if maxUploadBytes < upload.content.length then
      -- The part that was read before the limit has been written.
      (some (.http 413 "image is too large"),
        d.write now target (upload.content.take maxUploadBytes))
    else if magics.any fun magic => magic.isPrefixOf (upload.content.take 16) then
      (none, d.write now target upload.content)
    else
      (some (.http 400 "invalid image content"),
        (d.write now target upload.content).unlink now target)

/-! ### Uploads -/

/-- A row and the index of an image in it, both from one on. -/
abbrev Position := Nat × Nat

/-- An item of `images`. -/
structure Record where
  rowIndex : Nat
  imageIndex : Nat
  file : String
  originalName : Text
  size : Nat
  deriving DecidableEq

def Record.position (r : Record) : Position := (r.rowIndex, r.imageIndex)

structure Metadata where
  id : String
  ownerTokenHash : String
  batchId : String
  images : List Record := []
  createdAt : String
  totalBytes : Option Nat := none
  updatedAt : String := ""

structure Upload where
  metadata : Metadata
  dir : Dir

/-- `{(row_index, image_index): item for item in images}`. -/
def Upload.records (upload : Upload) : Dict Position Record :=
  Dict.ofList Record.position upload.metadata.images

/-- The directories under `batch_asset_uploads`. -/
abbrev Store := String → Option Upload

/-- `_batch_asset_upload_path`, as the name of the directory. -/
def batchAssetUploadPath (u : Chars) (uploadId : String) : Except String String :=
  let normalized := u.lower (u.strip uploadId)
  if normalized.length ≠ 32 ∨ normalized.toList.any fun c => !"0123456789abcdef".toList.contains c then
    .error "invalid batch asset upload id"
  else .ok normalized

/-- `_cleanup_batch_asset_uploads`. -/
def cleanupBatchAssetUploads (now : Int) (store : Store) : Store :=
  fun id => (store id).filter fun upload => now - maxBatchReferenceAgeSeconds ≤ upload.dir.mtime

/-- `_load_batch_asset_upload`. -/
def loadBatchAssetUpload (u : Chars) (uploadId : String) (store : Store) :
    Except Rejection (String × Upload) :=
  match batchAssetUploadPath u uploadId with
  | .error _ => .error (.http 400 "批量参考图上传已失效，请重新上传")
  | .ok path =>
    match store path with
    | none => .error (.http 400 "批量参考图上传已失效，请重新上传")
    | some upload => .ok (path, upload)

/-! ### A chunk -/

/-- An entry of the manifest; an index is `none` where `int` raises. -/
structure Entry where
  rowIndex : Option Int
  imageIndex : Option Int
  name : Text

/-- `secrets.token_hex(8)`. -/
abbrev Token := { s : String // s.length = 16 }

structure Chunk where
  ownerTokenHash : String
  batchId : String
  uploadId : String
  entries : List Entry
  uploads : List UploadFile
  /-- `max_image_count` of the settings. -/
  maxImageCount : Int
  now : Int
  utcNow : String
  /-- The id of a new upload. -/
  newId : String
  /-- The tokens of the temporary images, and of the temporary metadata. -/
  tokens : Nat → Token
  metadataToken : String

/-- The name of an image file. -/
def fileName (p : Position) (suffix : Suffix) : String :=
  String.ofList (padded 6 p.1 ++ '-' :: (padded 2 p.2 ++ suffix.val.toList))

def temporaryName (token : Token) (offset : Nat) (suffix : Suffix) : String :=
  String.ofList ('.' :: (token.val.toList ++ '-' :: (padded 2 offset ++ suffix.val.toList)))

/-- An image that waits for its place. -/
structure Prepared where
  key : Position
  temporary : String
  filename : String
  originalName : Text

/-- What the passes over a chunk change before the metadata is written. -/
structure Work where
  dir : Dir
  temporaryPaths : List String := []
  prepared : List Prepared := []

/-- The first pass. -/
def prepare (u : Chars) (chunk : Chunk) :
    Nat → List (Entry × UploadFile) → List Position → Work → Option Rejection × Work
  | _, [], _, work => (none, work)
  | offset, (entry, upload) :: rest, seen, work =>
    match entry.rowIndex, entry.imageIndex with
    | some rowIndex, some imageIndex =>
      let key := (rowIndex.toNat, imageIndex.toNat)
      if rowIndex < 1 ∨ 2000 < rowIndex ∨ imageIndex < 1 ∨ chunk.maxImageCount < imageIndex ∨
          key ∈ seen then
        (some (.http 400 "批量参考图位置无效"), work)
      else if h : lowerSuffix u upload.filename ∈ imageSuffixes then
        let suffix : Suffix := ⟨lowerSuffix u upload.filename, h⟩
        let temporary := temporaryName (chunk.tokens offset) offset suffix
        let work := { work with temporaryPaths := work.temporaryPaths ++ [temporary] }
        match saveUploadedImage u upload temporary chunk.now work.dir with
        | (some rejection, dir) => (some rejection, { work with dir })
        | (none, dir) =>
          let name := if entry.name = [] then textOf upload.filename else entry.name
          let item : Prepared :=
            { key, temporary, filename := fileName key suffix
              originalName := referenceImageName u name key.2 suffix }
          prepare u chunk (offset + 1) rest (key :: seen)
            { work with dir, prepared := work.prepared ++ [item] }
      else (some (.http 400 "unsupported image type"), work)
    | _, _ => (some .raised, work)

/-- What is done about the temporary files when a chunk is rejected. -/
def discard (now : Int) (temporaryPaths : List String) (d : Dir) : Dir :=
  temporaryPaths.foldl (fun d name => d.unlink now name) d

/-- The last pass: the directory, the records, and the temporary files that are left. -/
def commit (now : Int) :
    List Prepared → Dir → Dict Position Record → List String → Dir × Dict Position Record × List String
  | [], dir, existing, temporaryPaths => (dir, existing, temporaryPaths)
  | p :: rest, dir, existing, temporaryPaths =>
    let previousName := ((existing.get? p.key).map Record.file).getD ""
    let dir := if previousName ≠ "" ∧ previousName ≠ p.filename then dir.unlink now previousName else dir
    let dir := dir.rename now p.temporary p.filename
    let record : Record :=
      { rowIndex := p.key.1, imageIndex := p.key.2, file := p.filename
        originalName := p.originalName, size := dir.size p.filename }
    commit now rest dir (existing.set p.key record) (temporaryPaths.erase p.temporary)

/-- The order of `sorted` on positions. -/
def Position.le (p q : Position) : Prop := p.1 < q.1 ∨ p.1 = q.1 ∧ p.2 ≤ q.2

instance Position.le.decidable : DecidableRel Position.le := fun p q =>
  inferInstanceAs (Decidable (p.1 < q.1 ∨ p.1 = q.1 ∧ p.2 ≤ q.2))

/-- `[existing[key] for key in sorted(existing)]`. -/
def sortedRecords (existing : Dict Position Record) : List Record :=
  (existing.items.insertionSort fun e f => Position.le e.1 f.1).map Prod.snd

structure Saved where
  id : String
  uploadedCount : Nat
  totalBytes : Nat
  deriving DecidableEq

/-- The sizes of the records whose positions are not among `replaced`. -/
def retainedBytes (replaced : List Position) (existing : Dict Position Record) : Nat :=
  ((existing.items.filter fun e => e.1 ∉ replaced).map fun e => e.2.size).sum

/-- The `try` of `_save_batch_asset_chunk` on the directory and the metadata of an upload, with
the removal of the temporary files where it raises. -/
def saveInto (u : Chars) (chunk : Chunk) (id : String) (upload : Upload) :
    Except Rejection Saved × Upload :=
  let existing := upload.records
  match prepare u chunk 1 (chunk.entries.zip chunk.uploads) [] { dir := upload.dir } with
  | (some rejection, work) =>
    (.error rejection, { upload with dir := discard chunk.now work.temporaryPaths work.dir })
  | (none, work) =>
    let replacedKeys := work.prepared.map Prepared.key
    let totalBytes := retainedBytes replacedKeys existing +
      (work.prepared.map fun p => work.dir.size p.temporary).sum
    if maxBatchAssetUploadBytes < totalBytes then
      (.error (.http 413 "批量参考图总大小超过 2 GB"),
        { upload with dir := discard chunk.now work.temporaryPaths work.dir })
    else
      let (dir, existing, temporaryPaths) :=
        commit chunk.now work.prepared work.dir existing work.temporaryPaths
      let metadata : Metadata :=
        { upload.metadata with
          images := sortedRecords existing, totalBytes := some totalBytes, updatedAt := chunk.utcNow }
      if metadata.images.all fun r => encodable r.originalName then
        (.ok { id, uploadedCount := metadata.images.length, totalBytes },
          { metadata, dir := { dir with mtime := chunk.now } })
      else
        -- The temporary metadata file has been opened, and is left.
        let name := "metadata.json." ++ chunk.metadataToken ++ ".tmp"
        (.error .raised,
          { upload with dir := discard chunk.now temporaryPaths (dir.write chunk.now name []) })

/-- `normalized_upload_id`. -/
def Chunk.normalizedUploadId (u : Chars) (chunk : Chunk) : String :=
  textOr (u.lower (u.strip chunk.uploadId)) chunk.newId

/-- An upload whose directory has just been made. -/
def Chunk.created (chunk : Chunk) (id : String) : Upload where
  metadata :=
    { id, ownerTokenHash := chunk.ownerTokenHash, batchId := chunk.batchId
      createdAt := chunk.utcNow }
  dir := { files := fun _ => none, mtime := chunk.now }

/-- `_save_batch_asset_chunk`. -/
def saveBatchAssetChunk (u : Chars) (chunk : Chunk) (store : Store) :
    Except Rejection Saved × Store :=
  if chunk.entries.length ≠ chunk.uploads.length ∨ chunk.uploads = [] then
    (.error (.http 400 "批量参考图分片不完整"), store)
  else if maxBatchAssetChunkFiles < chunk.uploads.length then
    (.error (.http 400 "单次上传的参考图数量过多"), store)
  else
    let store := cleanupBatchAssetUploads chunk.now store
    let id := chunk.normalizedUploadId u
    if chunk.uploadId ≠ "" then
      match loadBatchAssetUpload u id store with
      | .error rejection => (.error rejection, store)
      | .ok (path, upload) =>
        if upload.metadata.ownerTokenHash ≠ chunk.ownerTokenHash ∨
            upload.metadata.batchId ≠ chunk.batchId then
          (.error (.http 403 "批量参考图上传记录不可用"), store)
        else
          let (result, upload) := saveInto u chunk id upload
          (result, Function.update store path (some upload))
    else
      match batchAssetUploadPath u id with
      | .error _ => (.error .raised, store)
      | .ok path =>
        if (store path).isSome then (.error .raised, store)
        else
          match saveInto u chunk id (chunk.created id) with
          | (.error rejection, _) => (.error rejection, Function.update store path none)
          | (.ok saved, upload) => (.ok saved, Function.update store path (some upload))

/-! ### The end of an upload -/

/-- A row of the job. -/
structure Row where
  imageCount : Int
  imageFiles : List String := []
  imageNames : List Text := []
  deriving DecidableEq

/-- The positions of the images that a row announces. -/
def rowPositions (rowIndex : Nat) (row : Row) : List Position :=
  (List.range' 1 row.imageCount.toNat).map fun imageIndex => (rowIndex, imageIndex)

/-- The positions that all rows announce, where the first row has the index `rowIndex`. -/
def expectedPositions : Nat → List Row → List Position
  | _, [] => []
  | rowIndex, row :: rows => rowPositions rowIndex row ++ expectedPositions (rowIndex + 1) rows

/-- The loop over the rows; `none` where a file is missing. -/
def fillRows (records : Dict Position Record) (d : Dir) : Nat → List Row → Option (List Row)
  | _, [] => some []
  | rowIndex, row :: rows =>
    let rowRecords := (rowPositions rowIndex row).filterMap records.get?
    if rowRecords.any fun r => (d.files r.file).isNone then none
    else
      (fillRows records d (rowIndex + 1) rows).map fun rest =>
        { row with
          imageFiles := rowRecords.map Record.file
          imageNames := rowRecords.map Record.originalName } :: rest

/-- `_consume_batch_asset_upload`: the rows with their images, and the upload as it is moved to
the job. -/
def consumeBatchAssetUpload (u : Chars) (uploadId ownerTokenHash batchId : String) (rows : List Row)
    (store : Store) : Except Rejection (List Row × Upload) × Store :=
  match loadBatchAssetUpload u uploadId store with
  | .error rejection => (.error rejection, store)
  | .ok (path, upload) =>
    if upload.metadata.ownerTokenHash ≠ ownerTokenHash ∨ upload.metadata.batchId ≠ batchId then
      (.error (.http 403 "批量参考图上传记录不可用"), store)
    else
      let records := upload.records
      let keys := records.items.map Prod.fst
      let expected := expectedPositions 1 rows
      if keys ⊆ expected ∧ expected ⊆ keys then
        match fillRows records upload.dir 1 rows with
        | none => (.error (.http 400 "批量任务参考图上传不完整，请重新提交"), store)
        | some rows => (.ok (rows, upload), Function.update store path none)
      else (.error (.http 400 "批量任务参考图上传不完整，请重新提交"), store)

end FetchTask.BatchAssets
