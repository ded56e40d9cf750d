import FetchTask.Lib.Raising
import FetchTask.Runtime
import Mathlib.Logic.Function.Basic

/-!
The deployment controller (`scripts/update_controller.py`).

`deploy` pulls the repository, builds an image and restarts the two services with
it; when any command raises, it resets the repository, puts the `rollback` image
under the tag of the services and restarts them. The commands of git and docker
act on a `Host`, and how each of them ends is an input.
-/

namespace FetchTask.UpdateController

open Raising

abbrev Commit := String

abbrev ImageId := String

/-- What a commit says about the image: the text of `VERSION`, where it can be read, and
the tag that `compose.yaml` gives to the services where the environment gives none. -/
structure Checkout where
  version : Option String
  composeTag : String

/-- What `urlparse` finds in a text. -/
structure Url where
  scheme : String
  hostname : String
  path : String

/-- The environment, which is the one of `docker compose` too. -/
structure Setting where
  chars : Chars
  urlparse : String → Except String Url
  imageRepository : String
  imageTag : String
  expectedOrigin : String
  checkout : Commit → Checkout

/-- The repository on its branch, and docker. `changes` is what `uncommitted_paths` reads
from the status. -/
structure Host where
  head : Commit
  upstream : Commit
  changes : List String := []
  images : String → Option ImageId
  api : Option ImageId
  worker : Option ImageId

/-- A command raises with its error output. -/
abbrev Command := EStateM String Host

/-! ### How commands end -/

/-- The error of a command that changes nothing, if it raises. -/
abbrev Reply := Option String

/-- The end of a command that changes something. One that raises may have been carried
out all the same, when its time-out stopped it. -/
inductive Outcome
  | ok
  | raised (error : String) (done : Bool)
  deriving DecidableEq

def Outcome.done : Outcome → Bool
  | .ok => true
  | .raised _ done => done

/-- `docker compose up` that raises leaves each service with some container or none. -/
inductive Recreated
  | ok
  | raised (error : String) (api worker : Option ImageId)

/-- How every command of one `deploy` ends, and what it finds outside the host. -/
structure Outcomes where
  originUrl : Except String String
  status : Reply := none
  revParse : Reply := none
  ps : Reply := none
  inspect : Reply := none
  tagRollback : Outcome := .ok
  fetch : Outcome := .ok
  fetched : Commit
  target : Reply := none
  isAncestor : Reply := none
  merge : Outcome := .ok
  runtimeVersion : String
  tagCurrent : Outcome := .ok
  build : Outcome := .ok
  built : ImageId
  up : Recreated := .ok
  health : Reply := none
  reset : Outcome := .ok
  tagBack : Outcome := .ok
  upBack : Recreated := .ok
  rebuilt : ImageId
  healthBack : Reply := none

def Reply.answer {α : Type} (r : Reply) (f : Host → α) : Command α := fun h =>
  match r with
  | none => .ok (f h) h
  | some error => .error error h

def Outcome.run (o : Outcome) (effect : Host → Host) : Command Unit := fun h =>
  match o with
  | .ok => .ok () (effect h)
  | .raised error done => .error error (if done then effect h else h)

/-! ### Names -/

/-- `s.rstrip("/")`. -/
def rstripSlashes (s : String) : String :=
  String.ofList (s.toList.reverse.dropWhile (· == '/')).reverse

/-- `s.strip("/")`. -/
def stripSlashes (s : String) : String :=
  rstripSlashes (String.ofList (s.toList.dropWhile (· == '/')))

def removePrefix? (p s : String) : Option String :=
  if p.toList.isPrefixOf s.toList then some (String.ofList (s.toList.drop p.toList.length)) else none

def removeSuffix (p s : String) : String :=
  if p.toList.isSuffixOf s.toList then
    String.ofList (s.toList.take (s.toList.length - p.toList.length))
  else s

namespace Setting

variable (S : Setting)

def normalizedRepository (value : String) : Except String String := do
  let repository := rstripSlashes (S.chars.strip value)
  let repository :=
    match removePrefix? "git@github.com:" repository with
    | some path => "https://github.com/" ++ path
    | none => repository
  let parsed ← S.urlparse repository
  if parsed.scheme ≠ "https" ∨ parsed.hostname ≠ "github.com" then
    .error "repository origin is not an allowed GitHub URL"
  else
    .ok (S.chars.lower (removeSuffix ".git" ("https://github.com/" ++ stripSlashes parsed.path)))

def readVersion (c : Commit) : Except String String :=
  match (S.checkout c).version with
  | none => .error "No such file or directory: VERSION"
  | some text => .ok (S.chars.strip text)

def imageName (c : Commit) : Except String String :=
  let named (tag : String) := S.imageRepository ++ ":" ++ tag
  if S.imageTag ≠ "" then .ok (named S.imageTag)
  else
    match S.readVersion c with
    | .error error => .error error
    | .ok tag => if tag = "" then .error "version file is empty: VERSION" else .ok (named tag)

def rollbackImageName : String := S.imageRepository ++ ":rollback"

/-- The image of the services, in `compose.yaml`. -/
def serviceImage (c : Commit) : String :=
  S.imageRepository ++ ":" ++ textOr S.imageTag (S.checkout c).composeTag

end Setting

/-! ### Docker -/

def Host.tag (h : Host) (name : String) (image : ImageId) : Host :=
  { h with images := Function.update h.images name (some image) }

def dockerTag (o : Outcome) (source : Option ImageId) (name : String) : Command Unit :=
  match source with
  | none => EStateM.throw "No such image"
  | some image => o.run fun h => h.tag name image

/-- A container stands for its image. -/
def serviceContainerId (o : Outcomes) : Command ImageId := do
  match ← o.ps.answer Host.api with
  | none => EStateM.throw "deployment service is not running: api"
  | some container => pure container

def runningServiceImage (o : Outcomes) : Command ImageId := do
  let container ← serviceContainerId o
  o.inspect.answer fun _ => container

variable (S : Setting)

def composeBuild (o : Outcome) (built : ImageId) : Command Unit :=
  o.run fun h => h.tag (S.serviceImage h.head) built

/-- The services get the image of their tag; one that is missing is built. -/
def composeUp (o : Recreated) (built : ImageId) : Command Unit := fun h =>
  match o with
  | .ok =>
    let image := (h.images (S.serviceImage h.head)).getD built
    .ok () { h.tag (S.serviceImage h.head) image with api := some image, worker := some image }
  | .raised error api worker => .error error { h with api, worker }

/-! ### Deploying -/

/-- The last values of `STATE`. -/
structure Progress where
  updating : Bool := false
  phase : String
  error : String := ""
  updated : Bool
  updateAvailable : Option Bool := some false

def maxErrorLength : Nat := 5000

/-- `s[-n:]`. -/
def lastText (n : Nat) (s : String) : String := String.ofList (s.toList.drop (s.toList.length - n))

/-- `deploy` until it has read `before`. -/
def checkRepository (o : Outcomes) : Command Commit := do
  let url ← result o.originUrl
  let origin ← result (S.normalizedRepository url)
  let expected ← result (S.normalizedRepository S.expectedOrigin)
  if origin ≠ expected then
    EStateM.throw "repository origin does not match the configured update source"
  else
    let changes ← o.status.answer Host.changes
    if changes ≠ [] then
      EStateM.throw ("application repository has uncommitted changes: " ++
        ", ".intercalate (changes.take 10))
    else o.revParse.answer Host.head

/-- The merge, where `code_updated`. -/
def fastForward (o : Outcomes) (before target : Commit) : Command Unit :=
  if before ≠ target then do
    o.isAncestor.answer fun _ => ()
    o.merge.run fun h => { h with head := target }
  else pure ()

/-- `deploy` from the running image on. -/
def update (o : Outcomes) (before : Commit) : Command Progress := do
  let deployed ← runningServiceImage o
  dockerTag o.tagRollback (some deployed) S.rollbackImageName
  o.fetch.run fun h => { h with upstream := o.fetched }
  let target ← o.target.answer Host.upstream
  fastForward o before target
  let head ← EStateM.get >>= fun h => pure h.head
  let targetVersion ← result (S.readVersion head)
  let targetImage ← result (S.imageName head)
  if before = target ∧ o.runtimeVersion = targetVersion then
    dockerTag o.tagCurrent (some deployed) targetImage
    pure { phase := "已是最新", updated := false }
  else
    composeBuild S o.build o.built
    composeUp S o.up o.built
    o.health.answer fun _ => ()
    pure { phase := "更新完成", updated := true }

def rollback (o : Outcomes) (before : Commit) : Command Unit := do
  o.reset.run fun h => { h with head := before, changes := [] }
  let h ← EStateM.get
  let name ← result (S.imageName h.head)
  dockerTag o.tagBack (h.images S.rollbackImageName) name
  composeUp S o.upBack o.rebuilt
  o.healthBack.answer fun _ => ()

def failed (error : String) : Progress :=
  { phase := "更新失败", error, updated := false, updateAvailable := none }

def deploy (o : Outcomes) (h : Host) : Progress × Host :=
  match checkRepository S o h with
  | .error error h => (failed (lastText maxErrorLength error), h)
  | .ok before h =>
    match update S o before h with
    | .ok progress h => (progress, h)
    | .error error h =>
      let error := lastText maxErrorLength error
      match rollback S o before h with
      | .ok _ h => (failed error, h)
      | .error rollbackError h =>
        (failed (lastText maxErrorLength
          (error ++ "\nrollback failed: " ++ lastText 1000 rollbackError)), h)

end FetchTask.UpdateController
