import Mathlib.Data.String.Basic
import Rustchat.EmailAccounts
import Rustchat.Lib.Prog
import Rustchat.WireEvents

/-!
# Upload sessions (`api/v4/uploads.rs`)

A request of `upload_data` reads the session, appends its body to the data and writes the offset it computed from what
it read. If this offset reaches the declared size it reads the data, stores it with its thumbnail and its preview,
inserts the file and deletes the session. Each statement is an action of its own; those of several requests interleave.
-/

namespace Rustchat

structure UploadSession where
  userId : Uuid
  channelId : Uuid
  filename : String
  fileSize : Int
  fileOffset : Int
  fileData : Option (List UInt8)
  expiresAt : Int

/-- The columns that `upload_data` reads first. -/
structure UploadSessionRow where
  userId : Uuid
  channelId : Uuid
  filename : String
  fileSize : Int
  fileOffset : Int

def UploadSession.row (session : UploadSession) : UploadSessionRow :=
  { userId := session.userId, channelId := session.channelId, filename := session.filename,
    fileSize := session.fileSize, fileOffset := session.fileOffset }

structure UploadedFile where
  uploaderId : Uuid
  channelId : Uuid
  name : String
  key : String
  mimeType : String
  size : Int
  sha256 : String
  width : Option Int
  height : Option Int
  hasThumbnail : Bool
  thumbnailKey : Option String
  createdAt : Int

/-- The widths of the columns of `files`. -/
def UploadedFile.fits (file : UploadedFile) : Bool :=
  fitsColumn 255 file.name && fitsColumn 512 file.key && fitsColumn 128 file.mimeType && fitsColumn 64 file.sha256 &&
    file.thumbnailKey.all (fitsColumn 512)

/-- The rows of `files` are keyed by their ids, and no two have one `key`. -/
structure UploadDb where
  sessions : Assoc Uuid UploadSession
  files : Assoc Uuid {file : UploadedFile // file.fits = true}
  -- the bucket
  objects : Assoc String (List UInt8)
  keys_unique : ∀ id id' file file', files.lookup id = some file → files.lookup id' = some file' →
    file.1.key = file'.1.key → id = id'

/-- `image::ImageFormat` -/
inductive ImageFormat where
  | Png
  | Jpeg
  | Gif
  | WebP
  | Bmp
  | Tiff
  | Other

/-- What the blocking task makes of the data of an image. -/
structure ProcessedImage where
  width : Option Int
  height : Option Int
  thumbnailData : Option (List UInt8)
  previewData : Option (List UInt8)

structure UploadEnv where
  -- `Uuid::parse_str`
  parseUuid : String → Option Uuid
  -- `mime_guess::from_path(..).first_or_octet_stream()`
  guessMime : String → String
  -- `image::guess_format`
  guessFormat : List UInt8 → Option ImageFormat
  -- the digest as a hexadecimal text
  sha256 : List UInt8 → String
  processImage : List UInt8 → ProcessedImage

/-- What a request takes from outside: an id for a file, and the time. -/
structure FileDraw where
  fileId : Uuid
  now : Int

structure UploadRequest where
  userId : Uuid
  uploadId : String
  body : List UInt8
  drawn : FileDraw

/-- `mm::FileInfo` -/
structure MmFileInfo where
  id : String
  userId : String
  postId : String
  channelId : String
  createAt : Int
  updateAt : Int
  deleteAt : Int
  name : String
  extension : String
  size : Int
  mimeType : String
  width : Int
  height : Int
  hasPreviewImage : Bool

inductive UploadResponse where
  -- `StatusCode::NO_CONTENT`
  | noContent
  -- `StatusCode::CREATED`
  | created (info : MmFileInfo)

inductive UploadAct where
  | readSession (id : Uuid)
  | append (id : Uuid) (body : List UInt8) (newOffset : Int)
  | readData (id : Uuid)
  | upload (key : String) (data : List UInt8) (contentType : String)
  | insertFile (id : Uuid) (file : UploadedFile)
  | deleteSession (id : Uuid)

def UploadAct.Row : UploadAct → Type
  | readSession _ => Option UploadSessionRow
  | append _ _ _ => Unit
  | readData _ => Option (List UInt8)
  | upload _ _ _ => Unit
  | insertFile _ _ => Unit
  | deleteSession _ => Unit

abbrev UploadAct.Res (act : UploadAct) : Type := Except AppError act.Row

/-- What a statement meets: the time, and the error it fails with. -/
structure UploadOutcome where
  now : Int
  error : Option String

namespace UploadDb

/-- `INSERT INTO files`: the columns, the primary key and the unique key accept the row. -/
def Admits (db : UploadDb) (id : Uuid) (file : UploadedFile) : Prop :=
  file.fits = true ∧ id ∉ db.files ∧ ∀ e ∈ db.files.entries, e.2.1.key ≠ file.key

instance (db : UploadDb) (id : Uuid) (file : UploadedFile) : Decidable (db.Admits id file) :=
  inferInstanceAs (Decidable (_ ∧ _ ∧ ∀ e ∈ db.files.entries, _))

def insertFile (db : UploadDb) (id : Uuid) (file : UploadedFile) (h : db.Admits id file) : UploadDb :=
  { db with
    files := db.files.insert id ⟨file, h.1⟩
    keys_unique := by
      intro i j f g hf hg hkey
      rcases Assoc.lookup_insert_cases hf with ⟨rfl, rfl⟩ | ⟨-, hf'⟩
      · rcases Assoc.lookup_insert_cases hg with ⟨rfl, -⟩ | ⟨-, hg'⟩
        · rfl
        · exact absurd hkey.symm (h.2.2 _ (Assoc.mem_entries_iff.2 hg'))
      · rcases Assoc.lookup_insert_cases hg with ⟨rfl, rfl⟩ | ⟨-, hg'⟩
        · exact absurd hkey (h.2.2 _ (Assoc.mem_entries_iff.2 hf'))
        · exact db.keys_unique i j f g hf' hg' hkey }

def perform (now : Int) : (act : UploadAct) → UploadDb → act.Res × UploadDb
  | .readSession id, db =>
    (.ok (((db.sessions.lookup id).filter fun session => now < session.expiresAt).map UploadSession.row), db)
  | .append id body newOffset, db =>
    (.ok (), { db with sessions := Assoc.modify id (fun session =>
      { session with fileData := some (session.fileData.getD [] ++ body), fileOffset := newOffset }) db.sessions })
  | .readData id, db => (okOr ((db.sessions.lookup id).map UploadSession.fileData) .database, db)
  | .upload key data _, db => (.ok (), { db with objects := db.objects.insert key data })
  | .insertFile id file, db => if h : db.Admits id file then (.ok (), db.insertFile id file h) else (.error .database, db)
  | .deleteSession id, db => (.ok (), { db with sessions := db.sessions.erase id })

def failure (text : String) : UploadAct → AppError
  | .upload _ _ _ => .internal ("S3 upload error: " ++ text)
  | _ => .database

def sem (o : UploadOutcome) (act : UploadAct) (db : UploadDb) : act.Res × UploadDb :=
  match o.error with
  | none => db.perform o.now act
  | some text => (.error (failure text act), db)

end UploadDb

/-- What `create_upload` does for a member of the channel. -/
def UploadDb.createUpload (db : UploadDb) (id userId channelId : Uuid) (filename : String) (fileSize now : Int) :
    UploadDb :=
  { db with
    sessions := db.sessions.insert id
      { userId, channelId, filename, fileSize, fileOffset := 0, fileData := none,
        -- 24 hours
        expiresAt := now + 86400000000 } }

/-! ### Metadata of a file -/

namespace UploadEnv

def filenameExtension (filename : String) : Option String :=
  let ext := (filename.toList.reverse.takeWhile (· ≠ '.')).reverse
  if '.' ∈ filename.toList ∧ ext ≠ [] then some (String.ofList ext) else none

def isImage (mimeType : String) : Bool := "image/".toList.isPrefixOf mimeType.toList

variable (env : UploadEnv)

def imageMimeAndExtensionFromBytes (data : List UInt8) : Option (String × String) :=
  (env.guessFormat data).bind fun format => match format with
    | .Png => some ("image/png", "png")
    | .Jpeg => some ("image/jpeg", "jpg")
    | .Gif => some ("image/gif", "gif")
    | .WebP => some ("image/webp", "webp")
    | .Bmp => some ("image/bmp", "bmp")
    | .Tiff => some ("image/tiff", "tiff")
    | .Other => none

def extensionFromMime : String → Option String
  | "image/jpeg" => some "jpg"
  | "image/png" => some "png"
  | "image/gif" => some "gif"
  | "image/webp" => some "webp"
  | "image/bmp" => some "bmp"
  | "image/tiff" => some "tiff"
  | _ => none

def normalizeUploadSessionFileMetadata (filename : String) (data : List UInt8) : String × String × String :=
  let guessed := env.guessMime filename
  let (mimeType, detectedExt) := match env.imageMimeAndExtensionFromBytes data with
    | some (detectedMime, detectedExt) =>
      (if guessed = "application/octet-stream" ∨ isImage guessed = false then detectedMime else guessed,
        some detectedExt)
    | none => (guessed, extensionFromMime guessed)
  let normalized := match filenameExtension filename, detectedExt with
    | none, some ext => filename ++ "." ++ ext
    | _, _ => filename
  (normalized, mimeType, (filenameExtension normalized).getD "")

end UploadEnv

/-! ### `upload_data` -/

abbrev UploadProg := ExceptT AppError (Prog UploadAct UploadAct.Res)

namespace UploadEnv

def ask (act : UploadAct) : UploadProg act.Row := Prog.call act

/-- Store an image that may be missing. -/
def tryUpload (key : String) (data : List UInt8) : UploadProg Bool := do
  let stored ← ExceptT.lift (Prog.call (.upload key data "image/jpeg"))
  pure stored.toBool

def orThrow {α : Type} (o : Option α) (e : AppError) : UploadProg α :=
  match o with
  | some a => pure a
  | none => throw e

def fileKey (userId fileId : Uuid) (extension : String) : String :=
  if extension = "" then "files/" ++ userId.hyphenated ++ "/" ++ fileId.hyphenated
  else "files/" ++ userId.hyphenated ++ "/" ++ fileId.hyphenated ++ "." ++ extension

def thumbnailKey (userId fileId : Uuid) : String := "thumbnails/" ++ userId.hyphenated ++ "/" ++ fileId.hyphenated ++ ".jpg"

def previewKey (userId fileId : Uuid) : String := "previews/" ++ userId.hyphenated ++ "/" ++ fileId.hyphenated ++ ".jpg"

variable (env : UploadEnv)

def parse (id : String) : Option Uuid := parseMmOrUuid env.parseUuid id

/-- The rest of `upload_data` when the data is stored: the thumbnail, the preview, the row and the answer. -/
def finishUpload (req : UploadRequest) (uploadId : Uuid) (session : UploadSessionRow) (data : List UInt8)
    (key : String) : UploadProg UploadResponse := do
  let fileId := req.drawn.fileId
  let (filename, mimeType, extension) := env.normalizeUploadSessionFileMetadata session.filename data
  let image := if isImage mimeType then env.processImage data else ⟨none, none, none, none⟩
  let stored ← match image.thumbnailData with
    | some thumbData => tryUpload (thumbnailKey req.userId fileId) thumbData
    | none => pure false
  let _ ← match image.previewData with
    | some previewData => tryUpload (previewKey req.userId fileId) previewData
    | none => pure false
  ask (.insertFile fileId
    { uploaderId := req.userId, channelId := session.channelId, name := filename, key, mimeType,
      size := session.fileSize, sha256 := env.sha256 data, width := image.width, height := image.height,
      hasThumbnail := stored, thumbnailKey := if stored then some (thumbnailKey req.userId fileId) else none,
      createdAt := req.drawn.now })
  ask (.deleteSession uploadId)
  pure (.created
    { id := encodeMmId fileId, userId := encodeMmId req.userId, postId := "", channelId := encodeMmId session.channelId,
      createAt := timestampMillis req.drawn.now, updateAt := timestampMillis req.drawn.now, deleteAt := 0, name := filename, extension,
      size := session.fileSize, mimeType, width := image.width.getD 0, height := image.height.getD 0,
      hasPreviewImage := stored })

/-- The part of `upload_data` for an upload that is complete. -/
def completeUpload (req : UploadRequest) (uploadId : Uuid) (session : UploadSessionRow) : UploadProg UploadResponse := do
  let fileData ← ask (.readData uploadId)
  let data := fileData.getD []
  let (_, mimeType, extension) := env.normalizeUploadSessionFileMetadata session.filename data
  let key := fileKey req.userId req.drawn.fileId extension
  ask (.upload key data mimeType)
  env.finishUpload req uploadId session data key

def uploadData (req : UploadRequest) : UploadProg UploadResponse := do
  let uploadId ← orThrow (env.parse req.uploadId) (.badRequest "Invalid upload_id")
  let found ← ask (.readSession uploadId)
  let session ← orThrow found (.notFound "Upload session not found")
  if session.userId ≠ req.userId then throw (.forbidden "Not your upload session")
  else do
    let newOffset := session.fileOffset + req.body.length
    ask (.append uploadId req.body newOffset)
    if newOffset ≥ session.fileSize then env.completeUpload req uploadId session
    else pure .noContent

end UploadEnv
end Rustchat
