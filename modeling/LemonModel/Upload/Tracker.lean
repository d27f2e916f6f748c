import LemonModel.Base.Double

/-!
# Upload progress

`UploadProgressTracker`: the progress of each file, and of the batch, in bytes of the
original content.
-/

namespace LemonModel

/-- What is known of one file; `sent` is missing until the first report. -/
structure UploadFileProgress where
  total : Double
  sent : Option Double
  settled : Bool
  deriving DecidableEq

namespace UploadFileProgress

def create (total : Double) : UploadFileProgress := ⟨.max 0 total, none, false⟩

variable (f : UploadFileProgress)

def reported : Double := f.sent.getD 0

/-- A report, clamped to what was reported before and to the total. -/
def next (sent : Double) : Double := .min f.total (.max sent f.reported)

/-- A settled file counts as a whole. -/
def counted : Double := if f.settled then f.total else f.reported

end UploadFileProgress

/-- A snapshot of the batch. -/
structure UploadBatchProgress where
  files : List UploadFileProgress
  totalBytes : Double
  sentBytes : Double
  ratio : Double

/-- `published` is a record: the snapshots that were emitted, the newest first. -/
structure UploadProgressTracker where
  files : List UploadFileProgress
  totalBytes : Double
  published : List UploadBatchProgress

namespace UploadProgressTracker

def create (totals : List Double) : UploadProgressTracker :=
  let files := totals.map UploadFileProgress.create
  ⟨files, Double.sum (files.map UploadFileProgress.total), []⟩

variable (t : UploadProgressTracker)

/-- How many files there are is exact as a double, so their quotient is rounded once. -/
def snapshot : UploadBatchProgress :=
  let sentBytes := Double.sum (t.files.map UploadFileProgress.counted)
  let settled := (t.files.filter UploadFileProgress.settled).length
  { files := t.files
    totalBytes := t.totalBytes
    sentBytes := sentBytes
    ratio :=
      if 0 < t.totalBytes then sentBytes / t.totalBytes
      else if t.files.length > 0 then .ofRat (settled / t.files.length)
      else 1 }

def publish : UploadProgressTracker := { t with published := t.snapshot :: t.published }

/-- The sink of a file is told `sent`. -/
def sink (index : Nat) (sent : Double) : UploadProgressTracker :=
  match t.files[index]? with
  | none => t
  | some file =>
    if file.settled then t
    else if file.sent.any fun old => (file.next sent).StrictEq old then t
    else publish { t with files := t.files.set index { file with sent := some (file.next sent) } }

def settle (index : Nat) : UploadProgressTracker :=
  match t.files[index]? with
  | none => t
  | some file =>
    if file.settled then t
    else publish { t with files := t.files.set index { file with settled := true } }

end UploadProgressTracker

end LemonModel
