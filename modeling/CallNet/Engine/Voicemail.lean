import CallNet.ForStd.PosixPath

/-!
# Voicemail files

Who creates voicemail records (`captureVoicemail` of `sip/ivr.system.ts`, the recording
callback of `trunk/streaming/webhook.ts`), how they are stored
(`services/postgres/voicemail.repo.ts`), and which file the API streams or deletes for one
(`http/routes/api.routes.ts`).  Durations and times are left out, and so is the recording
itself.
-/

namespace CallNet

open PosixPath (Name)

structure VoicemailConfig where
  enabled : Bool
  /-- Where FreeSWITCH writes. -/
  fsDir : String
  /-- Where the API reads. -/
  hostDir : String
  /-- `process.cwd()` -/
  cwd : String
  cwd_absolute : PosixPath.isAbsolute cwd.toList = true

/-- `path.resolve(config.voicemail.hostDir, file)` -/
def VoicemailConfig.resolveFile (cfg : VoicemailConfig) (file : String) : List Name :=
  PosixPath.resolve cfg.cwd.toList [cfg.hostDir.toList, file.toList]

/-- The voicemail folder. -/
def VoicemailConfig.folder (cfg : VoicemailConfig) : List Name :=
  PosixPath.resolve cfg.cwd.toList [cfg.hostDir.toList]

structure VoicemailRow where
  id : Nat
  extension : String
  caller : String
  filename : String
  path : String
deriving DecidableEq, Repr

/-- The table `voicemails`, and the next value of its serial. -/
structure VoicemailTable where
  rows : List VoicemailRow
  nextId : Nat
deriving DecidableEq, Repr

/-- The container path of a recording; one slash at the end of the directory is dropped. -/
def absolutePath (cfg : VoicemailConfig) (file : String) : String :=
  let dir := cfg.fsDir.toList
  let dir := if dir.getLast? = some '/' then dir.dropLast else dir
  String.ofList dir ++ "/" ++ file

/-- The columns take the values. -/
def FitsVoicemail (cfg : VoicemailConfig) (mailbox caller file : String) : Prop :=
  mailbox.length ≤ 20 ∧ caller.length ≤ 20 ∧ file.length ≤ 255 ∧
    (absolutePath cfg file).length ≤ 500

instance (cfg : VoicemailConfig) (mailbox caller file : String) :
    Decidable (FitsVoicemail cfg mailbox caller file) :=
  inferInstanceAs (Decidable (_ ∧ _))

namespace VoicemailTable

def empty : VoicemailTable := ⟨[], 1⟩

/-- Insert a record; the database refuses texts that are too long. -/
def insertVoicemail (t : VoicemailTable) (cfg : VoicemailConfig) (mailbox caller file : String) :
    VoicemailTable :=
  if FitsVoicemail cfg mailbox caller file then
    { rows := t.rows ++ [⟨t.nextId, mailbox, caller, file, absolutePath cfg file⟩]
      nextId := t.nextId + 1 }
  else t

def selectVoicemail (t : VoicemailTable) (extension : String) (id : Nat) : Option VoicemailRow :=
  t.rows.find? fun row => row.extension = extension ∧ row.id = id

/-- Delete a record; its file name is returned. -/
def removeVoicemail (t : VoicemailTable) (extension : String) (id : Nat) :
    VoicemailTable × Option String :=
  ({ t with rows := t.rows.filter fun row => ¬ (row.extension = extension ∧ row.id = id) },
    (t.selectVoicemail extension id).map VoicemailRow.filename)

end VoicemailTable

/-! ## Producers -/

/-- `String(n).padStart(2, '0')` -/
def padTwo (n : Nat) : String := if n < 10 then "0" ++ toString n else toString n

/-- The calendar day and the time at which a recording begins. -/
structure RecordingTime where
  year : Nat
  month : Nat
  day : Nat
  millis : Nat
deriving DecidableEq, Repr

/-- `<mailbox>/<YYYYMMDD>/vm_<ts>.wav` -/
def voicemailRelPath (mailbox : String) (now : RecordingTime) : String :=
  let dateDir := toString now.year ++ padTwo now.month ++ padTwo now.day
  let relDir := mailbox ++ "/" ++ dateDir
  let fileName := "vm_" ++ toString now.millis ++ ".wav"
  relDir ++ "/" ++ fileName

def VoicemailTable.captureVoicemail (t : VoicemailTable) (cfg : VoicemailConfig)
    (mailbox callerNumber : String) (now : RecordingTime) : VoicemailTable :=
  if !cfg.enabled then t
  else t.insertVoicemail cfg mailbox callerNumber (voicemailRelPath mailbox now)

/-- The recording callback of the provider. -/
def VoicemailTable.voicemailStatus (t : VoicemailTable) (cfg : VoicemailConfig)
    (mailbox caller recordingUrl : String) : VoicemailTable :=
  if mailbox ≠ "" ∧ recordingUrl ≠ "" then t.insertVoicemail cfg mailbox caller recordingUrl
  else t

/-! ## The API -/

/-- The file that is streamed for a record. -/
def VoicemailTable.streamedFile (t : VoicemailTable) (cfg : VoicemailConfig) (ext : String)
    (id : Nat) : Option (List Name) :=
  (t.selectVoicemail ext id).map fun voicemail => cfg.resolveFile voicemail.filename

/-- The file that is unlinked when a record is deleted. -/
def VoicemailTable.unlinkedFile (t : VoicemailTable) (cfg : VoicemailConfig) (ext : String)
    (id : Nat) : Option (List Name) :=
  match (t.removeVoicemail ext id).2 with
  | none | some "" => none
  | some filename => some (cfg.resolveFile filename)

inductive VoicemailEvent where
  /-- A recording for any mailbox. -/
  | recorded (mailbox callerNumber : String) (now : RecordingTime)
  /-- The callback with any recording URL. -/
  | status (mailbox caller recordingUrl : String)
  | delete (ext : String) (id : Nat)

def VoicemailTable.step (cfg : VoicemailConfig) (t : VoicemailTable) :
    VoicemailEvent → Option VoicemailTable
  | .recorded mailbox callerNumber now => some (t.captureVoicemail cfg mailbox callerNumber now)
  | .status mailbox caller recordingUrl => some (t.voicemailStatus cfg mailbox caller recordingUrl)
  | .delete ext id => some (t.removeVoicemail ext id).1

end CallNet
