import CallNet.Engine.Voicemail
import CallNet.ForStd.Machine

/-!
# Where voicemail files lie

The file of a record is a text that its producer chose, resolved against the voicemail folder
when the API streams or deletes it.  It lies in the folder exactly when the text is relative
and names something after climbing at most as far as it names again, or is absolute and names
the folder itself.
-/

namespace CallNet

open Machine (Meets Throughout)
open PosixPath (Below climb isAbsolute)

/-- The text stays in the folder: after climbing it names again what it climbed out of, and
    something more; an absolute text names the whole folder. -/
def VoicemailConfig.Confined (cfg : VoicemailConfig) (file : String) : Prop :=
  let folder := cfg.folder
  let ups := (climb file.toList).ups
  Below (if isAbsolute file.toList then folder else folder.drop (folder.length - ups))
    (climb file.toList).names

instance (cfg : VoicemailConfig) (file : String) : Decidable (cfg.Confined file) :=
  inferInstanceAs (Decidable (Below _ _))

theorem resolveFile_eq_follow (cfg : VoicemailConfig) (file : String) :
    cfg.resolveFile file = PosixPath.follow cfg.folder file.toList := by
  unfold VoicemailConfig.resolveFile VoicemailConfig.folder
  rw [PosixPath.resolve_eq_foldl cfg.cwd_absolute, PosixPath.resolve_eq_foldl cfg.cwd_absolute]
  rfl

theorem below_resolveFile_iff (cfg : VoicemailConfig) (file : String) :
    Below cfg.folder (cfg.resolveFile file) ↔ cfg.Confined file := by
  rw [resolveFile_eq_follow]
  exact PosixPath.below_follow_iff cfg.folder file.toList

namespace VoicemailTable

/-! ## The property and its condition -/

/-- Whatever the API streams or deletes lies in the voicemail folder. -/
def InFolder (cfg : VoicemailConfig) (t : VoicemailTable) : Prop :=
  ∀ ext id path, t.streamedFile cfg ext id = some path ∨ t.unlinkedFile cfg ext id = some path →
    Below cfg.folder path

/-- A file that is stored is confined. -/
def KeepsFiles (cfg : VoicemailConfig) (_ : VoicemailTable) : VoicemailEvent → Prop
  | .recorded mailbox callerNumber now => cfg.enabled = true →
      FitsVoicemail cfg mailbox callerNumber (voicemailRelPath mailbox now) →
        cfg.Confined (voicemailRelPath mailbox now)
  | .status mailbox caller recordingUrl => mailbox ≠ "" → recordingUrl ≠ "" →
      FitsVoicemail cfg mailbox caller recordingUrl → cfg.Confined recordingUrl
  | .delete _ _ => True

/-- Stored files are confined, and ids are the ones given out so far. -/
structure Inv (cfg : VoicemailConfig) (t : VoicemailTable) : Prop where
  confined : ∀ row ∈ t.rows, cfg.Confined row.filename
  ids : ∀ row ∈ t.rows, row.id < t.nextId

theorem Inv.inFolder {cfg : VoicemailConfig} {t : VoicemailTable} (h : t.Inv cfg) :
    t.InFolder cfg := by
  have hrow : ∀ {ext id row}, t.selectVoicemail ext id = some row →
      Below cfg.folder (cfg.resolveFile row.filename) := by
    intro ext id row hselect
    have hmem := List.mem_of_find?_eq_some hselect
    exact (below_resolveFile_iff cfg row.filename).mpr (h.confined row hmem)
  rintro ext id path (hstreamed | hunlinked)
  · obtain ⟨row, hselect, rfl⟩ := Option.map_eq_some_iff.mp hstreamed
    exact hrow hselect
  · unfold unlinkedFile removeVoicemail at hunlinked
    cases hselect : t.selectVoicemail ext id with
    | none =>
      rw [hselect] at hunlinked
      cases hunlinked
    | some row =>
      rw [hselect, Option.map_some] at hunlinked
      simp only at hunlinked
      split at hunlinked
      · cases hunlinked
      · cases hunlinked
      · rename_i filename _ hfilename
        cases hunlinked
        rw [← Option.some.inj hfilename]
        exact hrow hselect

/-! ## Steps -/

theorem Inv.insert {cfg : VoicemailConfig} {t : VoicemailTable} (h : t.Inv cfg)
    {mailbox caller file : String}
    (hfile : FitsVoicemail cfg mailbox caller file → cfg.Confined file) :
    (t.insertVoicemail cfg mailbox caller file).Inv cfg := by
  unfold insertVoicemail
  split
  · rename_i hfits
    constructor
    · intro row hmem
      rcases List.mem_append.mp hmem with hold | hnew
      · exact h.confined row hold
      · rw [List.mem_singleton.mp hnew]
        exact hfile hfits
    · intro row hmem
      simp only
      rcases List.mem_append.mp hmem with hold | hnew
      · have hlt := h.ids row hold
        omega
      · rw [List.mem_singleton.mp hnew]
        exact Nat.lt_succ_self t.nextId
  · exact h

/-- A record is found under its own id. -/
theorem Inv.confined_of_insert {cfg : VoicemailConfig} {t : VoicemailTable} (h : t.Inv cfg)
    {mailbox caller file : String}
    (hin : (t.insertVoicemail cfg mailbox caller file).InFolder cfg)
    (hfits : FitsVoicemail cfg mailbox caller file) : cfg.Confined file := by
  unfold insertVoicemail at hin
  rw [if_pos hfits] at hin
  have hold : t.rows.find? (fun row => row.extension = mailbox ∧ row.id = t.nextId) = none := by
    rw [List.find?_eq_none]
    intro row hmem hrow
    have hlt := h.ids row hmem
    have hid := (of_decide_eq_true hrow).2
    omega
  have hstreamed : streamedFile
      { rows := t.rows ++ [⟨t.nextId, mailbox, caller, file, absolutePath cfg file⟩]
        nextId := t.nextId + 1 } cfg mailbox t.nextId = some (cfg.resolveFile file) := by
    unfold streamedFile selectVoicemail
    rw [List.find?_append, hold]
    simp
  exact (below_resolveFile_iff cfg file).mp (hin mailbox t.nextId _ (.inl hstreamed))

theorem Inv.step {cfg : VoicemailConfig} {t t' : VoicemailTable} {e : VoicemailEvent}
    (h : t.Inv cfg) (hkeeps : t.KeepsFiles cfg e) (hstep : t.step cfg e = some t') :
    t'.Inv cfg := by
  cases e with
  | recorded mailbox callerNumber now =>
    cases hstep
    unfold captureVoicemail
    split
    · exact h
    · rename_i henabled
      exact h.insert (hkeeps (by simpa using henabled))
  | status mailbox caller recordingUrl =>
    cases hstep
    unfold voicemailStatus
    split
    · rename_i hgiven
      exact h.insert (hkeeps hgiven.1 hgiven.2)
    · exact h
  | delete ext id =>
    cases hstep
    constructor
    · exact fun row hmem => h.confined row (List.mem_filter.mp hmem).1
    · exact fun row hmem => h.ids row (List.mem_filter.mp hmem).1

/-- A step after which every file lies in the folder has stored a confined one. -/
theorem Inv.keepsFiles {cfg : VoicemailConfig} {t t' : VoicemailTable} {e : VoicemailEvent}
    (h : t.Inv cfg) (hstep : t.step cfg e = some t') (hin : t'.InFolder cfg) :
    t.KeepsFiles cfg e := by
  cases e with
  | recorded mailbox callerNumber now =>
    cases hstep
    intro henabled hfits
    unfold captureVoicemail at hin
    rw [henabled] at hin
    exact h.confined_of_insert hin hfits
  | status mailbox caller recordingUrl =>
    cases hstep
    intro hmailbox hurl hfits
    unfold voicemailStatus at hin
    rw [if_pos ⟨hmailbox, hurl⟩] at hin
    exact h.confined_of_insert hin hfits
  | delete ext id => trivial

/-! ## Runs -/

/-- Along recordings, callbacks and deletions, every file that the API streams or deletes lies
    in the voicemail folder exactly when every file that is stored is confined. -/
theorem inFolder_throughout_iff (cfg : VoicemailConfig) (es : List VoicemailEvent) :
    Throughout (step cfg) (InFolder cfg) empty es ↔ Meets (step cfg) (KeepsFiles cfg) empty es := by
  apply Machine.throughout_iff_meets (I := Inv cfg) (P := fun _ _ => True)
  · exact fun t h => h.inFolder
  · exact fun t e t' h _ hkeeps hstep => h.step hkeeps hstep
  · exact fun t e t' h _ hstep hin => h.keepsFiles hstep hin
  · intro t e hnone
    cases e <;> cases hnone
  · exact ⟨nofun, nofun⟩
  · exact Machine.meets_of_mem fun _ _ => trivial

/-- The standard folders, under a working directory. -/
def standardConfig : VoicemailConfig where
  enabled := true
  fsDir := "/usr/local/freeswitch/recordings/voicemail"
  hostDir := "docker/recordings/voicemail"
  cwd := "/srv/voice"
  cwd_absolute := by decide

/-- The callback names a file of the system; the API streams and unlinks it. -/
theorem not_inFolder_absolute :
    ∃ t, Machine.run (step standardConfig) empty [.status "1001" "unknown" "/etc/passwd"] = some t ∧
      t.streamedFile standardConfig "1001" 1 = some ["etc".toList, "passwd".toList] ∧
      t.unlinkedFile standardConfig "1001" 1 = some ["etc".toList, "passwd".toList] ∧
      ¬ t.InFolder standardConfig := by
  refine ⟨_, rfl, by decide +kernel, by decide +kernel, fun hin => ?_⟩
  have hbelow := hin "1001" 1 ["etc".toList, "passwd".toList] (.inl (by decide +kernel))
  exact absurd hbelow (by decide +kernel)

/-- A mailbox that climbs leads out of the folder too. -/
example : ¬ standardConfig.Confined (voicemailRelPath "../.." ⟨2024, 5, 1, 1714550400000⟩) := by
  decide

example : standardConfig.Confined (voicemailRelPath "1001" ⟨2024, 5, 1, 1714550400000⟩) := by
  decide

end VoicemailTable

end CallNet
