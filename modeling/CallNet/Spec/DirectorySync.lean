import CallNet.Edge.Directory

/-!
# Synchronisation of the user directory

What `writeUsers` owes: the user files become those of the roster, a second run finds
nothing to do, and a roster without valid users removes nobody.

The loops do less.  Two entries for one extension overwrite each other on every run; the
guard against an empty roster asks for entries, not for valid ones; and the errors of
listing the folder and of removing from it are dropped.  `synchronised_iff` says for which
rosters and folders the call keeps its word.
-/

namespace CallNet.Edge

/-! ## The property -/

/-- A file of the folder that FreeSWITCH reads as a user. -/
def UserFile (folder : Folder) (name : Bytes) : Prop :=
  bytesOf ".xml" <:+ name ∧ ∃ content, folder.get? name = some (.file content)

/-- What one call owes, for the folder it finds. -/
structure Synchronised (os : Os) (exts : List EdgeExtension) (folder : Folder) : Prop where
  /-- The user files are those of the valid extensions of the roster. -/
  exact : (writeUsers os exts folder).failed = false → exts ≠ [] → ∀ name,
    UserFile (writeUsers os exts folder).folder name ↔ name ∈ validFiles exts
  generated : (writeUsers os exts folder).failed = false → ∀ e ∈ exts, extRe e.extension = true →
    (writeUsers os exts folder).folder.get? e.file = some (.file e.content)
  /-- The same roster again changes nothing and reports no change. -/
  stable : (writeUsers os exts folder).failed = false →
    let again := writeUsers os exts (writeUsers os exts folder).folder
    again.failed = false ∧ again.changed = false ∧
      ∀ name, again.folder.get? name = (writeUsers os exts folder).folder.get? name
  /-- A roster without a valid user removes nobody. -/
  keeps : (∀ e ∈ exts, extRe e.extension = false) → ∀ name, UserFile folder name →
    (writeUsers os exts folder).folder.get? name = folder.get? name

/-- A file that is to be written cannot be. -/
def WriteFails (os : Os) (exts : List EdgeExtension) (folder : Folder) : Prop :=
  ∃ e ∈ exts, extRe e.extension = true ∧ os.readFile folder e.file ≠ e.content ∧
    os.writable folder e.file = false

/-- The rosters and folders that can be synchronised: entries of one valid extension agree,
    what is written can be read back, and everything in the way can be listed and removed.
    With no valid entry there must be no user file in the way. -/
structure Synchronisable (os : Os) (exts : List EdgeExtension) (folder : Folder) : Prop where
  agree : ∀ e ∈ exts, ∀ e' ∈ exts, extRe e.extension = true → e.extension = e'.extension →
    e.content = e'.content
  reads : ∀ e ∈ exts, extRe e.extension = true → os.reads e.file = true
  files : exts ≠ [] → ∀ name content, folder.get? name = some (.file content) →
    isStale (validFiles exts) name = true →
    os.readDir = true ∧ os.removes name = true ∧ validFiles exts ≠ []
  dirs : exts ≠ [] → ∀ name, folder.get? name = some .dir →
    isStale (validFiles exts) name = true → os.readDir = true → os.removes name = true

/-! ## Names and contents -/

theorem mem_validFiles {exts : List EdgeExtension} {name : Bytes} :
    name ∈ validFiles exts ↔ ∃ e ∈ exts, extRe e.extension = true ∧ e.file = name := by
  simp only [validFiles, List.mem_map, List.mem_filter, and_assoc]

theorem isStale_iff {valid : List Bytes} {name : Bytes} :
    isStale valid name = true ↔ bytesOf ".xml" <:+ name ∧ name ∉ valid := by
  simp only [isStale, decide_eq_true_eq, List.isSuffixOf_iff_suffix]

theorem bytesOf_append (s t : String) : bytesOf (s ++ t) = bytesOf s ++ bytesOf t := by
  simp only [bytesOf, Utf8.encode, String.toList_append, List.flatMap_append]

theorem bytesOf_inj {s t : String} (h : bytesOf s = bytesOf t) : s = t := by
  have := congrArg Utf8.decodeLossy h
  rw [bytesOf, bytesOf, Utf8.decodeLossy_encode, Utf8.decodeLossy_encode] at this
  exact String.toList_inj.mp this

/-- Every user has a file of its own. -/
theorem EdgeExtension.extension_eq_of_file {e e' : EdgeExtension} (h : e.file = e'.file) :
    e.extension = e'.extension := by
  rw [file, file, bytesOf_append, bytesOf_append] at h
  exact bytesOf_inj (List.append_cancel_right h)

theorem EdgeExtension.file_suffix (e : EdgeExtension) : bytesOf ".xml" <:+ e.file := by
  rw [file, bytesOf_append]
  exact List.suffix_append _ _

/-- No user's file is empty, so one that cannot be read always differs. -/
theorem EdgeExtension.content_ne_nil (e : EdgeExtension) : e.content ≠ [] := by
  intro h
  unfold content userXML at h
  dsimp only at h
  rw [bytesOf_append] at h
  exact absurd (List.append_eq_nil_iff.mp h).2 (by decide)

/-- The read-back of a file that has its content. -/
theorem Os.readFile_of_file {os : Os} {folder : Folder} {name content : Bytes}
    (h : folder.get? name = some (.file content)) (hr : os.reads name = true) :
    os.readFile folder name = content := by
  simp only [Os.readFile, h, hr, if_true]

theorem Os.file_of_readFile {os : Os} {folder : Folder} {name content : Bytes}
    (h : os.readFile folder name = content) (hne : content ≠ []) :
    folder.get? name = some (.file content) ∧ os.reads name = true := by
  unfold Os.readFile at h
  split at h
  · rename_i found hget
    split at h
    · rename_i hr
      exact ⟨h ▸ hget, hr⟩
    · exact absurd h.symm hne
  · exact absurd h.symm hne

/-! ## The loop over the roster -/

theorem Os.readFile_set_ne {os : Os} {folder : Folder} {name name' : Bytes} {entry : Entry}
    (h : name' ≠ name) : os.readFile (folder.set name entry) name' = os.readFile folder name' := by
  rw [Os.readFile, Os.readFile, OrdMap.get?_set_ne _ _ h]

/-- Writing a file does not make any other one more or less writable. -/
theorem Os.writable_set {os : Os} {folder : Folder} {name content : Bytes}
    (h : os.writable folder name = true) (name' : Bytes) :
    os.writable (folder.set name (.file content)) name' = os.writable folder name' := by
  by_cases hn : name' = name
  · subst hn
    rw [h]
    simp only [Os.writable, decide_eq_true_eq, OrdMap.get?_set_self] at h ⊢
    exact ⟨by simp, h.2⟩
  · rw [Os.writable, Os.writable, OrdMap.get?_set_ne _ _ hn]

/-- The cases of one entry of the roster. -/
theorem writeFiles_cons (os : Os) (e : EdgeExtension) (exts : List EdgeExtension)
    (folder : Folder) (changed : Bool) :
    writeFiles os (e :: exts) folder changed =
      if extRe e.extension = true ∧ os.readFile folder e.file ≠ e.content then
        if os.writable folder e.file = true then
          writeFiles os exts (folder.set e.file (.file e.content)) true
        else ⟨folder, changed, true⟩
      else writeFiles os exts folder changed := by
  rw [writeFiles]
  cases extRe e.extension <;> simp

theorem writeFiles_failed (os : Os) (exts : List EdgeExtension) (folder : Folder)
    (changed : Bool) :
    (writeFiles os exts folder changed).failed = true ↔ WriteFails os exts folder := by
  induction exts generalizing folder changed with
  | nil => simp [writeFiles, WriteFails]
  | cons e exts ih =>
    have hcons : WriteFails os (e :: exts) folder ↔
        (extRe e.extension = true ∧ os.readFile folder e.file ≠ e.content ∧
          os.writable folder e.file = false) ∨ WriteFails os exts folder := by
      simp only [WriteFails, List.exists_mem_cons_iff]
    rw [writeFiles_cons, hcons]
    split
    · rename_i hwrite
      split
      · -- the file is written: of the later entries only those with another file count
        rename_i hok
        rw [ih, or_iff_right (by simp [hok])]
        refine exists_congr fun e' => and_congr_right fun _ => and_congr_right fun _ => ?_
        rw [Os.writable_set hok]
        by_cases hfile : e'.file = e.file
        · simp [hfile, hok]
        · rw [Os.readFile_set_ne hfile]
      · rename_i hok
        exact iff_of_true rfl (.inl ⟨hwrite.1, hwrite.2, by simpa using hok⟩)
    · rename_i hskip
      rw [ih, or_iff_right fun h => hskip ⟨h.1, h.2.1⟩]

/-- Only files of the roster are written. -/
theorem get?_writeFiles_of_not_mem {os : Os} {exts : List EdgeExtension} {folder : Folder}
    {changed : Bool} {name : Bytes} (h : name ∉ validFiles exts) :
    (writeFiles os exts folder changed).folder.get? name = folder.get? name := by
  induction exts generalizing folder changed with
  | nil => rfl
  | cons e exts ih =>
    have hrest : name ∉ validFiles exts := fun hmem => by
      obtain ⟨e', he', hv, hf⟩ := mem_validFiles.mp hmem
      exact h (mem_validFiles.mpr ⟨e', List.mem_cons_of_mem _ he', hv, hf⟩)
    rw [writeFiles_cons]
    split
    · rename_i hwrite
      split
      · rw [ih hrest, OrdMap.get?_set_ne]
        exact fun hn => h (mem_validFiles.mpr ⟨e, List.mem_cons_self, hwrite.1, hn.symm⟩)
      · rfl
    · exact ih hrest

/-- When the entries of each extension agree, every file gets the content of its entry. -/
theorem get?_writeFiles {os : Os} {exts : List EdgeExtension} {folder : Folder} {changed : Bool}
    (hagree : ∀ e ∈ exts, ∀ e' ∈ exts, extRe e.extension = true → e.extension = e'.extension →
      e.content = e'.content)
    (hok : (writeFiles os exts folder changed).failed = false) :
    ∀ e ∈ exts, extRe e.extension = true →
      (writeFiles os exts folder changed).folder.get? e.file = some (.file e.content) := by
  induction exts generalizing folder changed with
  | nil => exact fun _ h => nomatch h
  | cons e exts ih =>
    have hagree' : ∀ e₁ ∈ exts, ∀ e₂ ∈ exts, extRe e₁.extension = true →
        e₁.extension = e₂.extension → e₁.content = e₂.content := fun e₁ h₁ e₂ h₂ =>
      hagree e₁ (List.mem_cons_of_mem _ h₁) e₂ (List.mem_cons_of_mem _ h₂)
    -- the head's file is written again by a later entry of the same extension, or left alone
    have hhead : ∀ {f : Folder} {c : Bool}, (writeFiles os exts f c).failed = false →
        extRe e.extension = true → f.get? e.file = some (.file e.content) →
        (writeFiles os exts f c).folder.get? e.file = some (.file e.content) := by
      intro f c hokf hv hget
      by_cases hmem : e.file ∈ validFiles exts
      · obtain ⟨e', he', hv', hfile⟩ := mem_validFiles.mp hmem
        have hcontent := hagree e List.mem_cons_self e' (List.mem_cons_of_mem _ he') hv
          (EdgeExtension.extension_eq_of_file hfile.symm)
        rw [← hfile, hcontent]
        exact ih hagree' hokf e' he' hv'
      · rw [get?_writeFiles_of_not_mem hmem, hget]
    rw [writeFiles_cons] at hok ⊢
    intro e' he' hv'
    split at hok
    · rename_i hwrite
      rw [if_pos hwrite]
      split at hok
      · rename_i hwritable
        rw [if_pos hwritable]
        rcases List.mem_cons.mp he' with rfl | he'
        · exact hhead hok hv' (OrdMap.get?_set_self _ _ _)
        · exact ih hagree' hok e' he' hv'
      · cases hok
    · rename_i hskip
      rw [if_neg hskip]
      rcases List.mem_cons.mp he' with rfl | he'
      · have hread : os.readFile folder e'.file = e'.content := by
          by_contra hne
          exact hskip ⟨hv', hne⟩
        exact hhead hok hv' (Os.file_of_readFile hread e'.content_ne_nil).1
      · exact ih hagree' hok e' he' hv'

theorem writeFiles_changed (os : Os) (exts : List EdgeExtension) (folder : Folder) :
    (writeFiles os exts folder true).changed = true := by
  induction exts generalizing folder with
  | nil => rfl
  | cons e exts ih =>
    rw [writeFiles_cons]
    split
    · split
      · exact ih _
      · rfl
    · exact ih _

/-- The loop has nothing to do when every file reads as its entry wants it. -/
theorem writeFiles_of_read (os : Os) {exts : List EdgeExtension} {folder : Folder}
    (h : ∀ e ∈ exts, extRe e.extension = true → os.readFile folder e.file = e.content) :
    writeFiles os exts folder false = ⟨folder, false, false⟩ := by
  induction exts with
  | nil => rfl
  | cons e exts ih =>
    rw [writeFiles_cons, if_neg fun hw => hw.2 (h e List.mem_cons_self hw.1)]
    exact ih fun e' he' => h e' (List.mem_cons_of_mem _ he')

/-- And it reports no change only then. -/
theorem read_of_writeFiles {os : Os} {exts : List EdgeExtension} {folder : Folder}
    (hok : (writeFiles os exts folder false).failed = false)
    (hc : (writeFiles os exts folder false).changed = false) :
    ∀ e ∈ exts, extRe e.extension = true → os.readFile folder e.file = e.content := by
  induction exts with
  | nil => exact fun _ h => nomatch h
  | cons e exts ih =>
    rw [writeFiles_cons] at hok hc
    split at hc
    · rename_i hwrite
      rw [if_pos hwrite] at hok
      split at hc
      · rw [writeFiles_changed] at hc
        cases hc
      · rename_i hwritable
        rw [if_neg hwritable] at hok
        cases hok
    · rename_i hskip
      rw [if_neg hskip] at hok
      intro e' he' hv'
      rcases List.mem_cons.mp he' with rfl | he'
      · by_contra hne
        exact hskip ⟨hv', hne⟩
      · exact ih hok hc e' he' hv'

/-! ## The loop over the folder -/

theorem get?_dropStale (os : Os) (valid : List Bytes) (names : List Bytes) (folder : Folder)
    (changed : Bool) (name : Bytes) :
    (dropStale os valid names folder changed).1.get? name =
      if name ∈ names ∧ isStale valid name = true ∧ os.removes name = true then none
      else folder.get? name := by
  induction names generalizing folder changed with
  | nil => simp [dropStale]
  | cons n names ih =>
    have hremove : (os.remove folder n).get? name =
        if name = n ∧ os.removes n = true then none else folder.get? name := by
      unfold Os.remove
      by_cases hr : os.removes n = true
      · simp only [hr, if_true, OrdMap.get?_delete, and_true]
      · rw [if_neg hr, if_neg fun h => hr h.2]
    rw [dropStale]
    split
    · rename_i hs
      rw [ih, hremove]
      by_cases hn : name = n
      · subst hn
        by_cases hr : os.removes name = true
        · simp [hr, hs]
        · simp [hr]
      · simp [hn]
    · rename_i hs
      rw [ih]
      by_cases hn : name = n
      · subst hn
        simp [hs]
      · simp [hn]

theorem dropStale_changed (os : Os) (valid : List Bytes) (names : List Bytes) (folder : Folder)
    (changed : Bool) :
    (dropStale os valid names folder changed).2 = (changed || names.any (isStale valid)) := by
  induction names generalizing folder changed with
  | nil => simp [dropStale]
  | cons n names ih =>
    rw [dropStale, List.any_cons]
    split
    · rename_i hs
      rw [ih, hs]
      simp
    · rename_i hs
      rw [ih, eq_false_of_ne_true hs, Bool.false_or]

/-! ## A whole call -/

theorem Os.mem_names {os : Os} {folder : Folder} {name : Bytes} :
    name ∈ os.names folder ↔ os.readDir = true ∧ folder.get? name ≠ none := by
  unfold Os.names
  cases os.readDir with
  | false => simp
  | true =>
    simp only [if_true, true_and, OrdMap.keys, List.mem_map, Prod.exists,
      OrdMap.mem_entries_iff, Option.ne_none_iff_exists']
    constructor
    · rintro ⟨_, entry, hget, rfl⟩
      exact ⟨entry, hget⟩
    · rintro ⟨entry, hget⟩
      exact ⟨name, entry, hget, rfl⟩

/-- A call fails when the folder cannot be made or a file not be written. -/
theorem writeUsers_failed (os : Os) (exts : List EdgeExtension) (folder : Folder) :
    (writeUsers os exts folder).failed = true ↔
      os.mkdirAll = false ∨ WriteFails os exts folder := by
  rw [← writeFiles_failed os exts folder false]
  unfold writeUsers
  cases os.mkdirAll with
  | false => simp
  | true =>
    simp only [Bool.not_true, Bool.false_eq_true, if_false, reduceCtorEq, false_or]
    split
    · rfl
    · rename_i hok
      split
      · simpa using hok
      · rfl

/-- A call that succeeds runs the loop over the roster and, for a roster with entries, the one
    over the folder. -/
theorem writeUsers_of_ok {os : Os} {exts : List EdgeExtension} {folder : Folder}
    (hok : (writeUsers os exts folder).failed = false) :
    writeUsers os exts folder =
      let written := writeFiles os exts folder false
      let dropped :=
        dropStale os (validFiles exts) (os.names written.folder) written.folder written.changed
      if exts ≠ [] then ⟨dropped.1, dropped.2, false⟩ else written := by
  unfold writeUsers at hok ⊢
  cases hm : os.mkdirAll with
  | false => simp [hm] at hok
  | true =>
    simp only [hm, Bool.not_true, Bool.false_eq_true, if_false] at hok ⊢
    split at hok
    · rename_i hfail
      rw [hfail] at hok
      cases hok
    · rename_i hwritten
      rw [if_neg hwritten]
      exact if_congr List.length_pos_iff rfl rfl

/-- The folder after a call that succeeds: what was written, less what was stale and could be
    removed. -/
theorem get?_writeUsers {os : Os} {exts : List EdgeExtension} {folder : Folder}
    (hok : (writeUsers os exts folder).failed = false) (name : Bytes) :
    (writeUsers os exts folder).folder.get? name =
      if exts ≠ [] ∧ os.readDir = true ∧ isStale (validFiles exts) name = true ∧
        os.removes name = true then none
      else (writeFiles os exts folder false).folder.get? name := by
  rw [writeUsers_of_ok hok]
  by_cases hne : exts = []
  · simp [hne]
  · simp only [ne_eq, hne, not_false_eq_true, if_true, true_and]
    rw [get?_dropStale]
    simp only [Os.mem_names]
    cases hget : (writeFiles os exts folder false).folder.get? name with
    | none => simp
    | some entry => simp only [ne_eq, reduceCtorEq, not_false_eq_true, and_true]

/-- What a call that succeeds reports: a file written, or something stale found. -/
theorem writeUsers_changed {os : Os} {exts : List EdgeExtension} {folder : Folder}
    (hok : (writeUsers os exts folder).failed = false) :
    (writeUsers os exts folder).changed = true ↔
      (writeFiles os exts folder false).changed = true ∨
        exts ≠ [] ∧ os.readDir = true ∧ ∃ name, isStale (validFiles exts) name = true ∧
          (writeFiles os exts folder false).folder.get? name ≠ none := by
  rw [writeUsers_of_ok hok]
  by_cases hne : exts = []
  · simp [hne]
  · simp only [ne_eq, hne, not_false_eq_true, if_true, true_and]
    rw [dropStale_changed, Bool.or_eq_true, List.any_eq_true]
    refine or_congr_right ⟨?_, ?_⟩
    · rintro ⟨name, hname, hs⟩
      obtain ⟨hlist, hget⟩ := Os.mem_names.mp hname
      exact ⟨hlist, name, hs, hget⟩
    · rintro ⟨hlist, name, hs, hget⟩
      exact ⟨name, Os.mem_names.mpr ⟨hlist, hget⟩, hs⟩

/-- A stale name is none of the files written. -/
theorem get?_writeFiles_of_stale {os : Os} {exts : List EdgeExtension} {folder : Folder}
    {name : Bytes} (h : isStale (validFiles exts) name = true) :
    (writeFiles os exts folder false).folder.get? name = folder.get? name :=
  get?_writeFiles_of_not_mem (isStale_iff.mp h).2

theorem validFiles_eq_nil {exts : List EdgeExtension} :
    validFiles exts = [] ↔ ∀ e ∈ exts, extRe e.extension = false := by
  simp only [validFiles, List.map_eq_nil_iff, List.filter_eq_nil_iff, Bool.not_eq_true]

theorem EdgeExtension.not_stale {exts : List EdgeExtension} {e : EdgeExtension} (he : e ∈ exts)
    (hv : extRe e.extension = true) : isStale (validFiles exts) e.file = false := by
  rw [← Bool.not_eq_true, isStale_iff]
  exact fun h => h.2 (mem_validFiles.mpr ⟨e, he, hv, rfl⟩)

/-- Nothing stale that is listed is left. -/
theorem Synchronisable.no_stale {os : Os} {exts : List EdgeExtension} {folder : Folder}
    (h : Synchronisable os exts folder) (hok : (writeUsers os exts folder).failed = false)
    (hne : exts ≠ []) (hlist : os.readDir = true) {name : Bytes}
    (hs : isStale (validFiles exts) name = true) :
    (writeUsers os exts folder).folder.get? name = none := by
  rw [get?_writeUsers hok]
  by_cases hr : os.removes name = true
  · rw [if_pos ⟨hne, hlist, hs, hr⟩]
  · rw [if_neg fun hc => hr hc.2.2.2, get?_writeFiles_of_stale hs]
    cases hget : folder.get? name with
    | none => rfl
    | some entry =>
      cases entry with
      | file content => exact absurd (h.files hne name content hget hs).2.1 hr
      | dir => exact absurd (h.dirs hne name hget hs hlist) hr

theorem Synchronisable.no_stale_file {os : Os} {exts : List EdgeExtension} {folder : Folder}
    (h : Synchronisable os exts folder) (hok : (writeUsers os exts folder).failed = false)
    (hne : exts ≠ []) {name content : Bytes} (hs : isStale (validFiles exts) name = true) :
    (writeUsers os exts folder).folder.get? name ≠ some (.file content) := by
  intro hget
  rw [get?_writeUsers hok] at hget
  split at hget
  · cases hget
  · rename_i hkept
    rw [get?_writeFiles_of_stale hs] at hget
    obtain ⟨hlist, hr, -⟩ := h.files hne name content hget hs
    exact hkept ⟨hne, hlist, hs, hr⟩

theorem writeUsers_ok {os : Os} {exts : List EdgeExtension} {folder : Folder} :
    (writeUsers os exts folder).failed = false ↔
      os.mkdirAll = true ∧ (writeFiles os exts folder false).failed = false := by
  rw [← Bool.not_eq_true, writeUsers_failed, ← writeFiles_failed os exts folder false, not_or,
    Bool.not_eq_false, Bool.not_eq_true]

/-- Each file of the roster has its content after the call. -/
theorem Synchronisable.generated {os : Os} {exts : List EdgeExtension} {folder : Folder}
    (h : Synchronisable os exts folder) (hok : (writeUsers os exts folder).failed = false) :
    ∀ e ∈ exts, extRe e.extension = true →
      (writeUsers os exts folder).folder.get? e.file = some (.file e.content) := by
  intro e he hv
  rw [get?_writeUsers hok, if_neg fun hc => by simp [e.not_stale he hv] at hc]
  exact get?_writeFiles h.agree (writeUsers_ok.mp hok).2 e he hv

/-- The condition is enough. -/
theorem Synchronisable.synchronised {os : Os} {exts : List EdgeExtension} {folder : Folder}
    (h : Synchronisable os exts folder) (hok : (writeUsers os exts folder).failed = false) :
    Synchronised os exts folder := by
  refine ⟨fun _ hne name => ⟨?_, ?_⟩, fun _ => h.generated hok, fun _ => ?_, ?_⟩
  · rintro ⟨hsuffix, content, hget⟩
    by_contra hnot
    exact h.no_stale_file hok hne (isStale_iff.mpr ⟨hsuffix, hnot⟩) hget
  · intro hmem
    obtain ⟨e, he, hv, rfl⟩ := mem_validFiles.mp hmem
    exact ⟨e.file_suffix, e.content, h.generated hok e he hv⟩
  · -- every file reads as its entry wants it, so the second run writes nothing
    have hread := writeFiles_of_read os fun e he hv =>
      Os.readFile_of_file (h.generated hok e he hv) (h.reads e he hv)
    have hagain : (writeUsers os exts (writeUsers os exts folder).folder).failed = false :=
      writeUsers_ok.mpr ⟨(writeUsers_ok.mp hok).1, by rw [hread]⟩
    refine ⟨hagain, ?_, fun name => ?_⟩
    · rw [← Bool.not_eq_true, writeUsers_changed hagain, hread]
      rintro (hc | ⟨hne, hlist, name, hs, hget⟩)
      · cases hc
      · exact hget (h.no_stale hok hne hlist hs)
    · rw [get?_writeUsers hagain, hread]
      split
      · rename_i hc
        exact (h.no_stale hok hc.1 hc.2.1 hc.2.2.1).symm
      · rfl
  · intro hinvalid name ⟨hsuffix, content, hget⟩
    have hnil := validFiles_eq_nil.mpr hinvalid
    have hs : isStale (validFiles exts) name = true :=
      isStale_iff.mpr ⟨hsuffix, by rw [hnil]; exact List.not_mem_nil⟩
    rw [get?_writeUsers hok, if_neg, get?_writeFiles_of_stale hs]
    exact fun hc => (h.files hc.1 name content hget hs).2.2 hnil

/-- And it is needed. -/
theorem Synchronised.synchronisable {os : Os} {exts : List EdgeExtension} {folder : Folder}
    (h : Synchronised os exts folder) (hok : (writeUsers os exts folder).failed = false) :
    Synchronisable os exts folder := by
  have hgen := h.generated hok
  obtain ⟨hagain, hsame, -⟩ := h.stable hok
  have hquiet : ¬ _ := (writeUsers_changed hagain).not.mp (by rw [hsame]; exact Bool.false_ne_true)
  rw [not_or, Bool.not_eq_true] at hquiet
  refine ⟨?_, ?_, ?_, ?_⟩
  · -- both entries of an extension have the content of its one file
    intro e he e' he' hv hext
    have hfile : e.file = e'.file := by rw [EdgeExtension.file, EdgeExtension.file, hext]
    have hget := hgen e he hv
    rw [hfile, hgen e' he' (hext ▸ hv)] at hget
    exact (Entry.file.inj (Option.some.inj hget)).symm
  · intro e he hv
    have hread := read_of_writeFiles (writeUsers_ok.mp hagain).2 hquiet.1 e he hv
    exact (Os.file_of_readFile hread e.content_ne_nil).2
  · -- a stale file has to go, so it was listed and removed, and the roster has users
    intro hne name content hget hs
    have hgone : ¬ UserFile (writeUsers os exts folder).folder name := fun huser =>
      (isStale_iff.mp hs).2 ((h.exact hok hne name).mp huser)
    have hout := get?_writeUsers hok name
    rw [get?_writeFiles_of_stale hs, hget] at hout
    split at hout
    · rename_i hc
      refine ⟨hc.2.1, hc.2.2.2, fun hnil => ?_⟩
      have hkept := h.keeps (validFiles_eq_nil.mp hnil) name
        ⟨(isStale_iff.mp hs).1, content, hget⟩
      rw [hout, hget] at hkept
      cases hkept
    · exact absurd ⟨(isStale_iff.mp hs).1, content, hout⟩ hgone
  · -- a stale folder that stays is found again by the second run
    intro hne name hget hs hlist
    by_contra hr
    have hout := get?_writeUsers hok name
    rw [get?_writeFiles_of_stale hs, hget, if_neg fun hc => hr hc.2.2.2] at hout
    refine hquiet.2 ⟨hne, hlist, name, hs, ?_⟩
    rw [get?_writeFiles_of_stale hs, hout]
    simp

/-- A call does what the synchronisation owes exactly when it fails with an error, or the
    entries of each extension agree, the files can be read back, and nothing that has to go is
    hidden, cannot be removed, or is a user while the roster has none. -/
theorem synchronised_iff (os : Os) (exts : List EdgeExtension) (folder : Folder) :
    Synchronised os exts folder ↔
      os.mkdirAll = false ∨ WriteFails os exts folder ∨ Synchronisable os exts folder := by
  rw [← or_assoc, ← writeUsers_failed]
  cases hok : (writeUsers os exts folder).failed with
  | false =>
    simp only [Bool.false_eq_true, false_or]
    exact ⟨fun h => h.synchronisable hok, fun h => h.synchronised hok⟩
  | true =>
    refine iff_of_true ⟨?_, ?_, ?_, ?_⟩ (.inl rfl)
    · intro h; simp [hok] at h
    · intro h; simp [hok] at h
    · intro h; simp [hok] at h
    · intro hinvalid name _
      rcases (writeUsers_failed os exts folder).mp hok with hm | ⟨e, he, hv, -⟩
      · rw [writeUsers, hm]; rfl
      · rw [hinvalid e he] at hv
        cases hv

/-- A system on which no call fails. -/
def healthyOs : Os := ⟨true, true, fun _ => true, fun _ => true, fun _ => true⟩

/-- A folder with one user. -/
def oneUser : Folder := .ofList [(bytesOf "1001.xml", .file (bytesOf "<include/>"))]

/-- A roster without a valid user. -/
def invalidRoster : List EdgeExtension := [{ extension := "reception" }]

/-- A roster that lists a user twice. -/
def doubledRoster : List EdgeExtension :=
  [{ extension := "1001", password := "a" }, { extension := "1001", password := "b" }]

/-- The invalid roster removes the user, and the doubled one is never done. -/
theorem not_synchronised_invalidRoster :
    ¬ Synchronised healthyOs invalidRoster oneUser ∧
      ¬ Synchronised healthyOs doubledRoster oneUser := by
  constructor
  · intro h
    have hkept := h.keeps (by decide) (bytesOf "1001.xml")
      ⟨⟨bytesOf "1001", by decide⟩, bytesOf "<include/>", by decide⟩
    exact absurd hkept (by decide)
  · intro h
    have hok : (writeUsers healthyOs doubledRoster oneUser).failed = false := by
      rw [← Bool.not_eq_true, writeUsers_failed]
      rintro (hm | ⟨e, he, -, -, hw⟩)
      · cases hm
      · have hwritable : ∀ e ∈ doubledRoster, healthyOs.writable oneUser e.file = true := by decide
        rw [hwritable e he] at hw
        cases hw
    have hfirst := h.generated hok ⟨"1001", "a", "", "", ""⟩ (by decide) (by decide)
    have hsecond := h.generated hok ⟨"1001", "b", "", "", ""⟩ (by decide) (by decide)
    have hcontent := Entry.file.inj (Option.some.inj (hfirst.symm.trans hsecond))
    exact absurd (bytesOf_inj hcontent) (by decide +kernel)

end CallNet.Edge
