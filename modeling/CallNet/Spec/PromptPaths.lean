import CallNet.Api.SoundHandler
import CallNet.Engine.Rating
import CallNet.ForStd.SplitOn
import CallNet.Spec.Characters
import Mathlib.Data.List.Chain

/-!
# Where prompts lie

A flow stores prompts by reference.  Whatever the reference is, what the interpreter plays for
it lies in the sounds folder, and a reference that the upload handler made up is played from
where the handler put the file.
-/

namespace CallNet

open PosixPath (Name Plain follow walk)

/-! ## The sounds folder -/

/-- `config.sounds.basePath` -/
def configuredSounds (SOUNDS_PATH : Option String) : String :=
  if truthy SOUNDS_PATH then SOUNDS_PATH.getD "" else "/usr/share/freeswitch/sounds"

theorem configuredSounds_ne (SOUNDS_PATH : Option String) :
    (configuredSounds SOUNDS_PATH).toList ≠ [] := by
  unfold configuredSounds
  split
  · rename_i h
    cases SOUNDS_PATH with
    | none => cases h
    | some path => exact fun hnil => truthy_some_iff.mp h (String.toList_inj.mp hnil)
  · decide

/-- `basePath.replace(/\/$/, '')` -/
def soundsRoot (basePath : String) : String :=
  match basePath.toList.reverse with
  | '/' :: rest => String.ofList rest.reverse
  | _ => basePath

/-- A path below the root is followed from the folder that the base path names. -/
theorem follow_soundsRoot {basePath : String} (hne : basePath.toList ≠ []) (cwd : List Name)
    (path : List Char) :
    follow cwd ((soundsRoot basePath).toList ++ '/' :: path) =
      walk (follow cwd basePath.toList) path := by
  unfold soundsRoot
  split
  · rename_i rest hrest
    have hbase : basePath.toList = rest.reverse ++ ['/'] := by
      rw [← List.reverse_reverse basePath.toList, hrest, List.reverse_cons]
    rw [hbase, String.toList_ofList]
    by_cases hroot : rest.reverse = []
    · -- the base path is the root itself
      rw [hroot]
      exact PosixPath.walk_append [] [] path
    · rw [PosixPath.follow_slash cwd hroot, PosixPath.follow_slash cwd hroot, PosixPath.walk_nil]
  · exact PosixPath.follow_slash cwd hne path

/-! ## Rendered prompts -/

/-- A sound of the media server, named by its place under the sounds root. -/
def IsSystemSound (audioFile : Option String) : Prop :=
  "system:".toList <+: (trim (audioFile.getD "")).toList

instance (audioFile : Option String) : Decidable (IsSystemSound audioFile) :=
  inferInstanceAs (Decidable (_ <+: _))

/-- What may be rendered for a prompt: a text to say, or a path into the sounds folder, for an
    uploaded prompt into the `ivr` folder in it. -/
def InsideSounds (cwd : List Name) (basePath : String) : Option Prompt → String → Prop
  | some (.tts _), rendered => ∃ text, rendered = "say:" ++ text
  | some (.audio audioFile), rendered =>
    let root := follow cwd basePath.toList
    (if IsSystemSound audioFile then root else root ++ ["ivr".toList]) <+:
      follow cwd rendered.toList
  | none, _ => False

/-- A component of a path stands in it. -/
theorem infix_of_mem_splitOn {path seg : List Char} (h : seg ∈ path.splitOn '/') :
    seg <:+: path := by
  have hjoin : ∀ segs : List (List Char), seg ∈ segs → seg <:+: ['/'].intercalate segs := by
    intro segs hmem
    induction segs with
    | nil => cases hmem
    | cons first rest ih =>
      cases rest with
      | nil =>
        rw [List.mem_singleton.mp hmem]
        simp [List.intercalate]
      | cons second rest =>
        rw [List.intercalate_cons_cons]
        rcases List.mem_cons.mp hmem with rfl | hmem
        · exact ⟨[], ['/'] ++ ['/'].intercalate (second :: rest), by simp⟩
        · exact (ih hmem).trans (List.suffix_append _ _).isInfix
  have := hjoin _ h
  rwa [List.intercalate_splitOn] at this

theorem no_dots_of_playable {file : String} (h : playableFile file = true) :
    ['.', '.'] ∉ file.toList.splitOn '/' := by
  intro hmem
  unfold playableFile at h
  rw [Bool.and_eq_true] at h
  simp [infix_of_mem_splitOn hmem] at h

/-- `renderPrompt` of an audio prompt. -/
theorem renderPrompt_audio (basePath : String) (audioFile : Option String) :
    renderPrompt basePath (some (.audio audioFile)) =
      let raw := trim (audioFile.getD "")
      if raw = "" then none
      else
        match stripPrefix? "system:".toList raw.toList with
        | some file =>
          if playableFile (String.ofList file) then
            some (soundsRoot basePath ++ "/" ++ String.ofList file) else none
        | none => if playableFile raw then some (soundsRoot basePath ++ "/ivr/" ++ raw) else none := by
  rw [renderPrompt]
  unfold soundsRoot
  -- no term that can be evaluated is left in the way of the comparison
  generalize trim (audioFile.getD "") = raw
  refine if_congr Iff.rfl rfl ?_
  generalize stripPrefix? "system:".toList raw.toList = file
  cases file <;> rfl

theorem renderPrompt_confined {basePath : String} (hne : basePath.toList ≠ []) (cwd : List Name)
    {prompt : Option Prompt} {rendered : String} (h : renderPrompt basePath prompt = some rendered) :
    InsideSounds cwd basePath prompt rendered := by
  rcases prompt with _ | text | audioFile
  · cases h
  · simp only [renderPrompt] at h
    split at h
    · cases h
    · cases h
      exact ⟨_, rfl⟩
  · -- an audio file: a system sound, or an upload under `ivr`
    rw [renderPrompt_audio] at h
    dsimp only at h
    split at h
    · cases h
    split at h
    · rename_i file hfile
      have hsystem : IsSystemSound audioFile := ⟨file, (stripPrefix?_eq_some.mp hfile).symm⟩
      split at h
      · rename_i hplayable
        cases h
        have hdots := no_dots_of_playable hplayable
        rw [String.toList_ofList] at hdots
        simp only [InsideSounds, hsystem, if_true, String.toList_append, String.toList_ofList,
          List.append_assoc]
        show _ <+: follow cwd ((soundsRoot basePath).toList ++ '/' :: file)
        rw [follow_soundsRoot hne]
        exact PosixPath.prefix_walk hdots _
      · cases h
    · rename_i hfile
      have hupload : ¬ IsSystemSound audioFile := by
        rintro ⟨file, hprefix⟩
        rw [← hprefix, stripPrefix?_append] at hfile
        cases hfile
      split at h
      · rename_i hplayable
        cases h
        simp only [InsideSounds, hupload, if_false, String.toList_append, List.append_assoc]
        show _ <+: follow cwd ((soundsRoot basePath).toList ++
          '/' :: ("ivr".toList ++ '/' :: (trim (audioFile.getD "")).toList))
        rw [follow_soundsRoot hne, PosixPath.walk_append]
        exact PosixPath.prefix_walk (no_dots_of_playable hplayable) _
      · cases h

/-! ## References of the upload handler -/

/-- No two dots stand next to each other. -/
def Undotted (s : List Char) : Prop := s.IsChain fun a b => ¬ (a = '.' ∧ b = '.')

/-- A component that the interpreter accepts. -/
structure Segment (s : List Char) : Prop where
  chars : ∀ c ∈ s, isAudioChar c = true
  undotted : Undotted s
  /-- It is neither empty nor a place in the directory tree. -/
  named : ∃ c ∈ s, c ≠ '.'

theorem isAudioChar_of_isSafe {c : Char} (h : Sounds.isSafe c = true) : isAudioChar c = true := by
  unfold Sounds.isSafe at h
  unfold isAudioChar
  simp only [decide_eq_true_eq] at h ⊢
  rcases h with h | h | h
  · exact .inl h
  · exact .inr (.inr (.inl h))
  · exact .inr (.inr (.inr h))

theorem ne_dot_of_isSafe {c : Char} (h : Sounds.isSafe c = true) : c ≠ '.' := by
  rintro rfl
  exact absurd h (by decide)

theorem isSafe_of_isDigit {c : Char} (h : isDigit c = true) : Sounds.isSafe c = true := by
  unfold Sounds.isSafe
  simp [isAlnum_of_isDigit h]

theorem undotted_of_no_dot {s : List Char} (h : ∀ c ∈ s, c ≠ '.') : Undotted s := by
  refine List.isChain_iff_forall_rel_of_append_cons_cons.mpr ?_
  rintro a b l l' rfl ⟨rfl, -⟩
  exact h '.' (by simp) rfl

/-- Between two texts of which one ends, or the other begins, with something else. -/
theorem undotted_append {s t : List Char} (hs : Undotted s) (ht : Undotted t)
    (h : s.getLast? ≠ some '.' ∨ t.head? ≠ some '.') : Undotted (s ++ t) := by
  refine List.isChain_append.mpr ⟨hs, ht, ?_⟩
  rintro x hx y hy ⟨rfl, rfl⟩
  rcases h with h | h
  · exact h hx
  · exact h hy

theorem segment_of_safe {s : List Char} (hne : s ≠ []) (h : ∀ c ∈ s, Sounds.isSafe c = true) :
    Segment s := by
  refine ⟨fun c hc => isAudioChar_of_isSafe (h c hc),
    undotted_of_no_dot fun c hc => ne_dot_of_isSafe (h c hc), ?_⟩
  obtain ⟨c, cs, rfl⟩ := List.exists_cons_of_ne_nil hne
  exact ⟨c, List.mem_cons_self, ne_dot_of_isSafe (h c List.mem_cons_self)⟩

/-- One dot between safe characters. -/
theorem segment_dot {a b : List Char} (ha : ∀ c ∈ a, Sounds.isSafe c = true) (hne : a ≠ [])
    (hb : ∀ c ∈ b, Sounds.isSafe c = true) : Segment (a ++ '.' :: b) := by
  have hleft := segment_of_safe hne ha
  have hright : Undotted ('.' :: b) := by
    refine undotted_append (s := ['.']) (.singleton '.')
      (undotted_of_no_dot fun c hc => ne_dot_of_isSafe (hb c hc)) (.inr fun hdot => ?_)
    exact ne_dot_of_isSafe (hb '.' (List.mem_of_mem_head? hdot)) rfl
  constructor
  · intro c hc
    rcases List.mem_append.mp hc with hc | hc
    · exact hleft.chars c hc
    · rcases List.mem_cons.mp hc with rfl | hc
      · decide
      · exact isAudioChar_of_isSafe (hb c hc)
  · refine undotted_append hleft.undotted hright (.inl fun hdot => ?_)
    exact ne_dot_of_isSafe (ha '.' (List.mem_of_mem_getLast? hdot)) rfl
  · obtain ⟨c, hc, hcdot⟩ := hleft.named
    exact ⟨c, List.mem_append_left _ hc, hcdot⟩

theorem Segment.plain {s : List Char} (h : Segment s) : Plain s := by
  obtain ⟨c, hc, hdot⟩ := h.named
  constructor
  · rintro rfl
    cases hc
  · rintro rfl
    exact hdot (List.mem_singleton.mp hc)
  · rintro rfl
    simp at hc
    exact hdot hc
  · intro hslash
    exact absurd (h.chars '/' hslash) (by decide)

theorem isSpace_of_isAudioChar {c : Char} (h : isAudioChar c = true) : isSpace c = false := by
  unfold isAudioChar at h
  simp only [decide_eq_true_eq] at h
  rcases h with h | rfl | rfl | rfl
  · exact isSpace_of_isAlnum h
  · decide
  · decide
  · decide

/-- A path of components. -/
def pathOf (segs : List Name) : String := String.ofList (['/'].intercalate segs)

section Paths

variable {segs : List Name}

theorem mem_intercalate {c : Char} (h : c ∈ ['/'].intercalate segs) :
    c = '/' ∨ ∃ seg ∈ segs, c ∈ seg := by
  induction segs with
  | nil => cases h
  | cons first rest ih =>
    cases rest with
    | nil => exact .inr ⟨first, List.mem_cons_self, by simpa [List.intercalate] using h⟩
    | cons second rest =>
      rw [List.intercalate_cons_cons, List.append_assoc, List.mem_append] at h
      rcases h with h | h
      · exact .inr ⟨first, List.mem_cons_self, h⟩
      · rcases List.mem_cons.mp h with hslash | h
        · exact .inl hslash
        · rcases ih h with hslash | ⟨seg, hseg, hc⟩
          · exact .inl hslash
          · exact .inr ⟨seg, List.mem_cons_of_mem _ hseg, hc⟩

theorem undotted_intercalate (h : ∀ seg ∈ segs, Segment seg) :
    Undotted (['/'].intercalate segs) := by
  induction segs with
  | nil => exact .nil
  | cons first rest ih =>
    have hfirst := (h first List.mem_cons_self).undotted
    have hrest := ih fun seg hseg => h seg (List.mem_cons_of_mem _ hseg)
    cases rest with
    | nil => simpa [List.intercalate] using hfirst
    | cons second rest =>
      rw [List.intercalate_cons_cons, List.append_assoc]
      have hslash : Undotted (['/'] ++ ['/'].intercalate (second :: rest)) :=
        undotted_append (.singleton '/') hrest (.inl (by decide))
      exact undotted_append hfirst hslash (.inr (by simp))

/-- The interpreter accepts a path of such components. -/
theorem playable_pathOf (hne : segs ≠ []) (h : ∀ seg ∈ segs, Segment seg) :
    playableFile (pathOf segs) = true := by
  have hsplit : (pathOf segs).splitOn "/" = segs.map String.ofList := by
    have hchars : (pathOf segs).splitOn "/" =
        ((pathOf segs).toList.splitOn '/').map String.ofList :=
      String.splitOn_singleton (pathOf segs) '/'
    rw [hchars, pathOf, String.toList_ofList,
      List.splitOn_intercalate '/' (fun seg hseg => (h seg hseg).plain.no_slash) hne]
  -- neither inside a component nor across a slash do two dots meet
  have hdots : ¬ ['.', '.'] <:+: (pathOf segs).toList := by
    intro hinfix
    rw [pathOf, String.toList_ofList] at hinfix
    have hchain := List.IsChain.infix (undotted_intercalate h) hinfix
    simp at hchain
  have hsafe : safeAudioFile (pathOf segs) = true := by
    unfold safeAudioFile
    rw [hsplit, List.all_eq_true]
    intro segment hsegment
    obtain ⟨seg, hseg, rfl⟩ := List.mem_map.mp hsegment
    have hchars : (String.ofList seg).toList.all isAudioChar = true := by
      rw [String.toList_ofList, List.all_eq_true]
      exact (h seg hseg).chars
    have hnonempty : String.ofList seg ≠ "" := by
      intro hempty
      have := congrArg String.toList hempty
      rw [String.toList_ofList] at this
      exact (h seg hseg).plain.ne_nil this
    exact decide_eq_true ⟨hnonempty, hchars⟩
  unfold playableFile
  rw [hsafe, Bool.and_true, Bool.not_eq_true', decide_eq_false_iff_not]
  exact hdots

/-- What the interpreter plays for it. -/
theorem renderPrompt_pathOf (basePath : String) (hne : segs ≠ [])
    (h : ∀ seg ∈ segs, Segment seg) :
    renderPrompt basePath (some (.audio (some (pathOf segs)))) =
      some (soundsRoot basePath ++ "/ivr/" ++ pathOf segs) := by
  have hchar : ∀ c ∈ (pathOf segs).toList, c = '/' ∨ isAudioChar c = true := by
    intro c hc
    rw [pathOf, String.toList_ofList] at hc
    rcases mem_intercalate hc with hslash | ⟨seg, hseg, hmem⟩
    · exact .inl hslash
    · exact .inr ((h seg hseg).chars c hmem)
  have htrim : trim (pathOf segs) = pathOf segs := by
    refine trim_of_no_space fun c hc => ?_
    rcases hchar c hc with rfl | haudio
    · decide
    · exact isSpace_of_isAudioChar haudio
  have hplayable := playable_pathOf hne h
  have hempty : pathOf segs ≠ "" := by
    intro hempty
    have hnil : ['/'].intercalate segs = [] := by
      rw [← String.toList_ofList (l := ['/'].intercalate segs)]
      exact congrArg String.toList hempty
    have hsegs : segs = [[]] := by
      rw [← List.splitOn_intercalate '/' (fun seg hseg => (h seg hseg).plain.no_slash) hne, hnil]
      rfl
    exact (h [] (hsegs ▸ List.mem_cons_self)).plain.ne_nil rfl
  -- a component has no colon, so the path is not taken for a system sound
  have hupload : stripPrefix? "system:".toList (pathOf segs).toList = none := by
    rw [Option.eq_none_iff_forall_ne_some]
    intro rest hrest
    have hcolon : ':' ∈ (pathOf segs).toList := by
      rw [stripPrefix?_eq_some.mp hrest]
      simp
    rcases hchar ':' hcolon with hslash | haudio
    · exact absurd hslash (by decide)
    · exact absurd haudio (by decide)
  rw [renderPrompt_audio, Option.getD_some, htrim]
  simp only [hempty, if_false, hupload, hplayable, if_true]

end Paths

/-! ### The components of a stored reference -/

theorem decodeLossy_ne_nil {bs : List UInt8} (h : bs ≠ []) : Utf8.decodeLossy bs ≠ [] := by
  obtain ⟨b, rest, rfl⟩ := List.exists_cons_of_ne_nil h
  rw [Utf8.decodeLossy]
  split <;> exact List.cons_ne_nil _ _

theorem isSafe_safeMap (s : List UInt8) : ∀ c ∈ Sounds.safeMap s, Sounds.isSafe c = true := by
  intro c hc
  obtain ⟨r, -, rfl⟩ := List.mem_map.mp hc
  split
  · rename_i hsafe
    exact hsafe
  · decide

theorem segment_safeExtToken {extension : List UInt8} (h : extension ≠ []) :
    Segment (Sounds.safeExtToken extension) :=
  segment_of_safe (fun hnil => decodeLossy_ne_nil h (List.map_eq_nil_iff.mp hnil))
    (isSafe_safeMap extension)

theorem segment_safeSoundName (name : List UInt8) : Segment (Sounds.safeSoundName name) := by
  unfold Sounds.safeSoundName
  have hwav : ∀ c ∈ ['w', 'a', 'v'], Sounds.isSafe c = true := List.all_eq_true.mp (by decide)
  have haudio : ∀ c ∈ ['a', 'u', 'd', 'i', 'o'], Sounds.isSafe c = true :=
    List.all_eq_true.mp (by decide)
  have hmap := isSafe_safeMap (Sounds.trimSuffix (Sounds.base name) (Sounds.ext name))
  generalize Sounds.safeMap _ = stem at hmap
  have hcut : ∀ c ∈ (if stem.length > 60 then stem.take 60 else stem),
      Sounds.isSafe c = true := by
    intro c hc
    split at hc
    · exact hmap c (List.mem_of_mem_take hc)
    · exact hmap c hc
  dsimp only
  generalize (if stem.length > 60 then stem.take 60 else stem) = stem at hcut
  split
  · exact segment_dot haudio (by simp) hwav
  · rename_i hne
    exact segment_dot hcut hne hwav

theorem isSafe_leftpad {n width : Nat} : ∀ c ∈ (Nat.toDigits 10 n).leftpad width '0',
    Sounds.isSafe c = true := by
  intro c hc
  rw [List.leftpad, List.mem_append] at hc
  rcases hc with hc | hc
  · rw [(List.mem_replicate.mp hc).2]
    decide
  · exact isSafe_of_isDigit (isDigit_of_mem_toDigits hc)

theorem isSafe_appendInt (x : Int) (width : Nat) :
    ∀ c ∈ Sounds.appendInt x width, Sounds.isSafe c = true := by
  intro c hc
  rcases List.mem_append.mp hc with hc | hc
  · split at hc
    · rw [List.mem_singleton.mp hc]
      decide
    · cases hc
  · exact isSafe_leftpad c hc

theorem segment_format (t : Sounds.UtcTime) : Segment t.format := by
  have hsplit : t.format = (Sounds.appendInt t.year 4 ++ Sounds.appendInt t.month 2 ++
      Sounds.appendInt t.day 2 ++ '-' :: (Sounds.appendInt t.hour 2 ++
        Sounds.appendInt t.minute 2 ++ Sounds.appendInt t.second 2)) ++
      '.' :: (Nat.toDigits 10 (t.nanosecond / 1000000)).leftpad 3 '0' := by
    simp only [Sounds.UtcTime.format, List.append_assoc, List.cons_append]
  rw [hsplit]
  refine segment_dot ?_ (by simp) isSafe_leftpad
  intro c hc
  simp only [List.mem_append, List.mem_cons, or_assoc] at hc
  rcases hc with hc | hc | hc | rfl | hc | hc | hc
  · exact isSafe_appendInt _ _ c hc
  · exact isSafe_appendInt _ _ c hc
  · exact isSafe_appendInt _ _ c hc
  · decide
  · exact isSafe_appendInt _ _ c hc
  · exact isSafe_appendInt _ _ c hc
  · exact isSafe_appendInt _ _ c hc

/-- A stored reference is a path of three components. -/
theorem storeName_eq {extension fileName : List UInt8} {now : Sounds.UtcTime} {ref : String}
    (h : Sounds.storeName extension fileName now = some ref) :
    ∃ segs : List Name, segs ≠ [] ∧ (∀ seg ∈ segs, Segment seg) ∧ ref = pathOf segs := by
  unfold Sounds.storeName at h
  split at h
  · cases h
  rename_i hne
  have hext := segment_safeExtToken hne
  have htime := segment_format now
  have hname := segment_safeSoundName fileName
  -- from here on only what is known of the three components matters
  generalize Sounds.safeExtToken extension = ext at h hext
  generalize now.format = time at h htime
  generalize Sounds.safeSoundName fileName = name at h hname
  have hsegs : ∀ seg ∈ [ext, time], Segment seg := by
    intro seg hseg
    rcases List.mem_cons.mp hseg with rfl | hseg
    · exact hext
    · exact List.mem_singleton.mp hseg ▸ htime
  refine ⟨[ext, time] ++ [name], by simp, ?_, ?_⟩
  · intro seg hseg
    rcases List.mem_append.mp hseg with hseg | hseg
    · exact hsegs seg hseg
    · exact List.mem_singleton.mp hseg ▸ hname
  · rw [pathOf,
      ← PosixPath.join_concat (by simp) (fun seg hseg => (hsegs seg hseg).plain) hname.plain]
    exact (Option.some.inj h).symm

/-- What is rendered for a prompt lies in the sounds folder, and a stored reference is played from
    where the upload handler put it. -/
theorem prompt_paths (SOUNDS_PATH : Option String) (cwd : List Name) :
    (∀ prompt rendered, renderPrompt (configuredSounds SOUNDS_PATH) prompt = some rendered →
      InsideSounds cwd (configuredSounds SOUNDS_PATH) prompt rendered) ∧
      ∀ extension fileName now ref, Sounds.storeName extension fileName now = some ref →
        renderPrompt (configuredSounds SOUNDS_PATH) (some (.audio (some ref))) =
          some (soundsRoot (configuredSounds SOUNDS_PATH) ++ "/ivr/" ++ ref) := by
  constructor
  · intro prompt rendered h
    exact renderPrompt_confined (configuredSounds_ne SOUNDS_PATH) cwd h
  · intro extension fileName now ref h
    obtain ⟨segs, hne, hsegs, rfl⟩ := storeName_eq h
    exact renderPrompt_pathOf _ hne hsegs

/-- An upload of extension 7 to a server with the default folder. -/
theorem prompt_paths_default :
    ∃ ref, Sounds.storeName [0x37] [0x61, 0x2F, 0x2E, 0x2E] ⟨2025, 1, 31, 9, 5, 0, 70000000⟩ =
        some ref ∧
      InsideSounds [] "/usr/share/freeswitch/sounds" (some (.audio (some ref)))
        (soundsRoot "/usr/share/freeswitch/sounds" ++ "/ivr/" ++ ref) := by
  have hpaths := prompt_paths none []
  obtain ⟨ref, href⟩ : ∃ ref, Sounds.storeName [0x37] [0x61, 0x2F, 0x2E, 0x2E]
      ⟨2025, 1, 31, 9, 5, 0, 70000000⟩ = some ref := ⟨_, if_neg (by decide)⟩
  exact ⟨ref, href, hpaths.1 _ _ (hpaths.2 _ _ _ ref href)⟩

end CallNet
