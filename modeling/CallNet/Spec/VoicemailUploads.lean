import CallNet.Edge.VoicemailSync
import CallNet.ForStd.Machine
import Mathlib.Data.List.Forall2

/-!
# Voicemails are uploaded once

The agent remembers the paths it has uploaded, the last `maxUploaded` of them and as JSON text,
and the central server stores an upload under its path with the separators read as underscores.
So a sweep leaves nothing to do as long as the files of the device fit in that memory and come
back from it, and two files keep apart as long as their paths differ in more than separators.
-/

namespace CallNet.Edge

open Machine (Meets Throughout)

/-! ## Names on the central server -/

/-- What is left of a path but for the separators. -/
def segmentText (rel : Bytes) : Bytes := trimSpace (dropDots (formFileName rel))

/-- Two bytes that the central server does not tell apart. -/
def SameByte (b c : UInt8) : Prop :=
  b = c ∨ (b ∈ [slash, backslash, underscore] ∧ c ∈ [slash, backslash, underscore])

instance (b c : UInt8) : Decidable (SameByte b c) := inferInstanceAs (Decidable (_ ∨ _))

/-- The paths differ in nothing but which of `/`, `\` and `_` they have at a place, once the
    ends of lines are percent-encoded, `..` is left out and the space around is cut off. -/
def Collide (p q : Bytes) : Prop := List.Forall₂ SameByte (segmentText p) (segmentText q)

instance (p q : Bytes) : Decidable (Collide p q) := inferInstanceAs (Decidable (List.Forall₂ ..))

theorem unseparate_of_ne {b c : UInt8} (hu : c ≠ underscore) (hs : c ≠ slash) (hb : c ≠ backslash) :
    unseparate b = c ↔ b = c := by
  unfold unseparate
  split
  · rename_i h
    constructor
    · intro hc
      exact absurd hc.symm hu
    · rintro rfl
      rcases h with h | h
      · exact absurd h hs
      · exact absurd h hb
  · rfl

theorem unseparate_eq_iff (b c : UInt8) : unseparate b = unseparate c ↔ SameByte b c := by
  have hkept : ∀ d, d ∉ [slash, backslash, underscore] → unseparate d = d := by
    intro d hd
    simp only [List.mem_cons, List.not_mem_nil, or_false, not_or] at hd
    exact if_neg (not_or.mpr ⟨hd.1, hd.2.1⟩)
  have hread : ∀ d ∈ [slash, backslash, underscore], unseparate d = underscore := by
    intro d hd
    simp only [List.mem_cons, List.not_mem_nil, or_false] at hd
    obtain rfl | rfl | rfl := hd <;> rfl
  by_cases hb : b ∈ [slash, backslash, underscore] <;>
    by_cases hc : c ∈ [slash, backslash, underscore]
  · exact ⟨fun _ => .inr ⟨hb, hc⟩, fun _ => (hread b hb).trans (hread c hc).symm⟩
  · rw [hread b hb, hkept c hc]
    constructor
    · rintro rfl
      exact absurd (by decide) hc
    · rintro (rfl | ⟨-, h⟩)
      · exact absurd hb hc
      · exact absurd h hc
  · rw [hread c hc, hkept b hb]
    constructor
    · rintro rfl
      exact absurd (by decide) hb
    · rintro (rfl | ⟨h, -⟩)
      · exact absurd hc hb
      · exact absurd h hb
  · rw [hkept b hb, hkept c hc]
    constructor
    · exact .inl
    · rintro (h | ⟨h, -⟩)
      · exact h
      · exact absurd h hb

/-! ### Reading the separators does not interfere -/

theorem formFileName_cons (b : UInt8) (rest : Bytes) :
    formFileName (b :: rest) = (if b = 0x0D then [0x25, 0x30, 0x44]
      else if b = 0x0A then [0x25, 0x30, 0x41] else [b]) ++ formFileName rest :=
  List.flatMap_cons

theorem formFileName_map (bs : Bytes) :
    formFileName (bs.map unseparate) = (formFileName bs).map unseparate := by
  induction bs with
  | nil => rfl
  | cons b rest ih =>
    have hcr : unseparate b = 0x0D ↔ b = 0x0D :=
      unseparate_of_ne (by decide) (by decide) (by decide)
    have hlf : unseparate b = 0x0A ↔ b = 0x0A :=
      unseparate_of_ne (by decide) (by decide) (by decide)
    rw [List.map_cons, formFileName_cons, formFileName_cons, ih, List.map_append]
    congr 1
    by_cases h : b = 0x0D
    · rw [if_pos (hcr.mpr h), if_pos h]
      rfl
    · rw [if_neg (mt hcr.mp h), if_neg h]
      by_cases h' : b = 0x0A
      · rw [if_pos (hlf.mpr h'), if_pos h']
        rfl
      · rw [if_neg (mt hlf.mp h'), if_neg h']
        rfl

theorem dropDots_map (bs : Bytes) :
    dropDots (bs.map unseparate) = (dropDots bs).map unseparate := by
  have hdot : ∀ b, unseparate b = dot ↔ b = dot :=
    fun b => unseparate_of_ne (by decide) (by decide) (by decide)
  induction bs using dropDots.induct with
  | case1 => rfl
  | case2 b => rfl
  | case3 b c rest h ih =>
    simp only [List.map_cons, dropDots, hdot]
    rw [if_pos h, if_pos h, ih]
  | case4 b c rest h ih =>
    simp only [List.map_cons, dropDots, hdot] at ih ⊢
    rw [if_neg h, if_neg h, ih, List.map_cons]

theorem isPrefixOf_map_unseparate {w : Bytes} (hw : ∀ b ∈ w, b ∉ [slash, backslash, underscore])
    (bs : Bytes) : w.isPrefixOf (bs.map unseparate) = w.isPrefixOf bs := by
  induction w generalizing bs with
  | nil => rfl
  | cons a w ih =>
    cases bs with
    | nil => rfl
    | cons b bs =>
      have ha := hw a List.mem_cons_self
      simp only [List.mem_cons, List.not_mem_nil, or_false, not_or] at ha
      have hab : (a == unseparate b) = (a == b) := by
        rw [Bool.eq_iff_iff, beq_iff_eq, beq_iff_eq, eq_comm, eq_comm (a := a)]
        exact unseparate_of_ne ha.2.2 ha.1 ha.2.1
      rw [List.map_cons, List.isPrefixOf, List.isPrefixOf, hab,
        ih fun b hb => hw b (List.mem_cons_of_mem a hb)]

theorem spaceWidth_map (bs : Bytes) : spaceWidth (bs.map unseparate) = spaceWidth bs := by
  have hspaces : ∀ w ∈ spaces, ∀ b ∈ w, b ∉ [slash, backslash, underscore] := by
    have hall : spaces.all fun w => w.all fun b =>
        !([slash, backslash, underscore].contains b) := by
      decide
    intro w hw b hb
    have := List.all_eq_true.mp (List.all_eq_true.mp hall w hw) b hb
    simpa using this
  have hfind : ∀ ws : List Bytes, (∀ w ∈ ws, ∀ b ∈ w, b ∉ [slash, backslash, underscore]) →
      ws.find? (·.isPrefixOf (bs.map unseparate)) = ws.find? (·.isPrefixOf bs) := by
    intro ws hws
    induction ws with
    | nil => rfl
    | cons w ws ih =>
      rw [List.find?_cons, List.find?_cons,
        isPrefixOf_map_unseparate (hws w List.mem_cons_self) bs,
        ih fun w hw => hws w (List.mem_cons_of_mem _ hw)]
  unfold spaceWidth
  rw [hfind spaces hspaces]

theorem skipSpaces_map (n : Nat) (bs : Bytes) :
    skipSpaces n (bs.map unseparate) = (skipSpaces n bs).map unseparate := by
  induction bs generalizing n with
  | nil =>
    cases n <;> rfl
  | cons b rest ih =>
    cases n with
    | zero =>
      have hwidth : spaceWidth (unseparate b :: rest.map unseparate) = spaceWidth (b :: rest) :=
        spaceWidth_map (b :: rest)
      rw [List.map_cons, skipSpaces, skipSpaces, hwidth]
      cases spaceWidth (b :: rest) with
      | zero => rfl
      | succ n => exact ih n
    | succ n => exact ih n

theorem trimLeft_map (bs : Bytes) : trimLeft (bs.map unseparate) = (trimLeft bs).map unseparate :=
  skipSpaces_map 0 bs

theorem trimRight_map (bs : Bytes) :
    trimRight (bs.map unseparate) = (trimRight bs).map unseparate := by
  induction bs with
  | nil => rfl
  | cons b rest ih =>
    have htrim : trimLeft (unseparate b :: rest.map unseparate) =
        (trimLeft (b :: rest)).map unseparate := trimLeft_map (b :: rest)
    have hnil : (trimLeft (b :: rest)).map unseparate = [] ↔ trimLeft (b :: rest) = [] :=
      List.map_eq_nil_iff
    rw [List.map_cons, trimRight, trimRight, htrim]
    by_cases h : trimLeft (b :: rest) = []
    · rw [if_pos (hnil.mpr h), if_pos h]
      rfl
    · rw [if_neg (mt hnil.mp h), if_neg h, ih, List.map_cons]

theorem trimSpace_map (bs : Bytes) :
    trimSpace (bs.map unseparate) = (trimSpace bs).map unseparate := by
  rw [trimSpace, trimLeft_map, trimRight_map, trimSpace]

/-! ### A voicemail has a name -/

/-- Only bytes of spaces are skipped. -/
theorem mem_skipSpaces {n : Nat} {bs : Bytes} {b : UInt8} (hb : b ∈ bs.drop n) :
    b ∈ spaces.flatten ∨ b ∈ skipSpaces n bs := by
  induction bs generalizing n with
  | nil => exact absurd hb (by simp)
  | cons a rest ih =>
    cases n with
    | succ n => exact ih hb
    | zero =>
      rw [skipSpaces]
      obtain ⟨hwidth, -⟩ | ⟨w, hmem, more, hmore, hwidth⟩ := spaceWidth_cases (a :: rest)
      · rw [hwidth]
        exact .inr hb
      · have hspace : w ≠ [] := (by decide : ∀ w ∈ spaces, w ≠ []) w hmem
        obtain ⟨n, hn⟩ := Nat.exists_eq_succ_of_ne_zero (mt List.length_eq_zero_iff.mp hspace)
        have hdrop : rest.drop n = more := by
          have h := congrArg (List.drop w.length) hmore
          rw [List.drop_left, hn] at h
          exact h
        rw [hwidth, hn]
        rw [List.drop_zero, hmore] at hb
        rcases List.mem_append.mp hb with hw | hrest
        · exact .inl (List.mem_flatten_of_mem hmem hw)
        · exact ih (hdrop ▸ hrest)

theorem mem_trimLeft {bs : Bytes} {b : UInt8} (hb : b ∈ bs) :
    b ∈ spaces.flatten ∨ b ∈ trimLeft bs := mem_skipSpaces (n := 0) hb

theorem trimSpace_ne_nil {bs : Bytes} {b : UInt8} (hb : b ∈ bs) (hspace : b ∉ spaces.flatten) :
    trimSpace bs ≠ [] := by
  have hleft : b ∈ trimLeft bs := (mem_trimLeft hb).resolve_left hspace
  unfold trimSpace
  cases hbs : trimLeft bs with
  | nil =>
    rw [hbs] at hleft
    exact absurd hleft List.not_mem_nil
  | cons a rest =>
    rw [hbs] at hleft
    have hagain : b ∈ trimLeft (a :: rest) := (mem_trimLeft hleft).resolve_left hspace
    rw [trimRight, if_neg (List.ne_nil_of_mem hagain)]
    exact List.cons_ne_nil _ _

theorem mem_dropDots {bs : Bytes} {b : UInt8} (hb : b ∈ bs) (hdot : b ≠ dot) : b ∈ dropDots bs := by
  induction bs using dropDots.induct with
  | case1 => exact hb
  | case2 a => exact hb
  | case3 a c rest h ih =>
    rw [dropDots, if_pos h]
    simp only [List.mem_cons] at hb
    rcases hb with rfl | rfl | hb
    · exact absurd h.1 hdot
    · exact absurd h.2 hdot
    · exact ih hb
  | case4 a c rest h ih =>
    rw [dropDots, if_neg h]
    rcases List.mem_cons.mp hb with rfl | hb
    · exact List.mem_cons_self
    · exact List.mem_cons_of_mem _ (ih hb)

theorem mem_formFileName {bs : Bytes} {b : UInt8} (hb : b ∈ bs) (hcr : b ≠ 0x0D) (hlf : b ≠ 0x0A) :
    b ∈ formFileName bs := by
  refine List.mem_flatMap.mpr ⟨b, hb, ?_⟩
  rw [if_neg hcr, if_neg hlf]
  exact List.mem_singleton_self b

/-- The suffix of a voicemail stays. -/
theorem segmentText_ne_nil {rel : Bytes} (h : isWav rel = true) : segmentText rel ≠ [] := by
  unfold isWav at h
  have htail : (rel.drop (rel.length - 4)).map lowerByte = [dot, 0x77, 0x61, 0x76] :=
    beq_iff_eq.mp h
  have hw : (0x77 : UInt8) ∈ (rel.drop (rel.length - 4)).map lowerByte := by
    rw [htail]
    decide
  obtain ⟨b, hb, hlower⟩ := List.mem_map.mp hw
  have hletter : b = 0x57 ∨ b = 0x77 := by
    unfold lowerByte at hlower
    split at hlower
    · left
      have h := congrArg (· - 0x20) hlower
      simpa using h
    · exact .inr hlower
  have hmem : b ∈ rel := List.mem_of_mem_drop hb
  rcases hletter with rfl | rfl
  · exact trimSpace_ne_nil (mem_dropDots (mem_formFileName hmem (by decide) (by decide))
      (by decide)) (by decide)
  · exact trimSpace_ne_nil (mem_dropDots (mem_formFileName hmem (by decide) (by decide))
      (by decide)) (by decide)

theorem unseparate_unseparate (b : UInt8) : unseparate (unseparate b) = unseparate b := by
  unfold unseparate
  split
  · rfl
  · rfl

theorem centralName_eq {rel : Bytes} (h : isWav rel = true) :
    centralName rel = (segmentText rel).map unseparate := by
  have htwice : (unseparate ∘ unseparate) = unseparate := funext unseparate_unseparate
  unfold centralName sanitizeSegment
  dsimp only
  rw [formFileName_map, dropDots_map, List.map_map, htwice, trimSpace_map]
  exact if_neg (mt List.map_eq_nil_iff.mp (segmentText_ne_nil h))

/-- When two voicemails get one name. -/
theorem centralName_eq_iff {p q : Bytes} (hp : isWav p = true) (hq : isWav q = true) :
    centralName p = centralName q ↔ Collide p q := by
  have hsame : (fun b c => unseparate b = unseparate c) = SameByte :=
    funext fun b => funext fun c => propext (unseparate_eq_iff b c)
  rw [centralName_eq hp, centralName_eq hq, Collide, ← hsame, ← List.forall₂_map_right_iff,
    ← List.forall₂_map_left_iff, List.forall₂_eq_eq_eq]

/-! ## The property and its condition -/

namespace VoicemailSync

variable {s s' : VoicemailSync} {e : VoicemailEvent}

/-- Each file is uploaded until that has worked, and under a name of its own. -/
structure UploadsOnce (s : VoicemailSync) : Prop where
  /-- A sweep after which all is uploaded and saved leaves nothing to upload before another
      file appears. -/
  settled : s.repeated = []
  named : ∀ p ∈ s.received, ∀ q ∈ s.received, centralName p = centralName q → p = q

instance (s : VoicemailSync) : Decidable s.UploadsOnce :=
  decidable_of_iff (s.repeated = [] ∧
      ∀ p ∈ s.received, ∀ q ∈ s.received, centralName p = centralName q → p = q)
    ⟨fun h => ⟨h.1, h.2⟩, fun h => ⟨h.1, h.2⟩⟩

/-- A voicemail that arrives under a name of its own, a memory that is large enough for the
    files, and paths that the state file keeps. -/
def KeepsTrack (s : VoicemailSync) : VoicemailEvent → Prop
  | .visit rel outcome => isWav rel = true → rel ∉ s.uploaded →
    outcome = .unanswered ∨ outcome = .accepted →
    ∀ q ∈ s.received, q ≠ rel → ¬ Collide q rel
  | .finish .saved => s.Complete → ∀ rel ∈ s.voicemails, rel ∈ trimUploaded s.uploaded
  | .saveState .cut => s.settled = none
  | .restart => ∀ known ∈ s.settled, ∀ rel ∈ known, isWav rel = true → Utf8.Valid rel
  | _ => True

instance (s : VoicemailSync) (e : VoicemailEvent) : Decidable (s.KeepsTrack e) := by
  unfold KeepsTrack
  split <;> infer_instance

/-! ## The invariant -/

/-- What is known of a file that is settled. -/
structure Kept (s : VoicemailSync) (rel : Bytes) : Prop where
  uploaded : rel ∈ s.uploaded
  stored : Utf8.coerce rel ∈ s.stored

structure UploadInv (s : VoicemailSync) : Prop extends UploadsOnce s where
  wav : ∀ rel ∈ s.received, isWav rel = true
  files : ∀ known, s.settled = some known → s.files ⊆ known
  kept : ∀ known, s.settled = some known → ∀ rel ∈ known, isWav rel = true → s.Kept rel
  /-- A sweep that has uploaded something is one before all is settled. -/
  walking : ∀ visited, s.phase = .walking visited true → s.settled = none

theorem mem_voicemails {rel : Bytes} : rel ∈ s.voicemails ↔ rel ∈ s.files ∧ isWav rel = true :=
  List.mem_filter

theorem mem_jsonPaths {rel : Bytes} {paths : List Bytes} (h : rel ∈ paths) :
    Utf8.coerce rel ∈ jsonPaths paths := List.mem_map_of_mem h

/-- A settled voicemail is not uploaded again. -/
theorem UploadInv.settled_none {rel : Bytes} (h : s.UploadInv) (hfile : rel ∈ s.files)
    (hwav : isWav rel = true) (hnew : rel ∉ s.uploaded) : s.settled = none := by
  cases hsettled : s.settled with
  | none => rfl
  | some known =>
    have hknown : rel ∈ known := h.files known hsettled hfile
    exact absurd (h.kept known hsettled rel hknown hwav).uploaded hnew

/-! ## Steps -/

theorem uploadInv_appear {rel : Bytes} (h : s.UploadInv)
    (hstep : step s (.appear rel) = some s') : s'.UploadInv := by
  simp only [step] at hstep
  split at hstep
  · cases hstep
  · rw [← Option.some.inj hstep]
    -- what stays settled has the file that appears
    have hsettled : ∀ known, (s.settled.filter fun known => rel ∈ known) = some known →
        s.settled = some known ∧ rel ∈ known := by
      intro known hknown
      obtain ⟨hsome, hmem⟩ := Option.filter_eq_some_iff.mp hknown
      exact ⟨hsome, of_decide_eq_true hmem⟩
    refine ⟨⟨h.settled, h.named⟩, h.wav, ?_, ?_, ?_⟩
    · intro known hknown
      obtain ⟨hsome, hmem⟩ := hsettled known hknown
      exact List.cons_subset.mpr ⟨hmem, h.files known hsome⟩
    · intro known hknown file hfile hwav
      obtain ⟨hup, hst⟩ := h.kept known (hsettled known hknown).1 file hfile hwav
      exact ⟨hup, hst⟩
    · intro visited hphase
      have hnone := h.walking visited hphase
      dsimp only
      rw [hnone]
      rfl

theorem uploadInv_vanish {rel : Bytes} (h : s.UploadInv)
    (hstep : step s (.vanish rel) = some s') : s'.UploadInv := by
  rw [← Option.some.inj hstep]
  refine ⟨⟨h.settled, h.named⟩, h.wav, fun known hknown => ?_, fun known hknown file hfile hwav => ?_,
    h.walking⟩
  · exact fun file hfile => h.files known hknown (List.filter_sublist.subset hfile)
  · obtain ⟨hup, hst⟩ := h.kept known hknown file hfile hwav
    exact ⟨hup, hst⟩

theorem uploadInv_sweep (h : s.UploadInv) (hstep : step s .sweep = some s') : s'.UploadInv := by
  simp only [step] at hstep
  split at hstep
  · rw [← Option.some.inj hstep]
    refine ⟨⟨h.settled, h.named⟩, h.wav, h.files, fun known hknown file hfile hwav => ?_, nofun⟩
    obtain ⟨hup, hst⟩ := h.kept known hknown file hfile hwav
    exact ⟨hup, hst⟩
  · cases hstep

/-- One more upload arrives, of a file that keeps its own name. -/
theorem named_cons {rel : Bytes} (h : s.UploadInv) (hwav : isWav rel = true)
    (hown : ∀ q ∈ s.received, q ≠ rel → ¬ Collide q rel) :
    ∀ p ∈ rel :: s.received, ∀ q ∈ rel :: s.received, centralName p = centralName q → p = q := by
  have hnew : ∀ q ∈ s.received, centralName q = centralName rel → q = rel := by
    intro q hq hname
    by_contra hne
    exact hown q hq hne ((centralName_eq_iff (h.wav q hq) hwav).mp hname)
  intro p hp q hq hname
  rcases List.mem_cons.mp hp with hp | hp <;> rcases List.mem_cons.mp hq with hq | hq
  · exact hp.trans hq.symm
  · exact hp.trans (hnew q hq (hp ▸ hname.symm)).symm
  · exact (hnew p hp (hq ▸ hname)).trans hq.symm
  · exact h.named p hp q hq hname

theorem wav_cons {rel : Bytes} (h : s.UploadInv) (hwav : isWav rel = true) :
    ∀ p ∈ rel :: s.received, isWav p = true := by
  intro p hp
  rcases List.mem_cons.mp hp with rfl | hp
  · exact hwav
  · exact h.wav p hp

theorem attempt_of_none {rel : Bytes} (h : s.settled = none) : s.attempt rel = s := if_pos h

theorem uploadInv_visit {rel : Bytes} {outcome : UploadOutcome} (h : s.UploadInv)
    (hkeeps : KeepsTrack s (.visit rel outcome))
    (hstep : step s (.visit rel outcome) = some s') : s'.UploadInv := by
  cases hphase : s.phase with
  | idle => simp only [step, hphase] at hstep; cases hstep
  | walking visited saved =>
    simp only [step, hphase] at hstep
    split at hstep
    · cases hstep
    rename_i hpresent
    obtain ⟨hfile, -⟩ := not_or.mp hpresent
    rw [not_not] at hfile
    -- the walk goes on
    have hvisited : UploadInv { s with phase := .walking (rel :: visited) saved } := by
      refine ⟨⟨h.settled, h.named⟩, h.wav, h.files, fun known hknown file hmem hwav => ?_, ?_⟩
      · obtain ⟨hup, hst⟩ := h.kept known hknown file hmem hwav
        exact ⟨hup, hst⟩
      · rintro visited' hwalking
        injection hwalking with _ hsaved
        exact h.walking visited (hphase.trans (by rw [hsaved]))
    split at hstep
    · rw [← Option.some.inj hstep]
      exact hvisited
    rename_i hcandidate
    obtain ⟨hwav, hnew⟩ := not_or.mp hcandidate
    have hwav : isWav rel = true := by simpa using hwav
    have hnone : s.settled = none := h.settled_none hfile hwav hnew
    have hattempt : ({ s with phase := .walking (rel :: visited) saved } : VoicemailSync).attempt rel =
        { s with phase := .walking (rel :: visited) saved } := attempt_of_none hnone
    rw [hattempt] at hstep
    have hsettled : ∀ known, s.settled ≠ some known := by
      rw [hnone]
      nofun
    cases outcome with
    | unreadable =>
      rw [← Option.some.inj hstep]
      exact hvisited
    | failed =>
      rw [← Option.some.inj hstep]
      exact hvisited
    | unanswered =>
      rw [← Option.some.inj hstep]
      exact ⟨⟨h.settled, named_cons h hwav (hkeeps hwav hnew (.inl rfl))⟩, wav_cons h hwav,
        fun known hknown => absurd hknown (hsettled known),
        fun known hknown => absurd hknown (hsettled known), fun _ _ => hnone⟩
    | accepted =>
      rw [← Option.some.inj hstep]
      exact ⟨⟨h.settled, named_cons h hwav (hkeeps hwav hnew (.inr rfl))⟩, wav_cons h hwav,
        fun known hknown => absurd hknown (hsettled known),
        fun known hknown => absurd hknown (hsettled known), fun _ _ => hnone⟩

/-- Nothing is settled by a step that settles nothing. -/
theorem uploadInv_of_none (h : s.UploadInv) (hreceived : s'.received = s.received)
    (hrepeated : s'.repeated = s.repeated) (hnone : s'.settled = none) : s'.UploadInv := by
  have hsettled : ∀ known, s'.settled ≠ some known := by
    rw [hnone]
    nofun
  refine ⟨⟨hrepeated.trans h.settled, ?_⟩, ?_, fun known hknown => absurd hknown (hsettled known),
    fun known hknown => absurd hknown (hsettled known), fun _ _ => hnone⟩
  · rw [hreceived]
    exact h.named
  · rw [hreceived]
    exact h.wav

/-- Everything is settled when every file is in the memory and in the state file. -/
theorem uploadInv_settle (h : s.UploadInv) (hidle : s.phase = .idle)
    (hfiles : ∀ rel ∈ s.voicemails, s.Kept rel) : s.settle.UploadInv := by
  unfold settle
  split
  · refine ⟨⟨h.settled, h.named⟩, h.wav, ?_, ?_, ?_⟩
    · rintro known hknown
      cases hknown
      exact List.Subset.refl _
    · rintro known hknown rel hrel hwav
      cases hknown
      obtain ⟨hup, hst⟩ := hfiles rel (mem_voicemails.mpr ⟨hrel, hwav⟩)
      exact ⟨hup, hst⟩
    · intro visited hphase
      have hphase : s.phase = .walking visited true := hphase
      rw [hidle] at hphase
      cases hphase
  · exact h

theorem save_files (outcome : SaveOutcome) : (s.save outcome).files = s.files := by
  cases outcome <;> rfl

theorem save_uploaded (outcome : SaveOutcome) : (s.save outcome).uploaded = s.uploaded := by
  cases outcome <;> rfl

theorem save_stored : (s.save .saved).stored = jsonPaths s.uploaded := rfl

theorem save_received (outcome : SaveOutcome) : (s.save outcome).received = s.received := by
  cases outcome <;> rfl

theorem save_repeated (outcome : SaveOutcome) : (s.save outcome).repeated = s.repeated := by
  cases outcome <;> rfl

theorem save_settled (outcome : SaveOutcome) : (s.save outcome).settled = s.settled := by
  cases outcome <;> rfl

theorem uploadInv_finish {outcome : SaveOutcome} (h : s.UploadInv)
    (hkeeps : KeepsTrack s (.finish outcome)) (hstep : step s (.finish outcome) = some s') :
    s'.UploadInv := by
  cases hphase : s.phase with
  | idle => simp only [step, hphase] at hstep; cases hstep
  | walking visited saved =>
    cases saved with
    | true =>
      have hnone : s.settled = none := h.walking visited hphase
      simp only [step, hphase, if_true, Option.some.injEq] at hstep
      have hsaved : ∀ outcome, UploadInv
          (save { s with phase := .idle, uploaded := trimUploaded s.uploaded } outcome) :=
        fun outcome => uploadInv_of_none h (save_received outcome) (save_repeated outcome)
          ((save_settled outcome).trans hnone)
      subst hstep
      -- a complete sweep whose save succeeds: the memory kept every file, and the state file has it
      split
      · rename_i hdone
        obtain ⟨hcomplete, rfl⟩ := hdone
        refine uploadInv_settle (hsaved .saved) rfl fun rel hrel => ?_
        obtain ⟨hfile, hwav⟩ := mem_voicemails.mp hrel
        rw [save_files] at hfile
        have hmem : rel ∈ trimUploaded s.uploaded :=
          hkeeps hcomplete rel (mem_voicemails.mpr ⟨hfile, hwav⟩)
        constructor
        · rw [save_uploaded]
          dsimp only
          exact hmem
        · rw [save_stored]
          dsimp only
          exact mem_jsonPaths hmem
      · exact hsaved outcome
    | false =>
      simp only [step, hphase, Bool.false_eq_true, if_false, Option.some.injEq] at hstep
      have hidle : UploadInv { s with phase := .idle } := by
        refine ⟨⟨h.settled, h.named⟩, h.wav, h.files, fun known hknown file hmem hwav => ?_, nofun⟩
        obtain ⟨hup, hst⟩ := h.kept known hknown file hmem hwav
        exact ⟨hup, hst⟩
      subst hstep
      split
      · rename_i hdone
        obtain ⟨hcomplete, hstored⟩ := hdone
        refine uploadInv_settle hidle rfl fun rel hrel => ?_
        have hmem : rel ∈ s.uploaded := hcomplete rel hrel
        refine ⟨hmem, ?_⟩
        show Utf8.coerce rel ∈ s.stored
        rw [hstored]
        exact mem_jsonPaths hmem
      · exact hidle

theorem uploadInv_saveState {outcome : SaveOutcome} (h : s.UploadInv)
    (hkeeps : KeepsTrack s (.saveState outcome)) (hstep : step s (.saveState outcome) = some s') :
    s'.UploadInv := by
  cases hphase : s.phase with
  | walking visited saved => simp only [step, hphase] at hstep; cases hstep
  | idle =>
    simp only [step, hphase, Option.some.injEq] at hstep
    subst hstep
    cases outcome with
    | failed => exact h
    | cut => exact uploadInv_of_none h rfl rfl hkeeps
    | saved =>
      refine ⟨⟨h.settled, h.named⟩, h.wav, h.files, fun known hknown rel hrel hwav => ?_, h.walking⟩
      have hmem := (h.kept known hknown rel hrel hwav).uploaded
      exact ⟨hmem, mem_jsonPaths hmem⟩

theorem uploadInv_restart (h : s.UploadInv) (hkeeps : KeepsTrack s .restart)
    (hstep : step s .restart = some s') : s'.UploadInv := by
  rw [← Option.some.inj hstep]
  refine ⟨⟨h.settled, h.named⟩, h.wav, h.files, fun known hknown rel hrel hwav => ?_, nofun⟩
  have hstored := (h.kept known hknown rel hrel hwav).stored
  have hsame : Utf8.coerce rel = rel :=
    (Utf8.coerce_eq_self_iff rel).mpr (hkeeps known hknown rel hrel hwav)
  exact ⟨hsame ▸ hstored, hstored⟩

/-- What one step keeps. -/
theorem uploadInv_step (h : s.UploadInv) (hkeeps : KeepsTrack s e) (hstep : step s e = some s') :
    s'.UploadInv := by
  cases e with
  | appear rel => exact uploadInv_appear h hstep
  | vanish rel => exact uploadInv_vanish h hstep
  | sweep => exact uploadInv_sweep h hstep
  | visit rel outcome => exact uploadInv_visit h hkeeps hstep
  | finish outcome => exact uploadInv_finish h hkeeps hstep
  | saveState outcome => exact uploadInv_saveState h hkeeps hstep
  | restart => exact uploadInv_restart h hkeeps hstep

theorem uploadInv_init : init.UploadInv := ⟨⟨rfl, nofun⟩, nofun, nofun, nofun, nofun⟩

/-! ## Runs -/

/-- In every run of the device and its agent whose steps keep track, each file is uploaded until
    that has worked, and under a name of its own. -/
theorem uploadsOnce_throughout {es : List VoicemailEvent} (hkeeps : Meets step KeepsTrack init es) :
    Throughout step UploadsOnce init es :=
  (Machine.throughout_of_meets (fun _ _ _ h hkeep hstep => uploadInv_step h hkeep hstep)
    uploadInv_init hkeeps).mono fun _ h => h.toUploadsOnce

/-- `default/1001/msg_1.wav` -/
def firstMessage : Bytes := "default/1001/msg_1.wav".toUTF8.toList

/-- `default/1001/msg_2.wav` -/
def secondMessage : Bytes := "default/1001/msg_2.wav".toUTF8.toList

/-- A message, a sweep in which the upload fails, one in which it works, a restart, and another
    message. -/
def oneByOne : List VoicemailEvent :=
  [.appear firstMessage, .sweep, .visit firstMessage .failed, .finish .saved,
   .sweep, .visit firstMessage .accepted, .finish .saved, .restart,
   .sweep, .visit firstMessage .accepted, .finish .saved,
   .appear secondMessage, .sweep, .visit firstMessage .accepted, .visit secondMessage .accepted,
   .finish .saved]

theorem uploadsOnce_oneByOne : Meets step KeepsTrack init oneByOne ∧
    Throughout step UploadsOnce init oneByOne := by
  have hkeeps : Meets step KeepsTrack init oneByOne := by decide +kernel
  exact ⟨hkeeps, uploadsOnce_throughout hkeeps⟩

/-- `a/b.wav` -/
def nestedFile : Bytes := "a/b.wav".toUTF8.toList

/-- `a_b.wav` -/
def flatFile : Bytes := "a_b.wav".toUTF8.toList

def bothFiles : List VoicemailEvent :=
  [.appear nestedFile, .appear flatFile, .sweep, .visit nestedFile .accepted,
   .visit flatFile .accepted, .finish .saved]

theorem not_uploadsOnce_bothFiles : ¬ Throughout step UploadsOnce init bothFiles := by
  decide +kernel

end VoicemailSync

end CallNet.Edge
