import CallNet.Edge.CdrShipping
import CallNet.ForStd.Utf8

/-!
# Voicemail upload of the edge agent

`flushVoicemail` of `edge/agent/main.go` with the state file of `store.go`, and the name that
`UploadVoicemail` of `handler/edge_handler.go` stores an upload under.  FreeSWITCH writes and
removes files at any time, also between the steps of a sweep.  A file is told by its path below
the voicemail directory.
-/

namespace CallNet.Edge

/-! ## Names on the central server -/

/-- `/` -/
def slash : UInt8 := 0x2F

/-- `\` -/
def backslash : UInt8 := 0x5C

/-- `_` -/
def underscore : UInt8 := 0x5F

/-- `.` -/
def dot : UInt8 := 0x2E

/-- `strings.NewReplacer("\\", "_", "/", "_")` on one byte. -/
def unseparate (b : UInt8) : UInt8 := if b = slash ∨ b = backslash then underscore else b

/-- What a file name in a multipart header comes out as: the writer percent-encodes the end of
    a line, the rest is quoted and read back. -/
def formFileName (name : Bytes) : Bytes :=
  name.flatMap fun b =>
    if b = 0x0D then [0x25, 0x30, 0x44] else if b = 0x0A then [0x25, 0x30, 0x41] else [b]

/-- `strings.ReplaceAll(s, "..", "")` -/
def dropDots : Bytes → Bytes
  | [] => []
  | [b] => [b]
  | b :: c :: rest => if b = dot ∧ c = dot then dropDots rest else b :: dropDots (c :: rest)

/-- The spaces of `unicode.IsSpace`, as bytes. -/
def spaces : List Bytes :=
  [[9], [10], [11], [12], [13], [32], [0xC2, 0x85], [0xC2, 0xA0], [0xE1, 0x9A, 0x80],
   [0xE2, 0x80, 0x80], [0xE2, 0x80, 0x81], [0xE2, 0x80, 0x82], [0xE2, 0x80, 0x83],
   [0xE2, 0x80, 0x84], [0xE2, 0x80, 0x85], [0xE2, 0x80, 0x86], [0xE2, 0x80, 0x87],
   [0xE2, 0x80, 0x88], [0xE2, 0x80, 0x89], [0xE2, 0x80, 0x8A], [0xE2, 0x80, 0xA8],
   [0xE2, 0x80, 0xA9], [0xE2, 0x80, 0xAF], [0xE2, 0x81, 0x9F], [0xE3, 0x80, 0x80]]

/-- The bytes of the space at the beginning, if there is one. -/
def spaceWidth (bs : Bytes) : Nat := ((spaces.find? (·.isPrefixOf bs)).map List.length).getD 0

/-- Either no space is at the beginning, or the width is that of the one that is. -/
theorem spaceWidth_cases (bs : Bytes) :
    (spaceWidth bs = 0 ∧ ∀ w ∈ spaces, ¬w <+: bs) ∨
    ∃ w ∈ spaces, ∃ more, bs = w ++ more ∧ spaceWidth bs = w.length := by
  unfold spaceWidth
  cases hfind : spaces.find? (·.isPrefixOf bs) with
  | none =>
    left
    refine ⟨rfl, ?_⟩
    intro w hw hpre
    have hfound := List.isPrefixOf_iff_prefix.mpr hpre
    exact List.find?_eq_none.mp hfind w hw hfound
  | some w =>
    right
    have hpre : w.isPrefixOf bs = true :=
      List.find?_some (p := fun w : Bytes => w.isPrefixOf bs) hfind
    obtain ⟨more, hmore⟩ := List.isPrefixOf_iff_prefix.mp hpre
    exact ⟨w, List.mem_of_find?_eq_some hfind, more, hmore.symm, rfl⟩

/-- Skip `n` bytes, and then the spaces after them. -/
def skipSpaces : Nat → Bytes → Bytes
  | _, [] => []
  | n + 1, _ :: rest => skipSpaces n rest
  | 0, b :: rest =>
    match spaceWidth (b :: rest) with
    | 0 => b :: rest
    | n + 1 => skipSpaces n rest

/-- `strings.TrimLeftFunc(s, unicode.IsSpace)` -/
def trimLeft (bs : Bytes) : Bytes := skipSpaces 0 bs

/-- `strings.TrimRightFunc(s, unicode.IsSpace)` -/
def trimRight : Bytes → Bytes
  | [] => []
  | b :: rest => if trimLeft (b :: rest) = [] then [] else b :: trimRight rest

/-- `strings.TrimSpace` -/
def trimSpace (bs : Bytes) : Bytes := trimRight (trimLeft bs)

/-- `"unknown"` -/
def unknownSegment : Bytes := [0x75, 0x6E, 0x6B, 0x6E, 0x6F, 0x77, 0x6E]

def sanitizeSegment (s : Bytes) : Bytes :=
  let s := trimSpace ((dropDots s).map unseparate)
  if s = [] then unknownSegment else s

/-- The name of an upload on the central server.  Nothing is left for `filepath.Base` to
    take off a name without separators. -/
def centralName (rel : Bytes) : Bytes := sanitizeSegment (formFileName (rel.map unseparate))

/-! ## The sweep -/

/-- `strings.ToLower` on a byte of ASCII. -/
def lowerByte (b : UInt8) : UInt8 := if 0x41 ≤ b ∧ b ≤ 0x5A then b + 0x20 else b

/-- `strings.HasSuffix(strings.ToLower(d.Name()), ".wav")`: no letter outside of ASCII has one
    of these in lower case, and the suffix lies within the last segment of the path. -/
def isWav (rel : Bytes) : Bool :=
  (rel.drop (rel.length - 4)).map lowerByte == [dot, 0x77, 0x61, 0x76]

/-- How many paths the agent remembers. -/
def maxUploaded : Nat := 5000

/-- `uploaded[len(uploaded)-5000:]`, when it is longer. -/
def trimUploaded (uploaded : List Bytes) : List Bytes :=
  uploaded.drop (uploaded.length - maxUploaded)

/-- What `loadState` makes of the paths that `saveState` wrote: JSON carries text only. -/
def jsonPaths (paths : List Bytes) : List Bytes := paths.map Utf8.coerce

/-- Where the agent is in `flushVoicemail`. -/
inductive SweepPhase where
  | idle
  /-- in `WalkDir`, with the files it has been to and `saved` -/
  | walking (visited : List Bytes) (saved : Bool)
deriving DecidableEq, Repr

structure VoicemailSync where
  /-- The files below the voicemail directory. -/
  files : List Bytes
  /-- `state.UploadedVoicemail` -/
  uploaded : List Bytes
  /-- What a restarted agent finds in the state file. -/
  stored : List Bytes
  phase : SweepPhase
  /-- The uploads that arrived at the central server. -/
  received : List Bytes
  /-- The files at the last sweep after which every one was uploaded and the state saved, while
      no other file has appeared. -/
  settled : Option (List Bytes)
  /-- The files that were uploaded while there was such a sweep. -/
  repeated : List Bytes
deriving DecidableEq, Repr

inductive UploadOutcome where
  /-- `os.ReadFile` fails. -/
  | unreadable
  | failed
  /-- The file arrives and the agent does not learn of it. -/
  | unanswered
  | accepted
deriving DecidableEq, Repr

inductive SaveOutcome where
  | saved
  /-- The state file is left as it was. -/
  | failed
  /-- The write breaks off, and what is left cannot be read. -/
  | cut
deriving DecidableEq, Repr

inductive VoicemailEvent where
  | appear (rel : Bytes)
  | vanish (rel : Bytes)
  | sweep
  | visit (rel : Bytes) (outcome : UploadOutcome)
  | finish (outcome : SaveOutcome)
  /-- `flushCDR` saves the state, with its own progress and that of the sweeps. -/
  | saveState (outcome : SaveOutcome)
  | restart
deriving DecidableEq, Repr

namespace VoicemailSync

def init : VoicemailSync where
  files := []
  uploaded := []
  stored := []
  phase := .idle
  received := []
  settled := none
  repeated := []

/-- The files a sweep is about. -/
def voicemails (s : VoicemailSync) : List Bytes := s.files.filter isWav

/-- Every voicemail is uploaded, as far as the agent remembers. -/
def Complete (s : VoicemailSync) : Prop := ∀ rel ∈ s.voicemails, rel ∈ s.uploaded

instance (s : VoicemailSync) : Decidable s.Complete := List.decidableBAll _ _

/-- The state file after `saveState`. -/
def save (s : VoicemailSync) : SaveOutcome → VoicemailSync
  | .saved => { s with stored := jsonPaths s.uploaded }
  | .failed => s
  | .cut => { s with stored := [] }

/-- Every file is uploaded, and the state is saved. -/
def settle (s : VoicemailSync) : VoicemailSync :=
  if s.settled = none then { s with settled := some s.files } else s

/-- An upload of `rel` is tried. -/
def attempt (s : VoicemailSync) (rel : Bytes) : VoicemailSync :=
  if s.settled = none then s else { s with repeated := rel :: s.repeated }

def step (s : VoicemailSync) : VoicemailEvent → Option VoicemailSync
  | .appear rel =>
    if rel ∈ s.files then none
    else
      some { s with
        files := rel :: s.files
        settled := s.settled.filter fun known => rel ∈ known }
  | .vanish rel => some { s with files := s.files.filter fun f => f ≠ rel }
  | .sweep =>
    match s.phase with
    | .idle => some { s with phase := .walking [] false }
    | .walking _ _ => none
  | .visit rel outcome =>
    match s.phase with
    | .idle => none
    | .walking visited saved =>
      if rel ∉ s.files ∨ rel ∈ visited then none
      else
        let s := { s with phase := .walking (rel :: visited) saved }
        if !isWav rel ∨ rel ∈ s.uploaded then some s
        else
          match outcome with
          | .unreadable => some s
          | .failed => some (s.attempt rel)
          | .unanswered => some { s.attempt rel with received := rel :: s.received }
          | .accepted =>
            some { s.attempt rel with
              received := rel :: s.received
              uploaded := s.uploaded ++ [rel]
              phase := .walking (rel :: visited) true }
  | .finish outcome =>
    match s.phase with
    | .idle => none
    | .walking _ saved =>
      let idle := { s with phase := .idle }
      if saved then
        let s' := { idle with uploaded := trimUploaded s.uploaded }.save outcome
        some (if s.Complete ∧ outcome = .saved then s'.settle else s')
      else some (if s.Complete ∧ s.stored = jsonPaths s.uploaded then idle.settle else idle)
  | .saveState outcome =>
    match s.phase with
    | .idle => some (s.save outcome)
    | .walking _ _ => none
  | .restart => some { s with phase := .idle, uploaded := s.stored }

end VoicemailSync

end CallNet.Edge
