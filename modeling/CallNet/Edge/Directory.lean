import CallNet.Edge.CdrShipping
import CallNet.Engine.DialPlan
import CallNet.ForStd.OrdMap
import CallNet.ForStd.Utf8

/-!
# The user directory of the edge agent

`writeUsers` of `edge/agent/directory.go`: one XML file for every extension that the central
server lists, in a folder that FreeSWITCH reads.

The folder is a map from names to entries.  Which of the system's calls fail is the `Os` of a
run: reading, writing or removing one name, listing the folder, creating it.  A call that
fails leaves the folder as it is.
-/

namespace CallNet.Edge

/-! ## The folder -/

/-- An entry of a folder. -/
inductive Entry where
  | file (content : Bytes)
  | dir
deriving DecidableEq, Repr

/-- A folder, by name. -/
abbrev Folder := OrdMap Bytes Entry

/-- The system calls that succeed. -/
structure Os where
  mkdirAll : Bool
  readDir : Bool
  reads : Bytes → Bool
  writes : Bytes → Bool
  removes : Bytes → Bool

namespace Os

variable (os : Os)

/-- What `os.ReadFile` returns, without its error. -/
def readFile (folder : Folder) (name : Bytes) : Bytes :=
  match folder.get? name with
  | some (.file content) => if os.reads name then content else []
  | _ => []

/-- Whether `os.WriteFile` succeeds: it cannot replace a directory. -/
def writable (folder : Folder) (name : Bytes) : Bool :=
  folder.get? name ≠ some .dir ∧ os.writes name

def remove (folder : Folder) (name : Bytes) : Folder :=
  if os.removes name then folder.delete name else folder

/-- The names that `os.ReadDir` returns. -/
def names (folder : Folder) : List Bytes := if os.readDir then folder.keys else []

end Os

/-! ## The users -/

structure EdgeExtension where
  extension : String
  password : String := ""
  name : String := ""
  vmPassword : String := ""
  callerIDNumber : String := ""
deriving DecidableEq, Repr

/-- `^\d{2,8}$` -/
def extRe (s : String) : Bool := s.toList.all isDigit ∧ 2 ≤ s.length ∧ s.length ≤ 8

def xmlEscChar : Char → String
  | '&' => "&amp;"
  | '<' => "&lt;"
  | '>' => "&gt;"
  | '"' => "&quot;"
  | c => c.toString

def xmlEsc (s : String) : String := String.join (s.toList.map xmlEscChar)

def userXML (e : EdgeExtension) : String :=
  let pw := if e.password ≠ "" then xmlEsc e.password else "$${default_password}"
  let vm := if e.vmPassword = "" then e.extension else e.vmPassword
  let cid := if e.callerIDNumber = "" then e.extension else e.callerIDNumber
  let name := if e.name = "" then "Extension " ++ e.extension else e.name
  "<include>\n" ++
    "  <user id=\"" ++ xmlEsc e.extension ++ "\">\n" ++
    "    <params>\n" ++
    "      <param name=\"password\" value=\"" ++ pw ++ "\"/>\n" ++
    "      <param name=\"vm-password\" value=\"" ++ xmlEsc vm ++ "\"/>\n" ++
    "    </params>\n" ++
    "    <variables>\n" ++
    "      <variable name=\"user_context\" value=\"default\"/>\n" ++
    "      <variable name=\"effective_caller_id_name\" value=\"" ++ xmlEsc name ++ "\"/>\n" ++
    "      <variable name=\"effective_caller_id_number\" value=\"" ++ xmlEsc cid ++ "\"/>\n" ++
    "      <variable name=\"outbound_caller_id_number\" value=\"" ++ xmlEsc cid ++ "\"/>\n" ++
    "    </variables>\n" ++
    "  </user>\n" ++
    "</include>\n"

/-- The carrier's account at a site. -/
structure EdgeTrunk where
  username : String
  password : String
  realm : String
  proxy : String
  register : Option Bool
deriving DecidableEq, Repr

def trunkXML (t : EdgeTrunk) : String :=
  let reg := if t.register = some false then "false" else "true"
  "<include>\n" ++
    "  <gateway name=\"callnet_trunk\">\n" ++
    "    <param name=\"username\" value=\"" ++ xmlEsc t.username ++ "\"/>\n" ++
    "    <param name=\"password\" value=\"" ++ xmlEsc t.password ++ "\"/>\n" ++
    "    <param name=\"realm\" value=\"" ++ xmlEsc t.realm ++ "\"/>\n" ++
    "    <param name=\"proxy\" value=\"" ++ xmlEsc t.proxy ++ "\"/>\n" ++
    "    <param name=\"register\" value=\"" ++ reg ++ "\"/>\n" ++
    "    <param name=\"caller-id-in-from\" value=\"true\"/>\n" ++
    "    <param name=\"expire-seconds\" value=\"600\"/>\n" ++
    "    <param name=\"retry-seconds\" value=\"30\"/>\n" ++
    "  </gateway>\n" ++
    "</include>\n"

/-- The bytes of a Go string. -/
def bytesOf (s : String) : Bytes := Utf8.encode s.toList

/-- The file of an extension. -/
def EdgeExtension.file (e : EdgeExtension) : Bytes := bytesOf (e.extension ++ ".xml")

/-- What the file of an entry is to contain. -/
def EdgeExtension.content (e : EdgeExtension) : Bytes := bytesOf (userXML e)

/-! ## Synchronisation -/

/-- What a call leaves and returns. -/
structure Outcome where
  folder : Folder
  changed : Bool
  /-- Whether an error is returned. -/
  failed : Bool

/-- The loop over the roster: write what differs. -/
def writeFiles (os : Os) : List EdgeExtension → Folder → Bool → Outcome
  | [], folder, changed => ⟨folder, changed, false⟩
  | e :: exts, folder, changed =>
    if !extRe e.extension then writeFiles os exts folder changed
    else
      let prev := os.readFile folder e.file
      if prev ≠ e.content then
        if os.writable folder e.file then
          writeFiles os exts (folder.set e.file (.file e.content)) true
        else ⟨folder, changed, true⟩
      else writeFiles os exts folder changed

/-- A name the loop over the folder drops: `valid` are the files of the roster. -/
def isStale (valid : List Bytes) (name : Bytes) : Bool :=
  (bytesOf ".xml").isSuffixOf name ∧ name ∉ valid

/-- The loop over the folder: drop users central no longer lists. -/
def dropStale (os : Os) (valid : List Bytes) : List Bytes → Folder → Bool → Folder × Bool
  | [], folder, changed => (folder, changed)
  | name :: names, folder, changed =>
    if isStale valid name then dropStale os valid names (os.remove folder name) true
    else dropStale os valid names folder changed

/-- The files of the valid extensions of a roster. -/
def validFiles (exts : List EdgeExtension) : List Bytes :=
  (exts.filter fun e => extRe e.extension).map EdgeExtension.file

def writeUsers (os : Os) (exts : List EdgeExtension) (folder : Folder) : Outcome :=
  if !os.mkdirAll then ⟨folder, false, true⟩
  else
    let written := writeFiles os exts folder false
    if written.failed then written
    else if exts.length > 0 then
      let (folder, changed) :=
        dropStale os (validFiles exts) (os.names written.folder) written.folder written.changed
      ⟨folder, changed, false⟩
    else written

end CallNet.Edge
