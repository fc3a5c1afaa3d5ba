import CallNet.Edge.Directory
import CallNet.ForStd.Xml
import CallNet.Streaming.Twiml

/-!
# Generated XML

The answers to the carriers and the files of the edge agent are put together from strings that
callers, users and the central server choose. Each generator escapes them, so that a parser
finds the same tags in every document of a generator, and the strings where they were put.
-/

namespace CallNet

open Streaming Edge

/-! ## The escape functions -/

/-- What the carriers' generators write for a character. -/
def carrierChar : Char → List Char
  | '&' => "&amp;".toList
  | '<' => "&lt;".toList
  | '>' => "&gt;".toList
  | '"' => "&quot;".toList
  | '\x27' => "&apos;".toList
  | c => [c]

theorem carrierChar_eq {c : Char} (hc : c ∉ ['&', '<', '>', '"', '\x27']) :
    carrierChar c = [c] := by
  unfold carrierChar
  split
  iterate 5 exact absurd (by decide) hc
  rfl

theorem carrierChar_sound (c : Char) :
    (carrierChar c = [c] ∧ c ≠ '&' ∧ c ≠ '<' ∧ c ≠ '>' ∧ c ≠ '"') ∨
      ∃ entity ∈ Xml.entities, entity.2 = c ∧
        carrierChar c = '&' :: (entity.1.toList ++ [';']) := by
  by_cases hc : c ∈ ['&', '<', '>', '"', '\x27']
  · right
    simp only [List.mem_cons, List.not_mem_nil, or_false] at hc
    obtain rfl | rfl | rfl | rfl | rfl := hc
    · exact ⟨("amp", '&'), by decide, rfl, rfl⟩
    · exact ⟨("lt", '<'), by decide, rfl, rfl⟩
    · exact ⟨("gt", '>'), by decide, rfl, rfl⟩
    · exact ⟨("quot", '"'), by decide, rfl, rfl⟩
    · exact ⟨("apos", '\x27'), by decide, rfl, rfl⟩
  · left
    have heq := carrierChar_eq hc
    simp only [List.mem_cons, List.not_mem_nil, or_false, not_or] at hc
    exact ⟨heq, hc.1, hc.2.1, hc.2.2.1, hc.2.2.2.1⟩

def carrierEscaper : Xml.Escaper := ⟨carrierChar, carrierChar_sound⟩

theorem edgeChar_sound (c : Char) :
    ((xmlEscChar c).toList = [c] ∧ c ≠ '&' ∧ c ≠ '<' ∧ c ≠ '>' ∧ c ≠ '"') ∨
      ∃ entity ∈ Xml.entities, entity.2 = c ∧
        (xmlEscChar c).toList = '&' :: (entity.1.toList ++ [';']) := by
  by_cases hc : c ∈ ['&', '<', '>', '"']
  · right
    simp only [List.mem_cons, List.not_mem_nil, or_false] at hc
    obtain rfl | rfl | rfl | rfl := hc
    · exact ⟨("amp", '&'), by decide, rfl, rfl⟩
    · exact ⟨("lt", '<'), by decide, rfl, rfl⟩
    · exact ⟨("gt", '>'), by decide, rfl, rfl⟩
    · exact ⟨("quot", '"'), by decide, rfl, rfl⟩
  · left
    simp only [List.mem_cons, List.not_mem_nil, or_false, not_or] at hc
    exact ⟨by simp [xmlEscChar, hc], hc⟩

def edgeEscaper : Xml.Escaper := ⟨fun c => (xmlEscChar c).toList, edgeChar_sound⟩

theorem toList_replaceAll (s : String) (c : Char) (replacement : String) :
    (replaceAll s c replacement).toList =
      s.toList.flatMap fun d => if d = c then replacement.toList else [d] :=
  String.toList_ofList

/-- The ampersand is replaced first, so no replacement is replaced again. -/
theorem Streaming.Twiml.toList_esc (s : String) :
    (Twiml.esc s).toList = carrierEscaper.escape s.toList := by
  unfold Twiml.esc
  simp only [toList_replaceAll, List.flatMap_assoc]
  apply List.flatMap_congr
  intro c _
  show _ = carrierChar c
  by_cases hc : c ∈ ['&', '<', '>', '"', '\x27']
  · simp only [List.mem_cons, List.not_mem_nil, or_false] at hc
    obtain rfl | rfl | rfl | rfl | rfl := hc <;> decide
  · rw [carrierChar_eq hc]
    simp only [List.mem_cons, List.not_mem_nil, or_false, not_or] at hc
    obtain ⟨hamp, hlt, hgt, hquot, hapos⟩ := hc
    simp only [if_neg hamp, if_neg hlt, if_neg hgt, if_neg hquot, if_neg hapos,
      List.flatMap_singleton]

theorem Streaming.PlivoTwiml.toList_esc (s : String) :
    (PlivoTwiml.esc s).toList = carrierEscaper.escape s.toList :=
  Twiml.toList_esc s

theorem Edge.toList_xmlEsc (s : String) : (xmlEsc s).toList = edgeEscaper.escape s.toList := by
  unfold xmlEsc
  rw [String.toList_join, List.flatMap_map]
  rfl

/-! ## The documents -/

/-- A document of one of the generators. -/
inductive XmlDocument where
  | rejectTwiml (reason : DeclineReason)
  | sayHangupTwiml (text : String)
  | forwardTwiml (target : String) (callerId : Option String)
  | voicemailTwiml (opts : VoicemailAnswer)
  | rejectPlivo (reason : DeclineReason)
  | sayHangupPlivo (text : String)
  | forwardPlivo (target : String) (callerId : Option String)
  | voicemailPlivo (opts : VoicemailAnswer)
  | userXML (e : EdgeExtension)
  | trunkXML (t : EdgeTrunk)

open Xml (Event)

namespace XmlDocument

def source : XmlDocument → String
  | rejectTwiml reason => Twiml.rejectTwiml reason
  | sayHangupTwiml text => Twiml.sayHangupTwiml text
  | forwardTwiml target callerId => Twiml.forwardTwiml target callerId
  | voicemailTwiml opts => Twiml.voicemailTwiml opts
  | rejectPlivo reason => PlivoTwiml.rejectPlivo reason
  | sayHangupPlivo text => PlivoTwiml.sayHangupPlivo text
  | forwardPlivo target callerId => PlivoTwiml.forwardPlivo target callerId
  | voicemailPlivo opts => PlivoTwiml.voicemailPlivo opts
  | userXML e => Edge.userXML e
  | trunkXML t => Edge.trunkXML t

/-- An answer to a carrier: these events in a response. -/
def response (events : List Event) : List Event :=
  [.declaration [("version", "1.0".toList), ("encoding", "UTF-8".toList)], .opening "Response" []] ++
    events ++ [.closing "Response"]

/-- An element with text. -/
def element (name : String) (attrs : List (String × List Char)) (text : String) : List Event :=
  .opening name attrs :: (Xml.textEvents text.toList ++ [.closing name])

/-- The attribute with the caller's number, if there is one. -/
def callerIdAttr (callerId : Option String) : List (String × List Char) :=
  if truthy callerId then [("callerId", (callerId.getD "").toList)] else []

/-- The end of a line, and the blanks that begin the next one. -/
def indent (blanks : Nat) : Event := .text ('\n' :: List.replicate blanks ' ')

/-- A setting of FreeSWITCH, by name. -/
def setting (kind name value : String) : Event :=
  .empty kind [("name", name.toList), ("value", value.toList)]

def userEvents (extension pw vm name cid : String) : List Event :=
  [.opening "include" [], indent 2,
    .opening "user" [("id", extension.toList)], indent 4,
    .opening "params" [], indent 6,
    setting "param" "password" pw, indent 6,
    setting "param" "vm-password" vm, indent 4,
    .closing "params", indent 4,
    .opening "variables" [], indent 6,
    setting "variable" "user_context" "default", indent 6,
    setting "variable" "effective_caller_id_name" name, indent 6,
    setting "variable" "effective_caller_id_number" cid, indent 6,
    setting "variable" "outbound_caller_id_number" cid, indent 4,
    .closing "variables", indent 2,
    .closing "user", indent 0,
    .closing "include", indent 0]

def trunkEvents (username password realm proxy reg : String) : List Event :=
  [.opening "include" [], indent 2,
    .opening "gateway" [("name", "callnet_trunk".toList)], indent 4,
    setting "param" "username" username, indent 4,
    setting "param" "password" password, indent 4,
    setting "param" "realm" realm, indent 4,
    setting "param" "proxy" proxy, indent 4,
    setting "param" "register" reg, indent 4,
    setting "param" "caller-id-in-from" "true", indent 4,
    setting "param" "expire-seconds" "600", indent 4,
    setting "param" "retry-seconds" "30", indent 2,
    .closing "gateway", indent 0,
    .closing "include", indent 0]

/-- What a parser finds: the tags of the generator, with the strings in their places. -/
def events : XmlDocument → List Event
  | rejectTwiml reason => response [.empty "Reject" [("reason", reason.text.toList)]]
  | sayHangupTwiml text => response (element "Say" [] text ++ [.empty "Hangup" []])
  | forwardTwiml target callerId => response
    (element "Dial" (("answerOnBridge", "true".toList) :: callerIdAttr callerId) target)
  | voicemailTwiml opts => response (element "Say" [] opts.greeting ++
    [.empty "Record"
      [("maxLength", (toString opts.maxSeconds).toList), ("playBeep", "true".toList),
        ("trim", "trim-silence".toList),
        ("recordingStatusCallback", opts.recordingCallbackUrl.toList),
        ("recordingStatusCallbackEvent", "completed".toList)],
      .empty "Hangup" []])
  | rejectPlivo reason => response [.empty "Hangup" [("reason", reason.text.toList)]]
  | sayHangupPlivo text => response (element "Speak" [] text ++ [.empty "Hangup" []])
  | forwardPlivo target callerId => response
    (.opening "Dial" (callerIdAttr callerId) :: (element "Number" [] target ++ [.closing "Dial"]))
  | voicemailPlivo opts => response (element "Speak" [] opts.greeting ++
    [.empty "Record"
      [("maxLength", (toString opts.maxSeconds).toList), ("playBeep", "true".toList),
        ("action", opts.recordingCallbackUrl.toList), ("method", "POST".toList),
        ("recordSession", "false".toList), ("redirect", "false".toList)],
      .empty "Hangup" []])
  | userXML e => userEvents e.extension
    (if e.password ≠ "" then e.password else "$${default_password}")
    (if e.vmPassword = "" then e.extension else e.vmPassword)
    (if e.name = "" then "Extension " ++ e.extension else e.name)
    (if e.callerIDNumber = "" then e.extension else e.callerIDNumber)
  | trunkXML t => trunkEvents t.username t.password t.realm t.proxy
    (if t.register = some false then "false" else "true")

end XmlDocument

/-- A number is written as it is. -/
theorem escape_toString (n : Nat) :
    carrierEscaper.escape (toString n).toList = (toString n).toList := by
  apply Xml.Escaper.escape_eq
  intro c hc
  apply carrierChar_eq
  intro hspecial
  have hdigit : c.isDigit = true := by
    have hrepr : (toString n).toList = Nat.toDigits 10 n := String.toList_ofList
    exact Nat.isDigit_of_mem_toDigits (by decide) (by decide) (hrepr ▸ hc)
  simp only [List.mem_cons, List.not_mem_nil, or_false] at hspecial
  obtain rfl | rfl | rfl | rfl | rfl := hspecial <;> exact absurd hdigit (by decide)

theorem escape_reason (reason : DeclineReason) :
    carrierEscaper.escape reason.text.toList = reason.text.toList := by
  cases reason <;> decide

theorem scan_rejectTwiml (reason : DeclineReason) :
    Xml.scan (Twiml.rejectTwiml reason).toList = some (XmlDocument.rejectTwiml reason).events := by
  apply Xml.scan_of_parts carrierEscaper
    [.markup _, .markup _, .value reason.text.toList, .markup _]
  · unfold Twiml.rejectTwiml HEADER
    simp only [String.toList_append, List.append_assoc]
    simp only [List.flatMap_cons, List.flatMap_nil, List.append_nil, Xml.Part.source, escape_reason]
    rfl
  · simp only [XmlDocument.events, XmlDocument.response]
    repeat rw [String.toList_ofList]
    rfl

theorem scan_sayHangupTwiml (text : String) :
    Xml.scan (Twiml.sayHangupTwiml text).toList = some (XmlDocument.sayHangupTwiml text).events := by
  apply Xml.scan_of_parts carrierEscaper [.markup _, .markup _, .value text.toList, .markup _]
  · unfold Twiml.sayHangupTwiml HEADER
    simp only [String.toList_append, Twiml.toList_esc, List.append_assoc]
    simp only [List.flatMap_cons, List.flatMap_nil, List.append_nil, Xml.Part.source]
    rfl
  · simp only [XmlDocument.events, XmlDocument.response, XmlDocument.element]
    repeat rw [String.toList_ofList]
    cases text.toList <;> rfl

theorem scan_forwardTwiml (target : String) (callerId : Option String) :
    Xml.scan (Twiml.forwardTwiml target callerId).toList =
      some (XmlDocument.forwardTwiml target callerId).events := by
  simp only [XmlDocument.events, XmlDocument.response, XmlDocument.element,
    XmlDocument.callerIdAttr]
  unfold Twiml.forwardTwiml HEADER
  cases truthy callerId with
  | false =>
    apply Xml.scan_of_parts carrierEscaper
      [.markup _, .markup _, .markup _, .markup _, .value target.toList, .markup _]
    · simp only [String.toList_append, Twiml.toList_esc, List.append_assoc, Bool.false_eq_true,
        if_false]
      simp only [List.flatMap_cons, List.flatMap_nil, List.append_nil, Xml.Part.source]
      rfl
    · repeat rw [String.toList_ofList]
      cases target.toList <;> rfl
  | true =>
    generalize callerId.getD "" = number
    apply Xml.scan_of_parts carrierEscaper
      [.markup _, .markup _, .markup _, .value number.toList, .markup _, .markup _,
        .value target.toList, .markup _]
    · simp only [String.toList_append, Twiml.toList_esc, List.append_assoc, if_true]
      simp only [List.flatMap_cons, List.flatMap_nil, List.append_nil, Xml.Part.source]
      rfl
    · repeat rw [String.toList_ofList]
      cases target.toList <;> rfl

theorem scan_voicemailTwiml (opts : VoicemailAnswer) :
    Xml.scan (Twiml.voicemailTwiml opts).toList =
      some (XmlDocument.voicemailTwiml opts).events := by
  apply Xml.scan_of_parts carrierEscaper
    [.markup _, .markup _, .markup _, .value opts.greeting.toList, .markup _, .markup _,
      .value (toString opts.maxSeconds).toList, .markup _, .markup _,
      .value opts.recordingCallbackUrl.toList, .markup _, .markup _, .markup _, .markup _]
  · simp only [List.flatMap_cons, List.flatMap_nil, List.append_nil, Xml.Part.source,
      escape_toString]
    unfold Twiml.voicemailTwiml HEADER
    simp only [String.toList_append, Twiml.toList_esc, List.append_assoc]
    rfl
  · simp only [XmlDocument.events, XmlDocument.response, XmlDocument.element]
    generalize (toString opts.maxSeconds).toList = seconds
    repeat rw [String.toList_ofList]
    cases opts.greeting.toList <;> rfl

theorem scan_rejectPlivo (reason : DeclineReason) :
    Xml.scan (PlivoTwiml.rejectPlivo reason).toList =
      some (XmlDocument.rejectPlivo reason).events := by
  apply Xml.scan_of_parts carrierEscaper
    [.markup _, .markup _, .value reason.text.toList, .markup _]
  · unfold PlivoTwiml.rejectPlivo HEADER
    simp only [String.toList_append, List.append_assoc]
    simp only [List.flatMap_cons, List.flatMap_nil, List.append_nil, Xml.Part.source, escape_reason]
    rfl
  · simp only [XmlDocument.events, XmlDocument.response]
    repeat rw [String.toList_ofList]
    rfl

theorem scan_sayHangupPlivo (text : String) :
    Xml.scan (PlivoTwiml.sayHangupPlivo text).toList =
      some (XmlDocument.sayHangupPlivo text).events := by
  apply Xml.scan_of_parts carrierEscaper [.markup _, .markup _, .value text.toList, .markup _]
  · unfold PlivoTwiml.sayHangupPlivo HEADER
    simp only [String.toList_append, PlivoTwiml.toList_esc, List.append_assoc]
    simp only [List.flatMap_cons, List.flatMap_nil, List.append_nil, Xml.Part.source]
    rfl
  · simp only [XmlDocument.events, XmlDocument.response, XmlDocument.element]
    repeat rw [String.toList_ofList]
    cases text.toList <;> rfl

theorem scan_forwardPlivo (target : String) (callerId : Option String) :
    Xml.scan (PlivoTwiml.forwardPlivo target callerId).toList =
      some (XmlDocument.forwardPlivo target callerId).events := by
  simp only [XmlDocument.events, XmlDocument.response, XmlDocument.element,
    XmlDocument.callerIdAttr]
  unfold PlivoTwiml.forwardPlivo HEADER
  cases truthy callerId with
  | false =>
    apply Xml.scan_of_parts carrierEscaper
      [.markup _, .markup _, .markup _, .markup _, .value target.toList, .markup _]
    · simp only [String.toList_append, PlivoTwiml.toList_esc, List.append_assoc,
        Bool.false_eq_true, if_false]
      simp only [List.flatMap_cons, List.flatMap_nil, List.append_nil, Xml.Part.source]
      rfl
    · repeat rw [String.toList_ofList]
      cases target.toList <;> rfl
  | true =>
    generalize callerId.getD "" = number
    apply Xml.scan_of_parts carrierEscaper
      [.markup _, .markup _, .markup _, .value number.toList, .markup _, .markup _,
        .value target.toList, .markup _]
    · simp only [String.toList_append, PlivoTwiml.toList_esc, List.append_assoc, if_true]
      simp only [List.flatMap_cons, List.flatMap_nil, List.append_nil, Xml.Part.source]
      rfl
    · repeat rw [String.toList_ofList]
      cases target.toList <;> rfl

theorem scan_voicemailPlivo (opts : VoicemailAnswer) :
    Xml.scan (PlivoTwiml.voicemailPlivo opts).toList =
      some (XmlDocument.voicemailPlivo opts).events := by
  apply Xml.scan_of_parts carrierEscaper
    [.markup _, .markup _, .markup _, .value opts.greeting.toList, .markup _, .markup _,
      .value (toString opts.maxSeconds).toList, .markup _, .markup _,
      .value opts.recordingCallbackUrl.toList, .markup _, .markup _, .markup _, .markup _]
  · simp only [List.flatMap_cons, List.flatMap_nil, List.append_nil, Xml.Part.source,
      escape_toString]
    unfold PlivoTwiml.voicemailPlivo HEADER
    simp only [String.toList_append, PlivoTwiml.toList_esc, List.append_assoc]
    rfl
  · simp only [XmlDocument.events, XmlDocument.response, XmlDocument.element]
    generalize (toString opts.maxSeconds).toList = seconds
    repeat rw [String.toList_ofList]
    cases opts.greeting.toList <;> rfl

theorem scan_userXML (e : EdgeExtension) :
    Xml.scan (Edge.userXML e).toList = some (XmlDocument.userXML e).events := by
  simp only [XmlDocument.events]
  generalize hpw : (if e.password ≠ "" then e.password else "$${default_password}") = pw
  have hescaped : (if e.password ≠ "" then xmlEsc e.password else "$${default_password}") =
      xmlEsc pw := by
    rw [← hpw]
    split
    · rfl
    · decide
  unfold Edge.userXML
  rw [hescaped]
  generalize (if e.vmPassword = "" then e.extension else e.vmPassword) = vm
  generalize (if e.name = "" then "Extension " ++ e.extension else e.name) = name
  generalize (if e.callerIDNumber = "" then e.extension else e.callerIDNumber) = cid
  apply Xml.scan_of_parts edgeEscaper
    [.markup _, .markup _, .value e.extension.toList, .markup _, .markup _,
      .markup _, .value pw.toList, .markup _,
      .markup _, .value vm.toList, .markup _, .markup _, .markup _, .markup _,
      .markup _, .value name.toList, .markup _,
      .markup _, .value cid.toList, .markup _,
      .markup _, .value cid.toList, .markup _, .markup _, .markup _, .markup _]
  · simp only [String.toList_append, Edge.toList_xmlEsc, List.append_assoc]
    simp only [List.flatMap_cons, List.flatMap_nil, List.append_nil, Xml.Part.source]
    rfl
  · simp only [XmlDocument.userEvents, XmlDocument.setting]
    repeat rw [String.toList_ofList]
    rfl

theorem scan_trunkXML (t : EdgeTrunk) :
    Xml.scan (Edge.trunkXML t).toList = some (XmlDocument.trunkXML t).events := by
  simp only [XmlDocument.events]
  generalize hreg : (if t.register = some false then "false" else "true") = reg
  have hescaped : edgeEscaper.escape reg.toList = reg.toList := by
    rw [← hreg]
    split <;> decide
  unfold Edge.trunkXML
  simp only [hreg]
  apply Xml.scan_of_parts edgeEscaper
    [.markup _, .markup _,
      .markup _, .value t.username.toList, .markup _,
      .markup _, .value t.password.toList, .markup _,
      .markup _, .value t.realm.toList, .markup _,
      .markup _, .value t.proxy.toList, .markup _,
      .markup _, .value reg.toList, .markup _,
      .markup _, .markup _, .markup _, .markup _, .markup _]
  · simp only [List.flatMap_cons, List.flatMap_nil, List.append_nil, Xml.Part.source, hescaped,
      String.toList_append, Edge.toList_xmlEsc, List.append_assoc]
    rfl
  · simp only [XmlDocument.trunkEvents, XmlDocument.setting]
    repeat rw [String.toList_ofList]
    rfl

/-! ## What escaping is for -/

/-- Escaped text has no markup in it, and is the text again when it is read. -/
structure Faithful (esc : String → String) : Prop where
  plain : ∀ s, ∀ c ∈ (esc s).toList, c ≠ '<' ∧ c ≠ '>' ∧ c ≠ '"'
  referenced : ∀ s, Xml.Referenced (esc s).toList
  decode : ∀ s, Xml.decode (esc s).toList = some s.toList

theorem Faithful.of_escaper {esc : String → String} (e : Xml.Escaper)
    (h : ∀ s, (esc s).toList = e.escape s.toList) : Faithful esc := by
  constructor
  · intro s
    rw [h]
    exact e.escape_plain _
  · intro s
    rw [h]
    exact e.referenced_escape _
  · intro s
    rw [h]
    exact e.decode_escape _

/-- The three escape functions are faithful, and a parser finds the same tags in every document
    of a generator. -/
theorem xml_escaping :
    Faithful Twiml.esc ∧ Faithful PlivoTwiml.esc ∧ Faithful xmlEsc ∧
      ∀ document : XmlDocument, Xml.scan document.source.toList = some document.events := by
  refine ⟨.of_escaper carrierEscaper Twiml.toList_esc,
    .of_escaper carrierEscaper PlivoTwiml.toList_esc, .of_escaper edgeEscaper toList_xmlEsc, ?_⟩
  intro document
  cases document with
  | rejectTwiml reason => exact scan_rejectTwiml reason
  | sayHangupTwiml text => exact scan_sayHangupTwiml text
  | forwardTwiml target callerId => exact scan_forwardTwiml target callerId
  | voicemailTwiml opts => exact scan_voicemailTwiml opts
  | rejectPlivo reason => exact scan_rejectPlivo reason
  | sayHangupPlivo text => exact scan_sayHangupPlivo text
  | forwardPlivo target callerId => exact scan_forwardPlivo target callerId
  | voicemailPlivo opts => exact scan_voicemailPlivo opts
  | userXML e => exact scan_userXML e
  | trunkXML t => exact scan_trunkXML t

end CallNet
