import Mathlib.Data.List.Basic

/-!
# XML documents

What a parser reads off an XML document: a declaration, tags with their attributes, and text,
with the five predefined entities and no others; no comments and no CDATA sections.

* `decode` is what character data stands for.
* `scan` reads a document character by character.
* An `Escaper` writes every character as itself or as the reference to its entity. What it
  writes is read back (`decode_escape`), and inside a document it stays where it is put
  (`Scan.run_escape`).
* `scan_of_parts` reads a document that is put together from markup and escaped values.
-/

namespace Xml

/-! ## Character data -/

/-- The predefined entities. -/
def entities : List (String × Char) :=
  [("amp", '&'), ("lt", '<'), ("gt", '>'), ("quot", '"'), ("apos", '\x27')]

/-- Character data as far as it is read: what it stands for, and the name, in reverse, of a
    reference that is open. -/
structure Reading where
  text : List Char
  reference : Option (List Char)

namespace Reading

def empty : Reading := ⟨[], none⟩

/-- One character more. An ampersand that begins no reference to an entity is an error. -/
def step (r : Reading) (c : Char) : Option Reading :=
  match r.reference with
  | none => some (if c = '&' then ⟨r.text, some []⟩ else ⟨r.text ++ [c], none⟩)
  | some name =>
    if c = ';' then
      (entities.lookup (String.ofList name.reverse)).map fun d => ⟨r.text ++ [d], none⟩
    else some ⟨r.text, some (c :: name)⟩

/-- What was read, if no reference is open. -/
def finish (r : Reading) : Option (List Char) :=
  if r.reference = none then some r.text else none

end Reading

/-- What the text stands for. -/
def decode (text : List Char) : Option (List Char) :=
  (text.foldlM Reading.step Reading.empty).bind Reading.finish

/-- Every ampersand begins a reference to an entity. -/
def Referenced (text : List Char) : Prop :=
  ∀ before after, text = before ++ '&' :: after →
    ∃ entity ∈ entities, entity.1.toList ++ [';'] <+: after

/-! ## Documents -/

/-- What is read off a document. Attributes have their values, and text its characters. -/
inductive Event where
  | declaration (attrs : List (String × List Char))
  | opening (name : String) (attrs : List (String × List Char))
  | empty (name : String) (attrs : List (String × List Char))
  | closing (name : String)
  | text (content : List Char)
deriving DecidableEq, Repr

/-- A tag as far as it is read: its name, in reverse, and its attributes. -/
structure Tag where
  name : List Char
  attrs : List (String × List Char)

/-- Where a scan is: in character data, or in a part of a tag. -/
inductive Mode where
  | content (text : Reading)
  | name (name : List Char)
  /-- Between attributes; the next one may begin where there was a blank. -/
  | inside (tag : Tag) (blank : Bool)
  | attr (tag : Tag) (key : List Char)
  /-- Before the quote that opens a value. -/
  | equals (tag : Tag) (key : List Char)
  | value (tag : Tag) (key : List Char) (quote : Char) (value : Reading)
  /-- Behind the mark that ends an empty tag or a declaration. -/
  | marked (tag : Tag) (mark : Char)

/-- The events read so far, the last one first. -/
structure Scan where
  events : List Event
  mode : Mode

def isBlank (c : Char) : Bool := c = ' ' ∨ c = '\n' ∨ c = '\t' ∨ c = '\r'

/-- A character that a name has. -/
def isNameChar (c : Char) : Bool := c.isAlphanum ∨ c = '_' ∨ c = '-' ∨ c = '.' ∨ c = ':'

/-- The event of some text: none for no text. -/
def textEvents : List Char → List Event
  | [] => []
  | text => [.text text]

/-- The event of a tag that ends without a mark. -/
def Tag.event (t : Tag) : Option Event :=
  match t.name.reverse with
  | [] | '?' :: _ => none
  | '/' :: name => if t.attrs = [] then some (.closing (String.ofList name)) else none
  | name => some (.opening (String.ofList name) t.attrs)

/-- The event of a tag that ends with a mark. -/
def Tag.markedEvent (t : Tag) (mark : Char) : Option Event :=
  match t.name.reverse with
  | '?' :: _ => if mark = '?' then some (.declaration t.attrs) else none
  | [] | '/' :: _ => none
  | name => if mark = '/' then some (.empty (String.ofList name) t.attrs) else none

namespace Scan

def start : Scan := ⟨[], .content .empty⟩

def step (s : Scan) (c : Char) : Option Scan :=
  match s.mode with
  | .content text =>
    if c = '<' then text.finish.map fun content => ⟨textEvents content ++ s.events, .name []⟩
    else (text.step c).map fun text => ⟨s.events, .content text⟩
  | .name name =>
    if isNameChar c ∨ name = [] ∧ (c = '/' ∨ c = '?') then some ⟨s.events, .name (c :: name)⟩
    else if isBlank c then some ⟨s.events, .inside ⟨name, []⟩ true⟩
    else if c = '/' then some ⟨s.events, .marked ⟨name, []⟩ c⟩
    else if c = '>' then (Tag.event ⟨name, []⟩).map fun e => ⟨e :: s.events, .content .empty⟩
    else none
  | .inside tag blank =>
    if isBlank c then some ⟨s.events, .inside tag true⟩
    else if c = '/' ∨ c = '?' then some ⟨s.events, .marked tag c⟩
    else if c = '>' then tag.event.map fun e => ⟨e :: s.events, .content .empty⟩
    else if blank ∧ isNameChar c then some ⟨s.events, .attr tag [c]⟩
    else none
  | .attr tag key =>
    if isNameChar c then some ⟨s.events, .attr tag (c :: key)⟩
    else if c = '=' then some ⟨s.events, .equals tag key⟩
    else none
  | .equals tag key =>
    if c = '"' ∨ c = '\x27' then some ⟨s.events, .value tag key c .empty⟩ else none
  | .value tag key quote value =>
    if c = quote then
      value.finish.map fun v =>
        ⟨s.events, .inside ⟨tag.name, tag.attrs ++ [(String.ofList key.reverse, v)]⟩ false⟩
    else if c = '<' then none
    else (value.step c).map fun value => ⟨s.events, .value tag key quote value⟩
  | .marked tag mark =>
    if c = '>' then (tag.markedEvent mark).map fun e => ⟨e :: s.events, .content .empty⟩ else none

/-- The scan after more characters. -/
def run (s : Scan) (cs : List Char) : Option Scan := cs.foldlM step s

/-- The events of a document that ends here. -/
def finish (s : Scan) : Option (List Event) :=
  match s.mode with
  | .content text => text.finish.map fun content => (textEvents content ++ s.events).reverse
  | _ => none

end Scan

/-- The events of a document. -/
def scan (document : List Char) : Option (List Event) :=
  (Scan.start.run document).bind Scan.finish

/-! ## Escaping -/

/-- A way to write characters: as they are, or as the reference to their entity. -/
structure Escaper where
  char : Char → List Char
  /-- What is not written as a reference is no special character. -/
  sound : ∀ c, (char c = [c] ∧ c ≠ '&' ∧ c ≠ '<' ∧ c ≠ '>' ∧ c ≠ '"') ∨
    ∃ entity ∈ entities, entity.2 = c ∧ char c = '&' :: (entity.1.toList ++ [';'])

namespace Escaper

def escape (e : Escaper) (s : List Char) : List Char := s.flatMap e.char

variable (e : Escaper)

@[simp] theorem escape_nil : e.escape [] = [] := rfl

@[simp] theorem escape_cons (c : Char) (s : List Char) :
    e.escape (c :: s) = e.char c ++ e.escape s := rfl

/-- Text without special characters is written as it is. -/
theorem escape_eq {s : List Char} (h : ∀ c ∈ s, e.char c = [c]) : e.escape s = s := by
  induction s with
  | nil => rfl
  | cons c s ih =>
    simp only [List.forall_mem_cons] at h
    rw [escape_cons, h.1, ih h.2, List.singleton_append]

/-! ### References -/

/-- A reference is read as its character. -/
theorem step_reference {entity : String × Char} (h : entity ∈ entities) (text : List Char) :
    ('&' :: (entity.1.toList ++ [';'])).foldlM Reading.step ⟨text, none⟩ =
      some ⟨text ++ [entity.2], none⟩ := by
  simp only [entities, List.mem_cons, List.not_mem_nil, or_false] at h
  obtain rfl | rfl | rfl | rfl | rfl := h <;> rfl

/-- The characters of a reference are not those that markup is made of. -/
theorem reference_plain {entity : String × Char} (h : entity ∈ entities) :
    ∀ c ∈ '&' :: (entity.1.toList ++ [';']), c ≠ '<' ∧ c ≠ '>' ∧ c ≠ '"' := by
  have hall : ('&' :: (entity.1.toList ++ [';'])).all
      (fun c => c ≠ '<' ∧ c ≠ '>' ∧ c ≠ '"') = true := by
    simp only [entities, List.mem_cons, List.not_mem_nil, or_false] at h
    obtain rfl | rfl | rfl | rfl | rfl := h <;> decide
  intro c hc
  simpa using List.all_eq_true.mp hall c hc

theorem not_mem_reference {entity : String × Char} (h : entity ∈ entities) :
    '&' ∉ entity.1.toList ++ [';'] := by
  simp only [entities, List.mem_cons, List.not_mem_nil, or_false] at h
  obtain rfl | rfl | rfl | rfl | rfl := h <;> decide

/-! ### Escaped text -/

/-- What was escaped is read back, behind any text. -/
theorem step_escape (text s : List Char) :
    (e.escape s).foldlM Reading.step ⟨text, none⟩ = some ⟨text ++ s, none⟩ := by
  induction s generalizing text with
  | nil => simp
  | cons c s ih =>
    have hchar : (e.char c).foldlM Reading.step ⟨text, none⟩ = some ⟨text ++ [c], none⟩ := by
      obtain ⟨hplain, hamp, -⟩ | ⟨entity, hmem, rfl, hreference⟩ := e.sound c
      · rw [hplain]
        simp [Reading.step, hamp]
      · rw [hreference, step_reference hmem]
    rw [escape_cons, List.foldlM_append, hchar]
    show (e.escape s).foldlM Reading.step ⟨text ++ [c], none⟩ = _
    rw [ih, List.append_assoc, List.singleton_append]

theorem decode_escape (s : List Char) : decode (e.escape s) = some s := by
  unfold decode Reading.empty
  rw [step_escape]
  rfl

/-- Escaped text has no angle bracket and no double quote. -/
theorem escape_plain (s : List Char) : ∀ c ∈ e.escape s, c ≠ '<' ∧ c ≠ '>' ∧ c ≠ '"' := by
  intro c hc
  obtain ⟨d, -, hd⟩ := List.mem_flatMap.mp hc
  obtain ⟨hplain, -, hbrackets⟩ | ⟨entity, hmem, -, hreference⟩ := e.sound d
  · rw [hplain] at hd
    exact List.mem_singleton.mp hd ▸ hbrackets
  · rw [hreference] at hd
    exact reference_plain hmem c hd

/-- An ampersand that was written begins the reference of one character. -/
theorem referenced_escape (s : List Char) : Referenced (e.escape s) := by
  induction s with
  | nil =>
    intro before after h
    simp at h
  | cons c s ih =>
    intro before after h
    rw [escape_cons] at h
    obtain ⟨rest, -, hrest⟩ | ⟨rest, hchar, hrest⟩ := List.append_eq_append_iff.mp h
    · exact ih rest after hrest
    cases rest with
    | nil => exact ih [] after hrest.symm
    | cons d rest =>
      -- the ampersand is written for `c`
      simp only [List.cons_append, List.cons.injEq] at hrest
      obtain ⟨rfl, rfl⟩ := hrest
      obtain ⟨hplain, hamp, -⟩ | ⟨entity, hmem, -, hreference⟩ := e.sound c
      · have : '&' ∈ e.char c := hchar ▸ List.mem_append_right _ List.mem_cons_self
        rw [hplain] at this
        exact absurd (List.mem_singleton.mp this).symm hamp
      · refine ⟨entity, hmem, ?_⟩
        rw [hreference] at hchar
        cases before with
        | nil =>
          simp only [List.nil_append, List.cons.injEq, true_and] at hchar
          exact hchar ▸ List.prefix_append _ _
        | cons b before =>
          simp only [List.cons_append, List.cons.injEq] at hchar
          have hin : '&' ∈ entity.1.toList ++ [';'] := hchar.2 ▸ by simp
          exact absurd hin (not_mem_reference hmem)

end Escaper

/-! ## Escaped values in a document -/

namespace Scan

/-- The scan after a value, which is taken as it is. There are values in character data and
    between double quotes. -/
def fill (s : Scan) (v : List Char) : Option Scan :=
  match s.mode with
  | .content ⟨text, none⟩ => some ⟨s.events, .content ⟨text ++ v, none⟩⟩
  | .value tag key '"' ⟨text, none⟩ => some ⟨s.events, .value tag key '"' ⟨text ++ v, none⟩⟩
  | _ => none

variable (events : List Event)

/-- Character data goes on where there is no angle bracket. -/
theorem run_content {cs : List Char} (h : '<' ∉ cs) (text : Reading) :
    (⟨events, .content text⟩ : Scan).run cs =
      (cs.foldlM Reading.step text).map fun text => ⟨events, .content text⟩ := by
  induction cs generalizing text with
  | nil => rfl
  | cons c cs ih =>
    simp only [List.mem_cons, not_or] at h
    show ((⟨events, .content text⟩ : Scan).step c).bind (fun s => s.run cs) =
      ((text.step c).bind fun text => cs.foldlM Reading.step text).map _
    have hstep : (⟨events, .content text⟩ : Scan).step c =
        (text.step c).map fun text => ⟨events, .content text⟩ := by
      simp [step, Ne.symm h.1]
    rw [hstep]
    cases text.step c with
    | none => rfl
    | some text => exact ih h.2 text

/-- A value goes on where there is no angle bracket and no quote. -/
theorem run_value {cs : List Char} (h : '<' ∉ cs) (hquote : '"' ∉ cs) (tag : Tag)
    (key : List Char) (value : Reading) :
    (⟨events, .value tag key '"' value⟩ : Scan).run cs =
      (cs.foldlM Reading.step value).map fun value => ⟨events, .value tag key '"' value⟩ := by
  induction cs generalizing value with
  | nil => rfl
  | cons c cs ih =>
    simp only [List.mem_cons, not_or] at h hquote
    show ((⟨events, .value tag key '"' value⟩ : Scan).step c).bind (fun s => s.run cs) =
      ((value.step c).bind fun value => cs.foldlM Reading.step value).map _
    have hstep : (⟨events, .value tag key '"' value⟩ : Scan).step c =
        (value.step c).map fun value => ⟨events, .value tag key '"' value⟩ := by
      simp [step, Ne.symm h.1, Ne.symm hquote.1]
    rw [hstep]
    cases value.step c with
    | none => rfl
    | some value => exact ih h.2 hquote.2 value

/-- An escaped value is read as the value, and opens or closes nothing. -/
theorem run_escape (e : Escaper) {s s' : Scan} {v : List Char} (h : s.fill v = some s') :
    s.run (e.escape v) = some s' := by
  have hbracket : '<' ∉ e.escape v := fun h => (e.escape_plain v _ h).1 rfl
  have hquote : '"' ∉ e.escape v := fun h => (e.escape_plain v _ h).2.2 rfl
  obtain ⟨events, mode⟩ := s
  unfold fill at h
  split at h
  · rename_i text hmode
    obtain rfl : mode = _ := hmode
    rw [run_content events hbracket, e.step_escape]
    exact h
  · rename_i tag key text hmode
    obtain rfl : mode = _ := hmode
    rw [run_value events hbracket hquote, e.step_escape]
    exact h
  · exact nomatch h

end Scan

/-- A part of a document that is put together. -/
inductive Part where
  | markup (text : List Char)
  | value (text : List Char)

/-- A part as it is written. -/
def Part.source (e : Escaper) : Part → List Char
  | markup text => text
  | value text => e.escape text

/-- The scan after a part. -/
def Scan.read (s : Scan) : Part → Option Scan
  | .markup text => s.run text
  | .value text => s.fill text

/-- A document is scanned part by part, whatever its values are. -/
theorem scan_of_parts (e : Escaper) {document : List Char} (parts : List Part)
    (hdocument : document = parts.flatMap (Part.source e)) {events : List Event}
    (h : (parts.foldlM Scan.read Scan.start).bind Scan.finish = some events) :
    scan document = some events := by
  have hrun : ∀ (parts : List Part) (s s' : Scan), parts.foldlM Scan.read s = some s' →
      s.run (parts.flatMap (Part.source e)) = some s' := by
    intro parts
    induction parts with
    | nil =>
      intro s s' h
      exact h
    | cons part parts ih =>
      intro s s' h
      obtain ⟨t, ht, hrest⟩ := Option.bind_eq_some_iff.mp h
      have hpart : s.run (part.source e) = some t := by
        cases part with
        | markup text => exact ht
        | value text => exact Scan.run_escape e ht
      unfold Scan.run at hpart ⊢
      rw [List.flatMap_cons, List.foldlM_append, hpart]
      exact ih t s' hrest
  obtain ⟨s, hs, hfinish⟩ := Option.bind_eq_some_iff.mp h
  unfold scan
  rw [hdocument, hrun parts _ s hs]
  exact hfinish

end Xml
