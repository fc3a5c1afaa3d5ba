import CallNet.Edge.EventSocket
import CallNet.ForStd.PrefixCode

/-!
# Events on the event socket

An event as FreeSWITCH writes it is a `SocketEvent`: lines of headers, an empty line and a body
of the length that the headers announce.  Names and values may have spaces around them, a header
may come again, and in the body there may be anything, also empty lines and lines like headers.

Main results:

- `Padded.trimSpace_bytes`: the spaces around a text are trimmed, and no more
- `readHeaders_of_stream`: the lines are read up to the empty one, and not past it
- `readEvents_of_stream`: events behind each other are read one by one, to the last byte
-/

namespace CallNet.Edge

/-! ## Trimming -/

/-- No space is empty, has a colon in it, or begins or ends another; UTF-8 has different bytes at
    the beginning of a character and within one. -/
theorem spaces_spec {w : Bytes} (hw : w ∈ spaces) :
    (w ≠ [] ∧ colon ∉ w) ∧ ∀ p ∈ spaces,
      ((w <+: p → w = p) ∧ (w <:+ p → w = p)) ∧ ∀ b ∈ w.tail, p.head? ≠ some b := by
  have hall : spaces.all fun w => (!w.isEmpty && !w.contains colon) && spaces.all fun p =>
      ((!w.isPrefixOf p || w == p) && (!w.isSuffixOf p || w == p)) &&
        w.tail.all fun b => p.head? != some b := by
    decide +kernel
  have hone := List.all_eq_true.mp hall w hw
  simp only [Bool.and_eq_true, List.all_eq_true, Bool.or_eq_true, Bool.not_eq_true',
    ← Bool.not_eq_true, List.isEmpty_iff, List.contains_eq_mem, decide_eq_true_eq, bne_iff_ne,
    beq_iff_eq, List.isPrefixOf_iff_prefix, List.isSuffixOf_iff_suffix, ← imp_iff_not_or] at hone
  exact hone

theorem spaces_prefixFree : spaces.PrefixFree where
  nonempty _ hw := (spaces_spec hw).1.1
  eq_of_prefix _ hw p hp := ((spaces_spec hw).2 p hp).1.1

theorem spaces_suffixFree : spaces.SuffixFree where
  nonempty _ hw := (spaces_spec hw).1.1
  eq_of_suffix _ hw p hp := ((spaces_spec hw).2 p hp).1.2

section

attribute [local simp] skipSpaces

theorem skipSpaces_append (w bs : Bytes) : skipSpaces w.length (w ++ bs) = skipSpaces 0 bs := by
  induction w with
  | nil => rfl
  | cons b w ih => exact ih

/-- At the beginning of a text, a space is skipped and anything else stays. -/
theorem skipSpaces_zero (b : UInt8) (bs : Bytes) :
    skipSpaces 0 (b :: bs) =
      if spaceWidth (b :: bs) = 0 then b :: bs else skipSpaces (spaceWidth (b :: bs) - 1) bs := by
  cases h : spaceWidth (b :: bs) <;> simp [h]

end

theorem skipSpaces_of_spaceWidth {w more : Bytes} (hw : w ∈ spaces)
    (h : spaceWidth (w ++ more) = w.length) : skipSpaces 0 (w ++ more) = skipSpaces 0 more := by
  cases w with
  | nil => exact absurd rfl (spaces_prefixFree.nonempty [] hw)
  | cons b w =>
    rw [List.cons_append] at h ⊢
    rw [skipSpaces_zero, h, List.length_cons, if_neg (Nat.succ_ne_zero _)]
    exact skipSpaces_append w more

/-- Spaces at the beginning are skipped. -/
theorem trimLeft_pad {pad : List Bytes} (hpad : ∀ w ∈ pad, w ∈ spaces) (s : Bytes) :
    trimLeft (pad.flatten ++ s) = trimLeft s := by
  induction pad with
  | nil => rfl
  | cons w pad ih =>
    simp only [List.forall_mem_cons] at hpad
    have hwidth : spaceWidth (w ++ (pad.flatten ++ s)) = w.length := by
      unfold spaceWidth
      rw [spaces_prefixFree.find?_append hpad.1]
      rfl
    rw [List.flatten_cons, List.append_assoc]
    exact (skipSpaces_of_spaceWidth hpad.1 hwidth).trans (ih hpad.2)

theorem trimLeft_of_free {s : Bytes} (h : spaces.FreeStart s) : trimLeft s = s := by
  cases s with
  | nil => rfl
  | cons b s =>
    obtain ⟨hwidth, -⟩ | ⟨w, hw, more, hmore, -⟩ := spaceWidth_cases (b :: s)
    · show skipSpaces 0 (b :: s) = b :: s
      rw [skipSpaces_zero, if_pos hwidth]
    · exact absurd ⟨more, hmore.symm⟩ (h w hw)

/-- What is skipped whole is a row of spaces. -/
theorem exists_flatten_of_skipSpaces {n : Nat} {bs : Bytes} (hn : n ≤ bs.length)
    (h : skipSpaces n bs = []) :
    ∃ ws : List Bytes, (∀ w ∈ ws, w ∈ spaces) ∧ bs.drop n = ws.flatten := by
  induction bs generalizing n with
  | nil => exact ⟨[], by simp, by simp⟩
  | cons b bs ih =>
    cases n with
    | succ n =>
      rw [List.length_cons] at hn
      exact ih (by omega) h
    | zero =>
      obtain ⟨hwidth, -⟩ | ⟨w, hw, more, hmore, hwidth⟩ := spaceWidth_cases (b :: bs)
      · rw [skipSpaces_zero, if_pos hwidth] at h
        exact nomatch h
      · cases w with
        | nil => exact absurd rfl (spaces_prefixFree.nonempty [] hw)
        | cons c w =>
          rw [List.cons_append] at hmore
          obtain ⟨rfl, rfl⟩ := List.cons.inj hmore
          rw [skipSpaces_zero, hwidth, List.length_cons, if_neg (Nat.succ_ne_zero _)] at h
          obtain ⟨ws, hws, hdrop⟩ := ih (n := w.length) (by simp) h
          rw [List.drop_left] at hdrop
          refine ⟨(b :: w) :: ws, ?_, ?_⟩
          · intro v hv
            obtain rfl | hv := List.mem_cons.mp hv
            · exact hw
            · exact hws v hv
          · rw [List.drop_zero, List.flatten_cons, ← hdrop, List.cons_append]

/-- Spaces at the end are trimmed, down to the text. -/
theorem trimRight_pad {pad : List Bytes} (hpad : ∀ w ∈ pad, w ∈ spaces) {s : Bytes}
    (hs : spaces.FreeEnd s) : trimRight (s ++ pad.flatten) = s := by
  induction s with
  | nil =>
    have hall : trimLeft pad.flatten = [] := by
      have := trimLeft_pad hpad []
      rw [List.append_nil] at this
      exact this
    rw [List.nil_append]
    cases hflat : pad.flatten with
    | nil => rfl
    | cons b rest => rw [trimRight, if_pos (hflat ▸ hall)]
  | cons b s ih =>
    have hkept : trimLeft (b :: (s ++ pad.flatten)) ≠ [] := by
      intro hall
      obtain ⟨ws, hws, hflat⟩ := exists_flatten_of_skipSpaces (Nat.zero_le _) hall
      exact nomatch spaces_suffixFree.eq_nil_of_append hs hpad hws hflat
    have hrest : spaces.FreeEnd s := fun w hw hsuf => hs w hw (hsuf.trans (List.suffix_cons b s))
    rw [List.cons_append, trimRight, if_neg hkept, ih hrest]

/-! ## Events as they are written -/

/-- A text with spaces around it, on one line. -/
structure Padded where
  before : List Bytes
  text : Bytes
  after : List Bytes
  before_spaces : ∀ w ∈ before, w ∈ spaces
  after_spaces : ∀ w ∈ after, w ∈ spaces
  freeStart : spaces.FreeStart text
  freeEnd : spaces.FreeEnd text
  oneLine : ∀ b ∈ before.flatten ++ text ++ after.flatten, b ≠ newline ∧ b ≠ carriageReturn

def Padded.bytes (p : Padded) : Bytes := p.before.flatten ++ p.text ++ p.after.flatten

structure SocketHeader where
  name : Padded
  value : Padded
  name_ne : name.text ≠ []
  no_colon : colon ∉ name.text

def SocketHeader.bytes (h : SocketHeader) : Bytes := h.name.bytes ++ colon :: h.value.bytes

/-- The headers by their names; of several with one name, the last. -/
def headerMap (headers : List SocketHeader) : OrdMap Bytes Bytes :=
  .ofList (headers.map fun h => (h.name.text, h.value.text))

/-- A number in decimal. -/
def decimal (n : Nat) : Bytes := (Nat.toDigits 10 n).map fun c => UInt8.ofNat c.toNat

/-- An event: the headers announce the length of its body, if it has one. -/
structure SocketEvent where
  headers : List SocketHeader
  body : Bytes
  length_lt : body.length < 2 ^ 63
  announced : (headerMap headers).get? contentLength = some (decimal body.length) ∨
    (headerMap headers).get? contentLength = none ∧ body = []

def SocketEvent.bytes (e : SocketEvent) : Bytes :=
  (e.headers.flatMap fun h => h.bytes ++ [newline]) ++ newline :: e.body

/-- What is to be read of an event. -/
def SocketEvent.content (e : SocketEvent) : EslEvent where
  headers := headerMap e.headers
  body := e.body

/-! ## Reading a line -/

/-- The spaces around a text are trimmed, and no more. -/
theorem Padded.trimSpace_bytes (p : Padded) : trimSpace p.bytes = p.text := by
  have hleft : trimLeft p.bytes = trimLeft (p.text ++ p.after.flatten) := by
    rw [bytes, List.append_assoc]
    exact trimLeft_pad p.before_spaces _
  unfold trimSpace
  rw [hleft]
  by_cases htext : p.text = []
  · have hall := trimLeft_pad p.after_spaces []
    rw [List.append_nil] at hall
    rw [htext, List.nil_append, hall]
    rfl
  · have htail : ∀ w ∈ spaces, ∀ b ∈ w.tail, ∀ p ∈ spaces, p.head? ≠ some b :=
      fun w hw b hb p hp => ((spaces_spec hw).2 p hp).2 b hb
    rw [trimLeft_of_free (p.freeStart.append htail htext p.after_spaces)]
    exact trimRight_pad p.after_spaces p.freeEnd

/-- A line ends where its text does. -/
theorem trimLineEnd_line {text : Bytes} (h : ∀ b ∈ text, b ≠ newline ∧ b ≠ carriageReturn) :
    trimLineEnd (text ++ [newline]) = text := by
  have hkept : (text.reverse.dropWhile fun b => b = carriageReturn ∨ b = newline) =
      text.reverse := by
    rw [List.dropWhile_eq_self_iff]
    intro hpos
    have hlast := h _ (List.mem_reverse.mp (List.getElem_mem hpos))
    rw [decide_eq_true_eq, not_or]
    exact hlast.symm
  rw [trimLineEnd, List.reverse_append]
  show (List.dropWhile _ (newline :: text.reverse)).reverse = text
  rw [List.dropWhile_cons_of_pos (by simp), hkept, List.reverse_reverse]

theorem Padded.colon_not_mem {p : Padded} (h : colon ∉ p.text) : colon ∉ p.bytes := by
  have hpad : ∀ {pad : List Bytes}, (∀ w ∈ pad, w ∈ spaces) → colon ∉ pad.flatten := by
    intro pad hpad hmem
    obtain ⟨w, hw, hcolon⟩ := List.mem_flatten.mp hmem
    exact (spaces_spec (hpad w hw)).1.2 hcolon
  unfold bytes
  rw [List.mem_append, List.mem_append]
  rintro ((hmem | hmem) | hmem)
  · exact hpad p.before_spaces hmem
  · exact h hmem
  · exact hpad p.after_spaces hmem

theorem SocketHeader.oneLine (h : SocketHeader) :
    ∀ b ∈ h.bytes, b ≠ newline ∧ b ≠ carriageReturn := by
  intro b hb
  obtain hname | hb := List.mem_append.mp hb
  · exact h.name.oneLine b hname
  · obtain rfl | hvalue := List.mem_cons.mp hb
    · exact ⟨by decide, by decide⟩
    · exact h.value.oneLine b hvalue

/-- A line of a header is set under its name. -/
theorem addHeader_bytes (headers : OrdMap Bytes Bytes) (h : SocketHeader) :
    addHeader headers h.bytes = headers.set h.name.text h.value.text := by
  have hcolon := Padded.colon_not_mem h.no_colon
  have hall : ∀ b ∈ h.name.bytes, decide (b ≠ colon) = true := by
    intro b hb
    rw [decide_eq_true_eq]
    intro heq
    exact hcolon (heq ▸ hb)
  have hname : h.name.bytes ≠ [] := by
    intro hnil
    exact h.name_ne (List.append_eq_nil_iff.mp (List.append_eq_nil_iff.mp hnil).1).2
  have hdrop : h.bytes.dropWhile (· ≠ colon) = colon :: h.value.bytes := by
    rw [SocketHeader.bytes, List.dropWhile_append_of_pos hall,
      List.dropWhile_cons_of_neg (by simp)]
  have htake : h.bytes.takeWhile (· ≠ colon) = h.name.bytes := by
    rw [SocketHeader.bytes, List.takeWhile_append_of_pos hall,
      List.takeWhile_cons_of_neg (by simp), List.append_nil]
  unfold addHeader
  rw [hdrop]
  show (if _ = [] then _ else _) = _
  rw [htake, if_neg hname, h.name.trimSpace_bytes, h.value.trimSpace_bytes]

/-! ## Reading an event -/

theorem readHeaders_of_readString {r r' : Reader UInt8} {line : Bytes}
    (h : r.readString newline [] = some (line, r')) (headers : OrdMap Bytes Bytes) :
    readHeaders r headers = if trimLineEnd line = [] then some (headers, r')
      else readHeaders r' (addHeader headers (trimLineEnd line)) := by
  rw [readHeaders.eq_def]
  split
  · rename_i hnone
    rw [hnone] at h
    cases h
  · rename_i hsome
    rw [hsome] at h
    obtain ⟨rfl, rfl⟩ := Prod.mk.inj (Option.some.inj h)
    rfl

/-- The lines are read up to the empty one, and not past it. -/
theorem readHeaders_of_stream (hs : List SocketHeader) (r : Reader UInt8)
    (headers : OrdMap Bytes Bytes) (rest : Bytes)
    (h : r.stream = (hs.flatMap fun h => h.bytes ++ [newline]) ++ newline :: rest) :
    ∃ r', readHeaders r headers =
        some (hs.foldl (fun m h => m.set h.name.text h.value.text) headers, r') ∧
      r'.stream = rest := by
  induction hs generalizing r headers with
  | nil =>
    obtain ⟨r', hread, hstream⟩ := r.readString_of_stream newline [] [] rest (by simp) h
    refine ⟨r', ?_, hstream⟩
    rw [readHeaders_of_readString hread, if_pos (by decide)]
    rfl
  | cons header hs ih =>
    have hline : newline ∉ header.bytes := fun hmem => (header.oneLine _ hmem).1 rfl
    have hstream : r.stream = header.bytes ++ newline ::
        ((hs.flatMap fun h => h.bytes ++ [newline]) ++ newline :: rest) := by
      rw [h, List.flatMap_cons]
      simp
    obtain ⟨r₁, hread, hr₁⟩ := r.readString_of_stream newline [] _ _ hline hstream
    have hend : trimLineEnd ([] ++ header.bytes ++ [newline]) = header.bytes :=
      trimLineEnd_line header.oneLine
    have hne : header.bytes ≠ [] := by
      intro hnil
      exact nomatch (List.append_eq_nil_iff.mp hnil).2
    obtain ⟨r', hr', hrest⟩ := ih r₁ (headers.set header.name.text header.value.text) hr₁
    refine ⟨r', ?_, hrest⟩
    rw [readHeaders_of_readString hread, hend, if_neg hne, addHeader_bytes, hr']
    rfl

theorem digit_digitChar {d : Nat} (hd : d < 10) :
    digit (UInt8.ofNat d.digitChar.toNat) = some d := by
  have hall : ∀ d : Fin 10, digit (UInt8.ofNat d.val.digitChar.toNat) = some d.val := by
    decide
  exact hall ⟨d, hd⟩

/-- A number in decimal is read back. -/
theorem digits_decimal (n : Nat) : digits (decimal n) = some n := by
  have hne : decimal n ≠ [] := by
    unfold decimal
    rw [ne_eq, List.map_eq_nil_iff]
    exact Nat.toDigits_ne_nil
  unfold digits
  rw [if_neg hne]
  clear hne
  -- the last digit is read last
  induction n using Nat.strongRecOn with
  | ind n ih =>
    unfold decimal at ih ⊢
    obtain hlt | hle := Nat.lt_or_ge n 10
    · rw [Nat.toDigits_of_lt_base hlt, List.map_singleton, List.foldlM_cons, digit_digitChar hlt]
      show some (0 * 10 + n) = some n
      rw [Nat.zero_mul, Nat.zero_add]
    · rw [Nat.toDigits_of_base_le (by decide) hle, List.map_append, List.foldlM_append,
        ih (n / 10) (by omega), List.map_singleton]
      rw [Option.bind_eq_bind, Option.bind_some, List.foldlM_cons,
        digit_digitChar (Nat.mod_lt n (by decide))]
      show some (n / 10 * 10 + n % 10) = some n
      rw [Nat.div_add_mod']

theorem atoi_of_digits {s : Bytes} {n : Nat} (h : digits s = some n) (hlt : n < 2 ^ 63) :
    atoi s = some (n : Int) := by
  have hnot : ∀ b : UInt8, digit b = none → ∀ ds, s ≠ b :: ds := by
    intro b hb ds hs
    subst hs
    simp [digits, hb] at h
  unfold atoi
  split
  · exact absurd rfl (hnot 0x2D (by decide) _)
  · exact absurd rfl (hnot 0x2B (by decide) _)
  · rw [h]
    show (if n < 2 ^ 63 then _ else _) = _
    rw [if_pos hlt]

theorem SocketEvent.bodyLength_headers (e : SocketEvent) :
    bodyLength (headerMap e.headers) = e.body.length := by
  unfold bodyLength
  obtain hlength | ⟨hnone, hbody⟩ := e.announced
  · have hdigits := digits_decimal e.body.length
    have hne : decimal e.body.length ≠ [] := by
      intro hnil
      rw [hnil] at hdigits
      cases hdigits
    rw [hlength, Option.getD_some]
    dsimp only
    rw [if_neg hne, atoi_of_digits hdigits e.length_lt]
    rfl
  · rw [hnone, hbody]
    rfl

theorem readEvent_of_stream (e : SocketEvent) (r : Reader UInt8) (rest : Bytes)
    (h : r.stream = e.bytes ++ rest) :
    ∃ r', readEvent r = some (e.content, r') ∧ r'.stream = rest := by
  have hstream : r.stream = (e.headers.flatMap fun h => h.bytes ++ [newline]) ++
      newline :: (e.body ++ rest) := by
    rw [h, SocketEvent.bytes]
    simp
  obtain ⟨r₁, hread, hr₁⟩ := readHeaders_of_stream e.headers r .empty _ hstream
  have hmap : e.headers.foldl (fun m h => m.set h.name.text h.value.text) .empty =
      headerMap e.headers := by
    rw [headerMap, OrdMap.ofList, List.foldl_map]
  rw [hmap] at hread
  unfold readEvent
  rw [hread]
  show ∃ r', (if bodyLength (headerMap e.headers) = 0 then _ else _) = _ ∧ _
  rw [e.bodyLength_headers]
  by_cases hempty : e.body.length = 0
  · have hbody : e.body = [] := List.length_eq_zero_iff.mp hempty
    refine ⟨r₁, ?_, ?_⟩
    · rw [if_pos hempty, SocketEvent.content, hbody]
    · rw [hr₁, hbody, List.nil_append]
  · obtain ⟨r', hfull, hr'⟩ := r₁.readFull_of_stream [] e.body rest hr₁
    refine ⟨r', ?_, hr'⟩
    rw [if_neg hempty, hfull]
    rfl

/-- Events behind each other are read one by one. -/
theorem readEvents_append (es : List SocketEvent) (r : Reader UInt8) (rest : Bytes)
    (h : r.stream = es.flatMap SocketEvent.bytes ++ rest) :
    ∃ r', readEvents es.length r = some (es.map SocketEvent.content, r') ∧ r'.stream = rest := by
  induction es generalizing r with
  | nil => exact ⟨r, rfl, h⟩
  | cons e es ih =>
    rw [List.flatMap_cons, List.append_assoc] at h
    obtain ⟨r₁, hread, hr₁⟩ := readEvent_of_stream e r _ h
    obtain ⟨r', hr', hrest⟩ := ih r₁ hr₁
    refine ⟨r', ?_, hrest⟩
    rw [List.length_cons, readEvents, hread]
    show (readEvents es.length r₁).map _ = _
    rw [hr']
    rfl

/-- Events that stand behind each other in the stream are read in order, with their headers and
    bodies, however the connection delivers the bytes, and no byte is left. -/
theorem socketEvents_read (es : List SocketEvent) (r : Reader UInt8)
    (h : r.stream = es.flatMap SocketEvent.bytes) :
    ∃ r', readEvents es.length r = some (es.map SocketEvent.content, r') ∧ r'.stream = [] := by
  apply readEvents_append
  rw [List.append_nil]
  exact h

/-- `Content-Length: 5`, with a space before the value. -/
def fiveBytes : SocketHeader where
  name := ⟨[], contentLength, [], by simp, by simp, by decide, by decide,
    by simp [contentLength, newline, carriageReturn]⟩
  value := ⟨[[0x20]], [0x35], [], by decide, by simp, by decide, by decide,
    by simp [newline, carriageReturn]⟩
  name_ne := by decide
  no_colon := by decide

/-- An event with an empty line and `a:b` in its body, and one without headers. -/
def twoEvents : List SocketEvent :=
  [{ headers := [fiveBytes], body := [0x0A, 0x61, 0x3A, 0x62, 0x0A], length_lt := by decide,
     announced := .inl (by decide) },
   { headers := [], body := [], length_lt := by decide, announced := .inr ⟨rfl, rfl⟩ }]

theorem socketEvents_read_two :
    ∃ r', readEvents 2 ⟨4096, by decide, [],
        ⟨[contentLength, [0x3A, 0x20, 0x35, 0x0A, 0x0A, 0x0A, 0x61], [0x3A, 0x62, 0x0A, 0x0A]],
          by decide⟩⟩ = some (twoEvents.map SocketEvent.content, r') ∧ r'.stream = [] :=
  socketEvents_read twoEvents _ (by decide)

end CallNet.Edge
