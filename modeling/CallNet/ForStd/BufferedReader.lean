import Mathlib.Data.List.Basic
import Mathlib.Data.List.TakeWhile

/-!
# Buffered readers

A reader with a buffer of fixed size over a connection that delivers its bytes in chunks.

* `Conn.read` is one read of the connection: as much of the next chunk as there is room for.
* `Reader.readString` reads up to a delimiter, and gathers what does not fit into the buffer.
* `Reader.readFull` reads a number of bytes, past the buffer where it is empty and too small.
* What they return depends on `Reader.stream` alone, the bytes that are left to read, and not on
  the chunks nor on the buffer: `readString_of_stream` and `readFull_of_stream`.
-/

/-- What a connection has still to deliver. Every read of it returns something. -/
structure Conn (α : Type u) where
  chunks : List (List α)
  nonempty : ∀ c ∈ chunks, c ≠ []

namespace Conn

variable {α : Type u}

/-- The bytes that are left. -/
def bytes (c : Conn α) : List α := c.chunks.flatten

/-- One read with room for `k` bytes; `none` at the end. -/
def read (c : Conn α) (k : Nat) : Option (List α × Conn α) :=
  match c with
  | ⟨[], _⟩ => none
  | ⟨chunk :: chunks, h⟩ =>
    if hroom : chunk.length ≤ k then
      some (chunk, ⟨chunks, fun c hc => h c (List.mem_cons_of_mem _ hc)⟩)
    else
      some (chunk.take k, ⟨chunk.drop k :: chunks, by
        intro c hc
        obtain rfl | hmem := List.mem_cons.mp hc
        · intro hnil
          exact hroom (List.drop_eq_nil_iff.mp hnil)
        · exact h c (List.mem_cons_of_mem _ hmem)⟩)

/-- A read takes bytes from the front, no more than there is room for, and some if there is
    room. -/
theorem read_spec {c c' : Conn α} {k : Nat} {bs : List α} (h : c.read k = some (bs, c')) :
    c.bytes = bs ++ c'.bytes ∧ bs.length ≤ k ∧ (0 < k → bs ≠ []) := by
  obtain ⟨chunks, hne⟩ := c
  cases chunks with
  | nil => exact nomatch h
  | cons chunk chunks =>
    have hchunk := hne chunk List.mem_cons_self
    change (if _ : chunk.length ≤ k then _ else _) = _ at h
    split at h
    · rename_i hroom
      obtain ⟨rfl, rfl⟩ := Prod.mk.inj (Option.some.inj h)
      exact ⟨rfl, hroom, fun _ => hchunk⟩
    · obtain ⟨rfl, rfl⟩ := Prod.mk.inj (Option.some.inj h)
      refine ⟨?_, List.length_take_le k chunk, ?_⟩
      · show chunk ++ chunks.flatten = chunk.take k ++ (chunk.drop k ++ chunks.flatten)
        rw [← List.append_assoc, List.take_append_drop]
      · intro hk hnil
        obtain hzero | hnil := List.take_eq_nil_iff.mp hnil
        · omega
        · exact hchunk hnil

/-- There is something to read while bytes are left. -/
theorem exists_read {c : Conn α} (h : c.bytes ≠ []) (k : Nat) :
    ∃ bs c', c.read k = some (bs, c') := by
  obtain ⟨chunks, hne⟩ := c
  cases chunks with
  | nil => exact absurd rfl h
  | cons chunk chunks =>
    show ∃ bs c', (if _ : chunk.length ≤ k then _ else _) = some (bs, c')
    split <;> exact ⟨_, _, rfl⟩

end Conn

/-- A reader with a buffer of some size. -/
structure Reader (α : Type u) where
  size : Nat
  size_pos : 0 < size
  buffered : List α
  conn : Conn α

namespace Reader

variable {α : Type u}

/-- The bytes that are left to read. -/
def stream (r : Reader α) : List α := r.buffered ++ r.conn.bytes

/-- One more read into the buffer. -/
def fill (r : Reader α) : Option (Reader α) :=
  (r.conn.read (r.size - r.buffered.length)).map fun next =>
    { r with buffered := r.buffered ++ next.1, conn := next.2 }

theorem stream_of_fill {r r' : Reader α} (h : r.fill = some r') : r'.stream = r.stream := by
  obtain ⟨⟨bs, conn⟩, hread, rfl⟩ := Option.map_eq_some_iff.mp h
  unfold stream
  rw [(Conn.read_spec hread).1, List.append_assoc]

theorem length_of_fill {r r' : Reader α} (h : r.fill = some r')
    (hroom : r.buffered.length < r.size) : r'.conn.bytes.length < r.conn.bytes.length := by
  obtain ⟨⟨bs, conn⟩, hread, rfl⟩ := Option.map_eq_some_iff.mp h
  obtain ⟨hbytes, -, hne⟩ := Conn.read_spec hread
  have hpos := List.length_pos_iff.mpr (hne (by omega))
  show conn.bytes.length < _
  rw [hbytes, List.length_append]
  omega

variable [DecidableEq α] (delim : α)

/-- Read up to a delimiter, behind what was gathered before; `none` if the connection ends
    first. -/
def readString (r : Reader α) (gathered : List α) : Option (List α × Reader α) :=
  match r.buffered.dropWhile (· ≠ delim) with
  | d :: rest =>
    some (gathered ++ r.buffered.takeWhile (· ≠ delim) ++ [d], { r with buffered := rest })
  | [] =>
    if _hfull : r.size ≤ r.buffered.length then
      -- the buffer is full: its content is a fragment of the string
      readString { r with buffered := [] } (gathered ++ r.buffered)
    else
      match _hfill : r.fill with
      | none => none
      | some r' => readString r' gathered
termination_by (r.conn.bytes.length, r.buffered.length)
decreasing_by
  · have := r.size_pos
    apply Prod.Lex.right
    show 0 < r.buffered.length
    omega
  · exact Prod.Lex.left _ _ (length_of_fill _hfill (by omega))

/-- A buffer with the delimiter in it. -/
theorem split_of_dropWhile {buf rest : List α} {d : α}
    (h : buf.dropWhile (· ≠ delim) = d :: rest) :
    d = delim ∧ delim ∉ buf.takeWhile (· ≠ delim) ∧
      buf.takeWhile (· ≠ delim) ++ delim :: rest = buf := by
  induction buf with
  | nil => exact nomatch h
  | cons b buf ih =>
    by_cases hb : b = delim
    · subst hb
      simp only [List.dropWhile_cons, ne_eq, not_true_eq_false, decide_false, Bool.false_eq_true,
        if_false, List.cons.injEq] at h
      obtain ⟨rfl, rfl⟩ := h
      simp
    · simp only [List.dropWhile_cons, ne_eq, hb, not_false_eq_true, decide_true, if_true] at h
      obtain ⟨hd, hbefore, hsplit⟩ := ih h
      simp only [List.takeWhile_cons, ne_eq, hb, not_false_eq_true, decide_true, if_true,
        List.mem_cons, not_or, List.cons_append]
      exact ⟨hd, ⟨Ne.symm hb, hbefore⟩, congrArg (b :: ·) hsplit⟩

theorem not_mem_of_dropWhile {buf : List α} (h : buf.dropWhile (· ≠ delim) = []) :
    delim ∉ buf := by
  intro hmem
  have := List.dropWhile_eq_nil_iff.mp h delim hmem
  simp at this

omit [DecidableEq α] in
/-- A buffer without the delimiter begins the string. -/
theorem begins_of_not_mem {buf bytes line rest : List α} (hbuf : delim ∉ buf)
    (h : buf ++ bytes = line ++ delim :: rest) :
    ∃ line', line = buf ++ line' ∧ bytes = line' ++ delim :: rest := by
  obtain ⟨line', hline, hbytes⟩ | ⟨more, hsplit, hmore⟩ := List.append_eq_append_iff.mp h
  · exact ⟨line', hline, hbytes⟩
  · cases more with
    | nil => exact ⟨[], by simpa using hsplit.symm, by simpa using hmore.symm⟩
    | cons d more =>
      simp only [List.cons_append, List.cons.injEq] at hmore
      rw [hsplit, ← hmore.1] at hbuf
      simp at hbuf

/-- What is left after a string is shorter. -/
theorem length_of_readString {r r' : Reader α} {gathered line : List α}
    (h : r.readString delim gathered = some (line, r')) :
    r'.stream.length < r.stream.length := by
  fun_induction readString delim r gathered with
  | case1 r gathered d rest hfound =>
    obtain ⟨-, rfl⟩ := Prod.mk.inj (Option.some.inj h)
    obtain ⟨-, -, hsplit⟩ := split_of_dropWhile delim hfound
    unfold stream
    rw [← hsplit]
    simp only [List.length_append, List.length_cons]
    omega
  | case2 r gathered hnone hfull ih =>
    have := ih h
    unfold stream at this ⊢
    simp only [List.length_append, List.length_nil] at this ⊢
    omega
  | case3 => exact nomatch h
  | case4 r gathered hnone hroom r₁ hfill ih =>
    rw [← stream_of_fill hfill]
    exact ih h

/-- A string is read as it stands in the stream. -/
theorem readString_of_stream (r : Reader α) (gathered line rest : List α) (hdelim : delim ∉ line)
    (h : r.stream = line ++ delim :: rest) :
    ∃ r', r.readString delim gathered = some (gathered ++ line ++ [delim], r') ∧
      r'.stream = rest := by
  fun_induction readString delim r gathered generalizing line with
  | case1 r gathered d tail hfound =>
    obtain ⟨rfl, hbefore, hsplit⟩ := split_of_dropWhile delim hfound
    -- the delimiter in the buffer is the first one of the stream
    have hstream : r.buffered.takeWhile (· ≠ d) ++ d :: (tail ++ r.conn.bytes) =
        line ++ d :: rest := by
      calc r.buffered.takeWhile (· ≠ d) ++ d :: (tail ++ r.conn.bytes)
          = (r.buffered.takeWhile (· ≠ d) ++ d :: tail) ++ r.conn.bytes := by simp
        _ = line ++ d :: rest := by
          rw [hsplit]
          exact h
    obtain ⟨line', rfl, hbytes⟩ := begins_of_not_mem d hbefore hstream
    cases line' with
    | nil =>
      refine ⟨{ r with buffered := tail }, ?_, (List.cons.inj hbytes).2⟩
      rw [List.append_nil]
    | cons c line' =>
      rw [(List.cons.inj hbytes).1] at hdelim
      simp at hdelim
  | case2 r gathered hnone hfull ih =>
    obtain ⟨line', rfl, hbytes⟩ := begins_of_not_mem delim (not_mem_of_dropWhile delim hnone) h
    rw [List.mem_append, not_or] at hdelim
    obtain ⟨r', hr', hstream⟩ := ih line' hdelim.2 hbytes
    exact ⟨r', by rw [hr', List.append_assoc gathered], hstream⟩
  | case3 r gathered hnone hroom hfill =>
    -- the connection does not end before the delimiter
    obtain ⟨line', -, hbytes⟩ := begins_of_not_mem delim (not_mem_of_dropWhile delim hnone) h
    have hleft : r.conn.bytes ≠ [] := by
      rw [hbytes]
      simp
    obtain ⟨bs, conn, hread⟩ := Conn.exists_read hleft (r.size - r.buffered.length)
    rw [fill, hread] at hfill
    exact nomatch hfill
  | case4 r gathered hnone hroom r₁ hfill ih =>
    rw [← stream_of_fill hfill] at h
    exact ih line hdelim h

/-! ## Reading a number of bytes -/

omit [DecidableEq α]

/-- One `Read` for at most `k` bytes: what is in the buffer; where it is empty, what the
    connection delivers, put into the buffer unless more is asked for than fits. -/
def read (r : Reader α) (k : Nat) : Option (List α × Reader α) :=
  if r.buffered = [] then
    if r.size ≤ k then (r.conn.read k).map fun next => (next.1, { r with conn := next.2 })
    else (r.conn.read r.size).map fun next =>
      (next.1.take k, { r with buffered := next.1.drop k, conn := next.2 })
  else some (r.buffered.take k, { r with buffered := r.buffered.drop k })

theorem read_spec {r r' : Reader α} {k : Nat} {bs : List α} (hk : 0 < k)
    (h : r.read k = some (bs, r')) :
    r.stream = bs ++ r'.stream ∧ bs.length ≤ k ∧ bs ≠ [] := by
  unfold read at h
  split at h
  · rename_i hempty
    have hstream : r.stream = r.conn.bytes := by
      rw [stream, hempty, List.nil_append]
    split at h
    · obtain ⟨⟨bs', conn⟩, hread, heq⟩ := Option.map_eq_some_iff.mp h
      obtain ⟨rfl, rfl⟩ := Prod.mk.inj heq
      obtain ⟨hbytes, hle, hne⟩ := Conn.read_spec hread
      refine ⟨?_, hle, hne hk⟩
      show r.stream = bs' ++ (r.buffered ++ conn.bytes)
      rw [hstream, hempty, hbytes, List.nil_append]
    · obtain ⟨⟨bs', conn⟩, hread, heq⟩ := Option.map_eq_some_iff.mp h
      obtain ⟨rfl, rfl⟩ := Prod.mk.inj heq
      obtain ⟨hbytes, -, hne⟩ := Conn.read_spec hread
      refine ⟨?_, List.length_take_le _ _, ?_⟩
      · show r.stream = bs'.take k ++ (bs'.drop k ++ conn.bytes)
        rw [hstream, hbytes, ← List.append_assoc, List.take_append_drop]
      · intro hnil
        obtain hzero | hnil := List.take_eq_nil_iff.mp hnil
        · omega
        · exact hne r.size_pos hnil
  · rename_i hne
    obtain ⟨rfl, rfl⟩ := Prod.mk.inj (Option.some.inj h)
    refine ⟨?_, List.length_take_le _ _, ?_⟩
    · show r.buffered ++ r.conn.bytes = r.buffered.take k ++ (r.buffered.drop k ++ r.conn.bytes)
      rw [← List.append_assoc, List.take_append_drop]
    · intro hnil
      obtain hzero | hnil := List.take_eq_nil_iff.mp hnil
      · omega
      · exact hne hnil

/-- There is something to read while bytes are left. -/
theorem exists_read {r : Reader α} (h : r.stream ≠ []) (k : Nat) :
    ∃ bs r', r.read k = some (bs, r') := by
  unfold read
  split
  · rename_i hempty
    have hbytes : r.conn.bytes ≠ [] := by
      rw [stream, hempty, List.nil_append] at h
      exact h
    split
    · obtain ⟨bs, conn, hread⟩ := Conn.exists_read hbytes k
      rw [hread]
      exact ⟨_, _, rfl⟩
    · obtain ⟨bs, conn, hread⟩ := Conn.exists_read hbytes r.size
      rw [hread]
      exact ⟨_, _, rfl⟩
  · exact ⟨_, _, rfl⟩

/-- Read exactly `k` bytes, behind what was gathered before; `none` if the connection ends
    first. -/
def readFull (r : Reader α) (k : Nat) (gathered : List α) : Option (List α × Reader α) :=
  if _hk : k = 0 then some (gathered, r)
  else
    match _hread : r.read k with
    | none => none
    | some (bs, r') => readFull r' (k - bs.length) (gathered ++ bs)
termination_by k
decreasing_by
  have := List.length_pos_iff.mpr (read_spec (Nat.pos_of_ne_zero _hk) _hread).2.2
  omega

/-- The bytes are read as they stand in the stream. -/
theorem readFull_of_stream (r : Reader α) (gathered body rest : List α)
    (h : r.stream = body ++ rest) :
    ∃ r', r.readFull body.length gathered = some (gathered ++ body, r') ∧ r'.stream = rest := by
  generalize hk : body.length = k
  fun_induction readFull r k gathered generalizing body with
  | case1 r gathered =>
    have hnil : body = [] := List.eq_nil_of_length_eq_zero hk
    subst hnil
    exact ⟨r, by rw [List.append_nil], h⟩
  | case2 r k gathered hpos hread =>
    -- the connection does not end before the last byte
    have hleft : r.stream ≠ [] := by
      intro hnil
      rw [hnil] at h
      have : body = [] := (List.append_eq_nil_iff.mp h.symm).1
      rw [this] at hk
      exact hpos hk.symm
    obtain ⟨bs, r', hsome⟩ := exists_read hleft k
    rw [hread] at hsome
    exact nomatch hsome
  | case3 r k gathered hpos bs r₁ hread ih =>
    obtain ⟨hstream, hle, -⟩ := read_spec (Nat.pos_of_ne_zero hpos) hread
    -- what was read begins the body
    have hbs : bs = body.take bs.length := by
      have htake := congrArg (List.take bs.length) (hstream.symm.trans h)
      rw [List.take_left, List.take_append_of_le_length (by omega)] at htake
      exact htake
    have hrest : r₁.stream = body.drop bs.length ++ rest := by
      have hdrop := congrArg (List.drop bs.length) (hstream.symm.trans h)
      rw [List.drop_left, List.drop_append_of_le_length (by omega)] at hdrop
      exact hdrop
    obtain ⟨r', hr', hr'stream⟩ := ih (body.drop bs.length) hrest (by rw [List.length_drop, hk])
    have hbody : bs ++ body.drop bs.length = body :=
      (congrArg (· ++ body.drop bs.length) hbs).trans (List.take_append_drop bs.length body)
    exact ⟨r', by rw [hr', List.append_assoc, hbody], hr'stream⟩

end Reader
