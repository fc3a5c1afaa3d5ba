import CallNet.Edge.CdrShipping
import CallNet.ForStd.Machine

/-!
# Delivery of CDR lines

The agent ships what the file has between its offset and the size it found, piece by piece
between newlines, and then moves the offset to that size.  That delivers each line whole as long
as every flush finds the end of a line at the end of the file and counts its offset in the very
file it reads: a line that is only partly written is shipped in parts, and of a new file that
has already outgrown the old one the beginning is skipped.
-/

namespace CallNet.Edge

open List (Whole completeLines)
open Machine (Meets Throughout)

/-! ## The property and its condition -/

/-- The bytes before the offset are lines that were delivered. -/
structure Shipped (content : Bytes) (delivered : List Bytes) (n : Nat) : Prop where
  le : n ≤ content.length
  whole : Whole newline (content.take n)
  delivered : ∀ l ∈ cdrLines (content.take n), l ∈ delivered

namespace ShippingSystem

variable {s s' : ShippingSystem} {e : ShippingEvent}

/-- Every complete line is delivered, whole. -/
structure DeliversLines (s : ShippingSystem) : Prop where
  /-- No row is a fragment of a line. -/
  whole : ∀ l ∈ s.delivered, l ∈ s.past ∨ l ∈ cdrLines s.content
  /-- The stored offset passes delivered lines only. -/
  stored : s.storedHere = true → Shipped s.content s.delivered s.stored
  /-- A flush that ends without an error has delivered the lines that were complete. -/
  owed : ∀ l ∈ s.owed, l ∈ s.delivered

/-- A file gives way to another after all its lines were delivered. -/
def ReplacesShipped (s : ShippingSystem) : ShippingEvent → Prop
  | .replace _ => ∀ l ∈ cdrLines s.content, l ∈ s.delivered
  | _ => True

/-- A flush finds the end of a line at the end of the file, and its offset, unless it is 0 or
    past that end, counts the bytes of this file; and it reads the file it has found. -/
def FlushesWhole (s : ShippingSystem) : ShippingEvent → Prop
  | .stat => ∀ content, s.phase = .idle → s.file = some content →
    Whole newline content ∧ (s.here = true ∨ s.offset = 0 ∨ content.length < s.offset)
  | .read _ => ∀ size lines here, s.phase = .opening size lines here → here = true
  | _ => True

end ShippingSystem

/-! ## Lines of the file -/

theorem cdrLines_subset_append (content bytes : Bytes) :
    cdrLines content ⊆ cdrLines (content ++ bytes) :=
  List.filter_subset _ (List.completeLines_subset_append content bytes)

theorem cdrLines_take_subset (content : Bytes) (n : Nat) :
    cdrLines (content.take n) ⊆ cdrLines content :=
  List.filter_subset _ (List.completeLines_take_subset n)

theorem cdrLines_append {content bytes : Bytes} (h : Whole newline content) :
    cdrLines (content ++ bytes) = cdrLines content ++ cdrLines bytes := by
  rw [cdrLines, List.completeLines_append h, List.filter_append, cdrLines, cdrLines]

/-- The rows of whole lines are the lines. -/
theorem rowsOf_of_whole {buf : Bytes} (h : Whole newline buf) : rowsOf buf = cdrLines buf := by
  rw [rowsOf, List.splitOn_of_whole h, List.filter_append, cdrLines]
  exact List.append_nil _

/-- What a flush reads between two ends of lines. -/
theorem rowsOf_read {content : Bytes} {n size : Nat} (hle : n ≤ size)
    (hn : Whole newline (content.take n)) (hsize : Whole newline (content.take size)) :
    cdrLines (content.take size) =
      cdrLines (content.take n) ++ rowsOf ((content.drop n).take (size - n)) := by
  have hsplit : content.take size = content.take n ++ (content.drop n).take (size - n) := by
    rw [← List.take_add]
    congr 1
    omega
  rw [hsplit] at hsize
  have hread := List.whole_of_append hsize
  rw [hsplit, cdrLines_append hn, rowsOf_of_whole hread]

/-! ## What was shipped -/

theorem shipped_zero (content : Bytes) (delivered : List Bytes) : Shipped content delivered 0 where
  le := Nat.zero_le _
  whole := List.whole_nil newline
  delivered := fun _ hl => absurd hl List.not_mem_nil

/-- What was shipped of a file still is when the file and the deliveries grow. -/
theorem Shipped.grow {content : Bytes} {delivered : List Bytes} {n : Nat}
    (h : Shipped content delivered n) (bytes : Bytes) (more : List Bytes) :
    Shipped (content ++ bytes) (delivered ++ more) n := by
  have htake : (content ++ bytes).take n = content.take n := List.take_append_of_le_length h.le
  constructor
  · rw [List.length_append]
    exact Nat.le_trans h.le (Nat.le_add_right ..)
  · rw [htake]
    exact h.whole
  · rw [htake]
    exact fun l hl => List.mem_append_left more (h.delivered l hl)

theorem Shipped.append {content : Bytes} {delivered : List Bytes} {n : Nat}
    (h : Shipped content delivered n) (bytes : Bytes) : Shipped (content ++ bytes) delivered n := by
  have hgrow := h.grow bytes []
  rwa [List.append_nil] at hgrow

theorem Shipped.deliver {content : Bytes} {delivered : List Bytes} {n : Nat}
    (h : Shipped content delivered n) (more : List Bytes) : Shipped content (delivered ++ more) n := by
  have hgrow := h.grow [] more
  rwa [List.append_nil] at hgrow

/-! ## The invariant -/

namespace ShippingSystem

variable {s s' : ShippingSystem}


/-- What a flush under way has found and read. -/
def PhaseHolds (s : ShippingSystem) : FlushPhase → Prop
  | .idle => True
  | .opening size lines here => here = true → Shipped s.content s.delivered s.offset ∧ s.offset ≤ size ∧
    size ≤ s.content.length ∧ Whole newline (s.content.take size) ∧
    ∀ l ∈ lines, l ∈ s.delivered ∨ l ∈ cdrLines (s.content.take size)
  | .posting rows size lines here => (∀ l ∈ rows, l ∈ s.past ∨ l ∈ cdrLines s.content) ∧
    (∀ l ∈ lines, l ∈ s.delivered ∨ l ∈ rows) ∧
    (here = true → size ≤ s.content.length ∧ Whole newline (s.content.take size) ∧
      ∀ l ∈ cdrLines (s.content.take size), l ∈ s.delivered ∨ l ∈ rows)
  | .saving size lines here => (∀ l ∈ lines, l ∈ s.delivered) ∧ (here = true → Shipped s.content s.delivered size)

structure DeliveryInv (s : ShippingSystem) : Prop extends DeliversLines s where
  past : ∀ l ∈ s.past, l ∈ s.delivered
  offset : s.here = true → Shipped s.content s.delivered s.offset
  phase : s.PhaseHolds s.phase

/-! ## Steps -/

theorem deliveryInv_append {bytes : Bytes} (h : s.DeliveryInv)
    (hstep : step s (.append bytes) = some s') : s'.DeliveryInv := by
  rw [← Option.some.inj hstep]
  refine ⟨⟨fun l hl => ?_, fun hhere => (h.stored hhere).append bytes, h.owed⟩, h.past,
    fun hhere => (h.offset hhere).append bytes, ?_⟩
  · exact (h.whole l hl).imp_right fun hline => cdrLines_subset_append _ _ hline
  · have hphase := h.phase
    revert hphase
    cases s.phase with
    | idle => exact fun _ => trivial
    | opening size lines here =>
      intro hphase hhere
      obtain ⟨hoffset, hle, hsize, hwhole, hlines⟩ := hphase hhere
      have htake : (s.content ++ bytes).take size = s.content.take size :=
        List.take_append_of_le_length hsize
      refine ⟨hoffset.append bytes, hle, ?_, ?_, ?_⟩
      · exact Nat.le_trans hsize (by simp [content])
      · rwa [← htake] at hwhole
      · rwa [← htake] at hlines
    | posting rows size lines here =>
      rintro ⟨hrows, hlines, hfile⟩
      refine ⟨fun l hl => ?_, hlines, fun hhere => ?_⟩
      · exact (hrows l hl).imp_right fun hline => cdrLines_subset_append _ _ hline
      · obtain ⟨hsize, hwhole, hdelivered⟩ := hfile hhere
        have htake : (s.content ++ bytes).take size = s.content.take size :=
          List.take_append_of_le_length hsize
        refine ⟨Nat.le_trans hsize (by simp [content]), ?_, ?_⟩
        · rwa [← htake] at hwhole
        · rwa [← htake] at hdelivered
    | saving size lines here =>
      rintro ⟨hlines, hfile⟩
      exact ⟨hlines, fun hhere => (hfile hhere).append bytes⟩

theorem deliveryInv_replace {file : Option Bytes} (h : s.DeliveryInv)
    (hreplaces : ReplacesShipped s (.replace file)) (hstep : step s (.replace file) = some s') :
    s'.DeliveryInv := by
  rw [← Option.some.inj hstep]
  -- a line of the old file is one of the past
  have hpast : ∀ l, (l ∈ s.past ∨ l ∈ cdrLines s.content) → l ∈ s.past ++ cdrLines s.content :=
    fun l hl => List.mem_append.mpr hl
  refine ⟨⟨fun l hl => .inl (hpast l (h.whole l hl)), nofun, h.owed⟩, fun l hl => ?_, nofun, ?_⟩
  · rcases List.mem_append.mp hl with hold | hline
    · exact h.past l hold
    · exact hreplaces l hline
  · have hphase := h.phase
    revert hphase
    cases s.phase with
    | idle => exact fun _ => trivial
    | opening size lines here => exact fun _ => nofun
    | posting rows size lines here =>
      rintro ⟨hrows, hlines, -⟩
      exact ⟨fun l hl => .inl (hpast l (hrows l hl)), hlines, nofun⟩
    | saving size lines here =>
      rintro ⟨hlines, -⟩
      exact ⟨hlines, nofun⟩

/-- The agent starts over with a file that is shorter than its offset. -/
theorem deliveryInv_reset (h : s.DeliveryInv) (hidle : s.phase = .idle) :
    ({ s with offset := 0, here := true } : ShippingSystem).DeliveryInv := by
  refine ⟨⟨h.whole, h.stored, h.owed⟩, h.past, fun _ => shipped_zero _ _, ?_⟩
  simp only [hidle]
  trivial

/-- The agent goes on from an offset before which all was shipped. -/
theorem deliveryInv_found (h : s.DeliveryInv) (hwhole : Whole newline s.content)
    (hoffset : Shipped s.content s.delivered s.offset)
    (hstep : (if s.content.length = s.offset then
        some { s with owed := s.past ++ cdrLines s.content }
      else some { s with
        phase := .opening s.content.length (s.past ++ cdrLines s.content) true }) = some s') :
    s'.DeliveryInv := by
  split at hstep
  · rename_i hsize
    rw [← Option.some.inj hstep]
    refine ⟨⟨h.whole, h.stored, fun l hl => ?_⟩, h.past, h.offset, h.phase⟩
    rcases List.mem_append.mp hl with hold | hline
    · exact h.past l hold
    · -- the offset is at the end of the file
      refine hoffset.delivered l ?_
      rwa [← hsize, List.take_length]
  · rw [← Option.some.inj hstep]
    refine ⟨⟨h.whole, h.stored, h.owed⟩, h.past, h.offset, fun _ => ?_⟩
    refine ⟨hoffset, hoffset.le, Nat.le_refl _, ?_, fun l hl => ?_⟩
    · show Whole newline (s.content.take s.content.length)
      rw [List.take_length]
      exact hwhole
    · show l ∈ s.delivered ∨ l ∈ cdrLines (s.content.take s.content.length)
      rw [List.take_length]
      exact (List.mem_append.mp hl).imp_left (h.past l)

theorem deliveryInv_stat (h : s.DeliveryInv) (hflush : FlushesWhole s .stat)
    (hstep : step s .stat = some s') : s'.DeliveryInv := by
  simp only [step] at hstep
  split at hstep
  · rw [← Option.some.inj hstep]
    exact h
  · rename_i content hidle hfile
    obtain ⟨hwhole, hoffset⟩ := hflush content hidle hfile
    have hcontent : content = s.content := by rw [ShippingSystem.content, hfile]; rfl
    rw [hcontent] at hstep hwhole hoffset
    by_cases hshort : s.content.length < s.offset
    · rw [if_pos hshort] at hstep
      exact deliveryInv_found (deliveryInv_reset h hidle) hwhole (shipped_zero _ _) hstep
    · rw [if_neg hshort] at hstep
      refine deliveryInv_found h hwhole ?_ hstep
      rcases hoffset with hhere | hzero | hshorter
      · exact h.offset hhere
      · rw [hzero]
        exact shipped_zero _ _
      · exact absurd hshorter hshort
  · cases hstep

theorem deliveryInv_read {ok : Bool} (h : s.DeliveryInv) (hflush : FlushesWhole s (.read ok))
    (hstep : step s (.read ok) = some s') : s'.DeliveryInv := by
  simp only [step] at hstep
  split at hstep
  · rename_i size lines here hphase
    split at hstep
    · rename_i content hfile
      have hcontent : content = s.content := by rw [ShippingSystem.content, hfile]; rfl
      have hopening := h.phase
      rw [hphase] at hopening
      obtain ⟨hoffset, hle, hsize, hwhole, hlines⟩ := hopening (hflush size lines here hphase)
      have hread := rowsOf_read hle hoffset.whole hwhole
      rw [hcontent] at hstep
      -- the lines up to the size were delivered before, or they are the rows
      have hcovered : ∀ l ∈ cdrLines (s.content.take size), l ∈ s.delivered ∨
          l ∈ rowsOf ((s.content.drop s.offset).take (size - s.offset)) := by
        intro l hl
        rw [hread] at hl
        exact (List.mem_append.mp hl).imp_left (hoffset.delivered l)
      split at hstep
      · rename_i hnone
        rw [hnone] at hcovered
        have hdelivered : ∀ l ∈ cdrLines (s.content.take size), l ∈ s.delivered := fun l hl =>
          (hcovered l hl).resolve_right List.not_mem_nil
        rw [← Option.some.inj hstep]
        refine ⟨⟨h.whole, h.stored, h.owed⟩, h.past, h.offset, fun l hl => ?_, fun _ => ?_⟩
        · exact (hlines l hl).elim id (hdelivered l)
        · exact ⟨hsize, hwhole, hdelivered⟩
      · rw [← Option.some.inj hstep]
        refine ⟨⟨h.whole, h.stored, h.owed⟩, h.past, h.offset, fun l hl => .inr ?_, fun l hl => ?_,
          fun _ => ⟨hsize, hwhole, hcovered⟩⟩
        · refine cdrLines_take_subset s.content size ?_
          rw [hread]
          exact List.mem_append_right _ hl
        · exact (hlines l hl).elim .inl (hcovered l)
    · rw [← Option.some.inj hstep]
      exact ⟨⟨h.whole, h.stored, h.owed⟩, h.past, h.offset, trivial⟩
  · cases hstep

/-- More rows of the files arrive. -/
theorem DeliversLines.deliver (h : s.DeliversLines) {rows : List Bytes}
    (hrows : ∀ l ∈ rows, l ∈ s.past ∨ l ∈ cdrLines s.content) (phase : FlushPhase) :
    ({ s with phase, delivered := s.delivered ++ rows } : ShippingSystem).DeliversLines where
  whole := fun l hl => (List.mem_append.mp hl).elim (h.whole l) (hrows l)
  stored := fun hhere => (h.stored hhere).deliver rows
  owed := fun l hl => List.mem_append_left rows (h.owed l hl)

theorem deliveryInv_post {outcome : PostOutcome} (h : s.DeliveryInv)
    (hstep : step s (.post outcome) = some s') : s'.DeliveryInv := by
  simp only [step] at hstep
  split at hstep
  · rename_i rows size lines here hphase
    have hposting := h.phase
    rw [hphase] at hposting
    obtain ⟨hrows, hlines, hfile⟩ := hposting
    have hpast : ∀ l ∈ s.past, l ∈ s.delivered ++ rows := fun l hl =>
      List.mem_append_left rows (h.past l hl)
    have hoffset : s.here = true → Shipped s.content (s.delivered ++ rows) s.offset := fun hhere =>
      (h.offset hhere).deliver rows
    cases outcome with
    | accepted =>
      rw [← Option.some.inj hstep]
      refine ⟨h.toDeliversLines.deliver hrows _, hpast, hoffset, fun l hl => ?_, fun hhere => ?_⟩
      · exact List.mem_append.mpr (hlines l hl)
      · obtain ⟨hsize, hwhole, hdelivered⟩ := hfile hhere
        exact ⟨hsize, hwhole, fun l hl => List.mem_append.mpr (hdelivered l hl)⟩
    | unanswered =>
      rw [← Option.some.inj hstep]
      exact ⟨h.toDeliversLines.deliver hrows _, hpast, hoffset, trivial⟩
    | failed =>
      rw [← Option.some.inj hstep]
      exact ⟨⟨h.whole, h.stored, h.owed⟩, h.past, h.offset, trivial⟩
  · cases hstep

theorem deliveryInv_save {ok : Bool} (h : s.DeliveryInv) (hstep : step s (.save ok) = some s') :
    s'.DeliveryInv := by
  simp only [step] at hstep
  split at hstep
  · rename_i size lines here hphase
    have hsaving := h.phase
    rw [hphase] at hsaving
    obtain ⟨hlines, hshipped⟩ := hsaving
    rw [← Option.some.inj hstep]
    cases ok with
    | true => exact ⟨⟨h.whole, hshipped, hlines⟩, h.past, hshipped, trivial⟩
    | false => exact ⟨⟨h.whole, h.stored, hlines⟩, h.past, hshipped, trivial⟩
  · cases hstep

theorem deliveryInv_restart (h : s.DeliveryInv) (hstep : step s .restart = some s') :
    s'.DeliveryInv := by
  rw [← Option.some.inj hstep]
  exact ⟨⟨h.whole, h.stored, h.owed⟩, h.past, h.stored, trivial⟩

/-- Whatever a step does, the lines before each offset stay delivered. -/
theorem deliveryInv_step {e : ShippingEvent} (h : s.DeliveryInv)
    (hcond : ReplacesShipped s e ∧ FlushesWhole s e) (hstep : step s e = some s') :
    s'.DeliveryInv := by
  cases e with
  | append bytes => exact deliveryInv_append h hstep
  | replace file => exact deliveryInv_replace h hcond.1 hstep
  | stat => exact deliveryInv_stat h hcond.2 hstep
  | read ok => exact deliveryInv_read h hcond.2 hstep
  | post outcome => exact deliveryInv_post h hstep
  | save ok => exact deliveryInv_save h hstep
  | restart => exact deliveryInv_restart h hstep

theorem deliveryInv_init (file : Option Bytes) : (init file).DeliveryInv where
  whole := fun _ hl => absurd hl List.not_mem_nil
  stored := fun _ => shipped_zero _ _
  owed := fun _ hl => absurd hl List.not_mem_nil
  past := fun _ hl => absurd hl List.not_mem_nil
  offset := fun _ => shipped_zero _ _
  phase := trivial

/-- As long as every flush finds whole lines and its offset in the file it reads, each complete
    line is delivered whole, and the stored offset passes delivered lines only. -/
theorem deliversLines_throughout (file : Option Bytes) (es : List ShippingEvent)
    (hreplaces : Meets step ReplacesShipped (init file) es)
    (hflushes : Meets step FlushesWhole (init file) es) :
    Throughout step DeliversLines (init file) es := by
  refine (Machine.throughout_of_meets (fun s e s' h hG hstep => deliveryInv_step h hG hstep)
    (deliveryInv_init file) (hreplaces.and hflushes)).mono fun s h => h.toDeliversLines

/-- From wherever the agent is idle, a flush that nothing disturbs ends without an error. -/
theorem exists_flush {content : Bytes} (hidle : s.phase = .idle) (hfile : s.file = some content) :
    ∃ es s', Machine.run step s es = some s' ∧ s'.phase = .idle ∧
      s'.owed = s.past ++ cdrLines content := by
  -- the operations after `Stat`, when there is something to read
  have hrest : ∀ t : ShippingSystem, t.file = some content →
      t.phase = .opening content.length (s.past ++ cdrLines content) true →
      ∃ es s', Machine.run step t es = some s' ∧ s'.phase = .idle ∧
        s'.owed = s.past ++ cdrLines content := by
    intro t htfile htphase
    by_cases hnone : rowsOf ((content.drop t.offset).take (content.length - t.offset)) = []
    · refine ⟨[.read true, .save true], ?_⟩
      simp only [Machine.run, step, htphase, htfile, if_pos hnone, Option.bind_some]
      exact ⟨_, rfl, rfl, rfl⟩
    · refine ⟨[.read true, .post .accepted, .save true], ?_⟩
      simp only [Machine.run, step, htphase, htfile, if_neg hnone, Option.bind_some]
      exact ⟨_, rfl, rfl, rfl⟩
  have hstat : ∃ t, step s .stat = some t ∧ t.file = some content ∧
      (t.phase = .idle ∧ t.owed = s.past ++ cdrLines content ∨
        t.phase = .opening content.length (s.past ++ cdrLines content) true) := by
    simp only [step, hidle, hfile]
    split
    · split
      · exact ⟨_, rfl, rfl, .inl ⟨rfl, rfl⟩⟩
      · exact ⟨_, rfl, rfl, .inr rfl⟩
    · split
      · exact ⟨_, rfl, hfile, .inl ⟨hidle, rfl⟩⟩
      · exact ⟨_, rfl, hfile, .inr rfl⟩
  obtain ⟨t, hstep, htfile, ⟨htphase, howed⟩ | htphase⟩ := hstat
  · refine ⟨[.stat], t, ?_, htphase, howed⟩
    rw [Machine.run_cons]
    exact ⟨t, hstep, rfl⟩
  · obtain ⟨es, s', hrun, hdone⟩ := hrest t htfile htphase
    refine ⟨.stat :: es, s', ?_, hdone⟩
    rw [Machine.run_cons]
    exact ⟨t, hstep, hrun⟩

/-! ## Lines and files -/

/-- A flush of which nothing fails. -/
def flush : List ShippingEvent := [.stat, .read true, .post .accepted, .save true]

/-- A file is shipped, and then the file after it. -/
def rotation : List ShippingEvent :=
  .append [97, 10] :: flush ++ [.replace (some []), .stat, .append [98, 10]] ++ flush

theorem deliversLines_rotation :
    Meets step ReplacesShipped (init none) rotation ∧ Meets step FlushesWhole (init none) rotation ∧
    Throughout step DeliversLines (init none) rotation := by
  have hreplaces : Meets step ReplacesShipped (init none) rotation := by
    refine ⟨trivial, trivial, trivial, trivial, trivial, ?_, trivial, trivial, trivial, trivial,
      trivial, trivial, trivial⟩
    show ∀ l ∈ cdrLines [97, 10], l ∈ [[97]]
    decide
  have hflushes : Meets step FlushesWhole (init none) rotation := by
    refine ⟨trivial, ?_, ?_, trivial, trivial, trivial, ?_, trivial, ?_, ?_, trivial, trivial,
      trivial⟩
    · intro content _ hfile
      rw [← Option.some.inj hfile]
      exact ⟨.inr rfl, .inl rfl⟩
    · exact fun size lines here hphase => (FlushPhase.opening.inj hphase).2.2.symm
    · intro content _ hfile
      rw [← Option.some.inj hfile]
      exact ⟨.inl rfl, .inr (.inr (by decide))⟩
    · intro content _ hfile
      rw [← Option.some.inj hfile]
      exact ⟨.inr rfl, .inl rfl⟩
    · exact fun size lines here hphase => (FlushPhase.opening.inj hphase).2.2.symm
  exact ⟨hreplaces, hflushes, deliversLines_throughout none rotation hreplaces hflushes⟩

/-- A line is flushed when only its first byte is written. -/
def partialLine : List ShippingEvent := .append [97] :: flush ++ .append [98, 10] :: flush

/-- The new file has two lines when the agent finds it, and the old one had one. -/
def outgrown : List ShippingEvent :=
  .append [97, 10] :: flush ++ .replace (some [98, 10, 99, 10]) :: flush

theorem not_deliversLines :
    (Meets step ReplacesShipped (init none) partialLine ∧
      ¬ Throughout step DeliversLines (init none) partialLine) ∧
    (Meets step ReplacesShipped (init none) outgrown ∧
      ¬ Throughout step DeliversLines (init none) outgrown) := by
  refine ⟨⟨?_, fun h => ?_⟩, ?_, fun h => ?_⟩
  · exact ⟨trivial, trivial, trivial, trivial, trivial, trivial, trivial, trivial, trivial, trivial,
      trivial⟩
  · -- the first byte was delivered as a row
    have hlast := h.last rfl
    have hwhole := hlast.whole [97] (by decide)
    exact absurd hwhole (by decide)
  · refine ⟨trivial, trivial, trivial, trivial, trivial, ?_, trivial, trivial, trivial, trivial,
      trivial⟩
    show ∀ l ∈ cdrLines [97, 10], l ∈ [[97]]
    decide
  · -- the first line of the new file is missing
    have hlast := h.last rfl
    have howed := hlast.owed [98] (by decide)
    exact absurd howed (by decide)

end ShippingSystem

end CallNet.Edge
