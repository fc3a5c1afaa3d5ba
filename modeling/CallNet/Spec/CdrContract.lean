import CallNet.Edge.CdrWire
import Mathlib.Data.List.Forall2

/-!
# What arrives of a CDR row

The tags of the two structs differ in five names, so those members find no field.  The other
members arrive, their strings as text.
-/

namespace CallNet.Edge

open Json (omitEmpty ofString ofInt intoString intoInt)

/-- The record has the values of the row. -/
structure EdgeCDR.Agrees (r : EdgeCDR) (row : CDRRow) : Prop where
  raw : r.raw = row.raw
  callerIDName : r.callerIDName = row.callerIDName
  callerIDNumber : r.callerIDNumber = row.callerIDNumber
  destination : r.destination = row.destination
  startStamp : r.startStamp = row.startStamp
  endStamp : r.endStamp = row.endStamp
  duration : r.duration = row.duration
  billsec : r.billsec = row.billsec
  hangupCause : r.hangupCause = row.hangupCause
  uuid : r.uuid = row.uuid

/-- The row has nothing in the fields that the structs name differently, and its other strings
    are text. -/
structure CDRRow.WireSafe (row : CDRRow) : Prop where
  callerIDName : row.callerIDName = []
  callerIDNumber : row.callerIDNumber = []
  startStamp : row.startStamp = []
  endStamp : row.endStamp = []
  hangupCause : row.hangupCause = []
  raw : Utf8.Valid row.raw
  destination : Utf8.Valid row.destination
  uuid : Utf8.Valid row.uuid

/-! ## Members -/

theorem intoString_ofString {α : Type} (before : α) (set : Bytes → α) (s : Bytes) :
    intoString before set (ofString s) = some (set (Utf8.coerce s)) := rfl

theorem intoInt_ofInt {α : Type} (before : α) (set : Int64 → α) (n : Int64) :
    intoInt before set (ofInt n) = some (set n) := by
  have hrange := And.intro n.minValue_le_toInt n.toInt_le
  rw [ofInt, intoInt, if_pos hrange, Int64.ofInt_toInt]

/-- The members are decoded into the record, one after the other. -/
def Decodes (r : EdgeCDR) (members : List (String × Json)) (r' : EdgeCDR) : Prop :=
  members.foldlM EdgeCDR.assign r = some r'

theorem Decodes.append {r r' r'' : EdgeCDR} {ms ms' : List (String × Json)} (h : Decodes r ms r')
    (h' : Decodes r' ms' r'') : Decodes r (ms ++ ms') r'' := by
  unfold Decodes at h h' ⊢
  rw [List.foldlM_append, h]
  exact h'

theorem decodes_singleton {r r' : EdgeCDR} {member : String × Json} (h : r.assign member = some r') :
    Decodes r [member] r' := by
  unfold Decodes
  rw [List.foldlM_cons, h]
  rfl

/-- A member with `omitempty` is decoded to what it was, also when it is left out. -/
theorem decodes_omitEmpty {α : Type} [DecidableEq α] {key : String} {zero : α} {value : α → Json}
    {a : α} {r r' : EdgeCDR} (h : r.assign (key, value a) = some r') (hzero : a = zero → r' = r) :
    Decodes r (omitEmpty key zero value a) r' := by
  unfold omitEmpty
  split
  · rename_i hempty
    rw [hzero hempty]
    rfl
  · exact decodes_singleton h

/-- A string member of a field that was empty before. -/
theorem decodes_string {key : String} {r : EdgeCDR} (set : Bytes → EdgeCDR)
    (hassign : ∀ v, r.assign (key, v) = intoString r set v) (hset : set [] = r) (s : Bytes) :
    Decodes r (omitEmpty key [] ofString s) (set (Utf8.coerce s)) := by
  refine decodes_omitEmpty ?_ fun hempty => ?_
  · rw [hassign, intoString_ofString]
  · rw [hempty, Utf8.coerce_nil, hset]

/-- A number of a field that was 0 before. -/
theorem decodes_int {key : String} {r : EdgeCDR} (set : Int64 → EdgeCDR)
    (hassign : ∀ v, r.assign (key, v) = intoInt r set v) (hset : set 0 = r) (n : Int64) :
    Decodes r (omitEmpty key 0 ofInt n) (set n) := by
  refine decodes_omitEmpty ?_ fun hempty => ?_
  · rw [hassign, intoInt_ofInt]
  · rw [hempty, hset]

/-- A member with a name that no field has. -/
theorem decodes_unknown {α : Type} [DecidableEq α] {key : String} (hkey : fieldOf key = none)
    (zero : α) (value : α → Json) (a : α) (r : EdgeCDR) :
    Decodes r (omitEmpty key zero value a) r := by
  refine decodes_omitEmpty ?_ fun _ => rfl
  rw [EdgeCDR.assign, hkey]

/-! ## Rows -/

/-- What arrives of a row. -/
def CDRRow.received (row : CDRRow) : EdgeCDR where
  raw := Utf8.coerce row.raw
  destination := Utf8.coerce row.destination
  duration := row.duration
  billsec := row.billsec
  uuid := Utf8.coerce row.uuid

/-- The agent's encoding is decoded without an error, to what arrives of the row. -/
theorem ofJson_toJson (row : CDRRow) : EdgeCDR.ofJson row.toJson = some row.received := by
  -- the five names with an underscore on one side only
  have hnames : ∀ key ∈ ["callerIdName", "callerIdNumber", "startStamp", "endStamp", "hangupCause"],
      fieldOf key = none := by decide
  have hunknown : ∀ key ∈ ["callerIdName", "callerIdNumber", "startStamp", "endStamp", "hangupCause"],
      ∀ (s : Bytes) (r : EdgeCDR), Decodes r (omitEmpty key [] ofString s) r := fun key hkey s r =>
    decodes_unknown (hnames key hkey) [] ofString s r
  -- the others, each with what the ones before it have left to come
  have hraw : Decodes {} [("raw", ofString row.raw)] { raw := Utf8.coerce row.raw } :=
    decodes_singleton rfl
  have hdestination := @decodes_string "destination" { raw := Utf8.coerce row.raw }
    (fun v => { row.received with destination := v, duration := 0, billsec := 0, uuid := [] })
    (fun _ => rfl) rfl row.destination
  have hduration := @decodes_int "duration"
    { row.received with duration := 0, billsec := 0, uuid := [] }
    (fun v => { row.received with duration := v, billsec := 0, uuid := [] })
    (fun _ => rfl) rfl row.duration
  have hbillsec := @decodes_int "billsec" { row.received with billsec := 0, uuid := [] }
    (fun v => { row.received with billsec := v, uuid := [] })
    (fun _ => rfl) rfl row.billsec
  have huuid := @decodes_string "uuid" { row.received with uuid := [] }
    (fun v => { row.received with uuid := v })
    (fun _ => rfl) rfl row.uuid
  exact hraw.append (hunknown "callerIdName" (by decide) _ _)
    |>.append (hunknown "callerIdNumber" (by decide) _ _)
    |>.append hdestination
    |>.append (hunknown "startStamp" (by decide) _ _)
    |>.append (hunknown "endStamp" (by decide) _ _)
    |>.append hduration
    |>.append hbillsec
    |>.append (hunknown "hangupCause" (by decide) _ _)
    |>.append huuid

theorem agrees_received_iff (row : CDRRow) : row.received.Agrees row ↔ row.WireSafe := by
  constructor
  · intro h
    exact ⟨h.callerIDName.symm, h.callerIDNumber.symm, h.startStamp.symm, h.endStamp.symm,
      h.hangupCause.symm, (Utf8.coerce_eq_self_iff _).mp h.raw,
      (Utf8.coerce_eq_self_iff _).mp h.destination, (Utf8.coerce_eq_self_iff _).mp h.uuid⟩
  · intro h
    exact ⟨(Utf8.coerce_eq_self_iff _).mpr h.raw, h.callerIDName.symm, h.callerIDNumber.symm,
      (Utf8.coerce_eq_self_iff _).mpr h.destination, h.startStamp.symm, h.endStamp.symm, rfl, rfl,
      h.hangupCause.symm, (Utf8.coerce_eq_self_iff _).mpr h.uuid⟩

/-- The server binds a record with the row's values exactly when the row has nothing in the five
    fields of another name and its other strings are text. -/
theorem roundTrip_iff_wireSafe (row : CDRRow) :
    (∃ r, EdgeCDR.ofJson row.toJson = some r ∧ r.Agrees row) ↔ row.WireSafe := by
  rw [ofJson_toJson, ← agrees_received_iff]
  exact ⟨fun ⟨r, hr, hagrees⟩ => Option.some.inj hr ▸ hagrees, fun h => ⟨_, rfl, h⟩⟩

/-- The row of the line `A,1`. -/
def callerRow : CDRRow where
  raw := [65, 44, 49]
  callerIDName := [65]
  callerIDNumber := [49]

/-- The name and the number do not arrive. -/
theorem not_roundTrip_callerRow :
    ¬ ∃ r, EdgeCDR.ofJson callerRow.toJson = some r ∧ r.Agrees callerRow := by
  rintro ⟨r, hr, hagrees⟩
  rw [ofJson_toJson] at hr
  rw [← Option.some.inj hr] at hagrees
  exact absurd hagrees.callerIDName (by decide)

/-! ## Posts -/

theorem ingestCDR_postCDR (rows : List CDRRow) :
    ingestCDR (postCDR rows) = some (rows.map CDRRow.received) := by
  have hrows : (rows.map CDRRow.toJson).mapM EdgeCDR.ofJson = some (rows.map CDRRow.received) := by
    induction rows with
    | nil => rfl
    | cons row rows ih =>
      rw [List.map_cons, List.mapM_cons, ofJson_toJson, ih]
      rfl
  rw [postCDR, ingestCDR, List.foldlM_cons, if_pos rfl]
  simp only [hrows]
  rfl

/-- The same of all rows that are posted together. -/
theorem agrees_ingested_iff (rows : List CDRRow) :
    (∃ rs, ingestCDR (postCDR rows) = some rs ∧ List.Forall₂ EdgeCDR.Agrees rs rows) ↔
      ∀ row ∈ rows, row.WireSafe := by
  have hall : List.Forall₂ EdgeCDR.Agrees (rows.map CDRRow.received) rows ↔
      ∀ row ∈ rows, row.WireSafe := by
    rw [List.forall₂_map_left_iff, List.forall₂_same]
    exact forall₂_congr fun row _ => agrees_received_iff row
  rw [ingestCDR_postCDR, ← hall]
  exact ⟨fun ⟨rs, hrs, hagrees⟩ => Option.some.inj hrs ▸ hagrees, fun h => ⟨_, rfl, h⟩⟩

end CallNet.Edge
