import CallNet.Engine.CallMetrics
import CallNet.ForStd.Peaks
import Mathlib.Data.List.Dedup

/-!
# The live metrics agree with the trace

What the trace of upserts, sweeps and snapshots says about the calls is stated here without the
service: a call is followed through the trace by itself (`legAfter`), and the peaks are maxima
over the prefixes of the trace and over its outbound starts.  `Agrees` is the invariant that
ties the counters of `CallMetricsService` to them; every event keeps it while the clock does
not go back.
-/

namespace CallNet

namespace MetricsTrace

/-- What an event does to what is known of one call.  A record without an id is no call. -/
def legStep (id : String) (leg : Option ActiveLeg) : MetricsEvent → Option ActiveLeg
  | .upsert call clock =>
    if id = "" ∨ call.id ≠ id then leg
    else if call.status ∈ activeStatuses then
      some { direction := call.direction
             startedAt := (leg.map ActiveLeg.startedAt).getD clock.started }
    else none
  | .sweep now => leg.filter fun leg => !decide (leg.startedAt < now - staleMs)
  | .snapshot _ => leg

/-- The leg of a call after a trace, if the call is in progress then. -/
def legAfter (id : String) (tr : List MetricsEvent) : Option ActiveLeg :=
  tr.foldl (legStep id) none

/-- The last upsert of the call is ringing or answered, and no sweep since has found the call
    stale: `leg` has the direction of that upsert, and the call has been in progress since
    `leg.startedAt`. -/
def InProgress (tr : List MetricsEvent) (id : String) (leg : ActiveLeg) : Prop :=
  id ≠ "" ∧ ∃ pre call clock post,
    tr = pre ++ .upsert call clock :: post ∧ call.id = id ∧
    (call.status = .ringing ∨ call.status = .answered) ∧
    leg.direction = call.direction ∧
    leg.startedAt = ((legAfter id pre).map ActiveLeg.startedAt).getD clock.started ∧
    (∀ call' clock', .upsert call' clock' ∈ post → call'.id ≠ id) ∧
    ∀ now, .sweep now ∈ post → ¬ leg.startedAt + staleMs < now

/-- The ids of the calls of a trace. -/
def callIds (tr : List MetricsEvent) : List String :=
  tr.filterMap fun
    | .upsert call _ => some call.id
    | _ => none

/-- The number of calls in progress after a trace. -/
def activeCount (tr : List MetricsEvent) : Nat :=
  (callIds tr).dedup.countP fun id => (legAfter id tr).isSome

/-- The number of inbound calls in progress after a trace. -/
def activeInboundCount (tr : List MetricsEvent) : Nat :=
  (callIds tr).dedup.countP fun id => (legAfter id tr).any (·.direction = .inbound)

/-- The outbound start that an event is after the trace `pre`: an active outbound upsert of a
    call that was not active and outbound just before. -/
def startAt (pre : List MetricsEvent) : MetricsEvent → List Nat
  | .upsert call clock =>
    if call.id ≠ "" ∧ call.status ∈ activeStatuses ∧ call.direction = .outbound ∧
        (legAfter call.id pre).map ActiveLeg.direction ≠ some .outbound
    then [clock.outbound] else []
  | _ => []

def startsFrom (pre : List MetricsEvent) : List MetricsEvent → List Nat
  | [] => []
  | e :: es => startAt pre e ++ startsFrom (pre ++ [e]) es

/-- The times of the outbound starts of a trace. -/
def outboundStarts (tr : List MetricsEvent) : List Nat := startsFrom [] tr

/-- The readings of the clock during an event, in their order. -/
def readings : MetricsEvent → List Nat
  | .upsert _ clock => [clock.started, clock.outbound, clock.snapshot.trim, clock.snapshot.updated]
  | .sweep now => [now]
  | .snapshot clock => [clock.trim, clock.updated]

/-- The clock never goes back. -/
def Nondecreasing (tr : List MetricsEvent) : Prop := (tr.flatMap readings).Pairwise (· ≤ ·)

instance (tr : List MetricsEvent) : Decidable (Nondecreasing tr) :=
  inferInstanceAs (Decidable ((tr.flatMap readings).Pairwise (· ≤ ·)))

/-! ## A call followed through the trace -/

@[simp] theorem legAfter_concat (id : String) (tr : List MetricsEvent) (e : MetricsEvent) :
    legAfter id (tr ++ [e]) = legStep id (legAfter id tr) e := by
  simp [legAfter]

theorem legAfter_noId (tr : List MetricsEvent) : legAfter "" tr = none := by
  induction tr using List.reverseRecOn with
  | nil => rfl
  | append_singleton tr e ih =>
    rw [legAfter_concat, ih]
    cases e <;> simp [legStep]

/-- Where an element of `l ++ [b]` stands: at the end or inside `l`. -/
private theorem concat_eq_append_cons {α : Type} {l pre post : List α} {a b : α}
    (h : l ++ [b] = pre ++ a :: post) :
    (post = [] ∧ pre = l ∧ a = b) ∨ ∃ post', post = post' ++ [b] ∧ l = pre ++ a :: post' := by
  rcases List.eq_nil_or_concat post with rfl | ⟨post', c, rfl⟩
  · obtain ⟨rfl, hab⟩ := List.append_inj' h rfl
    exact .inl ⟨rfl, rfl, (List.singleton_inj.mp hab).symm⟩
  · have h' : l ++ [b] = (pre ++ a :: post') ++ [c] := by simpa using h
    obtain ⟨hl, hbc⟩ := List.append_inj' h' rfl
    cases List.singleton_inj.mp hbc
    exact .inr ⟨post', by simp, hl⟩

theorem mem_activeStatuses {s : CallStatus} :
    s ∈ activeStatuses ↔ s = .ringing ∨ s = .answered := by
  simp [activeStatuses]

/-- An upsert of the call itself decides by itself whether the call is in progress. -/
theorem inProgress_upsert {tr : List MetricsEvent} {call : CallLog} {clock : OnCallClock}
    {leg : ActiveLeg} (hid : call.id ≠ "") :
    InProgress (tr ++ [.upsert call clock]) call.id leg ↔
      legStep call.id (legAfter call.id tr) (.upsert call clock) = some leg := by
  constructor
  · rintro ⟨-, pre, call', clock', post, heq, hcall, hstatus, hdir, hsince, hlast, -⟩
    rcases concat_eq_append_cons heq with ⟨-, rfl, he⟩ | ⟨post', rfl, -⟩
    · cases he
      obtain ⟨d, t⟩ := leg
      simp only at hdir hsince
      rw [legStep, if_neg (by simpa using hid), if_pos (mem_activeStatuses.mpr hstatus),
        hdir, hsince]
    · -- the upsert at the end is a later one of the same call
      exact absurd rfl (hlast call clock (by simp))
  · intro h
    rw [legStep, if_neg (by simpa using hid)] at h
    split at h
    · rename_i hstatus
      cases h
      exact ⟨hid, tr, call, clock, [], rfl, rfl, mem_activeStatuses.mp hstatus, rfl, rfl,
        by simp, by simp⟩
    · cases h

/-- Any other event leaves the last upsert of the call where it is. -/
theorem inProgress_other {tr : List MetricsEvent} {e : MetricsEvent} {id : String}
    {leg : ActiveLeg} (he : ∀ call clock, e = .upsert call clock → call.id ≠ id) :
    InProgress (tr ++ [e]) id leg ↔
      InProgress tr id leg ∧ ∀ now, e = .sweep now → ¬ leg.startedAt + staleMs < now := by
  constructor
  · rintro ⟨hid, pre, call, clock, post, heq, hcall, hstatus, hdir, hsince, hlast, hsweep⟩
    rcases concat_eq_append_cons heq with ⟨-, -, hee⟩ | ⟨post', rfl, rfl⟩
    · exact absurd hcall (he call clock hee.symm)
    · refine ⟨⟨hid, pre, call, clock, post', rfl, hcall, hstatus, hdir, hsince, ?_, ?_⟩, ?_⟩
      · exact fun c k hm => hlast c k (List.mem_append_left _ hm)
      · exact fun now hm => hsweep now (List.mem_append_left _ hm)
      · rintro now rfl
        exact hsweep now (by simp)
  · rintro ⟨⟨hid, pre, call, clock, post, rfl, hcall, hstatus, hdir, hsince, hlast, hsweep⟩, hnow⟩
    refine ⟨hid, pre, call, clock, post ++ [e], by simp, hcall, hstatus, hdir, hsince, ?_, ?_⟩
    · intro c k hm
      rcases List.mem_append.mp hm with hm | hm
      · exact hlast c k hm
      · exact he c k (List.mem_singleton.mp hm).symm
    · intro now hm
      rcases List.mem_append.mp hm with hm | hm
      · exact hsweep now hm
      · exact hnow now (List.mem_singleton.mp hm).symm

theorem not_inProgress_noId {tr : List MetricsEvent} {leg : ActiveLeg} :
    ¬ InProgress tr "" leg := fun h => h.1 rfl

/-- Following a call through the trace finds its last upsert and the sweeps since. -/
theorem legAfter_eq_some_iff (tr : List MetricsEvent) (id : String) (leg : ActiveLeg) :
    legAfter id tr = some leg ↔ InProgress tr id leg := by
  by_cases hid : id = ""
  · subst hid
    simp [legAfter_noId, not_inProgress_noId]
  induction tr using List.reverseRecOn generalizing leg with
  | nil =>
    refine ⟨nofun, ?_⟩
    rintro ⟨-, pre, call, clock, post, heq, -⟩
    simp at heq
  | append_singleton tr e ih =>
    rw [legAfter_concat]
    match e with
    | .upsert call clock =>
      by_cases hcall : call.id = id
      · subst hcall
        exact (inProgress_upsert hid).symm
      · rw [inProgress_other (by rintro c k ⟨⟩; exact hcall), ← ih]
        simp [legStep, hcall]
    | .sweep now =>
      rw [inProgress_other (by simp), ← ih]
      simp only [legStep, Option.filter_eq_some_iff, MetricsEvent.sweep.injEq, forall_eq',
        Bool.not_eq_eq_eq_not, Bool.not_true, decide_eq_false_iff_not]
      -- the cutoff before the epoch is no cutoff
      have hcut : leg.startedAt < now - staleMs ↔ leg.startedAt + staleMs < now := by omega
      rw [hcut]
    | .snapshot clock =>
      rw [inProgress_other (by simp), ← ih]
      simp [legStep]

/-! ## Counts over the trace -/

theorem mem_callIds_of_legAfter {tr : List MetricsEvent} {id : String} {leg : ActiveLeg}
    (h : legAfter id tr = some leg) : id ∈ callIds tr := by
  obtain ⟨-, pre, call, clock, post, rfl, rfl, -⟩ := (legAfter_eq_some_iff ..).mp h
  exact List.mem_filterMap.mpr ⟨.upsert call clock, by simp, rfl⟩

/-- A map that holds the legs of the trace counts what the trace counts. -/
theorem countP_values_eq {tr : List MetricsEvent} {m : OrdMap String ActiveLeg}
    (hm : ∀ id, m.get? id = legAfter id tr) (p : ActiveLeg → Bool) :
    m.values.countP p = (callIds tr).dedup.countP fun id => (legAfter id tr).any p := by
  rw [List.countP_eq_length_filter (l := (callIds tr).dedup)]
  refine OrdMap.countP_values_eq_length ((List.nodup_dedup _).filter _) fun id => ?_
  simp only [List.mem_filter, List.mem_dedup, Option.any_eq_true, hm]
  exact ⟨And.right, fun h => ⟨h.elim fun _ hv => mem_callIds_of_legAfter hv.1, h⟩⟩

theorem size_eq_activeCount {tr : List MetricsEvent} {s : CallMetricsService}
    (hm : ∀ id, s.active.get? id = legAfter id tr) : s.active.size = activeCount tr := by
  have hall := countP_values_eq hm fun _ => true
  simp only [List.countP_true, OrdMap.values, List.length_map] at hall
  refine hall.trans (List.countP_congr fun id _ => ?_)
  cases legAfter id tr <;> simp

theorem inDirection_inbound_eq {tr : List MetricsEvent} {s : CallMetricsService}
    (hm : ∀ id, s.active.get? id = legAfter id tr) :
    s.inDirection .inbound = activeInboundCount tr :=
  countP_values_eq hm _

/-! ## Outbound starts -/

theorem startsFrom_concat (pre es : List MetricsEvent) (e : MetricsEvent) :
    startsFrom pre (es ++ [e]) = startsFrom pre es ++ startAt (pre ++ es) e := by
  induction es generalizing pre with
  | nil => simp [startsFrom]
  | cons e' es ih => simp [startsFrom, ih]

@[simp] theorem outboundStarts_concat (tr : List MetricsEvent) (e : MetricsEvent) :
    outboundStarts (tr ++ [e]) = outboundStarts tr ++ startAt tr e := by
  simp [outboundStarts, startsFrom_concat]

theorem startAt_sublist (pre : List MetricsEvent) (e : MetricsEvent) :
    (startAt pre e).Sublist (readings e) := by
  cases e with
  | upsert call clock =>
    simp only [startAt, readings]
    split
    · exact List.singleton_sublist.mpr (by simp)
    · exact List.nil_sublist _
  | _ => exact List.nil_sublist _

theorem outboundStarts_sublist (tr : List MetricsEvent) :
    (outboundStarts tr).Sublist (tr.flatMap readings) := by
  induction tr using List.reverseRecOn with
  | nil => exact List.nil_sublist _
  | append_singleton tr e ih =>
    rw [outboundStarts_concat, List.flatMap_append]
    exact ih.append (by simpa using startAt_sublist tr e)

theorem outboundStarts_sorted {tr : List MetricsEvent} (h : Nondecreasing tr) :
    (outboundStarts tr).Pairwise (· ≤ ·) :=
  List.Pairwise.sublist (outboundStarts_sublist tr) h

/-! ## What an upsert does to the service -/

open CallMetricsService

variable {s : CallMetricsService} {call : CallLog} {clock : OnCallClock}

theorem onCall_get? (id : String) : (s.onCall call clock).active.get? id =
    if call.id = "" then s.active.get? id
    else legStep id (s.active.get? id) (.upsert call clock) := by
  by_cases hid : call.id = ""
  · rw [onCall, if_pos hid, if_pos hid]
  rw [onCall, if_neg hid, if_neg hid]
  -- the legs are those before the peaks, the window and the snapshot are dealt with
  have hlegs : ∀ t : CallMetricsService,
      (t.recomputePeaks.getSnapshot clock.snapshot).1.active = t.active := fun t => by
    simp [getSnapshot]
  simp only [hlegs, legStep]
  split
  · have hset : ∀ (p : Prop) [Decidable p] (t : CallMetricsService),
        (if p then t.recordOutboundStart clock.outbound else t).active = t.active :=
      fun p _ t => by split <;> simp
    rw [hset, OrdMap.get?_set]
    by_cases heq : id = call.id
    · subst heq
      simp [hid]
    · simp [heq, Ne.symm heq]
  · rw [OrdMap.get?_delete]
    by_cases heq : id = call.id
    · subst heq
      simp [hid]
    · simp [heq, Ne.symm heq]

theorem onCall_maxConcurrent (hid : call.id ≠ "") : (s.onCall call clock).maxConcurrent =
    max s.maxConcurrent (s.onCall call clock).active.size := by
  simp only [onCall, if_neg hid, getSnapshot, trimCps_maxConcurrent, trimCps_active,
    recomputePeaks_maxConcurrent, recomputePeaks_active]
  split
  · split <;> simp
  · rfl

theorem onCall_peakInboundConcurrent (hid : call.id ≠ "") :
    (s.onCall call clock).peakInboundConcurrent =
      max s.peakInboundConcurrent ((s.onCall call clock).inDirection .inbound) := by
  simp only [onCall, if_neg hid, getSnapshot, trimCps_peakInboundConcurrent, inDirection,
    trimCps_active, recomputePeaks_peakInboundConcurrent, recomputePeaks_active]
  split
  · split <;> simp
  · rfl

/-- The window and its peak change only at an outbound start, apart from the trim that the
    snapshot makes. -/
theorem onCall_window {tr : List MetricsEvent} (clock : OnCallClock) (hid : call.id ≠ "")
    (hlegs : s.active.get? call.id = legAfter call.id tr) :
    ∃ t : CallMetricsService,
      (s.onCall call clock).outboundStarts = (t.trimCps clock.snapshot.trim).outboundStarts ∧
      (s.onCall call clock).outboundPeakCps = t.outboundPeakCps ∧
      ((startAt tr (.upsert call clock) = [] ∧ t.outboundStarts = s.outboundStarts ∧
          t.outboundPeakCps = s.outboundPeakCps) ∨
        (startAt tr (.upsert call clock) = [clock.outbound] ∧
          t.outboundStarts = (s.recordOutboundStart clock.outbound).outboundStarts ∧
          t.outboundPeakCps = (s.recordOutboundStart clock.outbound).outboundPeakCps)) := by
  simp only [onCall, if_neg hid, getSnapshot, trimCps_outboundPeakCps, startAt, ← hlegs]
  refine ⟨_, rfl, rfl, ?_⟩
  by_cases hactive : call.status ∈ activeStatuses
  · by_cases hstart : call.direction = .outbound ∧
        (s.active.get? call.id).map ActiveLeg.direction ≠ some .outbound
    · refine .inr ⟨if_pos ⟨hid, hactive, hstart⟩, ?_⟩
      simp only [if_pos hactive, if_pos hstart, recomputePeaks_outboundStarts,
        recomputePeaks_outboundPeakCps]
      exact ⟨by simp, by simp⟩
    · refine .inl ⟨if_neg fun h => hstart h.2.2, ?_⟩
      simp only [if_pos hactive, if_neg hstart, recomputePeaks_outboundStarts,
        recomputePeaks_outboundPeakCps, and_self]
  · refine .inl ⟨if_neg fun h => hactive h.2.1, ?_⟩
    simp only [if_neg hactive, recomputePeaks_outboundStarts, recomputePeaks_outboundPeakCps,
      and_self]

/-! ## The invariant -/

/-- The times kept are the outbound starts from some bound on, which no later window reaches
    below. -/
def Kept (tr : List MetricsEvent) (kept : List Nat) : Prop :=
  ∃ c, kept = (outboundStarts tr).filter (c ≤ ·) ∧
    ∀ now, (∀ t ∈ tr.flatMap readings, t ≤ now) → c ≤ now - cpsWindowMs

/-- The service holds what the trace says. -/
structure Agrees (tr : List MetricsEvent) (s : CallMetricsService) : Prop where
  legs : ∀ id, s.active.get? id = legAfter id tr
  concurrent : s.maxConcurrent = List.peak activeCount tr
  inbound : s.peakInboundConcurrent = List.peak activeInboundCount tr
  kept : Kept tr s.outboundStarts
  burst : s.outboundPeakCps = List.burst cpsWindowMs (outboundStarts tr)

theorem agrees_init (since : Nat) : Agrees [] (init since) where
  legs _ := rfl
  concurrent := rfl
  inbound := rfl
  kept := ⟨0, rfl, fun _ _ => Nat.zero_le _⟩
  burst := rfl

/-- Dropping what is older than the window keeps the starts from its lower end on. -/
theorem dropWhile_kept {L : List Nat} {c now : Nat} (hL : L.Pairwise (· ≤ ·))
    (hc : c ≤ now - cpsWindowMs) :
    (L.filter (c ≤ ·)).dropWhile (· < now - cpsWindowMs) =
      L.filter (now - cpsWindowMs ≤ ·) := by
  rw [List.dropWhile_lt_eq_filter (hL.filter _), List.filter_filter]
  refine List.filter_congr fun x _ => ?_
  rw [Bool.and_eq_left_iff_imp]
  simp only [decide_eq_true_eq]
  exact hc.trans

/-- What an event keeps of the starts when its last trim is at `now`. -/
theorem kept_trim {tr : List MetricsEvent} {c now : Nat} (htr : Nondecreasing tr)
    (hc : c ≤ now - cpsWindowMs) (hnow : now ∈ tr.flatMap readings) :
    Kept tr (((outboundStarts tr).filter (c ≤ ·)).dropWhile (· < now - cpsWindowMs)) :=
  ⟨now - cpsWindowMs, dropWhile_kept (outboundStarts_sorted htr) hc,
    fun _ hlater => Nat.sub_le_sub_right (hlater now hnow) _⟩

/-- The peak of a count, when the count after the next event is `n`. -/
theorem peak_concat_eq {f : List MetricsEvent → Nat} {tr : List MetricsEvent} {e : MetricsEvent}
    {n old : Nat} (hold : old = List.peak f tr) (hn : n = f (tr ++ [e])) :
    max old n = List.peak f (tr ++ [e]) := by
  rw [List.peak_concat, hold, hn]

/-- An event after which the count is not above the peak leaves the peak. -/
theorem peak_concat_of_le {f : List MetricsEvent → Nat} {tr : List MetricsEvent}
    {e : MetricsEvent} {n old : Nat} (hold : old = List.peak f tr) (hn : n = f (tr ++ [e]))
    (hle : n ≤ old) : old = List.peak f (tr ++ [e]) := by
  rw [← peak_concat_eq hold hn, max_eq_left hle]

/-- What holds of the clock's readings when one more event comes. -/
theorem Nondecreasing.concat {tr : List MetricsEvent} {e : MetricsEvent}
    (h : Nondecreasing (tr ++ [e])) :
    Nondecreasing tr ∧ (readings e).Pairwise (· ≤ ·) ∧
      ∀ t ∈ tr.flatMap readings, ∀ t' ∈ readings e, t ≤ t' := by
  unfold Nondecreasing at h
  rw [List.flatMap_append, List.pairwise_append] at h
  simpa [Nondecreasing] using h

/-- The peaks cover the present. -/
theorem Agrees.size_le {tr : List MetricsEvent} (h : Agrees tr s) :
    s.active.size ≤ s.maxConcurrent := by
  rw [size_eq_activeCount h.legs, h.concurrent]
  exact List.le_peak _ _

theorem Agrees.inDirection_le {tr : List MetricsEvent} (h : Agrees tr s) :
    s.inDirection .inbound ≤ s.peakInboundConcurrent := by
  rw [inDirection_inbound_eq h.legs, h.inbound]
  exact List.le_peak _ _

/-- An event that starts nothing needs no trim. -/
theorem Kept.concat {tr : List MetricsEvent} {e : MetricsEvent} {kept : List Nat}
    (h : Kept tr kept) (hstarts : outboundStarts (tr ++ [e]) = outboundStarts tr) :
    Kept (tr ++ [e]) kept := by
  obtain ⟨c, hkept, hc⟩ := h
  exact ⟨c, hstarts ▸ hkept, fun now hnow => hc now fun t ht =>
    hnow t (by rw [List.flatMap_append]; exact List.mem_append_left _ ht)⟩

theorem agrees_upsert_noId {tr : List MetricsEvent} (h : Agrees tr s) (hid : call.id = "") :
    Agrees (tr ++ [.upsert call clock]) (s.onCall call clock) := by
  have hsame : s.onCall call clock = s := by rw [onCall, if_pos hid]
  have hlegs : ∀ id, s.active.get? id = legAfter id (tr ++ [.upsert call clock]) := by
    intro id
    rw [legAfter_concat, h.legs id]
    by_cases hne : id = ""
    · simp [legStep, hne]
    · simp [legStep, hid, Ne.symm hne]
  have hstarts : outboundStarts (tr ++ [.upsert call clock]) = outboundStarts tr := by
    simp [startAt, hid]
  rw [hsame]
  refine ⟨hlegs, ?_, ?_, ?_, by rw [hstarts, h.burst]⟩
  · exact peak_concat_of_le h.concurrent (size_eq_activeCount hlegs) h.size_le
  · exact peak_concat_of_le h.inbound (inDirection_inbound_eq hlegs) h.inDirection_le
  · exact h.kept.concat hstarts

theorem agrees_upsert {tr : List MetricsEvent} (h : Agrees tr s)
    (hclock : Nondecreasing (tr ++ [.upsert call clock])) :
    Agrees (tr ++ [.upsert call clock]) (s.onCall call clock) := by
  by_cases hid : call.id = ""
  · exact agrees_upsert_noId h hid
  have hlegs : ∀ id, (s.onCall call clock).active.get? id =
      legAfter id (tr ++ [.upsert call clock]) := fun id => by
    rw [onCall_get?, if_neg hid, legAfter_concat, h.legs id]
  obtain ⟨htr, hwithin, hbefore⟩ := hclock.concat
  have hstarted : ∀ t ∈ outboundStarts tr, t ≤ clock.outbound := fun t ht =>
    hbefore t ((outboundStarts_sublist tr).subset ht) _ (by simp [readings])
  have htrim : clock.outbound ≤ clock.snapshot.trim := by
    simp only [readings, List.pairwise_cons] at hwithin
    exact hwithin.2.1 _ (by simp)
  obtain ⟨c, hkept, hc⟩ := h.kept
  have hcOut : c ≤ clock.outbound - cpsWindowMs :=
    hc _ fun t ht => hbefore t ht _ (by simp [readings])
  have hnow : clock.snapshot.trim ∈
      (tr ++ [MetricsEvent.upsert call clock]).flatMap readings := by
    simp [readings]
  -- at an outbound start the window that ends there is what is kept
  have hrecord : startAt tr (.upsert call clock) = [clock.outbound] →
      (s.recordOutboundStart clock.outbound).outboundStarts =
        (outboundStarts (tr ++ [.upsert call clock])).filter
          (clock.outbound - cpsWindowMs ≤ ·) := by
    intro hone
    have hsorted := outboundStarts_sorted hclock
    rw [outboundStarts_concat, hone] at hsorted ⊢
    have hown : [clock.outbound].filter (c ≤ ·) = [clock.outbound] :=
      List.filter_eq_self.mpr fun x hx => by
        rw [List.mem_singleton.mp hx]
        exact decide_eq_true (hcOut.trans (Nat.sub_le ..))
    rw [recordOutboundStart_outboundStarts, hkept, ← hown, ← List.filter_append, hown]
    exact dropWhile_kept hsorted hcOut
  obtain ⟨t, hstarts, hpeak, hcases⟩ := onCall_window clock hid (h.legs call.id)
  refine ⟨hlegs, ?_, ?_, ?_, ?_⟩
  · rw [onCall_maxConcurrent hid, peak_concat_eq h.concurrent (size_eq_activeCount hlegs)]
  · rw [onCall_peakInboundConcurrent hid,
      peak_concat_eq h.inbound (inDirection_inbound_eq hlegs)]
  · rw [hstarts]
    rcases hcases with ⟨hnone, ht, -⟩ | ⟨hone, ht, -⟩
    · have hL : outboundStarts (tr ++ [.upsert call clock]) = outboundStarts tr := by
        rw [outboundStarts_concat, hnone, List.append_nil]
      rw [trimCps, ht, hkept, ← hL]
      exact kept_trim hclock (hcOut.trans (Nat.sub_le_sub_right htrim _)) hnow
    · rw [trimCps, ht, hrecord hone]
      exact kept_trim hclock (Nat.sub_le_sub_right htrim _) hnow
  · rw [hpeak]
    rcases hcases with ⟨hnone, -, ht⟩ | ⟨hone, -, ht⟩
    · rw [ht, h.burst, outboundStarts_concat, hnone, List.append_nil]
    · have hlast : ∀ x ∈ outboundStarts (tr ++ [.upsert call clock]), x ≤ clock.outbound := by
        intro x hx
        rw [outboundStarts_concat, hone] at hx
        rcases List.mem_append.mp hx with hx | hx
        · exact hstarted x hx
        · exact (List.mem_singleton.mp hx).le
      rw [ht, recordOutboundStart_outboundPeakCps, hrecord hone,
        List.length_filter_eq_countWithin hlast rfl, h.burst, outboundStarts_concat, hone,
        List.burst_concat hstarted]

/-! ## Sweeps and snapshots -/

/-- Sweeping only takes legs away, so it raises no peak. -/
theorem sweepStale_spec (now : Nat) (hsize : s.active.size ≤ s.maxConcurrent)
    (hinbound : s.inDirection .inbound ≤ s.peakInboundConcurrent) :
    s.sweepStale now =
      { s with
        active := s.active.filter fun _ leg => !decide (leg.startedAt < now - staleMs) } := by
  have hsub : (s.active.filter fun _ leg =>
      !decide (leg.startedAt < now - staleMs)).values.Sublist s.active.values :=
    List.filter_sublist.map _
  simp only [sweepStale]
  split
  · rw [recomputePeaks_eq]
    simp only [CallMetricsService.mk.injEq, true_and, and_true]
    constructor
    · refine max_eq_left (le_trans ?_ hsize)
      simpa [OrdMap.size, OrdMap.values] using hsub.length_le
    · exact max_eq_left ((hsub.countP_le).trans hinbound)
  · rfl

theorem agrees_sweep {tr : List MetricsEvent} (h : Agrees tr s) (now : Nat) :
    Agrees (tr ++ [.sweep now]) (s.sweepStale now) := by
  have hspec := sweepStale_spec now h.size_le h.inDirection_le
  have hlegs : ∀ id, (s.sweepStale now).active.get? id =
      legAfter id (tr ++ [.sweep now]) := fun id => by
    rw [hspec, legAfter_concat, OrdMap.get?_filter, h.legs id, legStep]
  have hstarts : outboundStarts (tr ++ [.sweep now]) = outboundStarts tr := by
    simp [startAt]
  have hfewer : (s.sweepStale now).active.values.Sublist s.active.values := by
    rw [hspec]
    exact List.filter_sublist.map _
  refine ⟨hlegs, ?_, ?_, ?_, ?_⟩
  · have hmax : (s.sweepStale now).maxConcurrent = s.maxConcurrent := by rw [hspec]
    rw [hmax]
    refine peak_concat_of_le h.concurrent (size_eq_activeCount hlegs) (le_trans ?_ h.size_le)
    simpa [OrdMap.size, OrdMap.values] using hfewer.length_le
  · have hmax : (s.sweepStale now).peakInboundConcurrent = s.peakInboundConcurrent := by
      rw [hspec]
    rw [hmax]
    exact peak_concat_of_le h.inbound (inDirection_inbound_eq hlegs)
      (hfewer.countP_le.trans h.inDirection_le)
  · have hkept : (s.sweepStale now).outboundStarts = s.outboundStarts := by rw [hspec]
    exact hkept ▸ h.kept.concat hstarts
  · rw [hspec, hstarts]
    exact h.burst

/-- A snapshot trims the window and changes nothing else. -/
theorem agrees_snapshot {tr : List MetricsEvent} {clock : SnapshotClock} (h : Agrees tr s)
    (hclock : Nondecreasing (tr ++ [.snapshot clock])) :
    Agrees (tr ++ [.snapshot clock]) (s.getSnapshot clock).1 := by
  have hlegs : ∀ id, (s.getSnapshot clock).1.active.get? id =
      legAfter id (tr ++ [.snapshot clock]) := fun id => by
    rw [legAfter_concat, legStep, ← h.legs id, getSnapshot, trimCps_active]
  have hstarts : outboundStarts (tr ++ [.snapshot clock]) = outboundStarts tr := by
    simp [startAt]
  obtain ⟨-, -, hbefore⟩ := hclock.concat
  obtain ⟨c, hkept, hc⟩ := h.kept
  refine ⟨hlegs, ?_, ?_, ?_, ?_⟩
  · exact peak_concat_of_le h.concurrent (size_eq_activeCount hlegs) h.size_le
  · exact peak_concat_of_le h.inbound (inDirection_inbound_eq hlegs) h.inDirection_le
  · have hcTrim : c ≤ clock.trim - cpsWindowMs :=
      hc _ fun t ht => hbefore t ht _ (by simp [readings])
    rw [getSnapshot, trimCps, hkept, ← hstarts]
    exact kept_trim hclock hcTrim (by simp [readings])
  · rw [hstarts]
    exact h.burst

/-! ## Every run -/

theorem agrees_step {tr : List MetricsEvent} {e : MetricsEvent} (h : Agrees tr s)
    (hclock : Nondecreasing (tr ++ [e])) : Agrees (tr ++ [e]) (s.step e) := by
  cases e with
  | upsert call clock => exact agrees_upsert h hclock
  | sweep now => exact agrees_sweep h now
  | snapshot clock => exact agrees_snapshot h hclock

theorem agrees_run (since : Nat) (tr : List MetricsEvent) (hclock : Nondecreasing tr) :
    Agrees tr (run since tr) := by
  induction tr using List.reverseRecOn with
  | nil => exact agrees_init since
  | append_singleton tr e ih =>
    have hrun : run since (tr ++ [e]) = (run since tr).step e := by simp [run]
    rw [hrun]
    exact agrees_step (ih hclock.concat.1) hclock

/-- What a snapshot reports of the present. -/
theorem snapshot_reports {since : Nat} {tr : List MetricsEvent} {clock : SnapshotClock}
    (hclock : Nondecreasing (tr ++ [.snapshot clock])) :
    ((run since tr).getSnapshot clock).2.activeTotal = activeCount tr ∧
    ((run since tr).getSnapshot clock).2.activeInbound = activeInboundCount tr ∧
    ((run since tr).getSnapshot clock).2.outboundCurrentCps =
      (outboundStarts tr).countWithin cpsWindowMs clock.trim := by
  have h := agrees_run since tr hclock.concat.1
  obtain ⟨-, -, hbefore⟩ := hclock.concat
  refine ⟨size_eq_activeCount h.legs, inDirection_inbound_eq h.legs, ?_⟩
  obtain ⟨c, hkept, hc⟩ := h.kept
  have hcTrim : c ≤ clock.trim - cpsWindowMs :=
    hc _ fun t ht => hbefore t ht _ (by simp [readings])
  have hlast : ∀ x ∈ outboundStarts tr, x ≤ clock.trim := fun x hx =>
    hbefore x ((outboundStarts_sublist tr).subset hx) _ (by simp [readings])
  show ((run since tr).outboundStarts.dropWhile (· < clock.trim - cpsWindowMs)).length = _
  rw [hkept, dropWhile_kept (outboundStarts_sorted hclock.concat.1) hcTrim,
    List.length_filter_eq_countWithin hlast rfl]

/-- Whatever upserts, sweeps and snapshots come while the clock does not go back: the active
    set is the calls in progress, the two concurrency peaks are the maxima over all prefixes of
    the trace, and the peak of the starts per second is the largest number of outbound starts
    in a window of 1000 ms that ends at one of them. -/
theorem metrics_agree (since : Nat) (tr : List MetricsEvent) (hclock : Nondecreasing tr) :
    (∀ id leg, (run since tr).active.get? id = some leg ↔ InProgress tr id leg) ∧
    (run since tr).maxConcurrent = List.peak activeCount tr ∧
    (run since tr).peakInboundConcurrent = List.peak activeInboundCount tr ∧
    (run since tr).outboundPeakCps = List.burst 1000 (outboundStarts tr) := by
  have h := agrees_run since tr hclock
  refine ⟨fun id leg => ?_, h.concurrent, h.inbound, h.burst⟩
  rw [h.legs id, legAfter_eq_some_iff]

/-- A call that a carrier takes over after it rang, and a second one in the same second. -/
def twoCalls : List MetricsEvent :=
  let call (id : String) (status : CallStatus) (direction : CallDirection) : CallLog :=
    { id := id, fromLeg := "100", toLeg := "+15550100", fromName := "", status := status
      direction := direction, startTime := "" }
  let at_ (t : Nat) : OnCallClock :=
    { started := t, outbound := t, snapshot := { trim := t, updated := t } }
  [.upsert (call "a" .ringing .inbound) (at_ 10), .upsert (call "a" .ringing .outbound) (at_ 20),
    .snapshot { trim := 900, updated := 900 }, .upsert (call "b" .answered .outbound) (at_ 1020),
    .sweep 2000, .upsert (call "a" .ended .outbound) (at_ 3000)]

theorem metrics_agree_twoCalls :
    List.peak activeCount twoCalls = 2 ∧ List.peak activeInboundCount twoCalls = 1 ∧
    List.burst 1000 (outboundStarts twoCalls) = 2 ∧
    (run 0 twoCalls).maxConcurrent = List.peak activeCount twoCalls := by
  refine ⟨by decide, by decide, by decide, ?_⟩
  exact (metrics_agree 0 twoCalls (by decide)).2.1

end MetricsTrace

end CallNet
