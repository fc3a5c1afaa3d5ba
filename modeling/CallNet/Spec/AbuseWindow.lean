import CallNet.Spec.AbuseBans
import Mathlib.Data.List.Induction
import Mathlib.Data.List.TakeWhile

/-!
# The window of the abuse guard

The guard is meant to ban an address for its offenses within a sliding window.  It counts them
from the start of a window that does not slide: an offense after the end of it, or a sweep,
makes the guard forget offenses that are not `windowMs` old yet.  An address whose offenses are
never forgotten so is banned in time.
-/

namespace CallNet.SipAbuseGuard

variable {g : SipAbuseGuard} {ip : String} {es : List (Nat × Op)} {now : Nat}

/-! ## Offenses within the window -/

/-- How many offenses of the address there are in a list. -/
def offenses (ip : String) (es : List (Nat × Op)) : Nat :=
  es.countP fun e => e.2 = .recordOffense ip

/-- The operation is no success of the address, and at most `windowMs` old. -/
def InSpan (g : SipAbuseGuard) (ip : String) (now : Nat) (e : Nat × Op) : Prop :=
  e.2 ≠ .recordSuccess ip ∧ now ≤ e.1 + g.windowMs

instance (e : Nat × Op) : Decidable (g.InSpan ip now e) := inferInstanceAs (Decidable (_ ∧ _))

/-- The offenses of the address since its last success that are at most `windowMs` old. -/
def recent (g : SipAbuseGuard) (ip : String) (now : Nat) (es : List (Nat × Op)) : Nat :=
  offenses ip (es.reverse.takeWhile fun e => g.InSpan ip now e)

/-- At its `threshold`-th offense within `windowMs`, with no success of its own in between, an
    untrusted address is banned. -/
def Windowed (g : SipAbuseGuard) (es : List (Nat × Op)) : Prop :=
  ∀ before span after ip now, es = before ++ (span ++ (now, .recordOffense ip) :: after) →
    g.Counted ip → (∀ e ∈ span, g.InSpan ip now e) → g.threshold ≤ offenses ip span + 1 →
    isBanned (g.run (before ++ (span ++ [(now, .recordOffense ip)]))) now ip = true

/-- The operation makes the guard forget recent offenses of the address: an offense starts a new
    window although some of the old one are recent, or a sweep drops their record. -/
def Forgets (g : SipAbuseGuard) (before : List (Nat × Op)) (e : Nat × Op) (ip : String) : Prop :=
  g.recent ip e.1 before ≠ 0 ∧ ∃ record, (g.run before).get? ip = some record ∧
    ((e.2 = .recordOffense ip ∧ g.windowMs < e.1 - record.windowStart) ∨
      (e.2 = .sweep ∧ record.bannedUntil ≤ e.1 ∧ g.windowMs ≤ e.1 - record.lastSeen))

/-- No recent offense of an untrusted address is ever forgotten. -/
def Remembers (g : SipAbuseGuard) (es : List (Nat × Op)) : Prop :=
  ∀ before e after ip, es = before ++ e :: after → g.Counted ip → ¬ g.Forgets before e ip

/-! ### Counting -/

theorem offenses_append (es es' : List (Nat × Op)) :
    offenses ip (es ++ es') = offenses ip es + offenses ip es' := List.countP_append

theorem recent_concat (e : Nat × Op) :
    g.recent ip now (es ++ [e]) =
      if g.InSpan ip now e then offenses ip [e] + g.recent ip now es else 0 := by
  unfold recent
  rw [List.reverse_concat]
  by_cases he : g.InSpan ip now e
  · rw [if_pos he, List.takeWhile_cons_of_pos (by simpa using he), ← List.singleton_append,
      offenses_append]
  · rw [if_neg he, List.takeWhile_cons_of_neg (by simpa using he)]
    rfl

/-- Fewer offenses are recent later on. -/
theorem recent_le {later : Nat} (h : now ≤ later) : g.recent ip later es ≤ g.recent ip now es := by
  induction es using List.reverseRecOn with
  | nil => exact Nat.le_refl _
  | append_singleton es e ih =>
    rw [recent_concat, recent_concat]
    by_cases he : g.InSpan ip later e
    · have hnow : g.InSpan ip now e := ⟨he.1, by have := he.2; omega⟩
      rw [if_pos he, if_pos hnow]
      omega
    · rw [if_neg he]
      omega

/-- The offenses of a span are recent. -/
theorem offenses_le_recent (before : List (Nat × Op)) {span : List (Nat × Op)}
    (h : ∀ e ∈ span, g.InSpan ip now e) :
    offenses ip span ≤ g.recent ip now (before ++ span) := by
  induction span using List.reverseRecOn with
  | nil => exact Nat.zero_le _
  | append_singleton span e ih =>
    have hlast := h e (List.mem_append_right _ List.mem_cons_self)
    have hspan := ih fun e' he' => h e' (List.mem_append_left _ he')
    rw [← List.append_assoc, recent_concat, if_pos hlast, offenses_append]
    omega

/-! ## What the guard remembers -/

/-- The guard has counted all offenses that are recent, now or later. -/
def CountsAll (g : SipAbuseGuard) (ip : String) (es : List (Nat × Op)) : Prop :=
  ∀ now, (∀ e ∈ es, e.1 ≤ now) →
    match (g.run es).get? ip with
    | some record => g.recent ip now es ≤ record.count
    | none => g.recent ip now es = 0

/-- Then the window that an offense is counted in has them too, unless it makes the guard forget
    them. -/
theorem CountsAll.recent_le_windowRecord (h : g.CountsAll ip es) (hnow : ∀ e ∈ es, e.1 ≤ now)
    (hkept : ¬ g.Forgets es (now, .recordOffense ip) ip) :
    g.recent ip now es ≤ (g.windowRecord (g.run es) now ip).count := by
  have hcount := h now hnow
  unfold windowRecord
  cases hget : (g.run es).get? ip with
  | none =>
    rw [hget] at hcount
    exact Nat.le_of_eq hcount
  | some record =>
    rw [hget] at hcount
    dsimp only
    split
    · -- a new window starts at 0, which is right where nothing recent is lost with the old one
      rename_i hover
      have hzero : g.recent ip now es = 0 :=
        Decidable.byContradiction fun hne => hkept ⟨hne, record, hget, .inl ⟨rfl, hover⟩⟩
      exact Nat.le_of_eq hzero
    · exact hcount

/-- An operation that leaves the record alone and adds no offense. -/
theorem CountsAll.other (h : g.CountsAll ip es) {e : Nat × Op}
    (hget : (g.step (g.run es) e).get? ip = (g.run es).get? ip)
    (hop : e.2 ≠ .recordOffense ip) : g.CountsAll ip (es ++ [e]) := by
  intro now hnow
  have hle : g.recent ip now (es ++ [e]) ≤ g.recent ip now es := by
    have hnone : offenses ip [e] = 0 := by simp [offenses, hop]
    rw [recent_concat]
    split <;> omega
  have hes := h now fun e' he' => hnow e' (List.mem_append_left _ he')
  rw [run_concat, hget]
  cases hold : (g.run es).get? ip with
  | none =>
    rw [hold] at hes
    exact Nat.le_zero.mp (hes ▸ hle)
  | some record =>
    rw [hold] at hes
    exact Nat.le_trans hle hes

theorem CountsAll.offense (h : g.CountsAll ip es) (hcounted : g.Counted ip)
    (hnow : ∀ e ∈ es, e.1 ≤ now) (hkept : ¬ g.Forgets es (now, .recordOffense ip) ip) :
    g.CountsAll ip (es ++ [(now, .recordOffense ip)]) := by
  intro later hlater
  have hle : now ≤ later :=
    hlater (now, .recordOffense ip) (List.mem_append_right _ List.mem_cons_self)
  have hcount := h.recent_le_windowRecord hnow hkept
  have hrecent : g.recent ip later es ≤ g.recent ip now es := recent_le hle
  have hone : offenses ip [(now, Op.recordOffense ip)] = 1 := by simp [offenses]
  rw [run_concat, step, recordOffense_counted hcounted, OrdMap.get?_set_self, recent_concat]
  dsimp only
  split <;> omega

theorem CountsAll.success (now : Nat) : g.CountsAll ip (es ++ [(now, .recordSuccess ip)]) := by
  intro later _
  have hzero : g.recent ip later (es ++ [(now, .recordSuccess ip)]) = 0 := by
    rw [recent_concat, if_neg]
    exact fun hspan => hspan.1 rfl
  rw [hzero]
  split
  · exact Nat.zero_le _
  · rfl

theorem CountsAll.sweep (h : g.CountsAll ip es)
    (hkept : ¬ g.Forgets es (now, .sweep) ip) : g.CountsAll ip (es ++ [(now, .sweep)]) := by
  have hfilter : (g.sweep (g.run es) now).get? ip =
      ((g.run es).get? ip).filter fun record =>
        decide (record.bannedUntil > now ∨ now - record.lastSeen < g.windowMs) := by
    unfold SipAbuseGuard.sweep
    rw [OrdMap.get?_filter]
  -- either the sweep drops the record, and then no offense is recent, or it leaves it alone
  by_cases hdropped : ∃ record, (g.run es).get? ip = some record ∧
      ¬ (record.bannedUntil > now ∨ now - record.lastSeen < g.windowMs)
  · obtain ⟨record, hget, hgone⟩ := hdropped
    rw [not_or, Nat.not_lt, Nat.not_lt] at hgone
    have hzero : g.recent ip now es = 0 :=
      Decidable.byContradiction fun hne => hkept ⟨hne, record, hget, .inr ⟨rfl, hgone⟩⟩
    intro later hlater
    have hle : now ≤ later := hlater (now, .sweep) (List.mem_append_right _ List.mem_cons_self)
    have hlater : g.recent ip later es ≤ g.recent ip now es := recent_le hle
    have hrecent : g.recent ip later (es ++ [(now, .sweep)]) = 0 := by
      have hnone : offenses ip [(now, Op.sweep)] = 0 := by simp [offenses]
      rw [recent_concat]
      split <;> omega
    rw [hrecent]
    split
    · exact Nat.zero_le _
    · rfl
  · refine h.other ?_ nofun
    show (g.sweep (g.run es) now).get? ip = _
    rw [hfilter]
    cases hget : (g.run es).get? ip with
    | none => rfl
    | some record =>
      refine Option.filter_some_pos (decide_eq_true ?_)
      exact Decidable.byContradiction fun hgone => hdropped ⟨record, hget, hgone⟩

/-- A run without forgetting, operation by operation. -/
theorem countsAll_run (hcounted : g.Counted ip) (hordered : Ordered es) (h : g.Remembers es) :
    g.CountsAll ip es := by
  induction es using List.reverseRecOn with
  | nil => exact fun _ _ => rfl
  | append_singleton es e ih =>
    have hbefore : ∀ e' ∈ es, e'.1 ≤ e.1 := fun e' he' =>
      (List.pairwise_append.mp hordered).2.2 e' he' e List.mem_cons_self
    have hes : g.CountsAll ip es := by
      refine ih (List.pairwise_append.mp hordered).1 fun before e' after ip' hsplit => ?_
      exact h before e' (after ++ [e]) ip' (by rw [hsplit, List.append_assoc, List.cons_append])
    have hkept : ¬ g.Forgets es e ip := h es e [] ip rfl hcounted
    obtain ⟨now, op⟩ := e
    -- only an operation on this address, or a sweep, can touch its record
    cases op with
    | recordOffense ip' =>
      by_cases hip : ip' = ip
      · subst hip
        exact hes.offense hcounted hbefore hkept
      · refine hes.other ?_ fun hop => hip (Op.recordOffense.inj hop)
        show ((g.recordOffense (g.run es) now ip').1).get? ip = _
        by_cases hcounted' : g.Counted ip'
        · rw [recordOffense_counted hcounted']
          exact OrdMap.get?_set_ne _ _ fun h => hip h.symm
        · rw [recordOffense_skipped hcounted']
    | recordSuccess ip' =>
      by_cases hip : ip' = ip
      · subst hip
        exact CountsAll.success now
      · refine hes.other ?_ nofun
        show (recordSuccess (g.run es) now ip').get? ip = _
        unfold recordSuccess
        split
        · split
          · exact OrdMap.get?_delete_ne _ fun h => hip h.symm
          · rfl
        · rfl
    | isBanned ip' => exact hes.other rfl nofun
    | sweep => exact hes.sweep hkept

/-! ## The law -/

/-- An offense that brings the count to the threshold leaves its address banned. -/
theorem isBanned_recordOffense {records : AbuseRecords} (hcounted : g.Counted ip)
    (hcount : g.threshold ≤ (g.windowRecord records now ip).count + 1) :
    isBanned (g.recordOffense records now ip).1 now ip = true := by
  rw [isBanned_iff, banEnd_recordOffense]
  have hlong := g.ban_long
  by_cases hbans : g.Bans records now ip
  · rw [if_pos ⟨rfl, hcounted, hbans⟩]
    omega
  · -- it does not ban only where a ban is still running
    rw [if_neg fun h => hbans h.2.2]
    exact Nat.lt_of_not_le fun hover => hbans ⟨hcount, hover⟩

/-- A guard that forgets no recent offense bans every address in time. -/
theorem windowed_of_remembers (g : SipAbuseGuard) (es : List (Nat × Op)) (hordered : Ordered es)
    (h : g.Remembers es) : g.Windowed es := by
  intro before span after ip now hes hcounted hspan hthreshold
  have hes' : es = (before ++ span) ++ (now, .recordOffense ip) :: after := by
    rw [hes, List.append_assoc]
  have hprefix : Ordered (before ++ span) := by
    rw [hes'] at hordered
    exact (List.pairwise_append.mp hordered).1
  have hbefore : ∀ e ∈ before ++ span, e.1 ≤ now := by
    rw [hes'] at hordered
    exact fun e he => (List.pairwise_append.mp hordered).2.2 e he _ List.mem_cons_self
  have hall : g.CountsAll ip (before ++ span) := by
    refine countsAll_run hcounted hprefix fun before' e after' ip' hsplit => ?_
    refine h before' e (after' ++ (now, .recordOffense ip) :: after) ip' ?_
    rw [hes', hsplit, List.append_assoc, List.cons_append]
  have hcount := hall.recent_le_windowRecord hbefore
    (h _ _ after ip hes' hcounted)
  have hrecent := offenses_le_recent before hspan
  rw [← List.append_assoc, run_concat]
  exact isBanned_recordOffense hcounted (by omega)

/-! ### What is forgotten is missed -/

/-- Offenses of one address at one time. -/
def burst (k now : Nat) (ip : String) : List (Nat × Op) :=
  List.replicate k (now, .recordOffense ip)

theorem offenses_burst (k : Nat) : offenses ip (burst k now ip) = k := by
  rw [offenses, burst, List.countP_replicate, if_pos (by simp)]

/-- A further offense at the same time is counted in the same window. -/
theorem count_windowRecord_recordOffense {records : AbuseRecords} (hcounted : g.Counted ip) :
    (g.windowRecord (g.recordOffense records now ip).1 now ip).count =
      (g.windowRecord records now ip).count + 1 := by
  have hopen : ¬ now - (g.windowRecord records now ip).windowStart > g.windowMs := by
    unfold windowRecord
    split
    · split
      · simp
      · assumption
    · simp
  rw [recordOffense_counted hcounted]
  generalize g.windowRecord records now ip = record at hopen
  unfold windowRecord
  rw [OrdMap.get?_set_self]
  exact congrArg OffenseRecord.count (if_neg hopen)

/-- Fewer offenses than the threshold, in a window of their own, get nobody banned. -/
theorem banEnd_burst {records : AbuseRecords} (hcounted : g.Counted ip)
    (hnew : (g.windowRecord records now ip).count = 0) (hover : banEnd records ip ≤ now) {k : Nat}
    (hk : k < g.threshold) :
    (g.windowRecord (g.runFrom records (burst k now ip)) now ip).count = k ∧
      banEnd (g.runFrom records (burst k now ip)) ip ≤ now := by
  induction k with
  | zero => exact ⟨hnew, hover⟩
  | succ k ih =>
    obtain ⟨hcount, hend⟩ := ih (by omega)
    have hstep : g.runFrom records (burst (k + 1) now ip) =
        (g.recordOffense (g.runFrom records (burst k now ip)) now ip).1 := by
      rw [burst, List.replicate_succ', runFrom, List.foldl_concat]
      rfl
    rw [hstep]
    refine ⟨?_, ?_⟩
    · rw [count_windowRecord_recordOffense hcounted, hcount]
    · rw [banEnd_recordOffense, if_neg]
      · exact hend
      · rintro ⟨-, -, hbans⟩
        have := hbans.1
        omega

/-- Offenses at the time of the last operation keep the order. -/
theorem Ordered.burst {e : Nat × Op} (h : Ordered (es ++ [e])) (k : Nat) :
    Ordered (es ++ e :: burst k e.1 ip) := by
  have htimes : ∀ e' ∈ e :: SipAbuseGuard.burst k e.1 ip, e'.1 = e.1 := by
    intro e' he'
    rcases List.mem_cons.mp he' with rfl | he'
    · rfl
    · rw [(List.mem_replicate.mp he').2]
  obtain ⟨hes, -, hcross⟩ := List.pairwise_append.mp h
  refine List.pairwise_append.mpr ⟨hes, ?_, fun e' he' e'' he'' => ?_⟩
  · refine List.pairwise_of_forall_mem_list fun e' he' e'' he'' => ?_
    exact Nat.le_of_eq ((htimes e' he').trans (htimes e'' he'').symm)
  · rw [htimes e'' he'']
    exact hcross e' he' e List.mem_cons_self

/-- The recent offenses are those of a span that ends now. -/
theorem exists_span (g : SipAbuseGuard) (ip : String) (now : Nat) (es : List (Nat × Op)) :
    ∃ before span, es = before ++ span ∧ (∀ e ∈ span, g.InSpan ip now e) ∧
      offenses ip span = g.recent ip now es := by
  refine ⟨(es.reverse.dropWhile fun e => g.InSpan ip now e).reverse,
    (es.reverse.takeWhile fun e => g.InSpan ip now e).reverse, ?_, fun e he => ?_, ?_⟩
  · rw [← List.reverse_append, List.takeWhile_append_dropWhile, List.reverse_reverse]
  · simpa using List.mem_takeWhile_imp (List.mem_reverse.mp he)
  · exact List.countP_reverse

/-- After forgetting, a burst brings the recent offenses to the threshold, but not the count. -/
theorem burst_not_windowed {before : List (Nat × Op)} (mid : List (Nat × Op))
    (hcounted : g.Counted ip)
    (hmid : ∀ e ∈ mid, g.InSpan ip now e)
    (hnew : (g.windowRecord (g.run (before ++ mid)) now ip).count = 0)
    (hover : banEnd (g.run (before ++ mid)) ip ≤ now) {k : Nat} (hk : k + 1 < g.threshold)
    (hthreshold : g.threshold ≤ g.recent ip now before + (k + 1)) :
    ¬ g.Windowed (before ++ (mid ++ burst (k + 1) now ip)) := by
  intro hwindowed
  obtain ⟨start, span, hsplit, hspan, hoffenses⟩ := exists_span g ip now before
  have hburst : burst (k + 1) now ip = burst k now ip ++ [(now, .recordOffense ip)] :=
    List.replicate_succ'
  have hruns : start ++ ((span ++ (mid ++ burst k now ip)) ++ [(now, .recordOffense ip)]) =
      (before ++ mid) ++ burst (k + 1) now ip := by
    rw [hsplit, hburst]
    simp only [List.append_assoc]
  have hbanned := hwindowed start (span ++ (mid ++ burst k now ip)) [] ip now
    (by rw [hruns, List.append_assoc]) hcounted ?_ ?_
  · rw [hruns, isBanned_iff] at hbanned
    have hend := (banEnd_burst hcounted hnew hover hk).2
    have hrun : g.run ((before ++ mid) ++ burst (k + 1) now ip) =
        g.runFrom (g.run (before ++ mid)) (burst (k + 1) now ip) := List.foldl_append
    rw [hrun] at hbanned
    omega
  · intro e he
    rcases List.mem_append.mp he with he | he
    · exact hspan e he
    · rcases List.mem_append.mp he with he | he
      · exact hmid e he
      · rw [(List.mem_replicate.mp he).2]
        exact ⟨nofun, Nat.le_add_right now _⟩
  · rw [offenses_append, offenses_append, offenses_burst, hoffenses]
    omega

/-- Where recent offenses are forgotten and no ban runs, the run can go on so that the guard misses
    the offense that should get the address banned. -/
theorem exists_not_windowed {before : List (Nat × Op)} {e : Nat × Op} (hcounted : g.Counted ip)
    (hordered : Ordered (before ++ [e])) (hforgets : g.Forgets before e ip)
    (hthreshold : 2 ≤ g.threshold) (hover : banEnd (g.run before) ip ≤ e.1) :
    ∃ after, Ordered (before ++ e :: after) ∧ ¬ g.Windowed (before ++ e :: after) := by
  obtain ⟨hrecent, record, hget, hforgets⟩ := hforgets
  obtain ⟨now, op⟩ := e
  have hrecent : g.recent ip now before ≠ 0 := hrecent
  -- as many more offenses as are missing from the threshold, fewer than it takes anew
  have hk : g.threshold - g.recent ip now before - 1 + 1 < g.threshold := by omega
  rcases hforgets with ⟨hop, hexpired⟩ | ⟨hop, hgone⟩
  · cases hop
    refine ⟨burst (g.threshold - g.recent ip now before - 1) now ip, hordered.burst _, ?_⟩
    have hnew : (g.windowRecord (g.run (before ++ [])) now ip).count = 0 := by
      rw [List.append_nil, windowRecord, hget]
      exact congrArg OffenseRecord.count (if_pos hexpired)
    exact burst_not_windowed [] hcounted nofun hnew (by rwa [List.append_nil]) hk
      (by omega)
  · cases hop
    refine ⟨burst (g.threshold - g.recent ip now before - 1 + 1) now ip, hordered.burst _, ?_⟩
    have hnone : (g.run (before ++ [(now, .sweep)])).get? ip = none := by
      rw [run_concat]
      show (g.sweep (g.run before) now).get? ip = none
      unfold SipAbuseGuard.sweep
      rw [OrdMap.get?_filter, hget]
      refine Option.filter_some_neg ?_
      simpa using hgone
    refine burst_not_windowed [(now, .sweep)] hcounted ?_ ?_ ?_ hk (by omega)
    · intro e he
      rw [List.mem_singleton.mp he]
      exact ⟨nofun, Nat.le_add_right now _⟩
    · rw [windowRecord, hnone]
    · rw [banEnd, hnone]
      exact Nat.zero_le now

/-! ### Three offenses in 300 ms -/

/-- A guard that bans at the third offense within a second. -/
def thirdStrike : SipAbuseGuard :=
  .ofOptions { threshold := 3, windowMs := 1000, banMs := 60000, isTrusted := fun _ => false }

/-- The window opened at 0, so the offense at 1100 starts a new one and the one at 900 is lost. -/
theorem not_windowed_thirdStrike :
    ¬ thirdStrike.Windowed [(0, .recordOffense "203.0.113.9"), (900, .recordOffense "203.0.113.9"),
      (1100, .recordOffense "203.0.113.9"), (1200, .recordOffense "203.0.113.9")] := by
  intro h
  have hbanned := h [(0, .recordOffense "203.0.113.9")]
    [(900, .recordOffense "203.0.113.9"), (1100, .recordOffense "203.0.113.9")] []
    "203.0.113.9" 1200 rfl ⟨by decide, rfl⟩ (by decide) (by decide)
  exact absurd hbanned (by decide)

/-- With all of them in one window, the third one is enough. -/
theorem windowed_of_remembers_thirdStrike :
    thirdStrike.Windowed [(0, .recordOffense "203.0.113.9"),
      (900, .recordOffense "203.0.113.9"), (1000, .recordOffense "203.0.113.9")] := by
  refine windowed_of_remembers thirdStrike _ (by simp [Ordered]) ?_
  rintro before e after ip hsplit - ⟨-, record, -, hforgets⟩
  have hmem : e ∈ [(0, Op.recordOffense "203.0.113.9"), (900, .recordOffense "203.0.113.9"),
      (1000, .recordOffense "203.0.113.9")] := by
    rw [hsplit]
    exact List.mem_append_right _ List.mem_cons_self
  have hearly : ∀ e ∈ [(0, Op.recordOffense "203.0.113.9"), (900, .recordOffense "203.0.113.9"),
      (1000, .recordOffense "203.0.113.9")], e.1 ≤ 1000 ∧ e.2 ≠ .sweep := by decide
  have hearly := hearly e hmem
  rcases hforgets with ⟨-, hexpired⟩ | ⟨hsweep, -⟩
  · have hwindow : thirdStrike.windowMs = 1000 := rfl
    omega
  · exact hearly.2 hsweep

end CallNet.SipAbuseGuard
