import CallNet.Engine.AbuseGuard

/-!
# Bans of the abuse guard

A ban runs until its time, whatever happens in between, and no trusted address is ever banned.
-/

namespace CallNet.SipAbuseGuard

variable {g : SipAbuseGuard} {records : AbuseRecords} {now : Nat} {ip : String}

/-- The time that the address is banned until; for an address without a record it is over. -/
def banEnd (records : AbuseRecords) (ip : String) : Nat :=
  match records.get? ip with
  | some record => record.bannedUntil
  | none => 0

theorem isBanned_iff : isBanned records now ip = true ↔ now < banEnd records ip := by
  unfold isBanned banEnd
  cases records.get? ip with
  | some record => exact decide_eq_true_iff
  | none => simp

theorem isBanned_eq_false_iff : isBanned records now ip = false ↔ banEnd records ip ≤ now := by
  rw [← Bool.not_eq_true, isBanned_iff, Nat.not_lt]

/-! ## One step -/

/-- The addresses that offenses are counted of. -/
structure Counted (g : SipAbuseGuard) (ip : String) : Prop where
  nonempty : ip ≠ ""
  untrusted : g.isTrusted ip = false

instance : Decidable (g.Counted ip) :=
  decidable_of_iff (ip ≠ "" ∧ g.isTrusted ip = false) ⟨fun h => ⟨h.1, h.2⟩, fun h => ⟨h.1, h.2⟩⟩

theorem bannedUntil_windowRecord :
    (g.windowRecord records now ip).bannedUntil = banEnd records ip := by
  unfold windowRecord banEnd
  cases records.get? ip with
  | none => rfl
  | some record =>
    dsimp only
    split <;> rfl

/-- Whether the offense gets its address banned. -/
def Bans (g : SipAbuseGuard) (records : AbuseRecords) (now : Nat) (ip : String) : Prop :=
  g.threshold ≤ (g.windowRecord records now ip).count + 1 ∧ banEnd records ip ≤ now

instance : Decidable (Bans g records now ip) := inferInstanceAs (Decidable (_ ∧ _))

theorem recordOffense_skipped (h : ¬ g.Counted ip) :
    g.recordOffense records now ip = (records, false) := by
  unfold recordOffense
  refine if_pos ?_
  by_cases hempty : ip = ""
  · exact .inl hempty
  · exact .inr (Decidable.byContradiction fun htrusted => h ⟨hempty, by simpa using htrusted⟩)

/-- What an offense that counts does. -/
theorem recordOffense_counted (h : g.Counted ip) :
    g.recordOffense records now ip =
      (records.set ip
        { g.windowRecord records now ip with
          count := (g.windowRecord records now ip).count + 1
          lastSeen := now
          bannedUntil := if g.Bans records now ip then now + g.banMs else banEnd records ip },
        decide (g.Bans records now ip)) := by
  have hskip : ¬ (ip = "" ∨ g.isTrusted ip = true) := by simp [h.nonempty, h.untrusted]
  unfold recordOffense
  rw [if_neg hskip]
  simp only [bannedUntil_windowRecord, ge_iff_le]
  by_cases hbans : g.threshold ≤ (g.windowRecord records now ip).count + 1 ∧
      banEnd records ip ≤ now
  · simp only [Bans, hbans, and_self, if_true, decide_true]
  · simp only [Bans, hbans, if_false, decide_false]

/-- An offense moves the end of the ban exactly when it gets its address banned. -/
theorem banEnd_recordOffense (g : SipAbuseGuard) (records : AbuseRecords) (now : Nat)
    (ip ip' : String) : banEnd (g.recordOffense records now ip').1 ip =
      if ip' = ip ∧ g.Counted ip ∧ g.Bans records now ip then now + g.banMs
      else banEnd records ip := by
  by_cases hcounted : g.Counted ip'
  · rw [recordOffense_counted hcounted]
    by_cases hip : ip' = ip
    · subst hip
      simp only [banEnd, OrdMap.get?_set_self, hcounted, true_and]
    · have hne : ip ≠ ip' := fun h => hip h.symm
      simp only [banEnd, OrdMap.get?_set_ne _ _ hne, hip, false_and, if_false]
  · rw [recordOffense_skipped hcounted, if_neg]
    rintro ⟨rfl, h, -⟩
    exact hcounted h

/-- A success or a sweep ends no running ban. -/
theorem banEnd_recordSuccess (ip' : String) :
    banEnd (recordSuccess records now ip') ip = banEnd records ip ∨
      banEnd records ip ≤ now ∧ banEnd (recordSuccess records now ip') ip = 0 := by
  unfold recordSuccess
  cases hget : records.get? ip' with
  | none => exact .inl rfl
  | some record =>
    dsimp only
    split
    · rename_i hover
      by_cases hip : ip = ip'
      · subst hip
        refine .inr ⟨?_, ?_⟩
        · simpa [banEnd, hget] using hover
        · simp [banEnd]
      · exact .inl (by simp only [banEnd, OrdMap.get?_delete_ne _ hip])
    · exact .inl rfl

theorem banEnd_sweep :
    banEnd (g.sweep records now) ip = banEnd records ip ∨
      banEnd records ip ≤ now ∧ banEnd (g.sweep records now) ip = 0 := by
  unfold sweep banEnd
  rw [OrdMap.get?_filter]
  cases records.get? ip with
  | none => exact .inl rfl
  | some record =>
    by_cases hkept : record.bannedUntil > now ∨ now - record.lastSeen < g.windowMs
    · rw [Option.filter_some_pos (by simpa using hkept)]
      exact .inl rfl
    · rw [Option.filter_some_neg (by simpa using hkept)]
      rw [not_or, Nat.not_lt] at hkept
      exact .inr ⟨hkept.1, rfl⟩

/-- The operation gets the address banned. -/
def IssuesBan (g : SipAbuseGuard) (records : AbuseRecords) (ip : String) (e : Nat × Op) : Prop :=
  e.2 = .recordOffense ip ∧ (g.recordOffense records e.1 ip).2 = true

theorem issuesBan_iff {e : Nat × Op} :
    g.IssuesBan records ip e ↔
      e.2 = .recordOffense ip ∧ g.Counted ip ∧ g.Bans records e.1 ip := by
  refine and_congr_right fun _ => ?_
  by_cases hcounted : g.Counted ip
  · rw [recordOffense_counted hcounted]
    simp [hcounted]
  · rw [recordOffense_skipped hcounted]
    simp [hcounted]

/-- What one operation does to the end of a ban: a new ban, the same end, or a ban that is over
    and forgotten. -/
theorem banEnd_step (g : SipAbuseGuard) (records : AbuseRecords) (ip : String) (e : Nat × Op) :
    (g.IssuesBan records ip e ∧ banEnd (g.step records e) ip = e.1 + g.banMs ∧
        banEnd records ip ≤ e.1) ∨
      banEnd (g.step records e) ip = banEnd records ip ∨
      (banEnd records ip ≤ e.1 ∧ banEnd (g.step records e) ip = 0) := by
  obtain ⟨now, op⟩ := e
  cases op with
  | recordOffense ip' =>
    have hend := banEnd_recordOffense g records now ip ip'
    split at hend
    · rename_i hbans
      obtain ⟨rfl, hcounted, hbans⟩ := hbans
      exact .inl ⟨issuesBan_iff.mpr ⟨rfl, hcounted, hbans⟩, hend, hbans.2⟩
    · exact .inr (.inl hend)
  | recordSuccess ip' => exact .inr (banEnd_recordSuccess ip')
  | isBanned ip' => exact .inr (.inl rfl)
  | sweep => exact .inr banEnd_sweep

/-! ## Runs -/

/-- The records after more operations. -/
abbrev runFrom (g : SipAbuseGuard) (records : AbuseRecords) (es : List (Nat × Op)) :
    AbuseRecords := es.foldl g.step records

/-- Some operation of the list gets the address banned. -/
def BansWithin (g : SipAbuseGuard) (ip : String) : AbuseRecords → List (Nat × Op) → Prop
  | _, [] => False
  | records, e :: es => g.IssuesBan records ip e ∨ BansWithin g ip (g.step records e) es

/-- A ban outlasts everything that happens before its end. -/
theorem banEnd_runFrom {es : List (Nat × Op)} (h : ∀ e ∈ es, e.1 < banEnd records ip) :
    banEnd (g.runFrom records es) ip = banEnd records ip := by
  induction es generalizing records with
  | nil => rfl
  | cons e es ih =>
    have hlt := h e List.mem_cons_self
    have hkept : banEnd (g.step records e) ip = banEnd records ip := by
      rcases banEnd_step g records ip e with ⟨-, -, hover⟩ | hsame | ⟨hover, -⟩
      · omega
      · exact hsame
      · omega
    rw [← hkept]
    refine ih fun e' he' => ?_
    rw [hkept]
    exact h e' (List.mem_cons_of_mem e he')

/-- Without a new ban it does not get longer. -/
theorem banEnd_runFrom_le {es : List (Nat × Op)} (h : ¬ g.BansWithin ip records es) :
    banEnd (g.runFrom records es) ip ≤ banEnd records ip := by
  induction es generalizing records with
  | nil => exact Nat.le_refl _
  | cons e es ih =>
    obtain ⟨hno, hrest⟩ := not_or.mp h
    refine Nat.le_trans (ih hrest) ?_
    rcases banEnd_step g records ip e with ⟨hissues, -⟩ | hsame | ⟨-, hzero⟩
    · exact absurd hissues hno
    · exact Nat.le_of_eq hsame
    · omega

/-- A trusted address has no ban to end. -/
theorem banEnd_trusted (htrusted : g.isTrusted ip = true) (es : List (Nat × Op)) :
    banEnd (g.run es) ip = 0 := by
  have hnever : ∀ (es : List (Nat × Op)) (records : AbuseRecords), ¬ g.BansWithin ip records es := by
    intro es
    induction es with
    | nil => exact fun _ => id
    | cons e es ih =>
      rintro records (hissues | hrest)
      · obtain ⟨-, hcounted, -⟩ := issuesBan_iff.mp hissues
        have huntrusted := hcounted.untrusted
        rw [htrusted] at huntrusted
        cases huntrusted
      · exact ih _ hrest
  exact Nat.le_zero.mp (banEnd_runFrom_le (hnever es .empty))

/-- In every run: an address that an offense gets banned is banned for `banMs`, whatever happens
    before the end of that time, and not banned after it unless it is banned again; a trusted
    address is never banned. -/
theorem bans_persist (g : SipAbuseGuard) (ip : String) :
    (∀ before e after now, g.IssuesBan (g.run before) ip e → (∀ e' ∈ after, e'.1 ≤ now) →
      (now < e.1 + g.banMs → isBanned (g.run (before ++ e :: after)) now ip = true) ∧
      (e.1 + g.banMs ≤ now → ¬ g.BansWithin ip (g.run (before ++ [e])) after →
        isBanned (g.run (before ++ e :: after)) now ip = false)) ∧
      ∀ es now, g.isTrusted ip = true → isBanned (g.run es) now ip = false := by
  constructor
  · intro before e after now hissues hnow
    have hrun : g.run (before ++ e :: after) = g.runFrom (g.run (before ++ [e])) after := by
      simp only [run, runFrom, List.foldl_append, List.foldl_cons, List.foldl_nil]
    -- the ban ends where the offense put it, until a later one moves the end
    have hend : banEnd (g.run (before ++ [e])) ip = e.1 + g.banMs := by
      rw [run_concat]
      obtain ⟨hop, hcounted, hbans⟩ := issuesBan_iff.mp hissues
      obtain ⟨time, op⟩ := e
      cases hop
      exact (banEnd_recordOffense g _ _ ip ip).trans (if_pos ⟨rfl, hcounted, hbans⟩)
    constructor
    · intro hlt
      rw [isBanned_iff, hrun, banEnd_runFrom, hend]
      · exact hlt
      · intro e' he'
        have := hnow e' he'
        omega
    · intro hle hno
      rw [isBanned_eq_false_iff, hrun]
      have := banEnd_runFrom_le hno
      omega
  · intro es now htrusted
    rw [isBanned_eq_false_iff, banEnd_trusted htrusted]
    exact Nat.zero_le now

/-- A guard that bans at the second offense, for a minute. -/
def strictGuard : SipAbuseGuard :=
  .ofOptions { threshold := 2, windowMs := 1000, banMs := 60000, isTrusted := (· = "10.0.0.1") }

/-- A success and a sweep do not lift the ban. -/
theorem bans_persist_strict :
    isBanned (strictGuard.run [(0, .recordOffense "203.0.113.9"), (5, .recordOffense "203.0.113.9"),
      (6, .recordSuccess "203.0.113.9"), (9000, .sweep)]) 60004 "203.0.113.9" = true := by
  have hissues : strictGuard.IssuesBan (strictGuard.run [(0, .recordOffense "203.0.113.9")])
      "203.0.113.9" (5, .recordOffense "203.0.113.9") := ⟨rfl, by decide⟩
  exact ((bans_persist strictGuard "203.0.113.9").1 [(0, .recordOffense "203.0.113.9")] _
    [(6, .recordSuccess "203.0.113.9"), (9000, .sweep)] 60004 hissues (by simp)).1 (by decide)

end CallNet.SipAbuseGuard
