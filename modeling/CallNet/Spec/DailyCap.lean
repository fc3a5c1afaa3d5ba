import CallNet.Engine.WidgetRoutes
import CallNet.ForStd.Machine
import Mathlib.Algebra.GroupWithZero.Nat

/-!
# The daily cap of an API key

The cap is checked in one place and counted in another.  It bounds the tokens of a day as long
as no token is issued past it, and the calls as long as a token is good for one INVITE of its
own day; the endpoints see to neither.
-/

namespace CallNet

open Machine (run Meets Throughout)
open ApiKeyService (DayCounters capReached noteCall validate verifySecret)

/-! ## The counter of a key -/

section Counter

variable {counters : DayCounters} {today : String} {id id' cap : Int}

/-- The calls counted today. -/
def countedOn (counters : DayCounters) (today : String) (id : Int) : Nat :=
  match counters.get? id with
  | none => 0
  | some (day, count) => if day = today then count else 0

theorem capReached_eq_false_iff {key : ResolvedApiKey} (hcap : 0 < key.dailyCap) :
    capReached counters today key = false ↔ (countedOn counters today key.id : Int) < key.dailyCap := by
  unfold capReached countedOn
  rw [if_neg (by omega)]
  cases counters.get? key.id with
  | none => exact iff_of_true rfl (by simpa using hcap)
  | some entry =>
    obtain ⟨day, count⟩ := entry
    rw [decide_eq_false_iff_not]
    dsimp only
    split
    · rename_i hday
      rw [not_and]
      exact ⟨fun h => Int.not_le.mp (h hday), fun h _ => Int.not_le.mpr h⟩
    · rename_i hday
      exact iff_of_true (fun h => hday h.1) (by simpa using hcap)

theorem countedOn_noteCall (hcap : 0 < cap) :
    countedOn (noteCall counters today id cap) today id = countedOn counters today id + 1 := by
  unfold noteCall countedOn
  rw [if_neg (by omega)]
  cases counters.get? id with
  | none => simp
  | some entry =>
    obtain ⟨day, count⟩ := entry
    by_cases hday : day = today <;> simp [hday]

theorem get?_noteCall_ne (hid : id ≠ id') :
    (noteCall counters today id' cap).get? id = counters.get? id := by
  unfold noteCall
  split
  · rfl
  · split
    · exact OrdMap.get?_set_ne counters _ hid
    · split <;> exact OrdMap.get?_set_ne counters _ hid

theorem day_of_noteCall (hcap : 0 < cap) {day : String} {count : Nat}
    (h : (noteCall counters today id cap).get? id = some (day, count)) : day = today := by
  unfold noteCall at h
  rw [if_neg (by omega)] at h
  split at h
  · rw [OrdMap.get?_set_self] at h
    exact (Prod.mk.inj (Option.some.inj h)).1.symm
  · split at h
    · rw [OrdMap.get?_set_self] at h
      exact (Prod.mk.inj (Option.some.inj h)).1.symm
    · rename_i hday
      rw [OrdMap.get?_set_self] at h
      exact (Prod.mk.inj (Option.some.inj h)).1.symm.trans (not_not.mp hday)

end Counter

/-! ## The key of a request -/

section Resolved

variable {server : WidgetServer} {counters : DayCounters} {today : String} {req : WidgetRequest}
  {resolved : Option ResolvedApiKey} {matchesHash : Bool} {key : ResolvedApiKey}

theorem resolved_of_session (h : server.session counters today req resolved = .ok key) :
    resolved = some key ∧ capReached counters today key = false := by
  unfold WidgetServer.session validate at h
  split at h
  · cases h
  · split at h
    · cases h
    · split at h
      · cases h
      · rename_i found
        dsimp only at h
        split at h
        · cases h
        · split at h
          · cases h
          · split at h
            · cases h
            · split at h
              · cases h
              · rename_i hcap
                obtain rfl := Except.ok.inj h
                exact ⟨rfl, Bool.eq_false_iff.mpr hcap⟩

theorem resolved_of_verifySecret (h : verifySecret resolved matchesHash = .ok key) :
    resolved = some key := by
  unfold verifySecret at h
  split at h
  · cases h
  · split at h
    · cases h
    · split at h
      · cases h
      · exact congrArg some (Except.ok.inj h)

theorem resolved_of_token (h : server.token req resolved matchesHash = .ok key) :
    resolved = some key := by
  unfold WidgetServer.token at h
  split at h
  · cases h
  · split at h
    · cases h
    · cases hverify : verifySecret resolved matchesHash with
      | error reason =>
        rw [hverify] at h
        cases h
      | ok found =>
        rw [hverify] at h
        obtain rfl := Except.ok.inj h
        exact resolved_of_verifySecret hverify

theorem resolved_of_callback {number : String}
    (h : server.callback counters today req resolved matchesHash = .ok (key, number)) :
    resolved = some key := by
  unfold WidgetServer.callback at h
  split at h
  · cases h
  · split at h
    · cases h
    · split at h
      · cases h
      · cases hverify : verifySecret resolved matchesHash with
        | error reason =>
          rw [hverify] at h
          cases h
        | ok found =>
          rw [hverify] at h
          dsimp only at h
          -- no later check changes the key
          have hfound : found = key := by
            split at h
            · cases h
            · split at h
              · cases h
              · split at h
                · cases h
                · split at h
                  · cases h
                  · split at h
                    · cases h
                    · exact (Prod.mk.inj (Except.ok.inj h)).1
          exact hfound ▸ resolved_of_verifySecret hverify

end Resolved

/-! ## The property and its condition -/

def WidgetEvent.resolved : WidgetEvent → Option ResolvedApiKey
  | .session _ _ resolved | .token _ _ resolved _ | .callback _ _ resolved _ => resolved
  | .issue _ | .invite .. | .midnight _ => none

/-- The key of the given id has the given cap. -/
def WidgetEvent.HasCap (id cap : Int) (e : WidgetEvent) : Prop :=
  ∀ key ∈ e.resolved, key.id = id → key.dailyCap = cap

instance (id cap : Int) (e : WidgetEvent) : Decidable (e.HasCap id cap) :=
  inferInstanceAs (Decidable (∀ key ∈ e.resolved, _))

namespace WidgetSystem

/-- The tokens issued for a key on a day. -/
def tokensOn (s : WidgetSystem) (id : Int) (day : String) : Nat :=
  (s.tokens.map fun t => (t.claims.keyId, t.day)).count (id, day)

/-- The INVITEs accepted on a day with tokens of a key. -/
def invitesOn (s : WidgetSystem) (id : Int) (day : String) : Nat :=
  (s.tokens.map fun t => if t.claims.keyId = id then t.uses.count day else 0).sum

/-- The callbacks originated for a key on a day. -/
def callbacksOn (s : WidgetSystem) (id : Int) (day : String) : Nat := s.callbacks.count (id, day)

/-- On no day do the tokens and callbacks, or the INVITEs and callbacks, exceed the cap. -/
def WithinCap (id cap : Int) (s : WidgetSystem) : Prop := ∀ day,
  (s.tokensOn id day + s.callbacksOn id day : Int) ≤ cap ∧
    (s.invitesOn id day + s.callbacksOn id day : Int) ≤ cap

/-- A token is issued while the cap is not reached, and accepted once, on the day it was issued. -/
def Counted (id : Int) (s : WidgetSystem) : WidgetEvent → Prop
  | .issue i => ∀ key ∈ s.waiting[i]?, key.id = id → capReached s.counters s.today key = false
  | .token server req resolved matchesHash =>
    ∀ key ∈ (server.token req resolved matchesHash).toOption, key.id = id →
      capReached s.counters s.today key = false
  | .invite server i verified calledNumber route =>
    s.Accepts server i verified calledNumber route → ∀ t ∈ s.tokens[i]?,
      t.claims.keyId = id → t.uses = [] ∧ t.day = s.today
  | .session .. | .callback .. | .midnight _ => True

instance (id : Int) (s : WidgetSystem) : ∀ e, Decidable (Counted id s e)
  | .issue i => inferInstanceAs (Decidable (∀ key ∈ s.waiting[i]?, _))
  | .token server req resolved matchesHash =>
    inferInstanceAs (Decidable (∀ key ∈ (server.token req resolved matchesHash).toOption, _))
  | .invite server i verified calledNumber route =>
    inferInstanceAs (Decidable (s.Accepts server i verified calledNumber route →
      ∀ t ∈ s.tokens[i]?, _))
  | .session .. | .callback .. | .midnight _ => inferInstanceAs (Decidable True)

/-! ## The invariant -/

variable {id cap : Int} {s s' : WidgetSystem} {key : ResolvedApiKey}

/-- What the counter knows of a key. -/
structure CapInv (id cap : Int) (s : WidgetSystem) : Prop where
  counted : s.tokensOn id s.today + s.callbacksOn id s.today = countedOn s.counters s.today id
  within : ∀ day, (s.tokensOn id day + s.callbacksOn id day : Int) ≤ cap
  fresh : s.today ∉ s.past
  /-- Nothing is known of a day that is not over yet. -/
  later : ∀ day ∉ s.today :: s.past, s.tokensOn id day = 0 ∧ s.callbacksOn id day = 0
  counter : ∀ day count, s.counters.get? id = some (day, count) → day ∈ s.today :: s.past
  uses : ∀ t ∈ s.tokens, t.claims.keyId = id → t.uses = [] ∨ t.uses = [t.day]
  waiting : ∀ key ∈ s.waiting, key.id = id → key.dailyCap = cap

/-- A token that is good once makes at most one call, on its day. -/
theorem CapInv.invitesOn_le (h : s.CapInv id cap) (day : String) :
    s.invitesOn id day ≤ s.tokensOn id day := by
  have huses := h.uses
  unfold invitesOn tokensOn
  generalize s.tokens = tokens at huses
  induction tokens with
  | nil => exact Nat.le_refl 0
  | cons t ts ih =>
    rw [List.map_cons, List.sum_cons, List.map_cons, List.count_cons]
    have hrest := ih fun u hu => huses u (List.mem_cons_of_mem _ hu)
    have hfirst : (if t.claims.keyId = id then t.uses.count day else 0) ≤
        if ((t.claims.keyId, t.day) == (id, day)) = true then 1 else 0 := by
      by_cases hid : t.claims.keyId = id
      · rcases huses t List.mem_cons_self hid with hu | hu
        · simp [hu]
        · simp [hu, hid, List.count_cons]
      · rw [if_neg hid]
        exact Nat.zero_le _
    omega

theorem CapInv.withinCap (h : s.CapInv id cap) : s.WithinCap id cap := by
  intro day
  have hinvites := h.invitesOn_le day
  have hwithin := h.within day
  omega

/-! ## Steps -/

theorem CapInv.setWaiting (h : s.CapInv id cap) {waiting : List ResolvedApiKey}
    (hwaiting : ∀ key ∈ waiting, key.id = id → key.dailyCap = cap) :
    CapInv id cap { s with waiting } :=
  ⟨h.counted, h.within, h.fresh, h.later, h.counter, h.uses, hwaiting⟩

@[simp] theorem tokensOn_issue (s : WidgetSystem) (key : ResolvedApiKey) (id : Int) (day : String) :
    (s.issue key).tokensOn id day =
      s.tokensOn id day + if key.id = id ∧ s.today = day then 1 else 0 := by
  simp only [tokensOn, issue, List.map_append, List.count_append, List.map_cons, List.map_nil,
    List.count_singleton, beq_iff_eq, Prod.mk.injEq, ResolvedApiKey.claims]

@[simp] theorem callbacksOn_issue (s : WidgetSystem) (key : ResolvedApiKey) (id : Int)
    (day : String) : (s.issue key).callbacksOn id day = s.callbacksOn id day := rfl

@[simp] theorem tokensOn_originate (s : WidgetSystem) (key : ResolvedApiKey) (id : Int)
    (day : String) : (s.originate key).tokensOn id day = s.tokensOn id day := rfl

@[simp] theorem callbacksOn_originate (s : WidgetSystem) (key : ResolvedApiKey) (id : Int)
    (day : String) : (s.originate key).callbacksOn id day =
      s.callbacksOn id day + if key.id = id ∧ s.today = day then 1 else 0 := by
  simp only [callbacksOn, originate, List.count_append, List.count_singleton, beq_iff_eq,
    Prod.mk.injEq]

/-- A step that counts one call more of a key that has not reached its cap. -/
theorem CapInv.count (h : s.CapInv id cap) (hcap : 0 < cap)
    (hkey : key.id = id → key.dailyCap = cap ∧ capReached s.counters s.today key = false)
    (hcounters : s'.counters = noteCall s.counters s.today key.id key.dailyCap)
    (htoday : s'.today = s.today) (hpast : s'.past = s.past) (hwaiting : s'.waiting = s.waiting)
    (htotal : ∀ day, s'.tokensOn id day + s'.callbacksOn id day =
      s.tokensOn id day + s.callbacksOn id day + if key.id = id ∧ s.today = day then 1 else 0)
    (huses : ∀ t ∈ s'.tokens, t ∈ s.tokens ∨ t.uses = []) : s'.CapInv id cap := by
  have hcounted := h.counted
  -- a call of another key changes nothing that concerns this one
  by_cases hid : key.id = id
  · subst hid
    obtain ⟨hkeyCap, hfree⟩ := hkey rfl
    have hpositive : 0 < key.dailyCap := by omega
    -- the check before the call left room for one more
    have hroom := (capReached_eq_false_iff hpositive).mp hfree
    refine ⟨?_, ?_, ?_, ?_, ?_, ?_, ?_⟩
    · rw [htoday, hcounters, countedOn_noteCall hpositive, ← hcounted, htotal s.today,
        if_pos ⟨rfl, rfl⟩]
    · intro day
      have hday := htotal day
      have hwithin := h.within day
      split at hday
      · rename_i htodayDay
        obtain ⟨_, rfl⟩ := htodayDay
        omega
      · omega
    · rw [htoday, hpast]
      exact h.fresh
    · intro day hlater
      rw [htoday, hpast] at hlater
      have hday := htotal day
      obtain ⟨htokens, hcallbacks⟩ := h.later day hlater
      rw [if_neg fun hd : key.id = key.id ∧ s.today = day => hlater (hd.2 ▸ List.mem_cons_self)]
        at hday
      omega
    · intro day count hget
      rw [hcounters] at hget
      rw [htoday, hpast, day_of_noteCall hpositive hget]
      exact List.mem_cons_self
    · intro t ht hkeyId
      rcases huses t ht with hold | hnew
      · exact h.uses t hold hkeyId
      · exact .inl hnew
    · rw [hwaiting]
      exact h.waiting
  · have hsame : ∀ day, s'.tokensOn id day + s'.callbacksOn id day =
        s.tokensOn id day + s.callbacksOn id day := by
      intro day
      have hday := htotal day
      rwa [if_neg fun hd => hid hd.1] at hday
    have hget : s'.counters.get? id = s.counters.get? id := by
      rw [hcounters]
      exact get?_noteCall_ne (Ne.symm hid)
    refine ⟨?_, ?_, ?_, ?_, ?_, ?_, ?_⟩
    · rw [htoday, hsame, hcounted]
      unfold countedOn
      rw [hget]
    · intro day
      have hday := hsame day
      have hwithin := h.within day
      omega
    · rw [htoday, hpast]
      exact h.fresh
    · intro day hlater
      rw [htoday, hpast] at hlater
      have hday := hsame day
      obtain ⟨htokens, hcallbacks⟩ := h.later day hlater
      omega
    · intro day count hentry
      rw [hget] at hentry
      rw [htoday, hpast]
      exact h.counter day count hentry
    · intro t ht hkeyId
      rcases huses t ht with hold | hnew
      · exact h.uses t hold hkeyId
      · exact .inl hnew
    · rw [hwaiting]
      exact h.waiting

theorem CapInv.issue (h : s.CapInv id cap) (hcap : 0 < cap)
    (hkey : key.id = id → key.dailyCap = cap ∧ capReached s.counters s.today key = false) :
    (s.issue key).CapInv id cap := by
  refine h.count hcap hkey rfl rfl rfl rfl (fun day => ?_) (fun t ht => ?_)
  · rw [tokensOn_issue, callbacksOn_issue]
    omega
  · rcases List.mem_append.mp ht with hold | hnew
    · exact .inl hold
    · rw [List.mem_singleton.mp hnew]
      exact .inr rfl

theorem CapInv.originate (h : s.CapInv id cap) (hcap : 0 < cap)
    (hkey : key.id = id → key.dailyCap = cap ∧ capReached s.counters s.today key = false) :
    (s.originate key).CapInv id cap := by
  refine h.count hcap hkey rfl rfl rfl rfl (fun day => ?_) (fun t ht => .inl ht)
  rw [tokensOn_originate, callbacksOn_originate]
  omega

@[simp] theorem tokensOn_accept (s : WidgetSystem) (i : Nat) (id : Int) (day : String) :
    (s.accept i).tokensOn id day = s.tokensOn id day := by
  unfold tokensOn accept
  have hsame : (s.tokens.modify i fun t => { t with uses := t.uses ++ [s.today] }).map
      (fun t => (t.claims.keyId, t.day)) = s.tokens.map fun t => (t.claims.keyId, t.day) := by
    apply List.ext_getElem?
    intro j
    rw [List.getElem?_map, List.getElem?_map, List.getElem?_modify]
    cases s.tokens[j]? with
    | none => rfl
    | some t => by_cases hj : i = j <;> simp [hj]
  rw [hsame]

theorem mem_tokens_accept {i : Nat} {t : IssuedToken} (ht : t ∈ (s.accept i).tokens) :
    t ∈ s.tokens ∨ ∃ u, s.tokens[i]? = some u ∧ t = { u with uses := u.uses ++ [s.today] } := by
  obtain ⟨j, hj⟩ := List.mem_iff_getElem?.mp ht
  unfold accept at hj
  rw [List.getElem?_modify] at hj
  obtain ⟨u, hu, htu⟩ := Option.map_eq_some_iff.mp hj
  by_cases hij : i = j
  · rw [if_pos hij] at htu
    exact .inr ⟨u, hij ▸ hu, htu.symm⟩
  · rw [if_neg hij] at htu
    exact .inl (htu ▸ List.mem_of_getElem? hu)

theorem CapInv.accept (h : s.CapInv id cap) {i : Nat}
    (hfirst : ∀ t, s.tokens[i]? = some t → t.claims.keyId = id → t.uses = [] ∧ t.day = s.today) :
    (s.accept i).CapInv id cap := by
  refine ⟨?_, ?_, h.fresh, ?_, h.counter, ?_, h.waiting⟩
  · rw [tokensOn_accept]
    exact h.counted
  · intro day
    rw [tokensOn_accept]
    exact h.within day
  · intro day hlater
    rw [tokensOn_accept]
    exact h.later day hlater
  · intro t ht hkeyId
    rcases mem_tokens_accept ht with hold | ⟨u, hu, rfl⟩
    · exact h.uses t hold hkeyId
    · obtain ⟨huses, hday⟩ := hfirst u hu hkeyId
      right
      rw [huses, hday, List.nil_append]

theorem CapInv.midnight (h : s.CapInv id cap) {day : String}
    (hnew : day ∉ s.today :: s.past) :
    CapInv id cap { s with today := day, past := s.today :: s.past } := by
  obtain ⟨htokens, hcallbacks⟩ := h.later day hnew
  refine ⟨?_, h.within, hnew, ?_, ?_, h.uses, h.waiting⟩
  · show s.tokensOn id day + s.callbacksOn id day = countedOn s.counters day id
    rw [htokens, hcallbacks]
    unfold countedOn
    split
    · rfl
    · rename_i d count hget
      rw [if_neg]
      rintro rfl
      exact hnew (h.counter d count hget)
  · intro d hlater
    exact h.later d fun hmem => hlater (List.mem_cons_of_mem _ hmem)
  · intro d count hget
    exact List.mem_cons_of_mem _ (h.counter d count hget)

theorem capInv_step {e : WidgetEvent} (hcap : 0 < cap) (h : s.CapInv id cap)
    (hrow : e.HasCap id cap) (hcounted : Counted id s e) (hstep : step s e = some s') :
    s'.CapInv id cap := by
  cases e with
  | session server req resolved =>
    simp only [step] at hstep
    split at hstep
    · rename_i key hkey
      obtain rfl := Option.some.inj hstep
      obtain ⟨rfl, _⟩ := resolved_of_session hkey
      refine h.setWaiting fun k hk hid => ?_
      rcases List.mem_append.mp hk with hold | hnew
      · exact h.waiting k hold hid
      · exact hrow k (congrArg some (List.mem_singleton.mp hnew).symm) hid
    · exact Option.some.inj hstep ▸ h
  | issue i =>
    obtain ⟨key, hkey, rfl⟩ := Option.map_eq_some_iff.mp hstep
    have hissued : (s.issue key).CapInv id cap := h.issue hcap fun hid =>
      ⟨h.waiting key (List.mem_of_getElem? hkey) hid, hcounted key hkey hid⟩
    exact hissued.setWaiting fun k hk => h.waiting k (List.mem_of_mem_eraseIdx hk)
  | token server req resolved matchesHash =>
    simp only [step] at hstep
    split at hstep
    · rename_i key hkey
      obtain rfl := Option.some.inj hstep
      exact h.issue hcap fun hid =>
        ⟨hrow key (resolved_of_token hkey) hid, hcounted key (by rw [hkey]; rfl) hid⟩
    · exact Option.some.inj hstep ▸ h
  | callback server req resolved matchesHash =>
    simp only [step] at hstep
    split at hstep
    · rename_i key number hkey
      obtain rfl := Option.some.inj hstep
      exact h.originate hcap fun hid =>
        ⟨hrow key (resolved_of_callback hkey) hid, WidgetServer.capReached_of_callback hkey⟩
    · exact Option.some.inj hstep ▸ h
  | invite server i verified calledNumber route =>
    simp only [step] at hstep
    split at hstep
    · rename_i haccepts
      exact Option.some.inj hstep ▸ h.accept (hcounted haccepts)
    · exact Option.some.inj hstep ▸ h
  | midnight day =>
    simp only [step] at hstep
    split at hstep
    · cases hstep
    · rename_i hnew
      exact Option.some.inj hstep ▸ h.midnight hnew

theorem capInv_init (hcap : 0 < cap) (today : String) : (init today).CapInv id cap where
  counted := rfl
  within := fun _ => by
    show ((0 : Nat) + (0 : Nat) : Int) ≤ cap
    omega
  fresh := List.not_mem_nil
  later := fun _ _ => ⟨rfl, rfl⟩
  counter := fun _ _ hget => by cases hget
  uses := fun _ ht => by cases ht
  waiting := fun _ hk => by cases hk

/-- A key keeps to its cap in every run in which no token is issued past the cap, and each is
    accepted once, on its own day. -/
theorem withinCap_throughout (hcap : 0 < cap) (today : String) (es : List WidgetEvent)
    (hrows : ∀ e ∈ es, e.HasCap id cap) (hcounted : Meets step (Counted id) (init today) es) :
    Throughout step (WithinCap id cap) (init today) es := by
  have hmeets := (Machine.meets_of_mem hrows).and hcounted
  exact (Machine.throughout_of_meets (fun _ _ _ h hG => capInv_step hcap h hG.1 hG.2)
    (capInv_init hcap today) hmeets).mono fun _ h => h.withinCap

/-! ### The condition on tokens -/

/-- A session whose token is issued right after its validation meets the condition. -/
theorem counted_issue_of_session {server : WidgetServer} {req : WidgetRequest}
    {resolved : Option ResolvedApiKey}
    (hsession : server.session s.counters s.today req resolved = .ok key)
    (hstep : step s (.session server req resolved) = some s') :
    Counted id s' (.issue s.waiting.length) := by
  simp only [step, hsession] at hstep
  obtain rfl := Option.some.inj hstep
  intro k hk _
  rw [Option.mem_def, List.getElem?_concat_length] at hk
  obtain rfl := Option.some.inj hk
  exact (resolved_of_session hsession).2

/-- A token that is issued past the cap breaks the law. -/
theorem CapInv.not_withinCap_issue (h : s.CapInv key.id key.dailyCap) (hcap : 0 < key.dailyCap)
    (hreached : capReached s.counters s.today key = true) :
    ¬(s.issue key).WithinCap key.id key.dailyCap := by
  intro hwithin
  have hroom : ¬(countedOn s.counters s.today key.id : Int) < key.dailyCap := by
    rw [← capReached_eq_false_iff hcap, hreached]
    exact Bool.noConfusion
  have htoday := (hwithin s.today).1
  have hcounted := h.counted
  rw [tokensOn_issue, callbacksOn_issue, if_pos ⟨rfl, rfl⟩] at htoday
  omega

/-! ## Runs -/

/-- A server with everything in place. -/
def openServer : WidgetServer :=
  { rt := ⟨fun _ => none, fun _ _ _ => none, fun _ => none, fun s => s⟩
    parseUrl := fun _ => none
    enabled := true
    trunkEnabled := true
    ivrConnected := true }

/-- A key for one call a day. -/
def oneCallKey : ResolvedApiKey :=
  { id := 1
    owner := "1001"
    allowedOrigins := ["https://shop.example"]
    allowedIps := []
    destination := "+14155550123"
    callerId := ""
    routeType := .trunk
    dailyCap := 1
    devMode := false
    active := true }

def tokenRequest : WidgetRequest :=
  { publicKey := some "pk_1", authorization := "Bearer sk_1" }

/-- `/token` for the key. -/
def askToken : WidgetEvent := .token openServer tokenRequest (some oneCallKey) true

/-- An INVITE to the destination of the key. -/
def call (i : Nat) : WidgetEvent :=
  .invite openServer i true "+14155550123" ⟨.external, "+14155550123", "+14155550123", "+14155550123"⟩

/-- One token and one call keep to the cap. -/
theorem withinCap_oneCall :
    Throughout step (WithinCap 1 1) (init "2025-01-01") [askToken, call 0] :=
  withinCap_throughout (by decide) _ _ (by decide +kernel) (by decide +kernel)

/-- Two tokens of one day, and two calls with one token. -/
theorem not_withinCap_twice :
    ¬Throughout step (WithinCap 1 1) (init "2025-01-01") [askToken, askToken] ∧
      ¬Throughout step (WithinCap 1 1) (init "2025-01-01") [askToken, call 0, call 0] := by
  constructor
  · intro h
    have hlast := h.last rfl
    exact absurd (hlast "2025-01-01").1 (by decide +kernel)
  · intro h
    have hlast := h.last rfl
    exact absurd (hlast "2025-01-01").2 (by decide +kernel)

end WidgetSystem

end CallNet
