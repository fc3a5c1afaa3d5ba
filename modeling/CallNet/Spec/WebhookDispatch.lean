import CallNet.Engine.WebhookDispatcher
import CallNet.ForStd.Slots

/-!
# Which webhooks a call event reaches

A dispatch that is not a repetition hands out one job for every row of `webhooks` that is
enabled, belongs to an owner of one of the call's legs and is subscribed to the event.  The
memory of dispatched pairs is bounded; how far apart two dispatches of one pair are comes from
`RecentKeys`.  `DispatchInv` is the invariant of every run in which the lookups succeed.
-/

namespace CallNet

namespace WebhookDispatcher

/-- The local extension of one leg, as the call has it or else as the directory resolves it. -/
def legOwner (dir : Directory) (ext : Option String) (leg : String) : Option String :=
  ext.or (resolveExt dir leg)

/-- The extension owns one of the legs of the call. -/
def OwnsLeg (dir : Directory) (call : CallLog) (owner : String) : Prop :=
  owner ≠ "" ∧ (legOwner dir call.fromExt call.fromLeg = some owner ∨
    legOwner dir call.toExt call.toLeg = some owner)

instance (dir : Directory) (call : CallLog) (owner : String) :
    Decidable (OwnsLeg dir call owner) := by
  unfold OwnsLeg
  infer_instance

/-- The rows that a dispatch has to reach at an owner. -/
def rowsOf (db : SharedTables) (d : Dispatch) (owner : String) : List WebhookRow :=
  db.webhooks.filter fun r =>
    r.enabled ∧ r.ownerExtension = owner ∧ d.subscribed (rowToWebhook r)

/-- The jobs handed out by the dispatch with a number. -/
def jobsOf (s : WebhookDispatcher) (n : Nat) : List WebhookDeliverJob :=
  s.jobs.filterMap fun e => if e.1 = n then some e.2 else none

/-- The jobs are one for each row of a list, with some time stamps. -/
def OneJobEach (d : Dispatch) (rows : List WebhookRow) (jobs : List WebhookDeliverJob) : Prop :=
  ∃ stamped : List (WebhookRow × String), stamped.map Prod.fst = rows ∧
    jobs = stamped.map fun e => d.job e.1.ownerExtension e.2 (rowToWebhook e.1)

end WebhookDispatcher

namespace Dispatch

/-- The call and the event of a dispatch. -/
def pair (d : Dispatch) : String × String := (d.call.id, d.event)

/-- The key the dispatch is remembered by. -/
def key (d : Dispatch) : String := WebhookDispatcher.dedupeKey d.call.id d.event

end Dispatch

namespace WebhookDispatcher

/-! ## Keys -/

/-- The last separator splits a list in one way. -/
private theorem append_cons_inj {α : Type} {c : α} {a a' e e' : List α} (he : c ∉ e)
    (he' : c ∉ e') (h : a ++ c :: e = a' ++ c :: e') : a = a' ∧ e = e' := by
  induction a generalizing a' with
  | nil =>
    cases a' with
    | nil => exact ⟨rfl, (List.cons.inj h).2⟩
    | cons x a' =>
      -- the other separator would stand inside `e`
      have htail : e = a' ++ c :: e' := (List.cons.inj h).2
      exact absurd (htail ▸ List.mem_append_right _ List.mem_cons_self) he
  | cons x a ih =>
    cases a' with
    | nil =>
      have htail : a ++ c :: e = e' := (List.cons.inj h).2
      exact absurd (htail ▸ List.mem_append_right _ List.mem_cons_self) he'
    | cons x' a' =>
      obtain ⟨hx, htail⟩ := List.cons.inj h
      obtain ⟨ha, hee⟩ := ih htail
      exact ⟨by rw [hx, ha], hee⟩

/-- The name of an event has no colon. -/
def Colonless (event : String) : Prop := ':' ∉ event.toList

instance (event : String) : Decidable (Colonless event) := inferInstanceAs (Decidable (_ ∉ _))

theorem colonless_statusEvent (s : CallStatus) : Colonless (statusEvent s) := by
  cases s <;> decide

theorem colonless_auditEvent {e : AuditEvent} {event : String} (h : auditEvent e = some event) :
    Colonless event := by
  cases e <;> cases h <;> decide

/-- A key tells the call and the event apart, whatever the call is named. -/
theorem dedupeKey_inj {id id' event event' : String} (he : Colonless event)
    (he' : Colonless event') (h : dedupeKey id event = dedupeKey id' event') :
    id = id' ∧ event = event' := by
  have hlist : id.toList ++ ':' :: event.toList = id'.toList ++ ':' :: event'.toList := by
    simpa [dedupeKey] using congrArg String.toList h
  obtain ⟨hid, hev⟩ := append_cons_inj he he' hlist
  exact ⟨String.toList_inj.mp hid, String.toList_inj.mp hev⟩

/-! ## Owners and their webhooks -/

/-- The extension a leg adds to the set of owners. -/
private def added (ext : Option String) : List String := if truthy ext then [ext.getD ""] else []

private theorem mem_added {ext : Option String} {o : String} :
    o ∈ added ext ↔ o ≠ "" ∧ ext = some o := by
  unfold added
  cases ext with
  | none => simp [truthy]
  | some e =>
    by_cases he : e = ""
    · rw [if_neg (fun h => truthy_some_iff.mp h he)]
      simp only [List.not_mem_nil, false_iff, not_and, Option.some.injEq]
      exact fun ho heo => ho (heo ▸ he)
    · rw [if_pos (truthy_some_iff.mpr he)]
      simp only [Option.getD_some, List.mem_singleton, Option.some.injEq]
      exact ⟨fun h => ⟨h ▸ he, h.symm⟩, fun h => h.2.symm⟩

/-- Both legs' owners, the second one's where it is another. -/
private theorem addOwner_eq (l : List String) (t : Option String) :
    (if truthy t ∧ t.getD "" ∉ l then l ++ [t.getD ""] else l) =
      l ++ (added t).filter (· ∉ l) := by
  unfold added
  by_cases ht : truthy t = true
  · by_cases hmem : t.getD "" ∈ l
    · rw [if_neg (fun h => h.2 hmem), if_pos ht, List.filter_cons_of_neg (by simpa using hmem),
        List.filter_nil, List.append_nil]
    · rw [if_pos ⟨ht, hmem⟩, if_pos ht, List.filter_cons_of_pos (by simpa using hmem),
        List.filter_nil]
  · rw [if_neg (fun h => ht h.1), if_neg ht, List.filter_nil, List.append_nil]

private theorem owners_eq (dir : Directory) (call : CallLog) : owners dir call =
    added (legOwner dir call.fromExt call.fromLeg) ++
      (added (legOwner dir call.toExt call.toLeg)).filter
        (· ∉ added (legOwner dir call.fromExt call.fromLeg)) :=
  addOwner_eq _ _

theorem mem_owners {dir : Directory} {call : CallLog} {o : String} :
    o ∈ owners dir call ↔ OwnsLeg dir call o := by
  rw [owners_eq, List.mem_append, List.mem_filter, decide_eq_true_eq, OwnsLeg]
  simp only [mem_added]
  tauto

/-- An owner of both legs stands once. -/
theorem nodup_owners (dir : Directory) (call : CallLog) : (owners dir call).Nodup := by
  have hone : ∀ ext, (added ext).Nodup := fun ext => by
    unfold added
    split
    · exact List.nodup_singleton _
    · exact List.nodup_nil
  rw [owners_eq, List.nodup_append]
  refine ⟨hone _, (hone _).filter _, ?_⟩
  rintro a ha b hb rfl
  simpa [ha] using (List.mem_filter.mp hb).2

/-- What the lookup of an owner gives to a dispatch. -/
theorem lookup_subscribed (db : SharedTables) (d : Dispatch) {owner : String} (ho : owner ≠ "") :
    (db.getWebhooksForOwner owner).filter d.subscribed =
      (rowsOf db d owner).map rowToWebhook := by
  have howner : ∀ r, (rowToWebhook r).ownerExtension = r.ownerExtension := fun _ => rfl
  rw [SharedTables.getWebhooksForOwner, if_neg ho, groupByOwner_getD,
    SharedTables.loadEnabledWebhooks, List.filter_filter, List.filter_map, List.filter_filter,
    rowsOf]
  refine congrArg _ (List.filter_congr fun r _ => ?_)
  simp only [Function.comp_apply, howner, Bool.decide_and, Bool.decide_eq_true]
  grind

/-- The elements of a list whose key is one of several, by key. -/
theorem flatMap_filter_perm {α κ : Type} [DecidableEq κ] (f : α → κ) (p : α → Bool)
    (l : List α) {ks : List κ} (hks : ks.Nodup) :
    (ks.flatMap fun k => l.filter fun x => p x ∧ f x = k).Perm
      (l.filter fun x => p x ∧ f x ∈ ks) := by
  induction ks with
  | nil => simp
  | cons k ks ih =>
    rw [List.nodup_cons] at hks
    rw [List.flatMap_cons]
    refine ((ih hks.2).append_left _).trans ?_
    -- those with key `k` and those with another key, apart
    have hsplit := List.filter_append_perm (fun x => decide (f x = k))
      (l.filter fun x => p x ∧ f x ∈ k :: ks)
    refine .trans (.of_eq ?_) hsplit
    rw [List.filter_filter, List.filter_filter]
    congr 1
    · refine List.filter_congr fun x _ => ?_
      grind
    · refine List.filter_congr fun x _ => ?_
      grind

/-! ## The invariant -/

/-- The owners that a dispatch has not come to. -/
def remaining (s : WebhookDispatcher) (n : Nat) : List String := (s.pending.get? n).getD []

structure DispatchInv (db : SharedTables) (s : WebhookDispatcher) : Prop where
  memory : RecentKeys.Remembers maxSeen seenDrop (s.dispatched.map Dispatch.key) s.seen
  spaced : RecentKeys.Spaced 9000 (s.dispatched.map Dispatch.key)
  owners : ∀ (d : Dispatch), d ∈ s.dispatched → d.owners.Nodup ∧ "" ∉ d.owners
  issued : ∀ n, s.pending.has n → n < s.dispatched.length
  tagged : ∀ e ∈ s.jobs, e.1 < s.dispatched.length
  /-- The owners a dispatch has come to have their jobs. -/
  jobs : ∀ (n : Nat) (d : Dispatch), s.dispatched[n]? = some d →
    ∃ done, d.owners = done ++ s.remaining n ∧
      OneJobEach d (done.flatMap (rowsOf db d)) (s.jobsOf n)

theorem dispatchInv_init (db : SharedTables) : DispatchInv db init where
  memory := RecentKeys.remembers_empty
  spaced := RecentKeys.spaced_nil _
  owners _ h := nomatch h
  issued _ h := nomatch h
  tagged _ h := nomatch h
  jobs _ _ h := nomatch h

/-- No job has the number of a dispatch that is still to come. -/
theorem DispatchInv.jobsOf_new {db : SharedTables} {s : WebhookDispatcher}
    (h : DispatchInv db s) : s.jobsOf s.dispatched.length = [] := by
  refine List.filterMap_eq_nil_iff.mpr fun e he => if_neg fun heq => ?_
  exact absurd (h.tagged e he) (by omega)

theorem DispatchInv.remaining_new {db : SharedTables} {s : WebhookDispatcher}
    (h : DispatchInv db s) : s.remaining s.dispatched.length = [] := by
  have hnone : s.pending.get? s.dispatched.length = none := by
    by_contra hsome
    exact absurd (h.issued _ (Option.isSome_iff_ne_none.mpr hsome)) (Nat.lt_irrefl _)
  rw [remaining, hnone, Option.getD_none]

/-- A dispatch is a repetition, or comes behind the others with all its owners to go to. -/
theorem dispatch_cases (s : WebhookDispatcher) (dir : Directory) (event : String)
    (call : CallLog) :
    ((call.id = "" ∨ s.seen.has (dedupeKey call.id event)) ∧ s.dispatch dir event call = s) ∨
    (call.id ≠ "" ∧ ¬ s.seen.has (dedupeKey call.id event) ∧
      (s.dispatch dir event call).seen =
        RecentKeys.mark maxSeen seenDrop s.seen (dedupeKey call.id event) ∧
      (s.dispatch dir event call).dispatched = s.dispatched ++
        [{ event := event, call := call.toSnapshot, owners := owners dir call }] ∧
      (s.dispatch dir event call).jobs = s.jobs ∧
      ∀ n, (s.dispatch dir event call).pending.get? n =
        if n = s.dispatched.length ∧ owners dir call ≠ [] then some (owners dir call)
        else s.pending.get? n) := by
  unfold dispatch
  by_cases hid : call.id = ""
  · exact .inl ⟨.inl hid, if_pos hid⟩
  by_cases hseen : s.seen.has (dedupeKey call.id event) = true
  · refine .inl ⟨.inr hseen, ?_⟩
    rw [if_neg hid]
    exact if_pos hseen
  · refine .inr ⟨hid, hseen, ?_⟩
    simp only [if_neg hid, if_neg hseen, markSeen]
    by_cases hown : owners dir call = []
    · rw [if_pos hown]
      refine ⟨rfl, rfl, rfl, fun n => ?_⟩
      rw [if_neg fun h => h.2 hown]
    · rw [if_neg hown]
      refine ⟨rfl, rfl, rfl, fun n => ?_⟩
      simp [OrdMap.get?_set, hown]

theorem DispatchInv.dispatch {db : SharedTables} {s : WebhookDispatcher} (h : DispatchInv db s)
    (dir : Directory) (event : String) (call : CallLog) :
    DispatchInv db (s.dispatch dir event call) := by
  rcases dispatch_cases s dir event call with
    ⟨-, heq⟩ | ⟨-, hnew, hseen, hdispatched, hjobs, hpending⟩
  · rw [heq]
    exact h
  have hkeys : (s.dispatch dir event call).dispatched.map Dispatch.key =
      s.dispatched.map Dispatch.key ++ [dedupeKey call.id event] := by
    rw [hdispatched, List.map_append]
    rfl
  have hlength : (s.dispatch dir event call).dispatched.length = s.dispatched.length + 1 := by
    rw [hdispatched, List.length_append, List.length_singleton]
  have hjobsOf : ∀ n, (s.dispatch dir event call).jobsOf n = s.jobsOf n := fun n => by
    rw [jobsOf, hjobs, jobsOf]
  refine ⟨?_, ?_, ?_, ?_, ?_, ?_⟩
  · rw [hkeys, hseen]
    exact h.memory.mark hnew (by decide)
  · rw [hkeys]
    exact h.spaced.concat h.memory (by decide) hnew
  · intro d hd
    rw [hdispatched] at hd
    rcases List.mem_append.mp hd with hd | hd
    · exact h.owners d hd
    · rw [List.mem_singleton.mp hd]
      exact ⟨nodup_owners dir call, fun hmem => (mem_owners.mp hmem).1 rfl⟩
  · intro n hn
    simp only [OrdMap.has, hpending n] at hn
    rw [hlength]
    split at hn
    · rename_i hlast
      omega
    · exact Nat.lt_succ_of_lt (h.issued n hn)
  · intro e he
    rw [hjobs] at he
    rw [hlength]
    exact Nat.lt_succ_of_lt (h.tagged e he)
  · intro n d hd
    rw [hdispatched] at hd
    rw [hjobsOf, remaining, hpending n]
    rcases List.getElem?_concat_cases hd with ⟨hlt, hd⟩ | ⟨rfl, rfl⟩
    · -- an earlier dispatch goes on as before
      rw [if_neg fun hlast => Nat.ne_of_lt hlt hlast.1]
      exact h.jobs n d hd
    · -- the new one has come to no owner
      refine ⟨[], ?_, [], rfl, h.jobsOf_new⟩
      split
      · rfl
      · rename_i hnil
        have hpend := h.remaining_new
        rw [remaining] at hpend
        rw [hpend, List.append_nil]
        exact not_not.mp fun hne => hnil ⟨rfl, hne⟩

/-- An answered lookup: the owner's jobs are handed out and the owner is done with. -/
theorem resume_spec {s s' : WebhookDispatcher} {number : Nat}
    {lookup : String → List WebhookRecord} {clock : Nat → String}
    (h : s.resume number lookup clock = some s') :
    ∃ owner rest d, s.remaining number = owner :: rest ∧ s.dispatched[number]? = some d ∧
      s'.seen = s.seen ∧ s'.dispatched = s.dispatched ∧
      s'.jobs = s.jobs ++ (((lookup owner).filter d.subscribed).mapIdx fun k hook =>
        d.job owner (clock k) hook).map (number, ·) ∧
      (∀ n, s'.pending.has n → s.pending.has n) ∧
      ∀ n, s'.remaining n = if n = number then rest else s.remaining n := by
  unfold resume at h
  split at h
  · rename_i owner rest d hpending hd
    cases h
    refine ⟨owner, rest, d, by rw [remaining, hpending]; rfl, hd, rfl, rfl, ?_, ?_, ?_⟩
    · exact congrArg _ (List.ext_getElem? fun k => by simp [Function.comp_def])
    · intro n hn
      dsimp only at hn
      by_cases hnn : n = number
      · subst hnn
        rw [OrdMap.has, hpending]
        rfl
      · split at hn
        · simpa [OrdMap.has, OrdMap.get?_delete, hnn] using hn
        · simpa [OrdMap.has, OrdMap.get?_set, hnn] using hn
    · intro n
      by_cases hrest : rest = []
      · simp only [remaining, if_pos hrest, OrdMap.get?_delete]
        split
        · rw [hrest, Option.getD_none]
        · rfl
      · simp only [remaining, if_neg hrest, OrdMap.get?_set]
        split <;> rfl
  · cases h

/-- The jobs of one dispatch among the jobs of another, or of itself. -/
private theorem filterMap_tagged (n number : Nat) (jobs : List WebhookDeliverJob) :
    ((jobs.map (number, ·)).filterMap fun e => if e.1 = n then some e.2 else none) =
      if number = n then jobs else [] := by
  rw [List.filterMap_map]
  by_cases hn : number = n <;> simp [hn]

/-- Jobs for some rows, and then for others. -/
theorem OneJobEach.append {d : Dispatch} {rows rows' : List WebhookRow}
    {jobs jobs' : List WebhookDeliverJob} (h : OneJobEach d rows jobs)
    (h' : OneJobEach d rows' jobs') : OneJobEach d (rows ++ rows') (jobs ++ jobs') := by
  obtain ⟨stamped, rfl, rfl⟩ := h
  obtain ⟨stamped', rfl, rfl⟩ := h'
  exact ⟨stamped ++ stamped', List.map_append, List.map_append.symm⟩

/-- The jobs for the answer of a successful lookup. -/
theorem oneJobEach_lookup (db : SharedTables) (d : Dispatch) {owner : String} (ho : owner ≠ "")
    (clock : Nat → String) :
    OneJobEach d (rowsOf db d owner)
      (((db.getWebhooksForOwner owner).filter d.subscribed).mapIdx fun k hook =>
        d.job owner (clock k) hook) := by
  refine ⟨(rowsOf db d owner).mapIdx fun k r => (r, clock k), ?_, ?_⟩
  · exact List.ext_getElem? fun n => by simp [Function.comp_def]
  · rw [lookup_subscribed db d ho]
    refine List.ext_getElem? fun n => ?_
    rw [List.getElem?_map, List.getElem?_mapIdx, List.getElem?_mapIdx, List.getElem?_map]
    cases hr : (rowsOf db d owner)[n]? with
    | none => rfl
    | some r =>
      -- the row belongs to the owner that was looked up
      have howner : r.ownerExtension = owner := by
        have hmem := List.mem_filter.mp (List.mem_of_getElem? hr)
        simp only [decide_eq_true_eq] at hmem
        exact hmem.2.2.1
      simp [howner]

theorem DispatchInv.lookup {db : SharedTables} {s s' : WebhookDispatcher}
    (h : DispatchInv db s) {number : Nat} {clock : Nat → String}
    (hs : s.resume number db.getWebhooksForOwner clock = some s') : DispatchInv db s' := by
  obtain ⟨owner, rest, d, hremaining, hd, hseen, hdispatched, hjobs, hpending, hrest⟩ :=
    resume_spec hs
  have hlt : number < s.dispatched.length := (List.getElem?_eq_some_iff.mp hd).1
  refine ⟨?_, ?_, ?_, ?_, ?_, ?_⟩
  · rw [hdispatched, hseen]
    exact h.memory
  · rw [hdispatched]
    exact h.spaced
  · rw [hdispatched]
    exact h.owners
  · intro n hn
    rw [hdispatched]
    exact h.issued n (hpending n hn)
  · intro e he
    rw [hdispatched]
    rw [hjobs] at he
    rcases List.mem_append.mp he with he | he
    · exact h.tagged e he
    · obtain ⟨job, -, rfl⟩ := List.mem_map.mp he
      exact hlt
  · intro n d' hd'
    rw [hdispatched] at hd'
    obtain ⟨done, hdone, hold⟩ := h.jobs n d' hd'
    rw [hrest n, jobsOf, hjobs, List.filterMap_append]
    -- the lookup adds one job for each webhook of its owner, to its own dispatch only
    by_cases hn : n = number
    · subst hn
      cases hd.symm.trans hd'
      rw [hremaining] at hdone
      have ho : owner ≠ "" := fun hempty =>
        (h.owners d (List.mem_of_getElem? hd)).2 (hdone ▸ by simp [hempty])
      refine ⟨done ++ [owner], ?_, ?_⟩
      · rw [if_pos rfl, hdone, List.append_assoc, List.singleton_append]
      · rw [List.flatMap_append, List.flatMap_singleton]
        refine hold.append ?_
        rw [filterMap_tagged, if_pos rfl]
        exact oneJobEach_lookup db d ho clock
    · refine ⟨done, by rw [if_neg hn, hdone], ?_⟩
      rw [filterMap_tagged, if_neg (Ne.symm hn), List.append_nil]
      exact hold

/-! ## Runs -/

/-- What an event asks to dispatch. -/
structure Change where
  call : CallLog
  dir : Directory
  event : String

/-- The change that an upsert or an audit entry reports. -/
def changeOf : DispatchEvent → Option Change
  | .callUpserted call dir => some { call := call, dir := dir, event := statusEvent call.status }
  | .auditEntry e calls dir =>
    (auditEvent e.event).bind fun event =>
      if truthy e.callId then
        let callId := e.callId.getD ""
        some { call := auditCall e callId (calls.find? (·.id = callId)), dir := dir, event := event }
      else none
  | _ => none

theorem colonless_changeOf {e : DispatchEvent} {c : Change} (h : changeOf e = some c) :
    Colonless c.event := by
  cases e with
  | callUpserted call dir =>
    cases h
    exact colonless_statusEvent _
  | auditEntry e calls dir =>
    obtain ⟨event, hevent, hif⟩ := Option.bind_eq_some_iff.mp h
    split at hif
    · cases hif
      exact colonless_auditEvent hevent
    · cases hif
  | _ => cases h

/-- The lookups of a step, if any, succeed. -/
def LookupOk : DispatchEvent → Prop
  | .lookupFails _ => False
  | _ => True

/-- A step dispatches the change it reports, or answers a lookup. -/
theorem step_cases {db : SharedTables} {s s' : WebhookDispatcher} {e : DispatchEvent}
    (h : step db s e = some s') (hok : LookupOk e) :
    (∃ c, changeOf e = some c ∧ s' = s.dispatch c.dir c.event c.call) ∨
    (changeOf e = none ∧ s' = s) ∨
    (changeOf e = none ∧ ∃ number clock,
      s.resume number db.getWebhooksForOwner clock = some s') := by
  cases e with
  | callUpserted call dir => exact .inl ⟨_, rfl, (Option.some.inj h).symm⟩
  | auditEntry e calls dir =>
    simp only [step, onAuditEntry, Option.some.injEq] at h
    simp only [changeOf]
    cases hevent : auditEvent e.event with
    | none =>
      simp only [hevent] at h
      exact .inr (.inl ⟨rfl, h.symm⟩)
    | some event =>
      simp only [hevent] at h
      by_cases hid : truthy e.callId = true
      · rw [if_pos hid] at h
        refine .inl ⟨_, by rw [Option.bind_some, if_pos hid], h.symm⟩
      · rw [if_neg hid] at h
        exact .inr (.inl ⟨by rw [Option.bind_some, if_neg hid], h.symm⟩)
  | lookupSucceeds number clock => exact .inr (.inr ⟨rfl, number, clock, h⟩)
  | lookupFails number => exact hok.elim

theorem DispatchInv.step {db : SharedTables} {s s' : WebhookDispatcher} {e : DispatchEvent}
    (h : DispatchInv db s) (hs : step db s e = some s') (hok : LookupOk e) :
    DispatchInv db s' := by
  rcases step_cases hs hok with ⟨c, -, rfl⟩ | ⟨-, rfl⟩ | ⟨-, number, clock, hres⟩
  · exact h.dispatch c.dir c.event c.call
  · exact h
  · exact h.lookup hres

/-- What a step adds to the dispatches comes from the change it reports. -/
theorem dispatched_step {db : SharedTables} {s s' : WebhookDispatcher} {e : DispatchEvent}
    (hs : step db s e = some s') (hok : LookupOk e) :
    s'.dispatched = s.dispatched ∨ ∃ c, changeOf e = some c ∧ s'.dispatched = s.dispatched ++
      [{ event := c.event, call := c.call.toSnapshot, owners := owners c.dir c.call }] := by
  rcases step_cases hs hok with ⟨c, hc, rfl⟩ | ⟨-, rfl⟩ | ⟨-, number, clock, hres⟩
  · rcases dispatch_cases s c.dir c.event c.call with ⟨-, heq⟩ | ⟨-, -, -, hdispatched, -⟩
    · exact .inl (by rw [heq])
    · exact .inr ⟨c, hc, hdispatched⟩
  · exact .inl rfl
  · obtain ⟨-, -, -, -, -, -, hdispatched, -⟩ := resume_spec hres
    exact .inl hdispatched

/-- The names of all dispatched events are without a colon. -/
def ColonlessLog (s : WebhookDispatcher) : Prop := ∀ d ∈ s.dispatched, Colonless d.event

theorem ColonlessLog.step {db : SharedTables} {s s' : WebhookDispatcher} {e : DispatchEvent}
    (h : ColonlessLog s) (hs : step db s e = some s') (hok : LookupOk e) : ColonlessLog s' := by
  rcases dispatched_step hs hok with heq | ⟨c, hc, heq⟩
  · intro d hd
    exact h d (heq ▸ hd)
  · intro d hd
    rw [heq] at hd
    rcases List.mem_append.mp hd with hd | hd
    · exact h d hd
    · rw [List.mem_singleton.mp hd]
      exact colonless_changeOf hc

/-- After a step the pair of the change it reports is among the dispatches. -/
theorem dispatched_change {db : SharedTables} {s s' : WebhookDispatcher} {e : DispatchEvent}
    (h : DispatchInv db s) (hlog : ColonlessLog s) (hs : step db s e = some s')
    (hok : LookupOk e) {c : Change} (hc : changeOf e = some c) (hid : c.call.id ≠ "") :
    ∃ d ∈ s'.dispatched, d.pair = (c.call.id, c.event) := by
  rcases step_cases hs hok with ⟨c', hc', rfl⟩ | ⟨hnone, -⟩ | ⟨hnone, -⟩
  · cases hc.symm.trans hc'
    rcases dispatch_cases s c.dir c.event c.call with ⟨hrep, heq⟩ | ⟨-, -, -, hdispatched, -⟩
    · -- a repetition has the key of a dispatch, which is the pair's own
      have hseen := hrep.resolve_left hid
      obtain ⟨k, -, hkeys, -⟩ := h.memory.suffix
      rw [← RecentKeys.mem_keys_iff, hkeys] at hseen
      obtain ⟨d, hd, hkey⟩ := List.mem_map.mp (List.mem_of_mem_drop hseen)
      obtain ⟨hcall, hevent⟩ := dedupeKey_inj (hlog d hd) (colonless_changeOf hc) hkey
      exact ⟨d, by rw [heq]; exact hd, Prod.ext hcall hevent⟩
    · exact ⟨_, hdispatched ▸ List.mem_append_right _ (List.mem_singleton_self _), rfl⟩
  · cases hnone.symm.trans hc
  · cases hnone.symm.trans hc

/-- What a run leaves: the invariant, the dispatches of the changes it reports, and no others. -/
structure Ran (db : SharedTables) (es : List DispatchEvent) (s s' : WebhookDispatcher) :
    Prop where
  inv : DispatchInv db s'
  prefixed : s.dispatched <+: s'.dispatched
  dispatched : ∀ c ∈ es.filterMap changeOf, c.call.id ≠ "" →
    ∃ d ∈ s'.dispatched, d.pair = (c.call.id, c.event)
  reported : ∀ d ∈ s'.dispatched, d ∈ s.dispatched ∨ ∃ c ∈ es.filterMap changeOf,
    d = { event := c.event, call := c.call.toSnapshot, owners := owners c.dir c.call }

theorem ran {db : SharedTables} {es : List DispatchEvent} {s s' : WebhookDispatcher}
    (h : DispatchInv db s) (hlog : ColonlessLog s) (hok : ∀ e ∈ es, LookupOk e)
    (hrun : Machine.run (step db) s es = some s') : Ran db es s s' := by
  induction es generalizing s with
  | nil =>
    simp only [Machine.run, Option.some.injEq] at hrun
    subst hrun
    exact ⟨h, List.prefix_rfl, fun c hc => absurd hc List.not_mem_nil, fun d hd => .inl hd⟩
  | cons e es ih =>
    obtain ⟨t, ht, hrest⟩ := Machine.run_cons.mp hrun
    have hoke := hok e List.mem_cons_self
    have r := ih (h.step ht hoke) (hlog.step ht hoke)
      (fun e he => hok e (List.mem_cons_of_mem _ he)) hrest
    refine ⟨r.inv, ?_, ?_, ?_⟩
    · refine List.IsPrefix.trans ?_ r.prefixed
      rcases dispatched_step ht hoke with heq | ⟨c, -, heq⟩
      · exact heq ▸ List.prefix_rfl
      · exact heq ▸ List.prefix_append ..
    · intro c hc hid
      rw [List.filterMap_cons] at hc
      cases hce : changeOf e with
      | none =>
        simp only [hce] at hc
        exact r.dispatched c hc hid
      | some c' =>
        simp only [hce] at hc
        rcases List.mem_cons.mp hc with rfl | hc
        · obtain ⟨d, hd, hpair⟩ := dispatched_change h hlog ht hoke hce hid
          exact ⟨d, r.prefixed.subset hd, hpair⟩
        · exact r.dispatched c hc hid
    · intro d hd
      have hmono : ∀ c ∈ es.filterMap changeOf, c ∈ (e :: es).filterMap changeOf := fun c hc => by
        rw [List.filterMap_cons]
        split
        · exact hc
        · exact List.mem_cons_of_mem _ hc
      rcases r.reported d hd with hd | ⟨c, hc, rfl⟩
      · rcases dispatched_step ht hoke with heq | ⟨c, hc, heq⟩
        · exact .inl (heq ▸ hd)
        · rw [heq] at hd
          rcases List.mem_append.mp hd with hd | hd
          · exact .inl hd
          · refine .inr ⟨c, ?_, List.mem_singleton.mp hd⟩
            rw [List.filterMap_cons, hc]
            exact List.mem_cons_self
      · exact .inr ⟨c, hmono c hc, rfl⟩

/-- Spacing told by keys gives spacing told by pairs. -/
theorem spaced_pairs {n : Nat} {log : List Dispatch}
    (h : RecentKeys.Spaced n (log.map Dispatch.key)) :
    RecentKeys.Spaced n (log.map Dispatch.pair) := by
  have hkey : log.map Dispatch.key =
      (log.map Dispatch.pair).map fun p => dedupeKey p.1 p.2 := by
    rw [List.map_map]
    rfl
  rw [hkey] at h
  intro i j p hij hi hj
  have hlt := h i j (dedupeKey p.1 p.2) hij (by rw [List.getElem?_map, hi]; rfl)
    (by rw [List.getElem?_map, hj]; rfl)
  rw [← List.map_take, ← List.map_drop] at hlt
  refine hlt.trans_le ?_
  -- equal pairs have equal keys, so there are no fewer pairs
  generalize ((log.map Dispatch.pair).take j).drop (i + 1) = l
  have hsub : (l.map fun p => dedupeKey p.1 p.2).dedup ⊆
      l.dedup.map fun p => dedupeKey p.1 p.2 := by
    intro k hk
    obtain ⟨p, hp, rfl⟩ := List.mem_map.mp (List.mem_dedup.mp hk)
    exact List.mem_map_of_mem (List.mem_dedup.mpr hp)
  have hle := (List.subperm_of_subset (List.nodup_dedup _) hsub).length_le
  rwa [List.length_map] at hle

/-- Whatever changes and answers come, when the lookups succeed: every change with a call id
    has been dispatched; a dispatch that has come to its end has handed out one job for every
    enabled row that belongs to an owner of a leg of its call and is subscribed, and no job
    belongs to another dispatch; between two dispatches of one pair lie more than 9000
    distinct pairs; and the memory keeps to its bound. -/
theorem webhooks_dispatched (db : SharedTables) (es : List DispatchEvent)
    (s : WebhookDispatcher) (hok : ∀ e ∈ es, LookupOk e)
    (hrun : Machine.run (step db) init es = some s) :
    (∀ c ∈ es.filterMap changeOf, c.call.id ≠ "" →
      ∃ d ∈ s.dispatched, d.pair = (c.call.id, c.event)) ∧
    (∀ (n : Nat) (d : Dispatch), s.dispatched[n]? = some d → s.pending.get? n = none →
      ∃ c ∈ es.filterMap changeOf, d.call = c.call.toSnapshot ∧ d.event = c.event ∧
        ∃ rows : List WebhookRow, OneJobEach d rows (s.jobsOf n) ∧
          rows.Perm (db.webhooks.filter fun r =>
            (r.enabled ∧ d.subscribed (rowToWebhook r)) ∧
              OwnsLeg c.dir c.call r.ownerExtension)) ∧
    (∀ e ∈ s.jobs, e.1 < s.dispatched.length) ∧
    RecentKeys.Spaced 9000 (s.dispatched.map Dispatch.pair) ∧
    s.seen.size ≤ 10000 := by
  have r := ran (dispatchInv_init db) (fun d hd => absurd hd List.not_mem_nil) hok hrun
  refine ⟨r.dispatched, ?_, r.inv.tagged, spaced_pairs r.inv.spaced, r.inv.memory.bounded⟩
  intro n d hd hdone
  obtain ⟨done, howners, hjobs⟩ := r.inv.jobs n d hd
  rw [remaining, hdone, Option.getD_none, List.append_nil] at howners
  subst howners
  obtain ⟨c, hc, hdc⟩ := (r.reported d (List.mem_of_getElem? hd)).resolve_left List.not_mem_nil
  refine ⟨c, hc, by rw [hdc], by rw [hdc], _, hjobs, ?_⟩
  have hperm := flatMap_filter_perm WebhookRow.ownerExtension
    (fun r => r.enabled ∧ d.subscribed (rowToWebhook r)) db.webhooks
    (r.inv.owners d (List.mem_of_getElem? hd)).1
  refine .trans (.of_eq ?_) (hperm.trans (.of_eq ?_))
  · have hrows : rowsOf db d = fun o => db.webhooks.filter fun r =>
        decide (r.enabled ∧ d.subscribed (rowToWebhook r)) ∧ r.ownerExtension = o := by
      refine funext fun o => List.filter_congr fun r _ => ?_
      grind
    rw [hrows]
  · refine List.filter_congr fun r _ => ?_
    have hmem : r.ownerExtension ∈ d.owners ↔ OwnsLeg c.dir c.call r.ownerExtension := by
      rw [hdc]
      exact mem_owners
    simp [hmem]

/-- A webhook of extension 100 for all events, a disabled one, and one for missed calls. -/
def threeWebhooks : SharedTables :=
  let row (id : Int) (events : String) (enabled : Bool) : WebhookRow :=
    { id := id, ownerExtension := "100", name := "crm", url := "https://crm.test/hook"
      secret := none, events := some events, enabled := enabled }
  { routingRules := .empty, connectors := [], aiAgents := []
    webhooks := [row 7 "" true, row 8 "" false, row 9 "call.missed" true] }

/-- A call of extension 100 to itself that rings twice, and the answer to its lookup. -/
def ownCall : List DispatchEvent :=
  let call : CallLog :=
    { id := "a:1", fromLeg := "100", toLeg := "100", fromName := "", status := .ringing
      direction := .inbound, startTime := "", fromExt := some "100", toExt := some "100" }
  [.callUpserted call .empty, .callUpserted call .empty, .lookupSucceeds 0 fun _ => "now"]

theorem webhooks_dispatched_ownCall :
    ∃ s, Machine.run (step threeWebhooks) init ownCall = some s ∧
      s.dispatched.map Dispatch.pair = [("a:1", "call.ringing")] ∧ s.pending.get? 0 = none ∧
      (∀ e ∈ s.jobs, e.1 = 0) ∧ s.seen.size ≤ 10000 := by
  obtain ⟨s, hs⟩ : ∃ s, Machine.run (step threeWebhooks) init ownCall = some s := ⟨_, rfl⟩
  have hone : s.dispatched.map Dispatch.pair = [("a:1", "call.ringing")] ∧
      s.pending.get? 0 = none := by
    cases hs
    exact ⟨by decide, by decide⟩
  obtain ⟨-, -, htagged, -, hbound⟩ :=
    webhooks_dispatched threeWebhooks ownCall s (by simp [ownCall, LookupOk]) hs
  refine ⟨s, hs, hone.1, hone.2, fun e he => ?_, hbound⟩
  have hlength := congrArg List.length hone.1
  rw [List.length_map, List.length_singleton] at hlength
  exact Nat.lt_one_iff.mp (hlength ▸ htagged e he)

end WebhookDispatcher

end CallNet
