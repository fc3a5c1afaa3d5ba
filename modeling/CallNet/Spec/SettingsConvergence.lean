import CallNet.Engine.SettingsMirror
import CallNet.ForStd.Machine

/-!
# Convergence of the settings mirror

Every change of a user's rows is followed by a notification and by a hydration that reads
them.  As long as one of these is due, the user may be out of date; it has the values of its
rows otherwise (`Inv`).  Hydrations overlap, so this holds along the runs in which

- a hydration assigns what is stored at that time, or another one of that user is still due;
- an upsert leaves no key behind that leads to a user whose own key it takes over.
-/

namespace CallNet

open Machine (Meets Throughout)

/-- A part of a user that is assigned from one table. -/
inductive DetailPart where
  | blocked
  | forwarding
  | pstn
  | balance
deriving DecidableEq, Repr

/-- The target that the last row of a type leaves. -/
def forwardTarget (type : String) (rows : List (String × ForwardingRow))
    (target : Option String) : Option String :=
  rows.foldl (fun target row =>
    if row.2.type = type then row.2.target.filter (· ≠ "") else target) target

/-- The user has the values of the rows of its extension. -/
def MirroredUser.Has (user : MirroredUser) (db : SettingsDb) (prepaid : Bool) :
    DetailPart → Prop
  | .blocked => user.blockedNumbers = (rowsOf user.extension db.blocked).map Prod.snd
  | .forwarding =>
    let rows := rowsOf user.extension db.forwarding
    user.forwardOnBusy = forwardTarget "busy" rows none ∧
    user.forwardOnNoAnswer = forwardTarget "noAnswer" rows none ∧
    user.forwardOnUnavailable = forwardTarget "unavailable" rows none
  | .pstn =>
    let row := db.pstn.get? user.extension
    user.pstnForwardToBrowser = (row.map PstnRow.pstnEnabled).getD false ∧
    user.pstnForwardTarget = (row.bind PstnRow.pstnMobile).filter (· ≠ "") ∧
    user.dnd = (row.map PstnRow.dnd).getD false ∧
    user.ratePlanId = row.bind PstnRow.ratePlanId ∧
    user.outboundCallerId = row.bind PstnRow.outboundCallerId
  | .balance =>
    let row := if prepaid then db.balances.get? user.extension else none
    user.balance = row.map BalanceRow.balance ∧
    user.balanceCurrency = (row.map BalanceRow.currency).filter (· ≠ "")

namespace SettingsMirror

/-- The object is the one that routing finds for its extension. -/
structure Current (s : SettingsMirror) (ref : Nat) (user : MirroredUser) : Prop where
  object : s.heap[ref]? = some user
  found : s.users.get? user.extension = some ref

/-! ## What is due -/

/-- The hydration is going to assign to this object. -/
def Writes (h : Hydration) (ref : Nat) : Prop :=
  match h.scope with
  | .user _ held => held = ref
  | .all => True

/-- The hydration is going to assign the part to the user of this extension. -/
structure Pending (s : SettingsMirror) (h : Hydration) (extension : String)
    (part : DetailPart) : Prop where
  scope : ∀ held ref, h.scope = .user held ref →
    held = extension ∧ s.users.get? extension = some ref
  early : part ≠ .balance → h.assigned = false
  /-- A full hydration clears the balances first and then sets those that it reads. -/
  late : part = .balance → h.scope = .all → h.assigned = true →
    match h.balances with
    | none => s.db.balances.get? extension ≠ none
    | some rows => rowsOf extension rows ≠ []

/-- A notification, or a hydration other than `except`, is going to assign the part. -/
def Due (s : SettingsMirror) (except : Nat → Prop) (extension : String)
    (part : DetailPart) : Prop :=
  extension ∈ s.notifications ∨
    ∃ id h, s.hydrations id = some h ∧ ¬ except id ∧ s.Pending h extension part

/-- Users have the values of their rows, or a hydration is due. -/
structure Inv (s : SettingsMirror) : Prop where
  keys : ∀ key ref, s.users.get? key = some ref → ∃ user, s.Current ref user
  right : ∀ ref user, s.Current ref user → ∀ part,
    user.Has s.db s.prepaidEnabled part ∨ s.Due (fun _ => False) user.extension part
  billed : ∀ id h, s.hydrations id = some h → h.assigned = true → s.prepaidEnabled = true

/-! ## The property and its condition -/

/-- Nothing is in flight. -/
structure Quiet (s : SettingsMirror) : Prop where
  notifications : s.notifications = []
  hydrations : ∀ id, s.hydrations id = none

/-- Once every change has been notified and no hydration is in flight, every user that is
    found has exactly the values of its rows. -/
def Converged (s : SettingsMirror) : Prop :=
  s.Quiet → ∀ key user, s.getUser key = some user →
    ∀ part, user.Has s.db s.prepaidEnabled part

/-- The rows that an assignment to the object `ref` uses. -/
def appliedTo (s : SettingsMirror) (h : Hydration) (ref : Nat) (rows : List (String × ρ)) :
    List (String × ρ) :=
  match h.scope with
  | .user _ _ => rows
  | .all => rows.filter fun row => s.users.get? row.1 = some ref

/-- What is assigned to the object is what is stored for the extension. -/
def Brings (s : SettingsMirror) (h : Hydration) (ref : Nat) (extension : String) :
    DetailPart → Prop
  | .blocked => ∀ rows, h.blocked = some rows →
      s.appliedTo h ref rows = rowsOf extension s.db.blocked
  | .forwarding => ∀ rows, h.forwarding = some rows →
      s.appliedTo h ref rows = rowsOf extension s.db.forwarding
  | .pstn => ∀ rows, h.pstn = some rows →
      s.appliedTo h ref rows = rowsOf extension s.db.pstn.entries
  | .balance => ∀ rows, h.balances = some rows →
      s.appliedTo h ref rows = rowsOf extension s.db.balances.entries ∨
        h.scope = .all ∧ s.appliedTo h ref rows = []

/-- An upsert sets every key of a user whose extension it sets. -/
def LeavesNoAlias (s : SettingsMirror) (row : DbUser) : Prop :=
  ∀ key user, s.getUser key = some user → key ≠ row.extension → key ≠ row.username →
    user.extension ≠ row.extension ∧ user.extension ≠ row.username

/-- Every upsert of a list does. -/
def LeaveNoAlias (s : SettingsMirror) : List DbUser → Prop
  | [] => True
  | row :: rows => s.LeavesNoAlias row ∧ LeaveNoAlias (s.upsertUser row) rows

/-- The conditions on a step. -/
def Covered (s : SettingsMirror) : SettingsEvent → Prop
  | .syncUser _ row => s.LeavesNoAlias row
  | .hydrateAll _ rows => s.LeaveNoAlias rows
  | .assign id => ∀ h ref user, s.hydrations id = some h → s.Current ref user → Writes h ref →
      ∀ part, part ≠ .balance →
        s.Brings h ref user.extension part ∨ s.Due (· = id) user.extension part
  | .readBalances id answered => answered = true ∨ ∀ h ref user, s.hydrations id = some h →
      h.scope = .all → s.Current ref user →
        user.Has s.db s.prepaidEnabled .balance ∨ s.Due (· = id) user.extension .balance
  | .assignBalances id => ∀ h ref user, s.hydrations id = some h → s.Current ref user →
      Writes h ref →
        s.Brings h ref user.extension .balance ∨ s.Due (· = id) user.extension .balance
  | .fail id => ∀ h ref user, s.hydrations id = some h → s.Current ref user → Writes h ref →
      ∀ part, user.Has s.db s.prepaidEnabled part ∨ s.Due (· = id) user.extension part
  | _ => True

end SettingsMirror

/-! ## Rows -/

theorem rowsOf_rowsOfOthers {extension other : String} (rows : List (String × ρ))
    (hne : extension ≠ other) : rowsOf extension (rowsOfOthers other rows) = rowsOf extension rows := by
  rw [rowsOf, rowsOf, rowsOfOthers, List.filter_filter]
  congr 1
  funext row
  by_cases h : row.1 = extension
  · have hother : row.1 ≠ other := h ▸ hne
    simp [h, hne]
  · simp [h]

/-- A row is found where the rows of its extension are. -/
theorem get?_eq_head_rowsOf (m : OrdMap String ρ) (extension : String) :
    m.get? extension = (rowsOf extension m.entries).head?.map Prod.snd := by
  rw [rowsOf, List.head?_filter]
  rfl

theorem SettingsDb.ChangesOnly.rows {db db' : SettingsDb} {extension other : String}
    (h : db.ChangesOnly db' other) (hne : extension ≠ other) :
    rowsOf extension db'.blocked = rowsOf extension db.blocked ∧
    rowsOf extension db'.forwarding = rowsOf extension db.forwarding ∧
    db'.pstn.get? extension = db.pstn.get? extension ∧
    db'.balances.get? extension = db.balances.get? extension := by
  have same : ∀ {ρ : Type} (rows rows' : List (String × ρ)),
      rowsOfOthers other rows' = rowsOfOthers other rows →
        rowsOf extension rows' = rowsOf extension rows := by
    intro ρ rows rows' heq
    rw [← rowsOf_rowsOfOthers rows' hne, heq, rowsOf_rowsOfOthers rows hne]
  refine ⟨same _ _ h.blocked, same _ _ h.forwarding, ?_, ?_⟩
  · rw [get?_eq_head_rowsOf, get?_eq_head_rowsOf, same _ _ h.pstn]
  · rw [get?_eq_head_rowsOf, get?_eq_head_rowsOf, same _ _ h.balances]

/-! ## What is assigned to one object -/

theorem foldl_pushBlocked (rows : List (String × String)) (user : MirroredUser) :
    rows.foldl (fun user row => user.pushBlocked row.2) user =
      { user with blockedNumbers := user.blockedNumbers ++ rows.map Prod.snd } := by
  induction rows generalizing user with
  | nil => simp
  | cons row rows ih =>
    rw [List.foldl_cons, ih]
    simp [MirroredUser.pushBlocked]

theorem foldl_applyForwardingRow (rows : List (String × ForwardingRow)) (user : MirroredUser) :
    rows.foldl (fun user row => user.applyForwardingRow row.2) user =
      { user with
        forwardOnBusy := forwardTarget "busy" rows user.forwardOnBusy
        forwardOnNoAnswer := forwardTarget "noAnswer" rows user.forwardOnNoAnswer
        forwardOnUnavailable := forwardTarget "unavailable" rows user.forwardOnUnavailable } := by
  induction rows generalizing user with
  | nil => rfl
  | cons row rows ih =>
    rw [List.foldl_cons, ih]
    simp only [forwardTarget, List.foldl_cons]
    unfold MirroredUser.applyForwardingRow
    by_cases hbusy : row.2.type = "busy"
    · simp [hbusy]
    · by_cases hnoAnswer : row.2.type = "noAnswer"
      · simp [hnoAnswer]
      · by_cases hunavailable : row.2.type = "unavailable"
        · simp [hunavailable]
        · simp [hbusy, hnoAnswer, hunavailable]

/-- Of steps that overwrite what the step before wrote, the last one counts. -/
theorem foldl_overwriting {f : α → β → α} (hf : ∀ a b b', f (f a b) b' = f a b') (a : α)
    (bs : List β) : bs.foldl f a = bs.getLast?.elim a (f a) := by
  induction bs generalizing a with
  | nil => rfl
  | cons b bs ih =>
    rw [List.foldl_cons, ih, List.getLast?_cons]
    cases bs.getLast? with
    | none => rfl
    | some b' => exact hf a b b'

/-- Rows of unique extensions: at most one. -/
theorem rowsOf_entries (m : OrdMap String ρ) (extension : String) :
    rowsOf extension m.entries = ((m.get? extension).map (Prod.mk extension)).toList := by
  obtain ⟨l, hl⟩ := m
  simp only [OrdMap.get?, rowsOf]
  induction l with
  | nil => rfl
  | cons e l ih =>
    rw [List.map_cons, List.nodup_cons] at hl
    by_cases he : e.1 = extension
    · subst he
      have hnone : l.filter (fun row => row.1 = e.1) = [] := by
        rw [List.filter_eq_nil_iff]
        intro row hrow heq
        exact hl.1 (of_decide_eq_true heq ▸ List.mem_map_of_mem hrow)
      simp [hnone]
    · simpa [he] using ih hl.2

namespace SettingsMirror

theorem getElem?_modify_map (heap : List MirroredUser) (held ref : Nat)
    (f : MirroredUser → MirroredUser) :
    (heap.modify held f)[ref]? = heap[ref]?.map fun user => if held = ref then f user else user := by
  rw [List.getElem?_modify]
  rfl

/-- Each loop changes an object by the rows that lead to it. -/
theorem getElem?_applyRows (users : OrdMap String Nat) (f : MirroredUser → ρ → MirroredUser)
    (rows : List (String × ρ)) (heap : List MirroredUser) (ref : Nat) :
    (applyRows users f rows heap)[ref]? = heap[ref]?.map fun user =>
      (rows.filter fun row => users.get? row.1 = some ref).foldl (fun user row => f user row.2)
        user := by
  unfold applyRows
  induction rows generalizing heap with
  | nil => simp
  | cons row rows ih =>
    rw [List.foldl_cons, ih]
    cases hget : users.get? row.1 with
    | none => simp [hget]
    | some held =>
      simp only [getElem?_modify_map, Option.map_map]
      by_cases heq : held = ref
      · subst heq
        simp [hget, Function.comp_def]
      · have hne : some held ≠ some ref := fun h => heq (Option.some.inj h)
        simp [hget, heq, Function.comp_def]

theorem getElem?_reset (refs : List Nat) (heap : List MirroredUser) (ref : Nat) :
    (refs.foldl (fun heap ref => heap.modify ref .resetDetail) heap)[ref]? =
      heap[ref]?.map fun user => if ref ∈ refs then user.resetDetail else user := by
  induction refs generalizing heap with
  | nil => simp
  | cons held refs ih =>
    rw [List.foldl_cons, ih, getElem?_modify_map, Option.map_map]
    congr 1
    funext user
    by_cases heq : held = ref
    · -- resetting twice is resetting once
      subst heq
      by_cases hmem : held ∈ refs
      · simp [hmem, MirroredUser.resetDetail]
      · simp [hmem]
    · have hne : ref ≠ held := Ne.symm heq
      simp [heq, hne]

/-- An object is in the list when it is the only one of its extension. -/
theorem mem_getUsersFrom {heap : List MirroredUser} {ref : Nat} {user : MirroredUser}
    (hobject : heap[ref]? = some user) {seen : List String} {refs : List Nat} (hmem : ref ∈ refs)
    (hseen : user.extension ∉ seen)
    (honly : ∀ ref' ∈ refs, ∀ user', heap[ref']? = some user' → user'.extension = user.extension →
      ref' = ref) : ref ∈ getUsersFrom heap seen refs := by
  induction refs generalizing seen with
  | nil => cases hmem
  | cons held refs ih =>
    have honly' : ∀ ref' ∈ refs, ∀ user', heap[ref']? = some user' →
        user'.extension = user.extension → ref' = ref :=
      fun ref' hmem' => honly ref' (List.mem_cons_of_mem held hmem')
    unfold getUsersFrom
    by_cases heq : held = ref
    · subst heq
      rw [hobject]
      simp [hseen]
    · have hrest : ref ∈ refs := (List.mem_cons.mp hmem).resolve_left (Ne.symm heq)
      cases hheld : heap[held]? with
      | none => exact ih hrest hseen honly'
      | some other =>
        have hother : user.extension ≠ other.extension := fun h =>
          heq (honly held List.mem_cons_self other hheld h.symm)
        simp only
        split
        · exact ih hrest hseen honly'
        · apply List.mem_cons_of_mem
          apply ih hrest _ honly'
          rw [List.mem_cons]
          rintro (h | h)
          · exact hother h
          · exact hseen h

theorem Inv.mem_getUsers {s : SettingsMirror} (h : s.Inv) {ref : Nat} {user : MirroredUser}
    (hcurrent : s.Current ref user) : ref ∈ s.getUsers := by
  apply mem_getUsersFrom hcurrent.object
  · exact OrdMap.mem_values_iff.mpr ⟨user.extension, hcurrent.found⟩
  · exact List.not_mem_nil
  · intro ref' hmem user' hobject heq
    obtain ⟨key, hkey⟩ := OrdMap.mem_values_iff.mp hmem
    obtain ⟨found, hfound⟩ := h.keys key ref' hkey
    -- the object of a key is found under its own extension
    have huser : user' = found := Option.some.inj (hobject.symm.trans hfound.object)
    have hget := hfound.found
    rw [← huser, heq, hcurrent.found, Option.some.injEq] at hget
    exact hget.symm

/-- What an assignment makes of the object `ref`. -/
def assigned (s : SettingsMirror) (scope : HydrationScope) (blocked : List (String × String))
    (forwarding : List (String × ForwardingRow)) (pstn : List (String × PstnRow)) (ref : Nat)
    (user : MirroredUser) : MirroredUser :=
  match scope with
  | .user _ held =>
    if held = ref then
      let user := user.assignDetail blocked forwarding (pstn.head?.map Prod.snd)
      if s.prepaidEnabled then user else user.applyBalance none none
    else user
  | .all =>
    let user := if ref ∈ s.getUsers then user.resetDetail else user
    let user := (blocked.filter fun row => s.users.get? row.1 = some ref).foldl
      (fun user row => user.pushBlocked row.2) user
    let user := (forwarding.filter fun row => s.users.get? row.1 = some ref).foldl
      (fun user row => user.applyForwardingRow row.2) user
    (pstn.filter fun row => s.users.get? row.1 = some ref).foldl
      (fun user row => user.applyPstnRow row.2) user

theorem getElem?_assignHeap (s : SettingsMirror) (scope : HydrationScope)
    (blocked : List (String × String)) (forwarding : List (String × ForwardingRow))
    (pstn : List (String × PstnRow)) (ref : Nat) :
    (s.assignHeap scope blocked forwarding pstn)[ref]? =
      s.heap[ref]?.map (s.assigned scope blocked forwarding pstn ref) := by
  cases scope with
  | user extension held =>
    simp only [assignHeap, getElem?_modify_map]
    rfl
  | all =>
    simp only [assignHeap, getElem?_applyRows, getElem?_reset, Option.map_map]
    rfl

/-- What an assignment of balances makes of the object `ref`. -/
def balanced (s : SettingsMirror) (scope : HydrationScope) (balances : List (String × BalanceRow))
    (ref : Nat) (user : MirroredUser) : MirroredUser :=
  match scope with
  | .user _ held =>
    if held = ref then
      let bal := balances.head?.map Prod.snd
      user.applyBalance (bal.map BalanceRow.balance) (bal.map BalanceRow.currency)
    else user
  | .all =>
    (balances.filter fun row => s.users.get? row.1 = some ref).foldl
      (fun user row => user.applyBalanceRow row.2) user

theorem getElem?_balanceHeap (s : SettingsMirror) (scope : HydrationScope)
    (balances : List (String × BalanceRow)) (ref : Nat) :
    (s.balanceHeap scope balances)[ref]? = s.heap[ref]?.map (s.balanced scope balances ref) := by
  cases scope with
  | user extension held =>
    simp only [balanceHeap, getElem?_modify_map]
    rfl
  | all =>
    simp only [balanceHeap, getElem?_applyRows]
    rfl

/-! ## What an assignment brings -/

theorem assignDetail_eq (user : MirroredUser) (blocked : List (String × String))
    (forwarding : List (String × ForwardingRow)) (pstn : Option PstnRow) :
    user.assignDetail blocked forwarding pstn =
      { user with
        blockedNumbers := blocked.map Prod.snd
        forwardOnBusy := forwardTarget "busy" forwarding none
        forwardOnNoAnswer := forwardTarget "noAnswer" forwarding none
        forwardOnUnavailable := forwardTarget "unavailable" forwarding none
        pstnForwardToBrowser := (pstn.map PstnRow.pstnEnabled).getD false
        pstnForwardTarget := (pstn.bind PstnRow.pstnMobile).filter (· ≠ "")
        dnd := (pstn.map PstnRow.dnd).getD false
        ratePlanId := pstn.bind PstnRow.ratePlanId
        outboundCallerId := pstn.bind PstnRow.outboundCallerId } := by
  unfold MirroredUser.assignDetail
  simp only [foldl_applyForwardingRow, MirroredUser.applyPstn]

/-- The loops of a full hydration, each written out. -/
theorem assigned_all {s : SettingsMirror} {ref : Nat} (hmem : ref ∈ s.getUsers)
    (blocked : List (String × String)) (forwarding : List (String × ForwardingRow))
    (pstn : List (String × PstnRow)) (user : MirroredUser) :
    s.assigned .all blocked forwarding pstn ref user =
      let user : MirroredUser :=
        { user.resetDetail with
          blockedNumbers := (blocked.filter fun row => s.users.get? row.1 = some ref).map Prod.snd
          forwardOnBusy := forwardTarget "busy"
            (forwarding.filter fun row => s.users.get? row.1 = some ref) none
          forwardOnNoAnswer := forwardTarget "noAnswer"
            (forwarding.filter fun row => s.users.get? row.1 = some ref) none
          forwardOnUnavailable := forwardTarget "unavailable"
            (forwarding.filter fun row => s.users.get? row.1 = some ref) none }
      (pstn.filter fun row => s.users.get? row.1 = some ref).getLast?.elim user
        fun row => user.applyPstnRow row.2 := by
  simp only [assigned, if_pos hmem, foldl_pushBlocked, foldl_applyForwardingRow]
  rw [foldl_overwriting]
  · rfl
  · intro a b b'
    rfl

theorem foldl_extension {f : MirroredUser → β → MirroredUser}
    (hf : ∀ user b, (f user b).extension = user.extension) (bs : List β) (user : MirroredUser) :
    (bs.foldl f user).extension = user.extension := by
  induction bs generalizing user with
  | nil => rfl
  | cons b bs ih => rw [List.foldl_cons, ih, hf]

theorem applyForwardingRow_extension (user : MirroredUser) (row : ForwardingRow) :
    (user.applyForwardingRow row).extension = user.extension := by
  simp only [MirroredUser.applyForwardingRow]
  split
  · rfl
  · split
    · rfl
    · split <;> rfl

theorem assigned_extension (s : SettingsMirror) (scope : HydrationScope)
    (blocked : List (String × String)) (forwarding : List (String × ForwardingRow))
    (pstn : List (String × PstnRow)) (ref : Nat) (user : MirroredUser) :
    (s.assigned scope blocked forwarding pstn ref user).extension = user.extension := by
  cases scope with
  | user extension held =>
    simp only [assigned, assignDetail_eq]
    split
    · split <;> rfl
    · rfl
  | all =>
    refine (foldl_extension ?_ _ _).trans ((foldl_extension ?_ _ _).trans
      ((foldl_extension ?_ _ _).trans ?_))
    · exact fun _ _ => rfl
    · exact fun user row => applyForwardingRow_extension user row.2
    · exact fun _ _ => rfl
    · split <;> rfl

theorem balanced_extension (s : SettingsMirror) (scope : HydrationScope)
    (balances : List (String × BalanceRow)) (ref : Nat) (user : MirroredUser) :
    (s.balanced scope balances ref user).extension = user.extension := by
  cases scope with
  | user extension held =>
    simp only [balanced]
    split <;> rfl
  | all =>
    apply foldl_extension
    exact fun _ _ => rfl

/-- A part whose stored rows are the ones that are assigned is right afterwards. -/
theorem has_assigned {s : SettingsMirror} {h : Hydration} {blocked : List (String × String)}
    {forwarding : List (String × ForwardingRow)} {pstn : List (String × PstnRow)} {ref : Nat}
    {user : MirroredUser} (hblocked : h.blocked = some blocked)
    (hforwarding : h.forwarding = some forwarding) (hpstn : h.pstn = some pstn)
    (hwrites : Writes h ref) (hmem : ref ∈ s.getUsers) {part : DetailPart}
    (hpart : part ≠ .balance) (hbrings : s.Brings h ref user.extension part) :
    (s.assigned h.scope blocked forwarding pstn ref user).Has s.db s.prepaidEnabled part := by
  have hextension := assigned_extension s h.scope blocked forwarding pstn ref user
  cases hscope : h.scope with
  | user extension held =>
    have hheld : held = ref := by simpa only [Writes, hscope] using hwrites
    rw [hscope] at hextension
    -- the fields, whether or not the balance is cleared
    cases part with
    | blocked =>
      have hrows := hbrings blocked hblocked
      simp only [appliedTo, hscope] at hrows
      simp only [MirroredUser.Has, hextension, ← hrows]
      simp only [assigned, hheld, if_true, assignDetail_eq]
      split <;> rfl
    | forwarding =>
      have hrows := hbrings forwarding hforwarding
      simp only [appliedTo, hscope] at hrows
      simp only [MirroredUser.Has, hextension, ← hrows]
      simp only [assigned, hheld, if_true, assignDetail_eq]
      split <;> exact ⟨rfl, rfl, rfl⟩
    | pstn =>
      have hrows := hbrings pstn hpstn
      simp only [appliedTo, hscope] at hrows
      simp only [MirroredUser.Has, hextension, get?_eq_head_rowsOf, ← hrows]
      simp only [assigned, hheld, if_true, assignDetail_eq]
      split <;> exact ⟨rfl, rfl, rfl, rfl, rfl⟩
    | balance => exact absurd rfl hpart
  | all =>
    rw [hscope] at hextension
    cases part with
    | blocked =>
      have hrows := hbrings blocked hblocked
      simp only [appliedTo, hscope] at hrows
      simp only [MirroredUser.Has, hextension, ← hrows]
      rw [assigned_all hmem]
      simp only
      cases (pstn.filter _).getLast? <;> rfl
    | forwarding =>
      have hrows := hbrings forwarding hforwarding
      simp only [appliedTo, hscope] at hrows
      simp only [MirroredUser.Has, hextension, ← hrows]
      rw [assigned_all hmem]
      simp only
      cases (pstn.filter _).getLast? <;> exact ⟨rfl, rfl, rfl⟩
    | pstn =>
      have hrows := hbrings pstn hpstn
      simp only [appliedTo, hscope] at hrows
      simp only [MirroredUser.Has, hextension]
      rw [assigned_all hmem]
      simp only [hrows, rowsOf_entries]
      cases s.db.pstn.get? user.extension <;> exact ⟨rfl, rfl, rfl, rfl, rfl⟩
    | balance => exact absurd rfl hpart

/-- A full hydration clears the balance. -/
theorem balance_assigned_all {s : SettingsMirror} {ref : Nat} (hmem : ref ∈ s.getUsers)
    (blocked : List (String × String)) (forwarding : List (String × ForwardingRow))
    (pstn : List (String × PstnRow)) (user : MirroredUser) :
    (s.assigned .all blocked forwarding pstn ref user).balance = none ∧
    (s.assigned .all blocked forwarding pstn ref user).balanceCurrency = none := by
  rw [assigned_all hmem]
  simp only
  cases (pstn.filter _).getLast? <;> exact ⟨rfl, rfl⟩

/-- Without prepaid billing the balance is cleared. -/
theorem has_balance_assigned {s : SettingsMirror} {h : Hydration} {ref : Nat}
    (hprepaid : s.prepaidEnabled = false) (hwrites : Writes h ref) (hmem : ref ∈ s.getUsers)
    (blocked : List (String × String)) (forwarding : List (String × ForwardingRow))
    (pstn : List (String × PstnRow)) (user : MirroredUser) :
    (s.assigned h.scope blocked forwarding pstn ref user).Has s.db s.prepaidEnabled .balance := by
  simp only [MirroredUser.Has, hprepaid, Bool.false_eq_true, if_false]
  cases hscope : h.scope with
  | user extension held =>
    have hheld : held = ref := by simpa only [Writes, hscope] using hwrites
    simp only [assigned, hheld, if_true, hprepaid, Bool.false_eq_true, if_false]
    exact ⟨rfl, rfl⟩
  | all => exact balance_assigned_all hmem blocked forwarding pstn user

/-- With prepaid billing a user's hydration leaves the balance for later. -/
theorem balance_assigned_user {s : SettingsMirror} (hprepaid : s.prepaidEnabled = true)
    (extension : String) (held ref : Nat) (blocked : List (String × String))
    (forwarding : List (String × ForwardingRow)) (pstn : List (String × PstnRow))
    (user : MirroredUser) :
    (s.assigned (.user extension held) blocked forwarding pstn ref user).balance = user.balance ∧
    (s.assigned (.user extension held) blocked forwarding pstn ref user).balanceCurrency =
      user.balanceCurrency := by
  simp only [assigned, hprepaid, if_true, assignDetail_eq]
  split <;> exact ⟨rfl, rfl⟩

/-- A balance whose stored row is the one that is assigned is right afterwards. -/
theorem has_balanced {s : SettingsMirror} {h : Hydration} {balances : List (String × BalanceRow)}
    {ref : Nat} {user : MirroredUser} (hprepaid : s.prepaidEnabled = true)
    (hwrites : Writes h ref)
    (hrows : s.appliedTo h ref balances = rowsOf user.extension s.db.balances.entries)
    (hright : h.scope = .all → s.db.balances.get? user.extension = none →
      user.Has s.db s.prepaidEnabled .balance) :
    (s.balanced h.scope balances ref user).Has s.db s.prepaidEnabled .balance := by
  have hextension := balanced_extension s h.scope balances ref user
  cases hscope : h.scope with
  | user extension held =>
    have hheld : held = ref := by simpa only [Writes, hscope] using hwrites
    rw [hscope] at hextension
    simp only [appliedTo, hscope] at hrows
    simp only [MirroredUser.Has, hprepaid, if_true, hextension, get?_eq_head_rowsOf, ← hrows]
    simp only [balanced, hheld, if_true]
    exact ⟨rfl, rfl⟩
  | all =>
    simp only [appliedTo, hscope] at hrows
    cases hget : s.db.balances.get? user.extension with
    | none =>
      -- there is no row, so nothing is assigned
      have hnone : s.balanced .all balances ref user = user := by
        simp only [balanced, hrows, rowsOf_entries, hget]
        rfl
      rw [hnone]
      exact hright hscope hget
    | some row =>
      rw [hscope] at hextension
      simp only [MirroredUser.Has, hprepaid, if_true, hextension, hget]
      simp only [balanced, hrows, rowsOf_entries, hget]
      exact ⟨rfl, rfl⟩

/-! ## Steps -/

theorem setHydration_self (s : SettingsMirror) (id : Nat) (h : Option Hydration) :
    (s.setHydration id h).hydrations id = h := Function.update_self ..

theorem setHydration_of_ne (s : SettingsMirror) {id id' : Nat} (h : Option Hydration)
    (hne : id' ≠ id) : (s.setHydration id h).hydrations id' = s.hydrations id' :=
  Function.update_of_ne hne ..

/-- What stays due when one hydration goes on. -/
theorem Due.of_frame {s s' : SettingsMirror} {except : Nat → Prop} {extension : String}
    {part : DetailPart} (h : s.Due except extension part) (id : Nat)
    (hn : extension ∈ s.notifications → extension ∈ s'.notifications)
    (hother : ∀ id', id' ≠ id → s'.hydrations id' = s.hydrations id')
    (hpending : ∀ hyd, s.Pending hyd extension part → s'.Pending hyd extension part)
    (hself : ∀ hyd, s.hydrations id = some hyd → ¬ except id → s.Pending hyd extension part →
      s'.Due (fun _ => False) extension part) :
    s'.Due (fun _ => False) extension part := by
  rcases h with hmem | ⟨id', hyd, hhyd, hx, hp⟩
  · exact .inl (hn hmem)
  · by_cases heq : id' = id
    · rw [heq] at hhyd hx
      exact hself hyd hhyd hx hp
    · exact .inr ⟨id', hyd, (hother id' heq).trans hhyd, fun hf => hf, hpending hyd hp⟩

/-- Only what is pending depends on the users found and on the stored balance. -/
theorem Pending.congr {s s' : SettingsMirror} {hyd : Hydration} {extension : String}
    {part : DetailPart} (h : s.Pending hyd extension part)
    (husers : s'.users.get? extension = s.users.get? extension)
    (hbalance : s'.db.balances.get? extension = s.db.balances.get? extension) :
    s'.Pending hyd extension part where
  scope held ref hscope := by
    rw [husers]
    exact h.scope held ref hscope
  early := h.early
  late hpart hscope hassigned := by
    rw [hbalance]
    exact h.late hpart hscope hassigned

theorem Inv.of_objects {s s' : SettingsMirror} (h : s.Inv)
    {g : Nat → MirroredUser → MirroredUser} (husers : s'.users = s.users)
    (hheap : ∀ ref : Nat, s'.heap[ref]? = s.heap[ref]?.map (g ref))
    (hextension : ∀ ref user, (g ref user).extension = user.extension)
    (hright : ∀ ref user, s.Current ref user → ∀ part,
      (g ref user).Has s'.db s'.prepaidEnabled part ∨
        s'.Due (fun _ => False) user.extension part)
    (hbilled : ∀ id hyd, s'.hydrations id = some hyd → hyd.assigned = true →
      s'.prepaidEnabled = true) : s'.Inv where
  keys key ref hget := by
    rw [husers] at hget
    obtain ⟨user, hcurrent⟩ := h.keys key ref hget
    refine ⟨g ref user, ?_, ?_⟩
    · rw [hheap, hcurrent.object, Option.map_some]
    · rw [husers, hextension]
      exact hcurrent.found
  right ref user' hcurrent part := by
    have hobject := hcurrent.object
    have hfound := hcurrent.found
    rw [hheap, Option.map_eq_some_iff] at hobject
    obtain ⟨user, huser, rfl⟩ := hobject
    rw [husers, hextension] at hfound
    rw [hextension]
    exact hright ref user ⟨huser, hfound⟩ part
  billed := hbilled

/-- Steps that leave the users and the stored rows alone. -/
theorem Inv.of_frame {s s' : SettingsMirror} (h : s.Inv) (husers : s'.users = s.users)
    (hheap : s'.heap = s.heap) (hdb : s'.db = s.db) (hprepaid : s'.prepaidEnabled = s.prepaidEnabled)
    (hright : ∀ ref user, s.Current ref user → ∀ part,
      s.Due (fun _ => False) user.extension part →
        user.Has s.db s.prepaidEnabled part ∨ s'.Due (fun _ => False) user.extension part)
    (hbilled : ∀ id hyd, s'.hydrations id = some hyd → hyd.assigned = true →
      s'.prepaidEnabled = true) : s'.Inv := by
  apply h.of_objects (g := fun _ user => user) husers
  · intro ref
    rw [hheap, Option.map_id']
  · exact fun _ _ => rfl
  · intro ref user hcurrent part
    rw [hdb, hprepaid]
    rcases h.right ref user hcurrent part with hhas | hdue
    · exact .inl hhas
    · exact hright ref user hcurrent part hdue
  · exact hbilled

/-! ### Commits and notifications -/

theorem Has.of_rows {user : MirroredUser} {db db' : SettingsDb} {prepaid : Bool}
    {part : DetailPart} {extension : String} (hchanges : db.ChangesOnly db' extension)
    (hne : user.extension ≠ extension) (h : user.Has db prepaid part) :
    user.Has db' prepaid part := by
  obtain ⟨hblocked, hforwarding, hpstn, hbalances⟩ := hchanges.rows hne
  cases part with
  | blocked =>
    simp only [MirroredUser.Has] at h ⊢
    rw [hblocked]
    exact h
  | forwarding =>
    simp only [MirroredUser.Has] at h ⊢
    rw [hforwarding]
    exact h
  | pstn =>
    simp only [MirroredUser.Has] at h ⊢
    rw [hpstn]
    exact h
  | balance =>
    simp only [MirroredUser.Has] at h ⊢
    rw [hbalances]
    exact h

theorem Inv.commit {s : SettingsMirror} (h : s.Inv) {extension : String} {db : SettingsDb}
    (hchanges : s.db.ChangesOnly db extension) :
    Inv { s with db, notifications := s.notifications ++ [extension] } := by
  apply h.of_objects (g := fun _ user => user)
  · rfl
  · intro ref
    rw [Option.map_id']
  · exact fun _ _ => rfl
  · intro ref user hcurrent part
    by_cases heq : user.extension = extension
    · -- the change is notified
      exact .inr (.inl (heq ▸ List.mem_append_right _ List.mem_cons_self))
    · rcases h.right ref user hcurrent part with hhas | hmem | ⟨id, hyd, hhyd, hx, hp⟩
      · exact .inl (Has.of_rows hchanges heq hhas)
      · exact .inr (.inl (List.mem_append_left _ hmem))
      · have hbalances := (hchanges.rows heq).2.2.2
        exact .inr (.inr ⟨id, hyd, hhyd, hx, hp.congr rfl hbalances⟩)
  · exact h.billed

theorem hydrateUserDetail_frame (s : SettingsMirror) (id : Nat) (extension : String) :
    (s.hydrateUserDetail id extension).users = s.users ∧
    (s.hydrateUserDetail id extension).heap = s.heap ∧
    (s.hydrateUserDetail id extension).db = s.db ∧
    (s.hydrateUserDetail id extension).prepaidEnabled = s.prepaidEnabled ∧
    (s.hydrateUserDetail id extension).notifications = s.notifications := by
  unfold hydrateUserDetail
  split <;> exact ⟨rfl, rfl, rfl, rfl, rfl⟩

theorem hydrateUserDetail_of_ne (s : SettingsMirror) {id id' : Nat} (extension : String)
    (hne : id' ≠ id) :
    (s.hydrateUserDetail id extension).hydrations id' = s.hydrations id' := by
  unfold hydrateUserDetail
  split
  · exact setHydration_of_ne s _ hne
  · rfl

/-- A hydration that begins is due for all parts of its user. -/
theorem due_hydrateUserDetail {s : SettingsMirror} {extension : String} {ref : Nat}
    (hget : s.users.get? extension = some ref) (id : Nat) (part : DetailPart) :
    (s.hydrateUserDetail id extension).Due (fun _ => False) extension part := by
  have heq : s.hydrateUserDetail id extension =
      s.setHydration id (some { scope := .user extension ref }) := by
    rw [hydrateUserDetail, hget]
  rw [heq]
  refine .inr ⟨id, _, setHydration_self .., fun hf => hf, ?_⟩
  constructor
  · intro held ref' hscope
    cases hscope
    exact ⟨rfl, hget⟩
  · exact fun _ => rfl
  · intro _ hscope
    cases hscope

/-- A hydration that begins takes nothing away from what is due. -/
theorem Due.hydrateUserDetail {s t : SettingsMirror} {id : Nat} {e : String}
    {part : DetailPart} (h : s.Due (fun _ => False) e part) (hfree : s.hydrations id = none)
    (extension : String) (hn : e ∈ s.notifications → e ∈ t.notifications)
    (husers : t.users.get? e = s.users.get? e) (hdb : t.db = s.db)
    (hhydrations : t.hydrations = s.hydrations) :
    (t.hydrateUserDetail id extension).Due (fun _ => False) e part := by
  obtain ⟨husers', -, hdb', -, hn'⟩ := hydrateUserDetail_frame t id extension
  apply h.of_frame id
  · intro hmem
    rw [hn']
    exact hn hmem
  · intro id' hne
    rw [hydrateUserDetail_of_ne t extension hne, hhydrations]
  · intro hyd hp
    apply hp.congr
    · rw [husers', husers]
    · rw [hdb', hdb]
  · intro hyd hhyd
    rw [hfree] at hhyd
    cases hhyd

theorem hydrateUserDetail_billed {s : SettingsMirror} {id : Nat} (extension : String)
    (h : ∀ id hyd, s.hydrations id = some hyd → hyd.assigned = true → s.prepaidEnabled = true) :
    ∀ id' hyd, (s.hydrateUserDetail id extension).hydrations id' = some hyd →
      hyd.assigned = true → (s.hydrateUserDetail id extension).prepaidEnabled = true := by
  obtain ⟨-, -, -, hprepaid, -⟩ := hydrateUserDetail_frame s id extension
  intro id' hyd hhyd hassigned
  rw [hprepaid]
  by_cases heq : id' = id
  · -- the new hydration has assigned nothing
    subst heq
    unfold hydrateUserDetail at hhyd
    split at hhyd
    · rw [setHydration_self, Option.some.injEq] at hhyd
      rw [← hhyd] at hassigned
      cases hassigned
    · exact h id' hyd hhyd hassigned
  · rw [hydrateUserDetail_of_ne s extension heq] at hhyd
    exact h id' hyd hhyd hassigned

theorem Inv.notified {s : SettingsMirror} (h : s.Inv) {id : Nat} {extension : String}
    {rest : List String} (hfree : s.hydrations id = none)
    (hnext : s.notifications = extension :: rest) :
    Inv ({ s with notifications := rest }.hydrateUserDetail id extension) := by
  obtain ⟨husers, hheap, hdb, hprepaid, hn⟩ :=
    hydrateUserDetail_frame { s with notifications := rest } id extension
  apply h.of_frame husers hheap hdb hprepaid
  · intro ref user hcurrent part hdue
    right
    by_cases heq : user.extension = extension
    · rw [heq]
      exact due_hydrateUserDetail (s := { s with notifications := rest })
        (heq ▸ hcurrent.found) id part
    · apply hdue.hydrateUserDetail (t := { s with notifications := rest }) hfree extension
      · intro hmem
        rw [hnext, List.mem_cons] at hmem
        exact hmem.resolve_left heq
      · rfl
      · rfl
      · rfl
  · exact hydrateUserDetail_billed extension h.billed

theorem Inv.hydrateUserDetail {s : SettingsMirror} (h : s.Inv) {id : Nat}
    (hfree : s.hydrations id = none) (extension : String) :
    Inv (s.hydrateUserDetail id extension) := by
  obtain ⟨husers, hheap, hdb, hprepaid, hn⟩ := hydrateUserDetail_frame s id extension
  apply h.of_frame husers hheap hdb hprepaid
  · intro ref user hcurrent part hdue
    exact .inr (hdue.hydrateUserDetail hfree extension (fun hmem => hmem) rfl rfl rfl)
  · exact hydrateUserDetail_billed extension h.billed

/-! ### Upserts -/

theorem upsertUser_eq (s : SettingsMirror) (row : DbUser) :
    ∃ user : MirroredUser, user.extension = row.extension ∧
      s.upsertUser row =
        { s with
          users := (s.users.set row.extension s.heap.length).set row.username s.heap.length
          heap := s.heap ++ [user] } := by
  refine ⟨_, ?_, rfl⟩
  cases s.getUser row.extension <;> rfl

theorem users_upsertUser (s : SettingsMirror) (row : DbUser) (key : String) :
    (s.upsertUser row).users.get? key =
      if key = row.extension ∨ key = row.username then some s.heap.length
      else s.users.get? key := by
  have heq : (s.upsertUser row).users =
      (s.users.set row.extension s.heap.length).set row.username s.heap.length := rfl
  rw [heq, OrdMap.get?_set, OrdMap.get?_set]
  by_cases husername : key = row.username
  · simp [husername]
  · simp [husername]

/-- Every key leads to a user who is found under the own extension too. -/
def Keyed (s : SettingsMirror) : Prop :=
  ∀ key ref, s.users.get? key = some ref → ∃ user, s.Current ref user

theorem getUser_of_current {s : SettingsMirror} {key : String} {ref : Nat} {user : MirroredUser}
    (hget : s.users.get? key = some ref) (hcurrent : s.Current ref user) :
    s.getUser key = some user := by
  rw [getUser, hget, Option.bind_some]
  exact hcurrent.object

/-- The users after an upsert: the new one, and those whose extension is not a key of it. -/
theorem current_upsertUser {s : SettingsMirror} (h : s.Keyed) {row : DbUser} {ref : Nat}
    {user : MirroredUser} (hcurrent : (s.upsertUser row).Current ref user) :
    user.extension = row.extension ∨
      s.Current ref user ∧ user.extension ≠ row.extension ∧ user.extension ≠ row.username := by
  obtain ⟨new, hnew, heq⟩ := upsertUser_eq s row
  have hobject := hcurrent.object
  have hfound := hcurrent.found
  rw [users_upsertUser] at hfound
  rw [heq] at hobject
  split at hfound
  · left
    rw [Option.some.injEq] at hfound
    rw [← hfound, List.getElem?_concat_length, Option.some.injEq] at hobject
    rw [← hobject, hnew]
  · rename_i hkeys
    right
    obtain ⟨old, hold⟩ := h _ _ hfound
    have hlt : ref < s.heap.length := (List.getElem?_eq_some_iff.mp hold.object).1
    have hsame : s.heap[ref]? = some user := by
      rw [← hobject]
      exact (List.getElem?_append_left hlt).symm
    exact ⟨⟨hsame, hfound⟩, fun h => hkeys (.inl h), fun h => hkeys (.inr h)⟩

theorem keyed_upsertUser {s : SettingsMirror} (h : s.Keyed) {row : DbUser}
    (hno : s.LeavesNoAlias row) : (s.upsertUser row).Keyed := by
  obtain ⟨new, hnew, heq⟩ := upsertUser_eq s row
  intro key ref hget
  rw [users_upsertUser] at hget
  split at hget
  · rw [Option.some.injEq] at hget
    refine ⟨new, ?_, ?_⟩
    · rw [heq, ← hget]
      exact List.getElem?_concat_length
    · rw [users_upsertUser, hnew, if_pos (.inl rfl), hget]
  · rename_i hkeys
    -- an old key: its user keeps the own extension
    obtain ⟨user, hcurrent⟩ := h key ref hget
    have hkeep := hno key user (getUser_of_current hget hcurrent) (fun h => hkeys (.inl h))
      fun h => hkeys (.inr h)
    have hlt : ref < s.heap.length := (List.getElem?_eq_some_iff.mp hcurrent.object).1
    refine ⟨user, ?_, ?_⟩
    · rw [heq]
      exact (List.getElem?_append_left hlt).trans hcurrent.object
    · rw [users_upsertUser, if_neg]
      · exact hcurrent.found
      · rintro (hext | husername)
        · exact hkeep.1 hext
        · exact hkeep.2 husername

theorem keyed_upsertUsers {s : SettingsMirror} (h : s.Keyed) {rows : List DbUser}
    (hno : s.LeaveNoAlias rows) : (rows.foldl upsertUser s).Keyed := by
  induction rows generalizing s with
  | nil => exact h
  | cons row rows ih => exact ih (keyed_upsertUser h hno.1) hno.2

theorem upsertUsers_frame (s : SettingsMirror) (rows : List DbUser) :
    (rows.foldl upsertUser s).hydrations = s.hydrations ∧
      (rows.foldl upsertUser s).prepaidEnabled = s.prepaidEnabled := by
  induction rows generalizing s with
  | nil => exact ⟨rfl, rfl⟩
  | cons row rows ih => exact ih (s.upsertUser row)

/-- A user who is found under a frame of the state is found in the state. -/
theorem Current.of_frame {s s' : SettingsMirror} {ref : Nat} {user : MirroredUser}
    (h : s'.Current ref user) (husers : s'.users = s.users) (hheap : s'.heap = s.heap) :
    s.Current ref user := by
  refine ⟨?_, ?_⟩
  · rw [← hheap]
    exact h.object
  · rw [← husers]
    exact h.found

theorem Inv.syncUser {s : SettingsMirror} (h : s.Inv) {id : Nat} {row : DbUser}
    (hfree : s.hydrations id = none) (hno : s.LeavesNoAlias row) :
    Inv ((s.upsertUser row).hydrateUserDetail id row.extension) := by
  obtain ⟨husers, hheap, hdb, hprepaid, hn⟩ :=
    hydrateUserDetail_frame (s.upsertUser row) id row.extension
  have hkeyed : (s.upsertUser row).Keyed := keyed_upsertUser h.keys hno
  constructor
  · intro key ref hget
    rw [husers] at hget
    obtain ⟨user, hcurrent⟩ := hkeyed key ref hget
    exact ⟨user, hcurrent.of_frame husers.symm hheap.symm⟩
  · intro ref user hcurrent part
    have hcurrent' := hcurrent.of_frame husers hheap
    rcases current_upsertUser h.keys hcurrent' with hnew | ⟨hold, hext, husername⟩
    · -- the upsert is followed by a hydration of that user
      right
      have hfound := hcurrent'.found
      rw [hnew] at hfound ⊢
      exact due_hydrateUserDetail hfound id part
    · rcases h.right ref user hold part with hhas | hdue
      · left
        rw [hdb, hprepaid]
        exact hhas
      · right
        apply hdue.hydrateUserDetail hfree row.extension
        · exact fun hmem => hmem
        · rw [users_upsertUser, if_neg]
          rintro (h | h)
          · exact hext h
          · exact husername h
        · rfl
        · rfl
  · exact hydrateUserDetail_billed row.extension h.billed

theorem Inv.hydrateAll {s : SettingsMirror} (h : s.Inv) {id : Nat} {rows : List DbUser}
    (hno : s.LeaveNoAlias rows) :
    Inv ((rows.foldl upsertUser s).setHydration id (some { scope := .all })) := by
  obtain ⟨hhydrations, hprepaid⟩ := upsertUsers_frame s rows
  have hkeyed : (rows.foldl upsertUser s).Keyed := keyed_upsertUsers h.keys hno
  constructor
  · intro key ref hget
    obtain ⟨user, hcurrent⟩ := hkeyed key ref hget
    exact ⟨user, hcurrent.object, hcurrent.found⟩
  · intro ref user _ part
    -- the hydration of all users has everything before it
    refine .inr (.inr ⟨id, _, setHydration_self .., fun hf => hf, ?_⟩)
    constructor
    · intro held ref' hscope
      cases hscope
    · exact fun _ => rfl
    · intro _ _ hassigned
      cases hassigned
  · intro id' hyd hhyd hassigned
    by_cases heq : id' = id
    · rw [heq, setHydration_self, Option.some.injEq] at hhyd
      rw [← hhyd] at hassigned
      cases hassigned
    · rw [setHydration_of_ne _ _ heq, hhydrations] at hhyd
      exact hprepaid.trans (h.billed id' hyd hhyd hassigned)

/-! ### Answers and assignments -/

theorem setHydration_billed {s : SettingsMirror}
    (h : ∀ id hyd, s.hydrations id = some hyd → hyd.assigned = true → s.prepaidEnabled = true)
    (id : Nat) (next : Option Hydration)
    (hnext : ∀ hyd, next = some hyd → hyd.assigned = true → s.prepaidEnabled = true) :
    ∀ id' hyd, (s.setHydration id next).hydrations id' = some hyd → hyd.assigned = true →
      s.prepaidEnabled = true := by
  intro id' hyd hhyd hassigned
  by_cases heq : id' = id
  · rw [heq, setHydration_self] at hhyd
    exact hnext hyd hhyd hassigned
  · rw [setHydration_of_ne s next heq] at hhyd
    exact h id' hyd hhyd hassigned

/-- Only objects and the hydration `id` differ. -/
structure MovesOn (s s' : SettingsMirror) (id : Nat) : Prop where
  db : s'.db = s.db
  prepaidEnabled : s'.prepaidEnabled = s.prepaidEnabled
  users : s'.users = s.users
  notifications : s'.notifications = s.notifications
  other : ∀ id', id' ≠ id → s'.hydrations id' = s.hydrations id'

theorem MovesOn.of_heap (s : SettingsMirror) (heap : List MirroredUser) (id : Nat)
    (next : Option Hydration) : s.MovesOn ({ s with heap }.setHydration id next) id :=
  ⟨rfl, rfl, rfl, rfl, fun _ hne => setHydration_of_ne _ next hne⟩

theorem Pending.movesOn {s s' : SettingsMirror} {id : Nat} {hyd : Hydration}
    {extension : String} {part : DetailPart} (h : s.Pending hyd extension part)
    (hmoves : s.MovesOn s' id) : s'.Pending hyd extension part := by
  apply h.congr
  · rw [hmoves.users]
  · rw [hmoves.db]

/-- What another hydration is going to assign stays due. -/
theorem Due.of_other {s s' : SettingsMirror} {id : Nat} {extension : String} {part : DetailPart}
    (h : s.Due (· = id) extension part) (hmoves : s.MovesOn s' id) :
    s'.Due (fun _ => False) extension part := by
  apply h.of_frame id
  · rw [hmoves.notifications]
    exact fun hmem => hmem
  · exact hmoves.other
  · exact fun hyd hp => hp.movesOn hmoves
  · intro _ _ hx
    exact absurd rfl hx

/-- What is due is due from a hydration or from something else. -/
theorem Due.split {s : SettingsMirror} {extension : String} {part : DetailPart}
    (h : s.Due (fun _ => False) extension part) (id : Nat) :
    s.Due (· = id) extension part ∨
      ∃ hyd, s.hydrations id = some hyd ∧ s.Pending hyd extension part := by
  rcases h with hmem | ⟨id', hyd, hhyd, -, hp⟩
  · exact .inl (.inl hmem)
  · by_cases heq : id' = id
    · exact .inr ⟨hyd, heq ▸ hhyd, hp⟩
    · exact .inl (.inr ⟨id', hyd, hhyd, heq, hp⟩)

/-- Steps that only move one hydration on. -/
theorem Inv.of_hydration {s : SettingsMirror} (h : s.Inv) (id : Nat) (next : Option Hydration)
    (hself : ∀ hyd ref user part, s.hydrations id = some hyd → s.Current ref user →
      s.Pending hyd user.extension part →
        (∃ n, next = some n ∧ s.Pending n user.extension part) ∨
        user.Has s.db s.prepaidEnabled part ∨ s.Due (· = id) user.extension part)
    (hnext : ∀ hyd, next = some hyd → hyd.assigned = true → s.prepaidEnabled = true) :
    Inv (s.setHydration id next) := by
  have hmoves : s.MovesOn (s.setHydration id next) id := .of_heap s s.heap id next
  apply h.of_frame hmoves.users
  · rfl
  · rfl
  · rfl
  · intro ref user hcurrent part hdue
    rcases hdue.split id with hdue' | ⟨hyd, hhyd, hp⟩
    · exact .inr (hdue'.of_other hmoves)
    · rcases hself hyd ref user part hhyd hcurrent hp with ⟨n, hn, hp'⟩ | hhas | hdue'
      · exact .inr (.inr ⟨id, n, hn ▸ setHydration_self .., fun hf => hf, hp'.movesOn hmoves⟩)
      · exact .inl hhas
      · exact .inr (hdue'.of_other hmoves)
  · exact setHydration_billed h.billed id next hnext

/-- An answer that does not concern the balances leaves everything due that was. -/
theorem Inv.read {s : SettingsMirror} (h : s.Inv) {id : Nat} {hyd next : Hydration}
    (hhyd : s.hydrations id = some hyd) (hscope : next.scope = hyd.scope)
    (hassigned : next.assigned = hyd.assigned) (hbalances : next.balances = hyd.balances) :
    Inv (s.setHydration id (some next)) := by
  apply h.of_hydration
  · intro hyd' ref user part hhyd' _ hp
    rw [hhyd, Option.some.injEq] at hhyd'
    subst hhyd'
    refine .inl ⟨next, rfl, ?_⟩
    constructor
    · rw [hscope]
      exact hp.scope
    · rw [hassigned]
      exact hp.early
    · rw [hscope, hassigned, hbalances]
      exact hp.late
  · intro hyd' heq hassigned'
    cases heq
    exact h.billed id hyd hhyd (hassigned ▸ hassigned')

theorem Inv.readBalances {s : SettingsMirror} (h : s.Inv) {id : Nat} {answered : Bool}
    {hyd : Hydration} (hhyd : s.hydrations id = some hyd) (hunread : hyd.balances = none)
    (hcovered : s.Covered (.readBalances id answered)) :
    Inv (s.setHydration id (some { hyd with
      balances := some (if answered then hyd.scope.select s.db.balances.entries else []) })) := by
  apply h.of_hydration
  · intro hyd' ref user part hhyd' hcurrent hp
    rw [hhyd, Option.some.injEq] at hhyd'
    subst hhyd'
    by_cases hbalance : part = .balance ∧ hyd.scope = .all
    · obtain ⟨rfl, hscope⟩ := hbalance
      rcases hcovered with hanswered | hcovered
      · -- the stored row is among those that are read
        refine .inl ⟨_, rfl, hp.scope, fun hne => absurd rfl hne, fun _ _ hassigned => ?_⟩
        have hlate := hp.late rfl hscope hassigned
        rw [hunread] at hlate
        simp only [hanswered, if_true, hscope, HydrationScope.select, rowsOf_entries]
        obtain ⟨row, hrow⟩ := Option.ne_none_iff_exists'.mp hlate
        simp [hrow]
      · exact .inr (hcovered hyd ref user hhyd hscope hcurrent)
    · refine .inl ⟨_, rfl, hp.scope, hp.early, fun hpart hscope _ => ?_⟩
      exact absurd ⟨hpart, hscope⟩ hbalance
  · intro hyd' heq hassigned'
    cases heq
    exact h.billed id hyd hhyd hassigned'

/-- A hydration that is due for a user writes to the object that is found. -/
theorem Pending.writes {s : SettingsMirror} {hyd : Hydration} {ref : Nat} {user : MirroredUser}
    {part : DetailPart} (hp : s.Pending hyd user.extension part) (hcurrent : s.Current ref user) :
    Writes hyd ref := by
  cases hscope : hyd.scope with
  | user extension held =>
    have hfound := (hp.scope extension held hscope).2
    rw [hcurrent.found, Option.some.injEq] at hfound
    simp only [Writes, hscope]
    exact hfound.symm
  | all => simp only [Writes, hscope]

theorem Inv.fail {s : SettingsMirror} (h : s.Inv) {id : Nat} (hcovered : s.Covered (.fail id)) :
    Inv (s.setHydration id none) := by
  apply h.of_hydration
  · intro hyd ref user part hhyd hcurrent hp
    exact .inr (hcovered hyd ref user hhyd hcurrent (hp.writes hcurrent) part)
  · intro hyd heq
    cases heq

theorem assigned_of_not_writes {s : SettingsMirror} {h : Hydration} {ref : Nat}
    (hwrites : ¬ Writes h ref) (blocked : List (String × String))
    (forwarding : List (String × ForwardingRow)) (pstn : List (String × PstnRow))
    (user : MirroredUser) : s.assigned h.scope blocked forwarding pstn ref user = user := by
  unfold Writes at hwrites
  split at hwrites
  · rename_i hscope
    rw [hscope]
    simp only [assigned, if_neg hwrites]
  · exact absurd trivial hwrites

theorem balanced_of_not_writes {s : SettingsMirror} {h : Hydration} {ref : Nat}
    (hwrites : ¬ Writes h ref) (balances : List (String × BalanceRow)) (user : MirroredUser) :
    s.balanced h.scope balances ref user = user := by
  unfold Writes at hwrites
  split at hwrites
  · rename_i hscope
    rw [hscope]
    simp only [balanced, if_neg hwrites]
  · exact absurd trivial hwrites

/-- The balance after the first assignment is right, or still to come. -/
theorem Inv.balance_assigned {s s' : SettingsMirror} (h : s.Inv) {id : Nat} {hyd : Hydration}
    (hmoves : s.MovesOn s' id) (hhyd : s.hydrations id = some hyd) {ref : Nat}
    {user : MirroredUser} (hcurrent : s.Current ref user) (hwrites : Writes hyd ref)
    (hself : s.prepaidEnabled = true →
      s'.hydrations id = some { scope := hyd.scope, assigned := true })
    (blocked : List (String × String)) (forwarding : List (String × ForwardingRow))
    (pstn : List (String × PstnRow)) :
    (s.assigned hyd.scope blocked forwarding pstn ref user).Has s.db s.prepaidEnabled .balance ∨
      s'.Due (fun _ => False) user.extension .balance := by
  have hmem := h.mem_getUsers hcurrent
  by_cases hprepaid : s.prepaidEnabled = true
  · have hdue : s.Pending { scope := hyd.scope, assigned := true } user.extension .balance →
        s'.Due (fun _ => False) user.extension .balance := fun hp =>
      .inr ⟨id, _, hself hprepaid, fun hf => hf, hp.movesOn hmoves⟩
    cases hscope : hyd.scope with
    | user extension held =>
      rcases h.right ref user hcurrent .balance with hhas | hdue'
      · -- the balance is not touched
        left
        have hsame := balance_assigned_user hprepaid extension held ref blocked forwarding pstn user
        have hextension :=
          assigned_extension s (.user extension held) blocked forwarding pstn ref user
        simp only [MirroredUser.Has] at hhas ⊢
        rw [hsame.1, hsame.2, hextension]
        exact hhas
      · right
        rcases hdue'.split id with hdue' | ⟨hyd', hhyd', hp⟩
        · exact hdue'.of_other hmoves
        · rw [hhyd, Option.some.injEq] at hhyd'
          subst hhyd'
          refine hdue ⟨hp.scope, fun hne => absurd rfl hne, fun _ hall => ?_⟩
          simp only [hscope, reduceCtorEq] at hall
    | all =>
      by_cases hget : s.db.balances.get? user.extension = none
      · left
        have hnone := balance_assigned_all hmem blocked forwarding pstn user
        have hextension := assigned_extension s .all blocked forwarding pstn ref user
        simp only [MirroredUser.Has, hextension, hget, ite_self]
        exact hnone
      · right
        refine hdue ⟨fun held ref' huser => ?_, fun hne => absurd rfl hne, fun _ _ _ => hget⟩
        simp only [hscope, reduceCtorEq] at huser
  · left
    exact has_balance_assigned (by simpa using hprepaid) hwrites hmem blocked forwarding pstn user

theorem Inv.assign {s : SettingsMirror} (h : s.Inv) {id : Nat} {hyd : Hydration}
    {blocked : List (String × String)} {forwarding : List (String × ForwardingRow)}
    {pstn : List (String × PstnRow)} (hhyd : s.hydrations id = some hyd)
    (hblocked : hyd.blocked = some blocked) (hforwarding : hyd.forwarding = some forwarding)
    (hpstn : hyd.pstn = some pstn) (hcovered : s.Covered (.assign id)) :
    Inv ({ s with heap := s.assignHeap hyd.scope blocked forwarding pstn }.setHydration id
      (if s.prepaidEnabled then some { scope := hyd.scope, assigned := true } else none)) := by
  have hmoves := MovesOn.of_heap s (s.assignHeap hyd.scope blocked forwarding pstn) id
    (if s.prepaidEnabled then some { scope := hyd.scope, assigned := true } else none)
  apply h.of_objects (g := s.assigned hyd.scope blocked forwarding pstn)
  · rfl
  · exact getElem?_assignHeap s hyd.scope blocked forwarding pstn
  · exact assigned_extension s hyd.scope blocked forwarding pstn
  · intro ref user hcurrent part
    rw [hmoves.db, hmoves.prepaidEnabled]
    by_cases hwrites : Writes hyd ref
    · by_cases hpart : part = .balance
      · subst hpart
        apply h.balance_assigned hmoves hhyd hcurrent hwrites
        intro hprepaid
        rw [setHydration_self, if_pos hprepaid]
      · rcases hcovered hyd ref user hhyd hcurrent hwrites part hpart with hbrings | hdue
        · left
          exact has_assigned hblocked hforwarding hpstn hwrites (h.mem_getUsers hcurrent) hpart
            hbrings
        · exact .inr (hdue.of_other hmoves)
    · -- the object is another one than the hydration holds
      rw [assigned_of_not_writes hwrites]
      rcases h.right ref user hcurrent part with hhas | hdue
      · exact .inl hhas
      · rcases hdue.split id with hdue' | ⟨hyd', hhyd', hp⟩
        · exact .inr (hdue'.of_other hmoves)
        · rw [hhyd, Option.some.injEq] at hhyd'
          subst hhyd'
          exact absurd (hp.writes hcurrent) hwrites
  · apply setHydration_billed h.billed
    intro hyd' heq _
    split at heq
    · assumption
    · cases heq

/-- Balances change no other part. -/
theorem has_balanced_of_ne {s : SettingsMirror} {user : MirroredUser} {part : DetailPart}
    (hpart : part ≠ .balance) (h : user.Has s.db s.prepaidEnabled part) (scope : HydrationScope)
    (balances : List (String × BalanceRow)) (ref : Nat) :
    (s.balanced scope balances ref user).Has s.db s.prepaidEnabled part := by
  have hsame : ∃ balance currency,
      s.balanced scope balances ref user =
        { user with balance := balance, balanceCurrency := currency } := by
    cases scope with
    | user extension held =>
      simp only [balanced]
      split
      · exact ⟨_, _, rfl⟩
      · exact ⟨_, _, rfl⟩
    | all =>
      simp only [balanced]
      rw [foldl_overwriting]
      · cases (balances.filter _).getLast? <;> exact ⟨_, _, rfl⟩
      · intro a b b'
        rfl
  obtain ⟨balance, currency, heq⟩ := hsame
  rw [heq]
  cases part with
  | blocked => exact h
  | forwarding => exact h
  | pstn => exact h
  | balance => exact absurd rfl hpart

/-- A balance that is due from a full hydration is among the rows that are applied. -/
theorem Pending.appliedTo_ne_nil {s : SettingsMirror} {hyd : Hydration} {ref : Nat}
    {user : MirroredUser} {balances : List (String × BalanceRow)}
    (hp : s.Pending hyd user.extension .balance) (hcurrent : s.Current ref user)
    (hscope : hyd.scope = .all) (hassigned : hyd.assigned = true)
    (hbalances : hyd.balances = some balances) : s.appliedTo hyd ref balances ≠ [] := by
  have hlate := hp.late rfl hscope hassigned
  rw [hbalances] at hlate
  obtain ⟨row, hrow⟩ := List.exists_mem_of_ne_nil _ hlate
  have hmem := (List.mem_filter.mp hrow).1
  have hextension : row.1 = user.extension := of_decide_eq_true (List.mem_filter.mp hrow).2
  have happlied : row ∈ s.appliedTo hyd ref balances := by
    simp only [appliedTo, hscope]
    rw [List.mem_filter]
    refine ⟨hmem, decide_eq_true ?_⟩
    rw [hextension]
    exact hcurrent.found
  exact List.ne_nil_of_mem happlied

theorem Inv.assignBalances {s : SettingsMirror} (h : s.Inv) {id : Nat} {hyd : Hydration}
    {balances : List (String × BalanceRow)} (hhyd : s.hydrations id = some hyd)
    (hassigned : hyd.assigned = true) (hbalances : hyd.balances = some balances)
    (hcovered : s.Covered (.assignBalances id)) :
    Inv ({ s with heap := s.balanceHeap hyd.scope balances }.setHydration id none) := by
  have hmoves := MovesOn.of_heap s (s.balanceHeap hyd.scope balances) id none
  have hprepaid := h.billed id hyd hhyd hassigned
  apply h.of_objects (g := s.balanced hyd.scope balances)
  · rfl
  · exact getElem?_balanceHeap s hyd.scope balances
  · exact balanced_extension s hyd.scope balances
  · intro ref user hcurrent part
    rw [hmoves.db, hmoves.prepaidEnabled]
    -- right already, due from elsewhere, or due from this hydration only
    have hcases : (user.Has s.db s.prepaidEnabled part ∨ s.Pending hyd user.extension part) ∨
        s.Due (· = id) user.extension part := by
      rcases h.right ref user hcurrent part with hhas | hdue
      · exact .inl (.inl hhas)
      · rcases hdue.split id with hdue' | ⟨hyd', hhyd', hp⟩
        · exact .inr hdue'
        · rw [hhyd, Option.some.injEq] at hhyd'
          exact .inl (.inr (hhyd' ▸ hp))
    rcases hcases with hcase | hdue
    · by_cases hpart : part = .balance
      · subst hpart
        by_cases hwrites : Writes hyd ref
        · rcases hcovered hyd ref user hhyd hcurrent hwrites with hbrings | hdue
          · left
            rcases hbrings balances hbalances with hrows | ⟨hscope, hnil⟩
            · apply has_balanced hprepaid hwrites hrows
              intro hscope hget
              rcases hcase with hhas | hp
              · exact hhas
              · -- no row is stored, so none is applied
                rw [rowsOf_entries, hget] at hrows
                exact absurd hrows
                  (hp.appliedTo_ne_nil hcurrent hscope hassigned hbalances)
            · rcases hcase with hhas | hp
              · have hsame : s.balanced hyd.scope balances ref user = user := by
                  simp only [appliedTo, hscope] at hnil
                  simp only [balanced, hscope, hnil, List.foldl_nil]
                rw [hsame]
                exact hhas
              · exact absurd hnil (hp.appliedTo_ne_nil hcurrent hscope hassigned hbalances)
          · exact .inr (hdue.of_other hmoves)
        · rw [balanced_of_not_writes hwrites]
          rcases hcase with hhas | hp
          · exact .inl hhas
          · exact absurd (hp.writes hcurrent) hwrites
      · rcases hcase with hhas | hp
        · exact .inl (has_balanced_of_ne hpart hhas hyd.scope balances ref)
        · rw [hp.early hpart] at hassigned
          cases hassigned
    · exact .inr (hdue.of_other hmoves)
  · apply setHydration_billed h.billed
    intro hyd' heq
    cases heq

/-! ## Runs -/

theorem inv_init (db : SettingsDb) (prepaidEnabled : Bool) : (init db prepaidEnabled).Inv := by
  constructor
  · intro key ref hget
    cases hget
  · intro ref user hcurrent
    cases hcurrent.object
  · intro id hyd hhyd
    cases hhyd

theorem Inv.step {s s' : SettingsMirror} {e : SettingsEvent} (h : s.Inv) (hcovered : s.Covered e)
    (hstep : s.step e = some s') : s'.Inv := by
  -- every event has a lemma of its own, and only the covered ones ask for the condition
  cases e with
  | commit extension db =>
    simp only [SettingsMirror.step] at hstep
    split at hstep
    · rename_i hchanges
      cases hstep
      exact h.commit hchanges
    · cases hstep
  | notified id =>
    simp only [SettingsMirror.step] at hstep
    split at hstep
    · rename_i hfree hnext
      cases hstep
      exact h.notified hfree hnext
    · cases hstep
  | register id key =>
    simp only [SettingsMirror.step] at hstep
    split at hstep
    · rename_i user hfree _
      cases hstep
      exact h.hydrateUserDetail hfree user.extension
    · cases hstep
  | syncUser id row =>
    simp only [SettingsMirror.step] at hstep
    split at hstep
    · rename_i hfree
      cases hstep
      exact h.syncUser hfree hcovered
    · cases hstep
  | hydrateAll id rows =>
    simp only [SettingsMirror.step] at hstep
    split at hstep
    · cases hstep
      exact h.hydrateAll hcovered
    · cases hstep
  | readBlocked id =>
    simp only [SettingsMirror.step] at hstep
    split at hstep
    · rename_i hhyd
      split at hstep
      · cases hstep
        exact h.read hhyd rfl rfl rfl
      · cases hstep
    · cases hstep
  | readForwarding id =>
    simp only [SettingsMirror.step] at hstep
    split at hstep
    · rename_i hhyd
      split at hstep
      · cases hstep
        exact h.read hhyd rfl rfl rfl
      · cases hstep
    · cases hstep
  | readPstn id =>
    simp only [SettingsMirror.step] at hstep
    split at hstep
    · rename_i hhyd
      split at hstep
      · cases hstep
        exact h.read hhyd rfl rfl rfl
      · cases hstep
    · cases hstep
  | readBalances id answered =>
    simp only [SettingsMirror.step] at hstep
    split at hstep
    · rename_i hhyd
      split at hstep
      · rename_i hunread
        cases hstep
        exact h.readBalances hhyd hunread.2 hcovered
      · cases hstep
    · cases hstep
  | assign id =>
    simp only [SettingsMirror.step] at hstep
    split at hstep
    · rename_i hhyd
      cases hstep
      exact h.assign hhyd rfl rfl rfl hcovered
    · cases hstep
  | assignBalances id =>
    simp only [SettingsMirror.step] at hstep
    split at hstep
    · rename_i hhyd
      cases hstep
      exact h.assignBalances hhyd rfl rfl hcovered
    · cases hstep
  | fail id =>
    simp only [SettingsMirror.step] at hstep
    split at hstep
    · split at hstep
      · cases hstep
      · cases hstep
        exact h.fail hcovered
    · cases hstep

/-- When nothing is in flight, nothing is due. -/
theorem Inv.converged {s : SettingsMirror} (h : s.Inv) : s.Converged := by
  intro hquiet key user hget part
  rw [getUser, Option.bind_eq_some_iff] at hget
  obtain ⟨ref, hkey, hobject⟩ := hget
  obtain ⟨user', hcurrent⟩ := h.keys key ref hkey
  have huser : user' = user := Option.some.inj (hcurrent.object.symm.trans hobject)
  subst huser
  rcases h.right ref user' hcurrent part with hhas | hmem | ⟨id, hyd, hhyd, -⟩
  · exact hhas
  · rw [hquiet.notifications] at hmem
    cases hmem
  · rw [hquiet.hydrations id] at hhyd
    cases hhyd

/-- In every interleaving whose steps are covered, every user that is found has exactly the
    values of its rows whenever nothing is in flight. -/
theorem mirrored_throughout (db : SettingsDb) (prepaidEnabled : Bool) (es : List SettingsEvent)
    (hcovered : Meets step Covered (init db prepaidEnabled) es) :
    Throughout step Converged (init db prepaidEnabled) es :=
  (Machine.throughout_of_meets (fun _ _ _ h hc hstep => h.step hc hstep)
    (inv_init db prepaidEnabled) hcovered).mono fun _ h => h.converged

/-- The stored settings before and after alice blocks a number. -/
def noneBlocked : SettingsDb := ⟨[], [], .empty, .empty⟩

def oneBlocked : SettingsDb := ⟨[("1001", "+15550100")], [], .empty, .empty⟩

def alice : DbUser := ⟨"1001", "alice", "Alice", "+15550101"⟩

/-- A number is blocked after the user was hydrated, and the notification is handled. -/
theorem mirrored_throughout_blocked :
    Throughout step Converged (init noneBlocked false)
      [.syncUser 0 alice, .readBlocked 0, .readForwarding 0, .readPstn 0, .assign 0,
        .commit "1001" oneBlocked, .notified 1, .readBlocked 1, .readForwarding 1, .readPstn 1,
        .assign 1] := by
  apply mirrored_throughout
  have hfirst : ∀ {heap : MirroredUser} {ref : Nat} {user : MirroredUser},
      [heap][ref]? = some user → user = heap := by
    intro heap ref user hobject
    cases ref with
    | zero => exact (Option.some.inj hobject).symm
    | succ n => cases hobject
  refine ⟨?_, trivial, trivial, trivial, ?_, trivial, trivial, trivial, trivial, trivial, ?_,
    trivial⟩
  · intro key user hget
    cases hget
  · intro h ref user hhyd hcurrent _ part hpart
    left
    rw [hfirst hcurrent.object]
    cases hhyd
    cases part with
    | balance => exact absurd rfl hpart
    | _ =>
      intro rows hrows
      cases hrows
      rfl
  · intro h ref user hhyd hcurrent _ part hpart
    left
    rw [hfirst hcurrent.object]
    cases hhyd
    cases part with
    | balance => exact absurd rfl hpart
    | _ =>
      intro rows hrows
      cases hrows
      rfl

/-- A hydration that read the block list before a number was blocked assigns it after the
    hydration that followed the change. -/
theorem not_mirrored_overtaken :
    ∃ s, Machine.run step (init noneBlocked false)
        [.syncUser 0 alice, .readBlocked 0, .commit "1001" oneBlocked, .notified 1,
          .readBlocked 1, .readForwarding 1, .readPstn 1, .assign 1, .readForwarding 0,
          .readPstn 0, .assign 0] = some s ∧
      s.Quiet ∧ (s.getUser "1001").map (fun user => user.blockedNumbers) = some [] ∧
      (rowsOf "1001" s.db.blocked).map Prod.snd = ["+15550100"] ∧ ¬ s.Converged := by
  refine ⟨_, rfl, ?_⟩
  suffices hquiet : Quiet _ by
    refine ⟨hquiet, rfl, rfl, fun h => ?_⟩
    have hblocked : ([] : List String) = ["+15550100"] := h hquiet "1001" _ rfl .blocked
    cases hblocked
  refine ⟨rfl, fun id => ?_⟩
  -- both hydrations have ended
  cases id with
  | zero => rfl
  | succ id => cases id <;> rfl

end SettingsMirror

end CallNet
