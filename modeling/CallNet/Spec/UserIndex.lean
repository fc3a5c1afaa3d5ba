import CallNet.Engine.Database
import CallNet.ForStd.Machine

/-!
# Coherence of the user index

A user is found by extension, by username and by the digits of a mobile number.  A sync
brings the whole new row and sets the keys of its values; it knows nothing of the old ones.
The index stays coherent exactly along the runs in which every key that leads to the synced
or removed user is one that the step itself sets or deletes.
-/

namespace CallNet

open Machine (Meets Throughout)

/-- The row of a user after a change, or that there is none any more. -/
structure UserSync where
  extension : String
  row : Option DbUser
  /-- The row is loaded by the extension. -/
  loaded : ∀ r ∈ row, r.extension = extension

/-- The directory, and the rows its users were last synced with. -/
structure UserIndex where
  dir : Directory
  synced : String → Option DbUser

namespace UserIndex

def init : UserIndex := ⟨.empty, fun _ => none⟩

def step (s : UserIndex) (e : UserSync) : Option UserIndex :=
  some
    { dir := s.dir.syncUser e.extension e.row
      synced := fun ext => if ext = e.extension then e.row else s.synced ext }

end UserIndex

/-- The user is the one of the row. -/
structure SipUser.Is (user : SipUser) (row : DbUser) : Prop where
  extension : user.extension = row.extension
  username : user.username = row.username
  name : user.name = row.name
  mobile : user.mobile = some row.mobile

/-- Every key leads to the current user whose extension, username or mobile it is. -/
structure UserIndex.Coherent (s : UserIndex) : Prop where
  users : ∀ key user, s.dir.getUser key = some user →
    ∃ row, s.synced user.extension = some row ∧ user.Is row ∧
      (key = row.extension ∨ key = row.username)
  phones : ∀ digits ext, s.dir.phoneIndex.get? digits = some ext →
    ∃ user row, s.dir.getUser ext = some user ∧ user.extension = ext ∧
      s.synced ext = some row ∧ row.mobile ≠ "" ∧ digits = digitsOnly row.mobile

/-! ## The keys a step touches -/

/-- The keys of one identity. -/
structure UserKeys where
  extension : String
  username : String
  mobile : Option String

/-- The keys that a sync sets, or that a removal deletes. -/
def UserIndex.touched (s : UserIndex) (e : UserSync) : Option UserKeys :=
  match e.row with
  | some row => some ⟨row.extension, row.username, some row.mobile⟩
  | none => (s.dir.getUser e.extension).map fun user =>
      ⟨user.extension, user.username, user.mobile⟩

/-- A key of the users map among the touched ones. -/
def TouchesUser (keys : Option UserKeys) (key : String) : Prop :=
  ∃ ks ∈ keys, key = ks.extension ∨ key = ks.username

/-- A key of the phone index among the touched ones. -/
def TouchesPhone (keys : Option UserKeys) (digits : String) : Prop :=
  ∃ ks ∈ keys, truthy ks.mobile = true ∧ digits = digitsOnly (ks.mobile.getD "")

/-- The step sets or deletes every key that leads to its user, and every number that leads
    to an extension it takes over or deletes. -/
structure UserIndex.LeavesNoAlias (s : UserIndex) (e : UserSync) : Prop where
  users : ∀ key user, s.dir.getUser key = some user → user.extension = e.extension →
    TouchesUser (s.touched e) key
  phones : ∀ digits ext, s.dir.phoneIndex.get? digits = some ext →
    ext = e.extension ∨ TouchesUser (s.touched e) ext → TouchesPhone (s.touched e) digits

/-! ## What a step does to the keys -/

/-- A step gives all touched keys to the synced user, or to nobody, and leaves the others. -/
structure UserIndex.Rewrites (s s' : UserIndex) (e : UserSync) (new : Option SipUser) : Prop where
  synced : ∀ ext, s'.synced ext = if ext = e.extension then e.row else s.synced ext
  isRow : ∀ user, new = some user → ∃ row, e.row = some row ∧ user.Is row
  isUser : ∀ row, e.row = some row → ∃ user, new = some user ∧ user.Is row
  touched : ∀ key, TouchesUser (s.touched e) key → s'.dir.getUser key = new
  untouched : ∀ key, ¬ TouchesUser (s.touched e) key → s'.dir.getUser key = s.dir.getUser key
  number : ∀ digits, TouchesPhone (s.touched e) digits →
    s'.dir.phoneIndex.get? digits = e.row.map DbUser.extension
  otherNumber : ∀ digits, ¬ TouchesPhone (s.touched e) digits →
    s'.dir.phoneIndex.get? digits = s.dir.phoneIndex.get? digits

theorem UserIndex.rewrites_upsert (s : UserIndex) {e : UserSync} {row : DbUser}
    (hrow : e.row = some row) :
    ∃ s' new, s.step e = some s' ∧ s.Rewrites s' e new := by
  -- a user that is there keeps its settings, and what the row says of it is overwritten
  obtain ⟨user, huser, husers⟩ : ∃ user : SipUser, user.Is row ∧
      (s.dir.syncUser e.extension e.row).users =
        (s.dir.users.set row.extension user).set row.username user := by
    rw [hrow]
    refine ⟨_, ?_, rfl⟩
    cases s.dir.users.get? row.extension <;> exact ⟨rfl, rfl, rfl, rfl⟩
  have htouched : s.touched e = some ⟨row.extension, row.username, some row.mobile⟩ := by
    simp only [UserIndex.touched, hrow]
  have hphones : (s.dir.syncUser e.extension e.row).phoneIndex =
      if row.mobile = "" then s.dir.phoneIndex
      else s.dir.phoneIndex.set (digitsOnly row.mobile) row.extension := by
    rw [hrow]
    rfl
  refine ⟨_, some user, rfl, ?_⟩
  constructor
  case synced => exact fun ext => rfl
  case isRow =>
    rintro _ ⟨⟩
    exact ⟨row, hrow, huser⟩
  case isUser =>
    intro row' hrow'
    cases hrow.symm.trans hrow'
    exact ⟨user, rfl, huser⟩
  case touched =>
    rintro key ⟨ks, hks, hkey⟩
    cases htouched.symm.trans hks
    simp only [Directory.getUser, husers, OrdMap.get?_set]
    rcases hkey with rfl | rfl
    · split <;> simp
    · simp
  case untouched =>
    intro key hkey
    have hne : key ≠ row.extension ∧ key ≠ row.username :=
      ⟨fun h => hkey ⟨_, htouched, .inl h⟩, fun h => hkey ⟨_, htouched, .inr h⟩⟩
    simp only [Directory.getUser, husers, OrdMap.get?_set, hne.1, hne.2, if_false]
  case number =>
    rintro digits ⟨ks, hks, htrue, hdigits⟩
    cases htouched.symm.trans hks
    have hmobile : row.mobile ≠ "" := truthy_some_iff.mp htrue
    show (s.dir.syncUser e.extension e.row).phoneIndex.get? digits = _
    rw [hphones, if_neg hmobile, hdigits, hrow]
    exact OrdMap.get?_set_self _ _ _
  case otherNumber =>
    intro digits hdigits
    simp only [hphones]
    split
    · rfl
    · rename_i hmobile
      apply OrdMap.get?_set_ne
      intro heq
      exact hdigits ⟨_, htouched, truthy_some_iff.mpr hmobile, heq⟩

theorem UserIndex.rewrites_remove (s : UserIndex) {e : UserSync} (hrow : e.row = none) :
    ∃ s' new, s.step e = some s' ∧ s.Rewrites s' e new := by
  have hsync : s.dir.syncUser e.extension e.row = s.dir.removeUser e.extension := by rw [hrow]; rfl
  have htouched : s.touched e = (s.dir.getUser e.extension).map fun user =>
      ⟨user.extension, user.username, user.mobile⟩ := by
    simp only [UserIndex.touched, hrow]
  refine ⟨_, none, rfl, ?_⟩
  cases hget : s.dir.getUser e.extension with
  | none =>
    -- nobody is known under the extension
    have hsame : s.dir.removeUser e.extension = s.dir := by
      unfold Directory.removeUser
      rw [show s.dir.users.get? e.extension = none from hget]
    rw [hget, Option.map_none] at htouched
    constructor
    case synced => exact fun ext => rfl
    case isRow => exact fun user h => nomatch h
    case isUser => exact fun row h => nomatch hrow.symm.trans h
    case touched =>
      rintro key ⟨ks, hks, -⟩
      exact nomatch htouched.symm.trans hks
    case untouched =>
      intro key _
      rw [hsync, hsame]
    case number =>
      rintro digits ⟨ks, hks, -⟩
      exact nomatch htouched.symm.trans hks
    case otherNumber =>
      intro digits _
      rw [hsync, hsame]
  | some user =>
    rw [hget, Option.map_some] at htouched
    have husers : (s.dir.removeUser e.extension).users =
        (s.dir.users.delete user.extension).delete user.username := by
      unfold Directory.removeUser
      rw [show s.dir.users.get? e.extension = some user from hget]
    have hphones : (s.dir.removeUser e.extension).phoneIndex =
        if truthy user.mobile then s.dir.phoneIndex.delete (digitsOnly (user.mobile.getD ""))
        else s.dir.phoneIndex := by
      unfold Directory.removeUser
      rw [show s.dir.users.get? e.extension = some user from hget]
    constructor
    case synced => exact fun ext => rfl
    case isRow => exact fun user h => nomatch h
    case isUser => exact fun row h => nomatch hrow.symm.trans h
    case touched =>
      rintro key ⟨ks, hks, hkey⟩
      cases htouched.symm.trans hks
      simp only [hsync, Directory.getUser, husers, OrdMap.get?_delete]
      rcases hkey with rfl | rfl <;> simp
    case untouched =>
      intro key hkey
      have hne : key ≠ user.extension ∧ key ≠ user.username :=
        ⟨fun h => hkey ⟨_, htouched, .inl h⟩, fun h => hkey ⟨_, htouched, .inr h⟩⟩
      simp only [hsync, Directory.getUser, husers, OrdMap.get?_delete, hne.1, hne.2, if_false]
    case number =>
      rintro digits ⟨ks, hks, htrue, hdigits⟩
      cases htouched.symm.trans hks
      show (s.dir.syncUser e.extension e.row).phoneIndex.get? digits = _
      rw [hsync, hphones, htrue, if_pos rfl, hdigits, hrow]
      exact OrdMap.get?_delete_self _ _
    case otherNumber =>
      intro digits hdigits
      simp only [hsync, hphones]
      split
      · rename_i htrue
        apply OrdMap.get?_delete_ne
        intro heq
        exact hdigits ⟨_, htouched, htrue, heq⟩
      · rfl

theorem UserIndex.exists_rewrites (s : UserIndex) (e : UserSync) :
    ∃ s' new, s.step e = some s' ∧ s.Rewrites s' e new := by
  cases hrow : e.row with
  | none => exact s.rewrites_remove hrow
  | some row => exact s.rewrites_upsert hrow

/-! ## Coherence -/

theorem UserIndex.touched_of_row {s : UserIndex} {e : UserSync} {row : DbUser}
    (hrow : e.row = some row) :
    s.touched e = some ⟨row.extension, row.username, some row.mobile⟩ := by
  simp only [UserIndex.touched, hrow]

theorem UserIndex.Coherent.step {s s' : UserIndex} {e : UserSync} {new : Option SipUser}
    (h : s.Coherent) (hr : s.Rewrites s' e new) (hclear : s.LeavesNoAlias e) : s'.Coherent := by
  constructor
  case users =>
    intro key user hget
    by_cases htouch : TouchesUser (s.touched e) key
    · -- a touched key leads to the synced user
      rw [hr.touched key htouch] at hget
      obtain ⟨row, hrow, his⟩ := hr.isRow user hget
      have hext : user.extension = e.extension := his.extension.trans (e.loaded row hrow)
      obtain ⟨ks, hks, hkey⟩ := htouch
      cases (touched_of_row hrow).symm.trans hks
      refine ⟨row, ?_, his, hkey⟩
      rw [hr.synced, if_pos hext, hrow]
    · rw [hr.untouched key htouch] at hget
      have hother : user.extension ≠ e.extension := fun hext =>
        htouch (hclear.users key user hget hext)
      obtain ⟨row, hrow, hrest⟩ := h.users key user hget
      refine ⟨row, ?_, hrest⟩
      rw [hr.synced, if_neg hother, hrow]
  case phones =>
    intro digits ext hget
    by_cases htouch : TouchesPhone (s.touched e) digits
    · rw [hr.number digits htouch] at hget
      obtain ⟨row, hrow, rfl⟩ := Option.map_eq_some_iff.mp hget
      obtain ⟨user, hnew, his⟩ := hr.isUser row hrow
      have hkeys := touched_of_row (s := s) hrow
      obtain ⟨ks, hks, htrue, hdigits⟩ := htouch
      cases hkeys.symm.trans hks
      refine ⟨user, row, ?_, his.extension, ?_, truthy_some_iff.mp htrue, hdigits⟩
      · rw [hr.touched _ ⟨_, hkeys, .inl rfl⟩, hnew]
      · rw [hr.synced, if_pos (e.loaded row hrow), hrow]
    · rw [hr.otherNumber digits htouch] at hget
      have hother : ext ≠ e.extension := fun hext =>
        htouch (hclear.phones digits ext hget (.inl hext))
      have hfree : ¬ TouchesUser (s.touched e) ext := fun ht =>
        htouch (hclear.phones digits ext hget (.inr ht))
      obtain ⟨user, row, huser, hext, hrow, hrest⟩ := h.phones digits ext hget
      refine ⟨user, row, ?_, hext, ?_, hrest⟩
      · rw [hr.untouched ext hfree, huser]
      · rw [hr.synced, if_neg hother, hrow]

theorem UserIndex.Coherent.leavesNoAlias {s s' : UserIndex} {e : UserSync} {new : Option SipUser}
    (hr : s.Rewrites s' e new) (hc : s'.Coherent) : s.LeavesNoAlias e := by
  constructor
  case users =>
    intro key user hget hext
    by_contra htouch
    -- the key still leads to the user, so it is a key of the new row
    have hstill : s'.dir.getUser key = some user := by rw [hr.untouched key htouch, hget]
    obtain ⟨row, hrow, _, hkey⟩ := hc.users key user hstill
    rw [hr.synced, if_pos hext] at hrow
    exact htouch ⟨_, touched_of_row hrow, hkey⟩
  case phones =>
    intro digits ext hget hlead
    by_contra htouch
    have hstill : s'.dir.phoneIndex.get? digits = some ext := by
      rw [hr.otherNumber digits htouch, hget]
    obtain ⟨user, row, huser, hext, hrow, hmobile, hdigits⟩ := hc.phones digits ext hstill
    have hself : ext = e.extension := by
      rcases hlead with hself | hlead
      · exact hself
      · -- the extension leads to the synced user now
        rw [hr.touched ext hlead] at huser
        obtain ⟨row', hrow', his⟩ := hr.isRow user huser
        rw [← hext, his.extension, e.loaded row' hrow']
    rw [hr.synced, if_pos hself] at hrow
    exact htouch ⟨_, touched_of_row hrow, truthy_some_iff.mpr hmobile, hdigits⟩

theorem UserIndex.coherent_init : UserIndex.init.Coherent where
  users _ _ h := nomatch h
  phones _ _ h := nomatch h

/-- In a run of syncs and removals every key leads to the current user it belongs to, in all
    states, exactly when no step leaves an alias behind. -/
theorem user_index_coherent_iff (es : List UserSync) :
    Throughout UserIndex.step UserIndex.Coherent .init es ↔
      Meets UserIndex.step UserIndex.LeavesNoAlias .init es := by
  apply Machine.throughout_iff_meets (I := UserIndex.Coherent) (P := fun _ _ => True)
  · exact fun s h => h
  · intro s e s' h _ hclear hstep
    obtain ⟨t, new, ht, hr⟩ := s.exists_rewrites e
    cases ht.symm.trans hstep
    exact h.step hr hclear
  · intro s e s' _ _ hstep hc
    obtain ⟨t, new, ht, hr⟩ := s.exists_rewrites e
    cases ht.symm.trans hstep
    exact UserIndex.Coherent.leavesNoAlias hr hc
  · intro s e hnone
    cases hnone
  · exact UserIndex.coherent_init
  · exact Machine.meets_of_mem fun _ _ => trivial

/-- A user is renamed and gets another number. -/
def renamedUser : List UserSync :=
  [⟨"1001", some ⟨"1001", "alice", "Alice", "+14155550101"⟩, fun _ h => by cases h; rfl⟩,
    ⟨"1001", some ⟨"1001", "alicia", "Alice", "+14155550102"⟩, fun _ h => by cases h; rfl⟩]

/-- The old name and the old number still lead to the user. -/
theorem not_coherent_renamed :
    ∃ s, Machine.run UserIndex.step .init renamedUser = some s ∧
      ((s.dir.getUser "alice").map SipUser.username) = some "alice" ∧
      s.dir.getExtensionByPhone "+14155550101" = some "1001" ∧
      (s.synced "1001").map DbUser.username = some "alicia" ∧ ¬ s.Coherent := by
  refine ⟨_, rfl, by decide +kernel, by decide +kernel, by decide +kernel, fun h => ?_⟩
  obtain ⟨row, hrow, his, -⟩ := h.users "alice" _ rfl
  cases hrow
  exact absurd his.username (by decide +kernel)

end CallNet
