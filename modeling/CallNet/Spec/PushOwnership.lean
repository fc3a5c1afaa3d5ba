import CallNet.Engine.PushService
import CallNet.ForStd.Machine

/-!
# Push token ownership

A device belongs to the extension that registered its token last.  `unregister` removes a
token from whichever extension owns it, but `register` leaves it with an extension that
already holds it: a device that changes hands without an `unregister` in between is held by
both.  `exclusive_iff_handedOver` says which sequences of calls keep every token with its
owner: those in which a token is registered only while it is free or already the
extension's own.
-/

namespace CallNet.PushService

open Machine (Meets Throughout)

/-! ## Calls and owners -/

inductive Call where
  | register (now : Nat) (extension token platform : String)
  | unregister (token : String)
deriving DecidableEq, Repr

def apply (s : PushService) : Call → PushService
  | .register now ext token platform => s.register now ext token platform
  | .unregister token => s.unregister token

/-- The owner of each token: the extension that registered it last, if it has not been
    unregistered since.  Calls with an empty argument do nothing. -/
def ownersAfter (owner : String → Option String) : Call → String → Option String
  | .register _ ext token _ => fun t =>
    if ext ≠ "" ∧ token ≠ "" ∧ t = token then some ext else owner t
  | .unregister token => fun t => if token ≠ "" ∧ t = token then none else owner t

/-- The service, and beside it the owners that the calls so far give. -/
structure State where
  service : PushService
  owner : String → Option String

def State.init : State := ⟨.empty, fun _ => none⟩

def State.step (m : State) (call : Call) : Option State :=
  some ⟨m.service.apply call, ownersAfter m.owner call⟩

/-- The record of `token` among the tokens of `ext`. -/
def record? (s : PushService) (ext token : String) : Option DeviceToken :=
  (s.byExtension.get? ext).bind (·.get? token)

/-- `ext` holds `token`. -/
def Holds (s : PushService) (ext token : String) : Prop := (s.record? ext token).isSome

instance (s : PushService) (ext token : String) : Decidable (s.Holds ext token) :=
  inferInstanceAs (Decidable (_ = true))

/-- Every token is held by its owner and by nobody else, and a call for one extension wakes
    only devices that are its own. -/
structure State.Exclusive (m : State) : Prop where
  holds_iff : ∀ ext token, m.service.Holds ext token ↔ m.owner token = some ext
  wakes_own : ∀ cfg ext payload request,
    m.service.sendIncomingCall cfg ext payload = some request →
    ∀ token ∈ request.registrationIds, m.owner token = some ext

/-- A token is registered only while it is free or the extension's own. -/
def HandedOver (m : State) : Call → Prop
  | .register _ ext token _ =>
    ext ≠ "" → token ≠ "" → m.owner token = none ∨ m.owner token = some ext
  | .unregister _ => True

/-! ## What a call does to the records -/

theorem record?_register (s : PushService) (now : Nat) {ext token : String} (platform : String)
    (he : ext ≠ "") (ht : token ≠ "") (ext' token' : String) :
    (s.register now ext token platform).record? ext' token' =
      if ext' = ext ∧ token' = token then some ⟨token, platform, now⟩
      else s.record? ext' token' := by
  have hargs : ¬ (ext = "" ∨ token = "") := fun h => h.elim he ht
  simp only [register, if_neg hargs, record?, OrdMap.get?_set]
  by_cases hext : ext' = ext
  · subst hext
    simp only [if_true, Option.bind_some, OrdMap.get?_set, true_and]
    split
    · rfl
    · cases s.byExtension.get? ext' <;> rfl
  · simp only [hext, false_and, if_false]

theorem ownersAfter_register {ext token : String} (he : ext ≠ "") (ht : token ≠ "")
    (owner : String → Option String) (now : Nat) (platform token' : String) :
    ownersAfter owner (.register now ext token platform) token' =
      if token' = token then some ext else owner token' := by
  simp only [ownersAfter, he, ht, ne_eq, not_false_eq_true, true_and]

/-- A map that holds only `token` has nothing else to lose with it. -/
theorem get?_of_delete_empty {tokens : DeviceTokens} {token t : String}
    (h : (tokens.delete token).size = 0) (ht : t ≠ token) : tokens.get? t = none := by
  have := OrdMap.size_eq_zero_iff.mp h t
  rwa [OrdMap.get?_delete, if_neg ht] at this

theorem record?_unregister (s : PushService) {token : String} (ht : token ≠ "")
    (ext' token' : String) :
    (s.unregister token).record? ext' token' =
      if token' = token then none else s.record? ext' token' := by
  simp only [unregister, if_neg ht, record?, OrdMap.get?_mapVals, OrdMap.get?_filter]
  cases hext : s.byExtension.get? ext' with
  | none => simp
  | some tokens =>
    rw [Option.filter_some]
    split
    · simp only [Option.map_some, Option.bind_some, OrdMap.get?_delete]
    · -- the map is dropped: it held `token` only
      rename_i hdrop
      simp only [decide_not, Bool.not_eq_true', decide_eq_false_iff_not, not_not] at hdrop
      split
      · rfl
      · rename_i hne
        exact (get?_of_delete_empty hdrop.2 hne).symm

theorem register_ignored {s : PushService} {now : Nat} {ext token platform : String}
    (h : ext = "" ∨ token = "") : s.register now ext token platform = s := if_pos h

/-- The tokens a call wakes are those its extension holds. -/
theorem holds_of_sendIncomingCall {s : PushService} {cfg : PushConfig} {ext : String}
    {payload : IncomingCallPush} {request : FcmRequest}
    (h : s.sendIncomingCall cfg ext payload = some request) {token : String}
    (ht : token ∈ request.registrationIds) : s.Holds ext token := by
  unfold sendIncomingCall at h
  split at h
  · split at h
    · cases h
    · rename_i tokens htokens
      split at h
      · cases h
      · dsimp only at h
        split at h
        · unfold sendFcm at h
          split at h
          · cases h
          · cases h
            obtain ⟨record, hrec, rfl⟩ := List.mem_map.mp ht
            obtain ⟨key, hget⟩ := OrdMap.mem_values_iff.mp (List.mem_of_mem_filter hrec)
            rw [s.keyed htokens hget]
            simp only [Holds, record?, htokens, Option.bind_some, hget, Option.isSome_some]
        · cases h
  · cases h

/-! ## Runs -/

theorem State.Exclusive.of_holds {m : State}
    (h : ∀ ext token, m.service.Holds ext token ↔ m.owner token = some ext) : m.Exclusive :=
  ⟨h, fun _ ext _ _ hsend token ht => (h ext token).mp (holds_of_sendIncomingCall hsend ht)⟩

theorem State.Exclusive.init : State.init.Exclusive :=
  .of_holds fun _ _ => by simp [State.init, Holds, record?, PushService.empty]

/-- The step lemma. -/
theorem State.Exclusive.step {m m' : State} {call : Call} (h : m.Exclusive)
    (hc : HandedOver m call) (hs : m.step call = some m') : m'.Exclusive := by
  simp only [State.step, Option.some.injEq] at hs
  subst hs
  refine .of_holds fun ext' token' => ?_
  cases call with
  | register now ext token platform =>
    by_cases hargs : ext = "" ∨ token = ""
    · simp only [apply, ownersAfter]
      rw [register_ignored hargs, if_neg (by tauto)]
      exact h.holds_iff ext' token'
    · rw [not_or] at hargs
      simp only [apply, ownersAfter_register hargs.1 hargs.2, Holds,
        record?_register _ _ _ hargs.1 hargs.2]
      by_cases htok : token' = token
      · subst htok
        by_cases hext : ext' = ext
        · simp [hext]
        · -- whoever else held the token would be its owner
          have hfree : ¬ m.service.Holds ext' token' := by
            rw [h.holds_iff]
            rcases hc hargs.1 hargs.2 with hnone | hown
            · simp [hnone]
            · simp [hown, Ne.symm hext]
          simpa [hext, Ne.symm hext, Holds] using hfree
      · -- other tokens are where they were
        simpa [htok, Holds] using h.holds_iff ext' token'
  | unregister token =>
    simp only [apply, ownersAfter]
    by_cases ht : token = ""
    · rw [unregister, if_pos ht, if_neg fun h => h.1 ht]
      exact h.holds_iff ext' token'
    · rw [Holds, record?_unregister _ ht]
      by_cases htok : token' = token
      · simp [htok, ht]
      · rw [if_neg htok, if_neg fun h => htok h.2]
        exact h.holds_iff ext' token'

/-- A token taken over from another extension stays with that one too. -/
theorem State.Exclusive.handedOver {m m' : State} {call : Call} (h : m.Exclusive)
    (hs : m.step call = some m') (h' : m'.Exclusive) : HandedOver m call := by
  simp only [State.step, Option.some.injEq] at hs
  subst hs
  cases call with
  | unregister token => trivial
  | register now ext token platform =>
    intro he ht
    cases hown : m.owner token with
    | none => exact .inl rfl
    | some owner =>
      -- `register` adds the token to the new extension and takes it from nobody
      have hkept : (m.service.register now ext token platform).Holds owner token := by
        rw [Holds, record?_register _ _ _ he ht]
        split
        · rfl
        · exact (h.holds_iff owner token).mpr hown
      have hnow := (h'.holds_iff owner token).mp hkept
      dsimp only at hnow
      rw [ownersAfter_register he ht, if_pos rfl] at hnow
      exact .inr hnow.symm

/-- Over any sequence of calls every token stays with its owner, and no call for one
    extension wakes another's device, exactly when no extension registers a token that is
    still another's. -/
theorem exclusive_iff_handedOver (calls : List Call) :
    Throughout State.step State.Exclusive .init calls ↔
      Meets State.step HandedOver .init calls :=
  Machine.throughout_iff_meets (P := fun _ _ => True)
    (fun _ h => h)
    (fun _ _ _ h _ hc hs => h.step hc hs)
    (fun _ _ _ h _ hs h' => h.handedOver hs h')
    (fun _ _ h => nomatch h)
    State.Exclusive.init (Machine.meets_of_mem fun _ _ => trivial)

/-- The device of 1001 is handed to 1002, and its `unregister` never arrives. -/
def sharedPhone : List Call :=
  [.register 0 "1001" "fcm-a" "android", .register 1 "1002" "fcm-a" "android"]

theorem not_exclusive_sharedPhone :
    ¬ Throughout State.step State.Exclusive .init sharedPhone := by
  intro h
  obtain ⟨-, -, hlast⟩ := h
  have hheld := (hlast.holds_iff "1001" "fcm-a").mp (by decide)
  exact absurd hheld (by decide)

/-- A call for 1001 wakes the device that is 1002's now. -/
example :
    (Machine.run State.step .init sharedPhone).map (fun m =>
      ((m.service.sendIncomingCall ⟨true, "key"⟩ "1001" ⟨"c1", "1003", "Caller", "1001"⟩).map
        FcmRequest.registrationIds, m.owner "fcm-a")) =
      some (some ["fcm-a"], some "1002") := by decide

end CallNet.PushService
