import CallNet.ForStd.OrdMap

/-!
# Mobile push wake-up

`services/push.service.ts`: the device tokens that wake a softphone for an incoming call,
per extension.  What is modelled of sending is the message handed to FCM; a send that fails
is only logged.
-/

namespace CallNet

/-- A single registered device push token. -/
structure DeviceToken where
  token : String
  /-- `android`, `ios` or `ios_voip`. -/
  platform : String
  registeredAt : Nat
deriving DecidableEq, Repr

/-- Payload the app expects in an `incoming_call` data message. -/
structure IncomingCallPush where
  callId : String
  fromNumber : String
  fromName : String
  toNumber : String
deriving DecidableEq, Repr

/-- The settings a push reads. -/
structure PushConfig where
  enabled : Bool
  fcmServerKey : String

/-- The request to the FCM endpoint. -/
structure FcmRequest where
  authorization : String
  registrationIds : List String
  priority : String
  contentAvailable : Bool
  messageType : String
  data : IncomingCallPush
deriving DecidableEq, Repr

/-- The tokens of one extension by token. -/
abbrev DeviceTokens := OrdMap String DeviceToken

/-- Extension to token to record; every record carries the token it is stored under. -/
structure PushService where
  byExtension : OrdMap String DeviceTokens
  keyed : ∀ {ext tokens token record}, byExtension.get? ext = some tokens →
    tokens.get? token = some record → record.token = token

namespace PushService

def empty : PushService := ⟨.empty, fun h => nomatch h⟩

/-- Register (or refresh) a device token for an extension. -/
def register (s : PushService) (now : Nat) (extension token platform : String) : PushService :=
  if extension = "" ∨ token = "" then s
  else
    let tokens := (s.byExtension.get? extension).getD .empty
    { byExtension := s.byExtension.set extension
        (tokens.set token { token, platform, registeredAt := now })
      keyed := by
        intro ext tokens' t record hext ht
        rw [OrdMap.get?_set] at hext
        split at hext
        · cases hext
          rw [OrdMap.get?_set] at ht
          split at ht
          · rename_i h; cases ht; exact h.symm
          · cases htokens : s.byExtension.get? extension with
            | none => simp [htokens, tokens] at ht
            | some old => exact s.keyed htokens (by simpa [htokens, tokens] using ht)
        · exact s.keyed hext ht }

/-- Remove a token from whichever extension owns it.  A map that becomes empty is dropped. -/
def unregister (s : PushService) (token : String) : PushService :=
  if token = "" then s
  else
    { byExtension :=
        (s.byExtension.filter fun _ tokens =>
          ¬ (tokens.has token ∧ (tokens.delete token).size = 0)).mapVals fun _ tokens =>
            tokens.delete token
      keyed := by
        intro ext tokens' t record hext ht
        rw [OrdMap.get?_mapVals, Option.map_eq_some_iff] at hext
        obtain ⟨tokens, hext, rfl⟩ := hext
        rw [OrdMap.get?_filter, Option.filter_eq_some_iff] at hext
        rw [OrdMap.get?_delete] at ht
        split at ht
        · cases ht
        · exact s.keyed hext.1 ht }

/-- The request sent to FCM for some tokens. -/
def sendFcm (cfg : PushConfig) (registrationIds : List String) (payload : IncomingCallPush) :
    Option FcmRequest :=
  if cfg.fcmServerKey = "" then none
  else
    some
      { authorization := "key=" ++ cfg.fcmServerKey, registrationIds, priority := "high",
        contentAvailable := true, messageType := "incoming_call", data := payload }

/-- The push of an incoming call to every device registered for an extension.  VoIP tokens
    are not delivered over FCM. -/
def sendIncomingCall (s : PushService) (cfg : PushConfig) (extension : String)
    (payload : IncomingCallPush) : Option FcmRequest :=
  if cfg.enabled then
    match s.byExtension.get? extension with
    | none => none
    | some tokens =>
      if tokens.size = 0 then none
      else
        let fcmTokens :=
          (tokens.values.filter fun rec => rec.platform ≠ "ios_voip").map DeviceToken.token
        if fcmTokens.length > 0 then sendFcm cfg fcmTokens payload else none
  else none

end PushService

end CallNet
