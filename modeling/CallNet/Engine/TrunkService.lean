import CallNet.Engine.CallEffects

/-!
# The PSTN trunk

`services/trunk.service.ts`: which sources count as the trunk, and the outbound leg.
-/

namespace CallNet

/-- A number of at most 32 bits from a dotted address, `none` when it is malformed. -/
def ipToInt (rt : Runtime) (a : String) : Option Nat :=
  let octets := (a.splitOn ".").map fun p =>
    (rt.toNumber p).bind fun o =>
      if o.den = 1 ∧ 0 ≤ o.num ∧ o.num ≤ 255 then some o.num.toNat else none
  match octets with
  | [some a, some b, some c, some d] => some (((a * 256 + b) * 256 + c) * 256 + d)
  | _ => none

/-- Match an address against an allowlist entry, an exact IP or a CIDR. -/
def ipMatches (rt : Runtime) (ip entry : String) : Bool :=
  if ip = "" ∨ entry = "" then false
  else
    match entry.splitOn "/" with
    | range :: bitsStr :: _ =>
      match rt.toNumber bitsStr with
      | none => false
      | some bits =>
        if bits.den = 1 ∧ 0 ≤ bits.num ∧ bits.num ≤ 32 then
          match ipToInt rt ip, ipToInt rt range with
          -- masking the last bits off both is comparing what is left without them
          | some ipInt, some rangeInt =>
            ipInt >>> (32 - bits.num.toNat) == rangeInt >>> (32 - bits.num.toNat)
          | _, _ => false
        else false
    | _ => ip = entry

/-- Whether the SIP source is a trusted inbound PSTN trunk. -/
def TrunkConfig.isFromTrunk (rt : Runtime) (trunk : TrunkConfig) (sourceIp : String) : Bool :=
  (trunk.enabled && sourceIp == trunk.host) || trunk.inboundIps.any (ipMatches rt sourceIp)

def TrunkConfig.formatOutboundUri (trunk : TrunkConfig) (number : String) : String :=
  "sip:" ++ trunk.dialPrefix ++ internationalForm number ++ "@" ++ trunk.host ++ ":" ++
    toString trunk.port

/-- A caller ID as a safe SIP user part, empty when it is no number of 6 to 15 digits. -/
def sanitizeCallerId (callerId : Option String) : String :=
  let clean := keepNumber (callerId.getD "")
  let digits := match clean.toList with
    | '+' :: rest => rest
    | cs => cs
  if digits.all isDigit ∧ 6 ≤ digits.length ∧ digits.length ≤ 15 then clean else ""

/-- The INVITE of an outbound leg to a PSTN number. -/
def TrunkConfig.invite (trunk : TrunkConfig) (number localSdp : String)
    (callerId : Option String) : OutboundInvite :=
  let own := sanitizeCallerId callerId
  let fromUser := if own = "" then trunk.callerNumber else own
  { uri := trunk.formatOutboundUri number
    localSdp
    fromHeader := "<sip:" ++ fromUser ++ "@" ++ trunk.host ++ ">"
    auth := some (trunk.username, trunk.password) }

/-- Originate a leg to a PSTN number; `none` when the trunk is disabled. -/
def createOutboundLeg (cfg : Config) (number localSdp : String)
    (callerId : Option String := none) : CallProg (Option Leg) :=
  if !cfg.trunk.enabled then pure none
  else do
    let uac : Leg ← ofExcept (← ask (.createUAC (cfg.trunk.invite number localSdp callerId)))
    pure (some uac)

/-- Answer the caller with the outbound leg's SDP and tie the two legs together. -/
def connectOutboundLeg (uac : Leg) : CallProg Bool := do
  let uas : Leg ← ofExcept (← ask (.createUAS (uac.remoteSdp.getD "")))
  ask (.onDestroy uac [.destroy uas])
  ask (.onDestroy uas [.destroy uac])
  pure true

/-- Route the call to a PSTN number; whether it was connected. -/
def routeCall (cfg : Config) (req : Request) (calledNumber : String)
    (callerId : Option String := none) : CallProg Bool :=
  let unavailable : CallProg Bool := do
    send 503
    pure false
  if !cfg.trunk.enabled then unavailable
  else
    ((createOutboundLeg cfg calledNumber req.body callerId).bind fun
      | none => unavailable
      | some uac => connectOutboundLeg uac).tryCatch fun _ => unavailable

end CallNet
