import CallNet.ForStd.OrdMap

/-!
# SIP abuse guard

`sip/abuse-guard.ts`: misbehavior is counted per source address, and repeat offenders are
banned for a while.  The firewall command that a ban may run and the timer of the sweep are
left out; times are the epoch milliseconds that an operation reads from the clock.
-/

namespace CallNet

structure SipAbuseGuardOptions where
  threshold : Int
  windowMs : Int
  banMs : Int
  isTrusted : String → Bool

structure OffenseRecord where
  count : Nat
  windowStart : Nat
  lastSeen : Nat
  bannedUntil : Nat
deriving DecidableEq, Repr

/-- The settings of a guard, as far as they must go. -/
structure SipAbuseGuard where
  threshold : Nat
  windowMs : Nat
  banMs : Nat
  isTrusted : String → Bool
  threshold_pos : 1 ≤ threshold
  window_long : 1000 ≤ windowMs
  ban_long : 1000 ≤ banMs

/-- The constructor. -/
def SipAbuseGuard.ofOptions (opts : SipAbuseGuardOptions) : SipAbuseGuard where
  threshold := (max 1 opts.threshold).toNat
  windowMs := (max 1000 opts.windowMs).toNat
  banMs := (max 1000 opts.banMs).toNat
  isTrusted := opts.isTrusted
  threshold_pos := by omega
  window_long := by omega
  ban_long := by omega

/-- The records of the addresses. -/
abbrev AbuseRecords := OrdMap String OffenseRecord

namespace SipAbuseGuard

variable (g : SipAbuseGuard)

/-- Whether the address is banned now. -/
def isBanned (records : AbuseRecords) (now : Nat) (ip : String) : Bool :=
  match records.get? ip with
  | some record => record.bannedUntil > now
  | none => false

/-- The record that an offense is counted in: a new one when there is none or its window is
    over.  A ban is carried over. -/
def windowRecord (records : AbuseRecords) (now : Nat) (ip : String) : OffenseRecord :=
  match records.get? ip with
  | some record =>
    if now - record.windowStart > g.windowMs then
      { count := 0, windowStart := now, lastSeen := now, bannedUntil := record.bannedUntil }
    else record
  | none => { count := 0, windowStart := now, lastSeen := now, bannedUntil := 0 }

/-- Record one offense; also tells whether it got the address banned. -/
def recordOffense (records : AbuseRecords) (now : Nat) (ip : String) : AbuseRecords × Bool :=
  if ip = "" ∨ g.isTrusted ip then (records, false)
  else
    let record := g.windowRecord records now ip
    let record := { record with count := record.count + 1, lastSeen := now }
    if record.count ≥ g.threshold ∧ record.bannedUntil ≤ now then
      (records.set ip { record with bannedUntil := now + g.banMs }, true)
    else (records.set ip record, false)

/-- A legitimate action clears the tally of the address, but not a running ban. -/
def recordSuccess (records : AbuseRecords) (now : Nat) (ip : String) : AbuseRecords :=
  match records.get? ip with
  | some record => if record.bannedUntil ≤ now then records.delete ip else records
  | none => records

/-- Drop expired and idle records. -/
def sweep (records : AbuseRecords) (now : Nat) : AbuseRecords :=
  records.filter fun _ record =>
    let banned := record.bannedUntil > now
    let fresh := now - record.lastSeen < g.windowMs
    banned ∨ fresh

/-! ## Runs -/

inductive Op where
  | recordOffense (ip : String)
  | recordSuccess (ip : String)
  | isBanned (ip : String)
  | sweep
deriving DecidableEq, Repr

/-- The records after an operation at a time. -/
def step (records : AbuseRecords) : Nat × Op → AbuseRecords
  | (now, .recordOffense ip) => (g.recordOffense records now ip).1
  | (now, .recordSuccess ip) => recordSuccess records now ip
  | (_, .isBanned _) => records
  | (now, .sweep) => g.sweep records now

/-- The records after the operations of a run. -/
def run (es : List (Nat × Op)) : AbuseRecords := es.foldl g.step .empty

/-- The clock does not go back. -/
def Ordered (es : List (Nat × Op)) : Prop := es.Pairwise fun e e' => e.1 ≤ e'.1

theorem run_concat (es : List (Nat × Op)) (e : Nat × Op) :
    g.run (es ++ [e]) = g.step (g.run es) e := List.foldl_concat _ _ _ _

end SipAbuseGuard

end CallNet
