import CallNet.Engine.CallLog
import CallNet.ForStd.OrdMap

/-!
# Live call metrics

`CallMetricsService` of `services/metrics.service.ts`.  Every reading of `Date.now()` is an
argument of the function that reads it, in milliseconds; the snapshot keeps its two dates as
such numbers.  The timer and the emitted events are left out.
-/

namespace CallNet

/-- `ACTIVE_STATUSES` -/
def activeStatuses : List CallStatus := [.ringing, .answered]

/-- `STALE_MS`, four hours. -/
def staleMs : Nat := 4 * 60 * 60 * 1000

/-- `CPS_WINDOW_MS` -/
def cpsWindowMs : Nat := 1000

structure MetricsSnapshot where
  activeTotal : Nat
  activeInbound : Nat
  activeOutbound : Nat
  maxConcurrent : Nat
  peakInboundConcurrent : Nat
  outboundCurrentCps : Nat
  outboundPeakCps : Nat
  since : Nat
  updatedAt : Nat
deriving DecidableEq, Repr

/-- A value of the map `active`. -/
structure ActiveLeg where
  direction : CallDirection
  startedAt : Nat
deriving DecidableEq, Repr

structure CallMetricsService where
  active : OrdMap String ActiveLeg
  maxConcurrent : Nat
  peakInboundConcurrent : Nat
  /-- Epoch ms of recent outbound starts. -/
  outboundStarts : List Nat
  outboundPeakCps : Nat
  since : Nat

/-- The readings of the clock in `getSnapshot`. -/
structure SnapshotClock where
  trim : Nat
  updated : Nat
deriving DecidableEq, Repr

/-- The readings of the clock in `onCall`. -/
structure OnCallClock where
  started : Nat
  outbound : Nat
  snapshot : SnapshotClock
deriving DecidableEq, Repr

namespace CallMetricsService

def init (since : Nat) : CallMetricsService where
  active := .empty
  maxConcurrent := 0
  peakInboundConcurrent := 0
  outboundStarts := []
  outboundPeakCps := 0
  since := since

def trimCps (now : Nat) (s : CallMetricsService) : CallMetricsService :=
  let cutoff := now - cpsWindowMs
  { s with outboundStarts := s.outboundStarts.dropWhile (· < cutoff) }

def recordOutboundStart (now : Nat) (s : CallMetricsService) : CallMetricsService :=
  let s := trimCps now { s with outboundStarts := s.outboundStarts ++ [now] }
  let cps := s.outboundStarts.length
  if cps > s.outboundPeakCps then { s with outboundPeakCps := cps } else s

/-- The number of active legs of a direction. -/
def inDirection (d : CallDirection) (s : CallMetricsService) : Nat :=
  s.active.values.countP (·.direction = d)

def recomputePeaks (s : CallMetricsService) : CallMetricsService :=
  let total := s.active.size
  let s := if total > s.maxConcurrent then { s with maxConcurrent := total } else s
  let inbound := s.inDirection .inbound
  if inbound > s.peakInboundConcurrent then { s with peakInboundConcurrent := inbound } else s

def getSnapshot (clock : SnapshotClock) (s : CallMetricsService) :
    CallMetricsService × MetricsSnapshot :=
  let s := s.trimCps clock.trim
  (s, { activeTotal := s.active.size
        activeInbound := s.inDirection .inbound
        activeOutbound := s.inDirection .outbound
        maxConcurrent := s.maxConcurrent
        peakInboundConcurrent := s.peakInboundConcurrent
        outboundCurrentCps := s.outboundStarts.length
        outboundPeakCps := s.outboundPeakCps
        since := s.since
        updatedAt := clock.updated })

def sweepStale (now : Nat) (s : CallMetricsService) : CallMetricsService :=
  let cutoff := now - staleMs
  let changed := s.active.values.any (·.startedAt < cutoff)
  let s := { s with active := s.active.filter fun _ leg => !decide (leg.startedAt < cutoff) }
  if changed then s.recomputePeaks else s

def onCall (call : CallLog) (clock : OnCallClock) (s : CallMetricsService) :
    CallMetricsService :=
  if call.id = "" then s else
  let s :=
    if call.status ∈ activeStatuses then
      let prev := s.active.get? call.id
      -- counted when the leg first is, or becomes, outbound
      let becameOutbound :=
        call.direction = .outbound ∧ prev.map ActiveLeg.direction ≠ some .outbound
      let leg : ActiveLeg :=
        { direction := call.direction
          startedAt := (prev.map ActiveLeg.startedAt).getD clock.started }
      let s := { s with active := s.active.set call.id leg }
      if becameOutbound then s.recordOutboundStart clock.outbound else s
    else
      { s with active := s.active.delete call.id }
  (s.recomputePeaks.getSnapshot clock.snapshot).1

end CallMetricsService

namespace CallMetricsService

variable (s : CallMetricsService)

/-! ## What each operation leaves -/

@[simp] theorem trimCps_active (now : Nat) : (s.trimCps now).active = s.active := rfl
@[simp] theorem trimCps_maxConcurrent (now : Nat) :
    (s.trimCps now).maxConcurrent = s.maxConcurrent := rfl
@[simp] theorem trimCps_peakInboundConcurrent (now : Nat) :
    (s.trimCps now).peakInboundConcurrent = s.peakInboundConcurrent := rfl
@[simp] theorem trimCps_outboundPeakCps (now : Nat) :
    (s.trimCps now).outboundPeakCps = s.outboundPeakCps := rfl

/-- A peak is the old one or the present number, whichever is larger. -/
theorem recomputePeaks_eq : s.recomputePeaks =
    { s with
      maxConcurrent := max s.maxConcurrent s.active.size
      peakInboundConcurrent := max s.peakInboundConcurrent (s.inDirection .inbound) } := by
  have htotal : (if s.active.size > s.maxConcurrent then
        { s with maxConcurrent := s.active.size } else s) =
      { s with maxConcurrent := max s.maxConcurrent s.active.size } := by
    split
    · rw [max_eq_right (le_of_lt ‹_›)]
    · rw [max_eq_left (not_lt.mp ‹_›)]
  simp only [recomputePeaks, htotal]
  split
  · rename_i hmore
    simp only [CallMetricsService.mk.injEq, true_and, and_true]
    exact (max_eq_right (le_of_lt hmore)).symm
  · rename_i hless
    simp only [CallMetricsService.mk.injEq, true_and, and_true]
    exact (max_eq_left (not_lt.mp hless)).symm

@[simp] theorem recomputePeaks_active : s.recomputePeaks.active = s.active := by
  rw [recomputePeaks_eq]
@[simp] theorem recomputePeaks_maxConcurrent :
    s.recomputePeaks.maxConcurrent = max s.maxConcurrent s.active.size := by
  rw [recomputePeaks_eq]
@[simp] theorem recomputePeaks_peakInboundConcurrent :
    s.recomputePeaks.peakInboundConcurrent =
      max s.peakInboundConcurrent (s.inDirection .inbound) := by
  rw [recomputePeaks_eq]
@[simp] theorem recomputePeaks_outboundStarts :
    s.recomputePeaks.outboundStarts = s.outboundStarts := by
  rw [recomputePeaks_eq]
@[simp] theorem recomputePeaks_outboundPeakCps :
    s.recomputePeaks.outboundPeakCps = s.outboundPeakCps := by
  rw [recomputePeaks_eq]

@[simp] theorem recordOutboundStart_active (now : Nat) :
    (s.recordOutboundStart now).active = s.active := by
  unfold recordOutboundStart; dsimp only; split <;> rfl
@[simp] theorem recordOutboundStart_maxConcurrent (now : Nat) :
    (s.recordOutboundStart now).maxConcurrent = s.maxConcurrent := by
  unfold recordOutboundStart; dsimp only; split <;> rfl
@[simp] theorem recordOutboundStart_peakInboundConcurrent (now : Nat) :
    (s.recordOutboundStart now).peakInboundConcurrent = s.peakInboundConcurrent := by
  unfold recordOutboundStart; dsimp only; split <;> rfl
@[simp] theorem recordOutboundStart_outboundStarts (now : Nat) :
    (s.recordOutboundStart now).outboundStarts =
      (s.outboundStarts ++ [now]).dropWhile (· < now - cpsWindowMs) := by
  unfold recordOutboundStart; dsimp only; split <;> rfl

@[simp] theorem recordOutboundStart_outboundPeakCps (now : Nat) :
    (s.recordOutboundStart now).outboundPeakCps =
      max s.outboundPeakCps (s.recordOutboundStart now).outboundStarts.length := by
  unfold recordOutboundStart; dsimp only
  split
  · exact (max_eq_right (le_of_lt ‹_›)).symm
  · exact (max_eq_left (not_lt.mp ‹_›)).symm

end CallMetricsService

/-- What happens to the service; a heartbeat is a sweep and a snapshot. -/
inductive MetricsEvent where
  | upsert (call : CallLog) (clock : OnCallClock)
  | sweep (now : Nat)
  | snapshot (clock : SnapshotClock)
deriving DecidableEq, Repr

namespace CallMetricsService

def step (s : CallMetricsService) : MetricsEvent → CallMetricsService
  | .upsert call clock => s.onCall call clock
  | .sweep now => s.sweepStale now
  | .snapshot clock => (s.getSnapshot clock).1

/-- The service after the events of a trace. -/
def run (since : Nat) (tr : List MetricsEvent) : CallMetricsService :=
  tr.foldl step (init since)

end CallMetricsService

end CallNet
