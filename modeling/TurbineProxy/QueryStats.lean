import TurbineProxy.Text

/-!
# What the collector keeps for a fingerprint

`QueryStats` of `analytics/collector.rs`. A `Duration` is a number of nanoseconds, a point in time a number of
milliseconds. The counter of the executions is a natural number: it does not reach `2 ^ 64`.
-/

namespace TurbineProxy

/-- `Duration::MAX` -/
def durationMax : Nat := (2 ^ 64 - 1) * 10 ^ 9 + 999999999

/-- `percentile` -/
def percentile (latencies : List Nat) (pct : Nat) : Nat :=
  let sorted := latencies.mergeSort
  sorted.getD (min (sorted.length * pct / 100) (sorted.length - 1)) 0

/-- `QueryStats` -/
structure QueryStats where
  hash : UInt64
  fingerprint : Str
  count : Nat
  totalDuration : Nat
  minDuration : Nat
  maxDuration : Nat
  lastSeen : Int
  latencies : List Nat
  deriving DecidableEq

namespace QueryStats

/-- `QueryStats::new` -/
def new (now : Int) (hash : UInt64) (fingerprint : Str) : QueryStats where
  hash := hash
  fingerprint := fingerprint
  count := 0
  totalDuration := 0
  minDuration := durationMax
  maxDuration := 0
  lastSeen := now
  latencies := []

variable (s : QueryStats)

/-- `QueryStats::record` -/
def record (now : Int) (duration : Nat) : QueryStats :=
  { s with
    count := s.count + 1
    totalDuration := s.totalDuration + duration
    minDuration := min s.minDuration duration
    maxDuration := max s.maxDuration duration
    lastSeen := now
    latencies := (if 1000 ≤ s.latencies.length then s.latencies.tail else s.latencies) ++ [duration] }

/-- `p95` -/
def p95 : Nat := percentile s.latencies 95

/-- `p99` -/
def p99 : Nat := percentile s.latencies 99

/-- `p95().as_micros() as u64` -/
def p95Us : UInt64 := UInt64.ofNat (s.p95 / 1000)

end QueryStats

end TurbineProxy
