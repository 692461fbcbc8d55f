/-!
# Instants

A point in time is a number of seconds from the epoch, which may be negative, and nanoseconds after it.
It is stored as a whole number of milliseconds in 64 bits.
-/

namespace RowDerive.Sample

/-- A point in time. -/
structure Instant where
  /-- Seconds from the epoch. -/
  seconds : Int64
  /-- Nanoseconds after them. -/
  nanos : Fin 1000000000
deriving DecidableEq, Repr

namespace Instant

/-- Nanoseconds from the epoch. -/
def toNanos (t : Instant) : Int := t.seconds.toInt * 1000000000 + t.nanos.val

/-- Whether the instant lies before the epoch. -/
def isBeforeEpoch (t : Instant) : Bool := t.toNanos < 0

/-- Milliseconds from the epoch as they are stored: the low 64 bits of their number, and zero for
instants before the epoch. -/
def toMillis (t : Instant) : Int64 :=
  if t.isBeforeEpoch then 0 else Int64.ofInt (t.toNanos / 1000000)

end Instant

end RowDerive.Sample
