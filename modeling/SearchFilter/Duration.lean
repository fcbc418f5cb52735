/-!
# Durations

Spans of time, exact to the nanosecond.
-/

namespace SearchFilter

structure Duration where
  nanoseconds : Nat
  deriving DecidableEq, Repr

namespace Duration

def ofParts (seconds nanoseconds : Nat) : Duration :=
  ⟨seconds * 1000000000 + nanoseconds⟩

def ofMilliseconds (n : Nat) : Duration :=
  ⟨n * 1000000⟩

def milliseconds (d : Duration) : Nat :=
  d.nanoseconds / 1000000

def seconds (d : Duration) : Nat :=
  d.nanoseconds / 1000000000

/-- What a span has beyond its whole seconds. -/
def subsecondNanoseconds (d : Duration) : Nat :=
  d.nanoseconds % 1000000000

theorem ofParts_seconds_subsecondNanoseconds (d : Duration) :
    ofParts d.seconds d.subsecondNanoseconds = d := by
  simp [ofParts, seconds, subsecondNanoseconds, Nat.div_add_mod']

end Duration

end SearchFilter
