/-! # Durations

A duration is a whole number of nanoseconds, of fewer than `2 ^ 64` seconds when it can be stored.
-/

namespace Exclusion

structure Duration where
  nanos : Nat
  deriving DecidableEq, Repr

namespace Duration

def nanosPerSecond : Nat := 1000000000

def ofSeconds (s : Nat) : Duration := ⟨s * nanosPerSecond⟩

def seconds (d : Duration) : Nat := d.nanos / nanosPerSecond

def subsecond (d : Duration) : Nat := d.nanos % nanosPerSecond

/-- Whether the whole seconds fit into 64 bits. -/
def Storable (d : Duration) : Prop := d.seconds < UInt64.size

instance (d : Duration) : Decidable d.Storable := Nat.decLt _ _

end Duration

end Exclusion
