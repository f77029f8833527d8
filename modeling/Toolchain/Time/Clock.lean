import Toolchain.Time.Duration

namespace Toolchain

structure Clock where
  readings : Nat → Instant
  asked : Nat

namespace Clock

def ticking (start : Instant) (tick : Int) : Clock := ⟨fun n => start + n * tick, 0⟩

def read (c : Clock) : Instant × Clock :=
  (c.readings c.asked, ⟨c.readings, c.asked + 1⟩)

def advance (c : Clock) (d : Int) : Clock := ⟨fun n => c.readings n + d, c.asked⟩

end Clock

end Toolchain
