import Toolchain.Time.Duration

namespace Toolchain

structure AgoStep where
  limit : Nat
  unit : Option Nat
  phrase : String

namespace AgoStep

def second : Nat := 1000000000

def minute : Nat := 60 * second

def hour : Nat := 60 * minute

def day : Nat := 24 * hour

def week : Nat := 7 * day

def month : Nat := 30 * day

def year : Nat := 12 * month

def steps : List AgoStep :=
  [⟨2 * second, none, "1 second"⟩, ⟨minute, some second, "seconds"⟩,
   ⟨2 * minute, none, "1 minute"⟩, ⟨hour, some minute, "minutes"⟩,
   ⟨2 * hour, none, "1 hour"⟩, ⟨day, some hour, "hours"⟩,
   ⟨2 * day, none, "1 day"⟩, ⟨week, some day, "days"⟩,
   ⟨2 * week, none, "1 week"⟩, ⟨month, some week, "weeks"⟩,
   ⟨2 * month, none, "1 month"⟩, ⟨year, some month, "months"⟩,
   ⟨18 * month, none, "1 year"⟩, ⟨2 * year, none, "2 years"⟩, ⟨37 * year, some year, "years"⟩]

end AgoStep

def Instant.ago (now created : Instant) : String :=
  let nanos := (now - created).natAbs
  let suffix := if created ≤ now then " ago" else " from now"
  if nanos < AgoStep.second then "now"
  else
    match AgoStep.steps.find? fun s => nanos < s.limit with
    | some ⟨_, some unit, phrase⟩ => Nat.repr (nanos / unit) ++ " " ++ phrase ++ suffix
    | some ⟨_, none, phrase⟩ => phrase ++ suffix
    | none => "a long while" ++ suffix

end Toolchain
