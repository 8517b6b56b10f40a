import ChannelFeed.Number.Duration

namespace ChannelFeed

/-- When to try again: the pause grows by a factor with each failure in a row and never exceeds its
bound. -/
structure Policy where
  enabled : Bool
  /-- How many retries in a row are allowed, if not any number. -/
  maxRetries : Option Nat
  initial : Duration
  longest : Duration
  /-- A number of single precision. -/
  multiplier : Binary64
  deriving DecidableEq, Inhabited

namespace Policy

def standard : Policy := ⟨true, none, .ofSeconds 1, .ofSeconds 30, .ofNat 2⟩

def disabled : Policy := { standard with enabled := false }

/-- Whether a failure after so many in a row may be followed by a retry. -/
def allows (p : Policy) (failures : Nat) : Bool :=
  p.enabled && match p.maxRetries with
    | some most => decide (failures < most)
    | none => true

/-- Powers are counted in 31 bits. -/
def mostPower : Nat := 2147483647

/-- The pause before the next retry after so many failures in a row, unless there is none. -/
def nextDelay (p : Policy) (failures : Nat) : Option Duration :=
  if p.allows failures then
    let scaled := p.initial.toSeconds.mul (p.multiplier.pow (min failures mostPower))
    some (min ((Duration.ofSeconds? scaled).getD p.longest) p.longest)
  else none

end Policy

end ChannelFeed
