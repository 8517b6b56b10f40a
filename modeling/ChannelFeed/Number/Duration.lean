import ChannelFeed.Number.Binary64

namespace ChannelFeed

structure Duration where
  nanoseconds : Nat
  deriving DecidableEq, Repr, Inhabited

namespace Duration

/-- Nanoseconds in a second. -/
def perSecond : Nat := 1000000000

/-- Nanoseconds in a millisecond. -/
def perMilli : Nat := 1000000

def ofParts (seconds nanoseconds : Nat) : Duration := ⟨seconds * perSecond + nanoseconds⟩

def ofMillis (ms : Nat) : Duration := ⟨ms * perMilli⟩

def ofSeconds (s : Nat) : Duration := ⟨s * perSecond⟩

def seconds (d : Duration) : Nat := d.nanoseconds / perSecond

/-- Nanoseconds beyond the whole seconds. -/
def subsecond (d : Duration) : Nat := d.nanoseconds % perSecond

/-- Whole milliseconds, as durations are reported. -/
def millis (d : Duration) : Nat := d.nanoseconds / perMilli

/-- The first whole millisecond not before the end of the span, when a timer set for it fires. -/
def ticks (d : Duration) : Nat := (d.nanoseconds + (perMilli - 1)) / perMilli

/-- The instant at which a span ends that begins now, unless it is later than the last instant that the
clock can tell. -/
def after? (d : Duration) (last now : Nat) : Option Nat :=
  if now + d.ticks ≤ last then some (now + d.ticks) else none

/-- Thirty years in milliseconds. -/
def longestPause : Nat := 946080000000

/-- When a pause ends that begins now; one whose end the clock cannot tell takes thirty years. -/
def endOfPause (d : Duration) (last now : Nat) : Nat :=
  (d.after? last now).getD (now + longestPause)

section after

variable {d : Duration} {last now later instant : Nat}

theorem after?_eq_some (h : d.after? last now = some instant) :
    instant = now + d.ticks := by
  unfold after? at h
  split at h
  · exact (Option.some.inj h).symm
  · cases h

/-- A clock that can tell when a span ends can tell when it ends if it begins earlier. -/
theorem after?_earlier (h : d.after? last later ≠ none) (hle : now ≤ later) :
    d.after? last now ≠ none := by
  unfold after? at h ⊢
  split at h
  · rename_i hlast
    rw [if_pos (Nat.le_trans (Nat.add_le_add_right hle _) hlast)]
    exact fun hnone => nomatch hnone
  · exact absurd rfl h

/-- A pause is the whole span, unless the clock cannot tell its end. -/
theorem endOfPause_cases (d : Duration) (last now : Nat) :
    d.after? last now ≠ none ∧ d.endOfPause last now = now + d.ticks ∨
      d.after? last now = none ∧ d.endOfPause last now = now + longestPause := by
  unfold endOfPause
  cases h : d.after? last now with
  | some instant => exact .inl ⟨fun hnone => (nomatch hnone), after?_eq_some h⟩
  | none => exact .inr ⟨rfl, rfl⟩

theorem le_endOfPause (d : Duration) (last now : Nat) : now ≤ d.endOfPause last now := by
  obtain ⟨_, heq⟩ | ⟨_, heq⟩ := d.endOfPause_cases last now
  · exact heq ▸ Nat.le_add_right _ _
  · exact heq ▸ Nat.le_add_right _ _

end after

def isZero (d : Duration) : Bool := d.nanoseconds == 0

instance : Min Duration := ⟨fun a b => ⟨min a.nanoseconds b.nanoseconds⟩⟩

/-- Seconds as a double: the whole ones plus the rest over a billion. -/
def toSeconds (d : Duration) : Binary64 :=
  (Binary64.ofNat d.seconds).add ((Binary64.ofNat d.subsecond).div (Binary64.ofNat (perSecond)))

/-- The duration nearest to a number of seconds, to the nanosecond; none if it is negative, no
number, or as long as 2^64 seconds. -/
def ofSeconds? : Binary64 → Option Duration
  | .finite s m e =>
    if s && m != 0 then none
    else
      let (num, den) := if 0 ≤ e then (m * Nat.pow 2 e.toNat, 1) else (m, Nat.pow 2 (-e).toNat)
      if 18446744073709551616 * den ≤ num then none else some ⟨roundDiv (num * perSecond) den⟩
  | _ => none

end Duration

end ChannelFeed
