import ChannelFeed.Number.Duration

namespace ChannelFeed

/-- What time does to a system: when its next timer is due, and what it comes to when the clock
reaches an instant. -/
structure Timed (σ : Type) where
  timer? : σ → Option Nat
  wake : Nat → σ → σ

namespace Timed

variable {σ : Type}

/-- Lets time pass from `now` to `target` unless a state is reached on the way that is waited for:
the state with the time at which it was reached. -/
def runUntil (t : Timed σ) (reached : σ → Bool) (now target : Nat) (s : σ) : σ × Nat :=
  go (target - now) now s
where
  go : Nat → Nat → σ → σ × Nat
    | 0, now, s => (s, now)
    | steps + 1, now, s =>
      match t.timer? s with
      | some due =>
        if now < due ∧ due < target then
          let s := t.wake due s
          if reached s then (s, due) else go steps due s
        else (t.wake target s, target)
      | none => (t.wake target s, target)

def run (t : Timed σ) (now target : Nat) (s : σ) : σ :=
  (t.runUntil (fun _ => false) now target s).1

/-- Lets so many milliseconds pass. Whoever waits for longer than the longest pause waits that long. -/
def pass (t : Timed σ) (now ms : Nat) (s : σ) : σ :=
  t.run now (now + min ms Duration.longestPause) s

end Timed

end ChannelFeed
