import ChannelFeed.Proofs.Bus.Next
import Mathlib.Data.List.Induction

namespace ChannelFeed

/-- A bus with those who listen to it, who are numbered as they came. -/
structure Audience where
  bus : Bus
  streams : List Stream

namespace Audience

inductive Use where
  | publish (event : Event)
  | listen (edge : Option String)
  | tryNext (listener : Nat)
  deriving DecidableEq

def Use.event? : Use → Option Event
  | publish event => some event
  | _ => none

def Use.opens : Use → Bool
  | listen _ => true
  | _ => false

def tryNext (a : Audience) (listener : Nat) : Audience × Option Event :=
  match a.streams[listener]? with
  | some s =>
    let (event, s, _) := s.tryNext a.bus
    ({ a with streams := a.streams.set listener s }, event)
  | none => (a, none)

def use (a : Audience) : Use → Audience × Option Event
  | .publish event => ({ a with bus := a.bus.publish event }, none)
  | .listen edge =>
    let (bus, stream) := a.bus.listen edge
    (⟨bus, a.streams ++ [stream]⟩, none)
  | .tryNext listener => a.tryNext listener

def run (a : Audience) (uses : List Use) : Audience := uses.foldl (fun a x => (a.use x).1) a

def heard (listener : Nat) (a : Audience) : List Use → List Event
  | [] => []
  | x :: rest =>
    (if x = .tryNext listener then (a.use x).2.toList else []) ++ heard listener (a.use x).1 rest

def published (uses : List Use) : List Event := uses.filterMap Use.event?

def opened (uses : List Use) : Nat := uses.countP Use.opens

variable {a : Audience} {uses : List Use} {x : Use} {n : Nat} {s : Stream}

theorem run_append (a : Audience) (uses : List Use) (x : Use) :
    a.run (uses ++ [x]) = ((a.run uses).use x).1 := by
  simp [run]

theorem heard_append (n : Nat) (a : Audience) (uses : List Use) (x : Use) :
    heard n a (uses ++ [x]) = heard n a uses ++
      if x = .tryNext n then ((a.run uses).use x).2.toList else [] := by
  induction uses generalizing a with
  | nil => simp [heard, run]
  | cons y rest ih => simp [heard, run, ih]

theorem published_append (uses : List Use) (x : Use) :
    published (uses ++ [x]) = published uses ++ x.event?.toList := by
  cases h : x.event? <;> simp [published, h]

theorem tryNext_eq (h : a.streams[n]? = some s) : a.tryNext n =
    ({ a with streams := a.streams.set n (s.tryNext a.bus).2.1 }, (s.tryNext a.bus).1) := by
  rw [tryNext, h]

theorem tryNext_absent (h : a.streams[n]? = none) : a.tryNext n = (a, none) := by
  rw [tryNext, h]

theorem tryNext_bus (a : Audience) (n : Nat) : (a.tryNext n).1.bus = a.bus := by
  cases h : a.streams[n]? with
  | some s => rw [tryNext_eq h]
  | none => rw [tryNext_absent h]

theorem use_bus (a : Audience) (x : Use) :
    (a.use x).1.bus.history.toList = a.bus.history.toList ++ x.event?.toList ∧
      (a.use x).1.bus.capacity = a.bus.capacity := by
  cases x with
  | publish event => simp [use, Bus.publish, Use.event?]
  | listen edge => simp [use, Bus.listen, Use.event?]
  | tryNext listener => simp [use, tryNext_bus, Use.event?]

theorem use_stream (h : a.streams[n]? = some s) (x : Use) :
    (a.use x).1.streams[n]? = some (if x = .tryNext n then (s.tryNext a.bus).2.1 else s) := by
  obtain ⟨hn, _⟩ := List.getElem?_eq_some_iff.mp h
  cases x with
  | publish event => simpa [use] using h
  | listen edge => simp [use, List.getElem?_append_left hn, h]
  | tryNext listener =>
    rw [use]
    by_cases hown : listener = n
    · subst hown
      rw [tryNext_eq h, if_pos rfl, List.getElem?_set_self hn]
    · rw [if_neg (by simpa using hown)]
      cases hother : a.streams[listener]? with
      | some t => rw [tryNext_eq hother, List.getElem?_set_ne hown, h]
      | none => rw [tryNext_absent hother, h]

theorem use_answer (h : a.streams[n]? = some s) :
    (a.use (.tryNext n)).2 = (s.tryNext a.bus).1 := by
  rw [use, tryNext_eq h]

theorem use_opened (a : Audience) (x : Use) :
    (a.use x).1.streams.length = a.streams.length + if x.opens then 1 else 0 := by
  cases x with
  | publish event => simp [use, Use.opens]
  | listen edge => simp [use, Use.opens]
  | tryNext listener =>
    rw [use]
    cases h : a.streams[listener]? with
    | some s => simp [tryNext_eq h, Use.opens]
    | none => simp [tryNext_absent h, Use.opens]

/-- A bus with which something was done since it was new. -/
structure Follows (b : Bus) (uses : List Use) (a : Audience) : Prop where
  history : a.bus.history.toList = published uses
  capacity : a.bus.capacity = b.capacity
  opened : a.streams.length = opened uses

theorem run_follows {b : Bus} (new : b.history = #[]) (uses : List Use) :
    Follows b uses (run ⟨b, []⟩ uses) := by
  induction uses using List.reverseRecOn with
  | nil => exact ⟨by simp [run, published, new], rfl, rfl⟩
  | append_singleton uses x ih =>
    rw [run_append]
    obtain ⟨hhistory, hcapacity⟩ := use_bus (run ⟨b, []⟩ uses) x
    refine ⟨?_, hcapacity.trans ih.capacity, ?_⟩
    · rw [hhistory, ih.history, published_append]
    · rw [use_opened, ih.opened]
      simp [Audience.opened]

end Audience

end ChannelFeed
