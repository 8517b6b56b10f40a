import ChannelFeed.Proofs.Bus.Audience
import Mathlib.Data.List.Forall2

namespace ChannelFeed.Audience

/-- A listener by the bus when it was new, what happened on that before the listener came, and the edge
it listens to, if not to all. -/
structure Listener where
  bus : Bus
  before : List Use
  edge : Option String

namespace Listener

variable (l : Listener) (since : List Use)

def number : Nat := opened l.before

def start : Nat := (published l.before).length

def past : List Use := l.before ++ .listen l.edge :: since

def audience : Audience := run ⟨l.bus, []⟩ (l.past since)

def events : List Event := published (l.past since)

/-- How many events it has passed, be it that it heard them or not, with those from before it came. -/
def passed : Nat := ((l.audience since).streams[l.number]?).elim 0 Stream.position

def answer : Option Event := ((l.audience since).use (.tryNext l.number)).2

def heard : List Event := Audience.heard l.number (l.audience []) since

/-- The event at a place is one of its edge. -/
def Concerns (place : Nat) : Prop :=
  ∃ e, (l.events since)[place]? = some e ∧ ∀ edge ∈ l.edge, e.edge = edge

/-- The event at a place concerns it, came after it did, has not been passed and is one of the last so
many. -/
def Awaits (kept place : Nat) : Prop :=
  l.start ≤ place ∧ l.passed since ≤ place ∧ (l.events since).length ≤ place + kept ∧
    l.Concerns since place

/-- The bus had published so many events after one that the listener had still to pass. -/
def Overrun (kept place : Nat) : Prop :=
  ∃ earlier later, since = earlier ++ later ∧ l.passed earlier ≤ place ∧
    place + kept < (l.events earlier).length

/-- The places of the events it has heard. -/
structure Trail (kept : Nat) (places : List Nat) : Prop where
  ascending : places.Pairwise (· < ·)
  heard : List.Forall₂ (fun place e => (l.events since)[place]? = some e) places (l.heard since)
  own : ∀ place ∈ places, l.start ≤ place ∧ place < l.passed since ∧ l.Concerns since place
  missed : ∀ place, l.start ≤ place → place < l.passed since → l.Concerns since place →
    place ∉ places → l.Overrun since kept place

/-- How it fares on a bus that keeps so many events. -/
structure Hears (kept : Nat) : Prop where
  stands : (l.audience since).streams[l.number]? = some ⟨l.passed since, l.edge⟩
  /-- It gets the first event that it awaits, ... -/
  gets : ∀ e, l.answer since = some e ↔ ∃ place, l.Awaits since kept place ∧
    (l.events since)[place]? = some e ∧ ∀ other, l.Awaits since kept other → place ≤ other
  /-- ... and nothing if it awaits none. -/
  nothing : l.answer since = none ↔ ∀ place, ¬ l.Awaits since kept place
  /-- Its try is over after a round for each event it has not passed and one more. -/
  ends : (Stream.nextWithin (l.audience since).bus ((l.events since).length - l.passed since + 1)
    ⟨l.passed since, l.edge⟩).map (fun result => result.1.event?) = some (l.answer since)
  begins : l.passed [] = l.start
  /-- By a try it passes what it gets with all before that, ... -/
  passes : ∀ place, l.Awaits since kept place → (∀ other, l.Awaits since kept other → place ≤ other) →
    l.passed (since ++ [.tryNext l.number]) = place + 1
  /-- ... or everything, ... -/
  passesAll : (∀ place, ¬ l.Awaits since kept place) →
    l.passed (since ++ [.tryNext l.number]) = (l.events since).length
  /-- ... and by nothing else. -/
  waits : ∀ x, x ≠ .tryNext l.number → l.passed (since ++ [x]) = l.passed since
  trail : ∃ places, l.Trail since kept places

variable {l since} {x : Use} {kept place : Nat} {places : List Nat}

theorem past_append : l.past (since ++ [x]) = l.past since ++ [x] := by
  simp [past]

theorem audience_append : l.audience (since ++ [x]) = ((l.audience since).use x).1 := by
  rw [audience, past_append, run_append]
  rfl

theorem events_append : l.events (since ++ [x]) = l.events since ++ x.event?.toList := by
  rw [events, past_append, published_append]
  rfl

theorem events_tryNext {listener : Nat} : l.events (since ++ [.tryNext listener]) = l.events since := by
  rw [events_append]
  exact List.append_nil _

theorem start_eq : l.start = (l.events []).length := by
  simp [start, events, past, published_append, Use.event?]

theorem passed_eq {s : Stream} (h : (l.audience since).streams[l.number]? = some s) :
    l.passed since = s.position := by
  rw [passed, h]
  rfl

/-- A listener in its place, between the events that were there before it and the last one. -/
structure Stands (l : Listener) (since : List Use) : Prop where
  stream : (l.audience since).streams[l.number]? = some ⟨l.passed since, l.edge⟩
  start : l.start ≤ l.passed since
  last : l.passed since ≤ (l.events since).length

/-- The bus was new and keeps so many events. -/
structure Fresh (l : Listener) (kept : Nat) : Prop where
  history : l.bus.history = #[]
  capacity : l.bus.capacity = kept

theorem Fresh.follows (h : l.Fresh kept) (since : List Use) :
    Follows l.bus (l.past since) (l.audience since) := run_follows h.history _

theorem Fresh.size (h : l.Fresh kept) (since : List Use) :
    (l.audience since).bus.history.size = (l.events since).length := by
  rw [events, ← (h.follows since).history, Array.length_toList]

/-- A listener starts behind all that was published before it came. -/
theorem Fresh.stream_nil (h : l.Fresh kept) :
    (l.audience []).streams[l.number]? = some ⟨l.start, l.edge⟩ := by
  have hbefore := run_follows h.history l.before
  have hlast : l.audience [] = ((run ⟨l.bus, []⟩ l.before).use (.listen l.edge)).1 :=
    run_append _ _ _
  rw [hlast, number, ← hbefore.opened, start, ← hbefore.history]
  simp [use, Bus.listen]

theorem Fresh.passed_nil (h : l.Fresh kept) : l.passed [] = l.start := passed_eq h.stream_nil

theorem Fresh.stands_nil (h : l.Fresh kept) : l.Stands [] where
  stream := by rw [h.passed_nil, h.stream_nil]
  start := Nat.le_of_eq h.passed_nil.symm
  last := Nat.le_of_eq (h.passed_nil.trans start_eq)

/-- What is due to a listener is what it awaits. -/
theorem Fresh.isDue_iff (h : l.Fresh kept) (hs : l.Stands since) (place : Nat) :
    Stream.IsDue (l.audience since).bus ⟨l.passed since, l.edge⟩ place ↔
      l.Awaits since kept place := by
  have hfollows := h.follows since
  unfold Stream.IsDue Awaits Concerns
  rw [h.size, hfollows.capacity, h.capacity, events, ← hfollows.history]
  simp only [Array.getElem?_toList, Stream.accepts_iff]
  constructor
  · rintro ⟨hpassed, hkept, hfor⟩
    exact ⟨Nat.le_trans hs.start hpassed, hpassed, hkept, hfor⟩
  · rintro ⟨_, hpassed, hkept, hfor⟩
    exact ⟨hpassed, hkept, hfor⟩

inductive Turn (l : Listener) (since : List Use) (kept : Nat) : Prop where
  | first {e : Event} {place : Nat} (gets : l.answer since = some e)
      (awaits : l.Awaits since kept place) (event : (l.events since)[place]? = some e)
      (least : ∀ other, l.Awaits since kept other → place ≤ other)
      (passes : l.passed (since ++ [.tryNext l.number]) = place + 1)
  | nothing (gets : l.answer since = none) (quiet : ∀ place, ¬ l.Awaits since kept place)
      (passes : l.passed (since ++ [.tryNext l.number]) = (l.events since).length)

theorem Fresh.turn (h : l.Fresh kept) (hs : l.Stands since) :
    l.Turn since kept ∧ l.Stands (since ++ [.tryNext l.number]) := by
  have hlast : Stream.position ⟨l.passed since, l.edge⟩ ≤ (l.audience since).bus.history.size := by
    rw [h.size]
    exact hs.last
  have htakes := Stream.tryNext_takes hlast
  have hanswer := use_answer hs.stream
  have hstream := use_stream hs.stream (.tryNext l.number)
  rw [if_pos rfl, ← audience_append] at hstream
  -- only what the try comes to matters, not how it gets there
  generalize (Stream.tryNext ⟨l.passed since, l.edge⟩ (l.audience since).bus).1 = found at *
  generalize (Stream.tryNext ⟨l.passed since, l.edge⟩ (l.audience since).bus).2.1 = after at *
  cases htakes with
  | @first e place due event least =>
    have hpassed := passed_eq hstream
    have hawaits := (h.isDue_iff hs place).mp due
    have hevent : (l.events since)[place]? = some e := by
      rw [events, ← (h.follows since).history, Array.getElem?_toList, event]
    obtain ⟨hlt, _⟩ := List.getElem?_eq_some_iff.mp hevent
    refine ⟨.first hanswer hawaits hevent (fun other ho => least other ((h.isDue_iff hs other).mpr ho))
      hpassed, ⟨hpassed ▸ hstream, ?_, ?_⟩⟩
    · rw [hpassed]
      exact Nat.le_succ_of_le hawaits.1
    · rw [hpassed, events_tryNext]
      exact hlt
  | nothing quiet =>
    have hpassed := (passed_eq hstream).trans (h.size since)
    refine ⟨.nothing hanswer (fun place hp => quiet place ((h.isDue_iff hs place).mpr hp)) hpassed,
      ⟨?_, ?_, ?_⟩⟩
    · rw [hstream, hpassed, h.size]
    · rw [hpassed]
      exact Nat.le_trans hs.start hs.last
    · exact Nat.le_of_eq (by rw [hpassed, events_tryNext])

theorem Stands.waits (hs : l.Stands since) (other : x ≠ .tryNext l.number) :
    l.passed (since ++ [x]) = l.passed since ∧ l.Stands (since ++ [x]) := by
  have hstream := use_stream hs.stream x
  rw [if_neg other, ← audience_append] at hstream
  have hpassed := passed_eq hstream
  dsimp only at hpassed
  refine ⟨hpassed, ⟨hpassed ▸ hstream, hpassed ▸ hs.start, ?_⟩⟩
  rw [hpassed, events_append, List.length_append]
  exact Nat.le_add_right_of_le hs.last

theorem Fresh.stands (h : l.Fresh kept) (since : List Use) : l.Stands since := by
  induction since using List.reverseRecOn with
  | nil => exact h.stands_nil
  | append_singleton since x ih =>
    by_cases hown : x = .tryNext l.number
    · subst hown
      exact (h.turn ih).2
    · exact (ih.waits hown).2

theorem heard_append : l.heard (since ++ [x]) = l.heard since ++
    if x = .tryNext l.number then (l.answer since).toList else [] := by
  have hrun : (l.audience []).run since = l.audience since := by simp [audience, past, run]
  rw [heard, Audience.heard_append, hrun]
  split
  · rename_i hown
    rw [hown]
    rfl
  · rfl

theorem getElem?_events (h : place < (l.events since).length) (x : Use) :
    (l.events (since ++ [x]))[place]? = (l.events since)[place]? := by
  rw [events_append, List.getElem?_append_left h]

theorem concerns_append (h : place < (l.events since).length) (x : Use) :
    l.Concerns (since ++ [x]) place ↔ l.Concerns since place := by
  unfold Concerns
  rw [getElem?_events h]

theorem Concerns.lt (h : l.Concerns since place) : place < (l.events since).length := by
  obtain ⟨e, he, _⟩ := h
  exact (List.getElem?_eq_some_iff.mp he).1

theorem Overrun.later (h : l.Overrun since kept place) (x : Use) :
    l.Overrun (since ++ [x]) kept place := by
  obtain ⟨earlier, later, rfl, hpassed, hmany⟩ := h
  exact ⟨earlier, later ++ [x], by simp, hpassed, hmany⟩

theorem Trail.heard_later (h : l.Trail since kept places) (x : Use) :
    List.Forall₂ (fun place e => (l.events (since ++ [x]))[place]? = some e) places
      (l.heard since) := by
  refine h.heard.imp (fun place e he => ?_)
  rw [getElem?_events (List.getElem?_eq_some_iff.mp he).1, he]

/-- What was not heard and is not awaited any more was overrun. -/
theorem Trail.overrun (h : l.Trail since kept places) (start : l.start ≤ place)
    (concerns : l.Concerns since place) (unheard : place ∉ places)
    (unawaited : ¬ l.Awaits since kept place) (x : Use) : l.Overrun (since ++ [x]) kept place := by
  rcases Nat.lt_or_ge place (l.passed since) with hlt | hge
  · exact (h.missed place start hlt concerns unheard).later x
  · refine ⟨since, [x], rfl, hge, Nat.lt_of_not_le (fun hkept => ?_)⟩
    exact unawaited ⟨start, hge, hkept, concerns⟩

theorem trail_nil (h : l.passed [] = l.start) : l.Trail [] kept [] where
  ascending := .nil
  heard := .nil
  own := by simp
  missed place hstart hlt := absurd (h ▸ hlt) (Nat.not_lt.mpr hstart)

theorem Trail.waits (h : l.Trail since kept places) (hs : l.Stands since)
    (other : x ≠ .tryNext l.number) : l.Trail (since ++ [x]) kept places := by
  have hpassed := (hs.waits other).1
  refine ⟨h.ascending, ?_, fun place hplace => ?_, fun place hstart hlt hconcerns hnot => ?_⟩
  · rw [heard_append, if_neg other, List.append_nil]
    exact h.heard_later x
  · obtain ⟨hstart, hlt, hconcerns⟩ := h.own place hplace
    exact ⟨hstart, hpassed ▸ hlt, (concerns_append hconcerns.lt x).mpr hconcerns⟩
  · rw [hpassed] at hlt
    have hbefore := (concerns_append (Nat.lt_of_lt_of_le hlt hs.last) x).mp hconcerns
    exact (h.missed place hstart hlt hbefore hnot).later x

theorem Trail.tries (h : l.Trail since kept places) (turn : l.Turn since kept) :
    ∃ more, l.Trail (since ++ [.tryNext l.number]) kept more := by
  have hconcerns : ∀ place, l.Concerns (since ++ [.tryNext l.number]) place ↔
      l.Concerns since place := fun place => by rw [Concerns, Concerns, events_tryNext]
  have hheard : l.heard (since ++ [.tryNext l.number]) =
      l.heard since ++ (l.answer since).toList := by
    rw [heard_append, if_pos rfl]
  cases turn with
  | @first e place gets awaits event least passes =>
    rw [gets] at hheard
    have hbefore : ∀ other ∈ places, other < place := fun other hother =>
      Nat.lt_of_lt_of_le (h.own other hother).2.1 awaits.2.1
    refine ⟨places ++ [place], ?_, ?_, fun other hother => ?_, fun other hstart hlt hc hnot => ?_⟩
    · rw [List.pairwise_append]
      exact ⟨h.ascending, List.pairwise_singleton _ _, by simpa using hbefore⟩
    · rw [hheard]
      refine List.rel_append (h.heard_later _) (.cons ?_ .nil)
      rw [events_tryNext, event]
    · rw [passes, hconcerns]
      rcases List.mem_append.mp hother with hold | hnew
      · obtain ⟨hstart, _, hc⟩ := h.own other hold
        exact ⟨hstart, Nat.lt_succ_of_lt (hbefore other hold), hc⟩
      · rw [List.mem_singleton.mp hnew]
        exact ⟨awaits.1, Nat.lt_succ_self place, awaits.2.2.2⟩
    · -- what it passes without hearing it comes before the first it awaits
      rw [passes] at hlt
      rw [List.mem_append, List.mem_singleton, not_or] at hnot
      refine h.overrun hstart ((hconcerns other).mp hc) hnot.1 (fun hawaits => ?_) _
      exact hnot.2 (Nat.le_antisymm (Nat.le_of_lt_succ hlt) (least other hawaits))
  | nothing gets quiet passes =>
    rw [gets] at hheard
    refine ⟨places, h.ascending, ?_, fun other hother => ?_, fun other hstart hlt hc hnot => ?_⟩
    · rw [hheard]
      simpa using h.heard_later _
    · obtain ⟨hstart, _, hc⟩ := h.own other hother
      exact ⟨hstart, passes ▸ hc.lt, (hconcerns other).mpr hc⟩
    · exact h.overrun hstart ((hconcerns other).mp hc) hnot (quiet other) _

theorem Fresh.trail (h : l.Fresh kept) (since : List Use) : ∃ places, l.Trail since kept places := by
  induction since using List.reverseRecOn with
  | nil => exact ⟨[], trail_nil h.passed_nil⟩
  | append_singleton since x ih =>
    obtain ⟨places, htrail⟩ := ih
    by_cases hown : x = .tryNext l.number
    · subst hown
      exact htrail.tries (h.turn (h.stands since)).1
    · exact ⟨places, htrail.waits (h.stands since) hown⟩

theorem Fresh.ends (h : l.Fresh kept) (since : List Use) :
    (Stream.nextWithin (l.audience since).bus ((l.events since).length - l.passed since + 1)
      ⟨l.passed since, l.edge⟩).map (fun result => result.1.event?) = some (l.answer since) := by
  have hs := h.stands since
  have hmany : (l.audience since).bus.history.size ≤
      l.passed since + ((l.events since).length - l.passed since) := by
    rw [h.size]
    omega
  rw [Stream.nextWithin_enough hmany, Option.map_some, answer, use_answer hs.stream,
    (Stream.tryNext_eq _ _).1]

theorem Turn.gets_iff (h : l.Turn since kept) (e : Event) : l.answer since = some e ↔
    ∃ place, l.Awaits since kept place ∧ (l.events since)[place]? = some e ∧
      ∀ other, l.Awaits since kept other → place ≤ other := by
  cases h with
  | @first e' place gets awaits event least passes =>
    rw [gets]
    constructor
    · rintro ⟨⟩
      exact ⟨place, awaits, event, least⟩
    · rintro ⟨place', hawaits, hevent, hleast⟩
      rw [Nat.le_antisymm (hleast place awaits) (least place' hawaits), event] at hevent
      exact hevent
  | nothing gets quiet passes =>
    rw [gets]
    constructor
    · rintro ⟨⟩
    · rintro ⟨place, hawaits, _⟩
      exact absurd hawaits (quiet place)

theorem Turn.nothing_iff (h : l.Turn since kept) :
    l.answer since = none ↔ ∀ place, ¬ l.Awaits since kept place := by
  cases h with
  | first gets awaits event least passes =>
    rw [gets]
    constructor
    · rintro ⟨⟩
    · intro hquiet
      exact absurd awaits (hquiet _)
  | nothing gets quiet passes => exact ⟨fun _ => quiet, fun _ => gets⟩

theorem Turn.passes_first (h : l.Turn since kept) (hawaits : l.Awaits since kept place)
    (hleast : ∀ other, l.Awaits since kept other → place ≤ other) :
    l.passed (since ++ [.tryNext l.number]) = place + 1 := by
  cases h with
  | first gets awaits event least passes =>
    rw [passes, Nat.le_antisymm (hleast _ awaits) (least _ hawaits)]
  | nothing gets quiet passes => exact absurd hawaits (quiet place)

theorem Turn.passes_all (h : l.Turn since kept)
    (hquiet : ∀ place, ¬ l.Awaits since kept place) :
    l.passed (since ++ [.tryNext l.number]) = (l.events since).length := by
  cases h with
  | first gets awaits event least passes => exact absurd awaits (hquiet _)
  | nothing gets quiet passes => exact passes

theorem fresh_of_made {capacity : Nat} (made : Bus.ofCapacity? capacity = some l.bus) :
    l.Fresh capacity.nextPowerOfTwo := by
  unfold Bus.ofCapacity? at made
  split at made
  · have hbus := Option.some.inj made
    exact ⟨by rw [← hbus], by rw [← hbus]⟩
  · cases made

/-- Whatever happens on a bus and whoever else listens to it, a listener hears what it should. -/
theorem hears_in_order {capacity : Nat} (made : Bus.ofCapacity? capacity = some l.bus)
    (since : List Use) : l.Hears since capacity.nextPowerOfTwo := by
  have h := fresh_of_made made
  have hs := h.stands since
  have hturn := (h.turn hs).1
  exact
    { stands := hs.stream
      gets := hturn.gets_iff
      nothing := hturn.nothing_iff
      ends := h.ends since
      begins := h.passed_nil
      passes := fun _ => hturn.passes_first
      passesAll := hturn.passes_all
      waits := fun _ hx => (hs.waits hx).1
      trail := h.trail since }

/-- Four events of another edge follow before the listener looks, so that it misses the first of its own;
it hears the next ones as they come. -/
theorem overrun_by_others : ∃ (l : Listener) (since : List Use), Bus.ofCapacity? 3 = some l.bus ∧
    l.Hears since 4 ∧ l.heard since = [.added "a", .removed "a"] ∧ l.passed since = 8 ∧
    l.Overrun since 4 1 ∧ l.answer since = none := by
  have hmade : Bus.ofCapacity? 3 = some ⟨4, #[], 0, false⟩ := by decide +kernel
  have hkept : Nat.nextPowerOfTwo 3 = 4 := by decide +kernel
  let l : Listener := ⟨⟨4, #[], 0, false⟩, [.publish (.added "a")], some "a"⟩
  let since : List Use := [.publish (.removed "a"), .publish (.added "b"), .listen none,
    .publish (.removed "b"), .publish (.added "b"), .publish (.removed "b"), .tryNext 1,
    .publish (.added "a"), .tryNext 0, .tryNext 0, .publish (.removed "a"), .tryNext 0]
  have hhears : l.Hears since (Nat.nextPowerOfTwo 3) := hears_in_order hmade since
  rw [hkept] at hhears
  refine ⟨l, since, hmade, hhears, by decide +kernel, by decide +kernel, ?_, by decide +kernel⟩
  exact ⟨since.take 8, since.drop 8, rfl, by decide +kernel, by decide +kernel⟩

end Listener

end ChannelFeed.Audience
