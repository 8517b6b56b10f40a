import ChannelFeed.Proofs.Session.Requests
import ChannelFeed.Proofs.Session.Silence

namespace ChannelFeed.Session

variable {s t : Session} {x : Step} {past : Past} {d : Drive}

def putAtIn (link : Nat) (s : Session) (x : Step) : List Nat :=
  ((s.putIn x).filter (fun p => p.1 == link)).map (fun _ => s.now)

/-- When the last request was put on a link. -/
def lastPut (past : Past) (link : Nat) : Option Nat := (logged (putAtIn link) past).getLast?

/-- When the last frame was taken off a link, whatever it was. -/
def lastTaken (past : Past) (link : Nat) : Option Nat :=
  (logged (fun s x => (takenOffIn link s x).map Prod.fst) past).getLast?

theorem putAtIn_instant {link i : Nat} (h : i ∈ putAtIn link s x) : i = s.now := by
  obtain ⟨_, _, rfl⟩ := List.mem_map.mp h
  rfl

theorem max_now {now : Nat} {earlier : Option Nat} (h : ∀ i ∈ earlier, i ≤ now) :
    max (some now) earlier = some now ∧ max earlier (some now) = some now := by
  cases earlier with
  | none => exact ⟨rfl, rfl⟩
  | some i =>
    have hi := h i rfl
    exact ⟨congrArg some (Nat.max_eq_left hi), congrArg some (Nat.max_eq_right hi)⟩

theorem getLast?_instants {now : Nat} {instants : List Nat} (h : ∀ i ∈ instants, i = now) :
    instants.getLast? = none ∨ instants.getLast? = some now := by
  cases hlast : instants.getLast? with
  | none => exact .inl rfl
  | some i => exact .inr (congrArg some (h i (List.mem_of_getLast? hlast)))

/-- Of two kinds of instants that are written down together the last is the later of the last of each
kind. -/
theorem Reached.last_of_both {a b : Session → Step → List Nat} (h : Reached past s)
    (ha : ∀ s x, ∀ i ∈ a s x, i = s.now) (hb : ∀ s x, ∀ i ∈ b s x, i = s.now) :
    (logged (fun s x => a s x ++ b s x) past).getLast? =
      max (logged a past).getLast? (logged b past).getLast? := by
  induction h with
  | start promised started => rfl
  | @step past u t x earlier possible ih =>
    have hbefore : ∀ {e : Session → Step → List Nat}, (∀ s x, ∀ i ∈ e s x, i = s.now) →
        ∀ i ∈ (logged e past).getLast?, i ≤ u.now :=
      fun he i hi => (earlier.logged_ascending he).2 i (List.mem_of_getLast? hi)
    simp only [logged_append, List.getLast?_append, ih]
    rcases getLast?_instants (ha u x) with hnone | hnow
    · rcases getLast?_instants (hb u x) with hnone' | hnow'
      · simp [hnone, hnone']
      · simp [hnone, hnow', (max_now (hbefore ha)).2]
    · rcases getLast?_instants (hb u x) with hnone' | hnow'
      · simp [hnow, hnone', (max_now (hbefore hb)).1]
      · simp [hnow, hnow']

/-- Silence on a link counts from the last request or the last frame, whichever came later. -/
theorem Reached.last_stir (h : Reached past s) (link : Nat) :
    (logged (stirsIn link) past).getLast? = max (lastPut past link) (lastTaken past link) := by
  refine h.last_of_both (fun _ _ _ => putAtIn_instant) (fun s x i hi => ?_)
  obtain ⟨frame, hframe, rfl⟩ := List.mem_map.mp hi
  exact takenOffIn_instant hframe

theorem isEmpty_eq_false {addresses : AddressSet} :
    addresses.isEmpty = false ↔ addresses ≠ .empty := by
  refine ⟨fun h he => ?_, fun h => ?_⟩
  · rw [he] at h
    cases h
  · cases hempty : addresses.isEmpty with
    | false => rfl
    | true => exact absurd (SortedSet.ext_toList (List.isEmpty_iff.mp hempty)) h

/-- What was last asked for on a link was asked for at some instant. -/
theorem lastPut_isSome {link : Nat} (h : channelsOf (putOn past link) ≠ .empty) :
    (lastPut past link).isSome = true := by
  have hput : putOn past link ≠ [] := fun hnone => h (by rw [hnone]; rfl)
  obtain ⟨r, hr⟩ := List.exists_mem_of_ne_nil _ hput
  obtain ⟨p, hp, rfl⟩ := List.mem_map.mp hr
  obtain ⟨hp, hlink⟩ := List.mem_filter.mp hp
  obtain ⟨moment, hm, hp⟩ := List.mem_flatMap.mp hp
  have hinstant : moment.1.now ∈ putAtIn link moment.1 moment.2 :=
    List.mem_map.mpr ⟨p, List.mem_filter.mpr ⟨hp, hlink⟩, rfl⟩
  rw [lastPut, List.getLast?_isSome]
  exact List.ne_nil_of_mem (List.mem_flatMap.mpr ⟨moment, hm, hinstant⟩)

/-- The deadline counts from the later of the last request and the last frame. -/
theorem Reached.deadline_eq (h : Reached past s) (hd : s.phase.drive? = some d) :
    d.deadline = dueAt? s.idle (channelsOf (putOn past d.link))
      (max (lastPut past d.link) (lastTaken past d.link)) := by
  rw [← h.last_stir, ← (h.requests_follow.remembered d hd).1]
  exact h.armed hd

/-- A span of whole milliseconds is over as soon as the timeout is. -/
theorem ticks_le_iff (timeout : Duration) (began now : Nat) :
    began + timeout.ticks ≤ now ↔
      began * Duration.perMilli + timeout.nanoseconds ≤ now * Duration.perMilli := by
  refine ⟨ticks_over, fun h => ?_⟩
  unfold Duration.ticks Duration.perMilli
  unfold Duration.perMilli at h
  omega

theorem Reached.idle_constant (h : Reached past s) : ∀ moment ∈ past, moment.1.idle = s.idle := by
  induction h with
  | start promised started => exact fun _ hm => nomatch hm
  | @step past u t x earlier possible ih =>
    have hidle := (step_traffic possible).idle
    intro moment hm
    rcases List.mem_append.mp hm with hm | hm
    · exact (ih moment hm).trans hidle.symm
    · rw [List.mem_singleton.mp hm]
      exact hidle.symm

/-- How the deadline of a connection goes with what was asked for and what came on it. -/
structure DeadlineFollows (past : Past) (s : Session) : Prop where
  /-- The timeout is what it was from the beginning. -/
  configured : ∀ moment ∈ past, moment.1.idle = s.idle
  /-- A deadline is set if and only if there is a timeout and something is asked for. -/
  armed : ∀ d, s.phase.drive? = some d →
    (d.deadline.isSome = true ↔ s.idle.isSome = true ∧ channelsOf (putOn past d.link) ≠ .empty)
  /-- It is the first millisecond at which the timeout is over since the last request was put on the
  connection, or since the last frame was taken off it if that was later. -/
  due : ∀ d due, s.phase.drive? = some d → d.deadline = some due → ∃ timeout began,
    s.idle = some timeout ∧ max (lastPut past d.link) (lastTaken past d.link) = some began ∧
      due = began + timeout.ticks ∧ ∀ now, due ≤ now ↔
        began * Duration.perMilli + timeout.nanoseconds ≤ now * Duration.perMilli
  /-- No connection is given up as silent on which nothing is asked for, at any time. -/
  spared : ∀ d, s.phase.drive? = some d → channelsOf (putOn past d.link) = .empty →
    ∀ now, (s.atTime now).move? .silence = none
  /-- What is wanted makes no difference until a request is made. -/
  wanted : ∀ addresses t, s.step? (.set addresses) = some t → t.phase = s.phase
  /-- None is made, and the deadline stays, if the same was last asked for. -/
  content : ∀ d t, s.phase = .driving d → s.desired.value = channelsOf (putOn past d.link) →
    s.step? (.move .desire) = some t → t.phase = .driving d

theorem Reached.deadline_follows (h : Reached past s) : DeadlineFollows past s := by
  refine ⟨h.idle_constant, fun d hd => ?_, fun d due hd hdue => ?_, fun d hd hempty now => ?_,
    fun addresses t ht => ?_, fun d t hp hsame ht => ?_⟩
  · rw [Option.isSome_iff_exists, Option.isSome_iff_exists]
    constructor
    · rintro ⟨due, hdue⟩
      rw [h.deadline_eq hd] at hdue
      obtain ⟨timeout, began, hidle, _, hsome, _⟩ := dueAt?_eq_some.mp hdue
      exact ⟨⟨timeout, hidle⟩, isEmpty_eq_false.mp hsome⟩
    · rintro ⟨⟨timeout, hidle⟩, hsome⟩
      obtain ⟨put, hput⟩ := Option.isSome_iff_exists.mp (lastPut_isSome hsome)
      have hbegan : ∃ began, max (some put) (lastTaken past d.link) = some began := by
        cases lastTaken past d.link with
        | none => exact ⟨put, rfl⟩
        | some taken => exact ⟨max put taken, rfl⟩
      obtain ⟨began, hbegan⟩ := hbegan
      rw [← hput] at hbegan
      refine ⟨began + timeout.ticks, ?_⟩
      rw [h.deadline_eq hd]
      exact dueAt?_eq_some.mpr
        ⟨timeout, began, hidle, hbegan, isEmpty_eq_false.mpr hsome, rfl⟩
  · rw [h.deadline_eq hd] at hdue
    obtain ⟨timeout, began, hidle, hbegan, _, rfl⟩ := dueAt?_eq_some.mp hdue
    exact ⟨timeout, began, hidle, hbegan, rfl, ticks_le_iff timeout began⟩
  · rw [Option.eq_none_iff_forall_ne_some]
    intro t ht
    obtain ⟨e, due, hp, hdue, _⟩ := silence_cases ht
    have hp : s.phase = .driving e := hp
    rw [hp] at hd
    cases hd
    rw [h.deadline_eq (by rw [hp]; rfl)] at hdue
    obtain ⟨_, _, _, _, hsome, _⟩ := dueAt?_eq_some.mp hdue
    exact isEmpty_eq_false.mp hsome hempty
  · cases ht
    unfold setSubscription
    split <;> rfl
  · obtain ⟨e, hp', _, rfl⟩ := desire_cases ht
    rw [hp] at hp'
    cases hp'
    have hlast := (h.requests_follow.remembered d (by rw [hp]; rfl)).1
    unfold sync
    dsimp only
    rw [if_pos (hsame.trans hlast.symm)]

/-- A frame that cannot be read puts the deadline off like any other. Wanting something else for a
moment and then the same again does not. -/
theorem malformed_frame_delays : ∃ past s d, Reached past s ∧ s.phase = .driving d ∧
    s.desired.changes = 3 ∧ s.now = 700 ∧ lastPut past d.link = some 0 ∧
    lastTaken past d.link = some 300 ∧ channelsOf (putOn past d.link) ≠ .empty ∧
    d.deadline = some 1300 := by
  have hstart : Reached [] (ofQueue briefly (.queued []) 0 0 ⟨1, [], true, true⟩) :=
    .start (c := briefly) rfl rfl
  obtain ⟨past, s, hreached, _, htest⟩ := hstart.of_replay
    [.move .start, .device (.accept 8 false), .move .connect, .set (.ofList [⟨"c", "A"⟩]),
      .move .desire, .move .request, .device (.send 0 ["no frame"]), .pass 300, .move .frame,
      .pass 400, .set .empty, .set (.ofList [⟨"c", "A"⟩]), .move .desire]
    (fun past s => s.desired.changes == 3 && s.now == 700 && s.idle == some (.ofMillis 1000) &&
      s.phase.drive?.any (fun d => s.phase == .driving d && lastPut past d.link == some 0 &&
        lastTaken past d.link == some 300 && d.deadline.isSome))
    (by decide +kernel)
  simp only [Bool.and_eq_true, beq_iff_eq, Option.any_eq_true] at htest
  obtain ⟨⟨⟨hchanges, hnow⟩, hidle⟩, d, hd, ⟨⟨hphase, hput⟩, htaken⟩, hset⟩ := htest
  have hfollow := hreached.deadline_follows
  obtain ⟨due, hdue⟩ := Option.isSome_iff_exists.mp hset
  obtain ⟨timeout, began, htimeout, hbegan, hwhen, _⟩ := hfollow.due d due hd hdue
  rw [hidle] at htimeout
  cases htimeout
  rw [hput, htaken] at hbegan
  cases hbegan
  refine ⟨past, s, d, hreached, hphase, hchanges, hnow, hput, htaken,
    ((hfollow.armed d hd).mp hset).2, ?_⟩
  rw [hdue, hwhen]
  rfl

end ChannelFeed.Session
