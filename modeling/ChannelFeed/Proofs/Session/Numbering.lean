import Mathlib.Data.List.Basic
import ChannelFeed.Proofs.Session.Requests
import ChannelFeed.Proofs.Session.Stopped

namespace ChannelFeed

/-- Whether listeners are told that a request was sent. -/
def Event.isSent : Event → Bool
  | subscriptionSent _ _ _ => true
  | _ => false

namespace Session

variable {s t u : Session} {x : Step} {past : Past} {settled : List (Nat × Request)}

/-- The request that in a step cannot be put on its connection. -/
def failedIn (s : Session) : Step → List (Nat × Request)
  | .move .request =>
    match s.phase with
    | .requesting d r =>
      match s.links[d.link]? with
      | some l => if (l.toDevice.send r).2 = .closed then [(d.link, r)] else []
      | none => []
    | _ => []
  | _ => []

/-- The request that the session is done with in a step, whether it was put on its connection or could
not be. -/
def settledIn (s : Session) (x : Step) : List (Nat × Request) := s.putIn x ++ s.failedIn x

/-- The requests that the session is done with are numbered from one, and the next in turn is the one
that it is about to send, if it is. -/
structure Numbered (settled : List (Nat × Request)) (s : Session) : Prop where
  counts : settled.map (fun p => p.2.count) = List.range' 1 settled.length
  sending : ∀ d r, s.phase = .requesting d r →
    r.count = settled.length + 1 ∧ s.requestsSent = settled.length + 1
  resting : (∀ d r, s.phase ≠ .requesting d r) → s.requestsSent = settled.length

theorem Numbered.same (h : Numbered settled s) (hp : t.phase = s.phase)
    (hs : t.requestsSent = s.requestsSent) : Numbered settled t :=
  ⟨h.counts, by rw [hp, hs]; exact h.sending, by rw [hp, hs]; exact h.resting⟩

theorem Numbered.rests (h : Numbered settled s) (was : ∀ d r, s.phase ≠ .requesting d r)
    (is : ∀ d r, t.phase ≠ .requesting d r) (hs : t.requestsSent = s.requestsSent) :
    Numbered settled t :=
  ⟨h.counts, fun d r hp => absurd hp (is d r), fun _ => hs.trans (h.resting was)⟩

theorem Numbered.asks {d : Drive} (h : Numbered settled s)
    (was : ∀ d r, s.phase ≠ .requesting d r) (ha : Asks s t d) : Numbered settled t := by
  cases ha with
  | content _ is sent => exact h.rests was (fun e r hp => by simp [is] at hp) sent
  | asks _ is sent =>
    have hcount := h.resting was
    refine ⟨h.counts, fun e r hp => ?_, fun hnot => absurd is (hnot _ _)⟩
    rw [is] at hp
    cases hp
    exact ⟨by rw [hcount], by rw [sent, hcount]⟩

theorem Numbered.settles {d : Drive} {r : Request} (h : Numbered settled s)
    (was : s.phase = .requesting d r) (is : ∀ d r, t.phase ≠ .requesting d r)
    (hs : t.requestsSent = s.requestsSent) : Numbered (settled ++ [(d.link, r)]) t := by
  obtain ⟨hcount, hsent⟩ := h.sending d r was
  refine ⟨?_, fun e q hp => absurd hp (is e q), fun _ => ?_⟩
  · rw [List.map_append, h.counts, List.map_singleton, hcount, List.length_append,
      List.length_singleton, List.range'_concat, Nat.add_comm settled.length, Nat.one_mul]
  · rw [hs, hsent, List.length_append, List.length_singleton]

theorem drive_not_requesting (h : t.phase.drive? = none) (d : Drive) (r : Request) :
    t.phase ≠ .requesting d r := by
  intro hp
  simp [hp, Phase.drive?] at h

theorem request_numbered (h : Numbered settled s) (hm : s.move? .request = some t) :
    Numbered (settled ++ s.settledIn (.move .request)) t := by
  obtain ⟨d, r, l, hp, hl, ⟨toDevice, hs, rfl⟩ | ⟨hs, rfl⟩⟩ := request_cases hm
  · have hone : s.settledIn (.move .request) = [(d.link, r)] := by
      simp [settledIn, putIn, failedIn, hp, hl, hs]
    rw [hone]
    rcases sent_shape (s.modifyLink d.link (fun l => { l with toDevice })) d r with
      ⟨deadline, notes, heq⟩ | hidle
    · rw [heq]
      exact h.settles hp (fun e q is => by cases is) rfl
    · exact h.settles hp (drive_not_requesting hidle.drive) hidle.sent
  · have hone : s.settledIn (.move .request) = [(d.link, r)] := by
      simp [settledIn, putIn, failedIn, hp, hl, hs]
    have hidle := idles_lose s d.link "transport closed while subscribing"
    rw [hone]
    exact h.settles hp (drive_not_requesting hidle.drive) hidle.sent

theorem requesting_stays {d : Drive} {r : Request} (h : s.step? x = some t)
    (hx : x ≠ .move .request) (was : s.phase = .requesting d r) : t.phase = s.phase := by
  rcases step_course h with ⟨m, rfl, _⟩ | ⟨_, hphase, _⟩
  · exact absurd (congrArg Step.move ((waiting_blind h).1 d r was)) hx
  · exact hphase

theorem Numbered.passes {opened : List (Nat × AddressSet)} {handled : List (Nat × String)}
    {taken : List Snapshot} (h : Numbered settled s)
    (stays : ∀ d r, s.phase = .requesting d r → t.phase = s.phase)
    (hp : Passage s x t opened [] handled taken) : Numbered settled t := by
  cases hp with
  | rests phase hs _ => exact h.same phase hs
  | takes phase hs _ => exact h.same phase hs
  | idles _ idle _ =>
    refine h.rests (fun d r was => ?_) (drive_not_requesting idle.drive) idle.sent
    exact drive_not_requesting idle.drive d r ((stays d r was).trans was)
  | opens was _ ha _ => exact h.asks (by simp [was]) ha
  | looks was ha _ => exact h.asks (by simp [was]) ha
  | @handles d text deadline was is hs _ =>
    refine h.rests (by simp [was]) (fun e r hp => ?_) hs
    exact Drive.afterFrame_unasked _ _ _ _ (is ▸ hp)
  | forwards was is hs _ => exact h.rests (by simp [was]) (by simp [is]) hs

theorem settledIn_other (hx : x ≠ .move .request) : s.putIn x = [] ∧ s.failedIn x = [] := by
  cases x with
  | move m => cases m <;> first | exact absurd rfl hx | exact ⟨rfl, rfl⟩
  | _ => exact ⟨rfl, rfl⟩

theorem Numbered.step (h : Numbered settled s) (hx : s.step? x = some t) :
    Numbered (settled ++ s.settledIn x) t := by
  by_cases hrequest : x = .move .request
  · subst hrequest
    exact request_numbered h hx
  · obtain ⟨hput, hfailed⟩ := settledIn_other (s := s) hrequest
    have hpassage := step_passage hx
    rw [hput] at hpassage
    rw [settledIn, hput, hfailed, List.append_nil, List.append_nil]
    exact h.passes (fun d r was => requesting_stays hx hrequest was) hpassage

theorem Reached.numbered (h : Reached past s) : Numbered (logged settledIn past) s := by
  induction h with
  | start promised started =>
    obtain ⟨snapshots, _, rfl⟩ := ofConfig_eq started
    exact ⟨rfl, fun _ _ was => (by cases was), fun _ => rfl⟩
  | @step past u t x _ possible ih =>
    rw [logged_append]
    exact ih.step possible

theorem filter_toldIn (s : Session) (x : Step) (t : Session) :
    (s.toldIn x t).filter Event.isSent = s.sentIn x := by
  have hstate : (if t.state = s.state then []
      else [Event.connectionChanged s.edge t.state]).filter Event.isSent = [] := by
    split <;> rfl
  have hsent : (s.sentIn x).filter Event.isSent = s.sentIn x := by
    rw [List.filter_eq_self]
    intro ev hev
    obtain ⟨p, _, rfl⟩ := List.mem_map.mp hev
    rfl
  have hrefused : (s.refusedIn x).filter Event.isSent = [] := by
    rw [List.filter_eq_nil_iff]
    intro ev hev
    unfold refusedIn at hev
    split at hev
    · obtain ⟨p, _, hp⟩ := List.mem_flatMap.mp hev
      obtain ⟨code, message, rfl⟩ := mem_refusal hp
      exact Bool.false_ne_true
    · cases hev
  rw [toldIn, List.filter_append, List.filter_append, hstate, hsent, hrefused, List.nil_append,
    List.append_nil]

/-- Listeners are told of the requests that were put on a connection, one by one. -/
theorem Reached.sent_told (h : Reached past s) : (published past s).filter Event.isSent =
    (logged putIn past).map
      (fun p => .subscriptionSent s.edge p.2.count p.2.channels.size) := by
  induction h with
  | start promised started =>
    obtain ⟨snapshots, _, rfl⟩ := ofConfig_eq started
    rfl
  | @step past u t x earlier possible ih =>
    rw [published_append possible, List.filter_append, ih, filter_toldIn, logged_append,
      List.map_append, step_edge possible]
    rfl

/-- The requests that the session is done with are those that were put on a connection and those that
could not be. -/
theorem settled_parts (past : Past) :
    (logged settledIn past).Perm (logged putIn past ++ logged failedIn past) := by
  induction past with
  | nil => exact .refl _
  | cons moment rest ih =>
    have hcons : ∀ e : Session → Step → List (Nat × Request),
        logged e (moment :: rest) = e moment.1 moment.2 ++ logged e rest :=
      fun e => List.flatMap_cons
    rw [hcons, hcons, hcons, settledIn, List.append_assoc, List.append_assoc]
    refine .append_left _ ?_
    refine (ih.append_left _).trans ?_
    rw [← List.append_assoc, ← List.append_assoc]
    exact List.perm_append_comm.append_right _

theorem settled_put (h : logged failedIn past = []) : logged settledIn past = logged putIn past := by
  refine List.flatMap_congr (fun moment hm => ?_)
  have hnone : moment.1.failedIn moment.2 = [] := List.flatMap_eq_nil_iff.mp h moment hm
  rw [settledIn, hnone, List.append_nil]

/-- How the counter of requests goes with the requests of a run, when none is about to be sent. -/
structure CounterFollows (past : Past) (s : Session) : Prop where
  /-- Listeners are told of each request that was put on a connection, in the same order. -/
  told : (published past s).filter Event.isSent = (logged putIn past).map
    (fun p => .subscriptionSent s.edge p.2.count p.2.channels.size)
  /-- The counter counts the requests that were put on a connection and those that could not be. -/
  total : s.requestsSent = (logged putIn past).length + (logged failedIn past).length
  /-- Together they are numbered from one to where the counter stands. -/
  numbered : (logged settledIn past).map (fun p => p.2.count) = List.range' 1 s.requestsSent
  parts : (logged settledIn past).Perm (logged putIn past ++ logged failedIn past)
  /-- So those that were put on a connection have all these numbers if and only if each could be. -/
  gapless : (logged putIn past).map (fun p => p.2.count) = List.range' 1 s.requestsSent ↔
    logged failedIn past = []
  /-- The number of one that could not be is on no connection. -/
  missing : ∀ p ∈ logged failedIn past, 1 ≤ p.2.count ∧ p.2.count ≤ s.requestsSent ∧
    ∀ q ∈ logged putIn past, q.2.count ≠ p.2.count

theorem Reached.counter_follows (h : Reached past s)
    (resting : ∀ d r, s.phase ≠ .requesting d r) : CounterFollows past s := by
  have hn := h.numbered
  have hcounter := hn.resting resting
  have hparts := settled_parts past
  have hlength := hparts.length_eq
  rw [List.length_append] at hlength
  have hcounts := hn.counts
  rw [← hcounter] at hcounts
  -- each number is spent once
  have hnodup : ((logged putIn past ++ logged failedIn past).map (fun p => p.2.count)).Nodup := by
    refine (hparts.map _).nodup_iff.mp ?_
    rw [hcounts]
    exact List.nodup_range'
  rw [List.map_append, List.nodup_append] at hnodup
  refine ⟨h.sent_told, hcounter.trans hlength, hcounts, hparts, ⟨fun hall => ?_, fun hnone => ?_⟩,
    fun p hp => ?_⟩
  · have hsame := congrArg List.length hall
    rw [List.length_map, List.length_range'] at hsame
    exact List.length_eq_zero_iff.mp (by omega)
  · rw [← settled_put hnone, hcounts]
  · have hmem : p.2.count ∈ (logged settledIn past).map (fun p => p.2.count) :=
      List.mem_map_of_mem (hparts.mem_iff.mpr (List.mem_append_right _ hp))
    rw [hcounts, List.mem_range'_1] at hmem
    refine ⟨hmem.1, by omega, fun q hq => ?_⟩
    exact hnodup.2.2 _ (List.mem_map_of_mem hq) _ (List.mem_map_of_mem hp)

/-- The device lets go of its end before the first request, which is counted though it is on no
connection and nobody is told of it; the next one is the second. -/
theorem failed_request_counts : ∃ past s, Reached past s ∧ (∀ d r, s.phase ≠ .requesting d r) ∧
    s.requestsSent = 2 ∧ (logged putIn past).map (fun p => p.2.count) = [2] ∧
    (logged failedIn past).map (fun p => p.2.count) = [1] ∧
    (published past s).filter Event.isSent = [.subscriptionSent "edge0" 2 1] := by
  obtain ⟨past, s, hreached, _, htest⟩ := unbegun_reached.of_replay
    [.move .start, .set (.ofList [⟨"meter0", "power"⟩]), .device (.accept 4 false),
      .device (.closeReceiver 0), .move .connect, .move .request, .device (.accept 4 false),
      .pass 1000, .move .wake, .move .connect, .move .request]
    (fun past s => s.phase.drive?.any (fun d => s.phase == .driving d) && s.edge == "edge0" &&
      (logged putIn past).map (fun p => (p.2.count, p.2.channels.size)) == [(2, 1)] &&
      (logged failedIn past).map (fun p => p.2.count) == [1])
    (by decide +kernel)
  simp only [Bool.and_eq_true, beq_iff_eq, Option.any_eq_true] at htest
  obtain ⟨⟨⟨⟨d, _, hphase⟩, hedge⟩, hput⟩, hfailed⟩ := htest
  have hresting : ∀ d r, s.phase ≠ .requesting d r := by simp [hphase]
  have hfollow := hreached.counter_follows hresting
  have hcounts := congrArg (List.map Prod.fst) hput
  rw [List.map_map] at hcounts
  have htotal := hfollow.total
  have hputs := congrArg List.length hput
  have hfails := congrArg List.length hfailed
  rw [List.length_map] at hputs hfails
  rw [hputs, hfails] at htotal
  have htold := hfollow.told
  have hevents : (logged putIn past).map
      (fun p => Event.subscriptionSent s.edge p.2.count p.2.channels.size) =
      ((logged putIn past).map (fun p => (p.2.count, p.2.channels.size))).map
        (fun c => .subscriptionSent s.edge c.1 c.2) := by
    rw [List.map_map]
    rfl
  rw [hevents, hput, hedge] at htold
  exact ⟨past, s, hreached, hresting, htotal, hcounts, hfailed, htold⟩

end Session

end ChannelFeed
