import ChannelFeed.Proofs.Replay
import ChannelFeed.Session.Device
import ChannelFeed.Session.Move

namespace ChannelFeed

/-- The links that a connector still promises. -/
def Connector.links : Connector → List Nat
  | queued outcomes => outcomes.filterMap (fun outcome =>
      match outcome with
      | .ok link => some link
      | .error _ => none)
  | _ => []

def Phase.drive? : Phase → Option Drive
  | driving d => some d
  | requesting d _ => some d
  | forwarding d _ => some d
  | _ => none

namespace Session

inductive Step where
  | move (m : Move)
  | set (addresses : AddressSet)
  | shutdown
  | device (step : DeviceStep)
  | read
  | take
  | dropSnapshots
  | pass (ms : Nat)
  | collect
  deriving DecidableEq

/-- The state after a step, if the step is possible. -/
def step? (s : Session) : Step → Option Session
  | .move m => s.move? m
  | .set addresses => some (s.setSubscription addresses).1
  | .shutdown => some s.shutdown
  | .device step => (s.device? step).map Prod.fst
  | .read => some s.readLinks.1
  | .take => some s.takeSnapshot.1
  | .dropSnapshots => some s.dropSnapshots
  | .pass ms => some (s.atTime (s.now + ms))
  | .collect => some { s with notes := [] }

/-- The past of a session: the states it was in, each with what happened then. -/
abbrev Past := List (Session × Step)

/-- A session that has come through a past. Its connector promises no link before a device has made
one. -/
inductive Reached : Past → Session → Prop where
  | start {c : Config} {connector : Connector} {source now : Nat} {s : Session}
      (promised : connector.links = []) (started : ofConfig c connector source now = .ok s) :
      Reached [] s
  | step {past : Past} {s s' : Session} {x : Step} (earlier : Reached past s)
      (possible : s.step? x = some s') : Reached (past ++ [(s, x)]) s'

theorem Reached.replay {past : Past} {s : Session} {steps : List Step} {result : Past × Session}
    (h : Reached past s) (hr : ChannelFeed.replay step? past s steps = some result) :
    Reached result.1 result.2 :=
  replay_kept (fun _ _ _ _ => Reached.step) h hr

/-- A run whose last step is known came by the state in which that step was taken. -/
theorem Reached.unstep {past : Past} {s t : Session} {x : Step} (h : Reached (past ++ [(s, x)]) t) :
    Reached past s ∧ s.step? x = some t := by
  generalize hpast : past ++ [(s, x)] = whole at h
  cases h with
  | start => simp at hpast
  | step earlier possible =>
    obtain ⟨rfl, hlast⟩ := List.append_inj' hpast rfl
    cases hlast
    exact ⟨earlier, possible⟩

theorem ofConfig_eq {c : Config} {connector : Connector} {source now : Nat} {s : Session}
    (h : ofConfig c connector source now = .ok s) :
    ∃ snapshots, Pipe.ofCapacity? (max c.buffer 1) = some snapshots ∧
      s = ofQueue c connector source now snapshots := by
  unfold ofConfig at h
  split at h
  · rename_i snapshots hq
    cases h
    exact ⟨snapshots, hq, rfl⟩
  · cases h

def unbegun : Session :=
  ofQueue (.socket "edge0" "ws://device/socket") (.queued []) 0 0 ⟨16, [], true, true⟩

theorem unbegun_start :
    ofConfig (.socket "edge0" "ws://device/socket") (.queued []) 0 0 = .ok unbegun := rfl

theorem unbegun_reached : Reached [] unbegun := .start rfl unbegun_start

/-- Steps that can be replayed make a run, of which a test tells what it comes to. -/
theorem Reached.of_replay {past : Past} {s : Session} (h : Reached past s) (steps : List Step)
    (test : Past → Session → Bool)
    (passes : (ChannelFeed.replay step? past s steps).any (fun run => test run.1 run.2) = true) :
    ∃ past' s', Reached past' s' ∧ past'.map Prod.snd = past.map Prod.snd ++ steps ∧
      test past' s' = true := by
  obtain ⟨run, hrun, htest⟩ := (Option.any_eq_true _ _).mp passes
  exact ⟨run.1, run.2, h.replay hrun, replay_steps hrun, htest⟩

/-- The same of a run that is looked at from one of its steps on. -/
theorem Reached.of_replay_split {past : Past} {s : Session} (h : Reached past s)
    (first : List Step) (x : Step) (second : List Step)
    (test : Past → Session → Past → Session → Bool)
    (passes : (ChannelFeed.replay step? past s first).any (fun a => (a.2.step? x).any (fun t =>
      (ChannelFeed.replay step? [] t second).any (fun b => test a.1 a.2 b.1 b.2))) = true) :
    ∃ before u rest s', Reached (before ++ (u, x) :: rest) s' ∧
      before.map Prod.snd = past.map Prod.snd ++ first ∧ rest.map Prod.snd = second ∧
      test before u rest s' = true := by
  obtain ⟨⟨before, u⟩, hfirst, hpasses⟩ := (Option.any_eq_true _ _).mp passes
  obtain ⟨t, ht, hpasses⟩ := (Option.any_eq_true _ _).mp hpasses
  obtain ⟨⟨rest, s'⟩, hsecond, htest⟩ := (Option.any_eq_true _ _).mp hpasses
  have hrest := replay_from hsecond (before ++ [(u, x)])
  rw [List.append_nil, List.append_assoc, List.singleton_append] at hrest
  exact ⟨before, u, rest, s', ((h.replay hfirst).step ht).replay hrest, replay_steps hfirst,
    replay_steps hsecond, htest⟩

/-- The requests on their way to the device of a link. -/
def outbound (s : Session) (link : Nat) : List Request :=
  match s.links[link]? with
  | some l => l.toDevice.queue
  | none => []

def readIn (s : Session) : Step → List (Nat × Request)
  | .read => s.readLinks.2.1
  | _ => []

/-- What the devices have read, each request with its link. -/
def received (past : Past) : List (Nat × Request) := past.flatMap (fun x => x.1.readIn x.2)

def ofLink (link : Nat) (requests : List (Nat × Request)) : List Request :=
  (requests.filter (fun r => r.1 == link)).map Prod.snd

/-- The requests put on a link, the earliest first: those its device has read and those it will. -/
def asked (past : Past) (s : Session) (link : Nat) : List Request :=
  ofLink link (received past) ++ s.outbound link

/-- The channels that the last of some requests asks for, none if there was no request. -/
def channelsOf (requests : List Request) : AddressSet :=
  match requests.getLast? with
  | some r => r.channels
  | none => .empty

theorem received_append (past : Past) (s : Session) (x : Step) :
    received (past ++ [(s, x)]) = received past ++ s.readIn x := by
  simp [received]

theorem ofLink_append (link : Nat) (xs ys : List (Nat × Request)) :
    ofLink link (xs ++ ys) = ofLink link xs ++ ofLink link ys := by
  simp [ofLink]

theorem ofLink_zipIdx {α : Type} (f : α → List Request) (links : List α) (first link : Nat) :
    ofLink link ((links.zipIdx first).flatMap (fun x => (f x.1).map (fun r => (x.2, r)))) =
      if link < first then [] else ((links[link - first]?).map f).getD [] := by
  induction links generalizing first with
  | nil => simp [ofLink]
  | cons l rest ih =>
    rw [List.zipIdx_cons, List.flatMap_cons, ofLink_append, ih]
    have hhead : ofLink link ((f l).map (fun r => (first, r))) =
        if first = link then f l else [] := by
      unfold ofLink
      split
      · rename_i he
        simp [he, List.filter_map, Function.comp_def]
      · rename_i he
        simp [he, List.filter_map, Function.comp_def]
    simp only [hhead]
    by_cases he : first = link
    · subst he
      simp
    · by_cases hlt : link < first
      · simp [he, hlt, Nat.lt_succ_of_lt hlt]
      · have hs : link - first = (link - (first + 1)) + 1 := by omega
        have hn : ¬ link < first + 1 := by omega
        rw [if_neg he, if_neg hlt, if_neg hn, hs, List.getElem?_cons_succ]
        rfl

theorem ofLink_readLinks (s : Session) (link : Nat) :
    ofLink link s.readLinks.2.1 = ((s.links[link]?).map (fun l => l.deviceRead.2.1)).getD [] := by
  have h := ofLink_zipIdx (fun x : Link × List Request × Bool => x.2.1)
    (s.links.map Link.deviceRead) 0 link
  simp only [Nat.not_lt_zero, if_false, Nat.sub_zero, List.getElem?_map, Option.map_map] at h
  exact h

theorem deviceRead_queue (l : Link) :
    l.deviceRead.2.1 ++ l.deviceRead.1.toDevice.queue = l.toDevice.queue := by
  unfold Link.deviceRead
  split
  · rfl
  · simp [Pipe.takeAll]

/-- Reading takes requests off the wire and forgets none. -/
theorem ofLink_readLinks_outbound (s : Session) (link : Nat) :
    ofLink link s.readLinks.2.1 ++ s.readLinks.1.outbound link = s.outbound link := by
  rw [ofLink_readLinks]
  simp only [outbound, readLinks, List.map_map, List.getElem?_map]
  cases s.links[link]? with
  | none => rfl
  | some l => exact deviceRead_queue l

end Session

end ChannelFeed
