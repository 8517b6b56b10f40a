import ChannelFeed.Edge
import ChannelFeed.Proofs.Session.Standing
import Mathlib.Data.List.Induction

namespace ChannelFeed

namespace Edge

inductive Act where
  | command (command : Command)
  | decoded (subscriber : String) (decoder : Charge.Decoder)
  | session (m : Move)
  | pump
  | process
  | device (step : DeviceStep)
  | read
  | pass (ms : Nat)
  | shutdown
  | letGo
  | dispose
  | drain

/-- The edge after something that is possible. -/
def act? (e : Edge) : Act → Option Edge
  | .command command => some (e.perform command).1
  | .decoded subscriber decoder => some (e.subscribeDecoded subscriber decoder).1
  | .session m => (e.session.move? m).map (fun session => { e with session }.collect)
  | .pump => e.pump?
  | .process => e.process?
  | .device step => (e.session.device? step).map (fun result => { e with session := result.1 })
  | .read => some { e with session := e.session.readLinks.1 }
  | .pass ms => some (e.atTime (e.session.now + ms))
  | .shutdown => some e.shutdown
  | .letGo => some e.letGo
  | .dispose => some e.dispose
  | .drain => some { e.collect with notes := [], panel := { e.collect.panel with journal := [] } }

/-- The past of an edge: the states it was in, each with what happened then. -/
abbrev Past := List (Edge × Act)

/-- An edge that has come through a past. -/
inductive Reached : Past → Edge → Prop where
  | start {c : Config} {connector : Connector} {source now : Nat} {e : Edge}
      (promised : connector.links = []) (started : Edge.start c connector source now = .ok e) :
      Reached [] e
  | act {past : Past} {e e' : Edge} {x : Act} (earlier : Reached past e)
      (possible : e.act? x = some e') : Reached (past ++ [(e, x)]) e'

theorem Reached.replay {past : Past} {e : Edge} {acts : List Act} {result : Past × Edge}
    (h : Reached past e) (hr : ChannelFeed.replay act? past e acts = some result) :
    Reached result.1 result.2 :=
  replay_kept (fun _ _ _ _ => Reached.act) h hr

theorem Reached.unact {past : Past} {e e' : Edge} {x : Act}
    (h : Reached (past ++ [(e, x)]) e') : Reached past e ∧ e.act? x = some e' := by
  generalize hpast : past ++ [(e, x)] = whole at h
  cases h with
  | start => simp at hpast
  | act earlier possible =>
    obtain ⟨rfl, hlast⟩ := List.append_inj' hpast rfl
    cases hlast
    exact ⟨earlier, possible⟩

/-- What holds after an act of a run and is kept by all acts that follow. -/
theorem Reached.onward {P : Past → Edge → Prop} {before since : Past} {f e : Edge} {x : Act}
    (h : Reached (before ++ (f, x) :: since) e)
    (first : ∀ g, Reached before f → f.act? x = some g → P [(f, x)] g)
    (next : ∀ since u y v, Reached (before ++ (f, x) :: since) u → P ((f, x) :: since) u →
      u.act? y = some v → P ((f, x) :: since ++ [(u, y)]) v) : P ((f, x) :: since) e := by
  induction since using List.reverseRecOn generalizing e with
  | nil =>
    obtain ⟨hf, hx⟩ := h.unact
    exact first e hf hx
  | append_singleton since z ih =>
    obtain ⟨u, y⟩ := z
    have hsplit : before ++ (f, x) :: (since ++ [(u, y)]) =
        (before ++ (f, x) :: since) ++ [(u, y)] := by simp
    rw [hsplit] at h
    obtain ⟨hu, hy⟩ := h.unact
    exact next since u y e hu (ih hu) hy

/-- Acts that can be replayed make a run, of which a test tells what it comes to from one of the acts
on. -/
theorem Reached.of_replay_split {past : Past} {e : Edge} (h : Reached past e)
    (first : List Act) (x : Act) (second : List Act) (test : Past → Edge → Edge → Past → Edge → Bool)
    (passes : (ChannelFeed.replay act? past e first).any (fun a => (a.2.act? x).any (fun g =>
      (ChannelFeed.replay act? [] g second).any (fun b => test a.1 a.2 g b.1 b.2))) = true) :
    ∃ before f g since e', Reached (before ++ (f, x) :: since) e' ∧ f.act? x = some g ∧
      test before f g since e' = true := by
  obtain ⟨⟨before, f⟩, hfirst, hpasses⟩ := (Option.any_eq_true _ _).mp passes
  obtain ⟨g, hg, hpasses⟩ := (Option.any_eq_true _ _).mp hpasses
  obtain ⟨⟨since, e'⟩, hsecond, htest⟩ := (Option.any_eq_true _ _).mp hpasses
  have hsince := replay_from hsecond (before ++ [(f, x)])
  rw [List.append_nil, List.append_assoc, List.singleton_append] at hsince
  exact ⟨before, f, g, since, e', ((h.replay hfirst).act hg).replay hsince, hg, htest⟩

def readIn (e : Edge) : Act → List (Nat × Request)
  | .read => e.session.readLinks.2.1
  | _ => []

def received (past : Past) : List (Nat × Request) := past.flatMap (fun x => x.1.readIn x.2)

/-- The requests put on a link, the earliest first: those its device has read and those it will. -/
def asked (past : Past) (e : Edge) (link : Nat) : List Request :=
  Session.ofLink link (received past) ++ e.session.outbound link

theorem received_append (past : Past) (e : Edge) (x : Act) :
    received (past ++ [(e, x)]) = received past ++ e.readIn x := by
  simp [received]

end Edge

namespace Session

/-- Steps lead from one state to another, and no device reads meanwhile. -/
def Leads (s t : Session) : Prop :=
  ∀ past, Reached past s → ∃ past', Reached past' t ∧ received past' = received past

theorem Leads.refl (s : Session) : Leads s s := fun past h => ⟨past, h, rfl⟩

theorem Leads.trans {s t u : Session} (h : Leads s t) (h' : Leads t u) : Leads s u := by
  intro past hs
  obtain ⟨past', ht, hr⟩ := h past hs
  obtain ⟨past'', hu, hr'⟩ := h' past' ht
  exact ⟨past'', hu, hr'.trans hr⟩

theorem Leads.step {s t : Session} {x : Step} (hx : s.step? x = some t) (hr : s.readIn x = []) :
    Leads s t := by
  intro past hs
  refine ⟨past ++ [(s, x)], hs.step hx, ?_⟩
  rw [received_append, hr, List.append_nil]

end Session

namespace Edge

variable {e e' : Edge} {x : Act}

theorem stop_session (e : Edge) :
    e.stop.session = { e.session.shutdown.dropSnapshots with notes := [] } := rfl

theorem pump_cases (h : e.pump? = some e') :
    (e.pump = .waiting ∧ e.registry.announced.unseen e.versionSeen = true ∧ e' = { e with
        pump := if e.debounce.isZero then .marking
          else .debouncing (e.endOfPause e.session.now)
        versionSeen := e.registry.announced.changes }) ∨
      (∃ wake, e.pump = .debouncing wake ∧ wake ≤ e.session.now ∧
        e' = { e with pump := .marking }) ∨
      (e.pump = .marking ∧ e' = { e with
        pump := .reading e.registry.announced.value
        versionSeen := e.registry.announced.changes }) ∨
      (∃ version, e.pump = .reading version ∧ e' = { e with pump := .setting version e.union }) ∨
      ∃ version union notes, e.pump = .setting version union ∧
        e' = { e with
          session := (e.session.setSubscription union).1
          pump := .waiting
          notes } := by
  unfold pump? at h
  split at h
  · rename_i hp
    split at h
    · rename_i hunseen
      cases h
      exact .inl ⟨hp, hunseen, rfl⟩
    · cases h
  · rename_i wake hp
    split at h
    · rename_i hdue
      cases h
      exact .inr (.inl ⟨wake, hp, hdue, rfl⟩)
    · cases h
  · rename_i hp
    cases h
    exact .inr (.inr (.inl ⟨hp, rfl⟩))
  · rename_i version hp
    cases h
    exact .inr (.inr (.inr (.inl ⟨version, hp, rfl⟩)))
  · rename_i version union hp
    dsimp only at h
    refine .inr (.inr (.inr (.inr ⟨version, union, e'.notes, hp, ?_⟩)))
    split at h <;> cases h <;> rfl
  · cases h

def Act.stops : Act → Bool
  | shutdown => true
  | dispose => true
  | _ => false

/-- Which steps a session makes while something happens to its edge: the receiver of the snapshots
leaves only a session that was stopped or has ended, the session is stopped, or its devices read, only
if that is what happens, and only the pump says what is wanted. -/
structure MadeIn (x : Act) (s : Session) (y : Session.Step) : Prop where
  dropped : y = .dropSnapshots → s.stopped = true ∨ s.snapshots.senderOpen = false
  stopped : y = .shutdown → x.stops = true
  read : y = .read → x = .read
  set : ∀ addresses, y = .set addresses → x = .pump

/-- Whether a session may make a step whatever happens to its edge. -/
def isFree : Session.Step → Bool
  | .dropSnapshots => false
  | .shutdown => false
  | .read => false
  | .set _ => false
  | _ => true

theorem MadeIn.free {s : Session} {y : Session.Step} (h : isFree y = true) : MadeIn x s y := by
  refine ⟨?_, ?_, ?_, fun addresses => ?_⟩ <;>
  · rintro rfl
    cases h

theorem process_keeps {P : Session → Prop}
    (step : ∀ {s t : Session} {y : Session.Step}, P s → s.step? y = some t → MadeIn .process s y →
      P t) (kept : P e.session) (h : e.process? = some e') : P e'.session := by
  have hcollect : ∀ {s : Session}, P s → P { s with notes := [] } := fun hs =>
    step (y := .collect) hs rfl (.free rfl)
  have htake : P e.session.takeSnapshot.1 := step (y := .take) kept rfl (.free rfl)
  unfold process? at h
  split at h
  · split at h
    · rename_i session snapshot hs
      cases h
      rw [hs] at htake
      exact hcollect (hcollect htake)
    · rename_i session hs
      cases h
      rw [hs] at htake
      have hpipe : session.snapshots = e.session.snapshots.receive.1 :=
        (congrArg (fun r => r.1.snapshots) hs).symm
      have hclosed : e.session.snapshots.receive.2 = .closed := congrArg Prod.snd hs
      have hsender : session.snapshots.senderOpen = false := by
        rw [hpipe, (Session.receive_queue _).1]
        exact Session.receive_ended hclosed
      exact step (y := .dropSnapshots) htake rfl ⟨fun _ => .inr hsender, by simp, by simp, by simp⟩
    · cases h
  · cases h

/-- What the steps of its session keep is kept whatever happens to an edge. -/
theorem act_keeps {P : Session → Prop}
    (step : ∀ {s t : Session} {y : Session.Step}, P s → s.step? y = some t → MadeIn x s y → P t)
    (kept : P e.session) (h : e.act? x = some e') : P e'.session := by
  have hcollect : ∀ {s : Session}, P s → P { s with notes := [] } := fun hs =>
    step (y := .collect) hs rfl (.free rfl)
  have hstop : x.stops = true → P e.stop.session := by
    intro hx
    have hshut : P e.session.shutdown :=
      step (y := .shutdown) kept rfl ⟨by simp, fun _ => hx, by simp, by simp⟩
    have hstopped : e.session.shutdown.stopped = true :=
      (congrArg Session.Standing.stopped (Session.standing_shutdown e.session)).trans (by simp)
    rw [stop_session]
    exact hcollect
      (step (y := .dropSnapshots) hshut rfl ⟨fun _ => .inl hstopped, by simp, by simp, by simp⟩)
  cases x with
  | command command | decoded subscriber decoder | drain =>
    cases h
    exact hcollect kept
  | session m =>
    simp only [act?, Option.map_eq_some_iff] at h
    obtain ⟨session, hm, rfl⟩ := h
    exact hcollect (step (y := .move m) kept hm (.free rfl))
  | pump =>
    rcases pump_cases h with ⟨_, _, rfl⟩ | ⟨_, _, _, rfl⟩ | ⟨_, rfl⟩ | ⟨_, _, rfl⟩ |
      ⟨_, union, _, _, rfl⟩
    · exact kept
    · exact kept
    · exact kept
    · exact kept
    · exact step (y := .set union) kept rfl ⟨by simp, by simp, by simp, fun _ _ => rfl⟩
  | process => exact process_keeps step kept h
  | device y =>
    simp only [act?, Option.map_eq_some_iff] at h
    obtain ⟨result, hd, rfl⟩ := h
    refine step (y := .device y) kept ?_ (.free rfl)
    simp only [Session.step?, hd, Option.map_some]
  | read =>
    cases h
    exact step (y := .read) kept rfl ⟨by simp, by simp, fun _ => rfl, by simp⟩
  | pass ms =>
    cases h
    exact step (y := .pass ms) kept rfl (.free rfl)
  | shutdown | dispose =>
    cases h
    exact hstop rfl
  | letGo =>
    cases h
    exact kept

/-- Whatever happens to an edge comes to steps of its session. -/
theorem act_leads (h : e.act? x = some e') (hr : x ≠ .read) : e.session.Leads e'.session := by
  refine act_keeps (P := e.session.Leads) (fun {s t y} hs hy hmade => ?_) (.refl _) h
  refine hs.trans (.step hy ?_)
  cases y with
  | read => exact absurd (hmade.read rfl) hr
  | _ => rfl

/-- A run of an edge is a run of its session in which the devices read the same. -/
theorem Reached.session {past : Past} (h : Reached past e) :
    ∃ past', Session.Reached past' e.session ∧ Session.received past' = received past := by
  induction h with
  | @start c connector source now e promised started =>
    unfold Edge.start at started
    cases hs : Session.ofConfig c connector source now with
    | error fault =>
      rw [hs] at started
      cases started
    | ok s =>
      rw [hs] at started
      cases started
      exact ⟨[], .start promised hs, rfl⟩
  | @act past e e' x earlier possible ih =>
    obtain ⟨past', hs, hread⟩ := ih
    by_cases hx : x = .read
    · subst hx
      cases possible
      refine ⟨_, hs.step (x := .read) rfl, ?_⟩
      rw [Session.received_append, received_append, hread]
      rfl
    · obtain ⟨past'', ht, hread'⟩ := act_leads possible hx _ hs
      refine ⟨past'', ht, hread'.trans (hread.trans ?_)⟩
      have hnone : e.readIn x = [] := by cases x <;> first | rfl | exact absurd rfl hx
      rw [received_append, hnone, List.append_nil]

theorem asked_eq {past : Past} {past' : Session.Past}
    (hr : Session.received past' = received past) (link : Nat) :
    Session.asked past' e.session link = asked past e link := by
  simp only [Session.asked, asked, hr]

end Edge

end ChannelFeed
