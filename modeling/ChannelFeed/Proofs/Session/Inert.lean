import ChannelFeed.Proofs.Session.Alike
import ChannelFeed.Proofs.Session.Silence

namespace ChannelFeed.Session

variable {s s' t u : Session} {x : Step} {past plain : Past} {earlier later : Nat → List Snapshot}

/-- What happens that is seen from outside. -/
structure Effects where
  opened : List (Nat × AddressSet)
  requests : List (Nat × Request)
  taken : List Snapshot
  changes : List (LinkState × LinkState)
  events : List Event

namespace Effects

def none : Effects := ⟨[], [], [], [], []⟩

def add (e f : Effects) : Effects where
  opened := e.opened ++ f.opened
  requests := e.requests ++ f.requests
  taken := e.taken ++ f.taken
  changes := e.changes ++ f.changes
  events := e.events ++ f.events

theorem add_none (e : Effects) : e.add none = e := by simp [add, none]

end Effects

def effectsIn (s : Session) (x : Step) (t : Session) : Effects where
  opened := s.openedIn x
  requests := s.putIn x
  taken := s.takenIn x
  changes := if t.state = s.state then [] else [(s.state, t.state)]
  events := s.toldIn x t

def effects (past : Past) (s : Session) : Effects where
  opened := logged openedIn past
  requests := logged putIn past
  taken := logged takenIn past
  changes := changes past s
  events := published past s

theorem effects_append (h : s.step? x = some t) :
    effects (past ++ [(s, x)]) t = (effects past s).add (s.effectsIn x t) := by
  simp only [effects, effectsIn, Effects.add, logged_append, changes_append, published_append h]

theorem Alike.openedIn (h : Alike earlier t s) (x : Step) : t.openedIn x = s.openedIn x := by
  obtain ⟨links, notes, rfl, _⟩ := h
  cases x with
  | move m =>
    cases m with
    | connect =>
      unfold Session.openedIn takeOutcome?
      dsimp only
      rcases s.connector with (_ | ⟨_ | link, rest⟩) | ⟨url, fault⟩ | _ <;> cases s.phase <;> rfl
    | _ => rfl
  | _ => rfl

theorem Alike.putIn (h : Alike earlier t s) (x : Step) : t.putIn x = s.putIn x := by
  cases x with
  | move m =>
    cases m with
    | request =>
      simp only [Session.putIn, h.phase]
      split
      · rename_i d r hp
        cases hl : s.links[d.link]? with
        | none =>
          obtain ⟨links, notes, rfl, hlinks⟩ := h
          simp only [hlinks d.link, hl, Option.map_none]
        | some l =>
          simp only [h.link hl]
          rfl
      · rfl
    | _ => rfl
  | _ => rfl

theorem Alike.effectsIn (h : Alike earlier t s) (h' : Alike later u s')
    (handled : t.handledIn x = s.handledIn x) : t.effectsIn x u = s.effectsIn x s' := by
  have hput := h.putIn x
  have hopened := h.openedIn x
  have hphase := h.phase
  obtain ⟨links, notes, rfl, _⟩ := h
  obtain ⟨links', notes', rfl, _⟩ := h'
  have hsent : sentIn { s with links, notes } x = s.sentIn x := by
    rw [sentIn, hput]
    rfl
  have hrefused : refusedIn { s with links, notes } x = s.refusedIn x := by
    unfold refusedIn
    rw [handled]
  have htaken : takenIn { s with links, notes } x = s.takenIn x := by
    cases x <;> rfl
  unfold Session.effectsIn toldIn
  rw [hput, hopened, hsent, hrefused, htaken]
  rfl

theorem handledIn_other (hx : x ≠ .move .frame) : s.handledIn x = [] := by
  cases x with
  | move m => cases m <;> first | exact absurd rfl hx | rfl
  | _ => rfl

theorem device_effects {step : DeviceStep} (h : s.step? (.device step) = some t) :
    s.effectsIn (.device step) t = .none := by
  simp only [step?, Option.map_eq_some_iff] at h
  obtain ⟨result, hd, rfl⟩ := h
  obtain ⟨links, connector, heq⟩ := device_shape hd
  have hstate : result.1.state = s.state := by
    rw [heq]
    rfl
  have hrefused : s.refusedIn (.device step) = [] := refusedIn_other rfl
  unfold Session.effectsIn toldIn
  rw [if_pos hstate, if_pos hstate, hrefused]
  rfl

/-- The reports that come on a link before what is put there now: those that were handled, and those
that wait. -/
def ahead (past : Past) (s : Session) (link : Nat) : List Snapshot :=
  reportsOn (logged handledIn past) link ++ (s.inbound link).filterMap reportOf

/-- What remains of a step. Of the frames that a device gets onto a link each one of account is sent by
itself, and no other is sent or taken. -/
def weedsIn (past : Past) (s : Session) : Step → List Step
  | .device (.send link texts) =>
    (weed (ahead past s link) (s.fitting link texts)).map
      (fun text => .device (.send link [text]))
  | .move .frame =>
    match s.phase with
    | .driving d =>
      match (s.inbound d.link).head? with
      | some text =>
        if isJunk (reportsOn (logged handledIn past) d.link) text then [] else [.move .frame]
      | none => [.move .frame]
    | _ => [.move .frame]
  | x => [x]

def weededAfter (past : Past) : Past → List Step
  | [] => []
  | (s, x) :: rest => weedsIn past s x ++ weededAfter (past ++ [(s, x)]) rest

def weeded (past : Past) : List Step := weededAfter [] past

theorem weededAfter_append (earlier past : Past) (s : Session) (x : Step) :
    weededAfter earlier (past ++ [(s, x)]) =
      weededAfter earlier past ++ weedsIn (earlier ++ past) s x := by
  induction past generalizing earlier with
  | nil => simp [weededAfter]
  | cons y rest ih =>
    rw [List.cons_append, weededAfter, weededAfter, ih, List.append_assoc, List.append_assoc]
    rfl

theorem weeded_append (past : Past) (s : Session) (x : Step) :
    weeded (past ++ [(s, x)]) = weeded past ++ weedsIn past s x :=
  weededAfter_append [] past s x

/-- A run, and what remains of it without junk. -/
structure Weeded (start : Session) (past : Past) (s : Session) (plain : Past) (t : Session) :
    Prop where
  run : replay step? [] start (weeded past) = some (plain, t)
  alike : Alike (reportsOn (logged handledIn past)) t s
  effects : effects plain t = effects past s

theorem sends_weeded {start : Session} {steps : List Step}
    (run : replay step? [] start steps = some (plain, t)) (h : Alike earlier t s) (link : Nat)
    (texts : List String) :
    ∃ plain' t', replay step? [] start (steps ++
        (weed (earlier link ++ (s.inbound link).filterMap reportOf) (s.fitting link texts)).map
          (fun text => .device (.send link [text]))) = some (plain', t') ∧
      Alike earlier t' (s.deviceSend link texts).1 ∧ effects plain' t' = effects plain t := by
  induction texts generalizing s t plain steps with
  | nil =>
    refine ⟨plain, t, ?_, h, rfl⟩
    simpa [fitting, weed] using run
  | cons text rest ih =>
    cases hl : s.links[link]? with
    | none =>
      refine ⟨plain, t, ?_, ?_, rfl⟩
      · simpa [fitting, deviceSend, hl, weed] using run
      · simpa [deviceSend, hl] using h
    | some l =>
      have hlt := (List.getElem?_eq_some_iff.mp hl).1
      have hqueue : s.inbound link = l.toClient.queue := by simp only [inbound, hl]
      have hafter : (s.modifyLink link (fun _ => (l.deviceSend text).1)).inbound link =
          l.toClient.queue ++ if (l.deviceSend text).2 = .ok then [text] else [] := by
        rw [inbound_modifyLink, if_pos ⟨rfl, hlt⟩]
        exact send_queue l.toClient text
      rw [fitting_cons hl, deviceSend_cons hl, hqueue]
      by_cases hok : (l.deviceSend text).2 = .ok
      · rw [if_pos hok] at hafter
        have hreports : earlier link ++ (l.toClient.queue ++ [text]).filterMap reportOf =
            earlier link ++ l.toClient.queue.filterMap reportOf ++ (reportOf text).toList := by
          cases hr : reportOf text <;> simp [hr]
        rw [if_pos hok, List.singleton_append, weed]
        cases junk : isJunk (earlier link ++ l.toClient.queue.filterMap reportOf) text with
        | true =>
          rw [if_pos rfl, ← hreports, ← hafter]
          exact ih run (h.unsent hl (fun _ => junk))
        | false =>
          obtain ⟨t', ht', halike⟩ := h.send hl hok junk
          have hone : replay step? [] start (steps ++ [.device (.send link [text])]) =
              some (plain ++ [(t, .device (.send link [text]))], t') := by
            rw [replay_append run, replay, ht']
            rfl
          obtain ⟨plain', t'', hrun, halike', heffects⟩ := ih hone halike
          refine ⟨plain', t'', ?_, halike', ?_⟩
          · rw [if_neg Bool.false_ne_true, ← hreports, ← hafter, List.map_cons, List.append_cons]
            exact hrun
          · rw [heffects, effects_append ht', device_effects ht', Effects.add_none]
      · rw [if_neg hok, List.append_nil] at hafter
        rw [if_neg hok, List.nil_append, ← hafter]
        exact ih run (h.unsent hl (fun hsent => absurd hsent hok))

theorem Weeded.keep {start : Session} (h : Weeded start past s plain t)
    (hx : s.step? x = some s') (hkept : weedsIn past s x = [x]) (ht : t.step? x = some u)
    (halike : Alike (reportsOn (logged handledIn (past ++ [(s, x)]))) u s')
    (handled : t.handledIn x = s.handledIn x) :
    Weeded start (past ++ [(s, x)]) s' (plain ++ [(t, x)]) u := by
  refine ⟨?_, halike, ?_⟩
  · rw [weeded_append, hkept, replay_append h.run, replay, ht]
    rfl
  · rw [effects_append hx, effects_append ht, h.effects, h.alike.effectsIn halike handled]

theorem Weeded.leaveOut {start : Session} (h : Weeded start past s plain t)
    (hx : s.step? x = some s') (hnone : weedsIn past s x = [])
    (halike : Alike (reportsOn (logged handledIn (past ++ [(s, x)]))) t s')
    (heffects : s.effectsIn x s' = .none) : Weeded start (past ++ [(s, x)]) s' plain t := by
  refine ⟨?_, halike, ?_⟩
  · rw [weeded_append, hnone, List.append_nil]
    exact h.run
  · rw [effects_append hx, heffects, Effects.add_none]
    exact h.effects

theorem Weeded.sends {start : Session} {link : Nat} {texts : List String}
    (h : Weeded start past s plain t) (hx : s.step? (.device (.send link texts)) = some s') :
    ∃ plain' t', Weeded start (past ++ [(s, .device (.send link texts))]) s' plain' t' := by
  obtain ⟨plain', t', hrun, halike, heffects⟩ := sends_weeded h.run h.alike link texts
  have hs' : s' = (s.deviceSend link texts).1 := by
    simp only [step?, device?] at hx
    split at hx
    · exact (Option.some.inj hx).symm
    · cases hx
  refine ⟨plain', t', ?_, ?_, ?_⟩
  · rw [weeded_append]
    exact hrun
  · have hnone : s.handledIn (.device (.send link texts)) = [] := rfl
    rw [logged_append, hnone, List.append_nil, hs']
    exact halike
  · rw [effects_append hx, device_effects hx, Effects.add_none, heffects, h.effects]

theorem handledIn_frame {d : Drive} (hidle : s.idle = none) (hp : s.phase = .driving d) :
    s.handledIn (.move .frame) =
      ((s.inbound d.link).head?.map (fun text => (d.link, text))).toList := by
  simp only [handledIn, hp, deadlineFor_unbounded hidle, inbound]
  cases s.links[d.link]? <;> rfl

theorem junk_effects {reports : List Snapshot} {d : Drive} {text : String}
    (hp : s.phase = .driving d) (hhandled : s.handledIn (.move .frame) = [(d.link, text)])
    (junk : isJunk reports text = true) (hstate : t.state = s.state) :
    s.effectsIn (.move .frame) t = .none := by
  have hrefused : s.refusedIn (.move .frame) = [] := by
    simp [refusedIn, hp, hhandled, Drive.refusal, responseOf_junk junk]
  unfold Session.effectsIn toldIn
  rw [if_pos hstate, if_pos hstate, hrefused]
  rfl

theorem Weeded.frame {start : Session} (h : Weeded start past s plain t) (hr : Reached past s)
    (hidle : s.idle = none) (hx : s.step? (.move .frame) = some s') :
    ∃ plain' t', Weeded start (past ++ [(s, .move .frame)]) s' plain' t' := by
  have hidle' : t.idle = none := by
    obtain ⟨links, notes, heq, _⟩ := h.alike
    rw [heq]
    exact hidle
  obtain ⟨d, l, hp, hl, ⟨toClient, text, hreceive, hcases⟩ | ⟨hclosed, rfl⟩⟩ := frame_cases hx
  · have hhead : (s.inbound d.link).head? = some text := by
      simp only [inbound, hl, receive_item hreceive, List.head?_cons]
    have hhandled : s.handledIn (.move .frame) = [(d.link, text)] := by
      rw [handledIn_frame hidle hp, hhead]
      rfl
    have hlater : reportsOn (logged handledIn (past ++ [(s, .move .frame)])) d.link =
        reportsOn (logged handledIn past) d.link ++ (reportOf text).toList := by
      rw [logged_append, hhandled, reportsOn_append, if_pos rfl]
    have hother : ∀ k, k ≠ d.link →
        reportsOn (logged handledIn (past ++ [(s, .move .frame)])) k =
          reportsOn (logged handledIn past) k := by
      intro k hk
      rw [logged_append, hhandled, reportsOn_append, if_neg (Ne.symm hk), List.append_nil]
    rcases hcases with ⟨deadline, hdue, rfl⟩ | ⟨hnone, _⟩
    · rw [deadlineFor_unbounded hidle] at hdue
      cases hdue
      cases junk : isJunk (reportsOn (logged handledIn past) d.link) text with
      | true =>
        have hdrive : s.phase.drive? = some d := by rw [hp]; rfl
        have hunbounded : d.deadline = none := by
          rw [hr.armed hdrive, hidle]
          rfl
        refine ⟨plain, t, h.leaveOut hx ?_ (h.alike.pass hp hunbounded hl hreceive
          (hr.streaming.gate d hdrive) junk hlater hother) (junk_effects hp hhandled junk ?_)⟩
        · simp only [weedsIn, hp, hhead, junk, if_true]
        · obtain ⟨rejection, notes, heq⟩ := handle_shape
            (s.modifyLink d.link (fun l => { l with toClient })) { d with deadline := none } text
          rw [heq]
          rfl
      | false =>
        obtain ⟨hhead', u, hu, halike⟩ :=
          h.alike.take hidle hp hl hreceive junk hlater hother
        refine ⟨_, _, h.keep hx ?_ hu halike ?_⟩
        · simp only [weedsIn, hp, hhead, junk, Bool.false_eq_true, if_false]
        · rw [hhandled, handledIn_frame hidle' (h.alike.phase.trans hp), hhead']
          rfl
    · rw [deadlineFor_unbounded hidle] at hnone
      cases hnone
  · -- the device has closed its end, and no junk waits there either
    have hempty : l.toClient.queue = [] := receive_closed hclosed
    have hlink := h.alike.link hl
    have hweeded : (l.weeded (reportsOn (logged handledIn past) d.link)) = l := by
      unfold Link.weeded
      rw [hempty, weed, ← hempty]
    rw [hweeded] at hlink
    have hnone : (s.inbound d.link).head? = none := by simp only [inbound, hl, hempty, List.head?_nil]
    have hnone' : (t.inbound d.link).head? = none := by
      simp only [inbound, hlink, hempty, List.head?_nil]
    have hhandled : s.handledIn (.move .frame) = [] := by
      rw [handledIn_frame hidle hp, hnone]
      rfl
    refine ⟨_, _, h.keep (u := t.lose d.link "connection closed") hx ?_ ?_ ?_ ?_⟩
    · simp only [weedsIn, hp, hnone]
    · cases hresult : l.toClient.receive with
      | mk toClient arrival =>
        rw [hresult] at hclosed
        dsimp only at hclosed
        rw [hclosed] at hresult
        simp only [step?, move?, h.alike.phase, hp, hlink, hresult]
    · rw [logged_append, hhandled, List.append_nil]
      exact h.alike.lose _ _
    · rw [hhandled, handledIn_frame hidle' (h.alike.phase.trans hp), hnone']
      rfl

theorem Weeded.step {start : Session} (h : Weeded start past s plain t) (hr : Reached past s)
    (hidle : s.idle = none) (hx : s.step? x = some s') :
    ∃ plain' t', Weeded start (past ++ [(s, x)]) s' plain' t' := by
  by_cases hframe : x = .move .frame
  · subst hframe
    exact h.frame hr hidle hx
  by_cases hsend : ∃ link texts, x = .device (.send link texts)
  · obtain ⟨link, texts, rfl⟩ := hsend
    exact h.sends hx
  have hother : ∀ link texts, x ≠ .device (.send link texts) :=
    fun link texts he => hsend ⟨link, texts, he⟩
  obtain ⟨u, hu, halike⟩ := h.alike.step hx hframe hother
  have hkept : weedsIn past s x = [x] := by
    unfold weedsIn
    split
    · rename_i link texts
      exact absurd rfl (hother link texts)
    · exact absurd rfl hframe
    · rfl
  have hlater : logged handledIn (past ++ [(s, x)]) = logged handledIn past := by
    rw [logged_append, handledIn_other hframe, List.append_nil]
  rw [← hlater] at halike
  exact ⟨_, _, h.keep hx hkept hu halike
    ((handledIn_other hframe).trans (handledIn_other hframe).symm)⟩

/-- Two runs that cannot be told apart from outside. -/
structure SameOutside (past : Past) (s : Session) (past' : Past) (s' : Session) : Prop where
  /-- The same snapshots are forwarded. -/
  snapshots : streamed past' s' = streamed past s
  /-- The same connections are opened, and the same requests are put on them. -/
  opened : logged openedIn past' = logged openedIn past
  requests : logged putIn past' = logged putIn past
  rejection : s'.rejection = s.rejection
  changes : changes past' s' = changes past s
  state : s'.state = s.state
  /-- Listeners are told of the same events. -/
  events : published past' s' = published past s
  /-- All else is the same too, but for the frames that wait and what was noted. -/
  session : s' = { s with links := s'.links, notes := s'.notes }

/-- Sessions that are alike but for what waits and what was noted, after runs in which the same
happened. -/
theorem SameOutside.of_effects {links links' : List Link} {notes notes' : List Note} {past' : Past}
    (he : effects past' s' = effects past s)
    (hs : { s with links, notes } = { s' with links := links', notes := notes' }) :
    SameOutside past s past' s' := by
  have hsession : s' = { s with links := s'.links, notes := s'.notes } :=
    calc s' = { ({ s' with links := links', notes := notes' } : Session) with
              links := s'.links, notes := s'.notes } := rfl
      _ = { ({ s with links, notes } : Session) with links := s'.links, notes := s'.notes } := by
            rw [hs]
  have hout := congrArg Session.snapshots hs
  have hrejection := congrArg Session.rejection hs
  have hstate := congrArg Session.state hs
  have hqueue : s'.snapshots = s.snapshots := hout.symm
  have htaken : logged takenIn past' = logged takenIn past := congrArg Effects.taken he
  exact {
    snapshots := by rw [streamed, streamed, htaken, hqueue]
    opened := congrArg Effects.opened he
    requests := congrArg Effects.requests he
    rejection := hrejection.symm
    changes := congrArg Effects.changes he
    state := hstate.symm
    events := congrArg Effects.events he
    session := hsession }

section runs

variable {c : Config} {connector : Connector} {source now : Nat} {start : Session}

theorem weeded_run (promised : connector.links = [])
    (started : ofConfig c connector source now = .ok start) (unbounded : c.idle = none)
    {steps : List Step} (run : replay step? [] start steps = some (past, s)) :
    ∃ plain t, Weeded start past s plain t := by
  have hkept : ∀ past s x s', (Reached past s ∧ s.idle = none ∧
        ∃ plain t, Weeded start past s plain t) → s.step? x = some s' →
      Reached (past ++ [(s, x)]) s' ∧ s'.idle = none ∧
        ∃ plain t, Weeded start (past ++ [(s, x)]) s' plain t := by
    rintro past s x s' ⟨hr, hidle, plain, t, hw⟩ hx
    exact ⟨hr.step hx, (step_traffic hx).idle.trans hidle, hw.step hr hidle hx⟩
  have hstart : Reached [] start := .start promised started
  obtain ⟨snapshots, _, rfl⟩ := ofConfig_eq started
  have hfirst : Weeded (ofQueue c connector source now snapshots) []
      (ofQueue c connector source now snapshots) [] (ofQueue c connector source now snapshots) :=
    ⟨rfl, ⟨[], [], rfl, fun _ => rfl⟩, rfl⟩
  exact (replay_kept hkept ⟨hstart, unbounded, _, _, hfirst⟩ run).2.2

/-- Junk is inert. Of a run without a bound on silence what remains without the frames of no account is
a run that cannot be told apart from it; nor can any run of which the same remains, wherever on which
connections such frames came there and whenever they were taken. -/
theorem junk_is_inert (promised : connector.links = [])
    (started : ofConfig c connector source now = .ok start) (unbounded : c.idle = none)
    {steps : List Step} (run : replay step? [] start steps = some (past, s)) :
    (∃ plain t, replay step? [] start (weeded past) = some (plain, t) ∧
      SameOutside plain t past s) ∧
    ∀ steps' past' s', replay step? [] start steps' = some (past', s') →
      weeded past' = weeded past → SameOutside past s past' s' := by
  obtain ⟨plain, t, hw⟩ := weeded_run promised started unbounded run
  obtain ⟨links, notes, ht, _⟩ := hw.alike
  refine ⟨⟨plain, t, hw.run, ?_⟩, fun steps' past' s' run' same => ?_⟩
  · have hsame : { t with links := t.links, notes := t.notes } = { s with links, notes } := ht
    exact .of_effects hw.effects.symm hsame
  · obtain ⟨plain', t', hw'⟩ := weeded_run promised started unbounded run'
    obtain ⟨links', notes', ht', _⟩ := hw'.alike
    have hboth := hw'.run
    rw [same, hw.run] at hboth
    cases hboth
    exact .of_effects (hw'.effects.symm.trans hw.effects) (ht.symm.trans ht')

def patiently : Config := { Config.socket "edge0" "ws://device/socket" with idle := none }

def hollowReport : String :=
  "\x7b\"method\":\"currentData\",\"params\":\x7b\"sequence\":9,\"currentData\":3\x7d\x7d"

/-- Noise, a call for something else, a report that comes twice and one that cannot be read make no
difference: the same snapshot is forwarded, and the same refusal stands. -/
theorem noise_makes_no_difference : ∃ start past s past' s',
    ofConfig patiently (.queued []) 0 0 = .ok start ∧ patiently.idle = none ∧
    (∃ steps, replay step? [] start steps = some (past, s)) ∧
    (∃ steps, replay step? [] start steps = some (past', s')) ∧
    past.length = 11 ∧ past'.length = 17 ∧ weeded past' = weeded past ∧
    (streamed past' s').map Snapshot.sequence = [5] ∧
    s'.rejection = some ⟨7, "refused"⟩ ∧ SameOutside past s past' s' := by
  have htest : (replay step? [] (ofQueue patiently (.queued []) 0 0 ⟨16, [], true, true⟩)
      [.move .start, .device (.accept 8 false), .move .connect,
        .set (.ofList [⟨"meter0", "power"⟩]), .move .desire, .move .request,
        .device (.send 0 [bareReport 5, refusal ⟨0, 1⟩ 7]), .move .frame, .move .forward,
        .move .frame, .pass 9]).any
      (fun a => (replay step? [] (ofQueue patiently (.queued []) 0 0 ⟨16, [], true, true⟩)
        [.move .start, .device (.accept 8 false), .device (.send 0 ["no frame"]), .move .connect,
          .move .frame, .set (.ofList [⟨"meter0", "power"⟩]), .move .desire, .move .request,
          .device (.send 0 [hollowReport, bareReport 5, "\x7b\"method\":\"ping\"\x7d", bareReport 5,
            refusal ⟨0, 1⟩ 7]),
          .move .frame, .move .frame, .move .forward, .move .frame, .move .frame, .move .frame,
          .device (.send 0 ["no frame"]), .pass 9]).any
        (fun b => a.1.length == 11 && b.1.length == 17 && weeded b.1 == weeded a.1 &&
          (streamed a.1 a.2).map Snapshot.sequence == [5] &&
          a.2.rejection == some ⟨7, "refused"⟩)) = true := by
    decide +kernel
  obtain ⟨⟨past, s⟩, hrun, htest⟩ := (Option.any_eq_true _ _).mp htest
  obtain ⟨⟨past', s'⟩, hrun', htest⟩ := (Option.any_eq_true _ _).mp htest
  simp only [Bool.and_eq_true, beq_iff_eq] at htest
  obtain ⟨⟨⟨⟨hlength, hlength'⟩, hsame⟩, hstreamed⟩, hrejection⟩ := htest
  have halike := (junk_is_inert (c := patiently) rfl rfl rfl hrun).2 _ past' s' hrun' hsame
  exact ⟨_, past, s, past', s', rfl, rfl, ⟨_, hrun⟩, ⟨_, hrun'⟩, hlength, hlength', hsame,
    by rw [halike.snapshots, hstreamed], by rw [halike.rejection, hrejection], halike⟩

end runs

end ChannelFeed.Session
