import ChannelFeed.Proofs.Edge.Handover
import ChannelFeed.Proofs.Edge.Telling

namespace ChannelFeed

theorem Session.setSubscription_now (s : Session) (addresses : AddressSet) :
    (s.setSubscription addresses).1.now = s.now := by
  unfold Session.setSubscription
  split <;> rfl

namespace Edge

variable {e e' : Edge} {x : Act} {past : Past}

def Act.elapsed : Act → Nat
  | pass ms => ms
  | _ => 0

theorem act_now (h : e.act? x = some e') : e'.session.now = e.session.now + x.elapsed := by
  cases x with
  | pass ms | drain =>
    cases h
    rfl
  | _ =>
    obtain ⟨told, hgoes⟩ := act_goes h rfl
    exact hgoes.now

theorem perform_shape (e : Edge) (command : Command) :
    ∃ panel, (e.perform command).1 = { e with panel }.collect := by
  unfold perform
  cases e.panel.perform command with
  | mk panel reply => exact ⟨panel, rfl⟩

theorem subscribeDecoded_shape (e : Edge) (subscriber : String) (decoder : Charge.Decoder) :
    ∃ panel, (e.subscribeDecoded subscriber decoder).1 = { e with panel }.collect := by
  unfold subscribeDecoded
  cases e.panel.subscribe subscriber none decoder.addresses.toList (.decoded decoder) with
  | mk panel reply => exact ⟨panel, rfl⟩

/-- Two edges wait alike: as long, and by the same clock. -/
structure SameWindow (e e' : Edge) : Prop where
  debounce : e'.debounce = e.debounce
  lastInstant : e'.lastInstant = e.lastInstant

theorem SameWindow.symm (h : SameWindow e e') : SameWindow e' e :=
  ⟨h.debounce.symm, h.lastInstant.symm⟩

theorem SameWindow.trans {e'' : Edge} (h : SameWindow e e') (h' : SameWindow e' e'') :
    SameWindow e e'' :=
  ⟨h'.debounce.trans h.debounce, h'.lastInstant.trans h.lastInstant⟩

theorem SameWindow.endOfPause (h : SameWindow e e') (now : Nat) :
    e'.endOfPause now = e.endOfPause now := by
  rw [Edge.endOfPause, Edge.endOfPause, h.debounce, h.lastInstant]

theorem process_kept (h : e.process? = some e') : SameWindow e e' ∧ e'.pump = e.pump := by
  unfold process? at h
  split at h
  · split at h
    · cases h
      exact ⟨⟨rfl, rfl⟩, rfl⟩
    · cases h
      exact ⟨⟨rfl, rfl⟩, rfl⟩
    · cases h
  · cases h

/-- The window is always the same, and the pump is where it was if it did nothing and was not
stopped. -/
theorem act_kept (h : e.act? x = some e') :
    SameWindow e e' ∧ (x ≠ .pump → x.stops = false → e'.pump = e.pump) := by
  cases x with
  | pump =>
    refine ⟨?_, fun other => absurd rfl other⟩
    rcases pump_cases h with ⟨_, _, rfl⟩ | ⟨_, _, _, rfl⟩ | ⟨_, rfl⟩ | ⟨_, _, rfl⟩ |
      ⟨_, _, _, _, rfl⟩ <;> exact ⟨rfl, rfl⟩
  | process =>
    obtain ⟨hwindow, hpump⟩ := process_kept h
    exact ⟨hwindow, fun _ _ => hpump⟩
  | session m | device step =>
    simp only [act?, Option.map_eq_some_iff] at h
    obtain ⟨_, _, rfl⟩ := h
    exact ⟨⟨rfl, rfl⟩, fun _ _ => rfl⟩
  | command command =>
    obtain ⟨panel, hperform⟩ := perform_shape e command
    cases h
    rw [hperform]
    exact ⟨⟨rfl, rfl⟩, fun _ _ => rfl⟩
  | decoded subscriber decoder =>
    obtain ⟨panel, hsubscribe⟩ := subscribeDecoded_shape e subscriber decoder
    cases h
    rw [hsubscribe]
    exact ⟨⟨rfl, rfl⟩, fun _ _ => rfl⟩
  | shutdown | dispose =>
    cases h
    exact ⟨⟨rfl, rfl⟩, fun _ going => Bool.noConfusion going⟩
  | read | pass ms | letGo | drain =>
    cases h
    exact ⟨⟨rfl, rfl⟩, fun _ _ => rfl⟩

structure Call where
  time : Nat
  upTo : Nat
  union : AddressSet
  deriving DecidableEq

def callIn (e : Edge) : Act → List Call
  | .pump =>
    match e.pump with
    | .setting _ union => [⟨e.session.now, e.versionSeen, union⟩]
    | _ => []
  | _ => []

/-- The calls of a past, the earliest first. -/
def calls (past : Past) : List Call := past.flatMap (fun y => y.1.callIn y.2)

theorem calls_append (past more : Past) : calls (past ++ more) = calls past ++ calls more :=
  List.flatMap_append

theorem calls_act (past : Past) (e : Edge) (x : Act) :
    calls (past ++ [(e, x)]) = calls past ++ e.callIn x := by
  simp [calls]

theorem callIn_other (e : Edge) (h : x ≠ .pump) : e.callIn x = [] := by
  cases x <;> first | rfl | exact absurd rfl h

/-- A later call tells of more changes, and there was a whole pause since the earlier one. -/
def Call.Precedes (e : Edge) (c c' : Call) : Prop :=
  c.upTo < c'.upTo ∧ ∃ begun, c.time ≤ begun ∧ e.endOfPause begun ≤ c'.time

theorem SameWindow.precedes (h : SameWindow e e') {c c' : Call} (hc : c.Precedes e c') :
    c.Precedes e' c' := by
  obtain ⟨hless, begun, hafter, hends⟩ := hc
  exact ⟨hless, begun, hafter, (h.endOfPause begun).symm ▸ hends⟩

/-- Calls made before an instant, none of which told of as many changes. -/
def Behind (made : List Call) (begun upTo : Nat) : Prop :=
  ∀ c ∈ made, c.time ≤ begun ∧ c.upTo < upTo

/-- What the pump is doing has begun after its last call, with a pause. -/
def Rested (made : List Call) (e : Edge) : Pump → Prop
  | .waiting | .stopped => True
  | .debouncing wake =>
    ∃ begun, wake = e.endOfPause begun ∧ Behind made begun e.versionSeen
  | .marking | .reading _ | .setting _ _ =>
    ∃ begun, e.endOfPause begun ≤ e.session.now ∧ Behind made begun e.versionSeen

/-- How the calls of a run follow one another. -/
structure Paced (past : Past) (e : Edge) : Prop where
  apart : (calls past).Pairwise (Call.Precedes e)
  made : ∀ c ∈ calls past, c.time ≤ e.session.now ∧ c.upTo ≤ e.versionSeen
  /-- A call is up to date as long as there is no further change. -/
  current : ∀ c ∈ calls past, c.upTo = e.registry.announced.changes → c.union = e.union
  rested : Rested (calls past) e e.pump

theorem Rested.later {made : List Call} {p : Pump} (h : Rested made e p)
    (window : SameWindow e e') (now : e.session.now ≤ e'.session.now)
    (seen : e'.versionSeen = e.versionSeen) : Rested made e' p := by
  cases p with
  | waiting | stopped => trivial
  | debouncing wake =>
    obtain ⟨begun, hwake, hbehind⟩ := h
    exact ⟨begun, hwake.trans (window.endOfPause begun).symm, seen ▸ hbehind⟩
  | marking | reading | setting =>
    obtain ⟨begun, hends, hbehind⟩ := h
    exact ⟨begun, (window.endOfPause begun).symm ▸ Nat.le_trans hends now, seen ▸ hbehind⟩

theorem Behind.mono {made : List Call} {begun upTo upTo' : Nat} (h : Behind made begun upTo)
    (hle : upTo ≤ upTo') : Behind made begun upTo' := fun c hc =>
  ⟨(h c hc).1, Nat.lt_of_lt_of_le (h c hc).2 hle⟩

theorem Paced.uncalled (h : Paced past e) (hand : e.Handover) (silent : e.callIn x = [])
    (window : SameWindow e e') (now : e.session.now ≤ e'.session.now)
    (seen : e.versionSeen ≤ e'.versionSeen) (registry : e.registry.Later e'.registry)
    (rested : Rested (calls past) e' e'.pump) : Paced (past ++ [(e, x)]) e' := by
  have hcalls : calls (past ++ [(e, x)]) = calls past := by
    rw [calls_act, silent, List.append_nil]
  have hlooked := hand.looked
  have hlater := registry.changes
  refine ⟨by rw [hcalls]; exact h.apart.imp window.precedes, fun c hc => ?_, fun c hc hlast => ?_,
    by rw [hcalls]; exact rested⟩
  · rw [hcalls] at hc
    obtain ⟨htime, hupTo⟩ := h.made c hc
    exact ⟨Nat.le_trans htime now, Nat.le_trans hupTo seen⟩
  · rw [hcalls] at hc
    obtain ⟨_, hupTo⟩ := h.made c hc
    have hsame : e'.union = e.union := registry.union (by omega)
    rw [hsame]
    exact h.current c hc (by omega)

theorem Paced.aside (h : Paced past e) (hand : e.Handover) (hx : e.act? x = some e')
    (other : x ≠ .pump) : Paced (past ++ [(e, x)]) e' := by
  have haside := act_aside hand.sound hx other
  have hwindow := (act_kept hx).1
  have hnow : e.session.now ≤ e'.session.now := by
    rw [act_now hx]
    exact Nat.le_add_right _ _
  refine h.uncalled hand (callIn_other e other) hwindow hnow (Nat.le_of_eq haside.seen.symm)
    haside.registry ?_
  rcases haside.pump with hpump | hpump
  · rw [hpump]
    exact h.rested.later hwindow hnow haside.seen
  · rw [hpump]
    trivial

theorem Paced.call {version : Nat} {union : AddressSet} (h : Paced past e) (hand : e.Handover)
    (hp : e.pump = .setting version union) (window : SameWindow e e')
    (now : e'.session.now = e.session.now) (seen : e'.versionSeen = e.versionSeen)
    (registry : e'.registry = e.registry) (waits : e'.pump = .waiting) :
    Paced (past ++ [(e, .pump)]) e' := by
  have hcalls : calls (past ++ [(e, .pump)]) =
      calls past ++ [⟨e.session.now, e.versionSeen, union⟩] := by simp [calls_act, callIn, hp]
  have hrested := h.rested
  rw [hp] at hrested
  obtain ⟨begun, hends, hbehind⟩ := hrested
  refine ⟨?_, fun c hc => ?_, fun c hc => ?_, by rw [waits]; trivial⟩
  · rw [hcalls, List.pairwise_append]
    refine ⟨h.apart.imp window.precedes, List.pairwise_singleton _ _, fun c hc c' hc' => ?_⟩
    cases List.mem_singleton.mp hc'
    exact window.precedes ⟨(hbehind c hc).2, begun, (hbehind c hc).1, hends⟩
  · rw [hcalls] at hc
    rw [now, seen]
    rcases List.mem_append.mp hc with hc | hc
    · exact h.made c hc
    · cases List.mem_singleton.mp hc
      exact ⟨Nat.le_refl _, Nat.le_refl _⟩
  · rw [hcalls] at hc
    rw [Edge.union, registry]
    rcases List.mem_append.mp hc with hc | hc
    · exact h.current c hc
    · cases List.mem_singleton.mp hc
      exact hand.held version union hp

theorem Handover.unseen_lt (h : e.Handover)
    (hunseen : e.registry.announced.unseen e.versionSeen = true) :
    e.versionSeen < e.registry.announced.changes := by
  have hlooked := h.looked
  have hne : e.registry.announced.changes ≠ e.versionSeen := by
    simpa [Watch.unseen] using hunseen
  omega

theorem Paced.pump (h : Paced past e) (hand : e.Handover) (window : e.debounce.isZero = false)
    (hx : e.pump? = some e') : Paced (past ++ [(e, .pump)]) e' := by
  have hrested := h.rested
  have hsame : e.registry.Later e.registry := .refl hand.sound
  rcases pump_cases hx with ⟨hp, hunseen, rfl⟩ | ⟨wake, hp, hdue, rfl⟩ | ⟨hp, rfl⟩ |
    ⟨version, hp, rfl⟩ | ⟨version, union, notes, hp, rfl⟩
  · refine h.uncalled hand (by simp [callIn, hp]) ⟨rfl, rfl⟩ (Nat.le_refl _) hand.looked hsame ?_
    simp only [window]
    refine ⟨e.session.now, rfl, fun c hc => ?_⟩
    obtain ⟨htime, hupTo⟩ := h.made c hc
    exact ⟨htime, Nat.lt_of_le_of_lt hupTo (hand.unseen_lt hunseen)⟩
  · rw [hp] at hrested
    obtain ⟨begun, rfl, hbehind⟩ := hrested
    exact h.uncalled hand (by simp [callIn, hp]) ⟨rfl, rfl⟩ (Nat.le_refl _) (Nat.le_refl _) hsame
      ⟨begun, hdue, hbehind⟩
  · rw [hp] at hrested
    obtain ⟨begun, hends, hbehind⟩ := hrested
    exact h.uncalled hand (by simp [callIn, hp]) ⟨rfl, rfl⟩ (Nat.le_refl _) hand.looked hsame
      ⟨begun, hends, hbehind.mono hand.looked⟩
  · rw [hp] at hrested
    obtain ⟨begun, hends, hbehind⟩ := hrested
    exact h.uncalled hand (by simp [callIn, hp]) ⟨rfl, rfl⟩ (Nat.le_refl _) (Nat.le_refl _) hsame
      ⟨begun, hends, hbehind⟩
  · exact h.call hand hp ⟨rfl, rfl⟩ (Session.setSubscription_now _ _) rfl rfl rfl

theorem start_waiting {c : Config} {connector : Connector} {source now : Nat}
    (h : Edge.start c connector source now = .ok e) : e.pump = .waiting := by
  unfold Edge.start at h
  cases hs : Session.ofConfig c connector source now with
  | error fault =>
    rw [hs] at h
    cases h
  | ok s =>
    rw [hs] at h
    cases h
    rfl

theorem Reached.paced (h : Reached past e) (window : e.debounce.isZero = false) :
    Paced past e := by
  induction h with
  | start promised started =>
    refine ⟨List.Pairwise.nil, fun _ hc => (nomatch hc), fun _ hc => (nomatch hc), ?_⟩
    rw [start_waiting started]
    trivial
  | @act past e e' x earlier possible ih =>
    have hwindow : e.debounce.isZero = false := (act_kept possible).1.debounce ▸ window
    by_cases hx : x = .pump
    · subst hx
      exact (ih hwindow).pump earlier.handover hwindow possible
    · exact (ih hwindow).aside earlier.handover possible hx

end Edge

end ChannelFeed
