import Mathlib.Data.List.Forall2
import ChannelFeed.Proofs.Session.Passage

namespace ChannelFeed.Session

variable {s t u : Session} {x : Step}

def inbound (s : Session) (link : Nat) : List String :=
  match s.links[link]? with
  | some l => l.toClient.queue
  | none => []

/-- Of some frames, those that the device gets onto a link. -/
def fitting (s : Session) (link : Nat) (texts : List String) : List String :=
  ((texts.zip (s.deviceSend link texts).2).filter (fun p => p.2 == .ok)).map Prod.fst

/-- The frames that are put on a link in a step, each with the instant. -/
def arrivedIn (link : Nat) (s : Session) : Step → List (Nat × String)
  | .device (.send k texts) =>
    if k = link then (s.fitting k texts).map (fun text => (s.now, text)) else []
  | _ => []

/-- The frame that is taken off a link in a step, with the instant. -/
def takenOffIn (link : Nat) (s : Session) : Step → List (Nat × String)
  | .move .frame =>
    match s.phase with
    | .driving d =>
      if d.link = link then ((s.inbound link).head?.map (fun text => (s.now, text))).toList else []
    | _ => []
  | _ => []

theorem arrivedIn_instant {link : Nat} {e : Nat × String} (h : e ∈ arrivedIn link s x) :
    e.1 = s.now := by
  unfold arrivedIn at h
  split at h
  · split at h
    · obtain ⟨text, _, rfl⟩ := List.mem_map.mp h
      rfl
    · cases h
  · cases h

theorem takenOffIn_instant {link : Nat} {e : Nat × String} (h : e ∈ takenOffIn link s x) :
    e.1 = s.now := by
  unfold takenOffIn at h
  split at h
  · split at h
    · split at h
      · rw [Option.mem_toList, Option.map_eq_some_iff] at h
        obtain ⟨text, _, rfl⟩ := h
        rfl
      · cases h
    · cases h
  · cases h

/-- No frame was put on a link or taken off one between two states, and no time passed. -/
structure Calm (s t : Session) : Prop where
  inbound : ∀ link, t.inbound link = s.inbound link
  idle : t.idle = s.idle
  now : t.now = s.now

theorem Calm.refl (s : Session) : Calm s s := ⟨fun _ => rfl, rfl, rfl⟩

theorem Calm.trans (h : Calm s t) (h' : Calm t u) : Calm s u where
  inbound link := (h'.inbound link).trans (h.inbound link)
  idle := h'.idle.trans h.idle
  now := h'.now.trans h.now

theorem Calm.of_eq (hl : t.links = s.links) (hi : t.idle = s.idle) (hn : t.now = s.now) :
    Calm s t :=
  ⟨fun link => by simp only [Session.inbound, hl], hi, hn⟩

theorem calm_modifyLink (s : Session) (link : Nat) {f : Link → Link}
    (hf : ∀ l, (f l).toClient.queue = l.toClient.queue) : Calm s (s.modifyLink link f) where
  inbound k := by
    simp only [Session.inbound, modifyLink, List.getElem?_modify]
    cases s.links[k]? with
    | none => rfl
    | some l =>
      by_cases hk : link = k
      · simp [hk, hf]
      · simp [hk]
  idle := rfl
  now := rfl

theorem calm_dropLink (s : Session) (link : Nat) : Calm s (s.dropLink link) :=
  calm_modifyLink s link (fun _ => rfl)

theorem calm_note (s : Session) (notes : List Note) : Calm s (s.note notes) := .of_eq rfl rfl rfl

theorem calm_transition (s : Session) (next : LinkState) : Calm s (s.transition next) := by
  obtain ⟨watchedState, notes, h⟩ := transition_shape s next
  rw [h]
  exact .of_eq rfl rfl rfl

theorem calm_retire (s : Session) : Calm s s.retire := by
  have h : Calm s s.dropOutcomes :=
    dropOutcomes_kept s (.of_eq rfl rfl rfl) (fun t link ht => ht.trans (calm_dropLink t link))
      (.refl s)
  exact h.trans (.of_eq rfl rfl rfl)

theorem calm_finish (s : Session) : Calm s s.finish := (calm_retire s).trans (calm_transition _ _)

theorem calm_breakDown (s : Session) (link : Nat) : Calm s (s.breakDown link) :=
  (calm_dropLink s link).trans (calm_retire _)

theorem calm_attempt (s : Session) (failures : Nat) : Calm s (s.attempt failures) := by
  have h := calm_transition s (if failures = 0 then .connecting else .reconnecting failures)
  unfold attempt
  dsimp only
  split
  · exact h.trans (.of_eq rfl rfl rfl)
  · exact h.trans (.of_eq rfl rfl rfl)

theorem calm_retry (s : Session) (failures : Nat) (reason : String) :
    Calm s (s.retry failures reason) := by
  unfold retry
  split
  · exact ((calm_note s _).trans (calm_retire _)).trans (calm_transition _ _)
  · exact (calm_transition s _).trans (.of_eq rfl rfl rfl)

theorem calm_lose (s : Session) (link : Nat) (reason : String) : Calm s (s.lose link reason) :=
  ((calm_dropLink s link).trans (calm_note _ _)).trans (calm_retry _ _ _)

theorem calm_sync (s : Session) (d : Drive) : Calm s (s.sync d) := by
  unfold sync
  dsimp only
  split
  · exact .of_eq rfl rfl rfl
  · exact .of_eq rfl rfl rfl

theorem calm_openLink (s : Session) (link : Nat) : Calm s (s.openLink link) := by
  unfold openLink
  have h : Calm s { (s.transition .connected).note [.connected s.edge] with rejection := none } :=
    (calm_transition s .connected).trans (.of_eq rfl rfl rfl)
  exact h.trans (calm_sync _ _)

theorem calm_sent (s : Session) (d : Drive) (r : Request) : Calm s (s.sent d r) := by
  unfold sent
  dsimp only
  split
  · exact .of_eq rfl rfl rfl
  · exact (calm_note s _).trans (calm_breakDown _ _)

theorem calm_handle (s : Session) (d : Drive) (text : String) : Calm s (s.handle d text) := by
  obtain ⟨rejection, notes, h⟩ := handle_shape s d text
  rw [h]
  exact .of_eq rfl rfl rfl

theorem calm_takeOutcome {outcome : Outcome} (h : s.takeOutcome? = some (t, outcome)) :
    Calm s t := by
  obtain ⟨rest, _, rfl⟩ | ⟨url, _, _, _, rfl⟩ := takeOutcome_cases h
  · exact .of_eq rfl rfl rfl
  · exact calm_note s _

theorem move_calm {m : Move} (h : s.move? m = some t) (hm : m ≠ .frame) : Calm s t := by
  cases m with
  | frame => exact absurd rfl hm
  | start =>
    obtain ⟨_, rfl⟩ := start_cases h
    exact calm_attempt s 0
  | connect =>
    obtain ⟨failures, u, _, ⟨link, ho, rfl⟩ | ⟨fault, ho, rfl⟩⟩ := connect_cases h
    · exact (calm_takeOutcome ho).trans (calm_openLink _ _)
    · exact ((calm_takeOutcome ho).trans (calm_note _ _)).trans (calm_retry _ _ _)
  | request =>
    obtain ⟨d, r, l, _, _, ⟨toDevice, _, rfl⟩ | ⟨_, rfl⟩⟩ := request_cases h
    · have h := calm_modifyLink s d.link (f := fun l => { l with toDevice }) (fun _ => rfl)
      exact h.trans (calm_sent _ _ _)
    · exact calm_lose s _ _
  | forward =>
    obtain ⟨d, snapshot, _, ⟨snapshots, _, rfl⟩ | ⟨_, rfl⟩⟩ := forward_cases h
    · exact .of_eq rfl rfl rfl
    · exact ((calm_dropLink s _).trans (calm_note _ _)).trans (calm_finish _)
  | halt =>
    obtain ⟨_, ⟨_, rfl⟩ | ⟨d, _, rfl⟩⟩ := halt_cases h
    · exact calm_finish s
    · exact (calm_dropLink s _).trans (calm_finish _)
  | desire =>
    obtain ⟨d, _, _, rfl⟩ := desire_cases h
    exact calm_sync s d
  | silence =>
    obtain ⟨d, _, _, _, _, rfl⟩ := silence_cases h
    exact calm_lose s _ _
  | wake =>
    obtain ⟨failures, _, _, _, rfl⟩ := wake_cases h
    exact calm_attempt s failures

/-- What a step does to the frames that wait on each link. Time does not run backwards. -/
structure Traffic (s : Session) (x : Step) (t : Session) : Prop where
  inbound : ∀ link, (takenOffIn link s x).map Prod.snd ++ t.inbound link =
    s.inbound link ++ (arrivedIn link s x).map Prod.snd
  idle : t.idle = s.idle
  now : s.now ≤ t.now

theorem Calm.traffic (h : Calm s t) (harrived : ∀ link, arrivedIn link s x = [])
    (htaken : ∀ link, takenOffIn link s x = []) : Traffic s x t where
  inbound link := by
    rw [harrived, htaken, h.inbound]
    exact (List.append_nil _).symm
  idle := h.idle
  now := Nat.le_of_eq h.now.symm

theorem frame_traffic (h : s.move? .frame = some t) : Traffic s (.move .frame) t := by
  obtain ⟨d, l, hp, hl, ⟨toClient, text, hr, hcases⟩ | ⟨hr, rfl⟩⟩ := frame_cases h
  · have hq := receive_item hr
    have hcalm : Calm (s.modifyLink d.link (fun l => { l with toClient })) t := by
      rcases hcases with ⟨deadline, _, rfl⟩ | ⟨_, rfl⟩
      · exact calm_handle _ _ _
      · exact calm_breakDown _ _
    refine ⟨fun link => ?_, hcalm.idle, Nat.le_of_eq hcalm.now.symm⟩
    rw [hcalm.inbound]
    by_cases hlink : d.link = link
    · subst hlink
      simp [takenOffIn, arrivedIn, hp, inbound, modifyLink, hl, hq]
    · simp [takenOffIn, arrivedIn, hp, inbound, modifyLink, hlink]
  · refine (calm_lose s _ _).traffic (fun _ => rfl) (fun link => ?_)
    unfold takenOffIn
    rw [hp]
    dsimp only
    split
    · rename_i hlink
      simp [inbound, ← hlink, hl, receive_closed hr]
    · rfl

theorem send_queue {α : Type} (p : Pipe α) (item : α) :
    (p.send item).1.queue = p.queue ++ if (p.send item).2 = .ok then [item] else [] := by
  unfold Pipe.send
  split
  · simp
  · split <;> simp

theorem deviceSend_cons {link : Nat} {l : Link} (hl : s.links[link]? = some l) (text : String)
    (rest : List String) : s.deviceSend link (text :: rest) =
      (((s.modifyLink link (fun _ => (l.deviceSend text).1)).deviceSend link rest).1,
        (l.deviceSend text).2 ::
          ((s.modifyLink link (fun _ => (l.deviceSend text).1)).deviceSend link rest).2) := by
  rw [deviceSend, hl]

theorem fitting_cons {link : Nat} {l : Link} (hl : s.links[link]? = some l) (text : String)
    (rest : List String) : s.fitting link (text :: rest) =
      (if (l.deviceSend text).2 = .ok then [text] else []) ++
        (s.modifyLink link (fun _ => (l.deviceSend text).1)).fitting link rest := by
  unfold fitting
  rw [deviceSend_cons hl, List.zip_cons_cons, List.filter_cons]
  by_cases hok : (l.deviceSend text).2 = .ok
  · simp [hok]
  · simp [hok]

theorem inbound_modifyLink (s : Session) (link k : Nat) (l : Link) :
    (s.modifyLink link (fun _ => l)).inbound k =
      if link = k ∧ k < s.links.length then l.toClient.queue else s.inbound k := by
  simp only [inbound, modifyLink, List.getElem?_modify]
  by_cases hk : link = k
  · by_cases hlt : k < s.links.length
    · simp [hk, hlt]
    · simp [hlt]
  · simp [hk]

theorem deviceSend_inbound (s : Session) (link : Nat) (texts : List String) (k : Nat) :
    (s.deviceSend link texts).1.inbound k =
      s.inbound k ++ if link = k then s.fitting link texts else [] := by
  induction texts generalizing s with
  | nil => simp [deviceSend, fitting]
  | cons text rest ih =>
    cases hl : s.links[link]? with
    | none => simp [deviceSend, fitting, hl]
    | some l =>
      have hlt := (List.getElem?_eq_some_iff.mp hl).1
      rw [fitting_cons hl, deviceSend_cons hl, ih, inbound_modifyLink]
      by_cases hk : link = k
      · subst hk
        have hqueue : (l.deviceSend text).1.toClient.queue =
            s.inbound link ++ if (l.deviceSend text).2 = .ok then [text] else [] := by
          simp only [inbound, hl]
          exact send_queue l.toClient text
        rw [if_pos ⟨rfl, hlt⟩, if_pos rfl, if_pos rfl, hqueue, List.append_assoc]
      · rw [if_neg (fun h => hk h.1), if_neg hk, if_neg hk]

theorem inbound_push (s : Session) {l : Link} (hempty : l.toClient.queue = []) (link : Nat) :
    { s with links := s.links ++ [l] }.inbound link = s.inbound link := by
  simp only [inbound]
  rcases Nat.lt_trichotomy link s.links.length with hlt | heq | hgt
  · rw [List.getElem?_append_left hlt]
  · simp [heq, hempty]
  · rw [List.getElem?_eq_none (by simp; omega), List.getElem?_eq_none (by omega)]

theorem queueOutcome_calm (s : Session) (outcome : Outcome) : Calm s (s.queueOutcome outcome) := by
  obtain ⟨connector, h⟩ := queueOutcome_shape s outcome
  rw [h]
  exact .of_eq rfl rfl rfl

theorem device_traffic {step : DeviceStep} {result : Session × DeviceReply}
    (h : s.device? step = some result) : Traffic s (.device step) result.1 := by
  have hchange : ∀ {link : Nat} {f : Link → Link}, s.changeLink? link f = some result →
      (∀ l, (f l).toClient.queue = l.toClient.queue) → Calm s result.1 := by
    intro link f hc hf
    rw [changeLink_shape hc]
    exact calm_modifyLink s link hf
  cases step with
  | accept buffer held =>
    refine Calm.traffic ?_ (fun _ => rfl) (fun _ => rfl)
    simp only [device?, accept?] at h
    split at h
    · rename_i v link ha
      simp only [Option.map_eq_some_iff] at ha
      obtain ⟨fresh, hf, ha⟩ := ha
      have hempty : fresh.toClient.queue = [] := by
        unfold Link.ofBuffer? at hf
        split at hf
        · rename_i _ toClient _ hcapacity
          cases hf
          exact (ofCapacity_fresh hcapacity).2.2
        · cases hf
      cases h
      split at ha
      · cases ha
        exact ⟨inbound_push s hempty, rfl, rfl⟩
      · cases ha
        have hpush : Calm s { s with links := s.links ++ [fresh] } :=
          ⟨inbound_push s hempty, rfl, rfl⟩
        exact hpush.trans (queueOutcome_calm _ _)
    · cases h
      exact .refl s
  | refuse fault =>
    cases h
    refine Calm.traffic ?_ (fun _ => rfl) (fun _ => rfl)
    unfold Session.refuse
    split
    · exact .refl s
    · exact queueOutcome_calm s _
  | send link texts =>
    simp only [device?] at h
    split at h
    · cases h
      obtain ⟨links, heq⟩ := deviceSend_shape s link texts
      refine ⟨fun k => ?_, by rw [heq], Nat.le_of_eq (by rw [heq])⟩
      dsimp only
      rw [deviceSend_inbound]
      unfold arrivedIn
      by_cases hk : link = k
      · simp [takenOffIn, hk, Function.comp_def]
      · simp [takenOffIn, hk]
    · cases h
  | close link => exact (hchange h (fun _ => rfl)).traffic (fun _ => rfl) (fun _ => rfl)
  | closeSender link => exact (hchange h (fun _ => rfl)).traffic (fun _ => rfl) (fun _ => rfl)
  | closeReceiver link => exact (hchange h (fun _ => rfl)).traffic (fun _ => rfl) (fun _ => rfl)
  | unhold link => exact (hchange h (fun _ => rfl)).traffic (fun _ => rfl) (fun _ => rfl)

theorem step_traffic (h : s.step? x = some t) : Traffic s x t := by
  have hcalm : Calm s t → (∀ link, arrivedIn link s x = []) → (∀ link, takenOffIn link s x = []) →
      Traffic s x t := Calm.traffic
  cases x with
  | move m =>
    by_cases hm : m = .frame
    · subst hm
      exact frame_traffic h
    · refine hcalm (move_calm h hm) (fun _ => rfl) (fun link => ?_)
      cases m with
      | frame => exact absurd rfl hm
      | _ => rfl
  | set addresses =>
    cases h
    refine hcalm ?_ (fun _ => rfl) (fun _ => rfl)
    unfold setSubscription
    split
    · exact .refl s
    · exact .of_eq rfl rfl rfl
  | shutdown =>
    cases h
    obtain ⟨stopped, watchedState, notes, heq⟩ := shutdown_shape s
    refine hcalm ?_ (fun _ => rfl) (fun _ => rfl)
    rw [heq]
    exact .of_eq rfl rfl rfl
  | device step =>
    simp only [step?, Option.map_eq_some_iff] at h
    obtain ⟨result, hd, rfl⟩ := h
    exact device_traffic hd
  | read =>
    cases h
    refine hcalm ⟨fun link => ?_, rfl, rfl⟩ (fun _ => rfl) (fun _ => rfl)
    simp only [inbound, readLinks, List.map_map, List.getElem?_map]
    cases s.links[link]? with
    | none => rfl
    | some l =>
      show l.deviceRead.1.toClient.queue = l.toClient.queue
      unfold Link.deviceRead
      split <;> rfl
  | pass ms =>
    cases h
    exact ⟨fun _ => (List.append_nil _).symm, rfl, Nat.le_add_right _ _⟩
  | take | dropSnapshots | collect =>
    cases h
    exact hcalm (.of_eq rfl rfl rfl) (fun _ => rfl) (fun _ => rfl)

theorem step_now (h : s.step? x = some t) (hx : ∀ ms, x ≠ .pass ms) : t.now = s.now := by
  cases x with
  | pass ms => exact absurd rfl (hx ms)
  | move m =>
    by_cases hm : m = .frame
    · subst hm
      obtain ⟨d, l, _, _, ⟨toClient, text, _, ⟨deadline, _, rfl⟩ | ⟨_, rfl⟩⟩ | ⟨_, rfl⟩⟩ :=
        frame_cases h
      · exact (calm_handle (s.modifyLink d.link (fun l => { l with toClient })) _ text).now
      · exact (calm_breakDown (s.modifyLink d.link (fun l => { l with toClient })) _).now
      · exact (calm_lose s _ _).now
    · exact (move_calm h hm).now
  | shutdown =>
    cases h
    obtain ⟨stopped, watchedState, notes, heq⟩ := shutdown_shape s
    rw [heq]
  | set addresses =>
    cases h
    unfold setSubscription
    split <;> rfl
  | device step =>
    simp only [step?, Option.map_eq_some_iff] at h
    obtain ⟨result, hd, rfl⟩ := h
    obtain ⟨links, connector, heq⟩ := device_shape hd
    rw [heq]
  | read | take | dropSnapshots | collect =>
    cases h
    rfl

/-- What was put on a link was taken off in its order, each frame no earlier than it was put there, and
the rest still waits. -/
structure Flow (arrived taken : List (Nat × String)) (waiting : List String) (now : Nat) : Prop where
  order : ∃ early late, arrived = early ++ late ∧ late.map Prod.snd = waiting ∧
    List.Forall₂ (fun a b => a.1 ≤ b.1 ∧ a.2 = b.2) early taken
  before : ∀ frame ∈ arrived, frame.1 ≤ now

/-- Frames that are taken off at one instant, when they had been put on the link by then. -/
theorem forall₂_taken {early taken : List (Nat × String)} {now : Nat}
    (hsame : early.map Prod.snd = taken.map Prod.snd) (hearly : ∀ a ∈ early, a.1 ≤ now)
    (htaken : ∀ b ∈ taken, b.1 = now) :
    List.Forall₂ (fun a b => a.1 ≤ b.1 ∧ a.2 = b.2) early taken := by
  induction early generalizing taken with
  | nil =>
    rw [List.map_nil, List.nil_eq, List.map_eq_nil_iff] at hsame
    rw [hsame]
    exact .nil
  | cons a rest ih =>
    cases taken with
    | nil => cases hsame
    | cons b more =>
      rw [List.map_cons, List.map_cons, List.cons.injEq] at hsame
      rw [List.forall_mem_cons] at hearly htaken
      exact .cons ⟨htaken.1 ▸ hearly.1, hsame.1⟩ (ih hsame.2 hearly.2 htaken.2)

theorem Flow.step {arrived taken more out : List (Nat × String)} {waiting waiting' : List String}
    {now now' : Nat} (h : Flow arrived taken waiting now) (hmore : ∀ a ∈ more, a.1 = now)
    (hout : ∀ b ∈ out, b.1 = now)
    (hlaw : out.map Prod.snd ++ waiting' = waiting ++ more.map Prod.snd) (hnow : now ≤ now') :
    Flow (arrived ++ more) (taken ++ out) waiting' now' := by
  have hbefore : ∀ a ∈ arrived ++ more, a.1 ≤ now := by
    intro a ha
    rcases List.mem_append.mp ha with ha | ha
    · exact h.before a ha
    · exact Nat.le_of_eq (hmore a ha)
  obtain ⟨early, late, rfl, rfl, hpairs⟩ := h.order
  -- what waited and what came now splits into what is taken now and what waits then
  rw [← List.map_append] at hlaw
  obtain ⟨next, rest, hsplit, hnext, hrest⟩ := List.map_eq_append_iff.mp hlaw.symm
  have hall : early ++ late ++ more = early ++ next ++ rest := by
    rw [List.append_assoc, hsplit, List.append_assoc]
  have hnext_before : ∀ a ∈ next, a.1 ≤ now := by
    intro a ha
    apply hbefore a
    rw [hall]
    exact List.mem_append_left _ (List.mem_append_right _ ha)
  refine ⟨⟨early ++ next, rest, hall, hrest, ?_⟩, fun a ha => Nat.le_trans (hbefore a ha) hnow⟩
  exact List.rel_append hpairs (forall₂_taken hnext hnext_before hout)

/-- The frames on a link come first in, first out. -/
theorem Reached.flow {past : Past} (h : Reached past s) (link : Nat) :
    Flow (logged (arrivedIn link) past) (logged (takenOffIn link) past) (s.inbound link) s.now := by
  induction h with
  | start promised started =>
    obtain ⟨snapshots, _, rfl⟩ := ofConfig_eq started
    exact ⟨⟨[], [], rfl, rfl, .nil⟩, fun _ hm => nomatch hm⟩
  | @step past u t x earlier possible ih =>
    have ht := step_traffic possible
    rw [logged_append, logged_append]
    exact ih.step (fun _ => arrivedIn_instant) (fun _ => takenOffIn_instant) (ht.inbound link) ht.now

end ChannelFeed.Session
