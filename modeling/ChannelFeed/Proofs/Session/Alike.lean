import ChannelFeed.Proofs.Session.Junk
import ChannelFeed.Proofs.Session.Traffic

namespace ChannelFeed.Session

variable {s s' t u : Session} {x : Step} {earlier later : Nat → List Snapshot}

theorem Alike.phase (h : Alike earlier t s) : t.phase = s.phase := by
  obtain ⟨links, notes, rfl, _⟩ := h
  rfl

theorem Alike.takeOutcome {outcome : Outcome} (h : Alike earlier t s)
    (ho : s.takeOutcome? = some (u, outcome)) :
    ∃ v, t.takeOutcome? = some (v, outcome) ∧ Alike earlier v u := by
  obtain ⟨links, notes, rfl, hlinks⟩ := h
  rcases takeOutcome_cases ho with ⟨rest, hc, rfl⟩ | ⟨url, fault, hc, rfl, rfl⟩
  · refine ⟨_, ?_, links, notes, rfl, hlinks⟩
    simp only [takeOutcome?, hc]
  · refine ⟨{ s with links, notes }.note [.connectingTo url], ?_, links, _, rfl, hlinks⟩
    simp only [takeOutcome?, hc]

theorem Alike.request (h : Alike earlier t s) (hm : s.move? .request = some s') :
    ∃ t', t.move? .request = some t' ∧ Alike earlier t' s' := by
  obtain ⟨d, r, l, hp, hl, hcases⟩ := request_cases hm
  have hlink := h.link hl
  have hsend : (l.weeded (earlier d.link)).toDevice.send r = l.toDevice.send r := rfl
  rcases hcases with ⟨toDevice, hs, rfl⟩ | ⟨hs, rfl⟩
  · refine ⟨(t.modifyLink d.link (fun l => { l with toDevice })).sent d r, ?_, ?_⟩
    · simp only [move?, h.phase, hp, hlink, hsend, hs]
    · have hput : Alike earlier (t.modifyLink d.link (fun l => { l with toDevice }))
          (s.modifyLink d.link (fun l => { l with toDevice })) :=
        h.modifyLink (fun _ _ => rfl) (fun _ _ => rfl)
      exact hput.sent d r
  · refine ⟨t.lose d.link "transport closed while subscribing", ?_, h.lose _ _⟩
    cases hresult : l.toDevice.send r with
    | mk toDevice sent =>
      rw [hresult] at hs
      dsimp only at hs
      rw [hs] at hresult
      simp only [move?, h.phase, hp, hlink, hsend, hresult]

theorem Alike.connect (h : Alike earlier t s) (hm : s.move? .connect = some s') :
    ∃ t', t.move? .connect = some t' ∧ Alike earlier t' s' := by
  obtain ⟨failures, u, hp, ⟨link, ho, rfl⟩ | ⟨fault, ho, rfl⟩⟩ := connect_cases hm
  · obtain ⟨v, ht, hv⟩ := h.takeOutcome ho
    exact ⟨_, by simp only [move?, h.phase, hp, ht], hv.openLink link⟩
  · obtain ⟨v, ht, hv⟩ := h.takeOutcome ho
    refine ⟨_, ?_, (hv.note [.connectFailed v.edge fault.message failures] _).retry _ _⟩
    simp only [move?, h.phase, hp, ht]

theorem Alike.forward (h : Alike earlier t s) (hm : s.move? .forward = some s') :
    ∃ t', t.move? .forward = some t' ∧ Alike earlier t' s' := by
  have hout : t.snapshots = s.snapshots := by
    obtain ⟨links, notes, rfl, _⟩ := h
    rfl
  obtain ⟨d, snapshot, hp, ⟨snapshots, hs, rfl⟩ | ⟨hs, rfl⟩⟩ := forward_cases hm
  · refine ⟨{ t with snapshots, phase := .driving d }, ?_, ?_⟩
    · simp only [move?, h.phase, hp, hout, hs]
    · obtain ⟨links, notes, rfl, hlinks⟩ := h
      exact ⟨links, notes, rfl, hlinks⟩
  · refine ⟨((t.dropLink d.link).note [.processorGone t.edge]).finish, ?_,
      ((h.dropLink _).note _ _).finish⟩
    cases hresult : s.snapshots.send snapshot with
    | mk snapshots sent =>
      rw [hresult] at hs
      dsimp only at hs
      rw [hs] at hresult
      simp only [move?, h.phase, hp, hout, hresult]

theorem Alike.halt (h : Alike earlier t s) (hm : s.move? .halt = some s') :
    ∃ t', t.move? .halt = some t' ∧ Alike earlier t' s' := by
  have hstopped : t.stopped = s.stopped := by
    obtain ⟨links, notes, rfl, _⟩ := h
    rfl
  obtain ⟨hstop, ⟨⟨failures, hp⟩ | ⟨failures, wake, hp⟩, rfl⟩ | ⟨d, hp, rfl⟩⟩ := halt_cases hm
  · exact ⟨_, by simp only [move?, hstopped, hstop, h.phase, hp, if_true], h.finish⟩
  · exact ⟨_, by simp only [move?, hstopped, hstop, h.phase, hp, if_true], h.finish⟩
  · exact ⟨_, by simp only [move?, hstopped, hstop, h.phase, hp, if_true],
      (h.dropLink _).finish⟩

theorem Alike.desire (h : Alike earlier t s) (hm : s.move? .desire = some s') :
    ∃ t', t.move? .desire = some t' ∧ Alike earlier t' s' := by
  have hseen : t.desired.unseen t.desiredSeen = s.desired.unseen s.desiredSeen := by
    obtain ⟨links, notes, rfl, _⟩ := h
    rfl
  obtain ⟨d, hp, hunseen, rfl⟩ := desire_cases hm
  exact ⟨_, by simp only [move?, h.phase, hp, hseen, hunseen, if_true], h.sync d⟩

theorem Alike.move {m : Move} (h : Alike earlier t s) (hm : s.move? m = some s')
    (hframe : m ≠ .frame) : ∃ t', t.move? m = some t' ∧ Alike earlier t' s' := by
  cases m with
  | frame => exact absurd rfl hframe
  | request => exact h.request hm
  | connect => exact h.connect hm
  | forward => exact h.forward hm
  | halt => exact h.halt hm
  | desire => exact h.desire hm
  | start =>
    obtain ⟨hp, rfl⟩ := start_cases hm
    exact ⟨_, by simp only [move?, h.phase, hp], h.attempt 0⟩
  | silence =>
    have hsame : t.now = s.now ∧ t.idle = s.idle := by
      obtain ⟨links, notes, rfl, _⟩ := h
      exact ⟨rfl, rfl⟩
    obtain ⟨d, deadline, hp, hd, hle, rfl⟩ := silence_cases hm
    refine ⟨_, ?_, h.lose d.link _⟩
    simp only [move?, h.phase, hp, hd, hsame.1, hsame.2, if_pos hle]
  | wake =>
    have hnow : t.now = s.now := by
      obtain ⟨links, notes, rfl, _⟩ := h
      rfl
    obtain ⟨failures, wake, hp, hle, rfl⟩ := wake_cases hm
    exact ⟨_, by simp only [move?, h.phase, hp, hnow, if_pos hle], h.attempt failures⟩

theorem receive_rest {α : Type} {p p' : Pipe α} {item : α} (h : p.receive = (p', .item item)) :
    p' = { p with queue := p'.queue } := by
  unfold Pipe.receive at h
  split at h
  · cases h
    rfl
  · split at h <;> cases h

theorem deadlineFor_unbounded (hidle : s.idle = none) (subscribed : AddressSet) :
    s.deadlineFor? subscribed = some none := by
  unfold deadlineFor?
  rw [hidle]

section frame

variable {d : Drive} {l : Link} {toClient : Pipe String} {text : String}

/-- A frame of account is taken in the same way with junk around it and without. -/
theorem Alike.take (h : Alike earlier t s) (hidle : s.idle = none) (hp : s.phase = .driving d)
    (hl : s.links[d.link]? = some l) (hr : l.toClient.receive = (toClient, .item text))
    (genuine : isJunk (earlier d.link) text = false)
    (hlater : later d.link = earlier d.link ++ (reportOf text).toList)
    (hother : ∀ k, k ≠ d.link → later k = earlier k) :
    (t.inbound d.link).head? = some text ∧ ∃ t', t.move? .frame = some t' ∧ Alike later t'
      ((s.modifyLink d.link (fun l => { l with toClient })).handle { d with deadline := none }
        text) := by
  have hqueue : (l.weeded (earlier d.link)).toClient.queue =
      text :: weed (later d.link) toClient.queue := by
    unfold Link.weeded
    dsimp only
    rw [receive_item hr, weed, genuine, hlater]
    rfl
  have hreceive : (l.weeded (earlier d.link)).toClient.receive =
      ({ toClient with queue := weed (later d.link) toClient.queue }, .item text) := by
    unfold Pipe.receive
    rw [hqueue, receive_rest hr]
    rfl
  have hlink := h.link hl
  have hfree : ∀ f, (t.modifyLink d.link f).deadlineFor? d.subscribed = some none := by
    obtain ⟨_, _, rfl, _⟩ := h
    exact fun f => deadlineFor_unbounded hidle _
  have htaken : Alike later
      (t.modifyLink d.link (fun l =>
        { l with toClient := { toClient with queue := weed (later d.link) toClient.queue } }))
      (s.modifyLink d.link (fun l => { l with toClient })) :=
    h.modifyLink (fun _ _ => rfl) hother
  refine ⟨?_, _, ?_, htaken.handle { d with deadline := none } text⟩
  · simp only [inbound, hlink, hqueue, List.head?_cons]
  · simp only [move?, h.phase, hp, hlink, hreceive, hfree]

/-- Whether junk is taken makes no difference. -/
theorem Alike.pass (h : Alike earlier t s) (hp : s.phase = .driving d)
    (unbounded : d.deadline = none) (hl : s.links[d.link]? = some l)
    (hr : l.toClient.receive = (toClient, .item text)) (seen : d.gate.Seen (earlier d.link))
    (junk : isJunk (earlier d.link) text = true)
    (hlater : later d.link = earlier d.link ++ (reportOf text).toList)
    (hother : ∀ k, k ≠ d.link → later k = earlier k) : Alike later t
      ((s.modifyLink d.link (fun l => { l with toClient })).handle { d with deadline := none }
        text) := by
  obtain ⟨notes, hhandle⟩ := handle_junk (s := s.modifyLink d.link (fun l => { l with toClient }))
    (d := { d with deadline := none }) seen junk
  have hsame : ({ d with deadline := none } : Drive) = d := by
    rw [← unbounded]
  rw [hhandle, hsame]
  have hleft : ∀ l', s.links[d.link]? = some l' →
      l'.weeded (earlier d.link) = ({ l' with toClient } : Link).weeded (later d.link) := by
    intro l' hl'
    rw [hl] at hl'
    cases hl'
    have hqueue : weed (earlier d.link) l.toClient.queue = weed (later d.link) toClient.queue := by
      rw [receive_item hr, weed, if_pos junk, hlater]
    unfold Link.weeded
    dsimp only
    rw [hqueue, receive_rest hr]
  have hmodify := h.modifyLink (f := id) (g := fun l => { l with toClient }) hleft hother
  have hid : t.modifyLink d.link id = t := by
    unfold Session.modifyLink
    rw [List.modify_id]
  rw [hid] at hmodify
  obtain ⟨links, notes', heq, hlinks⟩ := hmodify
  refine ⟨links, notes', ?_, hlinks⟩
  rw [heq]
  unfold Session.modifyLink
  dsimp only
  rw [hp]

end frame

section send

variable {reports : List Snapshot} {l : Link} {text : String}

theorem weeded_failed (h : (l.deviceSend text).2 ≠ .ok) : (l.deviceSend text).1 = l := by
  unfold Link.deviceSend Pipe.send at h ⊢
  dsimp only at h ⊢
  split
  · rfl
  · split
    · rename_i hclosed hroom
      exact absurd (by rw [if_neg hclosed, if_pos hroom]) h
    · rfl

theorem deviceSend_ok (h : (l.deviceSend text).2 = .ok) :
    (l.toClient.receiverOpen = true ∧ l.toClient.senderOpen = true ∧
      l.toClient.queue.length < l.toClient.capacity) ∧ (l.deviceSend text).1 =
      { l with toClient := { l.toClient with queue := l.toClient.queue ++ [text] } } := by
  have hsend : l.toClient.send text = ((l.toClient.send text).1, .ok) := Prod.ext rfl h
  obtain ⟨hreceiver, hsender, hroom, hqueue⟩ := send_ok hsend
  refine ⟨⟨hreceiver, hsender, hroom⟩, ?_⟩
  unfold Link.deviceSend
  dsimp only
  rw [hqueue]

theorem weeded_junk (h : (l.deviceSend text).2 = .ok)
    (junk : isJunk (reports ++ l.toClient.queue.filterMap reportOf) text = true) :
    (l.deviceSend text).1.weeded reports = l.weeded reports := by
  rw [(deviceSend_ok h).2]
  unfold Link.weeded
  dsimp only
  rw [weed_append, weed, if_pos junk, weed, List.append_nil]

/-- There is room for a frame where junk was left out. -/
theorem weeded_send (h : (l.deviceSend text).2 = .ok)
    (genuine : isJunk (reports ++ l.toClient.queue.filterMap reportOf) text = false) :
    (l.weeded reports).deviceSend text = ((l.deviceSend text).1.weeded reports, .ok) := by
  obtain ⟨⟨hreceiver, hsender, hroom⟩, hsent⟩ := deviceSend_ok h
  have hfits : (weed reports l.toClient.queue).length < l.toClient.capacity :=
    Nat.lt_of_le_of_lt (weed_length_le _ _) hroom
  have hqueue : weed reports (l.toClient.queue ++ [text]) =
      weed reports l.toClient.queue ++ [text] := by
    rw [weed_append, weed, genuine, weed]
    rfl
  rw [hsent]
  unfold Link.weeded Link.deviceSend Pipe.send
  dsimp only
  rw [hreceiver, hsender, hqueue, if_neg (by decide), if_pos hfits]

end send

theorem Alike.push {l : Link} (h : Alike earlier t s) (hempty : l.toClient.queue = []) :
    Alike earlier { t with links := t.links ++ [l] } { s with links := s.links ++ [l] } := by
  have hlength := h.length
  obtain ⟨links, notes, rfl, hlinks⟩ := h
  dsimp only at hlength
  refine ⟨links ++ [l], notes, rfl, fun k => ?_⟩
  have hsame : l.weeded (earlier k) = l := by
    unfold Link.weeded
    rw [hempty, weed, ← hempty]
  rcases Nat.lt_or_ge k s.links.length with hlt | hge
  · rw [List.getElem?_append_left (hlength ▸ hlt), List.getElem?_append_left hlt, hlinks k]
  · rw [List.getElem?_append_right (hlength ▸ hge), List.getElem?_append_right hge, hlength]
    cases k - s.links.length with
    | zero => simp [hsame]
    | succ n => rfl

theorem ofBuffer_waiting {buffer : Nat} {held : Bool} {l : Link}
    (h : Link.ofBuffer? buffer held = some l) : l.toClient.queue = [] := by
  unfold Link.ofBuffer? at h
  split at h
  · rename_i _ toClient _ hcapacity
    cases h
    exact (ofCapacity_fresh hcapacity).2.2
  · cases h

theorem Alike.queueOutcome (h : Alike earlier t s) (outcome : Outcome) :
    Alike earlier (t.queueOutcome outcome) (s.queueOutcome outcome) := by
  obtain ⟨links, notes, rfl, hlinks⟩ := h
  unfold Session.queueOutcome
  dsimp only
  split <;> exact ⟨links, notes, rfl, hlinks⟩

theorem Alike.isFinished (h : Alike earlier t s) : t.isFinished = s.isFinished := by
  unfold Session.isFinished
  rw [h.phase]

theorem Alike.accept {buffer link : Nat} {held : Bool} (h : Alike earlier t s)
    (ha : s.accept? buffer held = some (u, link)) :
    ∃ v, t.accept? buffer held = some (v, link) ∧ Alike earlier v u := by
  unfold accept? at ha ⊢
  rw [Option.map_eq_some_iff] at ha
  obtain ⟨fresh, hfresh, ha⟩ := ha
  have hempty := ofBuffer_waiting hfresh
  simp only [hfresh, Option.map_some, h.isFinished, h.length]
  split at ha
  · rename_i hfinished
    cases ha
    rw [if_pos hfinished]
    exact ⟨_, rfl, h.push hempty⟩
  · rename_i hgoing
    cases ha
    rw [if_neg hgoing]
    exact ⟨_, rfl, (h.push hempty).queueOutcome _⟩

theorem Alike.device {step : DeviceStep} {result : Session × DeviceReply} (h : Alike earlier t s)
    (hd : s.device? step = some result) (hstep : ∀ link texts, step ≠ .send link texts) :
    ∃ result', t.device? step = some result' ∧ Alike earlier result'.1 result.1 := by
  have hchange : ∀ {link : Nat} {f : Link → Link}, s.changeLink? link f = some result →
      (∀ l, f (l.weeded (earlier link)) = (f l).weeded (earlier link)) →
      ∃ result', t.changeLink? link f = some result' ∧ Alike earlier result'.1 result.1 := by
    intro link f hc hf
    unfold changeLink? at hc ⊢
    rw [h.length]
    split at hc
    · rename_i hlt
      cases hc
      rw [if_pos hlt]
      exact ⟨_, rfl, h.modifyLink (fun l _ => hf l) (fun _ _ => rfl)⟩
    · cases hc
  cases step with
  | send link texts => exact absurd rfl (hstep link texts)
  | accept buffer held =>
    simp only [device?] at hd ⊢
    split at hd
    · rename_i u link ha
      obtain ⟨v, hv, halike⟩ := h.accept ha
      cases hd
      exact ⟨(v, .link link), by rw [hv], halike⟩
    · rename_i hnone
      cases hd
      refine ⟨(t, .impossible), ?_, h⟩
      unfold accept? at hnone ⊢
      rw [Option.map_eq_none_iff] at hnone
      rw [hnone]
      rfl
  | refuse fault =>
    cases hd
    refine ⟨_, rfl, ?_⟩
    unfold Session.refuse
    rw [h.isFinished]
    split
    · exact h
    · exact h.queueOutcome _
  | close link => exact hchange hd (fun _ => rfl)
  | closeSender link => exact hchange hd (fun _ => rfl)
  | closeReceiver link => exact hchange hd (fun _ => rfl)
  | unhold link => exact hchange hd (fun _ => rfl)

theorem Alike.readLinks (h : Alike earlier t s) :
    Alike earlier t.readLinks.1 s.readLinks.1 := by
  obtain ⟨links, notes, rfl, hlinks⟩ := h
  refine ⟨(links.map Link.deviceRead).map Prod.fst, notes, rfl, fun k => ?_⟩
  simp only [Session.readLinks, List.map_map, List.getElem?_map, hlinks k]
  cases s.links[k]? with
  | none => rfl
  | some l => simp [Link.weeded_deviceRead]

theorem Alike.setSubscription (h : Alike earlier t s) (addresses : AddressSet) :
    Alike earlier (t.setSubscription addresses).1 (s.setSubscription addresses).1 := by
  obtain ⟨links, notes, rfl, hlinks⟩ := h
  unfold Session.setSubscription
  dsimp only
  split <;> exact ⟨links, notes, rfl, hlinks⟩

theorem Alike.shutdown (h : Alike earlier t s) : Alike earlier t.shutdown s.shutdown := by
  have hstopped : t.stopped = s.stopped := by
    obtain ⟨links, notes, rfl, _⟩ := h
    rfl
  unfold Session.shutdown
  rw [hstopped]
  split
  · exact h
  · have hstop : Alike earlier { t with stopped := true } { s with stopped := true } := by
      obtain ⟨links, notes, rfl, hlinks⟩ := h
      exact ⟨links, notes, rfl, hlinks⟩
    exact (hstop.note _ _).transition _

theorem Alike.unsent {link : Nat} {l : Link} {text : String} (h : Alike earlier t s)
    (hl : s.links[link]? = some l)
    (hnone : (l.deviceSend text).2 = .ok →
      isJunk (earlier link ++ l.toClient.queue.filterMap reportOf) text = true) :
    Alike earlier t (s.modifyLink link (fun _ => (l.deviceSend text).1)) := by
  have hid : t.modifyLink link id = t := by
    unfold Session.modifyLink
    rw [List.modify_id]
  rw [← hid]
  refine h.modifyLink (fun l' hl' => ?_) (fun _ _ => rfl)
  rw [hl] at hl'
  cases hl'
  by_cases hok : (l.deviceSend text).2 = .ok
  · exact (weeded_junk hok (hnone hok)).symm
  · rw [weeded_failed hok]
    rfl

theorem Alike.send {link : Nat} {l : Link} {text : String} (h : Alike earlier t s)
    (hl : s.links[link]? = some l) (hok : (l.deviceSend text).2 = .ok)
    (genuine : isJunk (earlier link ++ l.toClient.queue.filterMap reportOf) text = false) :
    ∃ t', t.step? (.device (.send link [text])) = some t' ∧
      Alike earlier t' (s.modifyLink link (fun _ => (l.deviceSend text).1)) := by
  have hlink := h.link hl
  have hlt : link < t.links.length := (List.getElem?_eq_some_iff.mp hlink).1
  refine ⟨(t.deviceSend link [text]).1, ?_, ?_⟩
  · simp only [step?, device?, if_pos hlt, Option.map_some]
  · rw [deviceSend_cons hlink, weeded_send hok genuine]
    refine h.modifyLink (fun l' hl' => ?_) (fun _ _ => rfl)
    cases hl.symm.trans hl'
    rfl

/-- A step in which no frame is sent or taken is the same with junk and without. -/
theorem Alike.step (h : Alike earlier t s) (hx : s.step? x = some s') (hframe : x ≠ .move .frame)
    (hsend : ∀ link texts, x ≠ .device (.send link texts)) :
    ∃ t', t.step? x = some t' ∧ Alike earlier t' s' := by
  cases x with
  | move m => exact h.move hx (fun he => hframe (he ▸ rfl))
  | set addresses =>
    cases hx
    exact ⟨_, rfl, h.setSubscription addresses⟩
  | shutdown =>
    cases hx
    exact ⟨_, rfl, h.shutdown⟩
  | device step =>
    simp only [step?, Option.map_eq_some_iff] at hx
    obtain ⟨result, hd, rfl⟩ := hx
    obtain ⟨result', hd', halike⟩ := h.device hd (fun link texts he => hsend link texts (he ▸ rfl))
    exact ⟨result'.1, by simp only [step?, hd', Option.map_some], halike⟩
  | read =>
    cases hx
    exact ⟨_, rfl, h.readLinks⟩
  | take | dropSnapshots | pass ms | collect =>
    cases hx
    obtain ⟨links, notes, rfl, hlinks⟩ := h
    exact ⟨_, rfl, links, _, rfl, hlinks⟩

end ChannelFeed.Session
