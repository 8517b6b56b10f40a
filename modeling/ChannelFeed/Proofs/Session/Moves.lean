import ChannelFeed.Session.Move

namespace ChannelFeed.Session

variable {s t : Session}

theorem start_cases (h : s.move? .start = some t) : s.phase = .spawned ∧ t = s.attempt 0 := by
  simp only [move?] at h
  split at h
  · rename_i hp
    exact ⟨hp, (Option.some.inj h).symm⟩
  · cases h

theorem connect_cases (h : s.move? .connect = some t) :
    ∃ failures u, s.phase = .connecting failures ∧
      ((∃ link, s.takeOutcome? = some (u, .ok link) ∧ t = u.openLink link) ∨
        ∃ fault, s.takeOutcome? = some (u, .error fault) ∧
          t = (u.note [.connectFailed u.edge fault.message failures]).retry failures
            fault.message) := by
  simp only [move?] at h
  split at h
  · rename_i failures hp
    split at h
    · cases h
    · rename_i u link ho
      exact ⟨failures, u, hp, .inl ⟨link, ho, (Option.some.inj h).symm⟩⟩
    · rename_i u fault ho
      exact ⟨failures, u, hp, .inr ⟨fault, ho, (Option.some.inj h).symm⟩⟩
  · cases h

theorem request_cases (h : s.move? .request = some t) :
    ∃ d r l, s.phase = .requesting d r ∧ s.links[d.link]? = some l ∧
      ((∃ toDevice, l.toDevice.send r = (toDevice, .ok) ∧
          t = (s.modifyLink d.link (fun l => { l with toDevice })).sent d r) ∨
        ((l.toDevice.send r).2 = .closed ∧
          t = s.lose d.link "transport closed while subscribing")) := by
  simp only [move?] at h
  split at h
  · rename_i d r hp
    split at h
    · cases h
    · rename_i l hl
      split at h
      · rename_i toDevice hs
        exact ⟨d, r, l, hp, hl, .inl ⟨toDevice, hs, (Option.some.inj h).symm⟩⟩
      · cases h
      · rename_i hs
        exact ⟨d, r, l, hp, hl, .inr ⟨congrArg Prod.snd hs, (Option.some.inj h).symm⟩⟩
  · cases h

theorem forward_cases (h : s.move? .forward = some t) :
    ∃ d snapshot, s.phase = .forwarding d snapshot ∧
      ((∃ snapshots, s.snapshots.send snapshot = (snapshots, .ok) ∧
          t = { s with snapshots, phase := .driving d }) ∨
        ((s.snapshots.send snapshot).2 = .closed ∧
          t = ((s.dropLink d.link).note [.processorGone s.edge]).finish)) := by
  simp only [move?] at h
  split at h
  · rename_i d snapshot hp
    split at h
    · rename_i snapshots hs
      exact ⟨d, snapshot, hp, .inl ⟨snapshots, hs, (Option.some.inj h).symm⟩⟩
    · cases h
    · rename_i hs
      exact ⟨d, snapshot, hp, .inr ⟨congrArg Prod.snd hs, (Option.some.inj h).symm⟩⟩
  · cases h

theorem halt_cases (h : s.move? .halt = some t) :
    s.stopped = true ∧
      ((((∃ failures, s.phase = .connecting failures) ∨
          ∃ failures wake, s.phase = .pausing failures wake) ∧ t = s.finish) ∨
        ∃ d, s.phase = .driving d ∧ t = (s.dropLink d.link).finish) := by
  simp only [move?] at h
  split at h
  · rename_i hstop
    refine ⟨hstop, ?_⟩
    split at h
    · rename_i failures hp
      exact .inl ⟨.inl ⟨failures, hp⟩, (Option.some.inj h).symm⟩
    · rename_i failures wake hp
      exact .inl ⟨.inr ⟨failures, wake, hp⟩, (Option.some.inj h).symm⟩
    · rename_i d hp
      exact .inr ⟨d, hp, (Option.some.inj h).symm⟩
    · cases h
  · cases h

theorem desire_cases (h : s.move? .desire = some t) :
    ∃ d, s.phase = .driving d ∧ s.desired.unseen s.desiredSeen = true ∧ t = s.sync d := by
  simp only [move?] at h
  split at h
  · rename_i d hp
    split at h
    · rename_i hu
      exact ⟨d, hp, hu, (Option.some.inj h).symm⟩
    · cases h
  · cases h

theorem frame_cases (h : s.move? .frame = some t) :
    ∃ d l, s.phase = .driving d ∧ s.links[d.link]? = some l ∧
      ((∃ toClient text, l.toClient.receive = (toClient, .item text) ∧
          ((∃ deadline,
              s.deadlineFor? d.subscribed = some deadline ∧
              t = (s.modifyLink d.link (fun l => { l with toClient })).handle
                { d with deadline } text) ∨
            (s.deadlineFor? d.subscribed = none ∧
              t = (s.modifyLink d.link (fun l => { l with toClient })).breakDown d.link))) ∨
        (l.toClient.receive.2 = .closed ∧ t = s.lose d.link "connection closed")) := by
  simp only [move?] at h
  split at h
  · rename_i d hp
    split at h
    · cases h
    · rename_i l hl
      refine ⟨d, l, hp, hl, ?_⟩
      split at h
      · rename_i toClient text hr
        refine .inl ⟨toClient, text, hr, ?_⟩
        split at h
        · rename_i deadline hd
          exact .inl ⟨deadline, hd, (Option.some.inj h).symm⟩
        · rename_i hd
          exact .inr ⟨hd, (Option.some.inj h).symm⟩
      · cases h
      · rename_i hr
        exact .inr ⟨congrArg Prod.snd hr, (Option.some.inj h).symm⟩
  · cases h

theorem silence_cases (h : s.move? .silence = some t) :
    ∃ d deadline, s.phase = .driving d ∧ d.deadline = some deadline ∧ deadline ≤ s.now ∧
      t = s.lose d.link
        ("no data for " ++ toString (s.idle.getD ⟨0⟩).millis ++ " ms") := by
  simp only [move?] at h
  split at h
  · rename_i d hp
    split at h
    · rename_i deadline hd
      split at h
      · rename_i hle
        exact ⟨d, deadline, hp, hd, hle, (Option.some.inj h).symm⟩
      · cases h
    · cases h
  · cases h

theorem wake_cases (h : s.move? .wake = some t) :
    ∃ failures wake, s.phase = .pausing failures wake ∧ wake ≤ s.now ∧
      t = s.attempt failures := by
  simp only [move?] at h
  split at h
  · rename_i failures wake hp
    split at h
    · rename_i hle
      exact ⟨failures, wake, hp, hle, (Option.some.inj h).symm⟩
    · cases h
  · cases h

theorem takeOutcome_cases {u : Session} {outcome : Outcome}
    (h : s.takeOutcome? = some (u, outcome)) :
    (∃ rest, s.connector = .queued (outcome :: rest) ∧
        u = { s with connector := .queued rest }) ∨
      ∃ url fault, s.connector = .failing url fault ∧ outcome = .error fault ∧
        u = s.note [.connectingTo url] := by
  unfold takeOutcome? at h
  split at h
  · cases h
  · rename_i o rest hc
    cases h
    exact .inl ⟨rest, hc, rfl⟩
  · rename_i url fault hc
    cases h
    exact .inr ⟨url, fault, hc, rfl, rfl⟩
  · cases h

theorem send_ok {α : Type} {p p' : Pipe α} {item : α} (h : p.send item = (p', .ok)) :
    p.receiverOpen = true ∧ p.senderOpen = true ∧ p.queue.length < p.capacity ∧
      p' = { p with queue := p.queue ++ [item] } := by
  unfold Pipe.send at h
  split at h
  · cases h
  · rename_i hopen
    split at h
    · rename_i hroom
      cases h
      simp only [Bool.or_eq_true, Bool.not_eq_eq_eq_not, Bool.not_true, not_or,
        Bool.not_eq_false] at hopen
      exact ⟨hopen.1, hopen.2, hroom, rfl⟩
    · cases h

theorem send_closed {α : Type} {p : Pipe α} {item : α} (h : (p.send item).2 = .closed)
    (hs : p.senderOpen = true) : p.receiverOpen = false := by
  unfold Pipe.send at h
  split at h
  · rename_i hc
    simpa [hs] using hc
  · split at h <;> cases h

theorem receive_item {α : Type} {p p' : Pipe α} {item : α} (h : p.receive = (p', .item item)) :
    p.queue = item :: p'.queue := by
  unfold Pipe.receive at h
  split at h
  · rename_i hq
    cases h
    exact hq
  · split at h <;> cases h

theorem receive_closed {α : Type} {p : Pipe α} (h : p.receive.2 = .closed) : p.queue = [] := by
  unfold Pipe.receive at h
  split at h
  · cases h
  · assumption

theorem receive_ended {α : Type} {p : Pipe α} (h : p.receive.2 = .closed) :
    p.senderOpen = false := by
  unfold Pipe.receive at h
  split at h
  · cases h
  · split at h
    · cases h
    · rename_i hopen
      exact Bool.eq_false_iff.mpr hopen

theorem receive_queue {α : Type} (p : Pipe α) :
    p.receive.1.senderOpen = p.senderOpen ∧ p.receive.1.receiverOpen = p.receiverOpen ∧
      p.queue.head?.toList ++ p.receive.1.queue = p.queue := by
  unfold Pipe.receive
  split
  · rename_i hq
    exact ⟨rfl, rfl, by simp [hq]⟩
  · rename_i hq
    exact ⟨rfl, rfl, by simp [hq]⟩

theorem ofCapacity_fresh {α : Type} {capacity : Nat} {p : Pipe α}
    (h : Pipe.ofCapacity? capacity = some p) :
    p.senderOpen = true ∧ p.receiverOpen = true ∧ p.queue = [] := by
  unfold Pipe.ofCapacity? at h
  split at h
  · cases h
    exact ⟨rfl, rfl, rfl⟩
  · cases h

end ChannelFeed.Session
