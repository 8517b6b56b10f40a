import ChannelFeed.Proofs.Session.Stream
import ChannelFeed.Proofs.Session.Telling

namespace ChannelFeed

/-- Whether a frame is of no account after some reports. -/
def isJunk (earlier : List Snapshot) (text : String) : Bool :=
  match (Message.read text).message with
  | .error _ => true
  | .ok (.unhandled _) => true
  | .ok (.report x) => earlier.any (fun y => x.sequence ≤ y.sequence)
  | .ok (.success _) => false
  | .ok (.failure _ _) => false

/-- Of some frames that come after some reports, those that are of account. -/
def weed (earlier : List Snapshot) : List String → List String
  | [] => []
  | text :: rest =>
    if isJunk earlier text then weed (earlier ++ (reportOf text).toList) rest
    else text :: weed (earlier ++ (reportOf text).toList) rest

theorem weed_append (earlier : List Snapshot) (texts more : List String) :
    weed earlier (texts ++ more) =
      weed earlier texts ++ weed (earlier ++ texts.filterMap reportOf) more := by
  induction texts generalizing earlier with
  | nil => simp [weed]
  | cons text rest ih =>
    have hreports : earlier ++ (text :: rest).filterMap reportOf =
        earlier ++ (reportOf text).toList ++ rest.filterMap reportOf := by
      cases hr : reportOf text <;> simp [hr]
    rw [hreports, List.cons_append, weed, weed, ih]
    split <;> rfl

theorem weed_length_le (earlier : List Snapshot) (texts : List String) :
    (weed earlier texts).length ≤ texts.length := by
  induction texts generalizing earlier with
  | nil => exact Nat.le_refl _
  | cons text rest ih =>
    rw [weed]
    split
    · exact Nat.le_succ_of_le (ih _)
    · exact Nat.succ_le_succ (ih _)

namespace Link

/-- A link on which only frames of account wait. -/
def weeded (earlier : List Snapshot) (l : Link) : Link :=
  { l with toClient := { l.toClient with queue := weed earlier l.toClient.queue } }

theorem weeded_deviceRead (earlier : List Snapshot) (l : Link) :
    (l.weeded earlier).deviceRead = (l.deviceRead.1.weeded earlier, l.deviceRead.2) := by
  unfold deviceRead weeded
  dsimp only
  split <;> rfl

end Link

namespace Session

variable {s t u : Session} {earlier : Nat → List Snapshot}

theorem responseOf_junk {reports : List Snapshot} {text : String}
    (junk : isJunk reports text = true) : responseOf text = none := by
  unfold isJunk at junk
  unfold responseOf
  split at junk
  · rename_i he
    rw [he]
  · rename_i he
    rw [he]
  · rename_i he
    rw [he]
  · cases junk
  · cases junk

theorem afterFrame_junk {reports : List Snapshot} {d : Drive} {text : String}
    (seen : d.gate.Seen reports) (junk : isJunk reports text = true) :
    d.afterFrame text = .driving d := by
  unfold Drive.afterFrame
  cases hr : reportOf text with
  | none => rfl
  | some snapshot =>
    have hold : reports.any (fun y => snapshot.sequence ≤ y.sequence) = true := by
      unfold reportOf at hr
      unfold isJunk at junk
      split at hr
      · rename_i x he
        cases hr
        rw [he] at junk
        exact junk
      · cases hr
    obtain ⟨y, hy, hle⟩ := List.any_eq_true.mp hold
    have hrefused : ¬ d.gate.accepts snapshot.sequence = true := fun haccepts =>
      Nat.not_lt_of_le (of_decide_eq_true hle) ((seen snapshot.sequence).mp haccepts y hy)
    exact if_neg hrefused

/-- Of a frame of no account a note is taken, and that is all. -/
theorem handle_junk {reports : List Snapshot} {d : Drive} {text : String}
    (seen : d.gate.Seen reports) (junk : isJunk reports text = true) :
    ∃ notes, s.handle d text = { s with phase := .driving d, notes } := by
  obtain ⟨rejection, notes, heq⟩ := handle_shape s d text
  have hstands := congrArg Ruling.rejection (ruling_handle_other (s := s) (d := d)
    (responseOf_junk junk))
  rw [heq] at hstands
  have hrejection : rejection = s.rejection := hstands
  rw [heq, afterFrame_junk seen junk, hrejection]
  exact ⟨notes, rfl⟩

/-- The first session is the second without the junk among the frames that wait, where these come after
some reports on each link. The notes may be others. -/
def Alike (earlier : Nat → List Snapshot) (t s : Session) : Prop :=
  ∃ links notes, t = { s with links, notes } ∧
    ∀ k : Nat, links[k]? = s.links[k]?.map (Link.weeded (earlier k))

theorem Alike.length (h : Alike earlier t s) : t.links.length = s.links.length := by
  obtain ⟨links, notes, rfl, hlinks⟩ := h
  have hout : ∀ k : Nat, links.length ≤ k ↔ s.links.length ≤ k := by
    intro k
    rw [← List.getElem?_eq_none_iff, hlinks k, Option.map_eq_none_iff, List.getElem?_eq_none_iff]
  exact Nat.le_antisymm ((hout _).mpr (Nat.le_refl _)) ((hout _).mp (Nat.le_refl _))

theorem Alike.link {k : Nat} {l : Link} (h : Alike earlier t s) (hl : s.links[k]? = some l) :
    t.links[k]? = some (l.weeded (earlier k)) := by
  obtain ⟨links, notes, rfl, hlinks⟩ := h
  rw [hlinks k, hl]
  rfl

theorem Alike.note (h : Alike earlier t s) (notes more : List Note) :
    Alike earlier (t.note notes) (s.note more) := by
  obtain ⟨links, _, rfl, hlinks⟩ := h
  exact ⟨links, _, rfl, hlinks⟩

theorem Alike.transition (h : Alike earlier t s) (next : LinkState) :
    Alike earlier (t.transition next) (s.transition next) := by
  obtain ⟨links, notes, rfl, hlinks⟩ := h
  unfold Session.transition state
  dsimp only
  cases (next == .disconnected || !s.stopped) && s.watchedState.value != next with
  | true => exact ⟨links, _, rfl, hlinks⟩
  | false => exact ⟨links, notes, rfl, hlinks⟩

theorem Alike.modifyLink {later : Nat → List Snapshot} {k : Nat} {f g : Link → Link}
    (h : Alike earlier t s) (hf : ∀ l, s.links[k]? = some l →
      f (l.weeded (earlier k)) = (g l).weeded (later k))
    (hother : ∀ j, j ≠ k → later j = earlier j) :
    Alike later (t.modifyLink k f) (s.modifyLink k g) := by
  obtain ⟨links, notes, rfl, hlinks⟩ := h
  refine ⟨links.modify k f, notes, rfl, fun j => ?_⟩
  simp only [Session.modifyLink, List.getElem?_modify, hlinks j]
  by_cases hj : k = j
  · subst hj
    cases hl : s.links[k]? with
    | none => rfl
    | some l => simp [hf l hl]
  · rw [hother j (Ne.symm hj)]
    cases s.links[j]? <;> simp [hj]

theorem Alike.dropLink (h : Alike earlier t s) (link : Nat) :
    Alike earlier (t.dropLink link) (s.dropLink link) :=
  h.modifyLink (fun _ _ => rfl) (fun _ _ => rfl)

/-- What keeps two sessions alike for one item keeps them alike for all. -/
theorem Alike.foldl {α : Type} {f : Session → α → Session} (h : Alike earlier t s)
    (hf : ∀ t s a, Alike earlier t s → Alike earlier (f t a) (f s a))
    (items : List α) : Alike earlier (items.foldl f t) (items.foldl f s) := by
  induction items generalizing t s with
  | nil => exact h
  | cons a rest ih => exact ih (hf t s a h)

theorem Alike.dropOutcomes (h : Alike earlier t s) :
    Alike earlier t.dropOutcomes s.dropOutcomes := by
  obtain ⟨links, notes, rfl, hlinks⟩ := h
  unfold Session.dropOutcomes
  dsimp only
  split
  · have hqueue : Alike earlier { s with links, notes, connector := .queued [] }
        { s with connector := .queued [] } := ⟨links, notes, rfl, hlinks⟩
    refine hqueue.foldl (fun t s outcome h => ?_) _
    cases outcome with
    | ok link => exact h.dropLink link
    | error fault => exact h
  · exact ⟨links, notes, rfl, hlinks⟩

theorem Alike.retire (h : Alike earlier t s) : Alike earlier t.retire s.retire := by
  have hout : t.snapshots = s.snapshots := by
    obtain ⟨links, notes, rfl, _⟩ := h
    rfl
  obtain ⟨links, notes, heq, hlinks⟩ := h.dropOutcomes
  refine ⟨links, notes, ?_, hlinks⟩
  unfold Session.retire
  rw [heq, hout]

theorem Alike.finish (h : Alike earlier t s) : Alike earlier t.finish s.finish :=
  h.retire.transition _

theorem Alike.attempt (h : Alike earlier t s) (failures : Nat) :
    Alike earlier (t.attempt failures) (s.attempt failures) := by
  obtain ⟨links, notes, heq, hlinks⟩ :=
    h.transition (if failures = 0 then .connecting else .reconnecting failures)
  unfold Session.attempt
  rw [heq]
  dsimp only
  split <;> exact ⟨links, notes, rfl, hlinks⟩

theorem Alike.retry (h : Alike earlier t s) (failures : Nat) (reason : String) :
    Alike earlier (t.retry failures reason) (s.retry failures reason) := by
  have hpolicy : t.policy = s.policy := by
    obtain ⟨links, notes, rfl, _⟩ := h
    rfl
  unfold Session.retry
  rw [hpolicy]
  split
  · exact (h.note _ _).retire.transition _
  · obtain ⟨links, notes, heq, hlinks⟩ := h.transition (.reconnecting (failures + 1))
    dsimp only
    rw [heq]
    exact ⟨links, _, rfl, hlinks⟩

theorem Alike.lose (h : Alike earlier t s) (link : Nat) (reason : String) :
    Alike earlier (t.lose link reason) (s.lose link reason) :=
  ((h.dropLink link).note _ _).retry 0 reason

theorem Alike.breakDown (h : Alike earlier t s) (link : Nat) :
    Alike earlier (t.breakDown link) (s.breakDown link) := (h.dropLink link).retire

theorem Alike.sync (h : Alike earlier t s) (d : Drive) :
    Alike earlier (t.sync d) (s.sync d) := by
  obtain ⟨links, notes, rfl, hlinks⟩ := h
  unfold Session.sync
  dsimp only
  split <;> exact ⟨links, notes, rfl, hlinks⟩

theorem Alike.openLink (h : Alike earlier t s) (link : Nat) :
    Alike earlier (t.openLink link) (s.openLink link) := by
  have hopen : Alike earlier
      { (t.transition .connected).note [.connected t.edge] with rejection := none }
      { (s.transition .connected).note [.connected s.edge] with rejection := none } := by
    obtain ⟨links, notes, heq, hlinks⟩ :=
      (h.transition .connected).note [.connected t.edge] [.connected s.edge]
    rw [heq]
    exact ⟨links, notes, rfl, hlinks⟩
  exact hopen.sync _

theorem Alike.sent (h : Alike earlier t s) (d : Drive) (r : Request) :
    Alike earlier (t.sent d r) (s.sent d r) := by
  have hdue : t.deadlineFor? r.channels = s.deadlineFor? r.channels := by
    obtain ⟨links, notes, rfl, _⟩ := h
    rfl
  have hnote := h.note
    [.requestSent t.edge r.id.text r.count r.channels.size,
      .published (.subscriptionSent t.edge r.count r.channels.size)]
    [.requestSent s.edge r.id.text r.count r.channels.size,
      .published (.subscriptionSent s.edge r.count r.channels.size)]
  have hsame : ∀ s : Session, ∀ notes, (s.note notes).deadlineFor? r.channels =
      s.deadlineFor? r.channels := fun _ _ => rfl
  unfold Session.sent
  dsimp only
  rw [hsame, hsame, hdue]
  split
  · obtain ⟨links, notes, heq, hlinks⟩ := hnote
    rw [heq]
    exact ⟨links, notes, rfl, hlinks⟩
  · exact hnote.breakDown _

theorem Alike.handle (h : Alike earlier t s) (d : Drive) (text : String) :
    Alike earlier (t.handle d text) (s.handle d text) := by
  obtain ⟨links, notes, rfl, hlinks⟩ := h
  unfold Session.handle
  dsimp only
  split
  · exact ⟨links, _, rfl, hlinks⟩
  · exact ⟨links, _, rfl, hlinks⟩
  · split <;> exact ⟨links, _, rfl, hlinks⟩
  · split <;> exact ⟨links, _, rfl, hlinks⟩
  · split <;> exact ⟨links, _, rfl, hlinks⟩

end Session

end ChannelFeed
