import ChannelFeed.Proofs.Session.Stopped
import ChannelFeed.Proofs.Site.Agreed

namespace ChannelFeed.Site

variable {past : Past} {s : Site} {id : String} {before rest : List Event}

theorem Reached.hush (h : Reached past s) (split : s.heard = before ++ .removed id :: rest)
    (missing : .added id ∉ rest) : ∀ ev ∈ rest, ev.edge = id → ev.isSubscription = true := by
  obtain ⟨known, hknown, _⟩ := h.followed id
  rw [split] at hknown
  obtain ⟨sofar, next, _, hnext, hrest⟩ := followed_at hknown rfl
  rw [(follow_removed hnext).2] at hrest
  have hquiet := follow_absent hrest (fun ev hev hadded => by
    obtain ⟨hmem, hedge⟩ := List.mem_filter.mp hev
    rw [hadded, beq_iff_eq.mp hedge] at hmem
    exact missing hmem)
  exact fun ev hev hedge => hquiet ev (List.mem_filter.mpr ⟨hev, beq_iff_eq.mpr hedge⟩)

/-- A stopped session, in whatever order it takes what is ready, tells of no change of its state any
more, and of nothing at all if it notices its stop first; so of an edge that went only requests and
refusals are heard on the manager's bus. -/
theorem stopped_edges_change_no_more {earlier later : Session.Past} {t : Session}
    (ht : Session.Reached (earlier ++ later) t)
    (stopped : (Session.stateAt later t).stopped = true) (hs : Reached past s)
    (split : s.heard = before ++ .removed id :: rest) (missing : .added id ∉ rest) :
    Session.StoppedFollows earlier later t ∧
      ∀ ev ∈ rest, ev.edge = id → ev.isSubscription = true :=
  ⟨ht.stopped_follows stopped, hs.hush split missing⟩

/-- A session that waits when it is stopped takes a change of what is wanted before its stop and makes
a request; an edge that does so after it was removed is heard of once more. -/
theorem removed_edge_heard_asking :
    ∃ earlier u later t past s before rest,
      Session.Reached (earlier ++ (u, .move .desire) :: later) t ∧ u.stopped = true ∧
      Session.published (earlier ++ (u, .move .desire) :: later) t =
        Session.published earlier u ++ [.subscriptionSent "edge0" 1 1] ∧
      Reached past s ∧ s.heard = before ++ .removed "a" :: rest ∧
      rest = [.subscriptionSent "a" 1 1] ∧ .added "a" ∉ rest ∧
      Session.StoppedFollows earlier ((u, .move .desire) :: later) t ∧
      ∀ ev ∈ rest, ev.edge = "a" → ev.isSubscription = true := by
  obtain ⟨earlier, u, later, t, ht, _, _, htold⟩ := Session.unbegun_reached.of_replay_split
    [.device (.accept 4 false), .move .start, .move .connect,
      .set (.ofList [⟨"meter0", "power"⟩]), .shutdown]
    (.move .desire) [.move .request]
    (fun earlier u later t => u.stopped &&
      Session.published (earlier ++ (u, .move .desire) :: later) t ==
        Session.published earlier u ++ [.subscriptionSent "edge0" 1 1])
    (by decide +kernel)
  obtain ⟨past, s, hs, _, hheard⟩ := fresh_reached.of_replay
    [.add { Config.socket "a" "ws://unused" with debounce := .ofMillis 0 } (.queued []),
      .edge 0 [.device (.accept 4 false), .session .start, .session .connect,
        .command (.subscribe "w" none [⟨"meter0", "power"⟩] []), .pump, .pump, .pump, .pump],
      .remove "a", .edge 0 [.session .desire, .session .request]]
    (fun _ s => s.heard == [.added "a", .connectionChanged "a" .connecting,
      .connectionChanged "a" .connected, .connectionChanged "a" .disconnected] ++
        .removed "a" :: [.subscriptionSent "a" 1 1])
    (by decide +kernel)
  simp only [Bool.and_eq_true, beq_iff_eq] at htold hheard
  have hmissing : .added "a" ∉ [Event.subscriptionSent "a" 1 1] := by decide
  exact ⟨earlier, u, later, t, past, s, _, _, ht, htold.1, htold.2, hs, hheard, rfl, hmissing,
    stopped_edges_change_no_more ht htold.1 hs hheard hmissing⟩

end ChannelFeed.Site
