import ChannelFeed.Proofs.Edge.Calls
import ChannelFeed.Proofs.Session.Content

namespace ChannelFeed

namespace Session

/-- Steps lead from one session to another in which nobody says what is wanted, and in which the
devices read just these requests. -/
def LeadsUntold (s : Session) (read : List (Nat × Request)) (t : Session) : Prop :=
  ∃ more : Past, (∀ z ∈ more, ∀ addresses, z.2 ≠ .set addresses) ∧ received more = read ∧
    ∀ past, Reached past s → Reached (past ++ more) t

theorem LeadsUntold.refl (s : Session) : s.LeadsUntold [] s :=
  ⟨[], by simp, rfl, fun past h => by rwa [List.append_nil]⟩

theorem LeadsUntold.trans {s t u : Session} {read read' : List (Nat × Request)}
    (h : s.LeadsUntold read t) (h' : t.LeadsUntold read' u) : s.LeadsUntold (read ++ read') u := by
  obtain ⟨more, hset, rfl, hs⟩ := h
  obtain ⟨more', hset', rfl, ht⟩ := h'
  refine ⟨more ++ more', fun z hz => ?_, by simp [received], fun past hp => ?_⟩
  · exact (List.mem_append.mp hz).elim (hset z) (hset' z)
  · rw [← List.append_assoc]
    exact ht _ (hs past hp)

theorem LeadsUntold.step {s t : Session} {y : Step} (hy : s.step? y = some t)
    (untold : ∀ addresses, y ≠ .set addresses) : s.LeadsUntold (s.readIn y) t :=
  ⟨[(s, y)], by simpa using untold, by simp [received], fun _ hp => hp.step hy⟩

end Session

namespace Edge

open Session (Content LeadsUntold)

variable {e e' f : Edge} {x : Act} {before since : Past} {wanted : AddressSet} {link : Nat}

theorem pump_session (h : e.pump? = some e')
    (agree : ∀ c ∈ e.callIn .pump, c.union = e.session.desired.value) : e'.session = e.session := by
  rcases pump_cases h with ⟨_, _, rfl⟩ | ⟨_, _, _, rfl⟩ | ⟨_, rfl⟩ | ⟨_, _, rfl⟩ |
    ⟨version, union, notes, hp, rfl⟩
  · rfl
  · rfl
  · rfl
  · rfl
  · have hsame : union = e.session.desired.value :=
      agree ⟨e.session.now, e.versionSeen, union⟩ (by simp [callIn, hp])
    show (e.session.setSubscription union).1 = e.session
    rw [Session.setSubscription, if_pos hsame.symm]

theorem act_desired (hs : e.registry.Sound) (hx : e.act? x = some e')
    (agree : ∀ c ∈ e.callIn x, c.union = e.session.desired.value) :
    e'.session.desired = e.session.desired := by
  by_cases hp : x = .pump
  · subst hp
    rw [pump_session hx agree]
  · exact (act_aside hs hx hp).desired

/-- An act that tells the session nothing new comes to steps of the session alone. -/
theorem act_untold (hx : e.act? x = some e')
    (agree : ∀ c ∈ e.callIn x, c.union = e.session.desired.value) :
    e.session.LeadsUntold (e.readIn x) e'.session := by
  by_cases hpump : x = .pump
  · subst hpump
    rw [pump_session hx agree]
    exact .refl _
  by_cases hread : x = .read
  · subst hread
    cases hx
    exact .step (y := .read) rfl (fun _ h => nomatch h)
  have hsilent : e.readIn x = [] := by cases x <;> first | rfl | exact absurd rfl hread
  rw [hsilent]
  refine act_keeps (P := e.session.LeadsUntold []) (fun {s t y} hs hy hmade => ?_) (.refl _) hx
  have hunread : s.readIn y = [] := by
    cases y with
    | read => exact absurd (hmade.read rfl) hread
    | _ => rfl
  have hstep := LeadsUntold.step hy (fun addresses he => hpump (hmade.set addresses he))
  rw [hunread] at hstep
  exact hs.trans hstep

/-- What is asked on a link changes only with what is put on it. -/
theorem asked_silent (hread : e.readIn x = []) (hout : e'.session.outbound link =
    e.session.outbound link) (past : Past) :
    asked (past ++ [(e, x)]) e' link = asked past e link := by
  rw [asked, received_append, hread, List.append_nil, hout, asked]

/-- Where all that is wanted was asked for, nothing more is put on the link. -/
theorem content_act (h : Content wanted link e.session) (hx : e.act? x = some e')
    (agree : ∀ c ∈ e.callIn x, c.union = wanted) (past : Past) :
    Content wanted link e'.session ∧ asked (past ++ [(e, x)]) e' link = asked past e link := by
  by_cases hpump : x = .pump
  · subst hpump
    have hsame : e'.session = e.session :=
      pump_session hx (fun c hc => (agree c hc).trans h.desired.symm)
    exact ⟨hsame ▸ h, asked_silent rfl (by rw [hsame]) past⟩
  by_cases hread : x = .read
  · subst hread
    cases hx
    refine ⟨h.step (x := .read) rfl h.desired, ?_⟩
    rw [asked, received_append, Session.ofLink_append, List.append_assoc]
    exact congrArg (Session.ofLink link (received past) ++ ·)
      (Session.ofLink_readLinks_outbound e.session link)
  -- the session makes its own steps, and none that says what is wanted
  have hkept : Content wanted link e'.session ∧
      e'.session.outbound link = e.session.outbound link := by
    refine act_keeps (P := fun s => Content wanted link s ∧
      s.outbound link = e.session.outbound link) ?_ ⟨h, rfl⟩ hx
    rintro s t y ⟨hs, hout⟩ hy hmade
    have hdesired := Session.step_desired hy (fun addresses he => hpump (hmade.set addresses he))
    have hunread : s.readIn y = [] := by
      cases y with
      | read => exact absurd (hmade.read rfl) hread
      | _ => rfl
    refine ⟨hs.step hy ?_, (hs.silent hy hunread).trans hout⟩
    rw [hdesired]
    exact hs.desired
  refine ⟨hkept.1, asked_silent ?_ hkept.2 past⟩
  cases x <;> first | rfl | exact absurd rfl hread

/-- Calls that say nothing new do nothing: the session goes on by itself and its devices, and where all
that is wanted was asked for, nothing more is put on the link. -/
theorem Reached.untouched (h : Reached (before ++ (f, x) :: since) e)
    (agree : ∀ c ∈ calls ((f, x) :: since), c.union = f.session.desired.value) :
    e.session.desired = f.session.desired ∧
      f.session.LeadsUntold (received ((f, x) :: since)) e.session ∧
      ∀ link, Content f.session.desired.value link f.session →
        Content f.session.desired.value link e.session ∧
          asked (before ++ (f, x) :: since) e link = asked before f link := by
  refine h.onward (P := fun since e => (∀ c ∈ calls since, c.union = f.session.desired.value) →
    e.session.desired = f.session.desired ∧ f.session.LeadsUntold (received since) e.session ∧
      ∀ link, Content f.session.desired.value link f.session →
        Content f.session.desired.value link e.session ∧
          asked (before ++ since) e link = asked before f link) ?_ ?_ agree
  · intro g hf hx agree
    have hagree : ∀ c ∈ f.callIn x, c.union = f.session.desired.value := by
      simpa [calls] using agree
    have hreceived : received [(f, x)] = f.readIn x := by simp [received]
    exact ⟨act_desired hf.handover.sound hx hagree, hreceived ▸ act_untold hx hagree,
      fun link hc => content_act hc hx hagree before⟩
  · intro since u y v hu ih hy agree
    rw [calls_act] at agree
    obtain ⟨hdesired, huntold, hlinks⟩ := ih (fun c hc => agree c (List.mem_append_left _ hc))
    have hagree : ∀ c ∈ u.callIn y, c.union = f.session.desired.value := fun c hc =>
      agree c (List.mem_append_right _ hc)
    refine ⟨(act_desired hu.handover.sound hy (hdesired ▸ hagree)).trans hdesired, ?_,
      fun link hc => ?_⟩
    · rw [received_append]
      exact huntold.trans (act_untold hy (hdesired ▸ hagree))
    · obtain ⟨hcontent, hasked⟩ := hlinks link hc
      obtain ⟨hcontent', hasked'⟩ := content_act hcontent hy hagree (before ++ (f, x) :: since)
      rw [← List.append_assoc]
      exact ⟨hcontent', hasked'.trans hasked⟩

end Edge

end ChannelFeed
