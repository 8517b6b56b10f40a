import ChannelFeed.Proofs.Panel.Silenced

namespace ChannelFeed.Panel

open Scene

/-- What a slot keeps for as long as its subscription goes on. -/
structure Stays (before after : Slot) : Prop where
  subscriber : after.subscriber = before.subscriber
  scope : after.scope = before.scope
  addresses : after.addresses = before.addresses
  widget : after.widget = before.widget
  active : before.active = true → after.active = true
  primed : before.primed = true → after.primed = true

theorem Stays.refl (slot : Slot) : Stays slot slot := ⟨rfl, rfl, rfl, rfl, id, id⟩

theorem Stays.trans {x y z : Slot} (h : Stays x y) (h' : Stays y z) : Stays x z where
  subscriber := h'.subscriber.trans h.subscriber
  scope := h'.scope.trans h.scope
  addresses := h'.addresses.trans h.addresses
  widget := h'.widget.trans h.widget
  active hx := h'.active (h.active hx)
  primed hx := h'.primed (h.primed hx)

/-- Whether something that happened from a point on ended the subscription with a handle. -/
def EndedSince (past : History) (n handle : Nat) (subscriber : String) : Prop :=
  ∃ i what, n ≤ i ∧ At past i what ∧ what.ends handle subscriber

theorem At.mono {past more : History} {i : Nat} {what : Happening} (h : At past i what)
    (hp : past <+: more) : At more i what := by
  obtain ⟨p, hi⟩ := h
  obtain ⟨rest, rfl⟩ := hp
  refine ⟨p, ?_⟩
  rw [List.getElem?_append_left (List.getElem?_eq_some_iff.mp hi).1]
  exact hi

theorem EndedSince.mono {past more : History} {n m handle : Nat} {subscriber : String}
    (h : EndedSince past n handle subscriber) (hp : past <+: more) (hle : m ≤ n) :
    EndedSince more m handle subscriber := by
  obtain ⟨i, what, hi, hat, hends⟩ := h
  exact ⟨i, what, Nat.le_trans hle hi, hat.mono hp, hends⟩

variable {a b : Scene} {what : Option Happening}

/-- A slot stays in a step that does not end its subscription. -/
theorem Scene.Next.stays (ha : a.Reached) (h : Next a what b) {handle : Nat} {slot : Slot}
    (hs : a.slot? handle = some slot) :
    (∃ after, b.slot? handle = some after ∧ Stays slot after) ∨
      ∃ w, what = some w ∧ w.ends handle slot.subscriber := by
  have hfate := h.fate ha handle
  rw [hs] at hfate
  generalize b.slot? handle = after at hfate
  cases hfate with
  | same => exact .inl ⟨slot, rfl, .refl slot⟩
  | primed => exact .inl ⟨_, rfl, rfl, rfl, rfl, rfl, id, fun _ => rfl⟩
  | muted is => exact .inr ⟨_, is, rfl⟩
  | ended is ends => exact .inr ⟨_, is, ends⟩

theorem Scene.Next.grows (h : Next a what b) : a.past <+: b.past := by
  rw [h.past]
  exact List.prefix_append _ _

theorem Scene.Leads.grows (h : Leads a b) : a.past <+: b.past := by
  induction h with
  | refl => exact List.prefix_rfl
  | tail _ hx ih =>
    obtain ⟨_, hn⟩ := hx
    exact ih.trans hn.grows

theorem Scene.Leads.stays (ha : a.Reached) (h : Leads a b) {handle : Nat} {slot : Slot}
    (hs : a.slot? handle = some slot) :
    (∃ after, b.slot? handle = some after ∧ Stays slot after) ∨
      EndedSince b.past a.past.length handle slot.subscriber := by
  induction h with
  | refl => exact .inl ⟨slot, hs, .refl slot⟩
  | tail hb hx ih =>
    obtain ⟨what, hn⟩ := hx
    rcases ih with ⟨mid, hmid, hstays⟩ | hended
    · rcases hn.stays (ha.trans hb) hmid with ⟨after, hafter, hstill⟩ | ⟨w, hwhat, hends⟩
      · exact .inl ⟨after, hafter, hstays.trans hstill⟩
      · rw [hstays.subscriber] at hends
        refine .inr ⟨_, w, Scene.Leads.grows hb |>.length_le, ?_, hends⟩
        exact hn.at_iff.mpr (.inr ⟨rfl, hwhat⟩)
    · exact .inr (hended.mono hn.grows (Nat.le_refl _))

variable {run : Panel → Command → Panel × Reply} {write : History → Panel → Command → History}

theorem RunsStepwise.callBack_starts (hrun : RunsStepwise run write) (past : History) {p : Panel}
    (hp : p.present = true) {widget : Nat} {w : Widget} (hw : p.widgets[widget]? = some w)
    (delivery handle : Nat) (v : View) :
    past ++ [⟨.called delivery handle v, p.startCall widget w v⟩] <+:
      logCallBack run write delivery handle past p widget v := by
  unfold logCallBack
  rw [hw]
  dsimp only
  split
  · rename_i script _
    have hpresent : (p.startCall widget w v).present = true := by
      unfold startCall
      dsimp only
      split <;> exact hp
    exact Scene.Leads.grows (hrun.commands widget (w.calls + 1) (script.at (w.calls + 1)) _ _ []
      hpresent)
  · exact List.prefix_rfl

theorem RunsStepwise.call_starts (hrun : RunsStepwise run write) (past : History) {p : Panel}
    (hp : p.present = true) {slot : Slot} {w : Widget} (hw : p.widgets[slot.widget]? = some w)
    (g : Generation) (delivery handle : Nat) :
    past ++ [⟨.called delivery handle ⟨g, slot.scope⟩,
        p.startCall slot.widget w ⟨g, slot.scope⟩⟩] <+:
      logCall run write g delivery past p handle slot := by
  have hcall := hrun.callBack_starts past hp hw delivery handle ⟨g, slot.scope⟩
  unfold logCall
  dsimp only
  split
  · exact hcall.trans (List.prefix_append _ _)
  · exact hcall

theorem RunsStepwise.turn_calls (hrun : RunsStepwise run write) (past : History) {p : Panel}
    (hp : p.present = true) {g : Generation} {handle : Nat} {slot : Slot} {w : Widget}
    (hdue : p.dispatcher.due? g handle = some slot) (hw : p.widgets[slot.widget]? = some w)
    (delivery : Nat) :
    ∃ i, past.length ≤ i ∧
      At (logTurn run write g delivery past p handle) i (.called delivery handle ⟨g, slot.scope⟩) := by
  have hcalled : ∀ (past : History) (q : Panel), At (past ++ [⟨.called delivery handle
      ⟨g, slot.scope⟩, q⟩]) past.length (.called delivery handle ⟨g, slot.scope⟩) :=
    fun past q => at_append.mpr (.inr ⟨rfl, rfl⟩)
  unfold logTurn
  rw [hdue]
  dsimp only
  split
  · have hstart := hrun.call_starts past hp hw g delivery handle
    exact ⟨past.length, Nat.le_refl _, (hcalled _ _).mono hstart⟩
  · have hstart := hrun.call_starts (past ++ [⟨.primed delivery handle, p.primeSlot handle slot⟩])
      (p := p.primeSlot handle slot) hp hw g delivery handle
    exact ⟨_, by simp, (hcalled _ _).mono hstart⟩

/-- What comes of a slot in a delivery: it is called, or its subscription ends. -/
def Served (past : History) (n delivery handle : Nat) (slot : Slot) (g : Generation) : Prop :=
  (∃ i, n ≤ i ∧ At past i (.called delivery handle ⟨g, slot.scope⟩)) ∨
    EndedSince past n handle slot.subscriber

theorem Served.mono {past more : History} {n m delivery handle : Nat} {slot : Slot}
    {g : Generation} (h : Served past n delivery handle slot g) (hp : past <+: more) (hle : m ≤ n) :
    Served more m delivery handle slot g := by
  rcases h with ⟨i, hi, hat⟩ | hended
  · exact .inl ⟨i, Nat.le_trans hle hi, hat.mono hp⟩
  · exact .inr (hended.mono hp hle)

theorem RunsStepwise.turns_serve (hrun : RunsStepwise run write) {past : History} {p : Panel}
    {round : Round} {outer : List Round} (hr : Reached ⟨past, p, round :: outer⟩)
    (hp : p.present = true) {handle : Nat} (hturn : handle ∈ round.turns) {slot : Slot}
    (hdue : p.dispatcher.due? round.generation handle = some slot) :
    Served (logTurns run write round.generation round.began past p round.turns) past.length
      round.began handle slot round.generation := by
  obtain ⟨began, g, turns⟩ := round
  dsimp only at hturn hdue ⊢
  induction turns generalizing past p slot with
  | nil => cases hturn
  | cons k rest ih =>
    have hfirst : Leads ⟨past, p, ⟨began, g, k :: rest⟩ :: outer⟩
        ⟨logTurn run write g began past p k, deliver run g p k, ⟨began, g, rest⟩ :: outer⟩ :=
      hrun.turn past outer hp rfl
    have hpresent : (deliver run g p k).present = true := hfirst.present.trans hp
    have hreached : Reached ⟨logTurn run write g began past p k, deliver run g p k,
      ⟨began, g, rest⟩ :: outer⟩ := hr.trans hfirst
    have hrest := hrun.turns (logTurn run write g began past p k) ⟨began, g, rest⟩ outer hpresent
    unfold logTurns
    by_cases hk : k = handle
    · subst hk
      obtain ⟨w, hw, _⟩ := hr.told.seated.widget (Dispatcher.due?_eq_some.mp hdue).1
      obtain ⟨i, hi, hcalled⟩ := hrun.turn_calls past hp hdue hw began
      exact .inl ⟨i, hi, hcalled.mono (Scene.Leads.grows hrest)⟩
    · obtain ⟨hs, hactive, hready⟩ := Dispatcher.due?_eq_some.mp hdue
      rcases Scene.Leads.stays hr hfirst hs with ⟨after, hafter, hstays⟩ | hended
      · have hstill : (deliver run g p k).dispatcher.due? g handle = some after := by
          apply Dispatcher.due?_eq_some.mpr
          refine ⟨hafter, hstays.active hactive, ?_⟩
          rw [hstays.addresses]
          exact hready.imp_left hstays.primed
        have hserved := ih hpresent hreached
          ((List.mem_cons.mp hturn).resolve_left (Ne.symm hk)) hstill
        unfold Served at hserved ⊢
        rw [hstays.scope, hstays.subscriber] at hserved
        exact Served.mono hserved List.prefix_rfl
          (Scene.Leads.grows hfirst).length_le
      · exact .inr (hended.mono (Scene.Leads.grows hrest) (Nat.le_refl _))

/-- A delivery serves every slot that is due when it begins. -/
theorem RunsStepwise.publish_serves (hrun : RunsStepwise run write) {past : History} {p : Panel}
    {rounds : List Round} (hr : Reached ⟨past, p, rounds⟩) (hp : p.present = true)
    {g : Generation} {handle : Nat} {slot : Slot}
    (hdue : p.dispatcher.due? g handle = some slot) :
    Served (logPublish run write past p g) past.length past.length handle slot g := by
  have hbegun := hr.next (.begin _ g)
  have hkey := SortedMap.mem_keys (Dispatcher.due?_eq_some.mp hdue).1
  have hserved := hrun.turns_serve hbegun hp hkey hdue
  exact hserved.mono (List.prefix_append _ _) (Nat.le_refl _)

end ChannelFeed.Panel
