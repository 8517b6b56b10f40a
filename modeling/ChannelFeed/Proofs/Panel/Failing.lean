import ChannelFeed.Proofs.Panel.Silenced

namespace ChannelFeed

def Command.isPanic : Command → Bool
  | panic => true
  | _ => false

/-- Whatever a script runs leaves the dispatcher alone or fails. -/
def Script.Mild (script : Script) : Prop :=
  ∀ call, ∀ command ∈ script.at call, command.isQuiet = true ∨ command.isPanic = true

def Script.failsAt (script : Script) (call : Nat) : Bool := (script.at call).any Command.isPanic

namespace Callback

/-- A callback that leaves the dispatcher alone, though it may fail. -/
def Mild : Callback → Prop
  | scripted script => script.Mild
  | decoded _ => True

/-- Whether a callback fails in a call; calls count from one. -/
def failsAt : Callback → Nat → Bool
  | scripted script, call => script.failsAt call
  | decoded _, _ => false

end Callback

namespace Panel

/-- No callback does more to the dispatcher than to fail. -/
def Mild (p : Panel) : Prop := ∀ w ∈ p.widgets, w.callback.Mild

def Happening.heard? (handle : Nat) : Happening → Option View
  | called _ k v => if handle = k then some v else none
  | _ => none

/-- What the callback of a handle was given, call after call. -/
def received (past : History) (handle : Nat) : List View :=
  past.filterMap (fun m => m.what.heard? handle)

/-- A way to write down commands of which nothing is written down where they are quiet. -/
def WritesQuietly (write : History → Panel → Command → History) : Prop :=
  ∀ past p command, command.isQuiet = true → write past p command = past

/-- What the turn of a slot comes to that is due. -/
structure Called (handle : Nat) (slot : Slot) (w : Widget) (p q : Panel) : Prop where
  registry : q.dispatcher.registry = p.dispatcher.registry
  generation : q.dispatcher.generation = p.dispatcher.generation
  slots : ∀ k, q.dispatcher.slots.get? k =
    if k = handle then
      some { slot with primed := true, active := !w.callback.failsAt (w.calls + 1) }
    else p.dispatcher.slots.get? k
  widgets : q.widgets = p.widgets.modify slot.widget (fun w' => { w' with calls := w.calls + 1 })
  attended : q.attended = p.attended

variable {p : Panel} {run : Panel → Command → Panel × Reply}
  {write : History → Panel → Command → History} {g : Generation}

theorem received_other {what : Happening} (hw : what.callee? = none) (past : History) (q : Panel)
    (handle : Nat) : received (past ++ [⟨what, q⟩]) handle = received past handle := by
  have hnone : what.heard? handle = none := by
    cases what with
    | called => cases hw
    | _ => rfl
  simp [received, hnone]

theorem received_called (past : History) (q : Panel) (delivery handle : Nat) (v : View) (k : Nat) :
    received (past ++ [⟨.called delivery handle v, q⟩]) k =
      received past k ++ if k = handle then [v] else [] := by
  by_cases hk : k = handle <;> simp [received, Happening.heard?, hk]

theorem log_writesQuietly (fuel : Nat) : WritesQuietly (log fuel) := by
  intro past p command hq
  cases fuel with
  | zero => rfl
  | succ fuel =>
    cases command with
    | view subscriber =>
      simp only [log]
      split <;> rfl
    | refuse fault => rfl
    | _ => cases hq

theorem ne_panic_of_quiet {command : Command} (hq : command.isQuiet = true) :
    command ≠ .panic := by
  intro he
  rw [he] at hq
  cases hq

theorem eq_panic_of_isPanic {command : Command} (hp : command.isPanic = true) :
    command = .panic := by
  cases command with
  | panic => rfl
  | _ => cases hp

theorem runCommands_mild (hrun : RunsQuietly run) (widget call : Nat) (commands : List Command)
    (p : Panel)
    (hm : ∀ command ∈ commands, command.isQuiet = true ∨ command.isPanic = true) :
    ∃ journal, runCommands run widget call p commands =
      ({ p with journal }, commands.any Command.isPanic) := by
  induction commands generalizing p with
  | nil => exact ⟨p.journal, rfl⟩
  | cons command rest ih =>
    rcases hm command List.mem_cons_self with hquiet | hpanic
    · have hne := ne_panic_of_quiet hquiet
      have hgoes : command.isPanic = false :=
        Bool.eq_false_iff.mpr (fun hp => hne (eq_panic_of_isPanic hp))
      obtain ⟨journal, hrest⟩ := ih (p.record (.replied widget call (run p command).2))
        (fun c hc => hm c (List.mem_cons_of_mem _ hc))
      refine ⟨journal, ?_⟩
      rw [runCommands_cons hne, hrun p command hquiet, hrest, List.any_cons, hgoes, Bool.false_or]
      rfl
    · cases eq_panic_of_isPanic hpanic
      exact ⟨p.journal, rfl⟩

theorem logCommands_mild (hwrite : WritesQuietly write) (widget call : Nat)
    (commands : List Command) (past : History) (p : Panel)
    (hm : ∀ command ∈ commands, command.isQuiet = true ∨ command.isPanic = true) :
    logCommands run write widget call past p commands = past := by
  induction commands generalizing p with
  | nil => rfl
  | cons command rest ih =>
    rcases hm command List.mem_cons_self with hquiet | hpanic
    · rw [logCommands_cons (ne_panic_of_quiet hquiet), hwrite past p command hquiet]
      exact ih _ (fun c hc => hm c (List.mem_cons_of_mem _ hc))
    · cases eq_panic_of_isPanic hpanic
      rfl

theorem callBack_mild (hrun : RunsQuietly run) {widget : Nat} {w : Widget}
    (hw : p.widgets[widget]? = some w) (hm : w.callback.Mild) (v : View) :
    ∃ journal, callBack run p widget v =
      ({ p.modifyWidget widget (fun w' => { w' with calls := w.calls + 1 }) with journal },
        w.callback.failsAt (w.calls + 1)) := by
  unfold callBack
  rw [hw]
  dsimp only
  cases hc : w.callback with
  | scripted script =>
    rw [hc] at hm
    obtain ⟨journal, hcommands⟩ := runCommands_mild hrun widget (w.calls + 1)
      (script.at (w.calls + 1)) ((p.modifyWidget widget (fun w' =>
        { w' with calls := w.calls + 1 })).record (.called widget (w.calls + 1) v)) (hm _)
    exact ⟨journal, hcommands⟩
  | decoded decoder => exact ⟨_, rfl⟩

theorem logCallBack_mild (hwrite : WritesQuietly write) {widget : Nat} {w : Widget}
    (hw : p.widgets[widget]? = some w) (hm : w.callback.Mild)
    (delivery handle : Nat) (past : History) (v : View) :
    logCallBack run write delivery handle past p widget v =
      past ++ [⟨.called delivery handle v, p.startCall widget w v⟩] := by
  unfold logCallBack
  rw [hw]
  dsimp only
  cases hc : w.callback with
  | scripted script =>
    rw [hc] at hm
    exact logCommands_mild hwrite _ _ _ _ _ (hm _)
  | decoded decoder => rfl

theorem ready_eq {handle : Nat} {slot : Slot} (hd : p.dispatcher.due? g handle = some slot) :
    ∃ ready notes,
      (if slot.primed then p else p.primeSlot handle slot) =
        { p with dispatcher := ready, notes } ∧
      ready.registry = p.dispatcher.registry ∧ ready.generation = p.dispatcher.generation ∧
      ∀ k, ready.slots.get? k =
        if k = handle then some { slot with primed := true, active := true }
        else p.dispatcher.slots.get? k := by
  obtain ⟨hs, hactive, _⟩ := Dispatcher.due?_eq_some.mp hd
  obtain ⟨_, _, _, primed, _, _⟩ := slot
  cases hactive
  cases primed with
  | true =>
    refine ⟨p.dispatcher, p.notes, rfl, rfl, rfl, fun k => ?_⟩
    split
    · rename_i hk
      exact hk ▸ hs
    · rfl
  | false =>
    refine ⟨p.dispatcher.prime handle, _, rfl, Dispatcher.adjust_registry _ _ _,
      Dispatcher.adjust_generation _ _ _, fun k => ?_⟩
    rw [Dispatcher.prime, Dispatcher.adjust_get?]
    split
    · rename_i hk
      rw [hk, hs]
      rfl
    · rfl

theorem deliver_called (hrun : RunsQuietly run) {handle : Nat} {slot : Slot} {w : Widget}
    (hd : p.dispatcher.due? g handle = some slot) (hw : p.widgets[slot.widget]? = some w)
    (hm : w.callback.Mild) : Called handle slot w p (deliver run g p handle) := by
  obtain ⟨ready, notes, hpanel, hregistry, hgeneration, hslots⟩ := ready_eq hd
  obtain ⟨journal, hcall⟩ := callBack_mild hrun
    (p := { p with dispatcher := ready, notes }) hw hm ⟨g, slot.scope⟩
  rw [deliver_eq, hd]
  simp only [hpanel, callSlot, hcall]
  cases hfails : w.callback.failsAt (w.calls + 1) with
  | false =>
    refine ⟨hregistry, hgeneration, fun k => ?_, rfl, rfl⟩
    rw [hfails]
    exact hslots k
  | true =>
    refine ⟨?_, ?_, fun k => ?_, rfl, rfl⟩
    · exact (Dispatcher.adjust_registry _ _ _).trans hregistry
    · exact (Dispatcher.adjust_generation _ _ _).trans hgeneration
    · refine (Dispatcher.adjust_get? _ _ _ k).trans ?_
      dsimp only [modifyWidget]
      rw [hslots, hfails]
      split <;> rfl

theorem logTurn_received (hwrite : WritesQuietly write) {handle : Nat}
    {slot : Slot} {w : Widget} (hd : p.dispatcher.due? g handle = some slot)
    (hw : p.widgets[slot.widget]? = some w) (hm : w.callback.Mild) (delivery : Nat)
    (past : History) (k : Nat) :
    received (logTurn run write g delivery past p handle) k =
      received past k ++ if k = handle then [⟨g, slot.scope⟩] else [] := by
  have hcall : ∀ past (q : Panel), q.widgets[slot.widget]? = some w →
      received (logCall run write g delivery past q handle slot) k =
        received past k ++ if k = handle then [⟨g, slot.scope⟩] else [] := by
    intro past q hw
    unfold logCall
    dsimp only
    rw [logCallBack_mild hwrite hw hm]
    split
    · rw [received_other rfl, received_called]
    · rw [received_called]
  unfold logTurn
  rw [hd]
  dsimp only
  split
  · exact hcall past p hw
  · refine (hcall _ (p.primeSlot handle slot) hw).trans ?_
    rw [received_other rfl]

end Panel

end ChannelFeed
