import ChannelFeed.Proofs.Panel.Scene

namespace ChannelFeed

/-- How many commands the calls of a script can run after so many calls. -/
def Script.left (script : Script) (calls : Nat) : Nat :=
  Command.weightOfScript (script.filter (fun entry => calls < entry.1))

def Callback.left : Callback → Nat → Nat
  | scripted script, calls => script.left calls
  | decoded _, _ => 0

def Widget.left (w : Widget) : Nat := w.callback.left w.calls

/-- How many commands the callbacks of a panel can still run. -/
def Panel.left (p : Panel) : Nat := p.widgets.foldr (fun w n => w.left + n) 0

theorem Command.one_le_weight (command : Command) : 1 ≤ command.weight := by
  cases command with
  | subscribe => exact Nat.le_add_left 1 _
  | _ => exact Nat.le_refl 1

theorem Script.left_cons (call : Nat) (commands : List Command) (rest : Script) (calls : Nat) :
    Script.left ((call, commands) :: rest) calls =
      (if calls < call then Command.weightOfList commands else 0) + Script.left rest calls := by
  unfold Script.left
  rw [List.filter_cons]
  by_cases h : calls < call
  · simp [h, Command.weightOfScript]
  · simp [h]

theorem Script.left_le_weight (script : Script) (calls : Nat) :
    script.left calls ≤ Command.weightOfScript script := by
  induction script with
  | nil => exact Nat.le_refl _
  | cons entry rest ih =>
    obtain ⟨call, commands⟩ := entry
    rw [left_cons, Command.weightOfScript]
    split <;> omega

theorem Script.left_succ_le (script : Script) (calls : Nat) :
    script.left (calls + 1) ≤ script.left calls := by
  induction script with
  | nil => exact Nat.le_refl _
  | cons entry rest ih =>
    obtain ⟨call, commands⟩ := entry
    rw [left_cons, left_cons]
    split <;> split <;> omega

theorem Script.at_left (script : Script) (calls : Nat) :
    Command.weightOfList (script.at (calls + 1)) + script.left (calls + 1) ≤ script.left calls := by
  induction script with
  | nil => exact Nat.le_refl _
  | cons entry rest ih =>
    obtain ⟨call, commands⟩ := entry
    rw [left_cons, left_cons]
    by_cases hcall : call = calls + 1
    · have hat : Script.at ((call, commands) :: rest) (calls + 1) = commands := by
        simp [Script.at, hcall]
      have hrest := Script.left_succ_le rest calls
      rw [hat, if_neg (by omega), if_pos (by omega)]
      omega
    · have hat : Script.at ((call, commands) :: rest) (calls + 1) = Script.at rest (calls + 1) := by
        simp [Script.at, hcall]
      rw [hat]
      split <;> split <;> omega

theorem Callback.left_le_weight (callback : Callback) (calls : Nat) :
    callback.left calls ≤ callback.weight := by
  cases callback with
  | scripted script => exact Script.left_le_weight script calls
  | decoded decoder => exact Nat.le_refl _

theorem left_modify {widgets : List Widget} {i : Nat} {w : Widget} (f : Widget → Widget)
    (h : widgets[i]? = some w) :
    (widgets.modify i f).foldr (fun w n => w.left + n) 0 + w.left =
      widgets.foldr (fun w n => w.left + n) 0 + (f w).left := by
  induction widgets generalizing i with
  | nil => cases h
  | cons first rest ih =>
    cases i with
    | zero =>
      cases h
      rw [List.modify_zero_cons, List.foldr_cons, List.foldr_cons]
      omega
    | succ i =>
      rw [List.getElem?_cons_succ] at h
      have hrest := ih h
      rw [List.modify_succ_cons, List.foldr_cons, List.foldr_cons]
      omega

theorem left_push (widgets : List Widget) (w : Widget) :
    (widgets ++ [w]).foldr (fun w n => w.left + n) 0 =
      widgets.foldr (fun w n => w.left + n) 0 + w.left := by
  induction widgets with
  | nil => exact Nat.add_comm _ _
  | cons first rest ih =>
    rw [List.cons_append, List.foldr_cons, List.foldr_cons, ih, Nat.add_assoc]

namespace Panel

variable {p q : Panel}

theorem left_of_widgets (h : q.widgets = p.widgets) : q.left = p.left := by
  unfold left
  rw [h]

theorem left_le_depth (p : Panel) : p.left ≤ p.depth := by
  unfold left depth
  induction p.widgets with
  | nil => exact Nat.le_refl _
  | cons w rest ih =>
    rw [List.foldr_cons, List.foldr_cons]
    have hw : w.left ≤ w.callback.weight := w.callback.left_le_weight w.calls
    omega

theorem left_modifyWidget (p : Panel) (widget : Nat) {f : Widget → Widget}
    (hf : ∀ w, (f w).left = w.left) : (p.modifyWidget widget f).left = p.left := by
  cases hw : p.widgets[widget]? with
  | none =>
    have hlen := List.getElem?_eq_none_iff.mp hw
    exact left_of_widgets (List.modify_eq_self hlen)
  | some w =>
    have h := left_modify f hw
    rw [hf] at h
    exact Nat.add_right_cancel h

theorem left_subscribe (p : Panel) (subscriber : String) (component : Option String)
    (addresses : List Address) (script : Script) :
    (p.subscribe subscriber component addresses (.scripted script)).1.left ≤
      p.left + Command.weightOfScript script := by
  have hpush : (p.subscribe subscriber component addresses (.scripted script)).1.left =
      p.left + script.left 0 := left_push p.widgets _
  have hscript := Script.left_le_weight script 0
  omega

theorem left_letGo {widget : Nat} {live : Bool} (h : p.letGo widget = some (q, live)) :
    q.left = p.left := by
  unfold letGo at h
  split at h
  · split at h
    · have hsame := left_modifyWidget p widget (f := fun w => { w with guarded := false })
        (fun _ => rfl)
      dsimp only at h
      split at h
      · cases h
        exact hsame
      · cases h
        exact hsame
    · cases h
  · cases h

theorem left_called {widget : Nat} {w : Widget} {script : Script}
    (hw : p.widgets[widget]? = some w) (hscript : w.callback = .scripted script) :
    (p.modifyWidget widget (fun w' => { w' with calls := w.calls + 1 })).left +
      Command.weightOfList (script.at (w.calls + 1)) ≤ p.left := by
  have hsum : (p.modifyWidget widget (fun w' => { w' with calls := w.calls + 1 })).left +
      w.callback.left w.calls = p.left + w.callback.left (w.calls + 1) :=
    left_modify _ hw
  have hat := Script.at_left script w.calls
  rw [hscript] at hsum
  simp only [Callback.left] at hsum
  omega

/-- Two ways to run commands come to the same, and neither leaves more to run than there was, unless
there is more to run than so much. -/
structure Agree (most : Nat) (run run' : Panel → Command → Panel × Reply) : Prop where
  same : ∀ p c, p.left + c.weight ≤ most → run p c = run' p c
  spends : ∀ p c, p.left + c.weight ≤ most → (run p c).1.left ≤ p.left + c.weight

variable {most : Nat} {run run' : Panel → Command → Panel × Reply}

theorem Agree.runCommands (h : Agree most run run') (widget call : Nat) (p : Panel)
    (commands : List Command) (hmost : p.left + Command.weightOfList commands ≤ most) :
    Panel.runCommands run widget call p commands = Panel.runCommands run' widget call p commands ∧
      (Panel.runCommands run widget call p commands).1.left ≤
        p.left + Command.weightOfList commands := by
  induction commands generalizing p with
  | nil => exact ⟨rfl, Nat.le_refl _⟩
  | cons command rest ih =>
    rw [Command.weightOfList] at hmost ⊢
    by_cases hpanic : command = .panic
    · subst hpanic
      exact ⟨rfl, Nat.le_add_right _ _⟩
    · have hfits : p.left + command.weight ≤ most := by omega
      have hsame := h.same p command hfits
      have hspends := h.spends p command hfits
      have hrest := ih ((run p command).1.record (.replied widget call (run p command).2))
        (Nat.le_trans (Nat.add_le_add_right hspends _) (by omega))
      rw [runCommands_cons hpanic, runCommands_cons hpanic, ← hsame]
      refine ⟨hrest.1, Nat.le_trans hrest.2 ?_⟩
      exact Nat.le_trans (Nat.add_le_add_right hspends _) (by omega)

theorem Agree.callBack (h : Agree most run run') (p : Panel) (widget : Nat) (v : View)
    (hmost : p.left ≤ most) :
    Panel.callBack run p widget v = Panel.callBack run' p widget v ∧
      (Panel.callBack run p widget v).1.left ≤ p.left := by
  unfold Panel.callBack
  split
  · exact ⟨rfl, Nat.le_refl _⟩
  · rename_i w hw
    dsimp only
    split
    · rename_i script hscript
      have hfits := left_called hw hscript
      obtain ⟨hsame, hspends⟩ := h.runCommands widget (w.calls + 1)
        ((p.modifyWidget widget (fun w' => { w' with calls := w.calls + 1 })).record
          (.called widget (w.calls + 1) v)) (script.at (w.calls + 1))
        (Nat.le_trans hfits hmost)
      exact ⟨hsame, Nat.le_trans hspends hfits⟩
    · rename_i decoder hdecoder
      have hsum : (p.modifyWidget widget (fun w' => { w' with calls := w.calls + 1 })).left +
          w.callback.left w.calls = p.left + w.callback.left (w.calls + 1) :=
        left_modify _ hw
      rw [hdecoder] at hsum
      exact ⟨rfl, Nat.le_of_eq hsum⟩

theorem Agree.deliver (h : Agree most run run') (g : Generation) (p : Panel) (handle : Nat)
    (hmost : p.left ≤ most) : Panel.deliver run g p handle = Panel.deliver run' g p handle ∧
      (Panel.deliver run g p handle).left ≤ p.left := by
  unfold Panel.deliver
  split
  · exact ⟨rfl, Nat.le_refl _⟩
  · rename_i slot _
    dsimp only
    generalize hready : (if slot.primed then p
      else { p with dispatcher := p.dispatcher.prime handle }.note
        [.primed slot.subscriber handle]) = ready
    have hleft : ready.left = p.left := by
      rw [← hready]
      split <;> rfl
    obtain ⟨hsame, hspends⟩ := h.callBack ready slot.widget ⟨g, slot.scope⟩ (hleft ▸ hmost)
    rw [← hsame]
    refine ⟨rfl, ?_⟩
    rw [hleft] at hspends
    split
    · exact hspends
    · exact hspends

theorem Agree.publish (h : Agree most run run') (p : Panel) (g : Generation)
    (hmost : p.left ≤ most) : Panel.publish run p g = Panel.publish run' p g ∧
      (Panel.publish run p g).left ≤ p.left := by
  unfold Panel.publish
  generalize p.dispatcher.slots.keys = keys
  induction keys generalizing p with
  | nil => exact ⟨rfl, Nat.le_refl _⟩
  | cons handle rest ih =>
    rw [List.foldl_cons, List.foldl_cons]
    obtain ⟨hsame, hspends⟩ := h.deliver g p handle hmost
    rw [← hsame]
    obtain ⟨hall, hleft⟩ := ih _ (Nat.le_trans hspends hmost)
    exact ⟨hall, Nat.le_trans hleft hspends⟩

/-- However much fuel there is, a command comes to the same if there is enough for it. -/
theorem exec_agree (most : Nat) {n m : Nat} (hn : most ≤ n) (hm : most ≤ m) :
    Agree most (exec n) (exec m) := by
  induction most generalizing n m with
  | zero =>
    have hnone : ∀ (p : Panel) (c : Command), ¬ p.left + c.weight ≤ 0 := by
      intro p c h
      have := c.one_le_weight
      omega
    exact ⟨fun p c h => absurd h (hnone p c), fun p c h => absurd h (hnone p c)⟩
  | succ most ih =>
    obtain ⟨n, rfl⟩ : ∃ k, n = k + 1 := ⟨n - 1, by omega⟩
    obtain ⟨m, rfl⟩ : ∃ k, m = k + 1 := ⟨m - 1, by omega⟩
    have hless : Agree most (exec n) (exec m) := ih (by omega) (by omega)
    have hpublish : ∀ p : Panel, p.left + 1 ≤ most + 1 →
        publish (exec n) p p.dispatcher.generation = publish (exec m) p p.dispatcher.generation ∧
          (publish (exec n) p p.dispatcher.generation).left ≤ p.left :=
      fun p hp => hless.publish p _ (Nat.le_of_succ_le_succ hp)
    suffices h : ∀ p c, p.left + c.weight ≤ most + 1 → exec (n + 1) p c = exec (m + 1) p c ∧
        (exec (n + 1) p c).1.left ≤ p.left + c.weight from
      ⟨fun p c hc => (h p c hc).1, fun p c hc => (h p c hc).2⟩
    intro p c hc
    cases c with
    | release widget | drop widget =>
      refine ⟨rfl, ?_⟩
      simp only [exec]
      split
      · rename_i hgone
        rw [left_letGo hgone]
        exact Nat.le_add_right _ _
      · exact Nat.le_add_right _ _
    | refuse fault => exact ⟨rfl, Nat.le_add_right _ _⟩
    | subscribe subscriber component addresses script =>
      refine ⟨rfl, ?_⟩
      simp only [exec]
      split
      · exact Nat.le_add_right _ _
      · exact Nat.le_trans (left_subscribe p _ _ _ _) (Nat.le_succ _)
    | unsubscribe widget =>
      refine ⟨rfl, ?_⟩
      simp only [exec]
      split
      · exact Nat.le_add_right _ _
      · split
        · exact Nat.le_add_right _ _
        · exact Nat.le_add_right _ _
    | view subscriber | retire | panic =>
      refine ⟨rfl, ?_⟩
      simp only [exec]
      split
      · exact Nat.le_add_right _ _
      · exact Nat.le_add_right _ _
    | apply snapshot now =>
      obtain ⟨hsame, hspends⟩ := hpublish (p.merge snapshot) hc
      rw [hsame] at hspends
      simp only [exec, hsame, true_and]
      split
      · exact Nat.le_add_right _ _
      · split
        · exact Nat.le_trans hspends (Nat.le_add_right _ _)
        · exact Nat.le_add_right _ _
    | republish =>
      obtain ⟨hsame, hspends⟩ := hpublish p hc
      rw [hsame] at hspends
      simp only [exec, hsame, true_and]
      split
      · exact Nat.le_add_right _ _
      · exact Nat.le_trans hspends (Nat.le_add_right _ _)

/-- Two ways to write a history come to the same unless there is more to run than so much. -/
def WriteAlike (most : Nat) (write write' : History → Panel → Command → History) : Prop :=
  ∀ past p c, p.left + c.weight ≤ most → write past p c = write' past p c

section

variable {write write' : History → Panel → Command → History} (h : Agree most run run')
  (hw : WriteAlike most write write')

include h hw

theorem Agree.logCommands (widget call : Nat) (past : History) (p : Panel) (commands : List Command)
    (hmost : p.left + Command.weightOfList commands ≤ most) :
    Panel.logCommands run write widget call past p commands =
      Panel.logCommands run' write' widget call past p commands := by
  induction commands generalizing past p with
  | nil => rfl
  | cons command rest ih =>
    rw [Command.weightOfList] at hmost
    by_cases hpanic : command = .panic
    · subst hpanic
      rfl
    · have hfits : p.left + command.weight ≤ most := by omega
      have hspends := h.spends p command hfits
      rw [logCommands_cons hpanic, logCommands_cons hpanic, ← h.same p command hfits,
        ← hw past p command hfits]
      exact ih _ _ (Nat.le_trans (Nat.add_le_add_right hspends _) (by omega))

theorem Agree.logCallBack (delivery handle : Nat) (past : History) (p : Panel) (widget : Nat)
    (v : View) (hmost : p.left ≤ most) :
    Panel.logCallBack run write delivery handle past p widget v =
      Panel.logCallBack run' write' delivery handle past p widget v := by
  unfold Panel.logCallBack
  split
  · rfl
  · rename_i w hwidget
    dsimp only
    split
    · rename_i script hscript
      have hstart : (p.startCall widget w v).left =
          (p.modifyWidget widget (fun w' => { w' with calls := w.calls + 1 })).left := by
        unfold startCall
        rw [hscript]
        rfl
      have hfits := left_called hwidget hscript
      exact h.logCommands hw _ _ _ _ _ (hstart ▸ Nat.le_trans hfits hmost)
    · rfl

theorem Agree.logCall (g : Generation) (delivery : Nat) (past : History) (p : Panel) (handle : Nat)
    (slot : Slot) (hmost : p.left ≤ most) :
    Panel.logCall run write g delivery past p handle slot =
      Panel.logCall run' write' g delivery past p handle slot := by
  unfold Panel.logCall
  rw [h.logCallBack hw delivery handle past p slot.widget ⟨g, slot.scope⟩ hmost,
    (h.callBack p slot.widget ⟨g, slot.scope⟩ hmost).1]

theorem Agree.logTurn (g : Generation) (delivery : Nat) (past : History) (p : Panel) (handle : Nat)
    (hmost : p.left ≤ most) : Panel.logTurn run write g delivery past p handle =
      Panel.logTurn run' write' g delivery past p handle := by
  unfold Panel.logTurn
  split
  · rfl
  · split
    · exact h.logCall hw g delivery past p handle _ hmost
    · exact h.logCall hw g delivery _ (p.primeSlot handle _) handle _ hmost

theorem Agree.logPublish (past : History) (p : Panel) (g : Generation) (hmost : p.left ≤ most) :
    Panel.logPublish run write past p g = Panel.logPublish run' write' past p g := by
  unfold Panel.logPublish
  rw [(h.publish p g hmost).1]
  congr 1
  generalize past.length = delivery, p.dispatcher.slots.keys = keys
  induction keys generalizing past p with
  | nil => rfl
  | cons handle rest ih =>
    obtain ⟨hsame, hspends⟩ := h.deliver g p handle hmost
    rw [logTurns, logTurns, h.logTurn hw g delivery past p handle hmost, ← hsame]
    exact ih _ _ (Nat.le_trans hspends hmost)

end

theorem log_alike (most : Nat) {n m : Nat} (hn : most ≤ n) (hm : most ≤ m) :
    WriteAlike most (log n) (log m) := by
  induction most generalizing n m with
  | zero =>
    intro past p c h
    have := c.one_le_weight
    omega
  | succ most ih =>
    obtain ⟨n, rfl⟩ : ∃ k, n = k + 1 := ⟨n - 1, by omega⟩
    obtain ⟨m, rfl⟩ : ∃ k, m = k + 1 := ⟨m - 1, by omega⟩
    have hrun : Agree most (exec n) (exec m) := exec_agree most (by omega) (by omega)
    have hwrite : WriteAlike most (log n) (log m) := ih (by omega) (by omega)
    have hpublish : ∀ past (p : Panel), p.left + 1 ≤ most + 1 →
        logPublish (exec n) (log n) past p p.dispatcher.generation =
          logPublish (exec m) (log m) past p p.dispatcher.generation :=
      fun past p hp => hrun.logPublish hwrite past p _ (Nat.le_of_succ_le_succ hp)
    intro past p c hc
    cases c with
    | apply snapshot now => simp only [log, hpublish past (p.merge snapshot) hc]
    | republish => simp only [log, hpublish past p hc]
    | _ => rfl

/-- A panel has fuel enough for a command and all that its callbacks cause: with more nothing else
happens. -/
theorem exec_enough (p : Panel) (command : Command) {fuel : Nat}
    (h : p.depth + command.weight ≤ fuel) : exec fuel p command = p.perform command := by
  have hleft := p.left_le_depth
  have hall := exec_agree (p.left + command.weight) (n := fuel)
    (m := p.depth + command.weight + 1) (by omega) (by omega)
  exact hall.same p command (Nat.le_refl _)

theorem publish_enough (p : Panel) (g : Generation) {fuel : Nat} (h : p.depth ≤ fuel) :
    publish (exec fuel) p g = p.use (.deliver g) := by
  have hleft := p.left_le_depth
  have hall := exec_agree p.left (n := fuel) (m := p.depth + 1) (by omega) (by omega)
  exact (hall.publish p g (Nat.le_refl _)).1

/-- Nothing that happens while a command runs is missing from its history. -/
theorem log_enough (past : History) (p : Panel) (command : Command) {fuel : Nat}
    (h : p.depth + command.weight ≤ fuel) :
    log fuel past p command = logUse past p (.command command) := by
  have hleft := p.left_le_depth
  have hall := log_alike (p.left + command.weight) (n := fuel)
    (m := p.depth + command.weight + 1) (by omega) (by omega)
  exact hall past p command (Nat.le_refl _)

theorem logPublish_enough (past : History) (p : Panel) (g : Generation) {fuel : Nat}
    (h : p.depth ≤ fuel) :
    logPublish (exec fuel) (log fuel) past p g = logUse past p (.deliver g) := by
  have hleft := p.left_le_depth
  have hrun := exec_agree p.left (n := fuel) (m := p.depth + 1) (by omega) (by omega)
  have hwrite := log_alike p.left (n := fuel) (m := p.depth + 1) (by omega) (by omega)
  exact hrun.logPublish hwrite past p g (Nat.le_refl _)

end Panel

end ChannelFeed
