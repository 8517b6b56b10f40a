import ChannelFeed.Panel.Basic

namespace ChannelFeed

/-- A property of a dispatcher and of what was noted that every change of the dispatcher keeps. -/
structure Panel.Kept (P : Dispatcher → List Note → Prop) : Prop where
  install : ∀ d notes subscriber component addresses widget, P d notes →
    P (d.install subscriber component addresses widget).1
      (notes ++ Dispatcher.installNotes subscriber addresses
        (d.install subscriber component addresses widget).2)
  unsubscribe : ∀ d notes handle, P d notes →
    P (d.unsubscribe handle).1 (notes ++ d.unsubscribeNotes handle)
  merge : ∀ d notes s, P d notes → P (d.merge s) (notes ++ d.mergeNotes s)
  prime : ∀ d notes subscriber handle, P d notes →
    P (d.prime handle) (notes ++ [.primed subscriber handle])
  mute : ∀ d notes subscriber handle, P d notes →
    P (d.mute handle) (notes ++ [.muted subscriber handle])

namespace Panel

/-- A panel whose dispatcher and notes have a property. -/
def Has (P : Dispatcher → List Note → Prop) (p : Panel) : Prop := P p.dispatcher p.notes

namespace Kept

variable {P : Dispatcher → List Note → Prop} {run : Panel → Command → Panel × Reply}

theorem subscribe (k : Kept P) (p : Panel) (subscriber : String) (component : Option String)
    (addresses : List Address) (callback : Callback) (h : p.Has P) :
    (p.subscribe subscriber component addresses callback).1.Has P :=
  k.install _ _ _ _ _ _ h

theorem letGo (k : Kept P) {p q : Panel} {widget : Nat} {live : Bool}
    (hp : p.letGo widget = some (q, live)) (h : p.Has P) : q.Has P := by
  unfold Panel.letGo at hp
  split at hp
  · split at hp
    · rename_i w _ _
      dsimp only at hp
      split at hp
      · cases hp
        exact k.unsubscribe _ _ _ h
      · cases hp
        exact h
    · cases hp
  · cases hp

theorem runCommands (hrun : ∀ p c, p.Has P → (run p c).1.Has P) (widget call : Nat)
    (commands : List Command) (p : Panel) (h : p.Has P) :
    (Panel.runCommands run widget call p commands).1.Has P := by
  induction commands generalizing p with
  | nil => exact h
  | cons command rest ih =>
    unfold Panel.runCommands
    split
    · exact h
    · exact h
    · rename_i heq
      cases heq
      exact ih _ (hrun _ _ h)

theorem callBack (hrun : ∀ p c, p.Has P → (run p c).1.Has P) (p : Panel) (widget : Nat) (v : View)
    (h : p.Has P) : (Panel.callBack run p widget v).1.Has P := by
  unfold Panel.callBack
  split
  · exact h
  · dsimp only
    split
    · exact runCommands hrun _ _ _ _ h
    · exact h

theorem deliver (k : Kept P) (hrun : ∀ p c, p.Has P → (run p c).1.Has P) (g : Generation)
    (p : Panel) (handle : Nat) (h : p.Has P) : (Panel.deliver run g p handle).Has P := by
  unfold Panel.deliver
  split
  · exact h
  · rename_i slot _
    have hend : ∀ r : Panel × Bool, r.1.Has P →
        (if r.2 then { r.1 with dispatcher := r.1.dispatcher.mute handle }.note
          [.muted slot.subscriber handle] else r.1).Has P := by
      intro r hr
      split
      · exact k.mute _ _ _ _ hr
      · exact hr
    refine hend _ (callBack hrun _ _ _ ?_)
    split
    · exact h
    · exact k.prime _ _ _ _ h

theorem publish (k : Kept P) (hrun : ∀ p c, p.Has P → (run p c).1.Has P) (p : Panel)
    (g : Generation) (h : p.Has P) : (publish run p g).Has P := by
  unfold Panel.publish
  generalize p.dispatcher.slots.keys = keys
  induction keys generalizing p with
  | nil => exact h
  | cons handle rest ih =>
    rw [List.foldl_cons]
    exact ih _ (k.deliver hrun g p handle h)

theorem exec (k : Kept P) (fuel : Nat) (p : Panel) (command : Command) (h : p.Has P) :
    (Panel.exec fuel p command).1.Has P := by
  induction fuel generalizing p command with
  | zero => exact h
  | succ fuel ih =>
    cases command with
    | release widget =>
      simp only [Panel.exec]
      split
      · rename_i hp
        exact k.letGo hp h
      · exact h
    | drop widget =>
      simp only [Panel.exec]
      split
      · rename_i hp
        exact k.letGo hp h
      · exact h
    | refuse fault => exact h
    | subscribe subscriber component addresses script =>
      simp only [Panel.exec]
      split
      · exact h
      · exact k.subscribe _ _ _ _ _ h
    | unsubscribe widget =>
      simp only [Panel.exec]
      split
      · exact h
      · split
        · exact k.unsubscribe _ _ _ h
        · exact h
    | view subscriber =>
      simp only [Panel.exec]
      split <;> exact h
    | apply snapshot now =>
      simp only [Panel.exec]
      split
      · exact h
      · split
        · exact k.publish ih _ _ (k.merge _ _ _ h)
        · exact k.merge _ _ _ h
    | republish =>
      simp only [Panel.exec]
      split
      · exact h
      · exact k.publish ih _ _ h
    | retire =>
      simp only [Panel.exec]
      split <;> exact h
    | panic =>
      simp only [Panel.exec]
      split <;> exact h

theorem perform (k : Kept P) (p : Panel) (command : Command) (h : p.Has P) :
    (p.perform command).1.Has P := k.exec _ p command h

theorem deliverCurrent (k : Kept P) (p : Panel) (h : p.Has P) : p.deliverCurrent.Has P :=
  k.publish (k.exec _) p _ h

end Kept

end Panel

/-- A property of dispatchers that every change of one keeps. -/
structure Dispatcher.Kept (P : Dispatcher → Prop) : Prop where
  install : ∀ d subscriber component addresses widget, P d →
    P (d.install subscriber component addresses widget).1
  unsubscribe : ∀ d handle, P d → P (d.unsubscribe handle).1
  merge : ∀ d s, P d → P (d.merge s)
  prime : ∀ d handle, P d → P (d.prime handle)
  mute : ∀ d handle, P d → P (d.mute handle)

theorem Dispatcher.Kept.panel {P : Dispatcher → Prop} (k : Kept P) : Panel.Kept (fun d _ => P d) where
  install d _ subscriber component addresses widget h :=
    k.install d subscriber component addresses widget h
  unsubscribe d _ handle h := k.unsubscribe d handle h
  merge d _ s h := k.merge d s h
  prime d _ _ handle h := k.prime d handle h
  mute d _ _ handle h := k.mute d handle h

end ChannelFeed
