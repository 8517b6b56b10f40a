import ChannelFeed.Proofs.Panel.Mirror

namespace ChannelFeed

/-- The status that a callback writes down when it is given a view. -/
def Callback.status? (v : View) : Callback → Option Charge.Status
  | decoded decoder => some (decoder.decode v)
  | scripted _ => none

def Delivery.status? (widget : Nat) : Delivery → Option Charge.Status
  | decoded k status => if k = widget then some status else none
  | _ => none

namespace Panel

/-- The statuses that a widget wrote down, call after call. -/
def statuses (p : Panel) (widget : Nat) : List Charge.Status :=
  p.journal.filterMap (Delivery.status? widget)

/-- The handles of the widgets with what each does when it is called. -/
def roles (p : Panel) : List (Nat × Callback) := p.widgets.map (fun w => (w.handle, w.callback))

variable {p : Panel}

theorem roles_eq_some {widget handle : Nat} {callback : Callback} :
    p.roles[widget]? = some (handle, callback) ↔
      ∃ w, p.widgets[widget]? = some w ∧ w.handle = handle ∧ w.callback = callback := by
  simp [roles]

theorem modifyWidget_roles (p : Panel) (widget : Nat) {f : Widget → Widget}
    (hhandle : ∀ w, (f w).handle = w.handle) (hcallback : ∀ w, (f w).callback = w.callback) :
    (p.modifyWidget widget f).roles = p.roles := by
  refine List.ext_getElem? (fun i => ?_)
  simp only [roles, modifyWidget, List.getElem?_map, List.getElem?_modify]
  cases p.widgets[i]? with
  | none => rfl
  | some w => by_cases hi : widget = i <;> simp [hi, hhandle, hcallback]

theorem record_statuses (p : Panel) (d : Delivery) (widget : Nat) :
    (p.record d).statuses widget = p.statuses widget ++ (d.status? widget).toList := by
  unfold statuses record
  rw [List.filterMap_append]
  cases h : d.status? widget <;> simp [h]

theorem startCall_roles (p : Panel) (widget : Nat) (w : Widget) (v : View) :
    (p.startCall widget w v).roles = p.roles := by
  have hsame := modifyWidget_roles p widget (f := fun w' => { w' with calls := w.calls + 1 })
    (fun _ => rfl) (fun _ => rfl)
  unfold startCall
  dsimp only
  split <;> exact hsame

theorem startCall_statuses (p : Panel) (widget : Nat) (w : Widget) (v : View) (k : Nat) :
    (p.startCall widget w v).statuses k =
      p.statuses k ++ if widget = k then (w.callback.status? v).toList else [] := by
  unfold startCall
  cases w.callback with
  | scripted script =>
    refine (record_statuses _ _ k).trans ?_
    simp [Callback.status?, Delivery.status?, statuses, modifyWidget]
  | decoded decoder =>
    refine (record_statuses _ _ k).trans ?_
    by_cases hk : widget = k <;>
      simp [hk, Callback.status?, Delivery.status?, statuses, modifyWidget]

namespace Scene

variable {a b : Scene} {what : Option Happening}

/-- What a step does to the widgets' parts, to the statuses and to the views received: a subscription
adds a widget, and a call adds a view and the status that the widget makes of it. -/
inductive Telling (a b : Scene) : Prop where
  | silent (roles : b.panel.roles = a.panel.roles)
      (statuses : ∀ k, b.panel.statuses k = a.panel.statuses k)
      (received : ∀ k, received b.past k = received a.past k)
  | subscribed (callback : Callback) (roles : b.panel.roles = a.panel.roles ++ [(a.next, callback)])
      (statuses : ∀ k, b.panel.statuses k = a.panel.statuses k)
      (received : ∀ k, received b.past k = received a.past k)
  | called (handle widget : Nat) (v : View) (callback : Callback)
      (caller : a.panel.roles[widget]? = some (handle, callback))
      (roles : b.panel.roles = a.panel.roles)
      (statuses : ∀ k, b.panel.statuses k =
        a.panel.statuses k ++ if widget = k then (callback.status? v).toList else [])
      (received : ∀ k, received b.past k = received a.past k ++ if k = handle then [v] else [])

theorem Next.telling (ha : a.Reached) (h : Next a what b) : Telling a b := by
  cases h with
  | subscribe subscriber component addresses callback =>
    refine .subscribed callback ?_ (fun _ => rfl) (received_other rfl a.past _)
    have hhandle := Dispatcher.install_handle a.panel.dispatcher subscriber component addresses
      a.panel.widgets.length
    simp [Panel.subscribe, Panel.roles, note, hhandle, next]
  | letGo present held gone =>
    rename_i widget _ _ _
    refine .silent ?_ (fun k => ?_) (received_other rfl a.past _)
    · rw [add_panel, letGo_eq present held gone]
      exact modifyWidget_roles a.panel widget (f := fun w => { w with guarded := false })
        (fun _ => rfl) (fun _ => rfl)
    · rw [add_panel, letGo_eq present held gone]
      rfl
  | reply widget call reply =>
    refine .silent rfl (fun k => ?_) (fun _ => rfl)
    exact (record_statuses a.panel _ k).trans (List.append_nil _)
  | @call round _ handle _ slot w going turn due ready held =>
    obtain ⟨hs, _, _⟩ := Dispatcher.due?_eq_some.mp due
    obtain ⟨w', hw', hhandle⟩ := ha.told.seated.widget hs
    obtain rfl : w' = w := Option.some.inj (hw'.symm.trans held)
    exact .called handle slot.widget ⟨round.generation, slot.scope⟩ w'.callback
      (roles_eq_some.mpr ⟨w', held, hhandle, rfl⟩) (startCall_roles ..)
      (startCall_statuses _ _ _ _) (received_called _ _ _ _ _)
  | unsubscribe | prime | mute | finish =>
    exact .silent rfl (fun _ => rfl) (received_other rfl a.past _)
  | merge | unattend | begin | pass => exact .silent rfl (fun _ => rfl) (fun _ => rfl)

theorem Reached.statuses_absent (ha : a.Reached) {widget : Nat}
    (habsent : a.panel.roles.length ≤ widget) : a.panel.statuses widget = [] := by
  induction ha with
  | refl => rfl
  | tail hb hx ih =>
    obtain ⟨what, hn⟩ := hx
    cases Next.telling hb hn with
    | silent roles statuses =>
      rw [statuses]
      exact ih (roles ▸ habsent)
    | subscribed callback roles statuses =>
      rw [roles, List.length_append] at habsent
      rw [statuses]
      exact ih (Nat.le_of_add_right_le habsent)
    | called handle k v callback caller roles statuses =>
      rw [roles] at habsent
      have hk := (List.getElem?_eq_some_iff.mp caller).1
      rw [statuses, if_neg (Nat.ne_of_lt (Nat.lt_of_lt_of_le hk habsent)), List.append_nil]
      exact ih habsent

/-- A widget with a decoder has written down the status of each view that it was given. -/
theorem Reached.statuses (ha : a.Reached) {widget handle : Nat} {decoder : Charge.Decoder}
    (hrole : a.panel.roles[widget]? = some (handle, .decoded decoder)) :
    a.panel.statuses widget = (received a.past handle).map decoder.decode := by
  induction ha with
  | refl => simp [start, Panel.roles, Panel.empty] at hrole
  | @tail b c hb hx ih =>
    obtain ⟨what, hn⟩ := hx
    cases Next.telling hb hn with
    | silent roles statuses received =>
      rw [statuses, received]
      exact ih (roles ▸ hrole)
    | subscribed callback roles statuses received =>
      rw [statuses, received]
      rw [roles, List.getElem?_append] at hrole
      split at hrole
      · exact ih hrole
      · rename_i hnew
        rw [List.getElem?_singleton] at hrole
        split at hrole
        · cases hrole
          rw [Reached.statuses_absent hb (Nat.le_of_not_lt hnew),
            Reached.unheard hb (Nat.le_refl _), List.map_nil]
        · cases hrole
    | called k u v callback caller roles statuses received =>
      rw [roles] at hrole
      rw [statuses, received, List.map_append, ih hrole]
      by_cases hu : u = widget
      · subst hu
        rw [hrole] at caller
        cases caller
        rw [if_pos rfl, if_pos rfl]
        rfl
      · have hk : handle ≠ k := by
          intro he
          subst he
          obtain ⟨w, hw, hhandle, _⟩ := roles_eq_some.mp hrole
          obtain ⟨w', hw', hhandle', _⟩ := roles_eq_some.mp caller
          exact hu (Reached.distinct_at hb hw' hw (hhandle'.trans hhandle.symm))
        rw [if_neg hu, if_neg hk, List.map_nil]

end Scene

end Panel

end ChannelFeed
