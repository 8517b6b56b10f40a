import ChannelFeed.Proofs.Panel.Aligned

namespace ChannelFeed.Panel

/-- Whether it takes out the subscription with a handle that its subscriber subscribes, that the handle
is unsubscribed, that its guard is let go of, or that its callback fails. -/
def Happening.ends (handle : Nat) (subscriber : String) : Happening → Prop
  | subscribed s _ => s = subscriber
  | unsubscribed k => k = handle
  | letGo k => k = handle
  | muted k => k = handle
  | _ => False

/-- The delivery and the handle, if a delivery primes or calls one. -/
def Happening.turn? : Happening → Option (Nat × Nat)
  | primed delivery handle => some (delivery, handle)
  | called delivery handle _ => some (delivery, handle)
  | _ => none

def Happening.issued? : Happening → Option Nat
  | subscribed _ handle => some handle
  | _ => none

def Happening.callee? : Happening → Option Nat
  | called _ handle _ => some handle
  | _ => none

/-- The widgets whose callbacks have started, in the order of their calls. -/
def callers (p : Panel) : List Nat :=
  p.journal.filterMap (fun delivery =>
    match delivery with
    | .called widget _ _ => some widget
    | .decoded widget _ => some widget
    | .replied .. => none)

/-- What happened at a point of a history. -/
def At (past : History) (i : Nat) (what : Happening) : Prop := ∃ p, past[i]? = some ⟨what, p⟩

theorem At.lt {past : History} {i : Nat} {what : Happening} (h : At past i what) :
    i < past.length := by
  obtain ⟨p, hp⟩ := h
  exact (List.getElem?_eq_some_iff.mp hp).1

theorem at_append {past : History} {m : Moment} {i : Nat} {what : Happening} :
    At (past ++ [m]) i what ↔ At past i what ∨ (i = past.length ∧ what = m.what) := by
  unfold At
  rw [List.getElem?_append]
  split
  · rename_i hi
    simp [Nat.ne_of_lt hi]
  · rename_i hi
    have hnone : past[i]? = none := List.getElem?_eq_none (Nat.le_of_not_lt hi)
    rw [hnone, List.getElem?_singleton]
    obtain ⟨w, p⟩ := m
    by_cases hlen : i = past.length
    · simp [hlen, eq_comm]
    · have hpos : ¬ i - past.length = 0 := by omega
      simp [hlen, hpos]

namespace Scene

variable {a b : Scene} {what : Option Happening}

def next (sc : Scene) : Nat := sc.panel.dispatcher.registry.nextHandle

def slot? (sc : Scene) (handle : Nat) : Option Slot := sc.panel.dispatcher.slots.get? handle

theorem letGo_eq {p q : Panel} {widget : Nat} {w : Widget} {live : Bool}
    (hp : p.present = true) (hw : p.widgets[widget]? = some w)
    (hgone : p.letGo widget = some (q, live)) :
    q = ((p.modifyWidget widget (fun w => { w with guarded := false })).unsubscribe
      w.handle).1 := by
  unfold Panel.letGo at hgone
  rw [hw] at hgone
  dsimp only at hgone
  split at hgone
  · have hpresent : (p.modifyWidget widget (fun w => { w with guarded := false })).present =
        true := hp
    rw [if_pos hpresent] at hgone
    exact (congrArg Prod.fst (Option.some.inj hgone)).symm
  · cases hgone

/-- What a step makes of the slot of a handle, if there is one. A new slot is that of a new widget. -/
inductive Fate (what : Option Happening) (fresh handle : Nat) :
    Option Slot → Option Slot → Prop where
  | none : Fate what fresh handle none none
  | same {slot : Slot} (goes : ∀ w, what = some w → ¬ w.ends handle slot.subscriber) :
      Fate what fresh handle (some slot) (some slot)
  | primed {slot : Slot} {delivery : Nat} (is : what = some (.primed delivery handle)) :
      Fate what fresh handle (some slot) (some { slot with primed := true })
  | muted {slot : Slot} (is : what = some (.muted handle)) :
      Fate what fresh handle (some slot) (some { slot with active := false })
  | ended {slot : Slot} {w : Happening} (is : what = some w) (ends : w.ends handle slot.subscriber) :
      Fate what fresh handle (some slot) none
  | made {slot : Slot} (is : what = some (.subscribed slot.subscriber handle))
      (waits : slot.primed = false) (seat : slot.widget = fresh) : Fate what fresh handle none (some slot)

/-- A step that ends no subscription of a handle, whoever subscribed it. -/
theorem Fate.spared {fresh handle : Nat} (slot : Option Slot)
    (h : ∀ w, what = some w → ∀ s, ¬ w.ends handle s) : Fate what fresh handle slot slot := by
  cases slot with
  | none => exact .none
  | some slot => exact .same (fun w hw => h w hw _)

theorem fate_install {d : Dispatcher} (hd : d.Paired) (subscriber : String)
    (component : Option String) (addresses : List Address) (widget handle : Nat) :
    Fate (some (.subscribed subscriber d.registry.nextHandle)) widget handle (d.slots.get? handle)
      ((d.install subscriber component addresses widget).1.slots.get? handle) := by
  rw [Dispatcher.install_get? hd.sound]
  split
  · rename_i hfresh
    have hnone : d.slots.get? handle = none := by
      rw [Option.eq_none_iff_forall_ne_some]
      intro slot hs
      have hissued := hd.sound.issued _ _ (hd.entry handle slot hs)
      exact Nat.ne_of_lt hissued hfresh.1
    rw [hnone, ← hfresh.1]
    exact .made rfl rfl rfl
  · cases hs : d.slots.get? handle with
    | none => exact .none
    | some slot =>
      by_cases hsub : slot.subscriber = subscriber
      · rw [Option.filter_some, if_neg (by simp [hsub])]
        exact .ended rfl hsub.symm
      · rw [Option.filter_some, if_pos (by simp [hsub])]
        exact .same (fun w hw he => by cases hw; exact hsub he.symm)

theorem fate_unsubscribe (d : Dispatcher) {k fresh handle : Nat} {w : Happening}
    (hends : ∀ s, w.ends handle s ↔ k = handle) :
    Fate (some w) fresh handle (d.slots.get? handle) ((d.unsubscribe k).1.slots.get? handle) := by
  rw [Dispatcher.unsubscribe_get?]
  by_cases hk : handle = k
  · rw [if_pos hk]
    cases d.slots.get? handle with
    | none => exact .none
    | some slot => exact .ended rfl ((hends _).mpr hk.symm)
  · rw [if_neg hk]
    refine .spared _ (fun w' hw s he => ?_)
    cases hw
    exact hk ((hends s).mp he).symm

theorem fate_adjust (d : Dispatcher) {k fresh handle : Nat} {f : Slot → Slot} {w : Happening}
    (hf : k = handle → ∀ slot, Fate (some w) fresh handle (some slot) (some (f slot)))
    (hother : k ≠ handle → ∀ s, ¬ w.ends handle s) :
    Fate (some w) fresh handle (d.slots.get? handle) ((d.adjust k f).slots.get? handle) := by
  rw [Dispatcher.adjust_get?]
  by_cases hk : handle = k
  · rw [if_pos hk]
    cases d.slots.get? handle with
    | none => exact .none
    | some slot => exact hf hk.symm slot
  · rw [if_neg hk]
    refine .spared _ (fun w' hw s => ?_)
    cases hw
    exact hother (Ne.symm hk) s

theorem Next.fate (ha : a.Reached) (h : Next a what b) (handle : Nat) :
    Fate what a.panel.widgets.length handle (a.slot? handle) (b.slot? handle) := by
  unfold slot?
  cases h with
  | subscribe => exact fate_install ha.paired _ _ _ _ handle
  | unsubscribe => exact fate_unsubscribe _ (fun _ => .rfl)
  | letGo present held gone =>
    rw [add_panel, letGo_eq present held gone]
    exact fate_unsubscribe a.panel.dispatcher (fun _ => .rfl)
  | prime =>
    exact fate_adjust _ (fun hk _ => .primed (by rw [hk])) (fun _ _ he => by cases he)
  | mute =>
    exact fate_adjust _ (fun hk _ => .muted (by rw [hk])) (fun hk _ he => hk he)
  | call =>
    rw [add_panel, call_dispatcher]
    exact .spared _ (fun w hw s he => by cases hw; cases he)
  | finish => exact .spared _ (fun w hw s he => by cases hw; cases he)
  | merge | unattend | reply | begin | pass => exact .spared _ (fun w hw => by cases hw)

/-- What a step leaves of a slot: it was there, for the same subscriber, and is no more active or
primed than it was, unless it was primed just now; nor is it active if the step ends its
subscription. -/
structure Remains (what : Option Happening) (handle : Nat) (before after : Slot) : Prop where
  subscriber : after.subscriber = before.subscriber
  active : after.active = true → before.active = true
  primed : after.primed = true →
    before.primed = true ∨ ∃ delivery, what = some (.primed delivery handle)
  ended : ∀ w, what = some w → w.ends handle before.subscriber → after.active = false

theorem Next.slot (ha : a.Reached) (h : Next a what b) {handle : Nat} {slot : Slot}
    (hs : b.slot? handle = some slot) :
    (∃ before, a.slot? handle = some before ∧ Remains what handle before slot) ∨
      (what = some (.subscribed slot.subscriber handle) ∧ slot.primed = false) := by
  have hfate := h.fate ha handle
  rw [hs] at hfate
  generalize a.slot? handle = before at hfate
  cases hfate with
  | same goes =>
    exact .inl ⟨slot, rfl, rfl, id, .inl, fun w hw he => absurd he (goes w hw)⟩
  | @primed before delivery is =>
    exact .inl ⟨before, rfl, rfl, id, fun _ => .inr ⟨delivery, is⟩, fun w hw he => by
      rw [is] at hw
      cases hw
      cases he⟩
  | @muted before is =>
    exact .inl ⟨before, rfl, rfl, fun hx => absurd hx Bool.false_ne_true, .inl, fun _ _ _ => rfl⟩
  | made is waits _ => exact .inr ⟨is, waits⟩

theorem kept_issued (n : Nat) : Dispatcher.Kept (fun d => n ≤ d.registry.nextHandle) where
  install d subscriber component addresses widget h := by
    rw [Dispatcher.install_registry, Registry.register_eq, Registry.insert_nextHandle]
    omega
  unsubscribe d handle h := by
    rw [Dispatcher.unsubscribe_registry, Registry.unregister_nextHandle]
    exact h
  merge _ _ h := h
  prime d handle h := by
    rw [Dispatcher.prime, Dispatcher.adjust_registry]
    exact h
  mute d handle h := by
    rw [Dispatcher.mute, Dispatcher.adjust_registry]
    exact h

theorem Next.next_le (h : Next a what b) : a.next ≤ b.next :=
  h.kept (kept_issued a.next) (Nat.le_refl _)

theorem Next.subscribed {s : String} {handle : Nat}
    (h : Next a (some (.subscribed s handle)) b) : handle = a.next ∧ b.next = a.next + 1 := by
  cases h with
  | subscribe _ component addresses callback =>
    refine ⟨rfl, ?_⟩
    have hregistry := Dispatcher.install_registry a.panel.dispatcher s component addresses
      a.panel.widgets.length
    have hnext := congrArg Registry.nextHandle hregistry
    rw [Registry.register_eq, Registry.insert_nextHandle] at hnext
    exact hnext

theorem Next.turns (h : Next a what b) {round : Round} (hr : round ∈ b.rounds) {k : Nat}
    (hk : k ∈ round.turns) :
    (∃ before ∈ a.rounds, before.began = round.began ∧ k ∈ before.turns) ∨
      (round.began = a.past.length ∧ k ∈ a.panel.dispatcher.slots.keys) := by
  cases h with
  | begin =>
    rcases List.mem_cons.mp hr with rfl | hr
    · exact .inr ⟨rfl, hk⟩
    · exact .inl ⟨round, hr, rfl, hk⟩
  | pass going turn =>
    rw [going]
    rcases List.mem_cons.mp hr with rfl | hr
    · refine .inl ⟨_, List.mem_cons_self, rfl, ?_⟩
      rw [turn]
      exact List.mem_cons_of_mem _ hk
    · exact .inl ⟨round, List.mem_cons_of_mem _ hr, rfl, hk⟩
  | finish going =>
    rw [going]
    exact .inl ⟨round, List.mem_cons_of_mem _ hr, rfl, hk⟩
  | _ => exact .inl ⟨round, hr, rfl, hk⟩

/-- A turn belongs to a delivery that is going on. -/
theorem Next.turn_of {w : Happening} (h : Next a (some w) b) {delivery handle : Nat}
    (hw : w.turn? = some (delivery, handle)) :
    ∃ round ∈ a.rounds, round.began = delivery ∧ handle ∈ round.turns := by
  cases h with
  | prime going turn =>
    cases hw
    rw [going]
    refine ⟨_, List.mem_cons_self, rfl, ?_⟩
    rw [turn]
    exact List.mem_cons_self
  | call going turn =>
    cases hw
    rw [going]
    refine ⟨_, List.mem_cons_self, rfl, ?_⟩
    rw [turn]
    exact List.mem_cons_self
  | _ => cases hw

theorem Next.called_active {delivery handle : Nat} {v : View}
    (h : Next a (some (.called delivery handle v)) b) :
    ∃ slot, a.slot? handle = some slot ∧ slot.active = true := by
  cases h with
  | call _ _ due =>
    obtain ⟨hs, hactive, _⟩ := Dispatcher.due?_eq_some.mp due
    exact ⟨_, hs, hactive⟩

/-- What the history of a scene says of its slots, of the turns that are to come and of itself. -/
structure Silences (sc : Scene) : Prop where
  issued : ∀ i s handle, At sc.past i (.subscribed s handle) → handle < sc.next
  owner : ∀ i s handle slot, At sc.past i (.subscribed s handle) →
    sc.slot? handle = some slot → slot.subscriber = s
  ended : ∀ i j s handle what slot, At sc.past i (.subscribed s handle) → At sc.past j what →
    i < j → what.ends handle s → sc.slot? handle = some slot → slot.active = false
  primed : ∀ handle slot, sc.slot? handle = some slot → slot.primed = true →
    ∃ k delivery, At sc.past k (.primed delivery handle)
  /-- Whose turn is to come was there when the delivery began. -/
  turns : ∀ round ∈ sc.rounds, ∀ handle ∈ round.turns, handle < sc.next ∧
    ∀ i s, At sc.past i (.subscribed s handle) → i < round.began
  called : ∀ i j k s handle what delivery v, At sc.past i (.subscribed s handle) →
    At sc.past j what → i < j → what.ends handle s →
    At sc.past k (.called delivery handle v) → k < j
  /-- Whose turn came was there when the delivery began. -/
  since : ∀ k what delivery handle, At sc.past k what → what.turn? = some (delivery, handle) →
    handle < sc.next ∧ ∀ i s, At sc.past i (.subscribed s handle) → i < delivery

theorem silences_start : Silences start where
  issued _ _ _ hi := nomatch hi.lt
  owner _ _ _ _ hi := nomatch hi.lt
  ended _ _ _ _ _ _ hi := nomatch hi.lt
  primed _ _ hs := nomatch hs
  turns _ hr := nomatch hr
  called _ _ _ _ _ _ _ _ hi := nomatch hi.lt
  since _ _ _ _ hk := nomatch hk.lt

theorem Reached.slot_issued (h : a.Reached) {handle : Nat} {slot : Slot}
    (hs : a.slot? handle = some slot) : handle < a.next :=
  h.paired.sound.issued _ _ (h.paired.entry handle slot hs)

theorem Next.at_iff (h : Next a what b) {i : Nat} {w : Happening} :
    At b.past i w ↔ At a.past i w ∨ (i = a.past.length ∧ what = some w) := by
  rw [h.past]
  cases what with
  | none => simp
  | some what =>
    rw [Option.map_some, Option.toList_some, at_append, Option.some.injEq, eq_comm (a := w)]

/-- A subscription whose handle was given out before is not of this step. -/
theorem Next.at_subscribed (h : Next a what b) {i : Nat} {s : String} {handle : Nat}
    (hi : At b.past i (.subscribed s handle)) (hold : handle < a.next) :
    At a.past i (.subscribed s handle) := by
  rcases h.at_iff.mp hi with hi | ⟨_, rfl⟩
  · exact hi
  · exact absurd h.subscribed.1 (Nat.ne_of_lt hold)

variable {i j k delivery handle : Nat} {subscriber : String} {slot : Slot} {w : Happening}

theorem Silences.next_issued (s : Silences a) (h : Next a what b)
    (hi : At b.past i (.subscribed subscriber handle)) : handle < b.next := by
  rcases h.at_iff.mp hi with hi | ⟨_, rfl⟩
  · exact Nat.lt_of_lt_of_le (s.issued i subscriber handle hi) h.next_le
  · obtain ⟨hhandle, hnext⟩ := h.subscribed
    omega

theorem Silences.next_owner (s : Silences a) (ha : a.Reached) (h : Next a what b)
    (hi : At b.past i (.subscribed subscriber handle)) (hs : b.slot? handle = some slot) :
    slot.subscriber = subscriber := by
  rcases h.slot ha hs with ⟨before, hbefore, hrem⟩ | ⟨rfl, _⟩
  · have hold := h.at_subscribed hi (ha.slot_issued hbefore)
    rw [hrem.subscriber]
    exact s.owner i subscriber handle before hold hbefore
  · rcases h.at_iff.mp hi with hi | ⟨_, hw⟩
    · have hlt := s.issued i subscriber handle hi
      have hfresh := h.subscribed.1
      omega
    · cases hw
      rfl

theorem Silences.next_ended (s : Silences a) (ha : a.Reached) (h : Next a what b)
    (hi : At b.past i (.subscribed subscriber handle)) (hj : At b.past j w)
    (hij : i < j) (hw : w.ends handle subscriber) (hs : b.slot? handle = some slot) :
    slot.active = false := by
  have hfirst : At a.past i (.subscribed subscriber handle) := by
    rcases h.at_iff.mp hi with hi | ⟨hlen, _⟩
    · exact hi
    · have hlast : j ≤ a.past.length := by
        rcases h.at_iff.mp hj with hj | ⟨hj, _⟩
        · exact Nat.le_of_lt hj.lt
        · exact Nat.le_of_eq hj
      omega
  have hlt := s.issued i subscriber handle hfirst
  rcases h.slot ha hs with ⟨before, hbefore, hrem⟩ | ⟨rfl, _⟩
  · rcases h.at_iff.mp hj with hj | ⟨_, hwhat⟩
    · have hstill := s.ended i j subscriber handle w before hfirst hj hij hw hbefore
      cases hactive : slot.active with
      | false => rfl
      | true => exact absurd (hrem.active hactive) (by simp [hstill])
    · rw [← s.owner i subscriber handle before hfirst hbefore] at hw
      exact hrem.ended w hwhat hw
  · have hfresh := h.subscribed.1
    omega

theorem Silences.next_primed (s : Silences a) (ha : a.Reached) (h : Next a what b)
    (hs : b.slot? handle = some slot) (hp : slot.primed = true) :
    ∃ k delivery, At b.past k (.primed delivery handle) := by
  rcases h.slot ha hs with ⟨before, hbefore, hrem⟩ | ⟨_, hwaiting⟩
  · rcases hrem.primed hp with hp | ⟨delivery, hnow⟩
    · obtain ⟨k, delivery, hk⟩ := s.primed handle before hbefore hp
      exact ⟨k, delivery, h.at_iff.mpr (.inl hk)⟩
    · exact ⟨a.past.length, delivery, h.at_iff.mpr (.inr ⟨rfl, hnow⟩)⟩
  · rw [hwaiting] at hp
    cases hp

theorem Silences.next_turns (s : Silences a) (ha : a.Reached) (h : Next a what b) {round : Round}
    (hr : round ∈ b.rounds) (hk : handle ∈ round.turns) :
    handle < b.next ∧ ∀ i t, At b.past i (.subscribed t handle) → i < round.began := by
  rcases h.turns hr hk with ⟨before, hbefore, hbegan, hturn⟩ | ⟨hbegan, hkey⟩
  · obtain ⟨hlt, hsince⟩ := s.turns before hbefore handle hturn
    refine ⟨Nat.lt_of_lt_of_le hlt h.next_le, ?_⟩
    intro i t hi
    rw [← hbegan]
    exact hsince i t (h.at_subscribed hi hlt)
  · obtain ⟨slot, hs⟩ := SortedMap.mem_keys_iff.mp hkey
    have hlt := ha.slot_issued hs
    refine ⟨Nat.lt_of_lt_of_le hlt h.next_le, ?_⟩
    intro i t hi
    rw [hbegan]
    exact (h.at_subscribed hi hlt).lt

theorem Silences.next_called (s : Silences a) (h : Next a what b) {v : View}
    (hi : At b.past i (.subscribed subscriber handle))
    (hj : At b.past j w) (hij : i < j) (hw : w.ends handle subscriber)
    (hk : At b.past k (.called delivery handle v)) : k < j := by
  rcases h.at_iff.mp hk with hk | ⟨_, rfl⟩
  · rcases h.at_iff.mp hj with hj | ⟨rfl, _⟩
    · rcases h.at_iff.mp hi with hi | ⟨rfl, _⟩
      · exact s.called i j k subscriber handle w delivery v hi hj hij hw hk
      · have hlast := hj.lt
        omega
    · exact hk.lt
  · -- a call that starts now, after its subscription has ended
    exfalso
    have hfirst : At a.past i (.subscribed subscriber handle) := by
      rcases h.at_iff.mp hi with hi | ⟨_, hwhat⟩
      · exact hi
      · cases hwhat
    have hlast : At a.past j w := by
      rcases h.at_iff.mp hj with hj | ⟨_, hwhat⟩
      · exact hj
      · cases hwhat
        cases hw
    obtain ⟨slot, hs, hactive⟩ := h.called_active
    have hsilent := s.ended i j subscriber handle w slot hfirst hlast hij hw hs
    rw [hsilent] at hactive
    cases hactive

theorem Silences.next_since (s : Silences a) (h : Next a what b)
    (hk : At b.past k w) (hw : w.turn? = some (delivery, handle)) :
    handle < b.next ∧ ∀ i t, At b.past i (.subscribed t handle) → i < delivery := by
  have hbefore : handle < a.next ∧
      ∀ i t, At a.past i (.subscribed t handle) → i < delivery := by
    rcases h.at_iff.mp hk with hk | ⟨_, rfl⟩
    · exact s.since k w delivery handle hk hw
    · obtain ⟨round, hr, rfl, hturn⟩ := h.turn_of hw
      exact s.turns round hr handle hturn
  obtain ⟨hlt, hsince⟩ := hbefore
  exact ⟨Nat.lt_of_lt_of_le hlt h.next_le, fun i t hi => hsince i t (h.at_subscribed hi hlt)⟩

theorem Silences.next (s : Silences a) (ha : a.Reached) (h : Next a what b) : Silences b where
  issued _ _ _ hi := s.next_issued h hi
  owner _ _ _ _ hi hs := s.next_owner ha h hi hs
  ended _ _ _ _ _ _ hi hj hij hw hs := s.next_ended ha h hi hj hij hw hs
  primed _ _ hs hp := s.next_primed ha h hs hp
  turns _ hr _ hk := s.next_turns ha h hr hk
  called _ _ _ _ _ _ _ _ hi hj hij hw hk := s.next_called h hi hj hij hw hk
  since _ _ _ _ hk hw := s.next_since h hk hw

theorem Reached.silences (ha : a.Reached) : Silences a := by
  induction ha with
  | refl => exact silences_start
  | tail hb hx ih =>
    obtain ⟨_, hn⟩ := hx
    exact ih.next hb hn

/-- A slot that is primed at some moment was primed by a delivery until then. -/
theorem Reached.primed_by (ha : a.Reached) {n : Nat} {m : Moment} (hm : a.past[n]? = some m)
    {handle : Nat} {slot : Slot} (hs : m.panel.dispatcher.slots.get? handle = some slot)
    (hp : slot.primed = true) : ∃ k delivery, k ≤ n ∧ At a.past k (.primed delivery handle) := by
  induction ha with
  | refl => cases hm
  | tail hb hx ih =>
    obtain ⟨what, hn⟩ := hx
    rw [hn.past, List.getElem?_append] at hm
    split at hm
    · obtain ⟨k, delivery, hle, hk⟩ := ih hm
      exact ⟨k, delivery, hle, hn.at_iff.mpr (.inl hk)⟩
    · rename_i hlast
      have hlater := Reached.next hb hn
      cases what with
      | none => cases hm
      | some w =>
        rw [Option.map_some, Option.toList_some, List.getElem?_singleton] at hm
        split at hm
        · cases hm
          obtain ⟨k, delivery, hk⟩ := hlater.silences.primed handle slot hs hp
          have hlt := hk.lt
          rw [hn.past, List.length_append] at hlt
          exact ⟨k, delivery, by simp at hlt; omega, hk⟩
        · cases hm

/-- A widget's callback starts, and its handle is that of the slot. -/
structure Told (sc : Scene) : Prop where
  seated : sc.panel.Seated
  callers : sc.panel.callers.map (fun widget => sc.panel.handles[widget]?) =
    (sc.past.filterMap (fun m => m.what.callee?)).map some

theorem startCall_handles (p : Panel) (widget : Nat) (w : Widget) (v : View) :
    (p.startCall widget w v).handles = p.handles := by
  have hsame := modifyWidget_handles p widget (f := fun w' => { w' with calls := w.calls + 1 })
    (fun _ => rfl)
  unfold startCall
  dsimp only
  split <;> exact hsame

theorem Next.handles (h : Next a what b) :
    b.panel.handles = a.panel.handles ++ (what.bind Happening.issued?).toList := by
  cases h with
  | subscribe subscriber component addresses callback =>
    have hhandle := Dispatcher.install_handle a.panel.dispatcher subscriber component addresses
      a.panel.widgets.length
    simp [Panel.subscribe, Panel.handles, note, hhandle, Happening.issued?]
  | letGo present held gone =>
    rename_i widget _ _ _
    rw [add_panel, letGo_eq present held gone]
    have hsame := modifyWidget_handles a.panel widget (f := fun w => { w with guarded := false })
      (fun _ => rfl)
    exact hsame.trans (List.append_nil _).symm
  | call =>
    rw [add_panel, startCall_handles]
    exact (List.append_nil _).symm
  | _ => exact (List.append_nil _).symm

theorem Next.callers (h : Next a what b) :
    (b.panel.callers = a.panel.callers ∧ what.bind Happening.callee? = none) ∨
      ∃ handle slot, what.bind Happening.callee? = some handle ∧ a.slot? handle = some slot ∧
        b.panel.callers = a.panel.callers ++ [slot.widget] := by
  cases h with
  | letGo present held gone =>
    rw [add_panel, letGo_eq present held gone]
    exact .inl ⟨rfl, rfl⟩
  | reply =>
    refine .inl ⟨?_, rfl⟩
    simp [Panel.callers, record]
  | call _ _ due _ held =>
    refine .inr ⟨_, _, rfl, (Dispatcher.due?_eq_some.mp due).1, ?_⟩
    unfold add startCall Panel.callers
    dsimp only
    split <;> simp [record, modifyWidget]
  | _ => exact .inl ⟨rfl, rfl⟩

theorem Told.next (t : Told a) (ha : a.Reached) (h : Next a what b) : Told b := by
  have hgrown : ∀ {i handle : Nat}, a.panel.handles[i]? = some handle →
      b.panel.handles[i]? = some handle := by
    intro i handle hi
    rw [h.handles, List.getElem?_append_left (List.getElem?_eq_some_iff.mp hi).1]
    exact hi
  have hcallers : a.panel.callers.map (fun widget => b.panel.handles[widget]?) =
      (a.past.filterMap (fun m => m.what.callee?)).map some := by
    rw [← t.callers]
    refine List.map_congr_left (fun widget hw => ?_)
    have hm := List.mem_map_of_mem (f := fun widget => a.panel.handles[widget]?) hw
    rw [t.callers] at hm
    obtain ⟨handle, _, hhandle⟩ := List.mem_map.mp hm
    rw [hgrown hhandle.symm, hhandle]
  refine ⟨?_, ?_⟩
  · intro handle slot hs
    have hseat := t.seated handle
    have hfate := h.fate ha handle
    unfold slot? at hfate
    rw [hs] at hfate
    generalize a.panel.dispatcher.slots.get? handle = before at hfate hseat
    cases hfate with
    | same => exact hgrown (hseat _ rfl)
    | @primed before => exact hgrown (hseat before rfl)
    | @muted before => exact hgrown (hseat before rfl)
    | made is _ seat =>
      have hlen : slot.widget = a.panel.handles.length := seat.trans (List.length_map _).symm
      rw [h.handles, hlen, is]
      exact List.getElem?_concat_length
  · rw [h.past, List.filterMap_append, List.map_append]
    rcases h.callers with ⟨hsame, hquiet⟩ | ⟨handle, slot, hcallee, hs, hmore⟩
    · rw [hsame, hcallers]
      cases what with
      | none => simp
      | some w =>
        have hw : w.callee? = none := hquiet
        simp [hw]
    · rw [hmore, List.map_append, hcallers]
      cases what with
      | none => cases hcallee
      | some w =>
        have hw : w.callee? = some handle := hcallee
        have hseat := hgrown (t.seated handle slot hs)
        simp [hw, hseat]

theorem Reached.told (ha : a.Reached) : Told a := by
  induction ha with
  | refl => exact ⟨(fun _ _ hs => nomatch hs), rfl⟩
  | tail hb hx ih =>
    obtain ⟨_, hn⟩ := hx
    exact ih.next hb hn

end Scene

/-- Whatever is done to a panel and whatever its callbacks do in the middle of a delivery: once the
subscription with a handle has ended, its callback is not started again, neither in the rest of the
deliveries that are going on then nor later. A delivery calls and primes none but the subscriptions
made before it began, and a slot that is primed at some moment was primed by a delivery until then.
The calls are those that the journal tells of. -/
theorem uses_call_standing_only (uses : List Use) :
    (∀ i j k subscriber handle what delivery v,
      At (historyOf uses) i (.subscribed subscriber handle) → At (historyOf uses) j what → i < j →
      what.ends handle subscriber →
      At (historyOf uses) k (.called delivery handle v) → k < j) ∧
    (∀ i k subscriber handle delivery, At (historyOf uses) i (.subscribed subscriber handle) →
      (At (historyOf uses) k (.primed delivery handle) ∨
        ∃ v, At (historyOf uses) k (.called delivery handle v)) → i < delivery) ∧
    (∀ n m handle slot, (historyOf uses)[n]? = some m →
      m.panel.dispatcher.slots.get? handle = some slot → slot.primed = true →
      ∃ k delivery, k ≤ n ∧ At (historyOf uses) k (.primed delivery handle)) ∧
    (used uses).callers.map (fun widget => (used uses).handles[widget]?) =
      ((historyOf uses).filterMap (fun m => m.what.callee?)).map some := by
  have hr := Scene.Reached.uses uses
  have hs := hr.silences
  refine ⟨hs.called, ?_, ?_, hr.told.callers⟩
  · intro i k subscriber handle delivery hi hk
    rcases hk with hk | ⟨v, hk⟩
    · exact (hs.since k _ delivery handle hk rfl).2 i subscriber hi
    · exact (hs.since k _ delivery handle hk rfl).2 i subscriber hi
  · intro n m handle slot hm hslot hp
    exact hr.primed_by hm hslot hp

-- The first callback takes the second subscription out and makes a third; neither has a turn.
example : (historyOf [
    .subscribe "a" none [⟨"c", "A"⟩] (.scripted [(1, [.unsubscribe 1,
      .subscribe "x" none [⟨"c", "A"⟩] []])]),
    .subscribe "b" none [⟨"c", "A"⟩] (.scripted []),
    .merge ⟨0, .ofList [(⟨"c", "A"⟩, none)]⟩,
    .command .republish]).map (fun m => (m.what.turn?, m.what.callee?)) =
      [(none, none), (none, none), (some (2, 1), none), (some (2, 1), some 1), (none, none),
        (none, none), (none, none)] := by decide

end ChannelFeed.Panel
