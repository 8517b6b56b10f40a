import ChannelFeed.Panel.Basic
import ChannelFeed.Proofs.Panel.Slots

namespace ChannelFeed

/-- A command that leaves the dispatcher alone and does not fail. -/
def Command.isQuiet : Command → Bool
  | view _ => true
  | refuse _ => true
  | _ => false

/-- A way to run commands that leaves a panel as it is where they are quiet. -/
def Panel.RunsQuietly (run : Panel → Command → Panel × Reply) : Prop :=
  ∀ p command, command.isQuiet = true → (run p command).1 = p

def Script.Quiet (script : Script) : Prop :=
  ∀ call, ∀ command ∈ script.at call, command.isQuiet = true

def Slot.afterTurn (g : Generation) (slot : Slot) : Slot :=
  { slot with primed := slot.primed || (slot.active && g.touchesAny slot.addresses) }

def Dispatcher.call? (d : Dispatcher) (g : Generation) (handle : Nat) : Option (Nat × View) :=
  (d.due? g handle).map (fun slot => (handle, ⟨g, slot.scope⟩))

theorem Dispatcher.due?_eq_some {d : Dispatcher} {g : Generation} {handle : Nat} {slot : Slot} :
    d.due? g handle = some slot ↔ d.slots.get? handle = some slot ∧ slot.active = true ∧
      (slot.primed = true ∨ g.touchesAny slot.addresses = true) := by
  simp [due?, Option.filter_eq_some_iff]

theorem Dispatcher.mem_call? {d : Dispatcher} {g : Generation} {k handle : Nat} {v : View} :
    d.call? g k = some (handle, v) ↔
      k = handle ∧ ∃ slot, d.due? g handle = some slot ∧ v = ⟨g, slot.scope⟩ := by
  simp only [call?, Option.map_eq_some_iff, Prod.mk.injEq]
  constructor
  · intro hx
    obtain ⟨slot, hd, rfl, rfl⟩ := hx
    exact ⟨rfl, slot, hd, rfl⟩
  · intro hx
    obtain ⟨rfl, slot, hd, rfl⟩ := hx
    exact ⟨slot, hd, rfl, rfl⟩

theorem Slot.afterTurn_eq_self {g : Generation} {slot : Slot}
    (h : (slot.active && g.touchesAny slot.addresses) = true → slot.primed = true) :
    slot.afterTurn g = slot := by
  cases slot
  simp only [afterTurn, Slot.mk.injEq, true_and, and_true, Bool.or_eq_left_iff_imp]
  exact h

theorem Dispatcher.afterTurn_idle {d : Dispatcher} {g : Generation} {handle : Nat}
    (h : d.due? g handle = none) :
    (d.slots.get? handle).map (Slot.afterTurn g) = d.slots.get? handle := by
  cases hs : d.slots.get? handle with
  | none => rfl
  | some slot =>
    refine congrArg some (Slot.afterTurn_eq_self (fun ht => ?_))
    obtain ⟨ha, ht⟩ := Bool.and_eq_true_iff.mp ht
    rw [due?_eq_some.mpr ⟨hs, ha, .inr ht⟩] at h
    cases h

theorem Dispatcher.afterTurn_due {d : Dispatcher} {g : Generation} {handle : Nat} {slot : Slot}
    (h : d.due? g handle = some slot) (k : Nat) :
    (if slot.primed then d else d.prime handle).slots.get? k =
      if k = handle then (d.slots.get? k).map (Slot.afterTurn g) else d.slots.get? k := by
  obtain ⟨hs, ha, hdue⟩ := due?_eq_some.mp h
  split
  · rename_i hprimed
    split
    · rename_i hk
      rw [hk, hs]
      exact congrArg some (Slot.afterTurn_eq_self (fun _ => hprimed)).symm
    · rfl
  · rename_i hprimed
    have htouched : g.touchesAny slot.addresses = true := hdue.resolve_left hprimed
    rw [prime, adjust_get?]
    split
    · rename_i hk
      rw [hk, hs]
      simp [Slot.afterTurn, ha, htouched]
    · rfl

namespace Panel

/-- The calls that a journal tells of, each under the handle of its widget. -/
def heardIn (handles : List Nat) (journal : List Delivery) : List (Nat × View) :=
  journal.filterMap (fun delivery =>
    match delivery with
    | .called widget _ v => (handles[widget]?).map (fun handle => (handle, v))
    | _ => none)

def handles (p : Panel) : List Nat := p.widgets.map Widget.handle

/-- The calls so far, each with the handle that was called and what it was given. -/
def heard (p : Panel) : List (Nat × View) := heardIn p.handles p.journal

/-- No callback touches the dispatcher. -/
def Quiet (p : Panel) : Prop :=
  ∀ w ∈ p.widgets, ∃ script, w.callback = .scripted script ∧ script.Quiet

/-- Every slot belongs to the widget of its handle. -/
def Seated (p : Panel) : Prop :=
  ∀ handle slot, p.dispatcher.slots.get? handle = some slot →
    p.handles[slot.widget]? = some handle

/-- The journal tells of no widget that is not there. -/
def Named (p : Panel) : Prop :=
  ∀ widget call v, .called widget call v ∈ p.journal → widget < p.widgets.length

/-- What the turns of some handles come to. -/
structure Delivered (g : Generation) (turns : List Nat) (p q : Panel) : Prop where
  registry : q.dispatcher.registry = p.dispatcher.registry
  generation : q.dispatcher.generation = p.dispatcher.generation
  slots : ∀ k, q.dispatcher.slots.get? k =
    if k ∈ turns then (p.dispatcher.slots.get? k).map (Slot.afterTurn g)
    else p.dispatcher.slots.get? k
  handles : q.handles = p.handles
  quiet : q.Quiet
  named : q.Named
  heard : q.heard = p.heard ++ turns.filterMap (p.dispatcher.call? g)

variable {p q r : Panel} {run : Panel → Command → Panel × Reply} {g : Generation}

theorem heardIn_append (handles : List Nat) (xs ys : List Delivery) :
    heardIn handles (xs ++ ys) = heardIn handles xs ++ heardIn handles ys := by
  simp [heardIn]

theorem heardIn_replies (handles : List Nat) (widget call : Nat) (replies : List Reply) :
    heardIn handles (replies.map (.replied widget call)) = [] := by
  simp [heardIn]

theorem exec_runsQuietly (fuel : Nat) : RunsQuietly (exec fuel) := by
  intro p command hq
  cases fuel with
  | zero => rfl
  | succ fuel =>
    cases command with
    | view subscriber =>
      simp only [exec]
      split <;> rfl
    | refuse fault => rfl
    | _ => cases hq

theorem runCommands_cons {command : Command} {rest : List Command} {widget call : Nat}
    (hne : command ≠ .panic) : runCommands run widget call p (command :: rest) =
      runCommands run widget call
        ((run p command).1.record (.replied widget call (run p command).2)) rest := by
  cases command <;> first | rfl | exact absurd rfl hne

theorem runCommands_quiet (hrun : RunsQuietly run) (widget call : Nat)
    (commands : List Command) (p : Panel) (hq : ∀ command ∈ commands, command.isQuiet = true) :
    ∃ replies : List Reply, runCommands run widget call p commands =
      ({ p with journal := p.journal ++ replies.map (.replied widget call) }, false) := by
  induction commands generalizing p with
  | nil => exact ⟨[], by simp [runCommands]⟩
  | cons command rest ih =>
    have hhead := hq command List.mem_cons_self
    obtain ⟨replies, hrest⟩ := ih (p.record (.replied widget call (run p command).2))
      (fun c hc => hq c (List.mem_cons_of_mem _ hc))
    have hne : command ≠ .panic := fun he => by simp [he, Command.isQuiet] at hhead
    refine ⟨(run p command).2 :: replies, ?_⟩
    rw [runCommands_cons hne, hrun p command hhead, hrest]
    simp [record]

theorem callBack_quiet (hrun : RunsQuietly run) {w : Widget} {script : Script} {widget : Nat}
    (v : View) (hw : p.widgets[widget]? = some w) (hc : w.callback = .scripted script)
    (hq : script.Quiet) :
    ∃ replies : List Reply, callBack run p widget v =
      ({ p.modifyWidget widget (fun w' => { w' with calls := w.calls + 1 }) with
        journal := p.journal ++ .called widget (w.calls + 1) v ::
          replies.map (.replied widget (w.calls + 1)) }, false) := by
  obtain ⟨replies, hr⟩ := runCommands_quiet hrun widget (w.calls + 1) (script.at (w.calls + 1))
    ((p.modifyWidget widget (fun w' => { w' with calls := w.calls + 1 })).record
      (.called widget (w.calls + 1) v)) (hq _)
  refine ⟨replies, ?_⟩
  simp only [callBack, hw, hc, hr]
  simp [record, modifyWidget]

theorem modifyWidget_handles (p : Panel) (widget : Nat) {f : Widget → Widget}
    (hf : ∀ w, (f w).handle = w.handle) : (p.modifyWidget widget f).handles = p.handles := by
  refine List.ext_getElem? (fun i => ?_)
  simp only [handles, modifyWidget, List.getElem?_map, List.getElem?_modify]
  cases p.widgets[i]? with
  | none => rfl
  | some w => by_cases hi : widget = i <;> simp [hi, hf]

theorem modifyWidget_quiet (h : p.Quiet) (widget : Nat) {f : Widget → Widget}
    (hf : ∀ w, (f w).callback = w.callback) : (p.modifyWidget widget f).Quiet := by
  intro w hw
  obtain ⟨i, hi⟩ := List.mem_iff_getElem?.mp hw
  simp only [modifyWidget, List.getElem?_modify] at hi
  obtain ⟨w', hw', he⟩ := Option.map_eq_some_iff.mp hi
  obtain ⟨script, hc, hs⟩ := h w' (List.mem_of_getElem? hw')
  refine ⟨script, ?_, hs⟩
  rw [← he]
  split
  · exact (hf w').trans hc
  · exact hc

theorem Seated.widget (h : p.Seated) {handle : Nat} {slot : Slot}
    (hs : p.dispatcher.slots.get? handle = some slot) :
    ∃ w, p.widgets[slot.widget]? = some w ∧ w.handle = handle := by
  have hw := h handle slot hs
  simp only [handles, List.getElem?_map, Option.map_eq_some_iff] at hw
  exact hw

/-- The turn of a slot that is due: it is primed and its callback is called. -/
theorem deliver_due (hrun : RunsQuietly run) (hq : p.Quiet) (hs : p.Seated) {handle : Nat}
    {slot : Slot} (hd : p.dispatcher.due? g handle = some slot) :
    ∃ (calls : Nat) (notes : List Note) (replies : List Reply), deliver run g p handle =
      { p.modifyWidget slot.widget (fun w => { w with calls }) with
        dispatcher := if slot.primed then p.dispatcher else p.dispatcher.prime handle
        journal := p.journal ++ .called slot.widget calls ⟨g, slot.scope⟩ ::
          replies.map (.replied slot.widget calls)
        notes } := by
  obtain ⟨w, hw, _⟩ := hs.widget (Dispatcher.due?_eq_some.mp hd).1
  obtain ⟨script, hc, hscript⟩ := hq w (List.mem_of_getElem? hw)
  unfold deliver
  simp only [hd]
  split
  · obtain ⟨replies, hcall⟩ := callBack_quiet hrun (p := p) ⟨g, slot.scope⟩ hw hc hscript
    refine ⟨w.calls + 1, p.notes, replies, ?_⟩
    simp [hcall, modifyWidget]
  · obtain ⟨replies, hcall⟩ := callBack_quiet hrun
      (p := { p with dispatcher := p.dispatcher.prime handle }.note
        [.primed slot.subscriber handle]) ⟨g, slot.scope⟩ hw hc hscript
    refine ⟨w.calls + 1, p.notes ++ [.primed slot.subscriber handle], replies, ?_⟩
    simp only [hcall]
    simp [modifyWidget, note]

theorem deliver_delivered (hrun : RunsQuietly run) (hq : p.Quiet) (hs : p.Seated)
    (hn : p.Named) (g : Generation) (handle : Nat) :
    Delivered g [handle] p (deliver run g p handle) := by
  cases hd : p.dispatcher.due? g handle with
  | none =>
    have hidle : deliver run g p handle = p := by
      unfold deliver
      simp only [hd]
    rw [hidle]
    refine ⟨rfl, rfl, fun k => ?_, rfl, hq, hn, ?_⟩
    · split
      · rename_i hk
        rw [List.mem_singleton.mp hk, Dispatcher.afterTurn_idle hd]
      · rfl
    · simp [Dispatcher.call?, hd]
  | some slot =>
    have hslot := (Dispatcher.due?_eq_some.mp hd).1
    have hseat := hs handle slot hslot
    obtain ⟨w, hw, _⟩ := hs.widget hslot
    obtain ⟨calls, notes, replies, hturn⟩ := deliver_due hrun hq hs hd
    have hhandles : (p.modifyWidget slot.widget (fun w => { w with calls })).handles = p.handles :=
      modifyWidget_handles p slot.widget (fun _ => rfl)
    rw [hturn]
    refine ⟨?_, ?_, fun k => ?_, hhandles, ?_, ?_, ?_⟩
    · dsimp only
      split
      · rfl
      · exact Dispatcher.adjust_registry _ _ _
    · dsimp only
      split
      · rfl
      · exact Dispatcher.adjust_generation _ _ _
    · simp only [List.mem_singleton]
      exact Dispatcher.afterTurn_due hd k
    · exact modifyWidget_quiet hq slot.widget (fun _ => rfl)
    · intro widget call v hm
      have hlen : (p.widgets.modify slot.widget (fun w => { w with calls })).length =
          p.widgets.length := List.length_modify ..
      refine Nat.lt_of_lt_of_eq ?_ hlen.symm
      simp only [List.mem_append, List.mem_cons, List.mem_map, reduceCtorEq, and_false,
        exists_false, or_false, Delivery.called.injEq] at hm
      rcases hm with hm | ⟨rfl, _⟩
      · exact hn widget call v hm
      · exact (List.getElem?_eq_some_iff.mp hw).1
    · have hone : heardIn p.handles (.called slot.widget calls ⟨g, slot.scope⟩ ::
          replies.map (.replied slot.widget calls)) = [(handle, ⟨g, slot.scope⟩)] := by
        have hreplies := heardIn_replies p.handles slot.widget calls replies
        rw [← List.singleton_append, heardIn_append, hreplies]
        simp [heardIn, hseat]
      refine (congrArg (fun hs => heardIn hs _) hhandles).trans ?_
      refine (heardIn_append p.handles p.journal _).trans ?_
      rw [hone]
      simp [heard, Dispatcher.call?, hd]

theorem Delivered.seated {turns : List Nat} (h : Delivered g turns p q) (hs : p.Seated) :
    q.Seated := by
  intro handle slot hslot
  rw [h.handles]
  rw [h.slots] at hslot
  split at hslot
  · obtain ⟨before, hbefore, rfl⟩ := Option.map_eq_some_iff.mp hslot
    exact hs handle before hbefore
  · exact hs handle slot hslot

theorem Delivered.cons {handle : Nat} {turns : List Nat} (h : Delivered g [handle] p q)
    (h' : Delivered g turns q r) (hnew : handle ∉ turns) : Delivered g (handle :: turns) p r where
  registry := h'.registry.trans h.registry
  generation := h'.generation.trans h.generation
  slots k := by
    rw [h'.slots, h.slots]
    simp only [List.mem_cons, List.not_mem_nil, or_false]
    by_cases hk : k = handle
    · subst hk
      simp [hnew]
    · simp [hk]
  handles := h'.handles.trans h.handles
  quiet := h'.quiet
  named := h'.named
  heard := by
    have hmap : turns.map (q.dispatcher.call? g) = turns.map (p.dispatcher.call? g) := by
      refine List.map_congr_left (fun k hk => ?_)
      have hne : k ∉ [handle] := fun hm => hnew (List.mem_singleton.mp hm ▸ hk)
      simp only [Dispatcher.call?, Dispatcher.due?, h.slots k, if_neg hne]
    have hsame := congrArg (List.filterMap id) hmap
    simp only [List.filterMap_map, Function.id_comp] at hsame
    rw [h'.heard, h.heard, hsame, List.append_assoc, ← List.filterMap_append,
      List.singleton_append]

/-- A delivery is one turn of each handle that has a slot. -/
theorem publish_delivered (hrun : RunsQuietly run) (hq : p.Quiet) (hs : p.Seated)
    (hn : p.Named) (g : Generation) :
    Delivered g p.dispatcher.slots.keys p (publish run p g) := by
  unfold publish
  have hnodup : p.dispatcher.slots.keys.Nodup := SortedMap.keys_nodup _
  generalize p.dispatcher.slots.keys = turns at hnodup
  induction turns generalizing p with
  | nil => exact ⟨rfl, rfl, fun _ => rfl, rfl, hq, hn, (List.append_nil _).symm⟩
  | cons handle rest ih =>
    obtain ⟨hnew, hrest⟩ := List.nodup_cons.mp hnodup
    have hfirst := deliver_delivered hrun hq hs hn g handle
    rw [List.foldl_cons]
    exact hfirst.cons (ih hfirst.quiet (hfirst.seated hs) hfirst.named hrest) hnew

/-- After a delivery every slot has had its turn. -/
theorem Delivered.slot (h : Delivered g p.dispatcher.slots.keys p q) (k : Nat) :
    q.dispatcher.slots.get? k = (p.dispatcher.slots.get? k).map (Slot.afterTurn g) := by
  rw [h.slots]
  split
  · rfl
  · rename_i hk
    cases hs : p.dispatcher.slots.get? k with
    | none => rfl
    | some slot =>
      exact absurd (SortedMap.mem_keys hs) hk

end Panel

namespace Dispatcher

variable (d : Dispatcher) (g : Generation)

theorem mem_calls (handle : Nat) (v : View) :
    (handle, v) ∈ d.slots.keys.filterMap (d.call? g) ↔
      ∃ slot, d.due? g handle = some slot ∧ v = ⟨g, slot.scope⟩ := by
  simp only [List.mem_filterMap, mem_call?]
  constructor
  · intro hx
    obtain ⟨k, _, _, hslot⟩ := hx
    exact hslot
  · intro hx
    obtain ⟨slot, hd, hv⟩ := hx
    have hs := (due?_eq_some.mp hd).1
    exact ⟨handle, SortedMap.mem_keys hs, rfl, slot, hd, hv⟩

/-- The calls of a delivery go in ascending order of the handles, to none of them twice. -/
theorem calls_ascending :
    ((d.slots.keys.filterMap (d.call? g)).map Prod.fst).Pairwise (· < ·) := by
  have hkeys : d.slots.keys.Pairwise (fun k k' => compare k k' = .lt) :=
    List.pairwise_map.mpr d.slots.ascending
  rw [List.pairwise_map, List.pairwise_filterMap]
  refine hkeys.imp ?_
  intro k k' hlt call hc call' hc'
  obtain ⟨rfl, _⟩ := mem_call?.mp (hc : d.call? g k = some (call.1, call.2))
  obtain ⟨rfl, _⟩ := mem_call?.mp (hc' : d.call? g k' = some (call'.1, call'.2))
  exact Nat.compare_eq_lt.mp hlt

theorem calls_of (handle : Nat) :
    (d.slots.keys.filterMap (d.call? g)).filter (fun c => c.1 == handle) =
      (d.call? g handle).toList := by
  have hfilter : ∀ keys : List Nat, (keys.filterMap (d.call? g)).filter (fun c => c.1 == handle) =
      (keys.filter (· == handle)).filterMap (d.call? g) := by
    intro keys
    rw [List.filter_filterMap, List.filterMap_filter]
    refine congrArg (List.filterMap · keys) (funext fun k => ?_)
    cases hc : d.call? g k with
    | none => simp
    | some call =>
      obtain ⟨rfl, _⟩ := mem_call?.mp (hc : d.call? g k = some (call.1, call.2))
      rfl
  rw [hfilter, List.filter_beq, d.slots.keys_nodup.count]
  split
  · cases hc : d.call? g handle <;> simp [hc]
  · rename_i hk
    cases hc : d.call? g handle with
    | none => rfl
    | some call =>
      obtain ⟨rfl, slot, hd, _⟩ := mem_call?.mp (hc : d.call? g handle = some (call.1, call.2))
      have hs := (due?_eq_some.mp hd).1
      exact absurd (SortedMap.mem_keys hs) hk

end Dispatcher

end ChannelFeed
