import ChannelFeed.Proofs.Generation.Values
import ChannelFeed.Proofs.Panel.Served
import ChannelFeed.Proofs.Wire.Readable
import ChannelFeed.Wire.Request

namespace ChannelFeed

def Request.texts (r : Request) : List String := r.channels.toList.map Address.text

/-- A frame answers a request if it reports exactly what was asked for, each channel with a scalar or
null. -/
structure Answers (text : String) (r : Request) (params : ReportParams) : Prop where
  read : Message.reportParams? text = some params
  keys : ∀ key, key ∈ params.values.map Prod.fst ↔ key ∈ r.texts
  scalar : ∀ e ∈ params.values, (Value.reported? e.2).isSome = true

variable {text : String} {r : Request} {params : ReportParams}

/-- What is said of a channel that was asked for. -/
theorem Answers.lastReport (h : Answers text r params) {a : Address} (ha : a ∈ r.channels) :
    ∃ value, Message.lastReport? params.values a.text = some value := by
  have hkey : a.text ∈ params.values.map Prod.fst :=
    (h.keys a.text).mpr (List.mem_map.mpr ⟨a, ha, rfl⟩)
  obtain ⟨e, he, hsame⟩ := List.mem_map.mp hkey
  obtain ⟨value, hvalue⟩ := Option.isSome_iff_exists.mp (h.scalar e he)
  unfold Message.lastReport?
  have hm : value ∈ params.values.filterMap
      (fun e => if e.1 = a.text then Value.reported? e.2 else none) :=
    List.mem_filterMap.mpr ⟨e, he, by rw [if_pos hsame, hvalue]⟩
  exact ⟨_, List.getLast?_eq_some_getLast (List.ne_nil_of_mem hm)⟩

def ReportParams.snapshot (params : ReportParams) : Snapshot :=
  ⟨params.sequence, (Message.reportedValues params.values).1⟩

theorem Answers.reports_iff (h : Answers text r params) {a : Address} (ha : a ∈ r.channels) :
    params.snapshot.reports a = true ↔ a.Readable := by
  obtain ⟨value, hvalue⟩ := h.lastReport ha
  unfold Snapshot.reports SortedMap.contains ReportParams.snapshot
  rw [Message.reportedValues_get?, hvalue]
  by_cases hreadable : a.Readable <;> simp [hreadable]

namespace Panel

open Scene

theorem foldl_logUse (uses : List Use) (past : History) (p : Panel) :
    (uses.foldl (fun (past, p) x => (logUse past p x, p.use x)) (past, p)).2 = uses.foldl use p := by
  induction uses generalizing past p with
  | nil => rfl
  | cons x rest ih => exact ih _ _

theorem historyOf_append (uses : List Use) (x : Use) :
    historyOf (uses ++ [x]) = logUse (historyOf uses) (used uses) x := by
  have hpanel := foldl_logUse uses [] .empty
  unfold historyOf used
  rw [List.foldl_append, ← hpanel]
  rfl

theorem used_append (uses : List Use) (x : Use) : used (uses ++ [x]) = (used uses).use x := by
  simp [used]

theorem used_present (uses : List Use) : (used uses).present = true :=
  (Scene.Reached.uses uses).present

def given (uses : List Use) (s : Snapshot) : Generation := (used uses).dispatcher.generation.next s

/-- What is done with a snapshot: it is merged, and the generation that it gives is delivered. -/
def published (uses : List Use) (s : Snapshot) : List Use :=
  uses ++ [.merge s] ++ [.deliver (given uses s)]

theorem published_serves (uses : List Use) (s : Snapshot) {handle : Nat} {slot : Slot}
    (hdue : (used uses).dispatcher.due? (given uses s) handle = some slot) :
    Served (historyOf (published uses s)) (historyOf uses).length (historyOf uses).length handle
      slot (given uses s) := by
  have hmerged : historyOf (uses ++ [.merge s]) = historyOf uses := historyOf_append uses (.merge s)
  have hr := Scene.Reached.uses (uses ++ [.merge s])
  have hdue' : (used (uses ++ [.merge s])).dispatcher.due? (given uses s) handle = some slot := by
    rw [used_append]
    exact hdue
  have hserved := (exec_runsStepwise ((used (uses ++ [.merge s])).depth + 1)).publish_serves hr
    (used_present _) hdue'
  unfold published
  rw [historyOf_append]
  rw [hmerged] at hserved ⊢
  exact hserved

theorem slot_wanted (uses : List Use) {handle : Nat} {slot : Slot}
    (hs : (used uses).dispatcher.slots.get? handle = some slot) {a : Address}
    (ha : a ∈ slot.addresses) : a ∈ (used uses).dispatcher.registry.union := by
  have hp := (Scene.Reached.uses uses).paired
  exact (hp.sound.mem_union a).mpr ⟨_, _, hp.entry handle slot hs, ha⟩

variable {uses : List Use} {handle : Nat} {slot : Slot}

theorem answer_touches (h : Answers text r params)
    (hr : r.channels = (used uses).dispatcher.registry.union)
    (hs : (used uses).dispatcher.slots.get? handle = some slot) :
    (given uses params.snapshot).touchesAny slot.addresses = true ↔
      ∃ a ∈ slot.addresses, a.Readable := by
  unfold given
  rw [Generation.next_touchesAny]
  refine exists_congr (fun a => and_congr_right (fun ha => ?_))
  exact h.reports_iff (hr ▸ slot_wanted uses hs ha)

theorem answer_due (h : Answers text r params)
    (hr : r.channels = (used uses).dispatcher.registry.union)
    (hs : (used uses).dispatcher.slots.get? handle = some slot) :
    (used uses).dispatcher.due? (given uses params.snapshot) handle = some slot ↔
      slot.active = true ∧ (slot.primed = true ∨ ∃ a ∈ slot.addresses, a.Readable) := by
  rw [Dispatcher.due?_eq_some, answer_touches h hr hs]
  exact and_iff_right hs

theorem answer_get? (params : ReportParams) (uses : List Use) (scope : Scope) (a : Address) :
    (View.mk (given uses params.snapshot) scope).get? a =
      if a.Readable then
        (Message.lastReport? params.values a.text).getD ((used uses).dispatcher.generation.get? a)
      else (used uses).dispatcher.generation.get? a := by
  unfold View.get? given
  rw [Generation.next_get?]
  have hvalue : params.snapshot.values.get? a =
      if a.Readable then Message.lastReport? params.values a.text else none :=
    Message.reportedValues_get? params.values a
  rw [hvalue]
  by_cases hreadable : a.Readable <;> simp [hreadable]

/-- An answer to a request for all that is wanted reaches exactly the readable addresses. Two channels
with one text are never both readable. Once the answer is merged and delivered, whoever has a slot is
due if it was primed before or has a readable address, and is not otherwise; whoever is due is called in
that delivery with what it gives, unless its subscription ends in the course of it; and each of its
addresses holds what was reported under its text, or what it held before if it is not readable. -/
theorem answer_reaches_readable (uses : List Use) (text : String) (r : Request)
    (params : ReportParams) (hr : r.channels = (used uses).dispatcher.registry.union)
    (h : Answers text r params) :
    (∀ a ∈ r.channels, ∀ b ∈ r.channels, a.text = b.text → a ≠ b → ¬ (a.Readable ∧ b.Readable)) ∧
    ∃ s, (Message.read text).message = .ok (.report s) ∧
      ∀ handle slot, (used uses).dispatcher.slots.get? handle = some slot →
        ((used uses).dispatcher.due? (given uses s) handle = some slot ↔
          slot.active = true ∧ (slot.primed = true ∨ ∃ a ∈ slot.addresses, a.Readable)) ∧
        (slot.active = true → (slot.primed = true ∨ ∃ a ∈ slot.addresses, a.Readable) →
          Served (historyOf (published uses s)) (historyOf uses).length (historyOf uses).length handle
            slot (given uses s)) ∧
        ∀ a ∈ slot.addresses, a.text ∈ r.texts ∧
          if a.Readable then ∃ value, Message.lastReport? params.values a.text = some value ∧
            (View.mk (given uses s) slot.scope).get? a = value
          else (View.mk (given uses s) slot.scope).get? a =
            (used uses).dispatcher.generation.get? a := by
  refine ⟨?_, params.snapshot, Message.read_eq_report.mpr ⟨params, h.read, rfl⟩, ?_⟩
  · intro a _ b _ htext hne hreadable
    exact hne (hreadable.1.text_injective hreadable.2 htext)
  · intro handle slot hs
    have hdue := answer_due h hr hs
    refine ⟨hdue, ?_, ?_⟩
    · intro hactive hready
      exact published_serves uses params.snapshot (hdue.mpr ⟨hactive, hready⟩)
    · intro a ha
      have hwanted : a ∈ r.channels := hr ▸ slot_wanted uses hs ha
      refine ⟨List.mem_map.mpr ⟨a, hwanted, rfl⟩, ?_⟩
      rw [answer_get?]
      split
      · rename_i hreadable
        obtain ⟨value, hvalue⟩ := h.lastReport hwanted
        exact ⟨value, hvalue, by rw [hvalue]; rfl⟩
      · rfl

/-- A subscriber of a readable address and one of an address whose component holds a slash. -/
def slashed : List Use :=
  [.subscribe "w" none [⟨"c", "A"⟩] (.scripted []),
    .subscribe "v" none [⟨"a/b", "c"⟩] (.scripted [])]

def slashedRequest : Request := ⟨⟨0, 1⟩, 1, (used slashed).dispatcher.registry.union⟩

def slashedAnswer : String :=
  "\x7b\"method\":\"currentData\",\"params\":\x7b\"sequence\":1," ++
    "\"currentData\":\x7b\"a/b/c\":5,\"c/A\":true\x7d\x7d\x7d"

def slashedParams : ReportParams := ⟨1, [("a/b/c", .number (.whole 5)), ("c/A", .bool true)]⟩

set_option maxRecDepth 20000 in
theorem slashed_answers : Answers slashedAnswer slashedRequest slashedParams where
  read := by rfl
  keys := by
    have htexts : slashedRequest.texts = ["a/b/c", "c/A"] := by decide
    intro key
    rw [htexts]
    rfl
  scalar := by decide

/-- The second subscriber asks for a text, the answer has it, and yet it is not due. -/
theorem slashed_unreached : slashedRequest.channels = (used slashed).dispatcher.registry.union ∧
    Answers slashedAnswer slashedRequest slashedParams ∧
    ∃ s, (Message.read slashedAnswer).message = .ok (.report s) ∧
      Served (historyOf (published slashed s)) 2 2 1
        ⟨"w", .of "c", .ofList [⟨"c", "A"⟩], false, true, 0⟩ (given slashed s) ∧
      "a/b/c" ∈ slashedRequest.texts ∧ (used slashed).dispatcher.due? (given slashed s) 2 = none := by
  obtain ⟨_, s, hread, hslots⟩ :=
    answer_reaches_readable slashed slashedAnswer slashedRequest slashedParams rfl slashed_answers
  refine ⟨rfl, slashed_answers, s, hread, ?_, by decide, ?_⟩
  · obtain ⟨_, hserved, _⟩ := hslots 1 _ rfl
    exact hserved rfl (.inr ⟨⟨"c", "A"⟩, by decide, by decide⟩)
  · obtain ⟨hdue, _, _⟩ := hslots 2 _ rfl
    cases hcall : (used slashed).dispatcher.due? (given slashed s) 2 with
    | none => rfl
    | some slot =>
      exfalso
      have hslot := (Dispatcher.due?_eq_some.mp hcall).1
      cases hslot
      obtain ⟨_, hprimed | ⟨a, ha, hreadable⟩⟩ := hdue.mp hcall
      · cases hprimed
      · have hsame := List.mem_singleton.mp ha
        rw [hsame] at hreadable
        revert hreadable
        decide

end Panel

end ChannelFeed
