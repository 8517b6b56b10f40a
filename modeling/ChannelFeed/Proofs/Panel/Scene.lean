import ChannelFeed.Proofs.Panel.History
import ChannelFeed.Proofs.Panel.Slots
import ChannelFeed.Proofs.Panel.Turn
import Mathlib.Logic.Relation

namespace ChannelFeed.Panel

/-- A delivery that is going on: how much had happened when it began, the generation that it delivers,
and the handles whose turn is not over. -/
structure Round where
  began : Nat
  generation : Generation
  turns : List Nat

structure Scene where
  past : History
  panel : Panel
  rounds : List Round

namespace Scene

def add (sc : Scene) (what : Happening) (p : Panel) : Scene :=
  { sc with past := sc.past ++ [⟨what, p⟩], panel := p }

@[simp] theorem add_panel (sc : Scene) (what : Happening) (p : Panel) :
    (sc.add what p).panel = p := rfl

@[simp] theorem add_past (sc : Scene) (what : Happening) (p : Panel) :
    (sc.add what p).past = sc.past ++ [⟨what, p⟩] := rfl

/-- The smallest changes of a scene, with what happens in them. -/
inductive Next : Scene → Option Happening → Scene → Prop where
  | subscribe (sc : Scene) (subscriber : String) (component : Option String)
      (addresses : List Address) (callback : Callback) :
      Next sc (some (.subscribed subscriber sc.panel.dispatcher.registry.nextHandle))
        (sc.add (.subscribed subscriber sc.panel.dispatcher.registry.nextHandle)
          (sc.panel.subscribe subscriber component addresses callback).1)
  | unsubscribe (sc : Scene) (handle : Nat) :
      Next sc (some (.unsubscribed handle))
        (sc.add (.unsubscribed handle) (sc.panel.unsubscribe handle).1)
  | letGo {sc : Scene} {widget : Nat} {w : Widget} {q : Panel} {live : Bool}
      (present : sc.panel.present = true) (held : sc.panel.widgets[widget]? = some w)
      (gone : sc.panel.letGo widget = some (q, live)) :
      Next sc (some (.letGo w.handle)) (sc.add (.letGo w.handle) q)
  | merge (sc : Scene) (s : Snapshot) : Next sc none { sc with panel := sc.panel.merge s }
  | unattend (sc : Scene) : Next sc none { sc with panel := sc.panel.unattend }
  | reply (sc : Scene) (widget call : Nat) (reply : Reply) :
      Next sc none { sc with panel := sc.panel.record (.replied widget call reply) }
  | begin (sc : Scene) (g : Generation) :
      Next sc none { sc with
        rounds := ⟨sc.past.length, g, sc.panel.dispatcher.slots.keys⟩ :: sc.rounds }
  | prime {sc : Scene} {round : Round} {outer : List Round} {handle : Nat} {turns : List Nat}
      {slot : Slot} (going : sc.rounds = round :: outer) (turn : round.turns = handle :: turns)
      (due : sc.panel.dispatcher.due? round.generation handle = some slot)
      (waiting : slot.primed = false) :
      Next sc (some (.primed round.began handle))
        (sc.add (.primed round.began handle) (sc.panel.primeSlot handle slot))
  | call {sc : Scene} {round : Round} {outer : List Round} {handle : Nat} {turns : List Nat}
      {slot : Slot} {w : Widget} (going : sc.rounds = round :: outer)
      (turn : round.turns = handle :: turns)
      (due : sc.panel.dispatcher.due? round.generation handle = some slot)
      (ready : slot.primed = true) (held : sc.panel.widgets[slot.widget]? = some w) :
      Next sc (some (.called round.began handle ⟨round.generation, slot.scope⟩))
        (sc.add (.called round.began handle ⟨round.generation, slot.scope⟩)
          (sc.panel.startCall slot.widget w ⟨round.generation, slot.scope⟩))
  | mute (sc : Scene) (handle : Nat) (slot : Slot) :
      Next sc (some (.muted handle)) (sc.add (.muted handle) (sc.panel.muteSlot handle slot))
  | pass {sc : Scene} {round : Round} {outer : List Round} {handle : Nat} {turns : List Nat}
      (going : sc.rounds = round :: outer) (turn : round.turns = handle :: turns) :
      Next sc none { sc with rounds := { round with turns } :: outer }
  | finish {sc : Scene} {round : Round} {outer : List Round} (going : sc.rounds = round :: outer)
      (done : round.turns = []) :
      Next sc (some (.delivered round.began))
        { sc.add (.delivered round.began) sc.panel with rounds := outer }

/-- One scene leads to another. -/
abbrev Leads : Scene → Scene → Prop := Relation.ReflTransGen (fun a b => ∃ what, Next a what b)

def start : Scene := ⟨[], .empty, []⟩

/-- A scene in the course of some run. -/
def Reached (sc : Scene) : Prop := Leads start sc

variable {a b : Scene} {what : Option Happening}

theorem Next.leads (h : Next a what b) : Leads a b := .single ⟨what, h⟩

theorem Reached.next (h : Reached a) (hn : Next a what b) : Reached b := h.trans hn.leads

/-- Nothing but the owner of a panel lets go of its dispatcher. -/
theorem Next.present (h : Next a what b) : b.panel.present = a.panel.present := by
  cases h with
  | letGo _ _ gone =>
    unfold Panel.letGo at gone
    split at gone
    · split at gone
      · dsimp only at gone
        split at gone
        · cases gone
          rfl
        · cases gone
          rfl
      · cases gone
    · cases gone
  | call =>
    unfold add startCall
    dsimp only
    split <;> rfl
  | _ => rfl

theorem Leads.present (h : Leads a b) : b.panel.present = a.panel.present := by
  induction h with
  | refl => rfl
  | tail _ hx ih =>
    obtain ⟨_, hn⟩ := hx
    exact hn.present.trans ih

/-- A step writes down one thing at most, with the panel that it leads to. -/
theorem Next.past (h : Next a what b) :
    b.past = a.past ++ (what.map (fun w => ⟨w, b.panel⟩)).toList := by
  cases h <;> simp

@[simp] theorem call_dispatcher (p : Panel) (widget : Nat) (w : Widget) (v : View) :
    (p.startCall widget w v).dispatcher = p.dispatcher := by
  unfold startCall
  dsimp only
  split <;> rfl

/-- What holds of each moment when it is written down holds of all. -/
theorem Reached.moments {Q : Moment → Prop}
    (hnext : ∀ a b what, Reached a → Next a (some what) b → Q ⟨what, b.panel⟩) (h : Reached a) :
    ∀ m ∈ a.past, Q m := by
  induction h with
  | refl =>
    intro m hm
    cases hm
  | tail ha hx ih =>
    obtain ⟨what, hn⟩ := hx
    intro m hm
    rw [hn.past] at hm
    rcases List.mem_append.mp hm with hm | hm
    · exact ih m hm
    · cases what with
      | none => cases hm
      | some what => exact List.mem_singleton.mp hm ▸ hnext _ _ what ha hn

end Scene

open Scene

variable {run : Panel → Command → Panel × Reply} {write : History → Panel → Command → History}

/-- A way to run commands that is made of steps and written down as they are taken. -/
def RunsStepwise (run : Panel → Command → Panel × Reply)
    (write : History → Panel → Command → History) : Prop :=
  ∀ past p command rounds, p.present = true →
    Leads ⟨past, p, rounds⟩ ⟨write past p command, (run p command).1, rounds⟩

theorem logCommands_cons {command : Command} {rest : List Command} {widget call : Nat}
    {past : History} {p : Panel} (hne : command ≠ .panic) :
    logCommands run write widget call past p (command :: rest) =
      logCommands run write widget call (write past p command)
        ((run p command).1.record (.replied widget call (run p command).2)) rest := by
  cases command <;> first | rfl | exact absurd rfl hne

theorem RunsStepwise.commands (hrun : RunsStepwise run write) (widget call : Nat)
    (commands : List Command) (past : History) (p : Panel) (rounds : List Round)
    (hp : p.present = true) :
    Leads ⟨past, p, rounds⟩ ⟨logCommands run write widget call past p commands,
      (runCommands run widget call p commands).1, rounds⟩ := by
  induction commands generalizing past p with
  | nil => exact .refl
  | cons command rest ih =>
    by_cases hpanic : command = .panic
    · subst hpanic
      exact .refl
    · rw [logCommands_cons hpanic, runCommands_cons hpanic]
      have hfirst := hrun past p command rounds hp
      have hreply := Next.reply ⟨write past p command, (run p command).1, rounds⟩ widget call
        (run p command).2
      exact (hfirst.trans hreply.leads).trans (ih _ _ (hfirst.present.trans hp))

theorem RunsStepwise.callBack (hrun : RunsStepwise run write) (past : History) {p : Panel}
    {round : Round} (outer : List Round) {handle : Nat} {turns : List Nat} {slot : Slot}
    (hp : p.present = true) (hturn : round.turns = handle :: turns)
    (hdue : p.dispatcher.due? round.generation handle = some slot) (hprimed : slot.primed = true) :
    Leads ⟨past, p, round :: outer⟩
      ⟨logCallBack run write round.began handle past p slot.widget ⟨round.generation, slot.scope⟩,
        (Panel.callBack run p slot.widget ⟨round.generation, slot.scope⟩).1, round :: outer⟩ := by
  unfold logCallBack Panel.callBack
  cases hw : p.widgets[slot.widget]? with
  | none => exact .refl
  | some w =>
    have hcall : Next ⟨past, p, round :: outer⟩ _ _ := .call rfl hturn hdue hprimed hw
    cases hc : w.callback with
    | scripted script =>
      simp only [add, startCall, hc] at hcall ⊢
      exact hcall.leads.trans (hrun.commands _ _ _ _ _ _ hp)
    | decoded decoder =>
      simp only [add, startCall, hc] at hcall ⊢
      exact hcall.leads

theorem due?_prime {d : Dispatcher} {g : Generation} {handle : Nat} {slot : Slot}
    (h : d.due? g handle = some slot) :
    (d.prime handle).due? g handle = some { slot with primed := true } := by
  obtain ⟨hs, ha, _⟩ := Dispatcher.due?_eq_some.mp h
  apply Dispatcher.due?_eq_some.mpr
  refine ⟨?_, ha, .inl rfl⟩
  rw [Dispatcher.prime, Dispatcher.adjust_get?, if_pos rfl, hs]
  rfl

/-- The panel after the turn of a slot that is primed. -/
def callSlot (run : Panel → Command → Panel × Reply) (g : Generation) (p : Panel) (handle : Nat)
    (slot : Slot) : Panel :=
  let (p, failed) := callBack run p slot.widget ⟨g, slot.scope⟩
  if failed then p.muteSlot handle slot else p

theorem deliver_eq (run : Panel → Command → Panel × Reply) (g : Generation) (p : Panel)
    (handle : Nat) : deliver run g p handle =
      match p.dispatcher.due? g handle with
      | none => p
      | some slot =>
        callSlot run g (if slot.primed then p else p.primeSlot handle slot) handle slot := rfl

theorem RunsStepwise.call (hrun : RunsStepwise run write) (past : History) {p : Panel}
    {round : Round} (outer : List Round) {handle : Nat} {turns : List Nat} {slot : Slot}
    (hp : p.present = true) (hturn : round.turns = handle :: turns)
    (hdue : p.dispatcher.due? round.generation handle = some slot) (hprimed : slot.primed = true) :
    Leads ⟨past, p, round :: outer⟩
      ⟨logCall run write round.generation round.began past p handle slot,
        callSlot run round.generation p handle slot, round :: outer⟩ := by
  have hcall := hrun.callBack past outer hp hturn hdue hprimed
  unfold logCall callSlot
  dsimp only
  split
  · exact hcall.trans (Next.mute _ handle slot).leads
  · exact hcall

theorem RunsStepwise.turn (hrun : RunsStepwise run write) (past : History) {p : Panel}
    {round : Round} (outer : List Round) {handle : Nat} {turns : List Nat}
    (hp : p.present = true) (hturn : round.turns = handle :: turns) :
    Leads ⟨past, p, round :: outer⟩
      ⟨logTurn run write round.generation round.began past p handle,
        deliver run round.generation p handle, { round with turns } :: outer⟩ := by
  have hpass : Next ⟨logTurn run write round.generation round.began past p handle,
      deliver run round.generation p handle, round :: outer⟩ _ _ := .pass rfl hturn
  refine Relation.ReflTransGen.trans ?_ hpass.leads
  rw [deliver_eq]
  unfold logTurn
  cases hdue : p.dispatcher.due? round.generation handle with
  | none => exact .refl
  | some slot =>
    dsimp only
    split
    · rename_i hprimed
      exact hrun.call past outer hp hturn hdue hprimed
    · rename_i hwaiting
      have hprime : Next ⟨past, p, round :: outer⟩ _ _ :=
        .prime rfl hturn hdue (Bool.eq_false_iff.mpr hwaiting)
      have hcall := hrun.call (past ++ [⟨.primed round.began handle, p.primeSlot handle slot⟩])
        (p := p.primeSlot handle slot) outer hp hturn (due?_prime hdue) rfl
      exact hprime.leads.trans hcall

theorem RunsStepwise.turns (hrun : RunsStepwise run write) (past : History) {p : Panel}
    (round : Round) (outer : List Round) (hp : p.present = true) :
    Leads ⟨past, p, round :: outer⟩
      ⟨logTurns run write round.generation round.began past p round.turns,
        round.turns.foldl (deliver run round.generation) p, { round with turns := [] } :: outer⟩ := by
  obtain ⟨began, g, turns⟩ := round
  dsimp only
  induction turns generalizing past p with
  | nil => exact .refl
  | cons handle rest ih =>
    have hturn : Leads ⟨past, p, ⟨began, g, handle :: rest⟩ :: outer⟩ _ :=
      hrun.turn past outer hp rfl
    rw [List.foldl_cons]
    exact hturn.trans (ih _ (hturn.present.trans hp))

theorem RunsStepwise.publish (hrun : RunsStepwise run write) (past : History) (p : Panel)
    (g : Generation) (rounds : List Round) (hp : p.present = true) :
    Leads ⟨past, p, rounds⟩ ⟨logPublish run write past p g, publish run p g, rounds⟩ := by
  have hbegin := Next.begin ⟨past, p, rounds⟩ g
  have hturns := hrun.turns past ⟨past.length, g, p.dispatcher.slots.keys⟩ rounds hp
  have hfinish : Next ⟨logTurns run write g past.length past p p.dispatcher.slots.keys,
      Panel.publish run p g, ⟨past.length, g, []⟩ :: rounds⟩ _ _ := .finish rfl rfl
  exact (hbegin.leads.trans hturns).trans hfinish.leads

theorem leads_letGo (past : History) (p : Panel) (widget : Nat) (rounds : List Round)
    (hp : p.present = true) {r : Reply} {f : Bool → Reply} :
    Leads ⟨past, p, rounds⟩ ⟨logLetGo past p widget,
      (match p.letGo widget with
        | some (q, live) => (q, f live)
        | none => (p, r)).1, rounds⟩ := by
  unfold logLetGo
  cases hgone : p.letGo widget with
  | none =>
    dsimp only
    split
    · rename_i hsome
      cases hsome
    · exact .refl
  | some result =>
    cases hw : p.widgets[widget]? with
    | none =>
      unfold letGo at hgone
      rw [hw] at hgone
      cases hgone
    | some w =>
      have hletGo : Next ⟨past, p, rounds⟩ _ _ := .letGo hp hw hgone
      exact hletGo.leads

theorem exec_runsStepwise (fuel : Nat) : RunsStepwise (exec fuel) (log fuel) := by
  induction fuel with
  | zero => exact fun _ _ _ _ _ => .refl
  | succ fuel ih =>
    intro past p command rounds hp
    cases command with
    | release widget => exact leads_letGo past p widget rounds hp
    | drop widget => exact leads_letGo past p widget rounds hp
    | refuse fault => exact .refl
    | subscribe subscriber component addresses script =>
      simp only [exec, log]
      split
      · exact .refl
      · exact (Next.subscribe _ _ _ _ _).leads
    | unsubscribe widget =>
      simp only [exec, log]
      split
      · exact .refl
      · cases p.widgets[widget]? with
        | none => exact .refl
        | some w => exact (Next.unsubscribe _ _).leads
    | view subscriber =>
      simp only [exec, log]
      split <;> exact .refl
    | apply snapshot now =>
      simp only [exec, log]
      split
      · exact .refl
      · have hmerge := Next.merge ⟨past, p, rounds⟩ snapshot
        split
        · exact hmerge.leads.trans (ih.publish _ _ _ _ hp)
        · exact hmerge.leads
    | republish =>
      simp only [exec, log]
      split
      · exact .refl
      · exact ih.publish _ _ _ _ hp
    | retire =>
      simp only [exec, log]
      split
      · exact .refl
      · exact (Next.unattend _).leads
    | panic =>
      simp only [exec, log]
      split <;> exact .refl

theorem leads_use (past : History) (p : Panel) (x : Use) (rounds : List Round)
    (hp : p.present = true) :
    Leads ⟨past, p, rounds⟩ ⟨logUse past p x, p.use x, rounds⟩ := by
  cases x with
  | command command => exact exec_runsStepwise _ past p command rounds hp
  | subscribe subscriber component addresses callback =>
    exact (Next.subscribe _ subscriber component addresses callback).leads
  | unsubscribe handle => exact (Next.unsubscribe _ handle).leads
  | merge s => exact (Next.merge _ s).leads
  | deliver g => exact (exec_runsStepwise _).publish past p g rounds hp

theorem leads_uses (uses : List Use) (past : History) (p : Panel) (rounds : List Round)
    (hp : p.present = true) :
    Leads ⟨past, p, rounds⟩
      ⟨(uses.foldl (fun (past, p) x => (logUse past p x, p.use x)) (past, p)).1,
        uses.foldl use p, rounds⟩ := by
  induction uses generalizing past p with
  | nil => exact .refl
  | cons x rest ih =>
    have hfirst := leads_use past p x rounds hp
    exact hfirst.trans (ih _ _ (hfirst.present.trans hp))

/-- What happens in the course of some uses happens step by step. -/
theorem Scene.Reached.uses (uses : List Use) : Reached ⟨historyOf uses, used uses, []⟩ :=
  leads_uses uses [] .empty [] rfl

end ChannelFeed.Panel
