import ChannelFeed.Proofs.Panel.Turn

namespace ChannelFeed

/-- A subscription whose callback leaves the dispatcher alone. -/
structure Subscription where
  subscriber : String
  component : Option String
  addresses : List Address
  script : Script
  quiet : script.Quiet

/-- The component it reads as its own: the one it names, else that of its first address. -/
def Subscription.scope (r : Subscription) : Scope :=
  ⟨r.component <|> r.addresses.head?.map Address.component⟩

namespace Panel

inductive Act where
  | subscribe (r : Subscription)
  | unsubscribe (handle : Nat)
  | publish (s : Snapshot)

def act (p : Panel) : Act → Panel
  | .subscribe r => (p.subscribe r.subscriber r.component r.addresses (.scripted r.script)).1
  | .unsubscribe handle => (p.unsubscribe handle).1
  | .publish s => (p.merge s).deliverCurrent

/-- A panel after acts, from an empty one on. -/
def run (acts : List Act) : Panel := acts.foldl act .empty

theorem run_append (acts : List Act) (x : Act) : run (acts ++ [x]) = (run acts).act x := by
  simp [run]

def Act.isSubscribe : Act → Bool
  | subscribe _ => true
  | _ => false

def Act.snapshot? : Act → Option Snapshot
  | publish s => some s
  | _ => none

/-- Whether an act takes out a subscription with its handle: its subscriber subscribes anew, or the
handle is unsubscribed. -/
def Act.removes (handle : Nat) (subscriber : String) : Act → Prop
  | subscribe r => r.subscriber = subscriber
  | unsubscribe k => k = handle
  | publish _ => False

def issued (acts : List Act) : Nat := acts.countP Act.isSubscribe + 1

def snapshots (acts : List Act) : List Snapshot := acts.filterMap Act.snapshot?

/-- A subscription was made with a handle and has not been taken out since; what happened since. -/
def Stands (acts : List Act) (handle : Nat) (r : Subscription) (since : List Act) : Prop :=
  ∃ before, acts = before ++ .subscribe r :: since ∧ handle = issued before ∧
    ∀ x ∈ since, ¬ x.removes handle r.subscriber

/-- A snapshot has mentioned one of some addresses. -/
def Reported (acts : List Act) (addresses : List Address) : Prop :=
  ∃ s ∈ snapshots acts, ∃ a ∈ addresses, s.reports a = true

theorem issued_append (acts : List Act) (x : Act) :
    issued (acts ++ [x]) = issued acts + if x.isSubscribe then 1 else 0 := by
  unfold issued
  rw [List.countP_append, List.countP_singleton]
  omega

theorem snapshots_append (acts : List Act) (x : Act) :
    snapshots (acts ++ [x]) = snapshots acts ++ x.snapshot?.toList := by
  cases x <;> simp [snapshots, Act.snapshot?]

theorem not_reported_nil (addresses : List Address) : ¬ Reported [] addresses := by
  intro hx
  obtain ⟨s, hs, _⟩ := hx
  cases hs

theorem reported_append (acts : List Act) (x : Act) (addresses : List Address) :
    Reported (acts ++ [x]) addresses ↔
      Reported acts addresses ∨
        ∃ s, x.snapshot? = some s ∧ ∃ a ∈ addresses, s.reports a = true := by
  unfold Reported
  rw [snapshots_append]
  simp only [List.mem_append, Option.mem_toList, or_and_right, exists_or]

theorem reported_silent {x : Act} (hx : x.snapshot? = none) (acts : List Act)
    (addresses : List Address) : Reported (acts ++ [x]) addresses ↔ Reported acts addresses := by
  rw [reported_append, hx]
  simp

/-- What stands after one act more: a subscription made by it, or one that it does not remove. -/
theorem stands_append (acts : List Act) (x : Act) (handle : Nat) (r : Subscription)
    (since : List Act) :
    Stands (acts ++ [x]) handle r since ↔
      (x = .subscribe r ∧ handle = issued acts ∧ since = []) ∨
        ∃ earlier, since = earlier ++ [x] ∧ Stands acts handle r earlier ∧
          ¬ x.removes handle r.subscriber := by
  constructor
  · intro hx
    obtain ⟨before, hacts, hhandle, hkept⟩ := hx
    rcases List.eq_nil_or_concat since with rfl | ⟨earlier, y, rfl⟩
    · obtain ⟨hbefore, hlast⟩ := List.append_inj' hacts rfl
      rw [List.singleton_inj] at hlast
      exact .inl ⟨hlast, hbefore ▸ hhandle, rfl⟩
    · rw [List.concat_eq_append] at hacts hkept ⊢
      rw [← List.cons_append, ← List.append_assoc] at hacts
      obtain ⟨hbefore, hlast⟩ := List.append_inj' hacts rfl
      rw [List.singleton_inj] at hlast
      subst hlast
      refine .inr ⟨earlier, rfl, ⟨before, hbefore, hhandle, ?_⟩, ?_⟩
      · exact fun y hy => hkept y (List.mem_append_left _ hy)
      · exact hkept x (List.mem_append_right _ List.mem_cons_self)
  · intro hx
    rcases hx with ⟨rfl, rfl, rfl⟩ | ⟨earlier, rfl, ⟨before, rfl, hhandle, hkept⟩, hx⟩
    · exact ⟨acts, rfl, rfl, fun _ hx => nomatch hx⟩
    · refine ⟨before, by simp, hhandle, fun y hy => ?_⟩
      rcases List.mem_append.mp hy with hy | hy
      · exact hkept y hy
      · exact List.mem_singleton.mp hy ▸ hx

theorem Stands.issued {acts since : List Act} {handle : Nat} {r : Subscription}
    (h : Stands acts handle r since) : handle < issued acts := by
  obtain ⟨before, rfl, rfl, _⟩ := h
  unfold Panel.issued
  rw [List.countP_append, List.countP_cons]
  simp only [Act.isSubscribe, if_true]
  omega

end Panel

end ChannelFeed
