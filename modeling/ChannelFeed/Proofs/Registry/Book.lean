import ChannelFeed.Proofs.Registry.Sound

namespace ChannelFeed

inductive Call where
  | register (subscriber : String) (component : Option String) (addresses : List Address)
  | unregister (handle : Nat)
  deriving DecidableEq

inductive Receipt where
  | issued (handle : Nat)
  | flag (live : Bool)
  deriving DecidableEq

def Receipt.handle? : Receipt → Option Nat
  | issued handle => some handle
  | flag _ => none

/-- Makes calls one after another and keeps the answers. -/
def runCalls {σ : Type} (answer : σ → Call → σ × Receipt) : σ → List Call → σ × List Receipt
  | s, [] => (s, [])
  | s, call :: rest =>
    ((runCalls answer (answer s call).1 rest).1,
      (answer s call).2 :: (runCalls answer (answer s call).1 rest).2)

def Registry.answer (r : Registry) : Call → Registry × Receipt
  | .register subscriber component addresses =>
    ((r.register subscriber component addresses).1,
      .issued (r.register subscriber component addresses).2)
  | .unregister handle => ((r.unregister handle).1, .flag (r.unregister handle).2)

/-- The live declarations, the latest first, and the handle that the next one gets. -/
structure Book where
  next : Nat
  bindings : List (String × Entry)

namespace Book

def blank : Book := ⟨1, []⟩

/-- A declaration binds its subscriber anew, and an empty one only unbinds it; a handle unbinds the
subscriber that is bound with it. -/
def answer (b : Book) : Call → Book × Receipt
  | .register subscriber component addresses =>
    let others := b.bindings.filter (fun binding => decide (binding.1 ≠ subscriber))
    let scope : Scope := ⟨component <|> addresses.head?.map Address.component⟩
    let bindings :=
      if addresses.isEmpty then others
      else (subscriber, ⟨b.next, scope, .ofList addresses⟩) :: others
    (⟨b.next + 1, bindings⟩, .issued b.next)
  | .unregister handle =>
    (⟨b.next, b.bindings.filter (fun binding => decide (binding.2.handle ≠ handle))⟩,
      .flag (b.bindings.any (fun binding => decide (binding.2.handle = handle))))

def holders (b : Book) (a : Address) : Nat :=
  b.bindings.countP (fun binding => decide (a ∈ binding.2.addresses))

def entry? (b : Book) (subscriber : String) : Option Entry := b.bindings.lookup subscriber

def owner? (b : Book) (handle : Nat) : Option String :=
  (b.bindings.find? (fun binding => decide (binding.2.handle = handle))).map Prod.fst

end Book

/-- A registry shows exactly what a book gives. -/
structure Registry.Shows (r : Registry) (b : Book) : Prop where
  counts : ∀ a, (r.counts.get? a).getD 0 = b.holders a
  noZero : ∀ a, r.counts.get? a ≠ some 0
  owners : ∀ handle subscriber, r.owners.get? handle = some subscriber ↔
    ∃ entry, r.entries.get? subscriber = some entry ∧ entry.handle = handle
  union : ∀ a, a ∈ r.union ↔ ∃ binding ∈ b.bindings, a ∈ binding.2.addresses
  contains : ∀ a, r.contains a = b.bindings.any (fun binding => decide (a ∈ binding.2.addresses))
  addressesOf : ∀ subscriber,
    r.addressesOf? subscriber = (b.entry? subscriber).map Entry.addresses
  scopeOf : ∀ subscriber, r.scopeOf? subscriber = (b.entry? subscriber).map Entry.scope
  subscriberOf : ∀ handle, r.subscriberOf? handle = b.owner? handle
  size : r.size = b.bindings.length

namespace Registry

variable {r : Registry} {b : Book}

/-- The registry's entries are the bindings of a book in another order. -/
structure Keeps (r : Registry) (b : Book) : Prop where
  sound : r.Sound
  next : r.nextHandle = b.next
  bindings : r.entries.entries.Perm b.bindings

theorem keeps_blank : Keeps empty .blank := ⟨sound_empty, rfl, .refl _⟩

theorem Keeps.mem_bindings (h : r.Keeps b) {subscriber : String} {entry : Entry} :
    (subscriber, entry) ∈ b.bindings ↔ r.entries.get? subscriber = some entry := by
  rw [SortedMap.get?_eq_some_iff]
  exact h.bindings.mem_iff.symm

theorem insert_perm (r : Registry) (subscriber : String) (scope : Scope)
    (addresses : AddressSet) :
    (r.insert subscriber scope addresses).1.entries.entries.Perm
      (if addresses.isEmpty then (r.entries.erase subscriber).entries
        else (subscriber, ⟨r.nextHandle, scope, addresses⟩) ::
          (r.entries.erase subscriber).entries) := by
  have he : (r.insert subscriber scope addresses).1.entries =
      if addresses.isEmpty then r.entries.erase subscriber
        else r.entries.insert subscriber ⟨r.nextHandle, scope, addresses⟩ := by
    refine SortedMap.ext_get? (fun k => ?_)
    rw [insert_entries]
    cases addresses.isEmpty <;> simp [SortedMap.get?_insert, SortedMap.get?_erase]
  rw [he]
  split
  · exact .refl _
  · exact SortedMap.insert_perm _ _ _

theorem Keeps.register (h : r.Keeps b) (subscriber : String) (component : Option String)
    (addresses : List Address) :
    (r.answer (.register subscriber component addresses)).1.Keeps
        (b.answer (.register subscriber component addresses)).1 ∧
      (r.answer (.register subscriber component addresses)).2 =
        (b.answer (.register subscriber component addresses)).2 := by
  have hothers := (SortedMap.erase_perm_filter r.entries subscriber).trans
    (h.bindings.filter (fun binding => decide (binding.1 ≠ subscriber)))
  refine ⟨⟨h.sound.register subscriber component addresses, ?_, ?_⟩, congrArg Receipt.issued h.next⟩
  · have hn := insert_nextHandle r subscriber
      ⟨component <|> addresses.head?.map Address.component⟩ (.ofList addresses)
    simp only [answer, Book.answer, register_eq, hn, h.next]
  · have hp := insert_perm r subscriber
      ⟨component <|> addresses.head?.map Address.component⟩ (.ofList addresses)
    simp only [answer, Book.answer, register_eq]
    refine hp.trans ?_
    rw [SortedSet.isEmpty_ofList, h.next]
    split
    · exact hothers
    · exact hothers.cons _

/-- The entries under a handle are those of the subscriber that owns it. -/
theorem Keeps.filter_handle (h : r.Keeps b) {handle : Nat} {subscriber : String}
    (ho : r.owners.get? handle = some subscriber) :
    b.bindings.filter (fun binding => decide (binding.2.handle ≠ handle)) =
      b.bindings.filter (fun binding => decide (binding.1 ≠ subscriber)) := by
  obtain ⟨entry, he, hh⟩ := (h.sound.owned handle subscriber).mp ho
  refine List.filter_congr (fun binding hm => decide_eq_decide.mpr (not_congr ?_))
  have hb := h.mem_bindings.mp hm
  constructor
  · intro hk
    exact h.sound.handle_unique hb he (hk.trans hh.symm)
  · intro hk
    rw [hk, he] at hb
    rw [← Option.some.inj hb, hh]

theorem Keeps.unregister (h : r.Keeps b) (handle : Nat) :
    (r.answer (.unregister handle)).1.Keeps (b.answer (.unregister handle)).1 ∧
      (r.answer (.unregister handle)).2 = (b.answer (.unregister handle)).2 := by
  have hs := h.sound.unregister handle
  simp only [answer, Book.answer]
  rw [unregister_eq] at hs ⊢
  cases ho : r.owners.get? handle with
  | none =>
    have hno : ∀ binding ∈ b.bindings, binding.2.handle ≠ handle := by
      intro binding hm hk
      have := (h.sound.owned handle binding.1).mpr ⟨binding.2, h.mem_bindings.mp hm, hk⟩
      simp [ho] at this
    have hkeep : b.bindings.filter (fun binding => decide (binding.2.handle ≠ handle)) =
        b.bindings := by
      refine List.filter_eq_self.mpr (fun binding hm => ?_)
      exact decide_eq_true (hno binding hm)
    refine ⟨⟨h.sound, h.next, by rw [hkeep]; exact h.bindings⟩, congrArg Receipt.flag (Eq.symm ?_)⟩
    rw [List.any_eq_false]
    intro binding hm
    simpa using hno binding hm
  | some subscriber =>
    simp only [ho] at hs
    obtain ⟨entry, he, hh⟩ := (h.sound.owned handle subscriber).mp ho
    refine ⟨⟨hs, ?_, ?_⟩, congrArg Receipt.flag (Eq.symm ?_)⟩
    · simp only [bumpIf_nextHandle, removeEntry_nextHandle, h.next]
    · simp only [bumpIf_entries, removeEntry_entries, h.filter_handle ho]
      exact (SortedMap.erase_perm_filter _ _).trans (h.bindings.filter _)
    · rw [List.any_eq_true]
      exact ⟨(subscriber, entry), h.mem_bindings.mpr he, decide_eq_true hh⟩

theorem Keeps.answer (h : r.Keeps b) (call : Call) :
    (r.answer call).1.Keeps (b.answer call).1 ∧ (r.answer call).2 = (b.answer call).2 := by
  cases call with
  | register subscriber component addresses => exact h.register subscriber component addresses
  | unregister handle => exact h.unregister handle

/-- Registry and book stay together through any calls and answer them alike. -/
theorem Keeps.run (h : r.Keeps b) (calls : List Call) :
    (runCalls Registry.answer r calls).1.Keeps (runCalls Book.answer b calls).1 ∧
      (runCalls Registry.answer r calls).2 = (runCalls Book.answer b calls).2 := by
  induction calls generalizing r b with
  | nil => exact ⟨h, rfl⟩
  | cons call rest ih =>
    obtain ⟨hk, ha⟩ := h.answer call
    obtain ⟨hk', ha'⟩ := ih hk
    exact ⟨hk', by simp only [runCalls, ha, ha']⟩

theorem lookup_eq_some_iff {bindings : List (String × Entry)}
    (hn : (bindings.map Prod.fst).Nodup) {subscriber : String} {entry : Entry} :
    bindings.lookup subscriber = some entry ↔ (subscriber, entry) ∈ bindings := by
  induction bindings with
  | nil => simp
  | cons binding rest ih =>
    obtain ⟨s, e⟩ := binding
    obtain ⟨hs, hr⟩ := List.nodup_cons.mp hn
    rw [List.lookup_cons, List.mem_cons]
    by_cases he : subscriber = s
    · subst he
      have hno : (subscriber, entry) ∉ rest := fun hm => hs (List.mem_map.mpr ⟨_, hm, rfl⟩)
      simp [hno, eq_comm]
    · have hb : (subscriber == s) = false := beq_eq_false_iff_ne.mpr he
      simp [hb, he, ih hr]

theorem Keeps.entry?_eq (h : r.Keeps b) (subscriber : String) :
    b.entry? subscriber = r.entries.get? subscriber := by
  have hn : (b.bindings.map Prod.fst).Nodup :=
    (h.bindings.map Prod.fst).nodup_iff.mp (SortedMap.keys_nodup _)
  refine Option.ext (fun entry => ?_)
  rw [Book.entry?, lookup_eq_some_iff hn, h.mem_bindings]

theorem Keeps.owner?_eq (h : r.Keeps b) (handle : Nat) :
    r.owners.get? handle = b.owner? handle := by
  unfold Book.owner?
  cases hf : b.bindings.find? (fun binding => decide (binding.2.handle = handle)) with
  | none =>
    cases ho : r.owners.get? handle with
    | none => rfl
    | some subscriber =>
      obtain ⟨entry, he, hh⟩ := (h.sound.owned handle subscriber).mp ho
      have := List.find?_eq_none.mp hf _ (h.mem_bindings.mpr he)
      exact absurd (decide_eq_true hh) this
  | some binding =>
    have hh : binding.2.handle = handle := by simpa using List.find?_some hf
    have hm := h.mem_bindings.mp (List.mem_of_find?_eq_some hf)
    exact (h.sound.owned handle binding.1).mpr ⟨binding.2, hm, hh⟩

theorem Keeps.holders_eq (h : r.Keeps b) (a : Address) : r.holders a = b.holders a :=
  h.bindings.countP_eq _

theorem Keeps.mem_union (h : r.Keeps b) (a : Address) :
    a ∈ r.union ↔ ∃ binding ∈ b.bindings, a ∈ binding.2.addresses := by
  rw [h.sound.mem_union]
  constructor
  · intro hx
    obtain ⟨subscriber, entry, he, ha⟩ := hx
    exact ⟨(subscriber, entry), h.mem_bindings.mpr he, ha⟩
  · intro hx
    obtain ⟨⟨subscriber, entry⟩, hm, ha⟩ := hx
    exact ⟨subscriber, entry, h.mem_bindings.mp hm, ha⟩

theorem Keeps.shows (h : r.Keeps b) : r.Shows b where
  counts a := by
    rw [h.sound.counted a, h.holders_eq]
    unfold tally
    split
    · rename_i hz
      exact hz.symm
    · rfl
  noZero a hz := by
    have := (tally_eq_some.mp ((h.sound.counted a).symm.trans hz))
    omega
  owners := h.sound.owned
  union := h.mem_union
  contains a := by
    rw [Bool.eq_iff_iff, ← mem_union_iff, h.mem_union, List.any_eq_true]
    simp only [decide_eq_true_eq]
  addressesOf subscriber := by rw [addressesOf?, h.entry?_eq]
  scopeOf subscriber := by rw [scopeOf?, h.entry?_eq]
  subscriberOf := h.owner?_eq
  size := h.bindings.length_eq

end Registry

/-- A book gives out its handles one after another. -/
theorem Book.issued_ascending (b : Book) (calls : List Call) :
    (∀ handle ∈ (runCalls Book.answer b calls).2.filterMap Receipt.handle?, b.next ≤ handle) ∧
      ((runCalls Book.answer b calls).2.filterMap Receipt.handle?).Pairwise (· < ·) := by
  induction calls generalizing b with
  | nil => simp [runCalls]
  | cons call rest ih =>
    obtain ⟨hle, hp⟩ := ih (b.answer call).1
    cases call with
    | register subscriber component addresses =>
      have hlt : ∀ handle ∈ (runCalls Book.answer (b.answer (.register subscriber component
          addresses)).1 rest).2.filterMap Receipt.handle?, b.next < handle := hle
      refine ⟨?_, List.pairwise_cons.mpr ⟨hlt, hp⟩⟩
      intro handle hm
      rcases List.mem_cons.mp hm with rfl | hm
      · exact Nat.le_refl _
      · exact Nat.le_of_lt (hlt handle hm)
    | unregister handle => exact ⟨hle, hp⟩

/-- Whatever calls are made on a new registry, it answers as the book kept by hand does, gives out
ever greater handles and shows at the end exactly what the book gives. -/
theorem Registry.run_shows_book (calls : List Call) :
    (runCalls Registry.answer .empty calls).2 = (runCalls Book.answer .blank calls).2 ∧
      ((runCalls Registry.answer .empty calls).2.filterMap Receipt.handle?).Pairwise (· < ·) ∧
      (runCalls Registry.answer .empty calls).1.Shows (runCalls Book.answer .blank calls).1 := by
  obtain ⟨hk, ha⟩ := keeps_blank.run calls
  refine ⟨ha, ?_, hk.shows⟩
  rw [ha]
  exact (Book.blank.issued_ascending calls).2

end ChannelFeed
