import ChannelFeed.Proofs.Ordered.Entries
import ChannelFeed.Wire.Envelope

namespace ChannelFeed

namespace Json

/-- The field of a record: of an object the last member with a name, of an array the item in a
place. -/
def Tree.field? (name : String) (place : Nat) : Tree → Option Tree
  | .array items => items[place]?
  | .object members =>
    (members.filter (fun m => text? m.1 == some name)).getLast?.map Prod.snd
  | _ => none

/-- The field of a record that was read. -/
def field? (name : String) (place : Nat) : Json → Option Json
  | .array items => items[place]?
  | .object members => lookupKey name members
  | _ => none

variable {α β : Type} {members members' : List (List Piece × Tree)}
  {keyed keyed' : List (String × Tree)} {key : String}

theorem getElem?_mapM {read : α → Option β} {xs : List α} {ys : List β}
    (h : xs.mapM read = some ys) (i : Nat) : ys[i]? = xs[i]?.bind read := by
  induction xs generalizing ys i with
  | nil =>
    cases h
    simp
  | cons x rest ih =>
    rw [List.mapM_cons] at h
    simp only [Option.bind_eq_bind, Option.bind_eq_some_iff, Option.pure_def,
      Option.some.injEq] at h
    obtain ⟨y, hy, done, hrest, rfl⟩ := h
    cases i with
    | zero => simp [hy]
    | succ i => simpa using ih hrest i

/-- Members that are read one by one keep their order under every key. -/
theorem mapM_filter {read : Tree → Option α} {done : List (String × α)}
    (h : members.mapM (fun m => (text? m.1).bind (fun key => (read m.2).map (fun x => (key, x)))) =
      some done) (key : String) :
    (members.filter (fun m => text? m.1 == some key)).map (fun m => read m.2) =
      (done.filter (fun e => e.1 == key)).map (fun e => some e.2) := by
  induction members generalizing done with
  | nil =>
    cases h
    rfl
  | cons m rest ih =>
    rw [List.mapM_cons] at h
    simp only [Option.bind_eq_bind, Option.bind_eq_some_iff, Option.map_eq_some_iff,
      Option.pure_def, Option.some.injEq] at h
    obtain ⟨_, ⟨k, hk, x, hx, rfl⟩, done, hrest, rfl⟩ := h
    rw [List.filter_cons, List.filter_cons, hk]
    by_cases he : k = key
    · simp [he, hx, ih hrest]
    · simp [he, ih hrest]

/-- The members of a key are the same before and after the keys were read. -/
theorem keyed?_filter (h : keyed? members = some keyed) (key : String) :
    (members.filter (fun m => text? m.1 == some key)).map Prod.snd =
      (keyed.filter (fun e => e.1 == key)).map Prod.snd := by
  have hmembers : members.mapM (fun m => (text? m.1).bind
      (fun key => (some m.2).map (fun tree => (key, tree)))) = some keyed := by
    rw [← h, keyed?]
    congr 1
    funext m
    obtain ⟨key, tree⟩ := m
    exact Option.map_eq_bind.symm
  have hfilter := mapM_filter hmembers key
  refine (List.map_inj_right (f := some) (fun _ _ => Option.some.inj)).mp ?_
  simpa only [List.map_map, Function.comp_def] using hfilter

/-- An object is read member by member, and its members are then put in order. -/
theorem ofTree?_object {depth : Nat} {json : Json}
    (h : ofTree? (depth + 1) (.object members) = some json) :
    ∃ written : List (String × Json), json = .object (SortedMap.ofList written).entries ∧
      members.mapM (fun m => (text? m.1).bind
        (fun key => (ofTree? depth m.2).map (fun value => (key, value)))) = some written := by
  rw [ofTree?] at h
  obtain ⟨written, hwritten, hjson⟩ := Option.bind_eq_some_iff.mp h
  refine ⟨written, ?_, ?_⟩
  · rw [SortedMap.entries_ofList]
    exact (Option.some.inj hjson).symm
  · rw [← hwritten]
    congr 1
    funext m
    simp only [Option.map_eq_bind, Option.bind_eq_bind]
    rfl

/-- A field of a record that was read is the field of its tree, read. -/
theorem field?_read {depth : Nat} {tree : Tree} {json : Json}
    (h : ofTree? (depth + 1) tree = some json) (name : String) (place : Nat) :
    json.field? name place = (tree.field? name place).bind (ofTree? depth) := by
  cases tree with
  | array items =>
    rw [ofTree?] at h
    obtain ⟨items', hitems, rfl⟩ := Option.map_eq_some_iff.mp h
    exact getElem?_mapM hitems place
  | object members =>
    obtain ⟨written, rfl, hwritten⟩ := ofTree?_object h
    have hlast := congrArg List.getLast? (mapM_filter hwritten name)
    rw [List.getLast?_map, List.getLast?_map] at hlast
    rw [field?, Tree.field?]
    show (SortedMap.ofList written).get? name = _
    simp only [SortedMap.get?_ofList_last, ← beq_eq_decide] at hlast ⊢
    cases hread : (written.filter (fun e => e.1 == name)).getLast? with
    | none =>
      rw [hread] at hlast
      rw [Option.map_eq_none_iff.mp hlast]
      rfl
    | some e =>
      rw [hread] at hlast
      obtain ⟨m, hm, hof⟩ := Option.map_eq_some_iff.mp hlast
      rw [hm]
      exact hof.symm
  | null | bool b =>
    cases h
    rfl
  | number n =>
    obtain ⟨number, _, rfl⟩ := Option.map_eq_some_iff.mp (show n.value?.map .number = some json from h)
    rfl
  | text pieces =>
    obtain ⟨s, _, rfl⟩ := Option.map_eq_some_iff.mp (show (text? pieces).map .text = some json from h)
    rfl

theorem field?_of_member? {found : Option Tree} (h : keyed? members = some keyed)
    (hm : member? keyed key = some found) (place : Nat) :
    (Tree.object members).field? key place = found := by
  rw [Tree.field?, ← List.getLast?_map, keyed?_filter h]
  unfold member? at hm
  split at hm
  · rename_i hnone
    cases hm
    rw [hnone]
    rfl
  · rename_i k tree hone
    cases hm
    rw [hone]
    rfl
  · cases hm

theorem optional?_eq_some {read : Tree → Option α} {given : Option Tree} {found : Option α}
    (h : optional? read given = some found) (x : α) :
    found = some x ↔ ∃ tree, given = some tree ∧ tree ≠ .null ∧ read tree = some x := by
  unfold optional? at h
  split at h
  · cases h
    simp
  · cases h
    simp
  · rename_i tree hne
    obtain ⟨y, hy, rfl⟩ := Option.map_eq_some_iff.mp h
    have htree : tree ≠ .null := hne
    simp [htree, hy]

/-- A field that may be null or missing is read unless it is there and cannot be. -/
theorem optional?_isSome {read : Tree → Option α} {given : Option Tree} :
    (optional? read given).isSome = true ↔
      ∀ tree, given = some tree → tree ≠ .null → (read tree).isSome = true := by
  unfold optional?
  split
  · simp
  · simp
  · rename_i tree hne
    have htree : tree ≠ .null := hne
    simp [htree]

theorem member?_isSome : (member? keyed key).isSome = true ↔
    (keyed.filter (fun e => e.1 == key)).length ≤ 1 := by
  unfold member?
  generalize keyed.filter (fun e => e.1 == key) = found
  rcases found with _ | ⟨e, _ | ⟨e', rest⟩⟩
  · simp
  · simp
  · simp

theorem member?_perm (h : (keyed.filter (fun e => e.1 == key)).Perm
    (keyed'.filter (fun e => e.1 == key))) : member? keyed key = member? keyed' key := by
  unfold member?
  generalize keyed.filter (fun e => e.1 == key) = found at h
  generalize keyed'.filter (fun e => e.1 == key) = found' at h
  cases found with
  | nil => rw [h.nil_eq]
  | cons e rest =>
    cases rest with
    | nil => rw [List.perm_singleton.mp h.symm]
    | cons e' rest =>
      -- a member that is repeated is so in any order
      have hlength := h.length_eq
      rcases found' with _ | ⟨f, _ | ⟨f', rest'⟩⟩
      · simp at hlength
      · simp at hlength
      · rfl

end Json

namespace Envelope

/-- The names of the members that a frame may have. -/
def names : List String := ["id", "method", "params", "result", "error"]

/-- Whether a frame's member is one that it may have. -/
def isKnown (member : String × Json.Tree) : Bool := names.contains member.1

/-- What an envelope says of the fields of its frame: a null is no better than nothing, except as a
result. -/
structure Matches (e : Envelope) (frame : Json.Tree) : Prop where
  id : ∀ json, e.id = some json ↔
    ∃ tree, frame.field? "id" 0 = some tree ∧ tree ≠ .null ∧
      Json.ofTree? memberDepth tree = some json
  method : ∀ method, e.method = some method ↔
    ∃ tree, frame.field? "method" 1 = some tree ∧ tree ≠ .null ∧ Json.asText? tree = some method
  params : ∀ json, e.params = some json ↔
    ∃ tree, frame.field? "params" 2 = some tree ∧ tree ≠ .null ∧
      Json.ofTree? memberDepth tree = some json
  result : e.hasResult = true ↔ ∃ tree, frame.field? "result" 3 = some tree
  error : ∀ rejection, e.error = some rejection ↔
    ∃ tree, frame.field? "error" 4 = some tree ∧ tree ≠ .null ∧
      Rejection.ofTree? tree = some rejection

theorem ofFields?_fields {id method params result error : Option Json.Tree} {e : Envelope}
    (h : ofFields? id method params result error = some e) :
    Json.optional? (Json.ofTree? memberDepth) id = some e.id ∧
      Json.optional? Json.asText? method = some e.method ∧
      Json.optional? (Json.ofTree? memberDepth) params = some e.params ∧
      e.hasResult = result.isSome ∧ Json.optional? Rejection.ofTree? error = some e.error := by
  unfold ofFields? at h
  cases result with
  | none =>
    simp only [Option.bind_eq_bind, Option.bind_eq_some_iff, Option.some.injEq] at h
    obtain ⟨id', hid, method', hmethod, params', hparams, _, rfl, error', herror, rfl⟩ := h
    exact ⟨hid, hmethod, hparams, rfl, herror⟩
  | some tree =>
    simp only [Option.bind_eq_bind, Option.bind_eq_some_iff, Option.map_eq_some_iff,
      Option.some.injEq] at h
    obtain ⟨id', hid, method', hmethod, params', hparams, _, ⟨_, _, rfl⟩, error', herror, rfl⟩ := h
    exact ⟨hid, hmethod, hparams, rfl, herror⟩

/-- Which frames have the members of an envelope: an object may not repeat one of them, and an array may
not have more items than there are. -/
inductive Shaped : Json.Tree → Prop where
  | array {items : List Json.Tree} (few : items.length ≤ 5) : Shaped (.array items)
  | object {members : List (List Json.Piece × Json.Tree)} {keyed : List (String × Json.Tree)}
      (keys : Json.keyed? members = some keyed)
      (once : ∀ name ∈ names, (keyed.filter (fun m => m.1 == name)).length ≤ 1) :
      Shaped (.object members)

/-- Which frames have an envelope: those of its shape in which each member that is there, and is not
null unless it is the result, can be read as what it is. -/
structure Readable (frame : Json.Tree) : Prop where
  shaped : Shaped frame
  id : ∀ tree, frame.field? "id" 0 = some tree → tree ≠ .null →
    (Json.ofTree? memberDepth tree).isSome = true
  method : ∀ tree, frame.field? "method" 1 = some tree → tree ≠ .null →
    (Json.asText? tree).isSome = true
  params : ∀ tree, frame.field? "params" 2 = some tree → tree ≠ .null →
    (Json.ofTree? memberDepth tree).isSome = true
  result : ∀ tree, frame.field? "result" 3 = some tree → (Json.ofTree? memberDepth tree).isSome = true
  error : ∀ tree, frame.field? "error" 4 = some tree → tree ≠ .null →
    (Rejection.ofTree? tree).isSome = true

theorem ofFields?_isSome {id method params result error : Option Json.Tree} :
    (ofFields? id method params result error).isSome = true ↔
      (Json.optional? (Json.ofTree? memberDepth) id).isSome = true ∧
        (Json.optional? Json.asText? method).isSome = true ∧
        (Json.optional? (Json.ofTree? memberDepth) params).isSome = true ∧
        (∀ tree, result = some tree → (Json.ofTree? memberDepth tree).isSome = true) ∧
        (Json.optional? Rejection.ofTree? error).isSome = true := by
  unfold ofFields?
  cases result <;> simp [Option.isSome_bind, Option.any_eq_true, Option.isSome_iff_exists]

theorem Shaped.ofTree?_eq {frame : Json.Tree} (h : Shaped frame) :
    ofTree? frame = ofFields? (frame.field? "id" 0) (frame.field? "method" 1)
      (frame.field? "params" 2) (frame.field? "result" 3) (frame.field? "error" 4) := by
  cases h with
  | array few =>
    rw [ofTree?, if_pos few]
    rfl
  | @object members keyed keys once =>
    have hmember : ∀ name ∈ names, ∀ place, Json.member? keyed name =
        some ((Json.Tree.object members).field? name place) := by
      intro name hname place
      obtain ⟨found, hfound⟩ := Option.isSome_iff_exists.mp (Json.member?_isSome.mpr (once name hname))
      rw [Json.field?_of_member? keys hfound, hfound]
    simp only [ofTree?, keys, Option.bind_eq_bind, Option.bind_some, hmember "id" (by decide) 0,
      hmember "method" (by decide) 1, hmember "params" (by decide) 2, hmember "result" (by decide) 3,
      hmember "error" (by decide) 4]

theorem ofTree?_shaped {frame : Json.Tree} {e : Envelope} (h : ofTree? frame = some e) :
    Shaped frame := by
  cases frame with
  | array items =>
    rw [ofTree?] at h
    split at h
    · rename_i few
      exact .array few
    · cases h
  | object members =>
    simp only [ofTree?, Option.bind_eq_bind, Option.bind_eq_some_iff] at h
    obtain ⟨keyed, hkeyed, id, hid, method, hmethod, params, hparams, result, hresult, error,
      herror, _⟩ := h
    refine .object hkeyed (fun name hname => Json.member?_isSome.mp ?_)
    simp only [names, List.mem_cons, List.not_mem_nil, or_false] at hname
    rcases hname with rfl | rfl | rfl | rfl | rfl
    · rw [hid, Option.isSome_some]
    · rw [hmethod, Option.isSome_some]
    · rw [hparams, Option.isSome_some]
    · rw [hresult, Option.isSome_some]
    · rw [herror, Option.isSome_some]
  | null | bool | number | text => cases h

/-- There is an envelope exactly if the frame can be read as one. -/
theorem ofTree?_isSome {frame : Json.Tree} : (ofTree? frame).isSome = true ↔ Readable frame := by
  constructor
  · intro h
    obtain ⟨e, he⟩ := Option.isSome_iff_exists.mp h
    have hshaped := ofTree?_shaped he
    rw [hshaped.ofTree?_eq, ofFields?_isSome] at h
    obtain ⟨hid, hmethod, hparams, hresult, herror⟩ := h
    exact ⟨hshaped, Json.optional?_isSome.mp hid, Json.optional?_isSome.mp hmethod,
      Json.optional?_isSome.mp hparams, hresult, Json.optional?_isSome.mp herror⟩
  · intro h
    rw [h.shaped.ofTree?_eq, ofFields?_isSome]
    exact ⟨Json.optional?_isSome.mpr h.id, Json.optional?_isSome.mpr h.method,
      Json.optional?_isSome.mpr h.params, h.result, Json.optional?_isSome.mpr h.error⟩

theorem ofTree?_matches {frame : Json.Tree} {e : Envelope} (h : ofTree? frame = some e) :
    e.Matches frame := by
  obtain ⟨hid, hmethod, hparams, hresult, herror⟩ :=
    ofFields?_fields ((ofTree?_shaped h).ofTree?_eq.symm.trans h)
  refine ⟨Json.optional?_eq_some hid, Json.optional?_eq_some hmethod,
    Json.optional?_eq_some hparams, ?_, Json.optional?_eq_some herror⟩
  rw [hresult, Option.isSome_iff_exists]

/-- Neither the order of a frame's members counts nor those that it may not have. -/
theorem ofTree?_perm {members members' : List (List Json.Piece × Json.Tree)}
    {keyed keyed' : List (String × Json.Tree)} (h : Json.keyed? members = some keyed)
    (h' : Json.keyed? members' = some keyed')
    (same : (keyed.filter isKnown).Perm (keyed'.filter isKnown)) :
    ofTree? (.object members) = ofTree? (.object members') := by
  have hmember : ∀ key ∈ names, Json.member? keyed key = Json.member? keyed' key := by
    intro key hkey
    refine Json.member?_perm ?_
    have hsame := same.filter (fun e => e.1 == key)
    have hknown : ∀ m : String × Json.Tree, (m.1 == key && isKnown m) = (m.1 == key) := by
      intro m
      by_cases he : m.1 = key
      · simp [isKnown, he, hkey]
      · simp [he]
    simpa only [List.filter_filter, hknown] using hsame
  simp only [ofTree?, h, h', Option.bind_eq_bind, Option.bind_some]
  rw [hmember "id" (by decide), hmember "method" (by decide), hmember "params" (by decide),
    hmember "result" (by decide), hmember "error" (by decide)]

end Envelope

end ChannelFeed
