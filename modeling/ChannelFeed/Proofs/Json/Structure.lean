import ChannelFeed.Json.Tree

namespace ChannelFeed.Json

namespace Tree

/-- Induction from the inside of a structure to the outside. -/
@[elab_as_elim]
theorem insideOut {motive : Tree → Prop} (tree : Tree) (null : motive .null)
    (bool : ∀ b, motive (.bool b)) (number : ∀ n, motive (.number n))
    (text : ∀ pieces, motive (.text pieces))
    (array : ∀ items, (∀ item ∈ items, motive item) → motive (.array items))
    (object : ∀ members, (∀ m ∈ members, motive m.2) → motive (.object members)) : motive tree := by
  cases tree with
  | null => exact null
  | bool b => exact bool b
  | number n => exact number n
  | text pieces => exact text pieces
  | array items =>
    exact array items (fun item hm => insideOut item null bool number text array object)
  | object members =>
    exact object members (fun m hm => insideOut m.2 null bool number text array object)
termination_by sizeOf tree
decreasing_by
  · have hlt := List.sizeOf_lt_of_mem hm
    rw [Tree.array.sizeOf_spec]
    omega
  · have hlt := List.sizeOf_lt_of_mem hm
    obtain ⟨key, inside⟩ := m
    rw [Tree.object.sizeOf_spec]
    rw [Prod.mk.sizeOf_spec] at hlt
    dsimp only
    omega

mutual

def tokens : Tree → List Token
  | .null => [.null]
  | .bool b => [.bool b]
  | .number n => [.number n]
  | .text pieces => [.text pieces]
  | .array items => .openArray :: ([.comma].intercalate (itemTokens items) ++ [.closeArray])
  | .object members =>
    .openObject :: ([.comma].intercalate (memberTokens members) ++ [.closeObject])

def itemTokens : List Tree → List (List Token)
  | [] => []
  | item :: rest => tokens item :: itemTokens rest

def memberTokens : List (List Piece × Tree) → List (List Token)
  | [] => []
  | (key, tree) :: rest => (.text key :: .colon :: tokens tree) :: memberTokens rest

end

theorem tokens_start (tree : Tree) :
    ∃ token rest, tree.tokens = token :: rest ∧ token ≠ .closeArray := by
  cases tree <;> exact ⟨_, _, by rw [tokens], Token.noConfusion⟩

end Tree

/-- Goes on reading once a value is complete. -/
def resume (frames : List Frame) (tree : Tree) (rest : List Token) : Option Tree :=
  treeFrom (fill frames tree).1 (fill frames tree).2 rest

theorem treeFrom_cons {frames frames' : List Frame} {place place' : Place} {token : Token}
    (h : stepTree frames place token = some (frames', place')) (rest : List Token) :
    treeFrom frames place (token :: rest) = treeFrom frames' place' rest := by
  rw [treeFrom, h]

/-- The tokens of a structure are read as it. -/
def Tree.IsRead (tree : Tree) : Prop :=
  ∀ frames rest, treeFrom frames .value (tree.tokens ++ rest) = resume frames tree rest

theorem Tree.IsRead.item {item : Tree} (h : item.IsRead) (frames : List Frame) (done : List Tree)
    (rest : List Token) : treeFrom (.array done :: frames) .value (item.tokens ++ rest) =
      treeFrom frames (.afterItem (item :: done)) rest :=
  h _ rest

theorem Tree.IsRead.firstItem {item : Tree} (h : item.IsRead) (frames : List Frame)
    (rest : List Token) : treeFrom frames .arrayStart (item.tokens ++ rest) =
      treeFrom frames (.afterItem [item]) rest := by
  rw [← h.item]
  obtain ⟨token, more, he, hne⟩ := item.tokens_start
  rw [he, List.cons_append, treeFrom, treeFrom, stepTree, stepTree, if_neg hne]

theorem Tree.IsRead.member {tree : Tree} (h : tree.IsRead) {frames : List Frame} {place : Place}
    {done : List (List Piece × Tree)} {key : List Piece}
    (start : stepTree frames place (.text key) = some (frames, .colon done key))
    (rest : List Token) : treeFrom frames place (.text key :: .colon :: tree.tokens ++ rest) =
      treeFrom frames (.afterMember ((key, tree) :: done)) rest := by
  rw [List.cons_append, treeFrom_cons start, List.cons_append, treeFrom_cons (by rfl)]
  exact h _ rest

/-- The items of an array, of which the first may be read elsewhere than those that follow. -/
theorem treeFrom_items {items : List Tree} {first : Tree} {frames start : List Frame}
    {place : Place} (done : List Tree) (rest : List Token)
    (hfirst : ∀ rest, treeFrom start place (first.tokens ++ rest) =
      treeFrom frames (.afterItem (first :: done)) rest) (h : ∀ item ∈ items, item.IsRead) :
    treeFrom start place
        ([Token.comma].intercalate (Tree.itemTokens (first :: items)) ++ .closeArray :: rest) =
      resume frames (.array (done.reverse ++ first :: items)) rest := by
  induction items generalizing first done start place with
  | nil =>
    rw [Tree.itemTokens, Tree.itemTokens, List.intercalate_singleton, hfirst, ← List.reverse_cons]
    exact treeFrom_cons rfl rest
  | cons second items ih =>
    have hnext := ih (first :: done) ((h second List.mem_cons_self).item frames (first :: done))
      (fun item hm => h item (List.mem_cons_of_mem _ hm))
    rw [Tree.itemTokens, Tree.itemTokens, List.intercalate_cons_cons, ← Tree.itemTokens,
      List.append_assoc, List.append_assoc, hfirst, List.cons_append, treeFrom_cons (by rfl),
      List.nil_append, hnext, List.reverse_cons, List.append_assoc]
    rfl

theorem treeFrom_members {members : List (List Piece × Tree)} {first : List Piece × Tree}
    {frames : List Frame} {place : Place} (done : List (List Piece × Tree)) (rest : List Token)
    (hfirst : ∀ rest, treeFrom frames place (.text first.1 :: .colon :: first.2.tokens ++ rest) =
      treeFrom frames (.afterMember (first :: done)) rest) (h : ∀ m ∈ members, m.2.IsRead) :
    treeFrom frames place
        ([Token.comma].intercalate (Tree.memberTokens (first :: members)) ++ .closeObject :: rest) =
      resume frames (.object (done.reverse ++ first :: members)) rest := by
  induction members generalizing first done place with
  | nil =>
    rw [Tree.memberTokens, Tree.memberTokens, List.intercalate_singleton, hfirst,
      ← List.reverse_cons]
    exact treeFrom_cons rfl rest
  | cons second members ih =>
    have hsecond := fun rest => (h second List.mem_cons_self).member
      (rfl : stepTree frames (.key (first :: done)) (.text second.1) = _) rest
    have hnext := ih (first :: done) hsecond (fun m hm => h m (List.mem_cons_of_mem _ hm))
    rw [Tree.memberTokens, Tree.memberTokens, List.intercalate_cons_cons, ← Tree.memberTokens,
      List.append_assoc, List.append_assoc, hfirst, List.cons_append, treeFrom_cons (by rfl),
      List.nil_append, hnext, List.reverse_cons, List.append_assoc]
    rfl

theorem Tree.isRead (tree : Tree) : tree.IsRead := by
  induction tree using Tree.insideOut with
  | null | bool | number | text =>
    intro frames rest
    rw [Tree.tokens]
    exact treeFrom_cons rfl rest
  | array items ih =>
    intro frames rest
    rw [Tree.tokens, List.cons_append, treeFrom_cons (by rfl), List.append_assoc]
    cases items with
    | nil => exact treeFrom_cons rfl rest
    | cons first items =>
      exact treeFrom_items [] rest ((ih first List.mem_cons_self).firstItem frames)
        (fun item hm => ih item (List.mem_cons_of_mem _ hm))
  | object members ih =>
    intro frames rest
    rw [Tree.tokens, List.cons_append, treeFrom_cons (by rfl), List.append_assoc]
    cases members with
    | nil => exact treeFrom_cons rfl rest
    | cons first members =>
      exact treeFrom_members [] rest ((ih first List.mem_cons_self).member rfl)
        (fun m hm => ih m (List.mem_cons_of_mem _ hm))

/-- A text whose lexemes are the tokens of a structure has that structure. -/
theorem Tree.ofText?_of_tokens {text : String} {tree : Tree}
    (h : tokens? text.toList = some tree.tokens) : Tree.ofText? text = some tree := by
  have hread := tree.isRead [] []
  rw [List.append_nil] at hread
  rw [Tree.ofText?, h]
  exact hread

end ChannelFeed.Json
