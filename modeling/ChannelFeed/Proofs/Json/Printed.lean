import ChannelFeed.Proofs.Json.Lexeme
import ChannelFeed.Proofs.Json.Structure

namespace ChannelFeed.Json

def Number.numeral (n : Number) : Numeral :=
  match tokens? n.text.toList with
  | some [.number m] => m
  | _ => ⟨false, [], [], none⟩

mutual

def tree : Json → Tree
  | .null => .null
  | .bool b => .bool b
  | .number n => .number n.numeral
  | .text s => .text (pieces s)
  | .array items => .array (itemTrees items)
  | .object members => .object (memberTrees members)

def itemTrees : List Json → List Tree
  | [] => []
  | item :: rest => tree item :: itemTrees rest

def memberTrees : List (String × Json) → List (List Piece × Tree)
  | [] => []
  | (key, value) :: rest => (pieces key, tree value) :: memberTrees rest

end

mutual

/-- A value with the members of its objects in their order, the last one of a key alone. -/
def sorted : Json → Json
  | .null => .null
  | .bool b => .bool b
  | .number n => .number n
  | .text s => .text s
  | .array items => .array (sortedItems items)
  | .object members =>
    .object ((sortedMembers members).foldl (fun done (key, value) => insertKey key value done) [])

def sortedItems : List Json → List Json
  | [] => []
  | item :: rest => sorted item :: sortedItems rest

def sortedMembers : List (String × Json) → List (String × Json)
  | [] => []
  | (key, value) :: rest => (key, sorted value) :: sortedMembers rest

end

/-- A value that survives its text: the numbers are whole and of 64 bits, and containers are nested
at most so deep. -/
inductive Exact : Nat → Json → Prop
  | null {depth : Nat} : Exact depth .null
  | bool {depth : Nat} (b : Bool) : Exact depth (.bool b)
  | whole {depth : Nat} {n : Int} (low : -9223372036854775808 ≤ n)
      (high : n < 18446744073709551616) : Exact depth (.number (.whole n))
  | text {depth : Nat} (s : String) : Exact depth (.text s)
  | array {depth : Nat} {items : List Json} (inside : ∀ item ∈ items, Exact depth item) :
      Exact (depth + 1) (.array items)
  | object {depth : Nat} {members : List (String × Json)}
      (inside : ∀ m ∈ members, Exact depth m.2) : Exact (depth + 1) (.object members)

variable {depth : Nat} {j : Json}

theorem numeral_whole (n : Int) : ∃ digits, valueOf digits = n.natAbs ∧
    (Number.whole n).numeral = ⟨decide (n < 0), digits, [], none⟩ ∧
    Lexes (Number.whole n).text.toList [.number (Number.whole n).numeral] := by
  obtain ⟨digits, hvalue, hread⟩ := lexes_whole n
  have hall : tokens? (Number.whole n).text.toList =
      some [.number ⟨decide (n < 0), digits, [], none⟩] := by
    have h := hread [] (fun _ hm => nomatch hm)
    rw [List.append_nil] at h
    exact h
  have hnumeral : (Number.whole n).numeral = ⟨decide (n < 0), digits, [], none⟩ := by
    rw [Number.numeral, hall]
  exact ⟨digits, hvalue, hnumeral, hnumeral ▸ hread⟩

theorem Lexes.enclosed {opening closing : Char} {first last : Token} {words : List (List Char)}
    {tokens : List (List Token)} (h : List.Forall₂ Lexes words tokens)
    (hopening : startToken opening = some ([first], .between))
    (hclosing : startToken closing = some ([last], .between))
    (apart : digit? closing = none ∧ closing ≠ '.' ∧ closing ≠ 'e' ∧ closing ≠ 'E') :
    Lexes (opening :: ([','].intercalate words ++ [closing]))
      (first :: ([.comma].intercalate tokens ++ [last])) :=
  ((Lexes.commas h).append (Lexes.nil.mark hclosing) (apart_cons apart)).mark hopening

theorem lexes_items {items : List Json}
    (h : ∀ item ∈ items, Lexes item.print.toList item.tree.tokens) :
    List.Forall₂ Lexes ((printItems items).map String.toList)
      (Tree.itemTokens (itemTrees items)) := by
  induction items with
  | nil => exact .nil
  | cons item rest ih =>
    exact .cons (h item List.mem_cons_self) (ih (fun i hm => h i (List.mem_cons_of_mem _ hm)))

theorem lexes_members {members : List (String × Json)}
    (h : ∀ m ∈ members, Lexes m.2.print.toList m.2.tree.tokens) :
    List.Forall₂ Lexes ((printMembers members).map String.toList)
      (Tree.memberTokens (memberTrees members)) := by
  induction members with
  | nil => exact .nil
  | cons m rest ih =>
    refine .cons ?_ (ih (fun m' hm => h m' (List.mem_cons_of_mem _ hm)))
    have hvalue := (h m List.mem_cons_self).mark (c := ':') rfl
    have hmember := (lexes_literal m.1).append hvalue (apart_cons (by decide))
    have hwritten : (literal m.1 ++ ":" ++ m.2.print).toList =
        (literal m.1).toList ++ ':' :: m.2.print.toList := by simp
    rw [hwritten]
    exact hmember

/-- The lexemes of a printed value are the tokens of its structure. -/
theorem Exact.lexes (h : Exact depth j) : Lexes j.print.toList j.tree.tokens := by
  induction h with
  | null => exact lexes_word rfl
  | bool b => cases b <;> exact lexes_word rfl
  | @whole _ n _ _ =>
    obtain ⟨_, _, _, hread⟩ := numeral_whole n
    exact hread
  | text s => exact lexes_literal s
  | @array _ items _ ih =>
    have hwritten : (print (.array items)).toList =
        '[' :: ([','].intercalate ((printItems items).map String.toList) ++ [']']) := by
      simp [print, commaSeparated, String.toList_intercalate]
    rw [hwritten, tree, Tree.tokens]
    exact .enclosed (lexes_items ih) rfl rfl (by decide)
  | @object _ members _ ih =>
    have hwritten : (print (.object members)).toList =
        '\x7b' :: ([','].intercalate ((printMembers members).map String.toList) ++ ['\x7d']) := by
      simp [print, commaSeparated, String.toList_intercalate]
    rw [hwritten, tree, Tree.tokens]
    exact .enclosed (lexes_members ih) rfl rfl (by decide)

theorem Exact.tree_print (h : Exact depth j) : Tree.ofText? j.print = some j.tree := by
  have hread := h.lexes [] (fun _ hm => nomatch hm)
  rw [List.append_nil] at hread
  exact Tree.ofText?_of_tokens (hread.trans (by simp [tokensFrom, finishToken]))

theorem mapM_itemTrees {items : List Json}
    (h : ∀ item ∈ items, ofTree? depth item.tree = some item.sorted) :
    (itemTrees items).mapM (ofTree? depth) = some (sortedItems items) := by
  induction items with
  | nil => rfl
  | cons item rest ih =>
    have hrest := ih (fun i hm => h i (List.mem_cons_of_mem _ hm))
    rw [itemTrees, List.mapM_cons, h item List.mem_cons_self, hrest]
    rfl

theorem mapM_memberTrees {members : List (String × Json)}
    (h : ∀ m ∈ members, ofTree? depth m.2.tree = some m.2.sorted) :
    (memberTrees members).mapM (fun (key, tree) => do
      let key ← text? key
      let value ← ofTree? depth tree
      some (key, value)) = some (sortedMembers members) := by
  induction members with
  | nil => rfl
  | cons m rest ih =>
    have hrest := ih (fun m' hm => h m' (List.mem_cons_of_mem _ hm))
    rw [memberTrees, List.mapM_cons, hrest]
    simp [text?_pieces, h m List.mem_cons_self, sortedMembers]

theorem Exact.ofTree?_tree (h : Exact depth j) : ofTree? depth j.tree = some j.sorted := by
  induction h with
  | null => rw [tree, ofTree?, sorted]
  | bool b => rw [tree, ofTree?, sorted]
  | @whole _ n low high =>
    obtain ⟨digits, hvalue, hnumeral, _⟩ := numeral_whole n
    rw [tree, ofTree?, sorted, hnumeral, value?_whole hvalue low high]
    rfl
  | text s =>
    rw [tree, ofTree?, sorted, text?_pieces]
    rfl
  | array _ ih =>
    rw [tree, ofTree?, sorted, mapM_itemTrees ih]
    rfl
  | object _ ih =>
    rw [tree, ofTree?, sorted, mapM_memberTrees ih]
    rfl

/-- A printed value is read as it was, its members in their order. -/
theorem Exact.ofText?_print (h : Exact depthLimit j) : ofText? j.print = some j.sorted := by
  rw [ofText?, h.tree_print]
  exact h.ofTree?_tree

end ChannelFeed.Json
