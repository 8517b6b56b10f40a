import ChannelFeed.Ordered.Ascending

namespace ChannelFeed

variable {α : Type} [Ord α]

/-- Puts a member at its place in an ascending list that may already hold it. -/
def insertMember (a : α) : List α → List α
  | [] => [a]
  | b :: rest =>
    match compare a b with
    | .lt => a :: b :: rest
    | .eq => b :: rest
    | .gt => b :: insertMember a rest

section lawful

variable [Std.LawfulEqOrd α]

theorem mem_insertMember {a b : α} {members : List α} :
    b ∈ insertMember a members ↔ b = a ∨ b ∈ members := by
  induction members with
  | nil => simp [insertMember]
  | cons c rest ih =>
    simp only [insertMember]
    split
    · simp
    · rename_i heq
      have : a = c := Std.LawfulEqCmp.eq_of_compare heq
      subst this
      simp
    · simp only [List.mem_cons, ih]
      grind

theorem ascending_insertMember [Std.TransOrd α] (a : α) {members : List α} (h : Ascending members) :
    Ascending (insertMember a members) := by
  induction members with
  | nil => simp [insertMember, Ascending]
  | cons b rest ih =>
    have hrest := List.pairwise_cons.1 h
    simp only [insertMember]
    split
    · rename_i hlt
      refine List.pairwise_cons.2 ⟨fun c hc => ?_, h⟩
      rcases List.mem_cons.1 hc with rfl | hc
      · exact hlt
      · exact Std.TransCmp.lt_trans hlt (hrest.1 c hc)
    · exact h
    · rename_i hgt
      refine List.pairwise_cons.2 ⟨fun c hc => ?_, ih hrest.2⟩
      rcases mem_insertMember.1 hc with rfl | hc
      · exact Std.OrientedCmp.gt_iff_lt.1 hgt
      · exact hrest.1 c hc

end lawful

/-- A finite set as the ascending list of its members. -/
structure SortedSet (α : Type) [Ord α] where
  toList : List α
  ascending : Ascending toList

namespace SortedSet

theorem ext_toList {s t : SortedSet α} (h : s.toList = t.toList) : s = t := by
  cases s; cases t; simp_all

instance [DecidableEq α] : DecidableEq (SortedSet α) := fun s t =>
  if h : s.toList = t.toList then isTrue (ext_toList h)
  else isFalse (fun he => h (congrArg toList he))

def empty : SortedSet α := ⟨[], List.Pairwise.nil⟩

instance : EmptyCollection (SortedSet α) := ⟨empty⟩

instance : Inhabited (SortedSet α) := ⟨empty⟩

instance : Membership α (SortedSet α) := ⟨fun s a => a ∈ s.toList⟩

instance [DecidableEq α] (a : α) (s : SortedSet α) : Decidable (a ∈ s) :=
  inferInstanceAs (Decidable (a ∈ s.toList))

theorem ext_mem [Std.OrientedOrd α] {s t : SortedSet α} (h : ∀ a, a ∈ s ↔ a ∈ t) : s = t :=
  ext_toList (s.ascending.eq_of_mem_iff t.ascending h)

def size (s : SortedSet α) : Nat := s.toList.length

def isEmpty (s : SortedSet α) : Bool := s.toList.isEmpty

section lawful

variable [Std.TransOrd α] [Std.LawfulEqOrd α]

def insert (s : SortedSet α) (a : α) : SortedSet α :=
  ⟨insertMember a s.toList, ascending_insertMember a s.ascending⟩

def ofList (members : List α) : SortedSet α :=
  members.foldl insert empty

theorem mem_insert {s : SortedSet α} {a b : α} : b ∈ s.insert a ↔ b = a ∨ b ∈ s :=
  mem_insertMember

theorem mem_foldl_insert {members : List α} {s : SortedSet α} {a : α} :
    a ∈ members.foldl insert s ↔ a ∈ members ∨ a ∈ s := by
  induction members generalizing s with
  | nil => simp
  | cons b rest ih =>
    rw [List.foldl_cons, ih, mem_insert, List.mem_cons]
    grind

theorem mem_ofList {members : List α} {a : α} : a ∈ ofList members ↔ a ∈ members := by
  rw [ofList, mem_foldl_insert]
  exact or_iff_left (List.not_mem_nil (a := a))

end lawful

end SortedSet

end ChannelFeed
