import ChannelFeed.Address
import Mathlib.Data.String.Basic
import Mathlib.Tactic.SplitIfs

namespace ChannelFeed

/-- The bytes of a text in UTF-8. -/
def bytes (s : String) : List UInt8 := s.toUTF8.data.toList

theorem bytes_eq (s : String) : bytes s = s.toList.flatMap String.utf8EncodeChar := by
  have h : s.toList.utf8Encode = s.toUTF8 := String.utf8Encode_toList
  rw [bytes, ← h, List.utf8Encode, List.data_toByteArray]

/-- The digits of a character's number as its bytes have them, one from the other. -/
theorem utf8_digits {v : Nat} (h : v < 1114112) : v / 4096 % 64 = v / 64 / 64 % 64 ∧
    v / 4096 % 16 = v / 64 / 64 % 16 ∧ v / 262144 % 8 = v / 64 / 64 / 64 := by
  omega

/-- The first byte in which two characters differ tells which is the smaller. -/
theorem utf8EncodeChar_append_lt {c d : Char} (h : c < d) (xs ys : List UInt8) :
    String.utf8EncodeChar c ++ xs < String.utf8EncodeChar d ++ ys := by
  have hlt : c.val.toNat < d.val.toNat := h
  have hd : d.val.toNat < 1114112 := d.valid.elim (fun hlow => hlow.trans (by decide)) And.right
  have hc : c.val.toNat < 1114112 := hlt.trans hd
  unfold String.utf8EncodeChar
  dsimp only
  generalize c.val.toNat = m at *
  generalize d.val.toNat = n at *
  simp only [utf8_digits hc, utf8_digits hd]
  -- each number of bytes against each other
  split_ifs <;>
    simp only [List.cons_append, List.cons_lt_cons_iff, UInt8.lt_iff_toNat_lt, ← UInt8.toNat_inj,
      UInt8.toNat_ofNat'] <;>
    omega

theorem flatMap_utf8EncodeChar_lt {cs ds : List Char} (h : cs < ds) :
    cs.flatMap String.utf8EncodeChar < ds.flatMap String.utf8EncodeChar := by
  induction cs generalizing ds with
  | nil =>
    cases ds with
    | nil => exact absurd h (List.lt_irrefl _)
    | cons d ds =>
      obtain ⟨byte, rest, hd⟩ := List.exists_cons_of_ne_nil (String.utf8EncodeChar_ne_nil (c := d))
      rw [List.flatMap_nil, List.flatMap_cons, hd, List.cons_append]
      exact List.nil_lt_cons _ _
  | cons c cs ih =>
    cases ds with
    | nil => exact absurd h (List.not_lt_nil _)
    | cons d ds =>
      rw [List.flatMap_cons, List.flatMap_cons]
      rcases List.cons_lt_cons_iff.mp h with hcd | ⟨rfl, hrest⟩
      · exact utf8EncodeChar_append_lt hcd _ _
      · exact List.append_left_lt (ih hrest)

theorem bytes_lt_iff {s t : String} : bytes s < bytes t ↔ s < t := by
  have hlt : ∀ {s t : String}, s < t → bytes s < bytes t := fun h => by
    rw [bytes_eq, bytes_eq]
    exact flatMap_utf8EncodeChar_lt (String.lt_iff.mp h)
  refine ⟨fun h => ?_, hlt⟩
  rcases lt_trichotomy s t with hst | rfl | hts
  · exact hst
  · exact absurd h (List.lt_irrefl _)
  · exact absurd h (List.lt_asymm (hlt hts))

/-- By the bytes of the component, then by those of the channel. -/
theorem Address.compare_eq_lt_iff {a b : Address} : compare a b = .lt ↔
    bytes a.component < bytes b.component ∨
      a.component = b.component ∧ bytes a.channel < bytes b.channel := by
  have hcompare : compare a b =
      (compare a.component b.component).then (compare a.channel b.channel) := rfl
  rw [hcompare, Ordering.then_eq_lt, compare_lt_iff_lt, compare_lt_iff_lt, compare_eq_iff_eq,
    bytes_lt_iff, bytes_lt_iff]

end ChannelFeed
