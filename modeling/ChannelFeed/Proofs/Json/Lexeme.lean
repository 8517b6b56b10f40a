import ChannelFeed.Json.Printer
import Mathlib.Data.List.Forall2

namespace ChannelFeed.Json

/-- A text that does not go on with the number before it. -/
def Apart (rest : List Char) : Prop :=
  ∀ c ∈ rest.head?, digit? c = none ∧ c ≠ '.' ∧ c ≠ 'e' ∧ c ≠ 'E'

/-- What is written is read as these tokens, whatever comes after it that is apart. -/
def Lexes (written : List Char) (tokens : List Token) : Prop :=
  ∀ rest, Apart rest →
    tokensFrom .between (written ++ rest) = (tokensFrom .between rest).map (tokens ++ ·)

theorem tokensFrom_cons {lexing next : Lexing} {c : Char} {tokens : List Token}
    (h : stepToken lexing c = some (tokens, next)) (rest : List Char) :
    tokensFrom lexing (c :: rest) = (tokensFrom next rest).map (tokens ++ ·) := by
  rw [tokensFrom, h]
  cases hn : tokensFrom next rest <;> simp [hn]

theorem tokensFrom_quiet {lexing next : Lexing} {c : Char}
    (h : stepToken lexing c = some ([], next)) (rest : List Char) :
    tokensFrom lexing (c :: rest) = tokensFrom next rest := by
  rw [tokensFrom_cons h]
  simp

theorem tokensFrom_complete {lexing : Lexing} {token : Token} {rest : List Char}
    (atEnd : finishToken lexing = some [token])
    (before : ∀ c ∈ rest.head?, stepToken lexing c =
      (startToken c).map (fun (tokens, next) => (token :: tokens, next))) :
    tokensFrom lexing rest = (tokensFrom .between rest).map (token :: ·) := by
  cases rest with
  | nil => exact atEnd
  | cons c rest =>
    have hc := before c rfl
    cases hs : startToken c with
    | none =>
      rw [hs] at hc
      rw [tokensFrom, tokensFrom, hc, stepToken, hs]
      rfl
    | some step =>
      rw [hs] at hc
      have hbetween : stepToken .between c = some (step.1, step.2) := hs
      rw [tokensFrom_cons hc, tokensFrom_cons hbetween]
      simp [Function.comp_def]

theorem Lexes.nil : Lexes [] [] := by
  intro rest _
  simp

theorem Lexes.mark {c : Char} {token : Token} {written : List Char} {tokens : List Token}
    (mark : startToken c = some ([token], .between)) (h : Lexes written tokens) :
    Lexes (c :: written) (token :: tokens) := by
  intro rest hrest
  have hstep : stepToken .between c = some ([token], .between) := mark
  rw [List.cons_append, tokensFrom_cons hstep, h rest hrest]
  simp [Function.comp_def]

theorem Lexes.append {w w' : List Char} {ts ts' : List Token} (h : Lexes w ts) (h' : Lexes w' ts')
    (apart : ∀ rest, Apart rest → Apart (w' ++ rest)) : Lexes (w ++ w') (ts ++ ts') := by
  intro rest hrest
  rw [List.append_assoc, h _ (apart rest hrest), h' rest hrest]
  simp [Function.comp_def]

theorem apart_cons {c : Char} {w : List Char}
    (h : digit? c = none ∧ c ≠ '.' ∧ c ≠ 'e' ∧ c ≠ 'E') (rest : List Char) (_ : Apart rest) :
    Apart (c :: w ++ rest) := by
  intro d hd
  cases hd
  exact h

theorem Lexes.commas {words : List (List Char)} {tokens : List (List Token)}
    (h : List.Forall₂ Lexes words tokens) :
    Lexes ([','].intercalate words) ([.comma].intercalate tokens) := by
  induction h with
  | nil => exact .nil
  | @cons w ts words tokens hw hrest ih =>
    cases hrest with
    | nil =>
      rw [List.intercalate_singleton, List.intercalate_singleton]
      exact hw
    | cons _ _ =>
      rw [List.intercalate_cons_cons, List.intercalate_cons_cons, List.append_assoc,
        List.append_assoc]
      exact hw.append (ih.mark rfl) (apart_cons (by decide))

theorem lexes_word {c : Char} {word : List Char} {token : Token}
    (h : startToken c = some ([], .word word token)) : Lexes (c :: word) [token] := by
  intro rest _
  have hword : tokensFrom (.word word token) (word ++ rest) = tokensFrom (.word [] token) rest := by
    clear h
    induction word with
    | nil => rfl
    | cons d more ih =>
      have hd : stepToken (.word (d :: more) token) d = some ([], .word more token) := if_pos rfl
      rw [List.cons_append, tokensFrom_quiet hd, ih]
  have hdone : tokensFrom (.word [] token) rest = (tokensFrom .between rest).map (token :: ·) :=
    tokensFrom_complete rfl (fun _ _ => rfl)
  have hstart : stepToken .between c = some ([], .word word token) := h
  rw [List.cons_append, tokensFrom_quiet hstart, hword, hdone]
  rfl

/-- What is left of a character that was written. -/
def pieceOf (c : Char) : Piece :=
  if (literalChar c)[1]? = some 'u' then .unit c.toNat else .char c

/-- The pieces of a text as it is written. -/
def pieces (s : String) : List Piece := s.toList.map pieceOf

theorem escaped_ne {letter meant : Char} (h : escaped? letter = some meant) : letter ≠ 'u' := by
  rintro rfl
  cases h

/-- A character is written by a letter, by its number, or as it is. -/
theorem literalChar_cases (c : Char) :
    (∃ letter, literalChar c = ['\\', letter] ∧ escaped? letter = some c ∧ pieceOf c = .char c) ∨
      (c.toNat < 32 ∧ literalChar c = '\\' :: 'u' :: (hexPadded 4 c.toNat).toList ∧
        pieceOf c = .unit c.toNat) ∨
      (c ≠ '"' ∧ c ≠ '\\' ∧ 32 ≤ c.toNat ∧ literalChar c = [c] ∧ pieceOf c = .char c) := by
  -- those with a letter of their own are few, so each is tried
  by_cases hletter : c ∈ ['"', '\\', Char.ofNat 8, Char.ofNat 12, '\n', '\r', '\t']
  · simp only [List.mem_cons, List.not_mem_nil, or_false] at hletter
    rcases hletter with rfl | rfl | rfl | rfl | rfl | rfl | rfl <;> exact .inl ⟨_, rfl, rfl, rfl⟩
  · simp only [List.mem_cons, List.not_mem_nil, or_false, not_or] at hletter
    obtain ⟨hquote, hslash, hback, hfeed, hline, hreturn, htab⟩ := hletter
    have hback : c.toNat ≠ 8 := fun h => hback (by rw [← h, Char.ofNat_toNat])
    have hfeed : c.toNat ≠ 12 := fun h => hfeed (by rw [← h, Char.ofNat_toNat])
    have hplain : literalChar c =
        if c.toNat < 32 then '\\' :: 'u' :: (hexPadded 4 c.toNat).toList else [c] := by
      simp [literalChar, hquote, hslash, hback, hfeed, hline, hreturn, htab]
    by_cases hcontrol : c.toNat < 32
    · rw [if_pos hcontrol] at hplain
      exact .inr (.inl ⟨hcontrol, hplain, by simp [pieceOf, hplain]⟩)
    · rw [if_neg hcontrol] at hplain
      exact .inr (.inr ⟨hquote, hslash, Nat.le_of_not_lt hcontrol, hplain,
        by simp [pieceOf, hplain]⟩)

theorem tokensFrom_escaped {letter meant : Char} (h : escaped? letter = some meant)
    (done : List Piece) (rest : List Char) :
    tokensFrom (.text done) ('\\' :: letter :: rest) =
      tokensFrom (.text (.char meant :: done)) rest := by
  have hu : letter ≠ 'u' := escaped_ne h
  have hletter : stepToken (.escape done) letter = some ([], .text (.char meant :: done)) := by
    rw [stepToken, if_neg hu, h]
    rfl
  have hslash : stepToken (.text done) '\\' = some ([], .escape done) := rfl
  rw [tokensFrom_quiet hslash, tokensFrom_quiet hletter]

theorem hexDigits_control : ∀ n : Fin 32, (hexPadded 4 n).toList.map hexDigit? =
    [some 0, some 0, some (n / 16 : Nat), some (n % 16 : Nat)] := by
  decide

theorem tokensFrom_hexDigit {c : Char} {d : Nat} (h : hexDigit? c = some d) (done : List Piece)
    (value missing : Nat) (rest : List Char) :
    tokensFrom (.hex done value missing) (c :: rest) =
      if missing ≤ 1 then tokensFrom (.text (.unit (16 * value + d) :: done)) rest
      else tokensFrom (.hex done (16 * value + d) (missing - 1)) rest := by
  have hstep : stepToken (.hex done value missing) c = some ([],
      if missing ≤ 1 then .text (.unit (16 * value + d) :: done)
      else .hex done (16 * value + d) (missing - 1)) := by
    rw [stepToken, h]
    by_cases hm : missing ≤ 1 <;> simp [hm]
  rw [tokensFrom_quiet hstep]
  split <;> rfl

/-- A control character by its number. -/
theorem tokensFrom_control {n : Nat} (h : n < 32) (done : List Piece) (rest : List Char) :
    tokensFrom (.text done) ('\\' :: 'u' :: ((hexPadded 4 n).toList ++ rest)) =
      tokensFrom (.text (.unit n :: done)) rest := by
  have hdigits := hexDigits_control ⟨n, h⟩
  simp only [List.map_eq_cons_iff, List.map_eq_nil_iff] at hdigits
  obtain ⟨a, _, hlist, ha, b, _, rfl, hb, c, _, rfl, hc, d, _, rfl, hd, rfl⟩ := hdigits
  have hslash : stepToken (.text done) '\\' = some ([], .escape done) := rfl
  have hu : stepToken (.escape done) 'u' = some ([], .hex done 0 4) := rfl
  have hn : 16 * (n / 16) + n % 16 = n := by omega
  rw [hlist, tokensFrom_quiet hslash, tokensFrom_quiet hu]
  simp [tokensFrom_hexDigit ha, tokensFrom_hexDigit hb, tokensFrom_hexDigit hc,
    tokensFrom_hexDigit hd, hn]

theorem tokensFrom_literalChar (done : List Piece) (c : Char) (rest : List Char) :
    tokensFrom (.text done) (literalChar c ++ rest) =
      tokensFrom (.text (pieceOf c :: done)) rest := by
  rcases literalChar_cases c with ⟨letter, hc, hmeant, hpiece⟩ | ⟨hcontrol, hc, hpiece⟩ |
    ⟨hquote, hslash, hlow, hc, hpiece⟩
  · rw [hc, hpiece]
    exact tokensFrom_escaped hmeant done rest
  · rw [hc, hpiece]
    exact tokensFrom_control hcontrol done rest
  · have hstep : stepToken (.text done) c = some ([], .text (.char c :: done)) := by
      simp [stepToken, hquote, hslash, hlow]
    rw [hc, hpiece]
    exact tokensFrom_quiet hstep rest

theorem lexes_literal (s : String) : Lexes (literal s).toList [.text (pieces s)] := by
  intro rest _
  have hbody : ∀ (cs : List Char) (done : List Piece),
      tokensFrom (.text done) (cs.flatMap literalChar ++ '"' :: rest) =
        (tokensFrom .between rest).map ([.text (done.reverse ++ cs.map pieceOf)] ++ ·) := by
    intro cs
    induction cs with
    | nil =>
      intro done
      have hclose : stepToken (.text done) '"' = some ([.text done.reverse], .between) := rfl
      simp [tokensFrom_cons hclose]
    | cons c cs ih =>
      intro done
      rw [List.flatMap_cons, List.append_assoc, tokensFrom_literalChar, ih]
      simp
  have hopen : stepToken .between '"' = some ([], .text []) := rfl
  have hwritten : (literal s).toList ++ rest =
      '"' :: (s.toList.flatMap literalChar ++ '"' :: rest) := by simp [literal]
  rw [hwritten, tokensFrom_quiet hopen, hbody]
  rfl

/-- A number that is not one of a surrogate stands for its character. -/
theorem decode?_unit {code : Nat} (h : code < 0xD800) (rest : List Piece) :
    decode? (.unit code :: rest) = (decode? rest).map (Char.ofNat code :: ·) := by
  have hhigh : ¬ (0xD800 ≤ code ∧ code < 0xDC00) := by omega
  have hlow : ¬ (0xDC00 ≤ code ∧ code < 0xE000) := by omega
  have hany : ¬ (0xD800 ≤ code ∧ code < 0xE000) := by omega
  cases rest with
  | nil => simp [decode?, hany]
  | cons piece rest =>
    cases piece with
    | char c => simp [decode?, hany]
    | unit low => rw [decode?, if_neg hhigh, if_neg hlow]

theorem text?_pieces (s : String) : text? (pieces s) = some s := by
  have hdecode : ∀ cs : List Char, decode? (cs.map pieceOf) = some cs := by
    intro cs
    induction cs with
    | nil => rfl
    | cons c cs ih =>
      rw [List.map_cons]
      rcases literalChar_cases c with ⟨_, _, _, hpiece⟩ | ⟨hcontrol, _, hpiece⟩ |
        ⟨_, _, _, _, hpiece⟩
      · rw [hpiece, decode?, ih]
        rfl
      · rw [hpiece, decode?_unit (by omega), ih, Char.ofNat_toNat]
        rfl
      · rw [hpiece, decode?, ih]
        rfl
  rw [text?, pieces, hdecode]
  simp

def valueOf (digits : List Nat) : Nat := digits.foldl (fun value d => 10 * value + d) 0

theorem valueOf_concat (digits : List Nat) (d : Nat) :
    valueOf (digits ++ [d]) = 10 * valueOf digits + d := by
  simp [valueOf]

theorem digit?_digitChar : ∀ d : Fin 10, digit? (Nat.digitChar d) = some d.val := by
  decide

theorem startToken_digitChar : ∀ d : Fin 10, 0 < d →
    stepToken .between (Nat.digitChar d) =
      some ([], .number .whole ⟨false, [d.val], [], none⟩) := by
  decide

theorem signed_digitChar : ∀ d : Fin 10, 0 < d →
    stepToken (.number .sign ⟨true, [], [], none⟩) (Nat.digitChar d) =
      some ([], .number .whole ⟨true, [d.val], [], none⟩) := by
  decide

theorem tokensFrom_digits {lexing : Lexing} {negative : Bool}
    (first : ∀ d : Fin 10, 0 < d → stepToken lexing (Nat.digitChar d) =
      some ([], .number .whole ⟨negative, [d.val], [], none⟩)) (n : Nat) (positive : 0 < n) :
    ∃ digits, valueOf digits = n ∧ ∀ rest, tokensFrom lexing (Nat.toDigits 10 n ++ rest) =
      tokensFrom (.number .whole ⟨negative, digits, [], none⟩) rest := by
  -- the last digit is read last, and the number before it has a first digit that is not zero
  induction n using Nat.strongRecOn with
  | ind n ih =>
    by_cases hsmall : n < 10
    · refine ⟨[n], by simp [valueOf], fun rest => ?_⟩
      rw [Nat.toDigits_of_lt_base hsmall]
      exact tokensFrom_quiet (first ⟨n, hsmall⟩ positive) rest
    · obtain ⟨digits, hvalue, hread⟩ := ih (n / 10) (by omega) (by omega)
      refine ⟨digits ++ [n % 10], ?_, fun rest => ?_⟩
      · rw [valueOf_concat, hvalue]
        omega
      · have hdigit := digit?_digitChar ⟨n % 10, Nat.mod_lt n (by decide)⟩
        have hstep : stepToken (.number .whole ⟨negative, digits, [], none⟩)
            (Nat.digitChar (n % 10)) =
              some ([], .number .whole ⟨negative, digits ++ [n % 10], [], none⟩) := by
          simp [stepToken, stepNumber, hdigit, Numeral.pushWhole]
        rw [Nat.toDigits_of_base_le (by decide) (Nat.le_of_not_lt hsmall), List.append_assoc, hread]
        exact tokensFrom_quiet hstep rest

theorem tokensFrom_number {place : NumeralPlace} (hplace : place = .zero ∨ place = .whole)
    (m : Numeral) {rest : List Char} (hrest : Apart rest) :
    tokensFrom (.number place m) rest = (tokensFrom .between rest).map (.number m :: ·) := by
  refine tokensFrom_complete ?_ (fun c hc => ?_)
  · rcases hplace with rfl | rfl <;> rfl
  · obtain ⟨hdigit, hpoint, he, hE⟩ := hrest c hc
    rcases hplace with rfl | rfl <;> simp [stepToken, stepNumber, hdigit, hpoint, he, hE]

/-- A whole number is read as one of its sign and magnitude. -/
theorem lexes_whole (n : Int) : ∃ digits, valueOf digits = n.natAbs ∧
    Lexes (toString n).toList [.number ⟨decide (n < 0), digits, [], none⟩] := by
  cases n with
  | ofNat n =>
    have htext : (toString (Int.ofNat n)).toList = Nat.toDigits 10 n := by
      rw [Int.toString_eq_repr, Int.repr, Nat.repr, String.toList_ofList]
    rw [htext]
    rcases Nat.eq_zero_or_pos n with rfl | hn
    · refine ⟨[0], rfl, fun rest hrest => ?_⟩
      have hstart : stepToken .between '0' = some ([], .number .zero ⟨false, [0], [], none⟩) := rfl
      exact (tokensFrom_quiet hstart rest).trans (tokensFrom_number (.inl rfl) _ hrest)
    · obtain ⟨digits, hvalue, hread⟩ := tokensFrom_digits startToken_digitChar n hn
      refine ⟨digits, hvalue, fun rest hrest => ?_⟩
      rw [hread]
      exact tokensFrom_number (.inr rfl) _ hrest
  | negSucc n =>
    have htext : (toString (Int.negSucc n)).toList = '-' :: Nat.toDigits 10 n.succ := by
      rw [Int.toString_eq_repr, Int.repr, Nat.repr, String.toList_append, String.toList_ofList]
      simp
    obtain ⟨digits, hvalue, hread⟩ := tokensFrom_digits signed_digitChar n.succ n.succ_pos
    have hnegative : decide (Int.negSucc n < 0) = true := decide_eq_true (Int.negSucc_lt_zero n)
    refine ⟨digits, hvalue, fun rest hrest => ?_⟩
    have hsign : stepToken .between '-' = some ([], .number .sign ⟨true, [], [], none⟩) := rfl
    rw [htext, hnegative, List.cons_append, tokensFrom_quiet hsign, hread]
    exact tokensFrom_number (.inr rfl) _ hrest

/-- It stands for that number if it fits 64 bits. -/
theorem value?_whole {n : Int} {digits : List Nat} (h : valueOf digits = n.natAbs)
    (low : -9223372036854775808 ≤ n) (high : n < 18446744073709551616) :
    Numeral.value? ⟨decide (n < 0), digits, [], none⟩ = some (.whole n) := by
  obtain ⟨m, hm⟩ : ∃ m, n.natAbs = m := ⟨_, rfl⟩
  rw [hm, valueOf] at h
  by_cases hn : n < 0
  · have hfits : 0 < m ∧ m ≤ 9223372036854775808 := by omega
    have hback : -(m : Int) = n := by omega
    simp [Numeral.value?, Numeral.isWhole, h, hn, hfits, hback]
  · have hfits : m < 18446744073709551616 := by omega
    have hback : (m : Int) = n := by omega
    simp [Numeral.value?, Numeral.isWhole, Numeral.wordLimit, h, hn, hfits, hback]

end ChannelFeed.Json
