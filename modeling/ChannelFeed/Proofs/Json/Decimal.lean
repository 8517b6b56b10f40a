import ChannelFeed.Json.Tree
import Mathlib.Data.List.Basic

namespace ChannelFeed.Json

/-- Whether the whole part of a number is made of decimal digits. -/
def Numeral.Decimal (n : Numeral) : Prop := ∀ d ∈ n.whole, d < 10

def Token.Decimal : Token → Prop
  | .number n => n.Decimal
  | _ => True

/-- What is being read holds no number that is not decimal. -/
def Lexing.Decimal : Lexing → Prop
  | .word _ token => token.Decimal
  | .number _ n => n.Decimal
  | _ => True

/-- If a character is read, what it completes and what is read next are decimal. -/
def DecimalStep (step : Option (List Token × Lexing)) : Prop :=
  ∀ tokens next, step = some (tokens, next) → (∀ token ∈ tokens, token.Decimal) ∧ next.Decimal

namespace DecimalStep

variable {next : Lexing} {token : Token} {step step' : Option (List Token × Lexing)}

theorem none : DecimalStep none := fun _ _ h => nomatch h

theorem quiet (h : next.Decimal) : DecimalStep (some ([], next)) := by
  rintro _ _ ⟨⟩
  exact ⟨by simp, h⟩

theorem single (ht : token.Decimal) (h : next.Decimal) : DecimalStep (some ([token], next)) := by
  rintro _ _ ⟨⟩
  exact ⟨by simpa using ht, h⟩

theorem ite {p : Prop} [Decidable p] (h : DecimalStep step) (h' : DecimalStep step') :
    DecimalStep (if p then step else step') := by
  split
  · exact h
  · exact h'

theorem complete (ht : token.Decimal) (h : DecimalStep step) :
    DecimalStep (step.map (fun (tokens, next) => (token :: tokens, next))) := by
  intro _ _ hstep
  obtain ⟨⟨tokens, next⟩, hs, hmap⟩ := Option.map_eq_some_iff.mp hstep
  obtain ⟨rfl, rfl⟩ := Prod.mk.inj hmap
  obtain ⟨htokens, hnext⟩ := h tokens next hs
  exact ⟨by simpa using ⟨ht, htokens⟩, hnext⟩

end DecimalStep

theorem digit?_lt {c : Char} {d : Nat} (h : digit? c = some d) : d < 10 := by
  unfold digit? at h
  split at h
  · rename_i hc
    have hhigh : c.toNat ≤ '9'.toNat := hc.2
    have hnine : '9'.toNat = 57 := rfl
    have hzero : '0'.toNat = 48 := rfl
    have hd := Option.some.inj h
    omega
  · cases h

theorem Numeral.Decimal.pushWhole {n : Numeral} (h : n.Decimal) {d : Nat} (hd : d < 10) :
    (n.pushWhole d).Decimal := by
  intro d' hd'
  rcases List.mem_append.mp hd' with hd' | hd'
  · exact h d' hd'
  · rw [List.mem_singleton.mp hd']
    exact hd

theorem Numeral.Decimal.pushPower {n : Numeral} (h : n.Decimal) (d : Nat) :
    (n.pushPower d).Decimal := by
  unfold Numeral.pushPower
  split <;> exact h

theorem startToken_decimal (c : Char) : DecimalStep (startToken c) := by
  unfold startToken
  refine .ite (.quiet trivial) ?_
  -- the marks, the string literals and the words
  iterate 6 refine .ite (.single trivial trivial) ?_
  iterate 4 refine .ite (.quiet trivial) ?_
  refine .ite (.quiet (fun d hd => nomatch hd)) ?_
  cases hdigit : digit? c with
  | none => exact .none
  | some d => exact .quiet (fun d' hd' => List.mem_singleton.mp hd' ▸ digit?_lt hdigit)

theorem stepNumber_decimal {n : Numeral} (h : n.Decimal) (place : NumeralPlace) (c : Char) :
    DecimalStep (stepNumber place n c) := by
  have hcomplete : DecimalStep ((startToken c).map (fun (tokens, next) => (.number n :: tokens, next))) :=
    (startToken_decimal c).complete h
  have hwhole : DecimalStep (if c = '.' then some ([], .number .point n)
      else if c = 'e' || c = 'E' then some ([], .number .mark n)
      else (startToken c).map (fun (tokens, next) => (.number n :: tokens, next))) :=
    .ite (.quiet h) (.ite (.quiet h) hcomplete)
  cases hdigit : digit? c with
  | none =>
    have hmark : ∀ negative, Numeral.Decimal { n with power := some (negative, []) } := fun _ => h
    cases place <;> simp only [stepNumber, hdigit]
    case sign | point | markSign => exact .none
    case zero | whole => exact hwhole
    case fraction => exact .ite (.quiet h) hcomplete
    case mark => exact .ite (.quiet (hmark false)) (.ite (.quiet (hmark true)) .none)
    case power => exact hcomplete
  | some d =>
    have hpush : (n.pushWhole d).Decimal := h.pushWhole (digit?_lt hdigit)
    cases place <;> simp only [stepNumber, hdigit]
    case sign | whole => exact .quiet hpush
    case zero => exact hwhole
    case point | fraction => exact .quiet h
    case mark | markSign | power => exact .quiet (h.pushPower d)

theorem stepToken_decimal {lexing : Lexing} (h : lexing.Decimal) (c : Char) :
    DecimalStep (stepToken lexing c) := by
  cases lexing with
  | between => exact startToken_decimal c
  | number place n => exact stepNumber_decimal h place c
  | word rest token =>
    cases rest with
    | nil => exact (startToken_decimal c).complete h
    | cons expected rest => exact .ite (.quiet h) .none
  | text done =>
    exact .ite (.single trivial trivial) (.ite (.quiet trivial) (.ite .none (.quiet trivial)))
  | escape done =>
    refine .ite (.quiet trivial) ?_
    cases escaped? c with
    | none => exact .none
    | some meant => exact .quiet trivial
  | hex done value missing =>
    rw [stepToken]
    cases hexDigit? c with
    | none => exact .none
    | some d =>
      rw [Option.map_some, apply_ite some]
      exact .ite (.quiet trivial) (.quiet trivial)

theorem finishToken_decimal {lexing : Lexing} {tokens : List Token}
    (h : finishToken lexing = some tokens) (hl : lexing.Decimal) : ∀ t ∈ tokens, t.Decimal := by
  unfold finishToken at h
  split at h <;> cases h <;> simp_all [Lexing.Decimal, Token.Decimal]

theorem tokensFrom_decimal {lexing : Lexing} {text : List Char} {tokens : List Token}
    (h : tokensFrom lexing text = some tokens) (hl : lexing.Decimal) : ∀ t ∈ tokens, t.Decimal := by
  induction text generalizing lexing tokens with
  | nil => exact finishToken_decimal h hl
  | cons c rest ih =>
    simp only [tokensFrom, Option.bind_eq_bind, Option.bind_eq_some_iff, Option.some.injEq] at h
    obtain ⟨⟨done, next⟩, hstep, more, hmore, rfl⟩ := h
    obtain ⟨hdone, hnext⟩ := stepToken_decimal hl c done next hstep
    intro t ht
    rcases List.mem_append.mp ht with ht | ht
    · exact hdone t ht
    · exact ih hmore hnext t ht

inductive Tree.Decimal : Tree → Prop
  | null : Decimal .null
  | bool (b : Bool) : Decimal (.bool b)
  | number {n : Numeral} (h : n.Decimal) : Decimal (.number n)
  | text (pieces : List Piece) : Decimal (.text pieces)
  | array {items : List Tree} (h : ∀ item ∈ items, Decimal item) : Decimal (.array items)
  | object {members : List (List Piece × Tree)} (h : ∀ m ∈ members, Decimal m.2) :
    Decimal (.object members)

def Frame.Decimal : Frame → Prop
  | .array done => ∀ item ∈ done, item.Decimal
  | .member done _ => ∀ m ∈ done, m.2.Decimal

def Place.Decimal : Place → Prop
  | .afterItem done => ∀ item ∈ done, item.Decimal
  | .afterMember done => ∀ m ∈ done, m.2.Decimal
  | .key done => ∀ m ∈ done, m.2.Decimal
  | .colon done _ => ∀ m ∈ done, m.2.Decimal
  | .complete tree => tree.Decimal
  | _ => True

/-- All that has been built of a structure is decimal. -/
def DecimalStack (stack : List Frame × Place) : Prop :=
  (∀ frame ∈ stack.1, frame.Decimal) ∧ stack.2.Decimal

variable {frames : List Frame} {token : Token}

theorem fill_decimal (hf : ∀ frame ∈ frames, frame.Decimal) {tree : Tree} (ht : tree.Decimal) :
    DecimalStack (fill frames tree) := by
  cases frames with
  | nil => exact ⟨by simp [fill], ht⟩
  | cons frame frames =>
    have hinner := hf frame List.mem_cons_self
    have houter : ∀ frame ∈ frames, frame.Decimal := fun frame h => hf frame (List.mem_cons_of_mem _ h)
    cases frame with
    | array done => exact ⟨houter, List.forall_mem_cons.mpr ⟨ht, hinner⟩⟩
    | member done key => exact ⟨houter, List.forall_mem_cons.mpr ⟨ht, hinner⟩⟩

theorem startValue_decimal {stack : List Frame × Place} (h : startValue frames token = some stack)
    (hf : ∀ frame ∈ frames, frame.Decimal) (ht : token.Decimal) : DecimalStack stack := by
  cases token with
  | null => cases h; exact fill_decimal hf .null
  | bool b => cases h; exact fill_decimal hf (.bool b)
  | number n => cases h; exact fill_decimal hf (.number ht)
  | text pieces => cases h; exact fill_decimal hf (.text pieces)
  | openArray | openObject => cases h; exact ⟨hf, trivial⟩
  | closeArray | closeObject | comma | colon => cases h

theorem stepTree_decimal {place : Place} {stack : List Frame × Place}
    (h : stepTree frames place token = some stack) (hs : DecimalStack (frames, place))
    (ht : token.Decimal) : DecimalStack stack := by
  obtain ⟨hf, hp⟩ := hs
  have hempty : ∀ m ∈ ([] : List (List Piece × Tree)), m.2.Decimal := fun _ hm => nomatch hm
  cases place with
  | value => exact startValue_decimal h hf ht
  | arrayStart =>
    rw [stepTree] at h
    split at h
    · cases h
      exact fill_decimal hf (.array (by simp))
    · exact startValue_decimal h (List.forall_mem_cons.mpr ⟨by simp [Frame.Decimal], hf⟩) ht
  | objectStart =>
    cases token with
    | closeObject => cases h; exact fill_decimal hf (.object hempty)
    | text key => cases h; exact ⟨hf, hempty⟩
    | _ => cases h
  | afterItem done =>
    cases token with
    | comma => cases h; exact ⟨List.forall_mem_cons.mpr ⟨hp, hf⟩, trivial⟩
    | closeArray =>
      cases h
      exact fill_decimal hf (.array (fun item hm => hp item (List.mem_reverse.mp hm)))
    | _ => cases h
  | afterMember done =>
    cases token with
    | comma => cases h; exact ⟨hf, hp⟩
    | closeObject =>
      cases h
      exact fill_decimal hf (.object (fun m hm => hp m (List.mem_reverse.mp hm)))
    | _ => cases h
  | key done =>
    cases token with
    | text key => cases h; exact ⟨hf, hp⟩
    | _ => cases h
  | colon done key =>
    cases token with
    | colon => cases h; exact ⟨List.forall_mem_cons.mpr ⟨hp, hf⟩, trivial⟩
    | _ => cases h
  | complete tree => cases h

theorem treeFrom_decimal {place : Place} {tokens : List Token} {tree : Tree}
    (h : treeFrom frames place tokens = some tree) (hs : DecimalStack (frames, place))
    (ht : ∀ t ∈ tokens, t.Decimal) : tree.Decimal := by
  induction tokens generalizing frames place with
  | nil =>
    unfold treeFrom at h
    split at h
    · cases h
      exact hs.2
    · cases h
  | cons token rest ih =>
    unfold treeFrom at h
    split at h
    · rename_i frames' place' hstep
      exact ih h (stepTree_decimal hstep hs (ht token List.mem_cons_self))
        (fun t hm => ht t (List.mem_cons_of_mem _ hm))
    · cases h

/-- The numbers of a text are decimal. -/
theorem Tree.ofText?_decimal {text : String} {tree : Tree} (h : Tree.ofText? text = some tree) :
    tree.Decimal := by
  obtain ⟨tokens, htokens, htree⟩ := Option.bind_eq_some_iff.mp h
  exact treeFrom_decimal htree ⟨by simp, trivial⟩ (tokensFrom_decimal htokens trivial)

end ChannelFeed.Json
