import ChannelFeed.Proofs.Json.Printed
import ChannelFeed.Proofs.Wire.Readable
import ChannelFeed.Wire.Address

namespace ChannelFeed.Address

/-- Whether there is something before the first slash of a text and something after it. -/
def HasParts (s : String) : Prop :=
  ∃ before after, s.toList = before ++ '/' :: after ∧ '/' ∉ before ∧ before ≠ [] ∧ after ≠ []

/-- Whether the parts of an address are there and the first slash of its text parts them. -/
def Parted (a : Address) : Prop :=
  a.component ≠ "" ∧ '/' ∉ a.component.toList ∧ a.channel ≠ ""

theorem read_eq_ok {s : String} {a : Address} : read s = .ok a ↔ ofText? s = some a := by
  unfold read
  cases ofText? s <;> simp

theorem read_eq_error {s : String} {fault : ReadFault} :
    read s = .error fault ↔ ofText? s = none ∧ fault = .address s := by
  unfold read
  cases ofText? s <;> simp [eq_comm]

theorem ofText?_isSome_iff (s : String) : (∃ a, ofText? s = some a) ↔ HasParts s := by
  constructor
  · rintro ⟨a, ha⟩
    obtain ⟨rfl, hcomponent, hslash, hchannel⟩ := ofText?_eq_some_iff.mp ha
    refine ⟨_, _, a.toList_text, hslash, ?_, ?_⟩
    · simpa using hcomponent
    · simpa using hchannel
  · rintro ⟨before, after, hs, hslash, hbefore, hafter⟩
    refine ⟨⟨String.ofList before, String.ofList after⟩, ofText?_eq_some_iff.mpr ⟨?_, ?_, ?_, ?_⟩⟩
    · apply String.toList_inj.mp
      rw [hs, toList_text, String.toList_ofList, String.toList_ofList]
    · simpa using hbefore
    · simpa using hslash
    · simpa using hafter

theorem readJson_text (s : String) :
    readJson (Json.text s).print = (read s).mapError (fun _ => .malformed) := by
  have hprint : Json.ofText? (Json.text s).print = some (.text s) := by
    rw [(Json.Exact.text s).ofText?_print, Json.sorted]
  rw [readJson, hprint, Option.bind_some, ofJson?, read]
  cases ofText? s <;> rfl

theorem read_text_iff (a : Address) : read a.text = .ok a ↔ a.Parted := by
  rw [read_eq_ok]
  exact a.readable_iff

theorem readJson_toJson_iff (a : Address) : readJson a.toJson.print = .ok a ↔ a.Parted := by
  rw [toJson, readJson_text, ← read_text_iff]
  cases read a.text <;> simp [Except.mapError]

/-- What texts are addresses, which ones, and which addresses come back from their texts. -/
structure Spelled : Prop where
  accepted : ∀ s, (∃ a, read s = .ok a) ↔ HasParts s
  printed : ∀ s a, read s = .ok a → a.text = s
  /-- A refusal names the text. -/
  refused : ∀ s fault, read s = .error fault ↔ ¬ HasParts s ∧ fault = .address s
  comesBack : ∀ a : Address, read a.text = .ok a ↔ a.Parted
  json : ∀ a : Address, readJson a.toJson.print = .ok a ↔ a.Parted
  /-- A JSON string is an address if its text is one, whatever characters had to be escaped. -/
  jsonText : ∀ s, readJson (Json.text s).print = (read s).mapError (fun _ => .malformed)
  apart : ∀ s s' a, read s = .ok a → read s' = .ok a → s = s'
  textsApart : ∀ s s' a b, read s = .ok a → read s' = .ok b → a.text = b.text → a = b

theorem spelled : Spelled where
  accepted s := by
    simp only [read_eq_ok]
    exact ofText?_isSome_iff s
  printed s a h := (ofText?_eq_some_iff.mp (read_eq_ok.mp h)).1.symm
  refused s fault := by
    rw [read_eq_error, ← ofText?_isSome_iff, Option.eq_none_iff_forall_ne_some, not_exists]
  comesBack := read_text_iff
  json := readJson_toJson_iff
  jsonText := readJson_text
  apart s s' a h h' := by
    obtain ⟨hs, _⟩ := ofText?_eq_some_iff.mp (read_eq_ok.mp h)
    obtain ⟨hs', _⟩ := ofText?_eq_some_iff.mp (read_eq_ok.mp h')
    exact hs.trans hs'.symm
  textsApart s s' a b h h' hsame := by
    obtain ⟨_, ha⟩ := ofText?_iff_readable.mp (read_eq_ok.mp h)
    obtain ⟨_, hb⟩ := ofText?_iff_readable.mp (read_eq_ok.mp h')
    exact ha.text_injective hb hsame

/-- Slashes in a channel stay there, and one in a component does not. -/
example : (read "a/b/c", read "/c", read (text ⟨"a/b", "c"⟩), readJson (toJson ⟨"ü\n", "\""⟩).print) =
    (.ok ⟨"a", "b/c"⟩, .error (.address "/c"), .ok ⟨"a", "b/c"⟩, .ok ⟨"ü\n", "\""⟩) := by
  decide +kernel

end ChannelFeed.Address
