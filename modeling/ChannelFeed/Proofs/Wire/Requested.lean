import ChannelFeed.Proofs.Ordered.Entries
import ChannelFeed.Proofs.Text.Bytes
import ChannelFeed.Proofs.Wire.Reported
import ChannelFeed.Proofs.Wire.Spelling
import ChannelFeed.Wire.Request

namespace ChannelFeed.Request

def toJson (r : Request) : Json :=
  .object [("jsonrpc", .text "2.0"), ("id", .text r.id.text), ("method", .text "subscribeChannels"),
    ("params", .object [("count", .number (.whole r.count)),
      ("channels", .array (r.channels.toList.map Address.toJson))])]

/-- What a request calls its channels. -/
def names (r : Request) : List String := r.channels.toList.map Address.text

/-- The frame as it is read: the members of an object are in the order of their keys. -/
def frame (id : RequestId) (count : Nat) (names : List String) : Json :=
  .object [("id", .text id.text), ("jsonrpc", .text "2.0"), ("method", .text "subscribeChannels"),
    ("params", .object [("channels", .array (names.map .text)), ("count", .number (.whole count))])]

theorem printItems_toJson (addresses : List Address) :
    Json.printItems (addresses.map Address.toJson) =
      addresses.map (fun a => Json.literal a.text) := by
  induction addresses with
  | nil => rfl
  | cons a rest ih => rw [List.map_cons, List.map_cons, Json.printItems, ih, Address.toJson, Json.print]

theorem sortedItems_toJson (addresses : List Address) :
    Json.sortedItems (addresses.map Address.toJson) =
      (addresses.map Address.text).map .text := by
  induction addresses with
  | nil => rfl
  | cons a rest ih =>
    rw [List.map_cons, List.map_cons, List.map_cons, Json.sortedItems, ih, Address.toJson, Json.sorted]

theorem text_eq_print (r : Request) : r.text = r.toJson.print := by
  simp only [text, toJson, Json.print, Json.printMembers, printItems_toJson, object, member]
  rfl

theorem toJson_exact {r : Request} (inRange : r.count < 18446744073709551616) (depth : Nat) :
    Json.Exact (depth + 3) r.toJson := by
  have hchannels : Json.Exact (depth + 1) (.array (r.channels.toList.map Address.toJson)) := by
    refine .array (fun item hm => ?_)
    obtain ⟨a, _, rfl⟩ := List.mem_map.mp hm
    exact .text _
  refine .object (fun m hm => ?_)
  simp only [List.mem_cons, List.not_mem_nil, or_false] at hm
  rcases hm with rfl | rfl | rfl | rfl
  · exact .text _
  · exact .text _
  · exact .text _
  · refine .object (fun m hm => ?_)
    simp only [List.mem_cons, List.not_mem_nil, or_false] at hm
    rcases hm with rfl | rfl
    · exact .whole (by omega) (by omega)
    · exact hchannels

theorem toJson_sorted (r : Request) :
    r.toJson.sorted = frame r.id r.count r.names := by
  have hid : compare "id" "jsonrpc" = .lt := by decide
  have hmethod : compare "method" "id" = .gt ∧ compare "method" "jsonrpc" = .gt := by decide
  have hparams : compare "params" "id" = .gt ∧ compare "params" "jsonrpc" = .gt ∧
      compare "params" "method" = .gt := by decide
  have hchannels : compare "channels" "count" = .lt := by decide
  simp [toJson, Json.sorted, Json.sortedMembers, sortedItems_toJson, insertKey, hid, hmethod, hparams,
    hchannels, frame, names]

theorem ofText?_text {r : Request} (inRange : r.count < 18446744073709551616) :
    Json.ofText? r.text = some (frame r.id r.count r.names) := by
  rw [text_eq_print, (toJson_exact inRange 124).ofText?_print, toJson_sorted]

/-- What a request says to those who read its text. -/
structure Carries (r : Request) (names : List String) : Prop where
  read : Json.ofText? r.text = some (frame r.id r.count names)
  /-- The names are those of the channels, one by one. -/
  parse : names.map Address.ofText? = r.channels.toList.map some
  ascending : r.channels.toList.Pairwise (fun a b => bytes a.component < bytes b.component ∨
    a.component = b.component ∧ bytes a.channel < bytes b.channel)
  distinct : names.Nodup
  complete : ∀ name a, Address.ofText? name = some a → (name ∈ names ↔ a ∈ r.channels)
  /-- Whatever else a request of the same channels says and however their set came about, it names them
  alike. -/
  alike : ∀ other : Request, other.count < 18446744073709551616 →
    (∀ a, a ∈ other.channels ↔ a ∈ r.channels) →
      Json.ofText? other.text = some (frame other.id other.count names)

/-- A request of channels that can be read from some text carries them all and no other. -/
theorem text_carries (r : Request) (inRange : r.count < 18446744073709551616)
    (readable : ∀ a ∈ r.channels, ∃ s, Address.ofText? s = some a) : Carries r r.names := by
  have hreadable : ∀ a ∈ r.channels.toList, a.Readable := fun a ha => by
    obtain ⟨s, hs⟩ := readable a ha
    exact (Address.ofText?_iff_readable.mp hs).2
  exact
    { read := ofText?_text inRange
      parse := by
        rw [names, List.map_map]
        exact List.map_congr_left hreadable
      ascending := r.channels.ascending.imp Address.compare_eq_lt_iff.mp
      distinct := List.Nodup.map_on
        (fun a ha b hb => (hreadable a ha).text_injective (hreadable b hb)) r.channels.nodup
      complete := fun name a hname => by
        obtain ⟨rfl, ha⟩ := Address.ofText?_iff_readable.mp hname
        constructor
        · intro hm
          obtain ⟨b, hb, hsame⟩ := List.mem_map.mp hm
          rw [← (hreadable b hb).text_injective ha hsame]
          exact hb
        · exact fun hm => List.mem_map_of_mem hm
      alike := fun other hcount hsame => by
        have hchannels : other.channels = r.channels := SortedSet.ext_mem hsame
        rw [ofText?_text hcount, names, hchannels, names] }

/-- Components of which the texts stand in another order, slashes in a channel, characters that are
escaped or of several bytes, and the greatest count. -/
def hardRequest : Request :=
  ⟨⟨7, 1⟩, 18446744073709551615,
    .ofList [⟨"a!", "x"⟩, ⟨"Ω", "\"\\\n"⟩, ⟨"a", "b/c"⟩, ⟨"a", "b"⟩, ⟨"😀", "\x1f"⟩]⟩

theorem hardRequest_carries : hardRequest.count < 18446744073709551616 ∧
    (∀ a ∈ hardRequest.channels, ∃ s, Address.ofText? s = some a) ∧
    Carries hardRequest ["a/b", "a/b/c", "a!/x", "Ω/\"\\\n", "😀/\x1f"] := by
  have inRange : hardRequest.count < 18446744073709551616 := by decide
  have hread : ∀ a ∈ hardRequest.channels.toList, Address.ofText? a.text = some a := by
    decide +kernel
  have readable : ∀ a ∈ hardRequest.channels, ∃ s, Address.ofText? s = some a :=
    fun a ha => ⟨_, hread a ha⟩
  have hnames : hardRequest.names = ["a/b", "a/b/c", "a!/x", "Ω/\"\\\n", "😀/\x1f"] := by
    decide +kernel
  exact ⟨inRange, readable, hnames ▸ text_carries hardRequest inRange readable⟩

end ChannelFeed.Request
