import ChannelFeed.Ordered.SortedMap
import ChannelFeed.Ordered.SortedSet
import ChannelFeed.Text.Split

namespace ChannelFeed

/-- One channel of one component of a device. -/
structure Address where
  component : String
  channel : String
  deriving DecidableEq, Repr, Inhabited

namespace Address

/-- By component, then by channel, each by code points. -/
instance : Ord Address := ⟨compareLex (compareOn component) (compareOn channel)⟩

instance : Std.TransOrd Address :=
  inferInstanceAs (Std.TransCmp (compareLex (compareOn component) (compareOn channel)))

instance : Std.LawfulEqOrd Address where
  eq_of_compare {a b} h := by
    have h : compareLex (compareOn component) (compareOn channel) a b = .eq := h
    rw [compareLex_eq_eq] at h
    have h1 : compare a.component b.component = .eq := h.1
    have h2 : compare a.channel b.channel = .eq := h.2
    cases a; cases b
    simp_all
  compare_self {a} :=
    @Std.ReflCmp.compare_self _ (compareLex (compareOn component) (compareOn channel)) _ a

def text (a : Address) : String := a.component ++ "/" ++ a.channel

/-- Reads `component/channel`; both parts have to be there. -/
def ofText? (s : String) : Option Address :=
  match splitFirst '/' s.toList with
  | some (component, channel) =>
    if component.isEmpty || channel.isEmpty then none
    else some ⟨String.ofList component, String.ofList channel⟩
  | none => none

def inComponent (a : Address) (component : String) : Bool := a.component == component

end Address

/-- A set of addresses in their order. -/
abbrev AddressSet := SortedSet Address

end ChannelFeed
