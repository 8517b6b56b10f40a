import ChannelFeed.Charge.Mode
import ChannelFeed.Charge.State
import ChannelFeed.View

namespace ChannelFeed.Charge

/-- The bound on the charging power that is in force. -/
inductive Limit where
  | minimum (watts : Binary64)
  | maximum (watts : Binary64)
  deriving DecidableEq, Repr

/-- Everything that is known of a controller. -/
structure Status where
  mode : Mode
  sell : Option SellLimit
  delay : Option Delay
  avoided : Bool
  state : State
  limit : Option Limit
  maximumSell : Option Binary64
  sellLimitEnabled : Option Bool
  capacity : Option Binary64
  target : Option Int
  start : Option Int
  deriving DecidableEq, Repr

/-- A point in time by its seconds since 1970, if the calendar reaches that far. -/
def calendarSeconds? (seconds : Int) : Option Int :=
  if -8334601228800 ≤ seconds ∧ seconds ≤ 8210266876799 then some seconds else none

def Status.targetTime? (s : Status) : Option Int := s.target.bind calendarSeconds?

def Status.startTime? (s : Status) : Option Int := s.start.bind calendarSeconds?

structure Decoder where
  component : String
  storage : Option String
  deriving DecidableEq, Repr

namespace Decoder

/-- The controller's channels. -/
def channels : List String :=
  ["DelayChargeState", "SellToGridLimitState", "SellToGridLimitMinimumChargeLimit",
    "DelayChargeMaximumChargeLimit", "_PropertyMode", "_PropertyMaximumSellToGridPower",
    "_PropertySellToGridLimitEnabled", "TargetEpochSeconds", "PredictedChargeStartEpochSeconds"]

/-- What a status is read from. -/
def addresses (d : Decoder) : AddressSet :=
  let own := SortedSet.ofList (channels.map (fun channel => (⟨d.component, channel⟩ : Address)))
  match d.storage with
  | some storage => own.insert ⟨storage, "Capacity"⟩
  | none => own

def channel? (d : Decoder) (v : View) (channel : String) : Option Value :=
  v.get? ⟨d.component, channel⟩

def number? (d : Decoder) (v : View) (channel : String) : Option Binary64 :=
  (d.channel? v channel).bind Value.asFloat?

def decode (d : Decoder) (v : View) : Status :=
  let sell := SellLimit.ofValue? (d.channel? v "SellToGridLimitState")
  let delay := Delay.ofValue? (d.channel? v "DelayChargeState")
  let minimum := d.number? v "SellToGridLimitMinimumChargeLimit"
  let avoided := avoidsLimit sell delay minimum
  { mode := Mode.ofValue (d.channel? v "_PropertyMode")
    sell, delay, avoided
    state := if avoided then .gridFeedInLimitationAvoided else .ofDelay delay
    limit :=
      if avoided then minimum.map .minimum
      else (d.number? v "DelayChargeMaximumChargeLimit").map .maximum
    maximumSell := d.number? v "_PropertyMaximumSellToGridPower"
    sellLimitEnabled :=
      (d.channel? v "_PropertySellToGridLimitEnabled").bind Value.asBool?
    capacity := d.storage.bind (fun storage =>
      (v.allComponents? (storage ++ "/Capacity")).bind Value.asFloat?)
    target := (d.channel? v "TargetEpochSeconds").bind Value.asInteger?
    start := (d.channel? v "PredictedChargeStartEpochSeconds").bind Value.asInteger? }

end Decoder

end ChannelFeed.Charge
