import ChannelFeed.Value

namespace ChannelFeed.Charge

inductive SellLimit where
  | undefined
  | activeLimitFixed
  | noLimit
  | noFeasibleSolution
  | activeLimitConstraint
  | disabled
  | notStarted
  deriving DecidableEq, Repr

namespace SellLimit

def ofCode? (code : Int) : Option SellLimit :=
  if code = -1 then some undefined
  else if code = 0 then some activeLimitFixed
  else if code = 1 then some noLimit
  else if code = 2 then some noFeasibleSolution
  else if code = 3 then some activeLimitConstraint
  else if code = 4 then some disabled
  else if code = 5 then some notStarted
  else none

def code : SellLimit → Int
  | undefined => -1
  | activeLimitFixed => 0
  | noLimit => 1
  | noFeasibleSolution => 2
  | activeLimitConstraint => 3
  | disabled => 4
  | notStarted => 5

def name : SellLimit → String
  | undefined => "Undefined"
  | activeLimitFixed => "ActiveLimitFixed"
  | noLimit => "NoLimit"
  | noFeasibleSolution => "NoFeasibleSolution"
  | activeLimitConstraint => "ActiveLimitConstraint"
  | disabled => "Disabled"
  | notStarted => "NotStarted"

def ofValue? (value : Option Value) : Option SellLimit :=
  (value.bind Value.asInteger?).bind ofCode?

end SellLimit

inductive Delay where
  | undefined
  | activeLimit
  | noRemainingTime
  | noRemainingCapacity
  | targetMinuteNotCalculated
  | noFeasibleSolution
  | noChargeLimit
  | disabled
  | notStarted
  | avoidLowCharging
  deriving DecidableEq, Repr

namespace Delay

def ofCode? (code : Int) : Option Delay :=
  if code = -1 then some undefined
  else if code = 0 then some activeLimit
  else if code = 1 then some noRemainingTime
  else if code = 2 then some noRemainingCapacity
  else if code = 3 then some targetMinuteNotCalculated
  else if code = 4 then some noFeasibleSolution
  else if code = 5 then some noChargeLimit
  else if code = 6 then some disabled
  else if code = 7 then some notStarted
  else if code = 8 then some avoidLowCharging
  else none

def code : Delay → Int
  | undefined => -1
  | activeLimit => 0
  | noRemainingTime => 1
  | noRemainingCapacity => 2
  | targetMinuteNotCalculated => 3
  | noFeasibleSolution => 4
  | noChargeLimit => 5
  | disabled => 6
  | notStarted => 7
  | avoidLowCharging => 8

def name : Delay → String
  | undefined => "Undefined"
  | activeLimit => "ActiveLimit"
  | noRemainingTime => "NoRemainingTime"
  | noRemainingCapacity => "NoRemainingCapacity"
  | targetMinuteNotCalculated => "TargetMinuteNotCalculated"
  | noFeasibleSolution => "NoFeasibleSolution"
  | noChargeLimit => "NoChargeLimit"
  | disabled => "Disabled"
  | notStarted => "NotStarted"
  | avoidLowCharging => "AvoidLowCharging"

def ofValue? (value : Option Value) : Option Delay :=
  (value.bind Value.asInteger?).bind ofCode?

end Delay

/-- Whether charging avoids the feed-in limitation: always under a fixed limit; under a constraint if
no delay is active and a positive least charge is given. -/
def avoidsLimit (sell : Option SellLimit) (delay : Option Delay) (minimum : Option Binary64) :
    Bool :=
  match sell with
  | some .activeLimitFixed => true
  | some .activeLimitConstraint =>
    delay != some .activeLimit && (minimum.map Binary64.isPositive).getD false
  | _ => false

/-- What is shown of a controller. -/
inductive State where
  | gridFeedInLimitationAvoided
  | notDefined
  | chargeLimitActive
  | passedEndTime
  | storageAlreadyFull
  | endTimeNotCalculated
  | noLimitPossible
  | noLimitActive
  | disabled
  | chargingDelayed
  | unknown
  deriving DecidableEq, Repr

namespace State

def ofDelay : Option Delay → State
  | none => unknown
  | some .undefined => notDefined
  | some .activeLimit => chargeLimitActive
  | some .noRemainingTime => passedEndTime
  | some .noRemainingCapacity => storageAlreadyFull
  | some .targetMinuteNotCalculated => endTimeNotCalculated
  | some .noFeasibleSolution => noLimitPossible
  | some .noChargeLimit => noLimitActive
  | some .notStarted => noLimitActive
  | some .disabled => disabled
  | some .avoidLowCharging => chargingDelayed

def decode (sell : Option SellLimit) (delay : Option Delay) (minimum : Option Binary64) : State :=
  if avoidsLimit sell delay minimum then gridFeedInLimitationAvoided else ofDelay delay

def key : State → String
  | gridFeedInLimitationAvoided => "gridFeedInLimitationAvoided"
  | notDefined => "notDefined"
  | chargeLimitActive => "chargeLimitActive"
  | passedEndTime => "passedEndTime"
  | storageAlreadyFull => "storageAlreadyFull"
  | endTimeNotCalculated => "endTimeNotCalculated"
  | noLimitPossible => "noLimitPossible"
  | noLimitActive => "noLimitActive"
  | disabled => "disabled"
  | chargingDelayed => "chargingDelayed"
  | unknown => "unknown"

end State

end ChannelFeed.Charge
