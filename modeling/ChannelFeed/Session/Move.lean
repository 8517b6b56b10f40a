import ChannelFeed.Session.Basic

namespace ChannelFeed

/-- What a session does by itself. Several moves may be possible at once, and whoever runs the
session chooses. -/
inductive Move where
  | start
  | request
  | forward
  /-- Notices that it was stopped. -/
  | halt
  /-- Notices that other channels are wanted. -/
  | desire
  | frame
  /-- Notices that the device was silent for too long. -/
  | silence
  | connect
  | wake
  deriving DecidableEq, Repr

namespace Session

def dropLink (s : Session) (link : Nat) : Session := s.modifyLink link Link.dropClient

/-- Nothing waits for the outcomes that are still queued. -/
def dropOutcomes (s : Session) : Session :=
  match s.connector with
  | .queued outcomes =>
    outcomes.foldl (fun s outcome =>
      match outcome with
      | .ok link => s.dropLink link
      | .error _ => s) { s with connector := .queued [] }
  | _ => s

/-- Nothing more is done. -/
def retire (s : Session) : Session :=
  { s.dropOutcomes with phase := .finished, snapshots := s.snapshots.closeSender }

/-- The way out of a session that has not failed. -/
def finish (s : Session) : Session := s.retire.transition .disconnected

/-- Tries to connect after so many failures in a row. -/
def attempt (s : Session) (failures : Nat) : Session :=
  let s := s.transition (if failures = 0 then .connecting else .reconnecting failures)
  match s.connector with
  | .queued _ => { s with phase := .connecting failures, attempts := s.attempts + 1 }
  | _ => { s with phase := .connecting failures }

/-- After a failure: a pause before the next attempt, or the end if the policy allows none. -/
def retry (s : Session) (failures : Nat) (reason : String) : Session :=
  match s.policy.nextDelay failures with
  | none => (s.note [.givingUp s.edge reason]).retire.transition (.failed reason)
  | some delay =>
    let failures := failures + 1
    let s := s.transition (.reconnecting failures)
    { s.note [.reconnecting s.edge failures (delay.millis % 18446744073709551616)] with
      phase := .pausing failures (delay.endOfPause s.lastInstant s.now) }

def lose (s : Session) (link : Nat) (reason : String) : Session :=
  ((s.dropLink link).note [.connectionLost s.edge reason]).retry 0 reason

/-- When the silence of a device becomes too long that begins now, if it ever does: with a bound, and
if channels were requested. None if the clock cannot tell when that is. -/
def deadlineFor? (s : Session) (subscribed : AddressSet) : Option (Option Nat) :=
  match s.idle with
  | none => some none
  | some timeout =>
    if subscribed.isEmpty then some none else (timeout.after? s.lastInstant s.now).map some

/-- Leaves off without a word. -/
def breakDown (s : Session) (link : Nat) : Session := (s.dropLink link).retire

/-- Makes a request if other channels are wanted than were last asked for. -/
def sync (s : Session) (d : Drive) : Session :=
  let s := { s with desiredSeen := s.desired.changes }
  if s.desired.value = d.subscribed then { s with phase := .driving d }
  else
    let count := s.requestsSent + 1
    let request : Request := ⟨⟨s.source, count⟩, count, s.desired.value⟩
    { s with requestsSent := count, phase := .requesting d request }

/-- Begins with an established connection. -/
def openLink (s : Session) (link : Nat) : Session :=
  let s := (s.transition .connected).note [.connected s.edge]
  { s with rejection := none }.sync ⟨link, .fresh, .empty, none, none⟩

def sent (s : Session) (d : Drive) (r : Request) : Session :=
  let s := s.note
    [.requestSent s.edge r.id.text r.count r.channels.size,
      .published (.subscriptionSent s.edge r.count r.channels.size)]
  match s.deadlineFor? r.channels with
  | some deadline =>
    let d := { d with subscribed := r.channels, pending := some r.id, deadline }
    { s with phase := .driving d }
  | none => s.breakDown d.link

def handle (s : Session) (d : Drive) (text : String) : Session :=
  let reading := Message.read text
  let s := { s.note reading.notes with phase := .driving d }
  let pending := d.pending.map RequestId.text
  match reading.message with
  | .error fault => s.note [.malformed s.edge fault.message]
  | .ok (.unhandled method) => s.note [.unhandled s.edge method]
  | .ok (.report snapshot) =>
    match d.gate.pass snapshot.sequence with
    | (gate, true) =>
      let d := { d with gate }
      { s with phase := .forwarding d snapshot }
    | (gate, false) => s.note [.outOfOrder s.edge snapshot.sequence gate.last]
  | .ok (.success id) =>
    if id = pending then { s with rejection := none }.note [.accepted s.edge id]
    else s.note [.unknownResponse s.edge id pending]
  | .ok (.failure id r) =>
    if id = pending then
      { s with rejection := some r }.note
        [.rejected s.edge id r.code r.message,
          .published (.subscriptionRejected s.edge r.code r.message)]
    else s.note [.unknownResponse s.edge id pending]

/-- The outcome of an attempt, with what is left of the connector. -/
def takeOutcome? (s : Session) : Option (Session × Outcome) :=
  match s.connector with
  | .queued [] => none
  | .queued (outcome :: rest) => some ({ s with connector := .queued rest }, outcome)
  | .failing url fault => some (s.note [.connectingTo url], .error fault)
  | .silent => none

/-- The state after a move, if the move is possible. -/
def move? (s : Session) : Move → Option Session
  | .start =>
    match s.phase with
    | .spawned => some (s.attempt 0)
    | _ => none
  | .connect =>
    match s.phase with
    | .connecting failures =>
      match s.takeOutcome? with
      | none => none
      | some (s, .ok link) => some (s.openLink link)
      | some (s, .error fault) =>
        some ((s.note [.connectFailed s.edge fault.message failures]).retry failures fault.message)
    | _ => none
  | .request =>
    match s.phase with
    | .requesting d r =>
      match s.links[d.link]? with
      | none => none
      | some l =>
        match l.toDevice.send r with
        | (toDevice, .ok) => some ((s.modifyLink d.link (fun l => { l with toDevice })).sent d r)
        | (_, .full) => none
        | (_, .closed) => some (s.lose d.link "transport closed while subscribing")
    | _ => none
  | .forward =>
    match s.phase with
    | .forwarding d snapshot =>
      match s.snapshots.send snapshot with
      | (snapshots, .ok) => some { s with snapshots, phase := .driving d }
      | (_, .full) => none
      | (_, .closed) => some ((s.dropLink d.link).note [.processorGone s.edge]).finish
    | _ => none
  | .halt =>
    if s.stopped then
      match s.phase with
      | .connecting _ => some s.finish
      | .pausing _ _ => some s.finish
      | .driving d => some (s.dropLink d.link).finish
      | _ => none
    else none
  | .desire =>
    match s.phase with
    | .driving d => if s.desired.unseen s.desiredSeen then some (s.sync d) else none
    | _ => none
  | .frame =>
    match s.phase with
    | .driving d =>
      match s.links[d.link]? with
      | none => none
      | some l =>
        match l.toClient.receive with
        | (toClient, .item text) =>
          let s := s.modifyLink d.link (fun l => { l with toClient })
          match s.deadlineFor? d.subscribed with
          | some deadline => some (s.handle { d with deadline } text)
          | none => some (s.breakDown d.link)
        | (_, .empty) => none
        | (_, .closed) => some (s.lose d.link "connection closed")
    | _ => none
  | .silence =>
    match s.phase with
    | .driving d =>
      match d.deadline with
      | some deadline =>
        if deadline ≤ s.now then
          let ms := (s.idle.getD ⟨0⟩).millis
          some (s.lose d.link ("no data for " ++ toString ms ++ " ms"))
        else none
      | none => none
    | _ => none
  | .wake =>
    match s.phase with
    | .pausing failures wake => if wake ≤ s.now then some (s.attempt failures) else none
    | _ => none

def moveOrder : List Move :=
  [.start, .request, .forward, .halt, .desire, .frame, .silence, .connect, .wake]

/-- The state after the first possible move. -/
def next? (s : Session) : Option Session := moveOrder.findSome? s.move?

def timer? (s : Session) : Option Nat :=
  match s.phase with
  | .driving d => d.deadline
  | .pausing _ wake => some wake
  | _ => none

/-- How many moves a session can make at one instant. -/
def restBound (s : Session) : Nat :=
  let outcomes := match s.connector with
    | .queued outcomes => outcomes.length
    | _ => 0
  8 * (outcomes + s.framesWaiting + s.policy.maxRetries.getD 0 + 4)

/-- Makes moves until none is possible. -/
def settle (s : Session) : Session := go s.restBound s
where
  go : Nat → Session → Session
    | 0, s => s
    | n + 1, s =>
      match s.next? with
      | some s => go n s
      | none => s

def atTime (s : Session) (now : Nat) : Session := { s with now }

end Session

end ChannelFeed
