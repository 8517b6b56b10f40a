import ChannelFeed.Proofs.Session.Run

namespace ChannelFeed.Session

/-- What the steps of a past left behind, the earliest first. -/
def logged {α : Type} (entries : Session → Step → List α) (past : Past) : List α :=
  past.flatMap (fun x => entries x.1 x.2)

theorem logged_append {α : Type} (entries : Session → Step → List α) (past : Past) (s : Session)
    (x : Step) : logged entries (past ++ [(s, x)]) = logged entries past ++ entries s x := by
  simp [logged]

/-- The connection that is opened in a step, with the channels that are wanted then. -/
def openedIn (s : Session) : Step → List (Nat × AddressSet)
  | .move .connect =>
    match s.phase, s.takeOutcome? with
    | .connecting _, some (_, .ok link) => [(link, s.desired.value)]
    | _, _ => []
  | _ => []

def putIn (s : Session) : Step → List (Nat × Request)
  | .move .request =>
    match s.phase with
    | .requesting d r =>
      match s.links[d.link]? with
      | some l => if (l.toDevice.send r).2 = .ok then [(d.link, r)] else []
      | none => []
    | _ => []
  | _ => []

/-- The frame that is handled in a step. One that is taken when no clock can tell the next deadline
any more is not. -/
def handledIn (s : Session) : Step → List (Nat × String)
  | .move .frame =>
    match s.phase with
    | .driving d =>
      match s.links[d.link]?, s.deadlineFor? d.subscribed with
      | some l, some _ => (l.toClient.queue.head?.map (fun text => (d.link, text))).toList
      | _, _ => []
    | _ => []
  | _ => []

def takenIn (s : Session) : Step → List Snapshot
  | .take => s.snapshots.queue.head?.toList
  | _ => []

def carriedIn (s : Session) : Step → List Note
  | .collect => s.notes
  | _ => []

/-- Everything noted in a run. -/
def noted (past : Past) (s : Session) : List Note := logged carriedIn past ++ s.notes

end ChannelFeed.Session
