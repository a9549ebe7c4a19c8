import Elector.Host

/-!
# Clusters

Several hosts on one network, on one clock. Whenever time stands still every frame is taken in and
answered, so messages take no time.
-/

namespace Elector

/-- A host with the inbox that it listens to. -/
structure Station where
  host : Host
  inbox : Nat

namespace Station

def id (s : Station) : NodeId := s.host.settings.id

end Station

structure Cluster where
  network : Network := {}
  stations : List Station := []
  clock : Clock := {}
  now : Nat := 0

namespace Cluster

def find? (c : Cluster) (id : NodeId) : Option Nat := c.stations.findIdx? (·.id = id)

def setHost (c : Cluster) (place : Nat) (host : Host) : Cluster :=
  { c with stations := c.stations.modify place fun s => { s with host } }

/-- Puts what `source` sends on the network; what is not delivered is lost. -/
def sendAll (c : Cluster) (source : NodeId) (sent : List Outgoing) : Cluster :=
  { c with network := sent.foldl (fun n o => (n.send source o.1 o.2).1) c.network }

/-! ## Taking in frames -/

/-- Lets a station take one frame from its inbox. A station whose process has stopped closes its
inbox at the first well-formed frame. -/
def takeFrame (c : Cluster) (place : Nat) : Option Cluster :=
  match c.stations[place]? with
  | none => none
  | some s =>
    match c.network.receive s.inbox with
    | (network, .frame frame) =>
      let c := { c with network }
      match s.host.deliverBytes frame with
      | .ok (host, sent) => some ((c.setHost place host).sendAll s.id sent)
      | .error (.malformed _) => some c
      | .error _ => some { c with network := c.network.close s.inbox }
    | _ => none

def takeAny (c : Cluster) : Option Cluster :=
  (List.range c.stations.length).findSome? c.takeFrame

/-- A bound on the frames that a frame leads to, itself included. -/
def weight (size : Nat) (frame : Bytes) : Nat :=
  match Frame.decode frame with
  | .ok (.voteRequest _) => 2 * size + 2
  | .ok (.voteResponse _) => 2 * size + 1
  | .ok (.appendEntries _) => 2
  | _ => 1

/-- Lets stations take frames, `fuel` at most. -/
def takeFrames : Nat → Cluster → Cluster
  | 0, c => c
  | fuel + 1, c =>
    match c.takeAny with
    | none => c
    | some c => takeFrames fuel c

/-- Lets the stations take frames until no inbox that is listened to holds any. -/
def settle (c : Cluster) : Cluster :=
  let size := ((c.stations.map (·.host.settings.roster.size)).max?).getD 0
  let frames := c.network.inboxes.flatMap (·.frames)
  takeFrames (frames.foldl (fun bound f => bound + weight size f) 0) c

/-! ## Operations -/

/-- Starts a host as a new station, if its storage could be opened. A node that does not start has
been registered and has dropped its inbox. -/
def join (c : Cluster) (settings : NodeSettings) (draw : Nat → Nat)
    (opened : Except StartError Storage) : Cluster × Except StartError Unit :=
  match opened with
  | .error e => (c, .error e)
  | .ok storage =>
    let (network, inbox) := c.network.register settings.id
    let host : Host := { settings, draw, idle := storage, clock := c.clock, now := c.now }
    match host.start with
    | (_, .error e) => ({ c with network := network.close inbox }, .error e)
    | (host, .ok ()) =>
      ({ c with network, stations := c.stations ++ [Station.mk host inbox] }.settle, .ok ())

/-- Starts a station again under a new registration; its old process stops. -/
def restart (c : Cluster) (place : Nat) : Cluster × Except StartError Unit :=
  match c.stations[place]? with
  | none => (c, .ok ())
  | some s =>
    let (network, inbox) := c.network.register s.id
    let (host, result) := s.host.restart
    let network := match result with
      | .error _ => network.close inbox
      | .ok () => network
    let stations := c.stations.modify place fun _ => Station.mk host inbox
    ({ c with network, stations }.settle, result)

/-- Hands a message to a station, unless its process has stopped. -/
def deliver (c : Cluster) (place : Nat) (m : Message) : Option Cluster :=
  match c.stations[place]? with
  | none => none
  | some s =>
    (s.host.deliver m).map fun (host, sent) => ((c.setHost place host).sendAll s.id sent).settle

def deliverBytes (c : Cluster) (place : Nat) (frame : Bytes) : Except DeliveryError Cluster :=
  match c.stations[place]? with
  | none => .error .channelClosed
  | some s =>
    match s.host.deliverBytes frame with
    | .error e => .error e
    | .ok (host, sent) => .ok ((c.setHost place host).sendAll s.id sent).settle

def send (c : Cluster) (source target : NodeId) (frame : Bytes) :
    Cluster × Except DeliveryError Unit :=
  let (network, result) := c.network.send source target frame
  ({ c with network }.settle, result)

def shutdown (c : Cluster) (place : Nat) : Cluster :=
  match c.stations[place]? with
  | none => c
  | some s => c.setHost place s.host.shutdown

def isolate (c : Cluster) (id : NodeId) : Cluster := { c with network := c.network.isolate id }

def heal (c : Cluster) (id : NodeId) : Cluster := { c with network := c.network.heal id }

def modifyStorage (c : Cluster) (place : Nat) (change : Storage → Storage) : Cluster :=
  match c.stations[place]? with
  | none => c
  | some s => c.setHost place (s.host.modifyStorage change)

def statuses (c : Cluster) : List (NodeId × Option Status) :=
  c.stations.map fun s => (s.id, s.host.status?)

/-! ## Time -/

/-- The earliest alarm, with the place of its station; of several the first. -/
def nextAlarm (c : Cluster) : Option (Nat × Nat) :=
  (c.stations.zipIdx.filterMap fun (s, place) => s.host.due?.map fun due => (due, place)).foldl
    (fun best a => match best with
      | some b => if a.1 < b.1 then some a else some b
      | none => some a) none

/-- Sets the clock, which all hosts read. -/
def setTime (c : Cluster) (now : Nat) : Cluster :=
  { c with now, stations := c.stations.map fun s => { s with host.now := now } }

/-- Lets the alarm of a station go off, if it is due. -/
def ring (c : Cluster) (place : Nat) : Cluster :=
  match c.stations[place]? with
  | none => c
  | some s =>
    let (host, sent) := s.host.fire
    (c.setHost place host).sendAll s.id sent

/-- Lets an alarm go off, with all that follows at the same time. -/
def fire (c : Cluster) (place : Nat) : Cluster := (c.ring place).settle

/-- Sets the clock to `target`, with all alarms on the way, `fuel` at most. -/
def passTo (target : Nat) : Nat → Cluster → Cluster
  | 0, c => c.setTime target
  | fuel + 1, c =>
    match c.nextAlarm with
    | none => c.setTime target
    | some (due, place) =>
      if due ≤ target then passTo target fuel ((c.setTime (max c.now due)).fire place)
      else c.setTime target

/-- Lets a wait of `ms` milliseconds pass, one alarm at a time. On each station no alarm is due
sooner than a millisecond after the one before. -/
def advance (c : Cluster) (ms : Nat) : Cluster :=
  let target := c.clock.waitEnd ms c.now
  passTo target ((target - c.now + 1) * c.stations.length) c

end Cluster

end Elector
