import Elector.Cluster
import Elector.Command.Parse
import Elector.Hex
import Elector.Report
import Elector.Settings.Document

/-!
# Running commands

What a command prints, how it fails, and what it makes durable. The files that it finds, the clock
of its cluster and the choices of its election delays are given from outside.
-/

namespace Elector

inductive CommandError
  | noNodes
  | loading (path : String)
  | settings (cause : SettingsError)
  | start (cause : StartError)
  | leader (cause : LeaderError)
  | hex (cause : HexError)
  | frame (cause : FrameError)
  | seed (directory : String) (cause : SeedError)

def CommandError.message : CommandError → String
  | noNodes => "a cluster needs at least one node"
  | loading path => s!"loading cluster config {path}"
  | settings cause => cause.message
  | start cause => cause.message
  | leader cause => cause.message
  | hex cause => cause.message
  | frame cause => cause.message
  | seed directory cause => cause.message directory

structure Surroundings where
  content? : String → Option Bytes := fun _ => none
  /-- The durable side of the node that keeps its data in a folder. -/
  disk : String → Disk := fun _ => .missing
  clock : Clock := {}

/-- What a command leaves behind: durable sides by data folder, the lines it printed, and how it
ended. -/
structure Outcome where
  disks : List (String × Disk) := []
  lines : List String := []
  result : Except CommandError Unit := .ok ()

/-! ## Clusters -/

namespace ClusterOptions

/-- The settings of the cluster: read from a file, or those of nodes 1 to `nodes`. -/
def settings (o : ClusterOptions) (w : Surroundings) : Except CommandError ClusterSettings :=
  match o.config with
  | some path =>
    match ClusterSettings.loadFile (w.content? path) with
    | .ok c => .ok c
    | .error _ => .error (.loading path)
  | none =>
    if o.nodes < 1 then .error .noNodes
    else .ok (.within ((List.range o.nodes.toNatClampNeg).map fun i => Int32.ofNat (i + 1)))

/-- Opens the storage of a node: files in its data folder, or memory. -/
def openStorage (o : ClusterOptions) (s : NodeSettings) (w : Surroundings) :
    Except StartError Storage :=
  if o.persist then
    let closed : Storage := { disk := w.disk s.dataDir, medium := .file, log := .journal .fresh }
    match closed.reopenBallots with
    | .error e => .error (.votes e)
    | .ok s =>
      match s.reopenLog with
      | .error e => .error (.journal e)
      | .ok s => .ok s
  else .ok {}

/-- Starts the nodes in order, up to the first that does not start. -/
def startAll (o : ClusterOptions) (c : ClusterSettings) (draws : Nat → Nat → Nat)
    (w : Surroundings) : Cluster → List NodeId → Cluster × Except CommandError Unit
  | cluster, [] => (cluster, .ok ())
  | cluster, id :: rest =>
    match c.forNode id with
    | .error e => (cluster, .error (.settings e))
    | .ok s =>
      match cluster.join s (draws cluster.stations.length) (o.openStorage s w) with
      | (cluster, .error e) => (cluster, .error (.start e))
      | (cluster, .ok ()) => o.startAll c draws w cluster rest

/-- What the nodes made durable, and the disk of the node that did not start, if there is one. -/
def durable (o : ClusterOptions) (c : ClusterSettings) (w : Surroundings) (cluster : Cluster) :
    List (String × Disk) :=
  if o.persist then
    let untouched := match (c.ids[cluster.stations.length]?).map c.forNode with
      | some (.ok s) => [(s.dataDir, w.disk s.dataDir)]
      | _ => []
    cluster.stations.map (fun s => (s.host.settings.dataDir, s.host.storage.disk)) ++ untouched
  else []

def statuses (cluster : Cluster) : List Status := cluster.statuses.filterMap (·.2)

private def leaderLine (title : String) (s : Status) : String :=
  s!"{title}: node {s.id} in term {s.term}"

/-- Isolates the leader and lets a second round run; that it elects nobody is no failure. -/
def secondRound (o : ClusterOptions) (leader : Status) (cluster : Cluster) :
    Cluster × List String :=
  let cluster := (cluster.isolate leader.id).advance o.settle.toNat
  let seen := statuses cluster
  let found := match soleLeader (seen.filter (·.id ≠ leader.id)) with
    | .ok s => [leaderLine "new leader" s]
    | .error _ => []
  (cluster, seen.map (·.line) ++ found)

/-- Runs a cluster until its first leader should be there, and reports on it. -/
def run (o : ClusterOptions) (draws : Nat → Nat → Nat) (w : Surroundings) : Outcome :=
  match o.settings w with
  | .error e => { result := .error e }
  | .ok c =>
    let durable := o.durable c w
    match o.startAll c draws w { clock := w.clock } c.ids with
    | (cluster, .error e) => { disks := durable cluster, result := .error e }
    | (cluster, .ok ()) =>
      let cluster := cluster.advance o.settle.toNat
      let seen := statuses cluster
      let lines := seen.map (·.line)
      match soleLeader seen with
      | .error e => { disks := durable cluster, lines, result := .error (.leader e) }
      | .ok leader =>
        let lines := lines ++ [leaderLine "leader" leader]
        if o.isolateLeader then
          let (cluster, more) := o.secondRound leader cluster
          { disks := durable cluster, lines := lines ++ more }
        else { disks := durable cluster, lines }

end ClusterOptions

/-! ## Commands -/

namespace Command

/-- The message of a frame in hexadecimal, spread over lines. -/
def decodeHex (hex : String) : Except CommandError String :=
  match Hex.decode hex with
  | .error e => .error (.hex e)
  | .ok bs =>
    match Frame.decode bs with
    | .error e => .error (.frame e)
    | .ok m => .ok (String.ofList (m.toValue.pretty 0))

def run (c : Command) (draws : Nat → Nat → Nat) (w : Surroundings) : Outcome :=
  match c with
  | cluster options => options.run draws w
  | decode hex =>
    match decodeHex hex with
    | .error e => { result := .error e }
    | .ok text => { lines := [text] }
  | encode m => { lines := [Hex.encode (Frame.encode m)] }
  | log dataDir action =>
    let (disk, result) := action.run (w.disk dataDir)
    let disks := [(dataDir, disk)]
    match result with
    | .error e => { disks, result := .error (.seed dataDir e) }
    | .ok last =>
      { disks, lines := [s!"last log position: term {last.term} index {last.index}"] }

/-! ## The program -/

def settingsPath? : Command → Option String
  | cluster options => options.config
  | _ => none

def dataDirs (c : Command) (w : Surroundings) : List String :=
  match c with
  | cluster options =>
    match options.persist, options.settings w with
    | true, .ok settings =>
      settings.ids.filterMap fun id =>
        match settings.forNode id with
        | .ok node => some node.dataDir
        | .error _ => none
    | _, _ => []
  | log dataDir _ => [dataDir]
  | _ => []

structure Exit where
  code : UInt8
  output : String := ""
  error : Option String := none
  disks : List (String × Disk) := []

def helpText : String := "Usage: elector <cluster|decode|encode|log> [arguments]\n"

def execute (arguments : List String) (draws : Nat → Nat → Nat) (w : Surroundings) : Exit :=
  match parse arguments with
  | .error .help => { code := 0, output := helpText }
  | .error .usage => { code := 2, error := some "usage error" }
  | .ok c =>
    let outcome := c.run draws w
    let output := String.join (outcome.lines.map (· ++ "\n"))
    match outcome.result with
    | .ok () => { code := 0, output, disks := outcome.disks }
    | .error e =>
      { code := 1, output, error := some s!"Error: {e.message}", disks := outcome.disks }

end Command

end Elector
