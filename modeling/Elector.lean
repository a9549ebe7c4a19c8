import Elector.Main
import Elector.Session
import Elector.Simulation
import Elector.Proofs.Ballots
import Elector.Proofs.Disk
import Elector.Proofs.Storage
import Elector.Proofs.Handling
import Elector.Proofs.Turn
import Elector.Proofs.Record
import Elector.Proofs.Sending
import Elector.Proofs.Origin
import Elector.Proofs.Life
import Elector.Proofs.OneVote
import Elector.Proofs.World
import Elector.Proofs.Election
import Elector.Proofs.Mandate
import Elector.Proofs.Agreement
import Elector.Proofs.Reachable
import Elector.Proofs.Failure
import Elector.Proofs.Alarm
import Elector.Proofs.Course
import Elector.Proofs.Frame
import Elector.Proofs.Working
import Elector.Proofs.Campaign
import Elector.Proofs.Undisturbed
import Elector.Proofs.Aftermath
import Elector.Proofs.VoteFile
import Elector.Proofs.Twins
import Elector.Proofs.Media
import Elector.Proofs.Allegiance
import Elector.Proofs.Scene
import Elector.Proofs.Order
import Elector.Proofs.Following
import Elector.Proofs.Attending
import Elector.Proofs.Inboxes
import Elector.Proofs.Deeds
import Elector.Proofs.Settling
import Elector.Proofs.Clock
import Elector.Proofs.Joining
import Elector.Proofs.StableLeader
import Elector.Proofs.Shape
import Elector.Proofs.Progress
import Elector.Proofs.Notices
import Elector.Proofs.Stream
import Elector.Proofs.Grammar
import Elector.Proofs.Canonical
import Elector.Proofs.Contract
import Elector.Proofs.Journal
import Elector.Proofs.FailedAppends
import Elector.Proofs.Seeding
import Elector.Proofs.Torn
import Elector.Proofs.CutAppends
import Elector.Proofs.Path
import Elector.Proofs.Membership
import Elector.Proofs.Foreign
import Elector.Proofs.Redelivery
import Elector.Proofs.Counting
import Elector.Proofs.Delivery
import Elector.Proofs.Printing
import Elector.Proofs.Documents
import Elector.Proofs.Motion
import Elector.Proofs.Mirroring
import Elector.Proofs.SoleLeader
import Elector.Proofs.Started
import Elector.Proofs.Hex
