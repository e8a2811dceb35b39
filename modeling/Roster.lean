import Roster.Options.Validation
import Roster.Endpoint
import Roster.Health
import Roster.Message
import Roster.Text
import Roster.Wire.Envelope
import Roster.Store
import Roster.MemberList
import Roster.Chance
import Roster.Detector
import Roster.Eviction
import Roster.Gossip.Queue
import Roster.Healing
import Roster.Joining
import Roster.Courier
import Roster.Datagram
import Roster.Network
import Roster.Yaml.Cursor
import Roster.Yaml.Layout
import Roster.Yaml.Tree
import Roster.Options.Document
import Roster.Arguments
import Roster.Node
import Roster.Node.Reception
import Roster.Node.Step
import Roster.Host
import Roster.Simulation
import Roster.Simulation.Cluster
import Roster.Main
import Roster.Proofs.Endpoint
import Roster.Proofs.SortedMap
import Roster.Proofs.Tags
import Roster.Proofs.Store.Operation
import Roster.Proofs.Store.Entries
import Roster.Proofs.Store.Document
import Roster.Proofs.Store
import Roster.Proofs.MemberList.Evolution
import Roster.Proofs.MemberList.Views
import Roster.Proofs.MemberList.Log
import Roster.Proofs.MemberList.Import
import Roster.Proofs.Federation
import Roster.Proofs.Federation.Coherence
import Roster.Proofs.Federation.Run
import Roster.Proofs.Federation.Convergence
import Roster.Proofs.MemberList.Attribution
import Roster.Proofs.Federation.Attribution
import Roster.Proofs.Federation.Deletion
import Roster.Proofs.MemberList.Presence
import Roster.Proofs.Federation.Presence
import Roster.Proofs.Activity
import Roster.Proofs.Detector
import Roster.Proofs.Node.Move
import Roster.Proofs.Node.Newcomer
import Roster.Proofs.Node.Refutation
import Roster.Proofs.Wire.Envelope
import Roster.Proofs.Detector.Timing
import Roster.Proofs.Detector.Run
import Roster.Proofs.Store.Exchange
import Roster.Proofs.Ensemble.Exchange
import Roster.Proofs.Node.Settled
import Roster.Proofs.Federation.Refusal
import Roster.Proofs.Node.Joining
import Roster.Proofs.MemberList.Spending
import Roster.Proofs.MemberList.Sparing
import Roster.Proofs.Federation.Relay
import Roster.Proofs.Gossip.Queue
import Roster.Proofs.Gossip.Capacity
import Roster.Proofs.Gossip.Run
import Roster.Proofs.Gossip.Room
import Roster.Proofs.Gossip.Entry
import Roster.Proofs.Gossip.Spread
import Roster.Proofs.Gossip.Recall
import Roster.Proofs.Gossip.Window
import Roster.Proofs.Courier.Packing
import Roster.Proofs.Courier.Spreading
import Roster.Proofs.Courier.Errand
import Roster.Proofs.Node.Conduct
import Roster.Proofs.Node.Retirement
import Roster.Proofs.MemberList.Removal
import Roster.Proofs.Eviction
import Roster.Proofs.Detector.Report
import Roster.Proofs.Host
import Roster.Proofs.Node.Requests
import Roster.Proofs.Detector.Deadline
import Roster.Proofs.Detector.Announcement
import Roster.Proofs.Detector.Rounds
import Roster.Proofs.Node.Rounds
import Roster.Proofs.Node.Reports
import Roster.Proofs.Detector.Books
import Roster.Proofs.Detector.Accounts
import Roster.Proofs.Detector.Suspectors
import Roster.Proofs.Eviction.Tick
import Roster.Proofs.Eviction.Probing
import Roster.Proofs.Rotation.Fairness
import Roster.Proofs.Joining.Retry
import Roster.Proofs.Healing
import Roster.Proofs.MemberList.Supersession
import Roster.Proofs.MemberList.Aliases
import Roster.Proofs.Ensemble.Batch
import Roster.Proofs.Wire.Thrift
import Roster.Proofs.Network.Ports
import Roster.Proofs.Host.Announcement
import Roster.Proofs.Overflow
import Roster.Proofs.Health
