import FleetScaler.Json.Basic
import FleetScaler.Json.Quoted
import FleetScaler.Json.Reader
import FleetScaler.Json.Printer
import FleetScaler.Calendar
import FleetScaler.Log.Level
import FleetScaler.Log.Entry
import FleetScaler.Log.Logger
import FleetScaler.Terminated
import FleetScaler.Failure
import FleetScaler.Folder
import FleetScaler.Requirements.Basic
import FleetScaler.Requirements.Format
import FleetScaler.Settings.Basic
import FleetScaler.Settings.Format
import FleetScaler.CommandLine.Word
import FleetScaler.CommandLine.Basic
import FleetScaler.Inventory
import FleetScaler.Pass.Report
import FleetScaler.Pass.Format
import FleetScaler.Pass.Collaborators
import FleetScaler.Pass.Script
import FleetScaler.Pass.Basic
import FleetScaler.Slot
import FleetScaler.Table
import FleetScaler.Store
import FleetScaler.Timer
import FleetScaler.Cluster.Basic
import FleetScaler.Cluster.Site
import FleetScaler.Membership.Event
import FleetScaler.Membership.Coordination
import FleetScaler.Membership.Transcript
import FleetScaler.Membership.Elector
import FleetScaler.Membership.Script
import FleetScaler.Controller.Basic
import FleetScaler.Controller.Mastership
import FleetScaler.Controller.Activation
import FleetScaler.Fleet.Basic
import FleetScaler.Fleet.Delivery
import FleetScaler.Daemon
import FleetScaler.Main
import FleetScaler.Proofs.Membership.Identity
import FleetScaler.Proofs.Membership.Line
import FleetScaler.Proofs.Membership.Master
import FleetScaler.Proofs.Membership.Queue
import FleetScaler.Proofs.Document
import FleetScaler.Proofs.Counting
import FleetScaler.Proofs.Pass.Reference
import FleetScaler.Proofs.Membership.Frame
import FleetScaler.Proofs.Controller.Duty
import FleetScaler.Proofs.Membership.Enrolment
import FleetScaler.Proofs.Controller.Seats
import FleetScaler.Proofs.Fleet.Run
import FleetScaler.Proofs.Fleet.Mastery
import FleetScaler.Proofs.Membership.News
import FleetScaler.Proofs.Controller.Part
import FleetScaler.Proofs.Fleet.Agreement
import FleetScaler.Proofs.Cluster.Run
import FleetScaler.Proofs.Cluster.Census
import FleetScaler.Proofs.Cluster.Effect
import FleetScaler.Proofs.Pass.Commands
import FleetScaler.Proofs.Cluster.Convergence
import FleetScaler.Proofs.Cluster.Circular
import FleetScaler.Proofs.Requirements.Grammar
import FleetScaler.Proofs.Json.Values
import FleetScaler.Proofs.Requirements.Conversions
import FleetScaler.Proofs.Json.Quoted
import FleetScaler.Proofs.Json.RoundTrip
import FleetScaler.Proofs.Requirements.Saving
import FleetScaler.Proofs.Store.Run
import FleetScaler.Proofs.Store.Notification
import FleetScaler.Proofs.Membership.Electorate
import FleetScaler.Proofs.Membership.Claims
import FleetScaler.Proofs.Settings.Overlay
import FleetScaler.Proofs.CommandLine.Numbers
import FleetScaler.Proofs.CommandLine.Groups
import FleetScaler.Proofs.CommandLine.Precedence
import FleetScaler.Proofs.Controller.Passes
import FleetScaler.Proofs.Fleet.Staffing
import FleetScaler.Proofs.Membership.Muster
import FleetScaler.Proofs.Daemon.Rising
import FleetScaler.Proofs.Daemon.Startup
import FleetScaler.Proofs.Log.Delivery
import FleetScaler.Proofs.Membership.Emission
import FleetScaler.Proofs.Membership.Dispatch
import FleetScaler.Proofs.Membership.Session
import FleetScaler.Proofs.Controller.Binding
import FleetScaler.Proofs.Fleet.Binding
import FleetScaler.Proofs.Pass.OneView
import FleetScaler.Proofs.Pass.Check
import FleetScaler.Proofs.Pass.Gate
import FleetScaler.Proofs.Cluster.Victims
import FleetScaler.Proofs.Settings.Exactness
import FleetScaler.Proofs.Requirements.Edits
import FleetScaler.Proofs.Membership.Activation
import FleetScaler.Proofs.Log.JsonLine
import FleetScaler.Proofs.Calendar
import FleetScaler.Proofs.Log.Timestamps
import FleetScaler.Proofs.Json.Limits
import FleetScaler.Proofs.Requirements.Loading
import FleetScaler.Proofs.Cluster.Issue
import FleetScaler.Proofs.Membership.Lookup
import FleetScaler.Proofs.Timer.Stopping
