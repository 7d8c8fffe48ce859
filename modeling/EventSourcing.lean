import EventSourcing.Dispatch.Dispatcher
import EventSourcing.Json.Printer
import EventSourcing.Json.Reader
import EventSourcing.Postgres.Backend
import EventSourcing.Proofs.Delivery.Order
import EventSourcing.Proofs.Desk
import EventSourcing.Proofs.Sample
import EventSourcing.Proofs.Fleet.Initiators
import EventSourcing.Proofs.Fleet.Integrity
import EventSourcing.Proofs.Holders.Alone
import EventSourcing.Proofs.Holders.Success
import EventSourcing.Proofs.Holders.Updates
import EventSourcing.Sample.Counter
import EventSourcing.Sample.Inventory
import EventSourcing.Simulation.Behaviour
import EventSourcing.Simulation.Session
import EventSourcing.Proofs.Desk.Course
import EventSourcing.Proofs.Desk.Coherence
import EventSourcing.Proofs.Desk.RoundTrip
import EventSourcing.Proofs.Gates
import EventSourcing.Proofs.Gates.Course
import EventSourcing.Proofs.Gates.View
import EventSourcing.Proofs.Gates.Exclusion
import EventSourcing.Proofs.Gates.Idle
import EventSourcing.Proofs.Outlet
import EventSourcing.Proofs.Outlet.Jobs
import EventSourcing.Proofs.Outlet.Course
import EventSourcing.Proofs.Outlet.Order
import EventSourcing.Proofs.Outlet.Alone
import EventSourcing.Proofs.Bureau.Packing
import EventSourcing.Proofs.Bureau.Publication
import EventSourcing.Proofs.Closing.Signal
import EventSourcing.Proofs.Closing.Waits
import EventSourcing.Proofs.Delivery.Dispatch
import EventSourcing.Proofs.Delivery.Ending
import EventSourcing.Proofs.Delivery.Exit
import EventSourcing.Proofs.Layouts
import EventSourcing.Proofs.Bureau
import EventSourcing.Proofs.Bureau.Reports
import EventSourcing.Proofs.Closing
import EventSourcing.Proofs.Fleet.Onlookers
import EventSourcing.Proofs.Fleet.Timestamps
import EventSourcing.Proofs.Holders.Timestamps
import EventSourcing.Proofs.Bureau.Independence
import EventSourcing.Proofs.Calendar
import EventSourcing.Proofs.Rfc3339
import EventSourcing.Proofs.Codec
import EventSourcing.Proofs.Postgres
import EventSourcing.Proofs.Postgres.Rows
import EventSourcing.Proofs.Derived
import EventSourcing.Proofs.Clashes
import EventSourcing.Proofs.Conversation
import EventSourcing.Proofs.Fleet.Draws
import EventSourcing.Proofs.Fleet.Retries
import EventSourcing.Proofs.Delivery.Time
import EventSourcing.Proofs.Delivery.Instant
import EventSourcing.Proofs.Delivery.Schedule
import EventSourcing.Proofs.Delivery.Requests
import EventSourcing.Proofs.Delivery.Isolation
import EventSourcing.Proofs.Capacity
import EventSourcing.Proofs.Submission
import EventSourcing.Proofs.Postgres.Ending
import EventSourcing.Proofs.Foreground
import EventSourcing.Proofs.Saves
import EventSourcing.Proofs.Replay.Fold
import EventSourcing.Proofs.Registrations
import EventSourcing.Proofs.Expectations
import EventSourcing.Proofs.Drafts
import EventSourcing.Proofs.Holders.Entries
import EventSourcing.Proofs.Derived.Bytes
import EventSourcing.Proofs.Settings
import EventSourcing.Proofs.Delivery.Routing
import EventSourcing.Proofs.Json
import EventSourcing.Proofs.Identifiers.Spellings
import EventSourcing.Proofs.Codec.Forms
import EventSourcing.Proofs.Postgres.Bodies
