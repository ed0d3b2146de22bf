import PacketPolicy.Ledger.Edit
import PacketPolicy.Main
import PacketPolicy.Proofs.CommandLine.Showing
import PacketPolicy.Proofs.CommandLine.Tables
import PacketPolicy.Proofs.Host.Locks
import PacketPolicy.Proofs.Host.Parents
import PacketPolicy.Proofs.Json.Building
import PacketPolicy.Proofs.Json.Compact
import PacketPolicy.Proofs.Json.Members
import PacketPolicy.Proofs.Json.Readers
import PacketPolicy.Proofs.Json.Records
import PacketPolicy.Proofs.Json.Scanning
import PacketPolicy.Proofs.Json.Spacing
import PacketPolicy.Proofs.Ledger.Blindness
import PacketPolicy.Proofs.Ledger.Calls
import PacketPolicy.Proofs.Ledger.Causes
import PacketPolicy.Proofs.Ledger.Effects
import PacketPolicy.Proofs.Ledger.Failures
import PacketPolicy.Proofs.Ledger.Footprints
import PacketPolicy.Proofs.Ledger.Layout
import PacketPolicy.Proofs.Ledger.Likeness
import PacketPolicy.Proofs.Ledger.Listing
import PacketPolicy.Proofs.Ledger.Looks
import PacketPolicy.Proofs.Ledger.Migrations
import PacketPolicy.Proofs.Ledger.Numbering
import PacketPolicy.Proofs.Ledger.Numbers
import PacketPolicy.Proofs.Ledger.Reads
import PacketPolicy.Proofs.Ledger.Refinement
import PacketPolicy.Proofs.Ledger.Reseeding
import PacketPolicy.Proofs.Ledger.Soundness
import PacketPolicy.Proofs.Ledger.Stepwise
import PacketPolicy.Proofs.Ledger.Timing
import PacketPolicy.Proofs.Network.Characters
import PacketPolicy.Proofs.Network.Writing
import PacketPolicy.Proofs.Policy.Admission
import PacketPolicy.Proofs.Policy.Contents
import PacketPolicy.Proofs.Policy.Documents
import PacketPolicy.Proofs.Policy.Exports
import PacketPolicy.Proofs.Policy.Refusals
import PacketPolicy.Proofs.Policy.Rewriting
import PacketPolicy.Proofs.Results
import PacketPolicy.Proofs.Script.Addresses
import PacketPolicy.Proofs.Script.Clauses
import PacketPolicy.Proofs.Script.Decoding
import PacketPolicy.Proofs.Script.Grammar
import PacketPolicy.Proofs.Script.Relevance
import PacketPolicy.Proofs.Script.Scanning
import PacketPolicy.Proofs.Session.Changes
import PacketPolicy.Proofs.Session.Failures
import PacketPolicy.Proofs.Session.History
import PacketPolicy.Proofs.Session.Imports
import PacketPolicy.Proofs.Session.Interleaving
import PacketPolicy.Proofs.Session.Journal
import PacketPolicy.Proofs.Session.Legibility
import PacketPolicy.Proofs.Session.Obstacles
import PacketPolicy.Proofs.Session.Phases
import PacketPolicy.Proofs.Session.Reachable
import PacketPolicy.Proofs.Session.Readers
import PacketPolicy.Proofs.Session.Replay
import PacketPolicy.Proofs.Session.Rights
import PacketPolicy.Proofs.Session.Runs
import PacketPolicy.Proofs.Session.Timely
import PacketPolicy.Proofs.Session.Transfer
import PacketPolicy.Proofs.Session.Turns
import PacketPolicy.Proofs.Session.Unrecorded
import PacketPolicy.Proofs.Text.Clipping
import PacketPolicy.Proofs.Text.Numerals
import PacketPolicy.Proofs.Time.Timestamps
