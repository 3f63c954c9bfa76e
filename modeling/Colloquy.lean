import Colloquy.Arguments.Request
import Colloquy.Arguments.Word
import Colloquy.Bus.Basic
import Colloquy.Bus.Dispatch
import Colloquy.Chars.Alnum
import Colloquy.Chars.Classes
import Colloquy.Chars.Printable
import Colloquy.Chars.Quoted
import Colloquy.Chars.Split
import Colloquy.Chars.Utf8
import Colloquy.Decimal.Binary
import Colloquy.Decimal.Notation
import Colloquy.Decimal.Read
import Colloquy.Decimal.Shortest
import Colloquy.Files.Path
import Colloquy.Files.Place
import Colloquy.Files.Text
import Colloquy.Files.Tree
import Colloquy.Graph
import Colloquy.Graph.Files
import Colloquy.Graph.Stored
import Colloquy.Json.Basic
import Colloquy.Json.Path
import Colloquy.Json.Reader
import Colloquy.Json.Schema
import Colloquy.Json.Writer
import Colloquy.Ledger
import Colloquy.Library.Basic
import Colloquy.Library.Export
import Colloquy.Library.Loading
import Colloquy.Library.News
import Colloquy.Log
import Colloquy.Main
import Colloquy.Node
import Colloquy.Proofs.Bus.Accounts
import Colloquy.Proofs.Bus.Copies
import Colloquy.Proofs.Bus.Deeds
import Colloquy.Proofs.Bus.Delivery
import Colloquy.Proofs.Bus.Joining
import Colloquy.Proofs.Bus.Listening
import Colloquy.Proofs.Bus.Moments
import Colloquy.Proofs.Bus.OneShots
import Colloquy.Proofs.Bus.Publishing
import Colloquy.Proofs.Bus.Register
import Colloquy.Proofs.Bus.Sorted
import Colloquy.Proofs.Bus.Turns
import Colloquy.Proofs.Bus.Walks
import Colloquy.Proofs.Bus.Watches
import Colloquy.Proofs.Chars.LineEnds
import Colloquy.Proofs.Chars.Trimmed
import Colloquy.Proofs.Chars.Utf8
import Colloquy.Proofs.Chars.Words
import Colloquy.Proofs.Decimal.Beyond
import Colloquy.Proofs.Decimal.Digits
import Colloquy.Proofs.Decimal.Doubles
import Colloquy.Proofs.Decimal.Rounding
import Colloquy.Proofs.Decimal.Shortest
import Colloquy.Proofs.Decimal.Written
import Colloquy.Proofs.Files.Directories
import Colloquy.Proofs.Files.Making
import Colloquy.Proofs.Files.Names
import Colloquy.Proofs.Files.Removing
import Colloquy.Proofs.Files.RoundTrip
import Colloquy.Proofs.Graph.Accepted
import Colloquy.Proofs.Graph.Format
import Colloquy.Proofs.Graph.Index
import Colloquy.Proofs.Graph.RoundTrip
import Colloquy.Proofs.Json.Admitted
import Colloquy.Proofs.Json.Leaves
import Colloquy.Proofs.Json.RoundTrip
import Colloquy.Proofs.Json.Written
import Colloquy.Proofs.Library.Contents
import Colloquy.Proofs.Library.Entries
import Colloquy.Proofs.Library.Failures
import Colloquy.Proofs.Library.Loaded
import Colloquy.Proofs.Library.Precompiled
import Colloquy.Proofs.Library.Rewritten
import Colloquy.Proofs.Library.Skipped
import Colloquy.Proofs.Library.Written
import Colloquy.Proofs.Reference.SinglePass
import Colloquy.Proofs.Script.CommandLines
import Colloquy.Proofs.Script.Layout
import Colloquy.Proofs.Script.Lossless
import Colloquy.Proofs.Script.Nodes
import Colloquy.Proofs.Script.OwnTags
import Colloquy.Proofs.Script.Passages
import Colloquy.Proofs.Script.Places
import Colloquy.Proofs.Script.Printed
import Colloquy.Proofs.Script.Quiet
import Colloquy.Proofs.Script.Reading
import Colloquy.Proofs.Script.RoundTrip
import Colloquy.Proofs.Script.Steps
import Colloquy.Proofs.Script.Tagging
import Colloquy.Proofs.Script.WellFormed
import Colloquy.Proofs.Session.Answers
import Colloquy.Proofs.Session.Assigning
import Colloquy.Proofs.Session.Balance
import Colloquy.Proofs.Session.Beats
import Colloquy.Proofs.Session.Commands
import Colloquy.Proofs.Session.Completion
import Colloquy.Proofs.Session.Course
import Colloquy.Proofs.Session.Cursor
import Colloquy.Proofs.Session.Detours
import Colloquy.Proofs.Session.Hosts
import Colloquy.Proofs.Session.Journal
import Colloquy.Proofs.Session.JumpCommands
import Colloquy.Proofs.Session.Linear
import Colloquy.Proofs.Session.Moves
import Colloquy.Proofs.Session.OnScreen
import Colloquy.Proofs.Session.OwnTags
import Colloquy.Proofs.Session.Pauses
import Colloquy.Proofs.Session.Performance
import Colloquy.Proofs.Session.Redirects
import Colloquy.Proofs.Session.Refusals
import Colloquy.Proofs.Session.Restoring
import Colloquy.Proofs.Session.Signals
import Colloquy.Proofs.Session.Story
import Colloquy.Proofs.Session.Targets
import Colloquy.Proofs.Session.Unreported
import Colloquy.Proofs.Session.Visits
import Colloquy.Proofs.Session.Waiting
import Colloquy.Proofs.Terminal.Answers
import Colloquy.Proofs.Terminal.Playing
import Colloquy.Proofs.Terminal.Screen
import Colloquy.Proofs.Value.Displayed
import Colloquy.Proofs.Value.Hashing
import Colloquy.Proofs.Value.Oversized
import Colloquy.Proofs.Value.RoundTrip
import Colloquy.Record
import Colloquy.Reference
import Colloquy.Script.Compiled
import Colloquy.Script.Draft
import Colloquy.Script.Line
import Colloquy.Script.Settings
import Colloquy.Script.Tag
import Colloquy.Script.Warning
import Colloquy.Session.Basic
import Colloquy.Session.Play
import Colloquy.Session.Stored
import Colloquy.Store
import Colloquy.Terminal.Player
import Colloquy.Terminal.Run
import Colloquy.Terminal.Screen
import Colloquy.Value.Basic
import Colloquy.Value.Parse
import Colloquy.Value.Source
import Colloquy.Value.Stored
