import Switchyard.Assoc
import Switchyard.Binary64
import Switchyard.Command.Argument
import Switchyard.Command.Journal
import Switchyard.Command.Loading
import Switchyard.Command.Path
import Switchyard.Command.Perform
import Switchyard.Command.Request
import Switchyard.Command.Workspace
import Switchyard.Grading.Checker
import Switchyard.Grading.Nesting
import Switchyard.Grading.Rows
import Switchyard.Grading.Table
import Switchyard.Grading.Verdict
import Switchyard.Hdl.GateKind
import Switchyard.Hdl.Line
import Switchyard.Hdl.Program
import Switchyard.Hdl.Survey
import Switchyard.Json.Integer
import Switchyard.Json.Key
import Switchyard.Json.Reader
import Switchyard.Json.Value
import Switchyard.Json.Writer
import Switchyard.Logic.Capacity
import Switchyard.Logic.Circuit
import Switchyard.Logic.Round
import Switchyard.Logic.Simulator
import Switchyard.Main
import Switchyard.Pipeline
import Switchyard.Proofs.Grading.Columns
import Switchyard.Proofs.Grading.Histories
import Switchyard.Proofs.Grading.Monotone
import Switchyard.Proofs.Grading.Rectangles
import Switchyard.Proofs.Grading.Rows
import Switchyard.Proofs.Grading.Rowwise
import Switchyard.Proofs.Grading.Total
import Switchyard.Proofs.Grading.Unlocking
import Switchyard.Proofs.Hdl.Capitals
import Switchyard.Proofs.Hdl.Grammar
import Switchyard.Proofs.Hdl.Locality
import Switchyard.Proofs.Hdl.Operands
import Switchyard.Proofs.Hdl.Ports
import Switchyard.Proofs.Hdl.Spelling
import Switchyard.Proofs.Hdl.Stages
import Switchyard.Proofs.Hdl.Surveys
import Switchyard.Proofs.Hdl.Validity
import Switchyard.Proofs.Hdl.Written
import Switchyard.Proofs.Logic.Abstraction
import Switchyard.Proofs.Logic.Acyclic
import Switchyard.Proofs.Logic.Bits
import Switchyard.Proofs.Logic.Building
import Switchyard.Proofs.Logic.Clocking
import Switchyard.Proofs.Logic.Composition
import Switchyard.Proofs.Logic.Information
import Switchyard.Proofs.Logic.Iteration
import Switchyard.Proofs.Logic.Latches
import Switchyard.Proofs.Logic.Programs
import Switchyard.Proofs.Logic.Reordering
import Switchyard.Proofs.Logic.Reports
import Switchyard.Proofs.Logic.Sessions
import Switchyard.Proofs.Logic.ShiftRegister
import Switchyard.Proofs.Logic.TwoValued
import Switchyard.Proofs.Logic.Updates
import Switchyard.Proofs.Logic.WideGates
import Switchyard.Proofs.Outcomes
import Switchyard.Proofs.Pipelines
import Switchyard.Proofs.Relay.Access
import Switchyard.Proofs.Relay.Agreement
import Switchyard.Proofs.Relay.Assertions
import Switchyard.Proofs.Relay.Connectivity
import Switchyard.Proofs.Relay.Consistency
import Switchyard.Proofs.Relay.Contacts
import Switchyard.Proofs.Relay.Documents
import Switchyard.Proofs.Relay.Editing
import Switchyard.Proofs.Relay.Embedding
import Switchyard.Proofs.Relay.History
import Switchyard.Proofs.Relay.Independence
import Switchyard.Proofs.Relay.Inputs
import Switchyard.Proofs.Relay.Insertion
import Switchyard.Proofs.Relay.Labelling
import Switchyard.Proofs.Relay.Levels
import Switchyard.Proofs.Relay.LiveEdits
import Switchyard.Proofs.Relay.Monotone
import Switchyard.Proofs.Relay.Numbering
import Switchyard.Proofs.Relay.PortNames
import Switchyard.Proofs.Relay.Rewiring
import Switchyard.Proofs.Relay.Rounds
import Switchyard.Proofs.Relay.Saving
import Switchyard.Proofs.Relay.States
import Switchyard.Proofs.Relay.Supply
import Switchyard.Proofs.Relay.Uncontested
import Switchyard.Proofs.Relay.Views
import Switchyard.Proofs.Relay.WellFormed
import Switchyard.Proofs.Report.Phrases
import Switchyard.Proofs.Report.Reading
import Switchyard.Proofs.Report.Tables
import Switchyard.Proofs.Sorting
import Switchyard.Proofs.Tiers
import Switchyard.Relay.Bench
import Switchyard.Relay.Circuit
import Switchyard.Relay.Component
import Switchyard.Relay.Document
import Switchyard.Relay.Ident
import Switchyard.Relay.Inspection
import Switchyard.Relay.Net
import Switchyard.Relay.Netlist
import Switchyard.Relay.Simulator
import Switchyard.Relay.Structure
import Switchyard.Relay.Wire
import Switchyard.Report.Csv
import Switchyard.Report.Diagnosis
import Switchyard.Report.Export
import Switchyard.Signal
import Switchyard.Sorting
import Switchyard.Text.Blank
import Switchyard.Text.Letter
import Switchyard.Text.Numeral
import Switchyard.Text.Quoted
import Switchyard.Text.Surrogate
import Switchyard.Text.Upper
import Switchyard.Text.Utf8
