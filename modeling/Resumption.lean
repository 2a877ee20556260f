import Resumption.Code.Basic
import Resumption.Code.Lowering
import Resumption.Code.Printer
import Resumption.Code.Recording
import Resumption.Code.Scopes
import Resumption.Code.Traversal
import Resumption.Command.Basic
import Resumption.Command.Perform
import Resumption.Config.Basic
import Resumption.Config.Load
import Resumption.Config.Settings
import Resumption.Engine.Activation
import Resumption.Engine.ArrayMethods
import Resumption.Engine.Call
import Resumption.Engine.Construct
import Resumption.Engine.Drive
import Resumption.Engine.Instrumented
import Resumption.Engine.Stepper
import Resumption.Index.Declarations
import Resumption.Index.Registry
import Resumption.Index.Tree
import Resumption.Json.Basic
import Resumption.Json.Number
import Resumption.Json.Text
import Resumption.Machine.Access
import Resumption.Machine.Basic
import Resumption.Machine.Native
import Resumption.Machine.Setup
import Resumption.Main
import Resumption.Number.Digits
import Resumption.Number.Dyadic
import Resumption.Number.Text
import Resumption.Proofs.CallChain
import Resumption.Proofs.Capture
import Resumption.Proofs.Conduct.Basic
import Resumption.Proofs.Conduct.Construct
import Resumption.Proofs.Conduct.Instrumented
import Resumption.Proofs.Conduct.Machine
import Resumption.Proofs.Conduct.Run
import Resumption.Proofs.Conduct.Stepper
import Resumption.Proofs.Conduct.Tally
import Resumption.Proofs.Code.Pieces
import Resumption.Proofs.Code.Positions
import Resumption.Proofs.Code.Records
import Resumption.Proofs.Code.Shift
import Resumption.Proofs.Index.Numbering
import Resumption.Proofs.Index.Partition
import Resumption.Proofs.Match.Activation
import Resumption.Proofs.Match.Alike
import Resumption.Proofs.Match.Construct
import Resumption.Proofs.Match.Evaluation
import Resumption.Proofs.Match.Heap
import Resumption.Proofs.Match.Lowered
import Resumption.Proofs.Match.Machine
import Resumption.Proofs.Match.Names
import Resumption.Proofs.Match.Native
import Resumption.Proofs.Match.Placed
import Resumption.Proofs.Match.Pursuit
import Resumption.Proofs.Match.Simulation
import Resumption.Proofs.Match.Terms
import Resumption.Proofs.Match.Twin
import Resumption.Proofs.Match.Walking
import Resumption.Proofs.Match.World
import Resumption.Script.Basic
import Resumption.Script.Document
import Resumption.Script.Fault
import Resumption.Script.Grammar
import Resumption.Script.Lexeme
import Resumption.Script.Node
import Resumption.Script.Printer
import Resumption.Script.Same
import Resumption.Stack.Activation
import Resumption.Stack.Frame
import Resumption.Stack.Unwind
import Resumption.Text.Blank
import Resumption.Text.Case
import Resumption.Text.Quoted
import Resumption.Text.Ranges
import Resumption.Text.Spelled
import Resumption.Text.Visible
import Resumption.Value.Basic
import Resumption.Value.Chain
import Resumption.Value.Convert
import Resumption.Value.Heap
import Resumption.Value.Json
import Resumption.Value.Object
import Resumption.Value.Operators
import Resumption.Proofs.Reading.Expression
import Resumption.Proofs.Reading.Level
import Resumption.Proofs.Reading.Outcome
import Resumption.Proofs.Reading.Depth
import Resumption.Proofs.Reading.Formation
import Resumption.Proofs.Engines
import Resumption.Proofs.Property
import Resumption.Proofs.Stack.Arena
import Resumption.Proofs.Conduct.Depth
import Resumption.Proofs.Conduct.Standing
import Resumption.Proofs.Resuming
import Resumption.Proofs.Interruption
import Resumption.Proofs.Diary
import Resumption.Proofs.Code.Labels
import Resumption.Proofs.Index.Hoisting
import Resumption.Proofs.Code.Closures
import Resumption.Proofs.Value.Insertion
import Resumption.Proofs.Value.Elements
import Resumption.Proofs.Value.Documents
import Resumption.Proofs.Value.Conversion
import Resumption.Proofs.Sound.Inheritance
import Resumption.Proofs.Sound.Replay
import Resumption.Proofs.Reading.WellFormed
import Resumption.Proofs.Reading.Construction
import Resumption.Proofs.Code.Failing
import Resumption.Proofs.Sound.Copies
