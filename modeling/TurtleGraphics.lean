import TurtleGraphics.Main
import TurtleGraphics.Proofs.Catalog.Loading
import TurtleGraphics.Proofs.CommandLine.Action
import TurtleGraphics.Proofs.CommandLine.Effects
import TurtleGraphics.Proofs.Decimal.Fixed
import TurtleGraphics.Proofs.Drawing.Accuracy
import TurtleGraphics.Proofs.Drawing.Characters
import TurtleGraphics.Proofs.Drawing.Moves
import TurtleGraphics.Proofs.Json.Document
import TurtleGraphics.Proofs.Json.Literal
import TurtleGraphics.Proofs.Json.Order
import TurtleGraphics.Proofs.Json.Quoting
import TurtleGraphics.Proofs.Json.Reading
import TurtleGraphics.Proofs.Level.Entry
import TurtleGraphics.Proofs.Run.Ceiling
import TurtleGraphics.Proofs.Run.Composition
import TurtleGraphics.Proofs.Run.Dump
import TurtleGraphics.Proofs.Run.Exact
import TurtleGraphics.Proofs.Run.Failure
import TurtleGraphics.Proofs.Run.Frame
import TurtleGraphics.Proofs.Run.Listing
import TurtleGraphics.Proofs.Run.Pen
import TurtleGraphics.Proofs.Run.Restyling
import TurtleGraphics.Proofs.Run.Saturation
import TurtleGraphics.Proofs.Run.Sums
import TurtleGraphics.Proofs.Run.Unrolling
import TurtleGraphics.Proofs.Run.Walk
import TurtleGraphics.Proofs.Statement.Wording
import TurtleGraphics.Proofs.Token.Printing
