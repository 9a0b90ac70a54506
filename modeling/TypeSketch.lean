import TypeSketch.Main
import TypeSketch.Program.Build
import TypeSketch.Proofs.CommandLine.Pool
import TypeSketch.Proofs.Dispatch
import TypeSketch.Proofs.Inference.Agreement
import TypeSketch.Proofs.Inference.Collisions
import TypeSketch.Proofs.Inference.Components
import TypeSketch.Proofs.Inference.Idempotence
import TypeSketch.Proofs.Inference.InPlace
import TypeSketch.Proofs.Inference.Likeness
import TypeSketch.Proofs.Inference.Literals
import TypeSketch.Proofs.Inference.Order
import TypeSketch.Proofs.Inference.PassCount
import TypeSketch.Proofs.Inference.Resolving
import TypeSketch.Proofs.Inference.Soundness
import TypeSketch.Proofs.Inference.Stability
import TypeSketch.Proofs.Input.Landing
import TypeSketch.Proofs.Input.Stripping
import TypeSketch.Proofs.Model.Concatenation
import TypeSketch.Proofs.Model.Overlays
import TypeSketch.Proofs.Record.Changes
import TypeSketch.Proofs.Record.Equality
import TypeSketch.Proofs.Record.Kinds
import TypeSketch.Proofs.Renumbering.Run
import TypeSketch.Proofs.Shape.Registry
import TypeSketch.Proofs.Emit.RustLines
import TypeSketch.Proofs.Inference.Overwriting
import TypeSketch.Proofs.Emit.RustHeader
import TypeSketch.Proofs.Emit.RustLiteral
import TypeSketch.Proofs.Emit.RustNames
import TypeSketch.Proofs.Inference.Returns
import TypeSketch.Proofs.Shape.Timestamps
import TypeSketch.Proofs.Shape.Touring
import TypeSketch.Proofs.Emit.RustClosure
import TypeSketch.Proofs.Emit.RustKeywords
import TypeSketch.Proofs.Input.FieldList
import TypeSketch.Proofs.CommandLine.Schema
import TypeSketch.Proofs.Walks
import TypeSketch.Proofs.Emit.RustRaw
import TypeSketch.Proofs.Emit.SqlLabels
import TypeSketch.Proofs.Text.Words
import TypeSketch.Proofs.Emit.RustEnums
import TypeSketch.Proofs.Inference.Properties
import TypeSketch.Proofs.Inference.Privacy
