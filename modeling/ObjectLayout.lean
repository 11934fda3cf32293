import ObjectLayout.Address.Offset
import ObjectLayout.AttributeType.Parser
import ObjectLayout.AttributeType.Size
import ObjectLayout.Class.Definition
import ObjectLayout.Command.Arguments
import ObjectLayout.Command.Run
import ObjectLayout.Config
import ObjectLayout.Descriptor.Draft
import ObjectLayout.Form.Class
import ObjectLayout.Form.Config
import ObjectLayout.Form.Document
import ObjectLayout.Form.Report
import ObjectLayout.Json.Basic
import ObjectLayout.Json.Printer
import ObjectLayout.Json.Reader
import ObjectLayout.Json.Record
import ObjectLayout.Json.Storable
import ObjectLayout.LayoutM
import ObjectLayout.Log.Event
import ObjectLayout.Log.Level
import ObjectLayout.Main
import ObjectLayout.Registry.Basic
import ObjectLayout.Registry.Build
import ObjectLayout.Report
import ObjectLayout.Specialization
import ObjectLayout.Table.Attachment
import ObjectLayout.Table.Attributes
import ObjectLayout.Table.Dispatch
import ObjectLayout.Table.OrderedMap
import ObjectLayout.Table.Symbols
import ObjectLayout.Text.Blank
import ObjectLayout.Text.DecimalDigit
import ObjectLayout.Text.Lines
import ObjectLayout.Proofs.Action
import ObjectLayout.Proofs.Knowledge
import ObjectLayout.Proofs.BuildStep
import ObjectLayout.Proofs.BuildRun
import ObjectLayout.Proofs.Determinacy
import ObjectLayout.Proofs.Growth
import ObjectLayout.Proofs.Continuations
import ObjectLayout.Proofs.History
import ObjectLayout.Proofs.Source
import ObjectLayout.Proofs.Lineage
import ObjectLayout.Proofs.MethodResolution
import ObjectLayout.Proofs.Alignment
import ObjectLayout.Proofs.Rounding
import ObjectLayout.Proofs.AttributeTables
import ObjectLayout.Proofs.FieldSpace
import ObjectLayout.Proofs.TypeSizes
import ObjectLayout.Proofs.Placement
import ObjectLayout.Proofs.LayoutStability
import ObjectLayout.Proofs.FieldRanges
import ObjectLayout.Proofs.Runs
import ObjectLayout.Proofs.Consistency
import ObjectLayout.Proofs.Cells
import ObjectLayout.Proofs.UnboundedLayout
import ObjectLayout.Proofs.Overflow
import ObjectLayout.Proofs.Dependencies
import ObjectLayout.Proofs.Agreement
import ObjectLayout.Proofs.Footprint
import ObjectLayout.Proofs.Refusals
import ObjectLayout.Proofs.Cycles
import ObjectLayout.Proofs.FaultLocation
import ObjectLayout.Proofs.OverflowOrigins
import ObjectLayout.Proofs.Lexemes
import ObjectLayout.Proofs.TypeGrammar
import ObjectLayout.Proofs.TypeText
import ObjectLayout.Proofs.Specializations
import ObjectLayout.Proofs.SourceOrder
import ObjectLayout.Proofs.RunOutcomes
import ObjectLayout.Proofs.CommandRuns
import ObjectLayout.Proofs.Reattachment
import ObjectLayout.Proofs.InPlace
import ObjectLayout.Proofs.DraftOperations
import ObjectLayout.Proofs.ParentChoice
import ObjectLayout.Proofs.BaseLayouts
import ObjectLayout.Proofs.Ancestry
import ObjectLayout.Proofs.ParentCycles
import ObjectLayout.Proofs.EventLog
import ObjectLayout.Proofs.RepeatedAttributes
import ObjectLayout.Proofs.ParentResolution
import ObjectLayout.Proofs.JsonText
import ObjectLayout.Proofs.WrittenClasses
import ObjectLayout.Proofs.SpecializationSymbols
import ObjectLayout.Proofs.Shelf
import ObjectLayout.Proofs.AttributeInheritance
import ObjectLayout.Proofs.DispatchOperations
import ObjectLayout.Proofs.LayoutReports
