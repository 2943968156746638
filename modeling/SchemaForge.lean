import SchemaForge.AtomSource
import SchemaForge.Attribute
import SchemaForge.Builder.Field
import SchemaForge.Builder.Header
import SchemaForge.Builder.Hint
import SchemaForge.Builder.Implementation
import SchemaForge.Builder.Sheet
import SchemaForge.Bytes
import SchemaForge.ClassSource.Java
import SchemaForge.ClassSource.Python
import SchemaForge.ClassSource.PythonTransaction
import SchemaForge.ClassSource.TypeScript
import SchemaForge.Duty
import SchemaForge.EnumSource
import SchemaForge.Fault
import SchemaForge.Model.Atom
import SchemaForge.Model.Class
import SchemaForge.Model.Enum
import SchemaForge.Notice
import SchemaForge.Number
import SchemaForge.Package
import SchemaForge.Path
import SchemaForge.Plan
import SchemaForge.Proofs.Settled
import SchemaForge.Proofs.Step
import SchemaForge.Record
import SchemaForge.Run
import SchemaForge.Sample.Types
import SchemaForge.Sample.Workload
import SchemaForge.Schema
import SchemaForge.Script.Code
import SchemaForge.Script.Workshop
import SchemaForge.Session
import SchemaForge.Source.Line
import SchemaForge.Source.Part
import SchemaForge.Support
import SchemaForge.Support.Entity
import SchemaForge.Support.Java
import SchemaForge.Support.JavaUtilities
import SchemaForge.Support.Python
import SchemaForge.Support.TypeScript
import SchemaForge.Support.TypeScriptUtilities
import SchemaForge.Target
import SchemaForge.Target.Width
import SchemaForge.Text.Blank
import SchemaForge.Text.Case
import SchemaForge.Text.CaseTable
import SchemaForge.Text.Digit
import SchemaForge.Text.PrintTable
import SchemaForge.Text.Quoted
import SchemaForge.Text.Template
import SchemaForge.Text.Words
import SchemaForge.Value
import SchemaForge.Value.Name
import SchemaForge.Value.Part
import SchemaForge.Proofs.Reading
import SchemaForge.Proofs.Tour
import SchemaForge.Proofs.Entries
import SchemaForge.Proofs.Aggregates
import SchemaForge.Proofs.Marks
import SchemaForge.Proofs.Planning
import SchemaForge.Proofs.Alike
import SchemaForge.Proofs.PlansAlike
import SchemaForge.Proofs.Bare
import SchemaForge.Proofs.BuilderReads
import SchemaForge.Proofs.Sharing
import SchemaForge.Proofs.Filling
import SchemaForge.Proofs.Sheets
import SchemaForge.Proofs.FieldTypes
import SchemaForge.Proofs.Accessors
import SchemaForge.Proofs.Conclusive
import SchemaForge.Proofs.Completeness
import SchemaForge.Proofs.Methods
import SchemaForge.Proofs.Twins
import SchemaForge.Proofs.UpFront
import SchemaForge.Proofs.Extents
import SchemaForge.Proofs.Padding
import SchemaForge.Proofs.ByteOrder
import SchemaForge.Proofs.Search
import SchemaForge.Proofs.SizeFields
import SchemaForge.Proofs.BuilderCalls
import SchemaForge.Proofs.Slots
import SchemaForge.Proofs.Success
import SchemaForge.Proofs.SoundFields
import SchemaForge.Proofs.BuilderSuccess
import SchemaForge.Proofs.WellFormed
import SchemaForge.Proofs.SoundMembers
import SchemaForge.Proofs.SoundWalks
import SchemaForge.Proofs.SoundModels
import SchemaForge.Proofs.SoundPlans
import SchemaForge.Proofs.SoundSources
import SchemaForge.Proofs.TypeScriptSuccess
import SchemaForge.Proofs.JavaSuccess
import SchemaForge.Proofs.Amendments
import SchemaForge.Proofs.FilePlan
import SchemaForge.Proofs.Closure
import SchemaForge.Proofs.Rendering
import SchemaForge.Proofs.ClassFiles
import SchemaForge.Proofs.ScriptImports
import SchemaForge.Proofs.Linked
import SchemaForge.Proofs.ScriptFiles
import SchemaForge.Proofs.Flattening
import SchemaForge.Proofs.BraceText
import SchemaForge.Proofs.Delegation
import SchemaForge.Proofs.Factories
import SchemaForge.Proofs.BuilderFields
import SchemaForge.Proofs.FieldWriting
import SchemaForge.Proofs.Nesting
import SchemaForge.Proofs.BuilderNesting
import SchemaForge.Proofs.Rows
import SchemaForge.Proofs.GuardedBlocks
import SchemaForge.Proofs.Comments
import SchemaForge.Proofs.ByteSequences
import SchemaForge.Proofs.Enumerators
import SchemaForge.Proofs.WordBreaks
import SchemaForge.Proofs.ScriptLayout
import SchemaForge.Proofs.ScriptNesting
import SchemaForge.Proofs.Faults
import SchemaForge.Proofs.InlineDepth
import SchemaForge.Proofs.InlineSearch
