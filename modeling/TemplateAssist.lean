import TemplateAssist.Completion.Item
import TemplateAssist.Component
import TemplateAssist.Decimal.Shortest
import TemplateAssist.Files.Disk
import TemplateAssist.Files.Path
import TemplateAssist.Files.Walk
import TemplateAssist.Proofs.Coherence
import TemplateAssist.Proofs.Dependents
import TemplateAssist.Proofs.Disks
import TemplateAssist.Proofs.Edits
import TemplateAssist.Proofs.Freshness
import TemplateAssist.Proofs.Index
import TemplateAssist.Proofs.Lineage
import TemplateAssist.Proofs.Merging
import TemplateAssist.Proofs.Outcomes
import TemplateAssist.Proofs.Parsing
import TemplateAssist.Proofs.Paths
import TemplateAssist.Proofs.Places
import TemplateAssist.Proofs.Records
import TemplateAssist.Proofs.Session
import TemplateAssist.Proofs.Signatures
import TemplateAssist.Proofs.Sources
import TemplateAssist.Proofs.Upkeep
import TemplateAssist.Proofs.Walks
import TemplateAssist.Proofs.Work
import TemplateAssist.Registry.Ancestors
import TemplateAssist.Registry.Inheritance
import TemplateAssist.Registry.Notice
import TemplateAssist.Registry.Parse
import TemplateAssist.Registry.Query
import TemplateAssist.Registry.Scan
import TemplateAssist.Registry.State
import TemplateAssist.Registry.Update
import TemplateAssist.Registry.World
import TemplateAssist.Server.Complete
import TemplateAssist.Server.Define
import TemplateAssist.Server.Notify
import TemplateAssist.Server.Session
import TemplateAssist.Server.Uri
import TemplateAssist.Settings.Config
import TemplateAssist.Settings.Overlay
import TemplateAssist.Settings.Toml.Document
import TemplateAssist.Settings.Toml.Entries
import TemplateAssist.Settings.Toml.Scalar
import TemplateAssist.Settings.Value
import TemplateAssist.Sort
import TemplateAssist.Source.ClassHeader
import TemplateAssist.Source.Declaration
import TemplateAssist.Source.Member
import TemplateAssist.Source.Methods
import TemplateAssist.Source.Parameters
import TemplateAssist.Source.Properties
import TemplateAssist.Source.Scan
import TemplateAssist.Source.Signatures
import TemplateAssist.Table
import TemplateAssist.Template.Region
import TemplateAssist.Text.Alphabetic
import TemplateAssist.Text.Blank
import TemplateAssist.Text.Lower
import TemplateAssist.Text.Mark
import TemplateAssist.Text.Name
import TemplateAssist.Text.Newcomer
import TemplateAssist.Text.Number
import TemplateAssist.Text.Position
import TemplateAssist.Text.Quoted
import TemplateAssist.Text.Ranges
import TemplateAssist.Text.Width
import TemplateAssist.Text.Word
import TemplateAssist.Proofs.Still
import TemplateAssist.Proofs.Survey
import TemplateAssist.Proofs.Scans
import TemplateAssist.Proofs.Loading
import TemplateAssist.Proofs.Orders
import TemplateAssist.Proofs.Eras
import TemplateAssist.Proofs.Isolation
import TemplateAssist.Proofs.Repairs
import TemplateAssist.Proofs.Readings
import TemplateAssist.Proofs.Declarations
import TemplateAssist.Proofs.ParameterLists
import TemplateAssist.Proofs.PlainClasses
import TemplateAssist.Proofs.Extraction
import TemplateAssist.Proofs.Regions
import TemplateAssist.Proofs.Positions
import TemplateAssist.Proofs.Headers
import TemplateAssist.Proofs.Overlaps
import TemplateAssist.Proofs.FirstDeclarations
import TemplateAssist.Proofs.Pairing
import TemplateAssist.Proofs.LooseParameters
import TemplateAssist.Proofs.Framing
import TemplateAssist.Proofs.Names
import TemplateAssist.Proofs.PathOrder
import TemplateAssist.Proofs.Spellings
import TemplateAssist.Proofs.TagNames
import TemplateAssist.Proofs.Collection
import TemplateAssist.Proofs.LoadRuns
import TemplateAssist.Proofs.Ancestry
import TemplateAssist.Proofs.Layers
import TemplateAssist.Proofs.Servers
