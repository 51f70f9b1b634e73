import Stencil.Cache
import Stencil.Command.Help
import Stencil.Command.Request
import Stencil.Command.Run
import Stencil.Decimal.Layout
import Stencil.Decimal.Read
import Stencil.Decimal.Shortest
import Stencil.Digest.Sha256
import Stencil.Disk.Basic
import Stencil.Disk.Path
import Stencil.Engine
import Stencil.Fault
import Stencil.Filter
import Stencil.Formula.Grammar
import Stencil.Formula.Operator
import Stencil.Formula.Token
import Stencil.Gate.Escape
import Stencil.Gate.Expression
import Stencil.Gate.FilePath
import Stencil.Gate.Template
import Stencil.Json.Document
import Stencil.Json.Number
import Stencil.Json.Quote
import Stencil.Json.Read
import Stencil.Main
import Stencil.Markup.Attribute
import Stencil.Markup.Node
import Stencil.Markup.Stack
import Stencil.Markup.Tag
import Stencil.Markup.Token
import Stencil.Proofs.Resolution.Answer
import Stencil.Proofs.Resolution.Scanning
import Stencil.Proofs.Resolution.Splitting
import Stencil.Reference.Access
import Stencil.Reference.Bracket
import Stencil.Reference.Parameter
import Stencil.Reference.Resolve
import Stencil.Reference.Split
import Stencil.Render.Frame
import Stencil.Render.Part
import Stencil.Render.Tree
import Stencil.Settings
import Stencil.Settings.Read
import Stencil.Template.Collection
import Stencil.Template.Key
import Stencil.Template.Location
import Stencil.Template.Shelf
import Stencil.Text.Basic
import Stencil.Text.Case
import Stencil.Text.Class
import Stencil.Text.Pattern
import Stencil.Text.Quoted
import Stencil.Toml.Reader
import Stencil.Toml.Scalar
import Stencil.Toml.Value
import Stencil.Trail
import Stencil.Value.Basic
import Stencil.Value.Equality
import Stencil.Value.Inspect
import Stencil.Value.Member
import Stencil.Variables
import Stencil.Proofs.BlockedMembers
import Stencil.Proofs.Resolution.Agreement
import Stencil.Proofs.BlockedVariables
import Stencil.Proofs.Resolution.Place
import Stencil.Proofs.Operation
import Stencil.Proofs.Resolution.Operand
import Stencil.Proofs.Pipeline
import Stencil.Proofs.Acceptance
import Stencil.Proofs.Resolution.Quoting
import Stencil.Proofs.Resolution.References
import Stencil.Proofs.DisabledIndexers
import Stencil.Proofs.Markup.Nodes
import Stencil.Proofs.Rendering.Steps
import Stencil.Proofs.Rendering.Output
import Stencil.Proofs.EncodedOutput
import Stencil.Proofs.Matching
import Stencil.Proofs.Markup.Runs
import Stencil.Proofs.Markup.Frames
import Stencil.Proofs.Markup.Reading
import Stencil.Proofs.InlineScripts
import Stencil.Proofs.Nesting.Lockstep
import Stencil.Proofs.Nesting.Delimiting
import Stencil.Proofs.NestedTags
import Stencil.Floating
import Stencil.Proofs.Folding
import Stencil.Proofs.Rendering.Entrances
import Stencil.Proofs.Rendering.Expressions
import Stencil.Proofs.Resolution.Chain
import Stencil.Proofs.Resolution.Events
import Stencil.Proofs.Resolution.Path
import Stencil.Proofs.Resolution.Tokens
import Stencil.Proofs.Rendering.Likeness
import Stencil.Proofs.Resolution.Likeness
import Stencil.Proofs.Caching.Shelf
import Stencil.Proofs.Rendering.Alike
import Stencil.Proofs.Caching.Session
import Stencil.Proofs.Caching.Work
import Stencil.Proofs.Caching.Soundness
import Stencil.Proofs.TransparentCaches
import Stencil.Proofs.Decimal.Shortest
import Stencil.Proofs.Decimal.Written
import Stencil.Proofs.Json.Values
import Stencil.Proofs.DataAwareKeys
import Stencil.Proofs.Stores
import Stencil.Proofs.Caching.Decisions
import Stencil.Proofs.CachedPages
import Stencil.Proofs.Caching.Pages
import Stencil.Proofs.Rendering.Component
import Stencil.Proofs.Rendering.Accounting
import Stencil.Proofs.IsolatedCallbacks
import Stencil.Proofs.CacheHits
import Stencil.Proofs.Disk.Locations
import Stencil.Proofs.Disk.Confinement
import Stencil.Proofs.Rendering.Invariants
import Stencil.Proofs.ConfinedFiles
import Stencil.Proofs.IndependentSiblings
import Stencil.Proofs.Rendering.TypedFrames
import Stencil.Proofs.UnrolledLoops
import Stencil.Proofs.ReorderedParameters
import Stencil.Proofs.ForwardedParameters
import Stencil.Proofs.LongestPrefixes
import Stencil.Proofs.EndingRenders
import Stencil.Proofs.Rendering.Inclusion
import Stencil.Proofs.ContainedFailures
import Stencil.Proofs.Cutting
import Stencil.Proofs.LosslessTokens
import Stencil.Proofs.LayeredScopes
import Stencil.Proofs.Grammar.Derivations
import Stencil.Proofs.Grammar.Lexemes
import Stencil.Proofs.ExactGrammar
import Stencil.Proofs.Writing.Tags
import Stencil.Proofs.Writing.Templates
import Stencil.Proofs.WrittenTemplates
import Stencil.Proofs.Writing.Parsing
import Stencil.Proofs.Writing.Pieces
import Stencil.Proofs.Writing.Contents
import Stencil.Proofs.Caching.Recency
import Stencil.Proofs.BoundedCaches
import Stencil.Proofs.BlockedBindings
import Stencil.Proofs.Markup.Parts
import Stencil.Proofs.Rendering.Slots
import Stencil.Proofs.Markup.Splitting
import Stencil.Proofs.LosslessSlots
import Stencil.Proofs.Rendering.Accounts
import Stencil.Proofs.Rendering.Telling
import Stencil.Proofs.CollectedSections
import Stencil.Proofs.Floating.Rounding
import Stencil.Proofs.Floating.Integers
import Stencil.Proofs.Floating.Operations
import Stencil.Proofs.IntegerComparisons
import Stencil.Proofs.IntegerArithmetic
import Stencil.Proofs.EventHandlers
import Stencil.Proofs.Disk.PlainPaths
import Stencil.Proofs.Disk.Trees
import Stencil.Proofs.TemplatePaths
import Stencil.Proofs.ChangedVariables
import Stencil.Proofs.Descent.Procedures
import Stencil.Proofs.InterpolatedTexts
import Stencil.Proofs.KeptInterpolations
import Stencil.Proofs.CountedInterpolations
import Stencil.Proofs.Grammar.Consulted
import Stencil.Proofs.Resolution.Cuts
import Stencil.Proofs.Grammar.Seams
import Stencil.Proofs.Resolution.WholeWords
import Stencil.Proofs.TypeReferences
import Stencil.Proofs.Blanking
import Stencil.Proofs.Grammar.Roles
import Stencil.Proofs.PairedEquals
import Stencil.Proofs.HiddenCalls
import Stencil.Proofs.AdoptingLayouts
import Stencil.Proofs.Rendering.Scopes
import Stencil.Proofs.MovedDefinitions
import Stencil.Proofs.Rendering.Listing
import Stencil.Proofs.ReportedComponents
import Stencil.Proofs.AddressedSections
import Stencil.Proofs.InvisibleDecisions
import Stencil.Proofs.ReversibleEscapes
import Stencil.Proofs.StrippedTags
import Stencil.Proofs.SwappedComparisons
import Stencil.Proofs.RereadValues
import Stencil.Proofs.FoldedHistories
import Stencil.Proofs.EndingResolutions
import Stencil.Proofs.Bytewise.Slices
import Stencil.Proofs.Bytewise.Scanning
import Stencil.Proofs.Bytewise.Indexers
import Stencil.Proofs.Bytewise.Splitting
import Stencil.Proofs.Bytewise.Tags
import Stencil.Proofs.Bytewise.Nesting
import Stencil.Proofs.Bytewise.Templates
import Stencil.Proofs.Bytewise.Resolving
import Stencil.Proofs.SafeReading
import Stencil.Proofs.JoinedSegments
