import Depot.Backend.Basic
import Depot.Backend.Builder
import Depot.Backend.Initialization
import Depot.Backend.Named
import Depot.Backend.Plan
import Depot.Backend.Preparation
import Depot.Binary
import Depot.Calendar
import Depot.Component
import Depot.Config.Basic
import Depot.Config.Loader
import Depot.Config.Settings
import Depot.Data
import Depot.Environment.File
import Depot.Environment.Name
import Depot.Environment.Variables
import Depot.Fault
import Depot.Fault.Reader
import Depot.Journal
import Depot.Limits
import Depot.Logging
import Depot.Merge.Configuration
import Depot.Merge.Conflict
import Depot.Merge.FieldCheck
import Depot.Merge.Offered
import Depot.Merge.Outcome
import Depot.Merge.Reader
import Depot.Merge.Registry
import Depot.Merge.Schema
import Depot.Merge.Strategy
import Depot.Naming
import Depot.Number.Double
import Depot.Number.Extended
import Depot.Number.Shortest
import Depot.Number.Written
import Depot.Provider.Basic
import Depot.Provider.Cosmos
import Depot.Provider.Functions
import Depot.Provider.Generic
import Depot.Provider.Kind
import Depot.Provider.Registry
import Depot.Provider.Storage
import Depot.Reading.Basic
import Depot.Reading.Entries
import Depot.Reading.Scalar
import Depot.Requirement.Basic
import Depot.Requirement.Grouping
import Depot.Requirement.Key
import Depot.Requirement.Request
import Depot.Scope
import Depot.Stub.Component
import Depot.Stub.Failure
import Depot.Stub.Handler
import Depot.Stub.Provider
import Depot.Stub.Request
import Depot.Table
import Depot.Text.Basic
import Depot.Text.Blank
import Depot.Text.Case
import Depot.Text.CaseTable
import Depot.Text.Digit
import Depot.Text.Pattern
import Depot.Text.Quoted
import Depot.Text.Shown
import Depot.Value.Basic
import Depot.Value.Entries
import Depot.Value.Keyed
import Depot.Value.Merge
import Depot.Value.Order
import Depot.Value.Reader
import Depot.Value.Sequence
import Depot.Value.Text
import Depot.Verdict
import Depot.Work
import Depot.Yaml.Block
import Depot.Yaml.Cursor
import Depot.Yaml.Document
import Depot.Yaml.Lexer
import Depot.Yaml.Node
import Depot.Yaml.Plain
import Depot.Yaml.Quoted
import Depot.Yaml.Scalar
import Depot.Yaml.Token
import Depot.Proofs.Backend.Phases
import Depot.Proofs.Backend.Lifecycle
import Depot.Proofs.Value.Keyed
import Depot.Proofs.Value.Fields
import Depot.Proofs.Value.DeepMerge
import Depot.Proofs.Reading.Written
import Depot.Proofs.Provider.Faithful
import Depot.Proofs.Provider.Merging
import Depot.Proofs.Provider.Index
import Depot.Proofs.Requirement.Grouping
import Depot.Proofs.Requirement.Key
import Depot.Proofs.Requirement.Priority
import Depot.Proofs.Provider.Search
import Depot.Proofs.Provider.History
import Depot.Proofs.Merge.Registry
import Depot.Proofs.Value.Order
import Depot.Proofs.Value.Sequence
import Depot.Proofs.Number.Rounding
import Depot.Proofs.Number.Text
import Depot.Proofs.Text.Wire
import Depot.Proofs.Text.Case
import Depot.Proofs.Text.Cut
import Depot.Proofs.Text.Alphabet
import Depot.Proofs.Text.Tidy
import Depot.Proofs.Spelling
import Depot.Proofs.Value.Identity
import Depot.Proofs.Value.Rearranged
import Depot.Proofs.Value.Alike
import Depot.Proofs.Merge.Step
import Depot.Proofs.Merge.Share
import Depot.Proofs.Merge.Conflict
import Depot.Proofs.Merge.Strategy
import Depot.Proofs.Merge.Priority
import Depot.Proofs.Merge.Run
import Depot.Proofs.Merge.Parallel
import Depot.Proofs.Merge.Ties
import Depot.Proofs.Merge.Reordered
import Depot.Proofs.Merge.Fitting
import Depot.Proofs.Merge.Path
import Depot.Proofs.Merge.Kept
import Depot.Proofs.Watching.Basic
import Depot.Proofs.Watching.Records
import Depot.Proofs.Watching.Preparation
import Depot.Proofs.Watching.Run
import Depot.Proofs.Watching.Plan
import Depot.Proofs.Backend.Quotas
import Depot.Proofs.Backend.Coherent
import Depot.Proofs.Backend.Service
import Depot.Proofs.Steady
import Depot.Proofs.Backend.Repeatable
import Depot.Proofs.Scope
import Depot.Proofs.Backend.Collecting
import Depot.Proofs.Environment.Variables
import Depot.Proofs.Naming
import Depot.Proofs.Backend.Satisfied
import Depot.Proofs.Backend.DryRun
import Depot.Proofs.Backend.Revalidation
import Depot.Proofs.Provider.Standard
import Depot.Proofs.Backend.Provisioning
import Depot.Proofs.Backend.Reordered
import Depot.Proofs.Backend.Recording
import Depot.Proofs.Merge.Copies
import Depot.Proofs.Merge.Lists
import Depot.Proofs.Merge.Traces
import Depot.Proofs.Cosmos.Setting
import Depot.Proofs.Cosmos.ByName
import Depot.Proofs.Cosmos.Merging
import Depot.Proofs.Cosmos.Names
import Depot.Proofs.Cosmos.Partition
import Depot.Proofs.Storage.Containers
import Depot.Proofs.Provider.InSteps
import Depot.Proofs.Number.Whole
import Depot.Proofs.Functions.Version
import Depot.Proofs.Functions.Variables
import Depot.Proofs.Provider.Group
import Depot.Proofs.Provider.Compatible
import Depot.Proofs.Storage.Access
import Depot.Proofs.Provider.Refusals
import Depot.Proofs.Functions.Copies
import Depot.Proofs.Value.Greatest
import Depot.Proofs.Merge.Schema
import Depot.Proofs.Merge.Validation
import Depot.Proofs.Config.Checked
import Depot.Proofs.Backend.Builder
import Depot.Proofs.Config.Loading
import Depot.Proofs.Backend.Accepting
import Depot.Proofs.Backend.Named
import Depot.Proofs.NormalForm
