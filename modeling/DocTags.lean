import DocTags.Text.Letter
import DocTags.Text.Printable
import DocTags.Text.Blank
import DocTags.Text.Quoted
import DocTags.Text.Case
import DocTags.Number.Binary64
import DocTags.Number.Shortest
import DocTags.Number.Numeral
import DocTags.Token
import DocTags.Token.Lexer
import DocTags.Text.Block
import DocTags.Error
import DocTags.Cursor
import DocTags.Placement
import DocTags.Keyed
import DocTags.Moment
import DocTags.Value.Basic
import DocTags.Value.Equality
import DocTags.TagList
import DocTags.Comment
import DocTags.Placement.Parse
import DocTags.World
import DocTags.World.Native
import DocTags.World.Attribute
import DocTags.Value.Render
import DocTags.Value.Order
import DocTags.World.Construct
import DocTags.World.Declaring
import DocTags.Names
import DocTags.TypeExpr.Declaration
import DocTags.TypeExpr.Check
import DocTags.Tag
import DocTags.Tag.Literal
import DocTags.Tag.Parse
import DocTags.Schema
import DocTags.Reader
import DocTags.Reader.Build
import DocTags.Reader.Read
import DocTags.Reader.Resolve
import DocTags.Description
import DocTags.Yaml.Scalar
import DocTags.Yaml.Token
import DocTags.Yaml.Token.Scalar
import DocTags.Yaml.Token.Lexer
import DocTags.Yaml.Node
import DocTags.Yaml.Document
import DocTags.Description.File
import DocTags.Description.Validation
import DocTags.Description.Packages
import DocTags.Reader.Operations
import DocTags.Logging
import DocTags.CommandLine.Arguments
import DocTags.CommandLine
import DocTags.Main
import DocTags.Proofs.Run
import DocTags.Proofs.Keyed
import DocTags.Proofs.Lexemes
import DocTags.Proofs.Tokens
import DocTags.Proofs.Lossless
import DocTags.Proofs.Entries
import DocTags.Proofs.Indexing
import DocTags.Proofs.Notation
import DocTags.Proofs.Numerals
import DocTags.Proofs.PlainList
import DocTags.Proofs.Checking
import DocTags.Proofs.Conversion
import DocTags.Proofs.NativeForms
import DocTags.Proofs.Lines
import DocTags.Proofs.Dedent
import DocTags.Proofs.Reading
import DocTags.Proofs.Names
import DocTags.Proofs.Asking
import DocTags.Proofs.Resolution
import DocTags.Proofs.Nesting
import DocTags.Proofs.SoundCache
import DocTags.Proofs.Sessions
import DocTags.Proofs.Caching
import DocTags.Proofs.Ending
import DocTags.Proofs.Transparency
import DocTags.Proofs.Steps
import DocTags.Proofs.LineFeeds
import DocTags.Proofs.Moving
import DocTags.Proofs.Sections
import DocTags.Proofs.History
import DocTags.Proofs.Loading
import DocTags.Proofs.TrailingBlanks
import DocTags.Proofs.Decoration
import DocTags.Proofs.Causes.Values
import DocTags.Proofs.Causes.Tags
import DocTags.Proofs.Causes
import DocTags.Proofs.Questions
import DocTags.Proofs.Dependencies
import DocTags.Proofs.Cycles
import DocTags.Proofs.Lives
import DocTags.Proofs.WellFormed
import DocTags.Proofs.Extension
import DocTags.Proofs.Inheritance
import DocTags.Proofs.PlainTexts
import DocTags.Proofs.Deliveries
import DocTags.Proofs.Arguments
import DocTags.Proofs.Signatures
import DocTags.Proofs.Defaults
import DocTags.Proofs.Commuting
import DocTags.Proofs.Shorthand
import DocTags.Proofs.Faults
import DocTags.Proofs.Kinds
import DocTags.Proofs.Lineage
import DocTags.Proofs.Declarations
import DocTags.Proofs.PrintedTypes
import DocTags.Proofs.Walking
import DocTags.Proofs.Causes.Unnamed
import DocTags.Proofs.Causes.Reading
import DocTags.Proofs.Pointing
import DocTags.Proofs.Unnamed
import DocTags.Proofs.Backtracking
import DocTags.Proofs.OneLine.Texts
import DocTags.Proofs.OneLine.Tags
import DocTags.Proofs.OneLine.Worlds
import DocTags.Proofs.OneLine.Objects
import DocTags.Proofs.OneLine.Building
import DocTags.Proofs.OneLine.Reading
import DocTags.Proofs.Listing
