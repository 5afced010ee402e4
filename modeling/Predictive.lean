import Predictive.Analysis.First
import Predictive.Analysis.Follow
import Predictive.Analysis.Least
import Predictive.Analysis.Memo
import Predictive.Analysis.Predict
import Predictive.Any.Analyzer
import Predictive.Any.Engine
import Predictive.Any.Grammar
import Predictive.Any.Recognizer
import Predictive.Archive
import Predictive.Binary64
import Predictive.Choice
import Predictive.CommandLine.Request
import Predictive.CommandLine.Run
import Predictive.CommandLine.Word
import Predictive.Datum
import Predictive.Decimal
import Predictive.Digest
import Predictive.Drawing
import Predictive.Engine.Basic
import Predictive.Engine.Cached
import Predictive.Engine.Saved
import Predictive.Expressions
import Predictive.Failure
import Predictive.FileStore
import Predictive.Fraction
import Predictive.Grammar.Basic
import Predictive.Grammar.Derivation
import Predictive.Grammar.Fault
import Predictive.Grammar.LexicalLine
import Predictive.Grammar.Lexicon
import Predictive.Grammar.Production
import Predictive.Grammar.Reading
import Predictive.Grammar.RuleLine
import Predictive.Grouping
import Predictive.Lexer.Basic
import Predictive.Lexer.Rule
import Predictive.Lexer.Scan
import Predictive.LineCounter
import Predictive.Log
import Predictive.Main
import Predictive.Options
import Predictive.OrderedMap
import Predictive.Pattern.Basic
import Predictive.Pattern.CharSet
import Predictive.Pattern.Compiler
import Predictive.Pattern.Escape
import Predictive.Pattern.Fault
import Predictive.Pattern.Flags
import Predictive.Pattern.Literal
import Predictive.Pattern.Matching
import Predictive.Pattern.Opening
import Predictive.Pattern.Reader
import Predictive.Pattern.Reading
import Predictive.Platform
import Predictive.Proofs.Acceptance
import Predictive.Proofs.CorrectTable
import Predictive.Proofs.FirstExact
import Predictive.Proofs.FirstSearch
import Predictive.Proofs.FollowClosed
import Predictive.Proofs.FollowExact
import Predictive.Proofs.FollowHistory
import Predictive.Proofs.FollowSearch
import Predictive.Proofs.GivenOptions
import Predictive.Proofs.LeftCorner
import Predictive.Proofs.Leftmost
import Predictive.Proofs.LiteralPatterns
import Predictive.Proofs.Lookahead
import Predictive.Proofs.Maps
import Predictive.Proofs.MoveBound
import Predictive.Proofs.Moves
import Predictive.Proofs.Queries
import Predictive.Proofs.QueryOrder
import Predictive.Proofs.Rejections
import Predictive.Proofs.Reloading
import Predictive.Proofs.Revival
import Predictive.Proofs.Scanning
import Predictive.Proofs.SentenceParsing
import Predictive.Proofs.StrictBuild
import Predictive.Proofs.TableBuild
import Predictive.Proofs.Termination
import Predictive.Proofs.Tokenization
import Predictive.Proofs.WellFormed
import Predictive.Recognizer.Basic
import Predictive.Rejection
import Predictive.Report
import Predictive.Symbol
import Predictive.SymbolSet
import Predictive.Table.Basic
import Predictive.Table.Build
import Predictive.Template
import Predictive.Text.Blank
import Predictive.Text.Quoted
import Predictive.Text.Slice
import Predictive.Text.TabStop
import Predictive.Text.WholeNumber
import Predictive.Token
import Predictive.Unchecked.Analysis
import Predictive.Unchecked.Engine
import Predictive.Unchecked.Grammar
import Predictive.Unchecked.Lexer
import Predictive.Unchecked.Path
import Predictive.Unchecked.Recognizer
import Predictive.Unchecked.Table
import Predictive.Unchecked.Value
import Predictive.Unicode.Digit
import Predictive.Unicode.Identifier
import Predictive.Unicode.Letter
import Predictive.Unicode.LetterCase
import Predictive.Unicode.Printable
import Predictive.Unicode.Ranges
import Predictive.Unicode.Word
import Predictive.Proofs.Unmatched
import Predictive.Proofs.Reloadability
import Predictive.Proofs.SetSoundness
import Predictive.Proofs.SharedPath
import Predictive.Proofs.WrittenForms
import Predictive.Proofs.CacheKeys
import Predictive.Proofs.CachePlaces
import Predictive.Proofs.AutomaticCache
import Predictive.Proofs.Repetition
import Predictive.Proofs.TableCells
import Predictive.Proofs.ErasedTables
import Predictive.Proofs.Erasure
import Predictive.Proofs.AlikeTexts
import Predictive.Proofs.DeclarationOrder
import Predictive.Proofs.Declarations
import Predictive.Proofs.FirstRule
import Predictive.Proofs.InferredRules
import Predictive.Proofs.LiteralLexers
import Predictive.Proofs.PrintedRules
import Predictive.Proofs.RuleNotation
import Predictive.Proofs.Texts
import Predictive.Proofs.Contexts
import Predictive.Proofs.LexicalNotation
import Predictive.Proofs.RuleLayout
import Predictive.Proofs.ShownTables
import Predictive.Proofs.Drawings
import Predictive.Proofs.ValueAnswers
import Predictive.Proofs.Indexes
