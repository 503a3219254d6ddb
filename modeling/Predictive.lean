import Predictive.Text.Span
import Predictive.Grammar.Index
import Predictive.Source.Loader
import Predictive.Json.Reader
import Predictive.Json.Writer
import Predictive.Sets.Session
import Predictive.Table.Build
import Predictive.Parsing.Run
import Predictive.Service.Framework
import Predictive.Gateway.Basic
import Predictive.Proofs.Derivation
import Predictive.Proofs.Growth
import Predictive.Proofs.FirstSets
import Predictive.Proofs.FollowPasses
import Predictive.Proofs.FollowSets
import Predictive.Proofs.Sessions
import Predictive.Proofs.ExactSets
import Predictive.Proofs.Runs
import Predictive.Proofs.Bookkeeping
import Predictive.Proofs.RunDerivation
import Predictive.Proofs.Repetition
import Predictive.Proofs.Leftmost
import Predictive.Proofs.Predictions
import Predictive.Proofs.Determinism
import Predictive.Proofs.Recognition
import Predictive.Proofs.StallGuard
import Predictive.Proofs.Termination
import Predictive.Proofs.Conflicts
import Predictive.Proofs.FirstDescent
import Predictive.Proofs.FollowDescent
import Predictive.Proofs.Strategies
import Predictive.Proofs.FollowRounds
import Predictive.Proofs.Chronicle
import Predictive.Proofs.FirstError
import Predictive.Proofs.NormalForms
import Predictive.Proofs.Verdicts
import Predictive.Proofs.RuleGrammars
import Predictive.Proofs.CleanText
import Predictive.Proofs.PrintedRules
import Predictive.Proofs.FollowJournals
import Predictive.Proofs.Memory
import Predictive.Proofs.StartSymbols
import Predictive.Proofs.Histories
import Predictive.Proofs.StrategyNames
import Predictive.Proofs.CallRoom
import Predictive.Proofs.Exchanges
import Predictive.Proofs.DeepChains
import Predictive.Proofs.NestedBodies
import Predictive.Proofs.Gateways
import Predictive.Proofs.Endpoints
import Predictive.Proofs.StatusCodes
import Predictive.Proofs.Markup
import Predictive.Proofs.WellFormed
import Predictive.Proofs.RuleLists
import Predictive.Proofs.IndexedGrammars
import Predictive.Proofs.ReportedConflicts
import Predictive.Proofs.Tiling
import Predictive.Proofs.SpacedInputs
import Predictive.Proofs.IgnoredComments
import Predictive.Proofs.Cleaning
import Predictive.Proofs.AlternativeLines
import Predictive.Proofs.QuotedNames
import Predictive.Proofs.RefusedCalls
import Predictive.Proofs.StatementLines
import Predictive.Proofs.PageReading
import Predictive.Proofs.TracePages
import Predictive.Proofs.TablePages
import Predictive.Proofs.DescentTraces
import Predictive.Proofs.PassCounts
import Predictive.Proofs.SequenceCalls
import Predictive.Proofs.CacheAccounts
