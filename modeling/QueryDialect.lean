import QueryDialect.Main
import QueryDialect.Proofs.LimitCut
import QueryDialect.Proofs.SharedConversion
import QueryDialect.Proofs.ReaderLimit
import QueryDialect.Proofs.JsonConversion
import QueryDialect.Proofs.ClauseLeaves
import QueryDialect.Proofs.Postcondition
import QueryDialect.Proofs.ReadLeaves
import QueryDialect.Proofs.AlikeClauses
import QueryDialect.Proofs.SourceGrammar
import QueryDialect.Proofs.ReaderGrammar
import QueryDialect.Proofs.DroppedMembers
import QueryDialect.Proofs.OrderEntries
import QueryDialect.Proofs.Scopes
import QueryDialect.Proofs.Violations
import QueryDialect.Proofs.FirstViolation
import QueryDialect.Proofs.Meaning
import QueryDialect.Proofs.CanonicalSpelling
import QueryDialect.Proofs.Nesting
import QueryDialect.Proofs.NormalQueries
import QueryDialect.Proofs.QueryForm
import QueryDialect.Proofs.Respelling
import QueryDialect.Proofs.DistinctKeys
import QueryDialect.Proofs.WrittenQueries
import QueryDialect.Proofs.SurvivingScopes
import QueryDialect.Proofs.SortPrecedence
import QueryDialect.Proofs.SuccessiveConversions
import QueryDialect.Proofs.QueryReader
import QueryDialect.Proofs.EquivalentSpellings
import QueryDialect.Proofs.Refusals
import QueryDialect.Proofs.Places
import QueryDialect.Proofs.ErrorPlaces
import QueryDialect.Proofs.OrderLists
import QueryDialect.Proofs.OrderPlaces
import QueryDialect.Proofs.Sessions
import QueryDialect.Proofs.WalkOrder
import QueryDialect.Proofs.InclusionLists
import QueryDialect.Proofs.OperatorPriority
import QueryDialect.Proofs.Presence
import QueryDialect.Proofs.DataNesting
import QueryDialect.Proofs.TextNesting
import QueryDialect.Proofs.DefaultLimit
import QueryDialect.Proofs.TokenSpelling
import QueryDialect.Proofs.SpelledValues
import QueryDialect.Proofs.WordLiterals
import QueryDialect.Proofs.OptionsText
