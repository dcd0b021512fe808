import Lookalike.KeyMap
import Lookalike.Text.Word
import Lookalike.Text.Lowercase
import Lookalike.Binary64.Decimal
import Lookalike.Binary64.Shortest
import Lookalike.Json.Writer
import Lookalike.Json.Reader
import Lookalike.Json.Record
import Lookalike.Config.Validation
import Lookalike.Config.Normal
import Lookalike.Config.Decode
import Lookalike.Config.Load
import Lookalike.Observation
import Lookalike.Combination
import Lookalike.PersonName
import Lookalike.Generation
import Lookalike.Paging
import Lookalike.Survivors
import Lookalike.Service
import Lookalike.Proofs.Expansion
import Lookalike.Proofs.Gathering
import Lookalike.Proofs.PageSizes
import Lookalike.Proofs.Steps
import Lookalike.Proofs.Sweeps
import Lookalike.Proofs.CleanReports
import Lookalike.Proofs.Rearrangement
import Lookalike.Proofs.QueryMeaning
import Lookalike.Proofs.JsonText
import Lookalike.Proofs.BatchLines
import Lookalike.Proofs.Vocabulary
import Lookalike.Proofs.ValidConfig
import Lookalike.Proofs.CanonicalConfig
import Lookalike.Proofs.Registries
import Lookalike.Proofs.Wiring
import Lookalike.Proofs.FailureModes
import Lookalike.Proofs.RuleLookup
import Lookalike.Proofs.Provenance
import Lookalike.Proofs.ResultCaps
import Lookalike.Proofs.WholeReplies
import Lookalike.Proofs.NormalNames
import Lookalike.Proofs.WellFormedQueries
import Lookalike.Proofs.Influence
import Lookalike.Proofs.DistinctQueries
import Lookalike.Proofs.SingleRules
import Lookalike.Proofs.CanonicalParts
import Lookalike.Proofs.FamilyNames
import Lookalike.Proofs.Separators
import Lookalike.Proofs.FilteredSearches
import Lookalike.Proofs.Refreshes
import Lookalike.Proofs.AcceptedRules
import Lookalike.Proofs.SearchCounts
import Lookalike.Proofs.WordBinomials
import Lookalike.Proofs.ExactSelections
import Lookalike.Proofs.Filtering
import Lookalike.Proofs.ReplyContents
import Lookalike.Proofs.NearSearches
import Lookalike.Proofs.DistinctAttributes
import Lookalike.Proofs.FirstNames
import Lookalike.Proofs.AdmissibleConfigs
import Lookalike.Proofs.SentHeaders
import Lookalike.Proofs.Ranking
import Lookalike.Proofs.OrderedObservations
import Lookalike.Proofs.SweepLabels
