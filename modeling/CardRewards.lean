import CardRewards.Main
import CardRewards.Proofs.Atomicity
import CardRewards.Proofs.Caps.Payout
import CardRewards.Proofs.Caps.Safety
import CardRewards.Proofs.CounterKey
import CardRewards.Proofs.Number.Comparison
import CardRewards.Proofs.Quote.Booking
import CardRewards.Proofs.Quote.Counters
import CardRewards.Proofs.Quote.Multiplicity
import CardRewards.Proofs.Quote.Ranking
import CardRewards.Proofs.Quote.Reward
import CardRewards.Proofs.Quote.Splitting
import CardRewards.Proofs.Session.Tier
import CardRewards.Scheme.Sample
import CardRewards.Session
import CardRewards.Proofs.Session.Mission
import CardRewards.Proofs.Session.Conservation
import CardRewards.Proofs.Document.Json.Text
import CardRewards.Proofs.Number.Spelling
import CardRewards.Proofs.Document.Json.RoundTrip
import CardRewards.Proofs.Encoding.Profile
import CardRewards.Proofs.Files.Tree
import CardRewards.Proofs.Storage.ProfileFile
import CardRewards.Proofs.Session.Stored
import CardRewards.Proofs.Audit
import CardRewards.Proofs.Schedule
import CardRewards.Proofs.Quote.Display
import CardRewards.Proofs.Quote.Reads
import CardRewards.Proofs.Encoding.Quote
import CardRewards.Proofs.Quote.ClosedForm
import CardRewards.Proofs.CommandLine.Refinement
import CardRewards.Proofs.Quote.Replacement
import CardRewards.Proofs.Quote.Selection
import CardRewards.Proofs.Quote.Itemization
import CardRewards.Proofs.Quote.Reordering
import CardRewards.Proofs.Quote.Usage
import CardRewards.Proofs.Rule.Downgrade
import CardRewards.Proofs.Caps.Secondary
import CardRewards.Proofs.Quote.Nonnegative
import CardRewards.Proofs.Category.Resolve
import CardRewards.Proofs.Rule.Acceptance
import CardRewards.Proofs.Rule.Reported
import CardRewards.Proofs.Schedule.Mission
import CardRewards.Proofs.Posting.Effect
import CardRewards.Proofs.Posting.Receipt
import CardRewards.Proofs.Quote.StableRanking
