import TicketSearch.Main
import TicketSearch.Proofs.Completion
import TicketSearch.Proofs.Sql.Agreement
import TicketSearch.Proofs.Writing
import TicketSearch.Proofs.Completion.Truncation
import TicketSearch.Proofs.Grammar.Respelling
import TicketSearch.Proofs.Case.Caseless
import TicketSearch.Proofs.Parsing.Composition
import TicketSearch.Proofs.Catalog
import TicketSearch.Proofs.Completion.Suggestion
import TicketSearch.Proofs.Sql.Series
import TicketSearch.Proofs.Sql.Padding
import TicketSearch.Proofs.Parsing.Rejection
import TicketSearch.Proofs.Case.Words
import TicketSearch.Proofs.Completion.Replacement
import TicketSearch.Proofs.Completion.Standing
import TicketSearch.Proofs.Completion.Splice
import TicketSearch.Proofs.Mismatch
import TicketSearch.Proofs.Display
import TicketSearch.Proofs.Spacing
import TicketSearch.Proofs.Case.Meaning
import TicketSearch.Proofs.Prompt
import TicketSearch.Proofs.Calendar.Months
import TicketSearch.Proofs.Calendar.Cutoff
import TicketSearch.Proofs.Completion.Typing
import TicketSearch.Proofs.Calendar.Amount
import TicketSearch.Proofs.Sql.Membership
import TicketSearch.Proofs.Sql.Refusal
import TicketSearch.Proofs.Quoting
import TicketSearch.Proofs.Trichotomy
import TicketSearch.Proofs.Completion.Offering
import TicketSearch.Proofs.Completion.Position
import TicketSearch.Proofs.Parsing.Heads
import TicketSearch.Proofs.Case.Equality
import TicketSearch.Proofs.Parsing.Readability
import TicketSearch.Proofs.Completion.Hint
import TicketSearch.Proofs.Calendar.Span
import TicketSearch.Proofs.Order.Equality
