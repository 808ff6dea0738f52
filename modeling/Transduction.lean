import Transduction.Expect
import Transduction.LogFormat
import Transduction.Blueprint.Alternate
import Transduction.Session.Runs
import Transduction.Session.Stepping
import Transduction.Session.Channels
import Transduction.Session.Registries
import Transduction.Session.Contexts
import Transduction.Session.Values
import Transduction.Session.Tokens
import Transduction.Proofs.Emission.FirstValue
import Transduction.Proofs.Release.ExactlyOnce
import Transduction.Proofs.Streaming.Collecting
import Transduction.Proofs.Streaming.Lists
import Transduction.Proofs.Fallback.Choice
import Transduction.Proofs.Cancellation.Heeded
import Transduction.Proofs.Release.Nesting
import Transduction.Proofs.Release.Scopes
import Transduction.Proofs.Faults.Surfacing
import Transduction.Proofs.Conservation.Histories
import Transduction.Proofs.Attempts.Completion
import Transduction.Proofs.Sources.Agreement
import Transduction.Proofs.Likeness.RightValues
import Transduction.Proofs.Isolation.Items
import Transduction.Proofs.Attempts.Budgets
import Transduction.Proofs.Attempts.Retries
import Transduction.Proofs.Delays.Growing
import Transduction.Proofs.Delays.Plans
import Transduction.Proofs.Delays.Jitters
import Transduction.Proofs.Attempts.Folds
import Transduction.Proofs.Likeness.Binding
import Transduction.Proofs.Delays.Sequences
import Transduction.Proofs.Pairing.Trees
import Transduction.Proofs.Channels.Apart
import Transduction.Proofs.Fallback.Grouping
import Transduction.Proofs.Yields.Joining
import Transduction.Proofs.Sources.Observing
import Transduction.Proofs.Conservation.Remainders
import Transduction.Proofs.Failures.Combining
import Transduction.Proofs.Delays.Overflow
import Transduction.Proofs.Sharing.Wiring
