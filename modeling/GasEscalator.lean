import GasEscalator.Record.Stored
import GasEscalator.Scenario
import GasEscalator.Proofs.ChainView
import GasEscalator.Proofs.Finality
import GasEscalator.Proofs.Rebroadcasts
import GasEscalator.Proofs.WindDown
import GasEscalator.Proofs.Persistence
import GasEscalator.Proofs.Deadlines
import GasEscalator.Proofs.Senders
import GasEscalator.Proofs.Acceptance
import GasEscalator.Proofs.Reversals
import GasEscalator.Proofs.Interleavings
import GasEscalator.Proofs.SimulatedOutcomes
import GasEscalator.Proofs.Digits
import GasEscalator.Proofs.ShortestDecimal
import GasEscalator.Proofs.Numerals
import GasEscalator.Proofs.JsonText
import GasEscalator.Proofs.StoredForm
import GasEscalator.Surroundings
import GasEscalator.Proofs.Outlook
import GasEscalator.Proofs.Interference
import GasEscalator.Proofs.PriceIncrease
import GasEscalator.Proofs.QueueLimit
import GasEscalator.Proofs.CallLimits
import GasEscalator.Proofs.TimerRange
import GasEscalator.Proofs.QueueAgreement
import GasEscalator.Proofs.SenderLookup
import GasEscalator.Proofs.BroadcastPace
import GasEscalator.Proofs.StoredPolicies
import GasEscalator.Proofs.DamagedForms
import GasEscalator.Proofs.PriceAccuracy
