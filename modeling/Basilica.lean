import Basilica.CollateralLedger
import Basilica.ContainerCommands
import Basilica.ControlMessages
import Basilica.CreditConservation
import Basilica.CreditCoverage
import Basilica.CreditDispatch
import Basilica.CreditInterleavings
import Basilica.DeductionRaces
import Basilica.DepositCoverage
import Basilica.EmissionValidation
import Basilica.EventProcessor
import Basilica.JwtLocks
import Basilica.LeaderElection
import Basilica.LocationFilters
import Basilica.MinerClient
import Basilica.MinerMigrations
import Basilica.MinerSync
import Basilica.MirrorOwners
import Basilica.OutboxDelays
import Basilica.PriceLocks
import Basilica.RateLimits
import Basilica.ReclaimLifecycle
import Basilica.RecycledUids
import Basilica.RentalCharges
import Basilica.RentalOwnership
import Basilica.RentalTracking
import Basilica.RentalUpdates
import Basilica.ScanRanges
import Basilica.ScoreSeparation
import Basilica.SlashCoverage
import Basilica.UsageAverages
import Basilica.ValidationStrategy
import Basilica.ValidatorAccess
import Basilica.ValidatorAuth
import Basilica.VerificationScheduler
import Basilica.VersionKeys
import Basilica.WeightOrders
import Basilica.WorkerQueue
