import Pictor.Property.Beneficiary
import Pictor.Property.Ownership
import Pictor.Property.Lifecycle
import Pictor.Property.Charging
import Pictor.Property.RoundingLoss
import Pictor.Property.Claims
import Pictor.Property.Operators
import Pictor.Property.Custody
import Pictor.Property.Backing
import Pictor.Property.Commutation
import Pictor.Property.Schedules
import Pictor.Property.Deployment
import Pictor.Property.EventLog
import Pictor.Refinement.Simulation
import Pictor.Refinement.Registry
import Pictor.Property.Pagination
import Pictor.Property.TokenAdmin
import Pictor.Property.ByStore
import Pictor.Contract.Objects
import Pictor.Effect.Objects
import Pictor.Property.Objects
import Pictor.Property.StoreOwners
import Pictor.Refinement.ConcurrentBalance
