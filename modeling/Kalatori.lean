import Kalatori.Arguments
import Kalatori.Chain.AssetScan
import Kalatori.Chain.Balances
import Kalatori.Chain.Calls
import Kalatori.Chain.Endurance
import Kalatori.Chain.KeyScan
import Kalatori.Chain.Notices
import Kalatori.Chain.PayoutDecision
import Kalatori.Chain.Specs
import Kalatori.Database.ActiveOrders
import Kalatori.PrettyCause
import Kalatori.Shutdown
import Kalatori.State.Creation
import Kalatori.System.Payment
import Kalatori.System.Deadlock
import Kalatori.System.Records
import Kalatori.System.Requests
import Kalatori.System.Restarts
import Kalatori.System.Routing
import Kalatori.System.Versions
import Kalatori.Handlers.Order
import Kalatori.System.OrderBook
import Kalatori.System.Atomicity
import Kalatori.System.Patience
import Kalatori.System.Provenance
import Kalatori.System.Currencies
import Kalatori.System.Completion
