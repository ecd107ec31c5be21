import Igit.Ownership.Justification
import Igit.Remote.Runs
import Igit.Economic.Settlement
import Igit.Chain.Transactor
import Igit.Migration.Repositories
import Igit.Operator.Journal
import Igit.Moderation.Reimport
import Igit.Username.Names
import Igit.Isolation.Operations
import Igit.Client.Agreement
import Igit.Migration.Execution
import Igit.Migration.Carried
import Igit.Replication.RateLimit
import Igit.Replication.StateFile
import Igit.Client.Listings
import Igit.Migration.Documents
import Igit.Archive.Invariance
import Igit.Client.Amounts
import Igit.Operator.RuntimeTemplate
import Igit.Client.Releases
import Igit.Web.Activity
import Igit.Web.Caches
import Igit.Web.Subscription
import Igit.Replication.Confirm
