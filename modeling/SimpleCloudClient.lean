import SimpleCloudClient.Update.Progress
import SimpleCloudClient.Resource.PathBuffer
import SimpleCloudClient.Registration.Placement
import SimpleCloudClient.Registration.Isolation
import SimpleCloudClient.Registration.Values
import SimpleCloudClient.Registration.Positions
import SimpleCloudClient.Registration.Uninitialised
import SimpleCloudClient.Registration.Callbacks
import SimpleCloudClient.Registration.TypedValues
import SimpleCloudClient.Client.Retry
import SimpleCloudClient.Client.Handlers
import SimpleCloudClient.Client.Delivery
import SimpleCloudClient.Client.Interleaving
import SimpleCloudClient.Client.Sotp
import SimpleCloudClient.Client.Finalize
import SimpleCloudClient.Client.Reformat
import SimpleCloudClient.Storage.Health
import SimpleCloudClient.Storage.Partitions
import SimpleCloudClient.Program.Reach
import SimpleCloudClient.Program.Reports
import SimpleCloudClient.Program.Authorization
import SimpleCloudClient.Bench.Campaign
