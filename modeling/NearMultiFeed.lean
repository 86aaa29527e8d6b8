import NearMultiFeed.Lib.Machine
import NearMultiFeed.Lib.KeyedLog
import NearMultiFeed.Runtime
import NearMultiFeed.Codec
import NearMultiFeed.FeedLoop
import NearMultiFeed.Storage
import NearMultiFeed.RoleLoops
import NearMultiFeed.Effect
import NearMultiFeed.Deployment
import NearMultiFeed.FeedHistory
import NearMultiFeed.Reads
import NearMultiFeed.Reference
import NearMultiFeed.Timestamps
import NearMultiFeed.Refinement
import NearMultiFeed.ReadGate
import NearMultiFeed.Authority
import NearMultiFeed.EventReplay
import NearMultiFeed.Confidentiality
import NearMultiFeed.Convergence
import NearMultiFeed.Batches
import NearMultiFeed.RoleBatches
import NearMultiFeed.Initialisation
import NearMultiFeed.FeedIds
import NearMultiFeed.Wire
import NearMultiFeed.Consumer
import NearMultiFeed.ConsumerRuns
import NearMultiFeed.Footprints
import NearMultiFeed.Independence
import NearMultiFeed.Steering
import NearMultiFeed.Coalitions
import NearMultiFeed.AccessKeys
import NearMultiFeed.Recovery
import NearMultiFeed.Delivery
import NearMultiFeed.PublicJson
import NearMultiFeed.FeedTool
