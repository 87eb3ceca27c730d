import IotivityLite.Client.Completion
import IotivityLite.Client.StopDiscovery
import IotivityLite.Cloud.AddressSelection
import IotivityLite.Cloud.ResourceDirectoryLists
import IotivityLite.Cloud.RetrySchedule
import IotivityLite.Cloud.StoreRoundTrip
import IotivityLite.Cloud.Unpublish
import IotivityLite.Coap.Block1Integrity
import IotivityLite.Coap.BlockDispatch
import IotivityLite.Coap.BlockReassembly
import IotivityLite.Coap.OptionHeaders
import IotivityLite.Coap.RequestHistory
import IotivityLite.Coap.Signals
import IotivityLite.Coap.TextSplitting
import IotivityLite.Coap.TransactionIsolation
import IotivityLite.Coap.TransactionTraversal
import IotivityLite.Etag.BatchSoundness
import IotivityLite.Etag.IncrementalUpdates
import IotivityLite.Etag.ResourceCrc
import IotivityLite.Event.FilterRemoval
import IotivityLite.Event.ProcessFifo
import IotivityLite.Event.TimerList
import IotivityLite.Json.ReferencePrinter
import IotivityLite.Observe.DiscoveryQueue
import IotivityLite.Observe.ObserverUniqueness
import IotivityLite.Observe.PeriodicObservation
import IotivityLite.Oscore.Detection
import IotivityLite.Oscore.OptionValue
import IotivityLite.Port.DnsLookup
import IotivityLite.Port.EndpointText
import IotivityLite.Port.TcpFraming
import IotivityLite.Port.WaitingSessions
import IotivityLite.Security.AclAtomicity
import IotivityLite.Security.AclGrants
import IotivityLite.Security.AclRoundTrip
import IotivityLite.Security.AnonymousAccess
import IotivityLite.Security.OwnRoles
import IotivityLite.Security.Ownership
import IotivityLite.Security.OwnershipCallbacks
import IotivityLite.Security.PermissionUnion
import IotivityLite.Server.CollectionBatchUpdate
import IotivityLite.Server.PlgdTime
import IotivityLite.Server.SeparateDelivery
import IotivityLite.Server.SoftwareUpdate
import IotivityLite.Tls.ChainShape
import IotivityLite.Tls.ConfigIsolation
import IotivityLite.Tls.OwnerPsk
import IotivityLite.Tls.PskIdentity
import IotivityLite.Tls.RoleIsolation
import IotivityLite.Tls.TcpReading
import IotivityLite.Tls.TrustConsistency
import IotivityLite.Util.Base64Codec
import IotivityLite.Util.HexText
import IotivityLite.Util.LinkedList
import IotivityLite.Util.PoolCompaction
