import NetworkDiscovery.Library.UnorderedMap
import NetworkDiscovery.Library.OrderedMembers
import NetworkDiscovery.Library.Utf8Text
import NetworkDiscovery.NlohmannJson
import NetworkDiscovery.ServiceDiscoveryRecord
import NetworkDiscovery.ServiceDiscoveryClient
import NetworkDiscovery.EntryRecording
import NetworkDiscovery.MessageEffects
import NetworkDiscovery.RegistryHistory
import NetworkDiscovery.ClientLifecycle
import NetworkDiscovery.PresenceRouting
import NetworkDiscovery.RegistryInterleaving
import NetworkDiscovery.CalmInterleaving
import NetworkDiscovery.ArrayDelivery
import NetworkDiscovery.Library.TruncatedDivision
import NetworkDiscovery.ExpirySweep
import NetworkDiscovery.MetadataCache
import NetworkDiscovery.Library.Getline
import NetworkDiscovery.JsonBuilder
import NetworkDiscovery.KeySplitting
import NetworkDiscovery.DotEnv
import NetworkDiscovery.DotEnvFile
import NetworkDiscovery.NNGClient
import NetworkDiscovery.NNGClientRuns
import NetworkDiscovery.DialAttempts
import NetworkDiscovery.Library.HandleUse
import NetworkDiscovery.SocketUtil
import NetworkDiscovery.EndpointCheck
import NetworkDiscovery.DescriptorUse
import NetworkDiscovery.ConnectLog
import NetworkDiscovery.BuilderPaths
import NetworkDiscovery.JsonText
import NetworkDiscovery.PresenceRelay
import NetworkDiscovery.Library.LeaseTable
import NetworkDiscovery.RegistryLeases
import NetworkDiscovery.DiscoveryNetwork
import NetworkDiscovery.RegistryOrigins
import NetworkDiscovery.Library.PeriodicTimes
import NetworkDiscovery.HeartbeatPacing
import NetworkDiscovery.FailureDetection
import NetworkDiscovery.HeartbeatLoop
import NetworkDiscovery.ServiceSimulation
import NetworkDiscovery.Library.Stoi
import NetworkDiscovery.Startup
import NetworkDiscovery.BuilderHistory
import NetworkDiscovery.ConnectionHistory
import NetworkDiscovery.WaitLimits
import NetworkDiscovery.ServiceGraph
import NetworkDiscovery.DotEnvLoads
import NetworkDiscovery.ConnectRuns
import NetworkDiscovery.MetadataOrigins
