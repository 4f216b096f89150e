import UniShare.PodWatch.Overcommit
import UniShare.PodWatch.BestFit
import UniShare.PodWatch.Concurrent
import UniShare.PodWatch.Delivery
import UniShare.PodWatch.Fairness
import UniShare.Controller.Bucket
import UniShare.Controller.Monotone
import UniShare.Controller.Overflow
import UniShare.Controller.Wrapped
import UniShare.Controller.Accounts
import UniShare.Controller.Settle
import UniShare.Controller.Both
import UniShare.Controller.Linearize
import UniShare.Controller.Shared
import UniShare.Interceptor.Launch
import UniShare.Interceptor.Memory
import UniShare.Interceptor.Startup
import UniShare.Interceptor.Lookup
import UniShare.Monitor.Neighbours
import UniShare.Monitor.Samples
import UniShare.Monitor.Retry
import UniShare.Interceptor.FreeMemory
import UniShare.Interceptor.Quota
import UniShare.Container.ConfigPath
import UniShare.Container.Identity
import UniShare.Container.Configuration
import UniShare.PluginRegister.Vcore
import UniShare.PluginRegister.Binding
import UniShare.PluginRegister.Device
import UniShare.PluginRegister.Choice
import UniShare.PluginRegister.Allocate
import UniShare.PluginRegister.MluCore
import UniShare.PluginRegister.Advertised
import UniShare.DeviceInfo.Register
import UniShare.Cluster
import UniShare.Conflict
import UniShare.ResourceManager.Manager
import UniShare.ResourceManager.Request
import UniShare.ResourceManager.Machine
import UniShare.ResourceManager.Config
import UniShare.ResourceManager.Index
import UniShare.ResourceManager.LeftAlone
import UniShare.ResourceManager.Panic
import UniShare.ResourceManager.Done
import UniShare.ResourceManager.Deletion
import UniShare.ResourceManager.AtRest
import UniShare.Lifecycle
import UniShare.Lifecycle.Annotations
import UniShare.Handshake
import UniShare.Isolation
import UniShare.Availability
import UniShare.Enforcement
import UniShare.Record
import UniShare.Daemon
import UniShare.Registration
