import FluxGate.Builtins
import FluxGate.Json
import FluxGate.ExactIntegers
import FluxGate.Discovery.Instance
import FluxGate.Discovery.Service
import FluxGate.Discovery.Registry
import FluxGate.Router
import FluxGate.LoadBalancer
import FluxGate.Selection
import FluxGate.Proxy.Server
import FluxGate.Proxy.Routes
import FluxGate.Proxy.Wiring
import FluxGate.Proxy.Forwarding
import FluxGate.Proxy.Admission
import FluxGate.Config
import FluxGate.Proxy.Tls
import FluxGate.Proxy.Locking
import FluxGate.Proxy.Races
import FluxGate.Proxy.Progress
import FluxGate.Discovery.WellFormed
import FluxGate.Discovery.View
import FluxGate.Cluster.Gossip
import FluxGate.Cluster.Convergence
import FluxGate.Cluster.Gateway
import FluxGate.Watcher
