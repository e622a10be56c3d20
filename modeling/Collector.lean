import Collector.Absorption
import Collector.Settling
import Collector.Overtaking
import Collector.Health
import Collector.Frames
import Collector.Repeats
import Collector.Restart
import Collector.Publisher
import Collector.Sink
import Collector.Delivery
import Collector.Outages
import Collector.Watermark
import Collector.Backlog
import Collector.Descriptions
import Collector.Durations
import Collector.Expiry
import Collector.Framing
import Collector.Gauges
import Collector.Snippets
import Collector.Gaps
import Collector.Drain
import Collector.Convergence
import Collector.Interruption
import Collector.Heartbeat
import Collector.Reconnect
import Collector.Registry
import Collector.Relay
import Collector.Transport
import Collector.Shutdown
import Collector.KalshiStore
import Collector.Ingest
import Collector.Services
import Collector.Listener
import Collector.TypedRows
import Collector.ServiceStats
import Collector.Compare
import Collector.Sessions
import Collector.Subscriptions
import Collector.ClientBounds
import Collector.ClientSessions
import Collector.GammaPages
import Collector.MarketEvents
