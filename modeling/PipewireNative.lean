import PipewireNative.Core.Disconnect
import PipewireNative.Core.Handles
import PipewireNative.Core.Nest
import PipewireNative.Frame.Accounts
import PipewireNative.Frame.Capacity
import PipewireNative.Frame.Intake
import PipewireNative.Frame.Records
import PipewireNative.Node.Control
import PipewireNative.Node.Downstream
import PipewireNative.Node.Failed
import PipewireNative.Node.Format
import PipewireNative.Node.Keys
import PipewireNative.Node.Peers
import PipewireNative.Node.Publish
import PipewireNative.Node.Race
import PipewireNative.Node.Regions
import PipewireNative.Node.Reject
import PipewireNative.Node.Retain
import PipewireNative.Node.Runtime
import PipewireNative.Node.Unasked
import PipewireNative.Pod.Measure
import PipewireNative.Pod.Space
import PipewireNative.Pod.Stale
import PipewireNative.Pod.Tree
import PipewireNative.Pod.Twins
import PipewireNative.Pod.Watch
import PipewireNative.Protocol.Connection
import PipewireNative.Proxy.Nested
import PipewireNative.Proxy.Queue
import PipewireNative.Wire.Again
import PipewireNative.Wire.Fds
import PipewireNative.Wire.Trip
