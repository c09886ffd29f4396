import BenchmarkHost.Library.Machine
import BenchmarkHost.Library.Settling
import BenchmarkHost.Library.Transport
import BenchmarkHost.Library.Fifo
import BenchmarkHost.Library.Dictionary
import BenchmarkHost.Library.Pipeline
import BenchmarkHost.Library.Precedence
import BenchmarkHost.Library.Managed
import BenchmarkHost.Library.Raising
import BenchmarkHost.Library.Restart
import BenchmarkHost.Library.Reader
import BenchmarkHost.Library.Fields
import BenchmarkHost.Library.Wire
import BenchmarkHost.Library.UnknownFields
import BenchmarkHost.Library.MapField
import BenchmarkHost.Library.Lengths
import BenchmarkHost.Library.Base128
import BenchmarkHost.Messages
import BenchmarkHost.Host.Channel
import BenchmarkHost.Host.Correlation
import BenchmarkHost.Host.Dispatch
import BenchmarkHost.Service.EventStream
import BenchmarkHost.Service.Sessions
import BenchmarkHost.Service.Writes
import BenchmarkHost.Service.RequestStream
import BenchmarkHost.Service.Race
import BenchmarkHost.Service.Refinement
import BenchmarkHost.Service.Published
import BenchmarkHost.Worker.Client
import BenchmarkHost.Worker.Answers
import BenchmarkHost.Composition.Pair
import BenchmarkHost.Composition.Handshake
import BenchmarkHost.Composition.PendingWrites
import BenchmarkHost.Composition.System
import BenchmarkHost.Composition.Routing
import BenchmarkHost.Composition.Conservation
import BenchmarkHost.Composition.Order
import BenchmarkHost.Composition.StartUp
import BenchmarkHost.Composition.Supply
import BenchmarkHost.Composition.Settling
import BenchmarkHost.Composition.Provenance
import BenchmarkHost.RouteGuide.Points
import BenchmarkHost.RouteGuide.Slice
import BenchmarkHost.RouteGuide.GetBytes
import BenchmarkHost.RouteGuide.Transfer
import BenchmarkHost.RouteGuide.Tiling
import BenchmarkHost.RouteGuide.Features
import BenchmarkHost.RouteGuide.RecordRoute
import BenchmarkHost.RouteGuide.Lookups
import BenchmarkHost.RouteGuide.RouteChat
import BenchmarkHost.RouteGuide.Conversations
import BenchmarkHost.RouteGuide.Completion
import BenchmarkHost.RouteGuide.InvokeFunction
import BenchmarkHost.Wire.FunctionRpc
import BenchmarkHost.Wire.TestProto
import BenchmarkHost.Wire.Marshalling
import BenchmarkHost.Wire.RouteGuide
import BenchmarkHost.Wire.Transport
import BenchmarkHost.Wire.Limits
