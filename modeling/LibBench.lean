import LibBench.Game.Position
import LibBench.Math.Execution
import LibBench.Math.GuardedWalk
import LibBench.Math.KeyedFold
import LibBench.Math.Redraw
import LibBench.Math.SequenceWindow
import LibBench.Math.Mean
import LibBench.Math.Bytes
import LibBench.Math.Getopt
import LibBench.Math.BitPacking
import LibBench.Math.Pieces
import LibBench.Game.CorrectionsTracker
import LibBench.Game.MoveLoop
import LibBench.RakNet.ServerGamestate
import LibBench.RakNet.Server
import LibBench.RakNet.PacketBytes
import LibBench.RakNet.SelfBroadcast
import LibBench.RakNet.Roster
import LibBench.RakNet.Client
import LibBench.RakNet.RemotePlayers
import LibBench.RakNet.World
import LibBench.RakNet.HandshakeOrder
import LibBench.RakNet.CommandLine
import LibBench.RakNet.MapBounds
import LibBench.RakNet.Admission
import LibBench.RakNet.Authenticity
import LibBench.RakNet.Occupancy
import LibBench.RakNet.Identity
import LibBench.RakNet.Reliable
import LibBench.RakNet.Reconciliation
import LibBench.RakNet.Foresight
import LibBench.RakNet.ViewAgreement
import LibBench.Yojimbo.Messages
import LibBench.Yojimbo.BitStream
import LibBench.Yojimbo.Serialize
import LibBench.Yojimbo.Streams
import LibBench.Yojimbo.WireBodies
import LibBench.Yojimbo.SendQueue
import LibBench.Yojimbo.Server
import LibBench.Yojimbo.Handshake
import LibBench.Yojimbo.Pointers
import LibBench.Yojimbo.SendCalls
import LibBench.Yojimbo.Overrun
import LibBench.Yojimbo.WireRange
import LibBench.Yojimbo.Options
import LibBench.Yojimbo.Client
import LibBench.Yojimbo.LocalPlayer
import LibBench.Yojimbo.Transparency
import LibBench.Yojimbo.Connection
import LibBench.Yojimbo.Walk
import LibBench.Yojimbo.World
import LibBench.Yojimbo.Sessions
import LibBench.Yojimbo.Attribution
import LibBench.ENet.Messages
import LibBench.ENet.Wire
import LibBench.ENet.Server
import LibBench.ENet.Game
import LibBench.ENet.Decoding
import LibBench.ENet.Walk
import LibBench.Comparison.UpdateLoops
import LibBench.Comparison.CorrectionRule
import LibBench.Comparison.LocalMoves
import LibBench.Comparison.Spawning
import LibBench.UsageLogs.Process
import LibBench.Math.SequenceNumber
import LibBench.Math.SequenceRing
import LibBench.Transport.Endpoint
import LibBench.Transport.Channel
import LibBench.Transport.Connection
import LibBench.Transport.SendWindow
import LibBench.Transport.ReceiveWindow
import LibBench.Transport.Acknowledgements
import LibBench.Transport.Delivery
import LibBench.Transport.Steps
import LibBench.Transport.Arrivals
import LibBench.Transport.Network
import LibBench.Transport.Draining
import LibBench.Transport.Wrapping
import LibBench.Transport.WrappedChannel
import LibBench.Transport.Refinement
import LibBench.Transport.Guarantees
import LibBench.Transport.QueueNumbers
import LibBench.Transport.Unreliable
import LibBench.Transport.PacketBits
import LibBench.Transport.PacketBudget
import LibBench.Transport.PacketHeader
import LibBench.Transport.Fragments
import LibBench.Transport.Reassembly
import LibBench.Transport.Datagrams
import LibBench.Transport.DatagramSteps
import LibBench.Transport.GamePackets
import LibBench.Transport.DatagramRuns
import LibBench.Transport.DatagramGuarantees
import LibBench.Transport.Memory
