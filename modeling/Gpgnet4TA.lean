import Gpgnet4TA.Lib.Arq
import Gpgnet4TA.Lib.Bytes
import Gpgnet4TA.Lib.Grouping
import Gpgnet4TA.Lib.Inverse
import Gpgnet4TA.Lib.Lzss
import Gpgnet4TA.Lib.Patch
import Gpgnet4TA.Lib.Reassembly
import Gpgnet4TA.Lib.FaultyReader
import Gpgnet4TA.Lib.Run
import Gpgnet4TA.Lib.Since
import Gpgnet4TA.Lib.Walk
import Gpgnet4TA.Lib.Window
import Gpgnet4TA.Taflib.DuplicateDetection
import Gpgnet4TA.Taflib.DuplicateWindow
import Gpgnet4TA.Tapacket.TPacket
import Gpgnet4TA.Tapacket.Compression
import Gpgnet4TA.Tapacket.DecompressBounds
import Gpgnet4TA.Tafnet.DataBuffer
import Gpgnet4TA.Tafnet.Node
import Gpgnet4TA.Tafnet.NodeSpec
import Gpgnet4TA.Tafnet.Link
import Gpgnet4TA.Tafnet.Refinement
import Gpgnet4TA.Tafnet.Session
import Gpgnet4TA.Tafnet.Delivery
import Gpgnet4TA.Tafnet.ReliableChannel
import Gpgnet4TA.Tafnet.Wraparound
import Gpgnet4TA.Tafnet.Fragmentation
import Gpgnet4TA.Tafnet.Peers
import Gpgnet4TA.Tafnet.PacketSize
import Gpgnet4TA.Tafnet.DatagramReads
import Gpgnet4TA.Tafnet.HandlerFaults
import Gpgnet4TA.Gpgnet.GpgNetParse
import Gpgnet4TA.Gpgnet.Framing
import Gpgnet4TA.Gpgnet.Receiving
import Gpgnet4TA.Tapacket.DemoParser
import Gpgnet4TA.Tapacket.DemoFollowing
import Gpgnet4TA.Tapacket.SlowUnsmartpak
import Gpgnet4TA.Tapacket.CutSizes
import Gpgnet4TA.Tapacket.CutBounds
import Gpgnet4TA.Tapacket.SubPacketClasses
import Gpgnet4TA.Tapacket.WireCodec
import Gpgnet4TA.Tapacket.SmartPaker
import Gpgnet4TA.Tapacket.DemoWriter
import Gpgnet4TA.Tapacket.DemoRoundTrip
import Gpgnet4TA.Tareplay.ReplayServer
import Gpgnet4TA.Tareplay.Escrow
import Gpgnet4TA.Tareplay.SizeLog
import Gpgnet4TA.Tareplay.ReplayClient
import Gpgnet4TA.Tareplay.Resume
import Gpgnet4TA.Tareplay.DemoCompiler
import Gpgnet4TA.Tareplay.DemoCompilerSpec
import Gpgnet4TA.Tareplay.DemoDirectory
import Gpgnet4TA.Tareplay.GameTable
import Gpgnet4TA.Tareplay.PlayerNumbers
import Gpgnet4TA.Tareplay.PlayerStatus
import Gpgnet4TA.Tareplay.Attribution
import Gpgnet4TA.Tareplay.DemoReadBack
import Gpgnet4TA.Tareplay.UnitData
import Gpgnet4TA.Tareplay.UnitsInDemo
import Gpgnet4TA.Tareplay.StatusReads
import Gpgnet4TA.Tareplay.DemoCompilerClient
import Gpgnet4TA.Tareplay.LoadingSync
import Gpgnet4TA.Talaunch.LaunchStatus
import Gpgnet4TA.Replayer.SyncWatcher
import Gpgnet4TA.Replayer.UnitPasses
import Gpgnet4TA.Replayer.ChatWindow
import Gpgnet4TA.Tapacket.DPlayPacket
import Gpgnet4TA.Tapacket.TAPacketParser
import Gpgnet4TA.Tafnet.GameAddressTranslater
import Gpgnet4TA.Tafnet.GameNode
import Gpgnet4TA.Tafnet.GameNodeSpec
import Gpgnet4TA.Tafnet.PortRouting
import Gpgnet4TA.Tafnet.Invites
import Gpgnet4TA.Tapacket.ControlMessage
import Gpgnet4TA.Tafnet.Translation
import Gpgnet4TA.Tafnet.Segmentation
import Gpgnet4TA.Tafnet.GamePackets
import Gpgnet4TA.Tafnet.HeaderWalks
import Gpgnet4TA.Tafnet.ProtectedCopies
import Gpgnet4TA.App.GameMonitor2
import Gpgnet4TA.App.Numbering
import Gpgnet4TA.App.TeamNumbers
import Gpgnet4TA.App.MonitorSpec
import Gpgnet4TA.App.MonitorInvariant
import Gpgnet4TA.App.Verdict
import Gpgnet4TA.App.MutualDraw
import Gpgnet4TA.App.Announcement
import Gpgnet4TA.App.ChatAlliance
import Gpgnet4TA.App.Battleroom
import Gpgnet4TA.App.FrozenTeams
import Gpgnet4TA.App.SameArmies
import Gpgnet4TA.App.DeferredVictory
import Gpgnet4TA.App.UnitLimit
import Gpgnet4TA.Lib.Execution
import Gpgnet4TA.Lib.Machine
import Gpgnet4TA.Lib.Crc
import Gpgnet4TA.Taflib.Crc32
import Gpgnet4TA.Tafnet.FairDelivery
import Gpgnet4TA.Tafnet.PacketSizeTests
import Gpgnet4TA.Talaunch.LaunchClient
import Gpgnet4TA.Talaunch.LaunchServer
import Gpgnet4TA.App.GpgNetGameLauncher
import Gpgnet4TA.App.LauncherReports
import Gpgnet4TA.App.LauncherStart
import Gpgnet4TA.App.LaunchSystem
import Gpgnet4TA.Replayer.LiveReplay
import Gpgnet4TA.Replayer.LiveViewer
import Gpgnet4TA.Replayer.LobbyStart
