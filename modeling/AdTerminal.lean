import AdTerminal.Camera.FailedStart
import AdTerminal.Camera.FrameData
import AdTerminal.Camera.StoppedFrames
import AdTerminal.Camera.UVCCameraEnumerator
import AdTerminal.Camera.UVCCameraVideoCapturer
import AdTerminal.Download.Assembly
import AdTerminal.Download.Attended
import AdTerminal.Download.DownloadManager
import AdTerminal.Download.DownloadService
import AdTerminal.Download.DownloadTask
import AdTerminal.Download.Faithful
import AdTerminal.Download.OneSegment
import AdTerminal.Download.OneWriter
import AdTerminal.Download.PendingQueue
import AdTerminal.Download.Reported
import AdTerminal.Download.Requests
import AdTerminal.Download.Resume
import AdTerminal.Download.Served
import AdTerminal.Download.Started
import AdTerminal.Download.StoredSegments
import AdTerminal.Download.ThreadDao
import AdTerminal.Download.Transfer
import AdTerminal.Library.BigEndian
import AdTerminal.Library.Cursor
import AdTerminal.Library.Failure
import AdTerminal.Library.FilePath
import AdTerminal.Library.JavaString
import AdTerminal.Library.Regex
import AdTerminal.Library.RegisterBus
import AdTerminal.Library.RoundRobin
import AdTerminal.Library.Simulation
import AdTerminal.Library.Stateful
import AdTerminal.Library.Transition
import AdTerminal.Library.VideoView
import AdTerminal.Library.XmlGrammar
import AdTerminal.Library.XmlSpaces
import AdTerminal.Live.AdtsFrames
import AdTerminal.Live.AnnexbUnits
import AdTerminal.Live.AnyRtmpPull
import AdTerminal.Live.AnyRtmpPush
import AdTerminal.Live.AnyRtmpStreamer
import AdTerminal.Live.Broadcast
import AdTerminal.Live.Connection
import AdTerminal.Live.KeyframeUnits
import AdTerminal.Live.Lookalikes
import AdTerminal.Live.NetDelay
import AdTerminal.Live.PullSession
import AdTerminal.Live.PushTurns
import AdTerminal.Live.TagDemuxing
import AdTerminal.Live.Written
import AdTerminal.Rfid.RfidId
import AdTerminal.Rtmp.Aggregates
import AdTerminal.Rtmp.AvcAacCodec
import AdTerminal.Rtmp.ChunkStreams
import AdTerminal.Rtmp.Demultiplexing
import AdTerminal.Rtmp.PacketRoundTrip
import AdTerminal.Rtmp.Packets
import AdTerminal.Rtmp.PayloadBounds
import AdTerminal.Rtmp.RawFrames
import AdTerminal.Rtmp.Reading
import AdTerminal.Rtmp.SentMessages
import AdTerminal.Rtmp.SpsFields
import AdTerminal.Rtmp.SrsFastBuffer
import AdTerminal.Rtmp.SrsProtocol
import AdTerminal.Rtmp.SrsSending
import AdTerminal.Schedule.AdCtrl
import AdTerminal.Schedule.AlarmUtil
import AdTerminal.Schedule.Batches
import AdTerminal.Schedule.DailyAlarms
import AdTerminal.Schedule.MessageDispatcher
import AdTerminal.Schedule.PlayListTables
import AdTerminal.Schedule.Receivers
import AdTerminal.Schedule.RequestCodes
import AdTerminal.Schedule.StoredTimes
import AdTerminal.Schedule.TimeSpellings
import AdTerminal.Schedule.VideoCursor
import AdTerminal.Schedule.VideoLoop
import AdTerminal.Strategy.ActiveFiles
import AdTerminal.Strategy.AdMediaInfo
import AdTerminal.Strategy.BadResponse
import AdTerminal.Strategy.Convergence
import AdTerminal.Strategy.CrashRecovery
import AdTerminal.Strategy.FetchedText
import AdTerminal.Strategy.LivePush
import AdTerminal.Strategy.MediaScan
import AdTerminal.Strategy.MediaUpdateReceiver
import AdTerminal.Strategy.Overlap
import AdTerminal.Strategy.PlayLists
import AdTerminal.Strategy.PlayLoops
import AdTerminal.Strategy.PlayOrder
import AdTerminal.Strategy.Playback
import AdTerminal.Strategy.Players
import AdTerminal.Strategy.Reload
import AdTerminal.Strategy.UpdateRun
import AdTerminal.Strategy.Withdrawn
import AdTerminal.Update.Confined
import AdTerminal.Update.Transfers
