import CodeStudy.Base.Bytes
import CodeStudy.Base.Loop
import CodeStudy.Base.Numbering
import CodeStudy.Base.OrdMap
import CodeStudy.Samba.Protocol
import CodeStudy.Samba.Pdu
import CodeStudy.Samba.Context
import CodeStudy.Samba.Reply
import CodeStudy.Samba.Handlers
import CodeStudy.Samba.HandlerEffect
import CodeStudy.Samba.Socket.Read
import CodeStudy.Samba.Socket.Write
import CodeStudy.Samba.ClientStep
import CodeStudy.Samba.Socket.Receive
import CodeStudy.Samba.Socket.Frame
import CodeStudy.Samba.Client
import CodeStudy.Samba.Numbering
import CodeStudy.Samba.MessageIds
import CodeStudy.Samba.Pending
import CodeStudy.Samba.Credits
import CodeStudy.Samba.Compound
import CodeStudy.Samba.SendQueue
import CodeStudy.Samba.FrameLayout
import CodeStudy.Base.View
import CodeStudy.Samba.Security.Descriptor
import CodeStudy.Samba.Security.RoundTrip
import CodeStudy.Samba.Security.Reencode
import CodeStudy.Samba.Security.Bounds
import CodeStudy.Samba.ReplyWindow
import CodeStudy.Samba.FileRequests
import CodeStudy.Samba.CallerBuffer
import CodeStudy.Samba.ExchangeRule
import CodeStudy.Samba.Api
import CodeStudy.Samba.HandleLife
import CodeStudy.Samba.HandleOwners
import CodeStudy.Base.Slice
import CodeStudy.Samba.Fields
import CodeStudy.Samba.SequentialOffset
import CodeStudy.Cppcoro.Scheduler
import CodeStudy.Cppcoro.FlatRun
import CodeStudy.Base.Frame
import CodeStudy.Jsonrpc.Connector
import CodeStudy.Jsonrpc.Framing
import CodeStudy.Jsonrpc.Crossing
import CodeStudy.Jsonrpc.Polite
import CodeStudy.Jsonrpc.Json
import CodeStudy.Jsonrpc.Server
import CodeStudy.Jsonrpc.Client
import CodeStudy.Jsonrpc.CallResult
import CodeStudy.Jsonrpc.ResponseTexts
import CodeStudy.Jsonrpc.Batch
import CodeStudy.Jsonrpc.BatchIds
import CodeStudy.Jsonrpc.BatchHandlers
import CodeStudy.Jsonrpc.BatchServed
import CodeStudy.Jsonrpc.BatchCall
import CodeStudy.Base.GrowBuffer
import CodeStudy.Samba.Ucs2
import CodeStudy.Samba.Ntlm
import CodeStudy.Samba.NtlmLayout
import CodeStudy.Samba.Offsets
import CodeStudy.Base.Defined
import CodeStudy.Samba.ShareEnum
import CodeStudy.Samba.ShareResponse
import CodeStudy.Samba.ShareRounds
import CodeStudy.Samba.FileData
import CodeStudy.Samba.Requests
import CodeStudy.Samba.QueryInfo
import CodeStudy.Samba.OwnData
import CodeStudy.Samba.QueryOutput
import CodeStudy.Samba.RequestLayout
import CodeStudy.Base.Cmac
import CodeStudy.Samba.AesCmac
import CodeStudy.Samba.QueueFailure
import CodeStudy.Samba.ChallengeBounds
import CodeStudy.Samba.TransferSize
import CodeStudy.Samba.TransferReply
import CodeStudy.Base.Chain
import CodeStudy.Samba.EntryChain
import CodeStudy.Samba.EntryBounds
import CodeStudy.Samba.LinkedEntries
import CodeStudy.Samba.DirectoryEntries
import CodeStudy.Samba.Security.EncodeBounds
import CodeStudy.Samba.NegotiateContexts
import CodeStudy.Samba.Signing
import CodeStudy.Samba.Utf8
import CodeStudy.Samba.StreamEntries
import CodeStudy.Samba.PathNames
import CodeStudy.Base.Store
import CodeStudy.Samba.ExtendedAttributes
import CodeStudy.Samba.LookupNames
import CodeStudy.Samba.DceRpcRequests
import CodeStudy.Samba.StringValues
import CodeStudy.Samba.ShareBounds
import CodeStudy.Samba.ShareTexts
import CodeStudy.Base.Layout
import CodeStudy.Samba.HeaderLayout
import CodeStudy.Samba.ExtendedSize
import CodeStudy.Samba.Times
import CodeStudy.Samba.UnitRoundTrip
import CodeStudy.Base.Split
import CodeStudy.Samba.Url
import CodeStudy.Samba.UrlArguments
import CodeStudy.ScreenShot.SelectShotArea
import CodeStudy.Jsonrpc.TypeMapper
import CodeStudy.Base.Heap
import CodeStudy.TaskThread.TaskThread
import CodeStudy.TaskThread.Runs
import CodeStudy.Samba.SmartPtrRuns
import CodeStudy.Base.SharedStore
import CodeStudy.Base.Runs
import CodeStudy.Sigslot.CopyOnWrite
import CodeStudy.Sigslot.Slots
import CodeStudy.Sigslot.Signal
import CodeStudy.Sigslot.Emission
import CodeStudy.Sigslot.SignalRuns
import CodeStudy.Sigslot.Guarantees
import CodeStudy.Sigslot.Progress
import CodeStudy.Cppcoro.Schedule
import CodeStudy.TaskThread.Shutdown
import CodeStudy.Base.Channel
import CodeStudy.PubSub.Delivery
import CodeStudy.Samba.Accounting
import CodeStudy.ScreenShot.Sessions
import CodeStudy.DeviceEvents.EventQueue
