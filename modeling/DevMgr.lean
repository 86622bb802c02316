import DevMgr.Machine
import DevMgr.BufferItem
import DevMgr.Framing
import DevMgr.SockIo
import DevMgr.TransStreamHandler
import DevMgr.Decoder
import DevMgr.PduStream
import DevMgr.MsgClient
import DevMgr.Overrun
import DevMgr.MainJni
import DevMgr.MsgServerHandler
import DevMgr.DbMsg
import DevMgr.AdbRefs
import DevMgr.AdbServe
import DevMgr.CmdTableMod
import DevMgr.CommonServer
import DevMgr.ClientLife
import DevMgr.MuxSleep
import DevMgr.Matching
import DevMgr.MtpDeviceMon
import DevMgr.MtpHandles
import DevMgr.MtpLookup
import DevMgr.DeviceCenter
import DevMgr.ObserverLife
import DevMgr.AdbDeviceMon
import DevMgr.DeviceLife
import DevMgr.ProcessDevices
import DevMgr.AdbCmd
import DevMgr.DevTableMod
import DevMgr.MiscUtils
import DevMgr.EnumDevices
import DevMgr.EnumListing
import DevMgr.GetApkList
import DevMgr.AdbPool
import DevMgr.AdbFlush
import DevMgr.ClientWake
import DevMgr.JniService
import DevMgr.ListHead
import DevMgr.TcpServer
import DevMgr.AppCursor
import DevMgr.CmdArgs
import DevMgr.CmdLine
import DevMgr.BcastServer
import DevMgr.SqlWrapper
import DevMgr.CmdResults
import DevMgr.DiskInfo
import DevMgr.GetProp
import DevMgr.BootState
import DevMgr.SysInfo
import DevMgr.AppTableMod
import DevMgr.CmdExecute
import DevMgr.ExecuteOne
import DevMgr.Objects
import DevMgr.RingQueue
import DevMgr.ParseDWord
import DevMgr.PointerVars
import DevMgr.Memory
import DevMgr.BufferPointers
import DevMgr.BufferView
import DevMgr.ChildProcess
import DevMgr.LockOrder
import DevMgr.LockUse
import DevMgr.Monitor
import DevMgr.ServerThreads
import DevMgr.DeviceWatch
import DevMgr.Delivery
import DevMgr.TransCenter
import DevMgr.AppRows
import DevMgr.MtpSendFile
import DevMgr.AdbProgress
import DevMgr.Requests
