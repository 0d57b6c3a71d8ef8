import MyDirectFB.Lib.LabelledRun
import MyDirectFB.Timer
import MyDirectFB.TimerQueue
import MyDirectFB.TimerDrain
import MyDirectFB.TimerFront
import MyDirectFB.Lib.Cells
import MyDirectFB.Lib.RingBuffer
import MyDirectFB.ByteBuffer
import MyDirectFB.ByteBufferFifo
import MyDirectFB.ByteBufferProgress
import MyDirectFB.ByteBufferDeadline
import MyDirectFB.Lib.LittleEndian
import MyDirectFB.Lib.CString
import MyDirectFB.Parcel
import MyDirectFB.ParcelRoundTrip
import MyDirectFB.ParcelStream
import MyDirectFB.ParcelTruncated
import MyDirectFB.ParcelInvariant
import MyDirectFB.ParcelUntrusted
import MyDirectFB.Task
import MyDirectFB.TaskLifecycle
import MyDirectFB.ContainerEvent
import MyDirectFB.ContainerEventOrder
import MyDirectFB.KeyValue
import MyDirectFB.Ini
import MyDirectFB.KeyValueGrammar
import MyDirectFB.IniDocument
import MyDirectFB.IdGen
import MyDirectFB.TimerRearm
import MyDirectFB.TimerWait
import MyDirectFB.ContainerWindow
import MyDirectFB.WifiEvent
import MyDirectFB.WifiEventHeader
import MyDirectFB.TimerThread
import MyDirectFB.TimerThreadSteps
import MyDirectFB.TimerThreadStop
import MyDirectFB.KeyRepeat
import MyDirectFB.KeyRepeatBracket
import MyDirectFB.TimerExpiry
import MyDirectFB.TimerThreadExpiry
import MyDirectFB.TimerThreadSchedule
import MyDirectFB.ObjectLifetime
import MyDirectFB.ObjectLifetimeSafety
import MyDirectFB.Lib.NodeList
import MyDirectFB.ListenerList
import MyDirectFB.ListenerListDispatch
import MyDirectFB.FdWatcherSet
import MyDirectFB.ListenerVector
import MyDirectFB.ListenerVectorNotify
import MyDirectFB.KeyValueBounds
import MyDirectFB.IniLines
import MyDirectFB.IniErrors
import MyDirectFB.Popen2
import MyDirectFB.CommandLine
import MyDirectFB.Lib.PrefixDispatch
import MyDirectFB.WifiEventNames
import MyDirectFB.WifiEventDelivery
import MyDirectFB.WifiExtraData
import MyDirectFB.Lib.Numeral
import MyDirectFB.WifiP2pGroup
import MyDirectFB.WifiP2pDevice
import MyDirectFB.Lib.Tokens
import MyDirectFB.WifiDevice
import MyDirectFB.Lib.HandleLedger
import MyDirectFB.WifiConnect
import MyDirectFB.Lib.AlignedRecords
import MyDirectFB.Lib.Returns
import MyDirectFB.Netlink
import MyDirectFB.NetlinkBounds
import MyDirectFB.NetlinkAttributes
import MyDirectFB.NetlinkNames
import MyDirectFB.Ssdp
import MyDirectFB.Web
import MyDirectFB.NetUtil
import MyDirectFB.ReceiveBuffer
import MyDirectFB.InputDevices
import MyDirectFB.Lib.CheckedInt
import MyDirectFB.Rectangle
import MyDirectFB.Lib.Picture
import MyDirectFB.ContainerBackground
import MyDirectFB.RectanglePoints
import MyDirectFB.ContainerWidgets
import MyDirectFB.Lib.Channel
import MyDirectFB.EventLoopPass
import MyDirectFB.EventLoopCommands
import MyDirectFB.EventLoopWait
import MyDirectFB.Gpio
import MyDirectFB.Irq
import MyDirectFB.IrqCommands
import MyDirectFB.NetlinkEncode
import MyDirectFB.StepMotor
import MyDirectFB.LogDump
import MyDirectFB.Keymap
import MyDirectFB.InotifyEvents
import MyDirectFB.InputThread
import MyDirectFB.InputKeys
import MyDirectFB.InputDirectory
import MyDirectFB.Lib.FdTable
import MyDirectFB.PopenProcesses
import MyDirectFB.PopenPipes
import MyDirectFB.DefaultGateway
import MyDirectFB.TimerCadence
import MyDirectFB.SsdpNetwork
import MyDirectFB.WifiP2pConfig
import MyDirectFB.Lib.Triple
import MyDirectFB.Lib.HandleOwnership
import MyDirectFB.DfbResources
import MyDirectFB.DfbOwners
import MyDirectFB.ContainerResources
import MyDirectFB.UsbHotplug
import MyDirectFB.Lib.Since
import MyDirectFB.WifiLinks
import MyDirectFB.WifiSession
