import Atbm6441.Lib.Runs
import Atbm6441.Lib.Window
import Atbm6441.Lib.Bytes
import Atbm6441.Lib.Credit
import Atbm6441.Ieee80211.Hdr
import Atbm6441.Rx.Reorder.Model
import Atbm6441.Rx.Reorder.Refine
import Atbm6441.Rx.Reorder.Run
import Atbm6441.Rx.Replay.Model
import Atbm6441.Rx.Replay.Run
import Atbm6441.Rx.Replay.Tids
import Atbm6441.Wsm.MultiRx.Model
import Atbm6441.Wsm.MultiRx.Safety
import Atbm6441.Wsm.MultiRx.Codec
import Atbm6441.Wsm.Credit.Model
import Atbm6441.Wsm.Credit.Run
import Atbm6441.Wsm.Cmd.Model
import Atbm6441.Wsm.Cmd.Steps
import Atbm6441.Wsm.Cmd.Confirm
import Atbm6441.Wsm.Cmd.Transmit
import Atbm6441.Wsm.Cmd.Stack
import Atbm6441.Wsm.Buf.Model
import Atbm6441.Wsm.Buf.Reset
import Atbm6441.Wsm.Rx.Model
import Atbm6441.Rx.Delivery
import Atbm6441.Agg.Model
import Atbm6441.Agg.Owned
import Atbm6441.Agg.Teardown
import Atbm6441.Agg.Expiry
import Atbm6441.Ether.Model
import Atbm6441.Ether.RoundTrip
import Atbm6441.Lib.Slots
import Atbm6441.Lib.Cursor
import Atbm6441.Rx.Handlers.Model
import Atbm6441.Rx.Handlers.Access
import Atbm6441.Rx.Reorder.Count
import Atbm6441.Rx.Reorder.Slots
import Atbm6441.Wsm.Rx.Bounds
import Atbm6441.Wsm.Credit.Race
import Atbm6441.Ioctl.Alive
import Atbm6441.Ioctl.Mailbox
import Atbm6441.Sdio.Rtos
import Atbm6441.Tx.Queue
import Atbm6441.Wsm.Rx.Seq
import Atbm6441.Sdio.RxQueue
import Atbm6441.Sdio.Thread.Model
import Atbm6441.Sdio.Thread.Wait
import Atbm6441.Lib.Links
import Atbm6441.Sdio.Thread.Suspend
import Atbm6441.Sta.Model
import Atbm6441.Lib.Diff
import Atbm6441.Sta.Event
import Atbm6441.Rx.Reorder.Slide
import Atbm6441.Rx.Reorder.Timer
import Atbm6441.Rx.Reorder.Eapol
import Atbm6441.Rx.Handlers.Subframes
import Atbm6441.Rx.Handlers.Splitter
import Atbm6441.Rx.Handlers.Dispose
import Atbm6441.Lib.Ring
import Atbm6441.Lib.Progress
import Atbm6441.Os.WorkQueue
import Atbm6441.Os.Deadlock
import Atbm6441.Os.Timer.Model
import Atbm6441.Os.Timer.Hash
import Atbm6441.Os.Timer.Steps
import Atbm6441.Os.Timer.Flag
import Atbm6441.Os.Timer.Linux
import Atbm6441.Agg.Addba
import Atbm6441.Wsm.Cmd.Mismatch
import Atbm6441.Wsm.Cmd.WriteFail
import Atbm6441.Wsm.Buf.Reserve
import Atbm6441.Wsm.Buf.Fields
import Atbm6441.Wsm.Credit.Restart
import Atbm6441.Sdio.TxBh.Model
import Atbm6441.Sdio.TxBh.Pack
import Atbm6441.Sdio.TxBh.Fail
import Atbm6441.Wsm.Event.Model
import Atbm6441.Wsm.Event.Run
import Atbm6441.Sdio.ReadData
import Atbm6441.Rx.Handlers.Duplicate
import Atbm6441.Rx.Handlers.Reject
import Atbm6441.Rx.Handlers.Deref
import Atbm6441.Rx.Handlers.Unpack
import Atbm6441.Rx.Handlers.Mgmt
import Atbm6441.Lib.Fold
import Atbm6441.Ieee80211.Elems.Model
import Atbm6441.Ieee80211.Elems.Reading
import Atbm6441.Lib.Memory
import Atbm6441.Ieee80211.Assoc
import Atbm6441.Tx.Xmit.Model
import Atbm6441.Tx.Xmit.Decode
import Atbm6441.Tx.Xmit.Headroom
import Atbm6441.Tx.Xmit.Owner
import Atbm6441.Sta.Sync
import Atbm6441.Sta.Connect
import Atbm6441.Lib.Retry
import Atbm6441.Sdio.Hwio.Model
import Atbm6441.Sdio.Hwio.Indirect
import Atbm6441.Sdio.Hwio.Direct
import Atbm6441.Ioctl.Scan
import Atbm6441.Ioctl.Mode
import Atbm6441.Sta.GetConfig
import Atbm6441.Lib.Rings
import Atbm6441.Os.Skb.Queue
import Atbm6441.Os.Skb.Refine
import Atbm6441.Os.Skb.Buf
import Atbm6441.Lib.Chains
import Atbm6441.Fs.Text
import Atbm6441.Fs.Parase.Model
import Atbm6441.Fs.Parase.Lines
import Atbm6441.Fs.Parase.Exact
import Atbm6441.Fs.Store
import Atbm6441.Sdio.RxCount
import Atbm6441.Sdio.Hwio.Data
import Atbm6441.Fs.Macs
import Atbm6441.Fs.Echo.Model
import Atbm6441.Fs.Echo.Ready
import Atbm6441.Fs.Echo.Backup
import Atbm6441.Lib.Crc
import Atbm6441.Os.Crc32
import Atbm6441.Ieee80211.Elems.Crc
import Atbm6441.Lib.Link
import Atbm6441.Sdio.TxBh.Wire
import Atbm6441.Sdio.Probe.Model
import Atbm6441.Sdio.Probe.Run
import Atbm6441.Ioctl.Dispatch.Model
import Atbm6441.Ioctl.Dispatch.Safe
import Atbm6441.Lib.Parts
import Atbm6441.Tools.Upload.Model
import Atbm6441.Tools.Upload.Images
import Atbm6441.Wsm.Cmd.Rtos.Wakes
import Atbm6441.Wsm.Cmd.Rtos.Returns
import Atbm6441.Wsm.Cmd.Rtos.Rpc
import Atbm6441.Tx.Xmit.Refine
import Atbm6441.Tx.Air.Model
import Atbm6441.Tx.Air.Read
import Atbm6441.Tx.Air.Run
import Atbm6441.Rx.Air.Model
import Atbm6441.Rx.Air.Read
import Atbm6441.Rx.Air.Run
import Atbm6441.Os.Port
import Atbm6441.Rx.Reorder.Ports
