import Atbm6441.Lib.Runs
import Mathlib.Logic.Function.Basic

/-!
# Bringing a card up and down

`atbm_sdio_probe`, `atbm_core_probe` and what they undo, `atbm_sdio_disconnect`,
`atbm_core_release`, the end of the module and `atbm_ioctl_open`, with what each of them allocates and frees. What the
kernel answers is in `Outcome`. The module is built for Linux with `CONFIG_PM`, without
`CONFIG_WAKELOCK`; it serves one card.
-/

namespace Atbm6441.Sdio.Probe

open Atbm6441.Lib

/-! ### What is held -/

/-- What is allocated and freed again. -/
inductive Res
  | sbusPriv | hwPriv | workqueue | cmdBuf | pmDriver | pmDev | txThread | rxThread | xmitBuff | irq
  | netdev
deriving DecidableEq

/-- `g_hw_priv`. -/
inductive GPtr
  | null | live | freed
deriving DecidableEq

/-- The driver: how many of each are allocated, and the pointers of `sbus_priv` and `hw_priv`. -/
structure Drv where
  live : Res → ℕ
  /-- `sdio_get_drvdata` -/
  drvdata : Bool
  /-- `self->core` -/
  core : Bool
  /-- `tx_thread.self` and `rx_thread.self` -/
  txSelf : Bool
  rxSelf : Bool
  /-- `tx_thread.thread` and `rx_thread.thread` -/
  tx : Bool
  rx : Bool
  irqHandler : Bool
  irq : Bool
  workqueue : Bool
  cmdBuf : Bool
  pmDev : Bool
  xmitBuff : Bool
  vif : Bool
  gHwPriv : GPtr
  hwNetCfgOk : Bool
  /-- `init_cnt` of `asynchronize_rcu` -/
  initCnt : ℕ
  /-- how often `init_done` was written after `hw_priv` was freed -/
  staleWrites : ℕ

/-- Why a function does not come to its end. -/
inductive Stop
  /-- a NULL pointer is followed -/
  | oops
  /-- it goes on for ever -/
  | hang
  /-- it waits for a completion that was never initialised -/
  | uninit
deriving DecidableEq

/-- How `atbm_pm_init_common` ends. -/
inductive PmInit
  | ok | registerFails | allocFails | addFails
deriving DecidableEq

/-- A pass from `reload_fw` on: whether the firmware is loaded, whether `sdio_claim_irq` succeeds,
and whether the firmware reports itself in time. -/
structure Boot where
  load : Bool
  irq : Bool
  ready : Bool
deriving DecidableEq

/-- What the calls of a probe return. -/
structure Outcome where
  sbus : Bool
  core : Bool
  workqueue : Bool
  cmdBuf : Bool
  pm : PmInit
  tx : Bool
  xmitBuff : Bool
  rx : Bool
  boots : List Boot
  netdev : Bool
deriving DecidableEq

namespace Drv

/-- Allocate, if the kernel can. -/
def allocIf (d : Drv) (b : Bool) (r : Res) : Drv :=
  { d with live := if b then Function.update d.live r (d.live r + 1) else d.live }

/-- Free what a pointer points to, if it is not NULL. -/
def freeIf (d : Drv) (b : Bool) (r : Res) : Drv :=
  { d with live := if b then Function.update d.live r (d.live r - 1) else d.live }

def alloc (d : Drv) (r : Res) : Drv := d.allocIf true r

def free (d : Drv) (r : Res) : Drv := d.freeIf true r

/-! ### `main.c`, `pm.c` -/

/-- `atbm_init_common`: `kzalloc`, and a workqueue and the buffer of the commands. -/
def atbmInitCommon (d : Drv) (o : Outcome) : Drv :=
  { ((d.alloc .hwPriv).allocIf o.workqueue .workqueue).allocIf o.cmdBuf .cmdBuf with
    workqueue := o.workqueue, cmdBuf := o.cmdBuf, pmDev := false, xmitBuff := false, vif := false }

/-- `atbm_pm_init`; true when it returns 0. -/
def atbmPmInit (d : Drv) : PmInit → Bool × Drv
  | .ok => (true, { (d.alloc .pmDriver).alloc .pmDev with pmDev := true })
  | .registerFails | .allocFails => (false, d)
  -- the driver is not unregistered
  | .addFails => (false, d.alloc .pmDriver)

/-- `atbm_pm_deinit`. -/
def atbmPmDeinit (d : Drv) : Drv :=
  { (d.free .pmDriver).freeIf d.pmDev .pmDev with pmDev := false }

/-- `wsm_buf_deinit`. -/
def wsmBufDeinit (d : Drv) : Drv := { d.freeIf d.cmdBuf .cmdBuf with cmdBuf := false }

/-- `atbm_free_common`. -/
def atbmFreeCommon (d : Drv) : Drv := { d.free .hwPriv with gHwPriv := .freed }

/-! ### `apollo_sdio.c` -/

/-- `atbm_sdio_xmit_init`, with `atbm_sdio_thread_init`; true when it returns 0. -/
def atbmSdioXmitInit (d : Drv) (o : Outcome) : Bool × Drv :=
  let d := { d.allocIf o.tx .txThread with txSelf := true, tx := o.tx }
  if ¬ o.tx then (false, d)
  else (o.xmitBuff, { d.allocIf o.xmitBuff .xmitBuff with xmitBuff := o.xmitBuff })

/-- `atbm_sdio_rev_init`. -/
def atbmSdioRevInit (d : Drv) (o : Outcome) : Bool × Drv :=
  (o.rx, { d.allocIf o.rx .rxThread with rxSelf := true, rx := o.rx })

/-- `atbm_sdio_xmit_deinit`, with `atbm_sdio_thread_deinit`: it takes a lock of `thread->self`. -/
def atbmSdioXmitDeinit (d : Drv) : Except Stop Drv :=
  if ¬ d.txSelf then .error .oops
  else
    let d := { d.freeIf d.tx .txThread with
      tx := false, initCnt := if d.tx then d.initCnt + 1 else d.initCnt }
    .ok { d.freeIf d.xmitBuff .xmitBuff with xmitBuff := false }

/-- `atbm_sdio_rev_deinit`. -/
def atbmSdioRevDeinit (d : Drv) : Except Stop Drv :=
  if ¬ d.rxSelf then .error .oops
  else
    .ok { d.freeIf d.rx .rxThread with
      rx := false, initCnt := if d.rx then d.initCnt + 1 else d.initCnt }

/-- `atbm_sdio_irq_subscribe`. -/
def atbmSdioIrqSubscribe (d : Drv) (irq : Bool) : Drv :=
  { d.allocIf irq .irq with irqHandler := true, irq := irq }

/-- `atbm_sdio_irq_unsubscribe`. -/
def atbmSdioIrqUnsubscribe (d : Drv) : Drv :=
  if ¬ d.irqHandler then d
  else { d.freeIf d.irq .irq with irqHandler := false, irq := false }

/-! ### The probe -/

/-- `err1` and `err` of `atbm_core_probe`. -/
def err1 (d : Drv) : Except Stop Drv := do
  let d ← d.atbmSdioXmitDeinit
  let d ← d.atbmSdioRevDeinit
  let d := d.wsmBufDeinit.atbmPmDeinit.atbmFreeCommon
  -- `hw_priv->init_done = 0`
  return { d with core := false, staleWrites := d.staleWrites + 1 }

/-- `atbm_core_probe` from `reload_fw` on: the firmware is loaded until it reports itself. -/
def reloadFw (d : Drv) (netdev : Bool) : List Boot → Except Stop (Bool × Drv)
  | [] => .error .hang
  | b :: boots =>
    if ¬ b.load then return (false, ← d.err1)
    else
      let d := d.atbmSdioIrqSubscribe b.irq
      if ¬ b.ready then d.atbmSdioIrqUnsubscribe.reloadFw netdev boots
      -- nothing is undone when `atbm_netdev_add` fails
      else return (netdev, { d.allocIf netdev .netdev with vif := netdev, hwNetCfgOk := true })

/-- `atbm_core_probe`; true when it returns 0. -/
def atbmCoreProbe (d : Drv) (o : Outcome) : Except Stop (Bool × Drv) :=
  if ¬ o.core then return (false, { d with core := false })
  else
    let d := { d.atbmInitCommon o with core := true, gHwPriv := .live }
    match d.atbmPmInit o.pm with
    | (false, d) => do return (false, ← d.err1)
    | (true, d) =>
      match d.atbmSdioXmitInit o with
      | (xmit, d) =>
        match d.atbmSdioRevInit o with
        | (rev, d) =>
          if xmit && rev then d.reloadFw o.netdev o.boots else do return (false, ← d.err1)

/-- `atbm_sdio_probe`. -/
def atbmSdioProbe (d : Drv) (o : Outcome) : Except Stop (Bool × Drv) :=
  if ¬ o.sbus then return (false, d)
  else do
    let (ok, d) ← { d.alloc .sbusPriv with
      drvdata := true, core := false, txSelf := false, rxSelf := false, tx := false, rx := false,
      irqHandler := false, irq := false : Drv }.atbmCoreProbe o
    if ok then return (true, d) else return (false, { d.free .sbusPriv with drvdata := false })

/-! ### The way down -/

/-- `atbm_unregister_common`. -/
def atbmUnregisterCommon (d : Drv) : Except Stop Drv := do
  let d := { d.freeIf d.vif .netdev with vif := false }
  let d ← d.atbmSdioIrqUnsubscribe.atbmSdioXmitDeinit
  let d ← d.atbmSdioRevDeinit
  if ¬ d.workqueue then throw .oops
  return { d.free .workqueue with workqueue := false }.wsmBufDeinit.atbmPmDeinit

/-- `atbm_core_release`. -/
def atbmCoreRelease (d : Drv) : Except Stop Drv := do
  let d ← d.atbmUnregisterCommon
  return { d.atbmFreeCommon with hwNetCfgOk := false }

/-- `atbm_sdio_disconnect`. -/
def atbmSdioDisconnect (d : Drv) : Except Stop Drv :=
  if ¬ d.drvdata then return d
  else do
    let d ← if d.core then d.atbmCoreRelease else pure d
    return { d.free .sbusPriv with core := false, drvdata := false }

/-- `apollo_sdio_module_exit`: the card is disconnected, and the end of the last `call_rcu` is
waited for. -/
def apolloSdioModuleExit (d : Drv) : Except Stop Drv := do
  let d ← d.atbmSdioDisconnect
  if d.initCnt < 2 then throw .uninit
  return d

end Drv

/-! ### Opening the device -/

/-- How `atbm_ioctl_open` ends. -/
inductive Opened
  | fails | opens
  /-- it reads `init_done` of what was freed -/
  | readsFreed
deriving DecidableEq

/-- `atbm_ioctl_open`, when nothing changes while it waits. -/
def atbmIoctlOpen (d : Drv) : Opened :=
  match d.gHwPriv with
  | .null => .fails
  | .freed => .readsFreed
  | .live => if d.hwNetCfgOk then .opens else .fails

/-! ### Runs -/

/-- The module as it is loaded. -/
def start : Drv where
  live := fun _ => 0
  drvdata := false
  core := false
  txSelf := false
  rxSelf := false
  tx := false
  rx := false
  irqHandler := false
  irq := false
  workqueue := false
  cmdBuf := false
  pmDev := false
  xmitBuff := false
  vif := false
  gHwPriv := .null
  hwNetCfgOk := false
  initCnt := 0
  staleWrites := 0

/-- What the MMC core does: a card is probed when there is none, and one that was probed is
disconnected. -/
inductive Act
  | probe (o : Outcome)
  | disconnect
deriving DecidableEq

/-- A step; none when it does not come to its end. -/
def Drv.step (d : Drv) : Act → Option Drv
  | .probe o => if d.drvdata then none else (d.atbmSdioProbe o).toOption.map Prod.snd
  | .disconnect => if d.drvdata then d.atbmSdioDisconnect.toOption else none

def system : System Drv Act := ⟨(· = start), Drv.step⟩

end Atbm6441.Sdio.Probe
