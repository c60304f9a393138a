import Atbm6441.Sdio.Probe.Model
import Mathlib.Algebra.Order.Ring.Nat

/-!
# What the driver holds

* `probe_sound_iff` : for which outcomes a probe comes to its end with what is allocated owned by
  the driver, but for a workqueue: the PM device must be there, and the network device when it is
  asked for;
* `balanced` : in every run of such probes and of disconnects a card that is up has one of each, and
  nothing else is left but a workqueue, and a write to freed memory, for each probe that failed;
* `module_exit_iff` : the end of the module waits for a completion that nobody has initialised
  unless two threads have been stopped;
* `open_readsFreed_iff` : the device can be opened while `g_hw_priv` points to freed memory.
-/

namespace Atbm6441.Sdio.Probe

open Atbm6441.Lib

/-! ### Owned and allocated -/

/-- What the pointers of the driver lead to. -/
def Drv.owned (d : Drv) : Res → Bool
  | .sbusPriv => d.drvdata
  | .hwPriv => d.core
  | .workqueue => d.core && d.workqueue
  | .cmdBuf => d.core && d.cmdBuf
  | .pmDriver | .pmDev => d.core && d.pmDev
  | .txThread => d.drvdata && d.tx
  | .rxThread => d.drvdata && d.rx
  | .xmitBuff => d.core && d.xmitBuff
  | .irq => d.drvdata && d.irq
  | .netdev => d.core && d.vif

/-- What is allocated is owned, but for `n` workqueues. -/
def Held (n : ℕ) (d : Drv) : Prop :=
  ∀ r, d.live r = (d.owned r).toNat + if r = .workqueue then n else 0

variable {d e : Drv} {n : ℕ}

theorem Held.acquire (h : Held n d) (r : Res) {b : Bool} (hlive : e.live = (d.allocIf b r).live)
    (howned : ∀ q, q ≠ r → e.owned q = d.owned q) (hd : d.owned r = false) (he : e.owned r = b) :
    Held n e := by
  intro q
  have hq := h q
  rw [hlive, Drv.allocIf]
  by_cases hqr : q = r
  · subst hqr
    rw [hd] at hq
    rw [he]
    cases b with
    | true => simp [hq, Nat.add_comm]
    | false => simpa using hq
  · rw [howned q hqr, ← hq]
    cases b with
    | true => simp [hqr]
    | false => rfl

theorem Held.release (h : Held n d) (r : Res) {b : Bool} (hlive : e.live = (d.freeIf b r).live)
    (howned : ∀ q, q ≠ r → e.owned q = d.owned q) (hd : d.owned r = b) (he : e.owned r = false) :
    Held n e := by
  intro q
  have hq := h q
  rw [hlive, Drv.freeIf]
  by_cases hqr : q = r
  · subst hqr
    rw [hd] at hq
    rw [he]
    cases b with
    | true => simp [hq]
    | false => simpa using hq
  · rw [howned q hqr, ← hq]
    cases b with
    | true => simp [hqr]
    | false => rfl

/-! ### The functions -/

/-- A card whose probe has come as far as its threads. -/
structure Alive (d : Drv) : Prop where
  drvdata : d.drvdata = true
  core : d.core = true
  txSelf : d.txSelf = true
  rxSelf : d.rxSelf = true
  pmDev : d.pmDev = true

theorem held_initCommon (h : Held n d) (hcore : d.core = false) (o : Outcome) :
    Held n { d.atbmInitCommon o with core := true, gHwPriv := .live } := by
  have hpriv : Held n { d.alloc .hwPriv with
      core := true, workqueue := false, cmdBuf := false, pmDev := false, xmitBuff := false,
      vif := false } :=
    h.acquire .hwPriv rfl (by intro q hq; cases q <;> simp_all [Drv.owned, Drv.alloc, Drv.allocIf])
      hcore rfl
  have hqueue : Held n { (d.alloc .hwPriv).allocIf o.workqueue .workqueue with
      core := true, workqueue := o.workqueue, cmdBuf := false, pmDev := false, xmitBuff := false,
      vif := false } :=
    hpriv.acquire .workqueue rfl (by intro q hq; cases q <;> first | rfl | exact absurd rfl hq)
      rfl rfl
  exact hqueue.acquire .cmdBuf rfl (by intro q hq; cases q <;> first | rfl | exact absurd rfl hq)
    rfl rfl

theorem held_pmInit (h : Held n d) (hcore : d.core = true) (hpm : d.pmDev = false) :
    Held n (d.atbmPmInit .ok).2 := by
  intro r
  have hr := h r
  cases r <;> simp_all [Drv.atbmPmInit, Drv.alloc, Drv.allocIf, Drv.owned]

theorem held_pmDeinit (h : Held n d) (hcore : d.core = true) (hpm : d.pmDev = true) :
    Held n d.atbmPmDeinit := by
  intro r
  have hr := h r
  cases r <;> simp_all [Drv.atbmPmDeinit, Drv.free, Drv.freeIf, Drv.owned]

theorem held_wsmBufDeinit (h : Held n d) (hcore : d.core = true) : Held n d.wsmBufDeinit :=
  h.release .cmdBuf rfl (by intro q hq; cases q <;> first | rfl | exact absurd rfl hq)
    (by rw [Drv.owned, hcore, Bool.true_and]) (Bool.and_false _)

theorem held_xmitInit (h : Held n d) (hdata : d.drvdata = true) (hcore : d.core = true)
    (htx : d.tx = false) (hbuff : d.xmitBuff = false) (o : Outcome) :
    Held n (d.atbmSdioXmitInit o).2 := by
  have hthread : Held n { d.allocIf o.tx .txThread with txSelf := true, tx := o.tx } :=
    h.acquire .txThread rfl (by intro q hq; cases q <;> first | rfl | exact absurd rfl hq)
      (by rw [Drv.owned, htx, Bool.and_false]) (by rw [Drv.owned]; exact congrArg (· && _) hdata)
  unfold Drv.atbmSdioXmitInit
  dsimp only
  split_ifs with ho
  · exact hthread.acquire .xmitBuff rfl
      (by intro q hq; cases q <;> first | rfl | exact absurd rfl hq)
      (by simp [Drv.owned, Drv.allocIf, hbuff]) (by simp [Drv.owned, Drv.allocIf, hcore])
  · exact hthread

theorem held_revInit (h : Held n d) (hdata : d.drvdata = true) (hrx : d.rx = false) (o : Outcome) :
    Held n (d.atbmSdioRevInit o).2 :=
  h.acquire .rxThread rfl (by intro q hq; cases q <;> first | rfl | exact absurd rfl hq)
    (by rw [Drv.owned, hrx, Bool.and_false]) (by rw [Drv.owned]; exact congrArg (· && _) hdata)

/-- The state after `atbm_sdio_xmit_deinit`. -/
def Drv.xmitDown (d : Drv) : Drv :=
  { (d.freeIf d.tx .txThread).freeIf d.xmitBuff .xmitBuff with
    tx := false, initCnt := d.initCnt + d.tx.toNat, xmitBuff := false }

/-- The state after `atbm_sdio_rev_deinit`. -/
def Drv.revDown (d : Drv) : Drv :=
  { d.freeIf d.rx .rxThread with rx := false, initCnt := d.initCnt + d.rx.toNat }

theorem xmitDeinit_eq (h : d.txSelf = true) : d.atbmSdioXmitDeinit = .ok d.xmitDown := by
  unfold Drv.atbmSdioXmitDeinit Drv.xmitDown
  rw [if_neg (not_not_intro h)]
  cases d.tx <;> rfl

theorem revDeinit_eq (h : d.rxSelf = true) : d.atbmSdioRevDeinit = .ok d.revDown := by
  unfold Drv.atbmSdioRevDeinit Drv.revDown
  rw [if_neg (not_not_intro h)]
  cases d.rx <;> rfl

theorem held_xmitDown (h : Held n d) (hdata : d.drvdata = true) (hcore : d.core = true) :
    Held n d.xmitDown := by
  have hthread : Held n { d.freeIf d.tx .txThread with tx := false } :=
    h.release .txThread rfl (by intro q hq; cases q <;> first | rfl | exact absurd rfl hq)
      (by rw [Drv.owned, hdata, Bool.true_and]) (Bool.and_false _)
  exact hthread.release .xmitBuff rfl
    (by intro q hq; cases q <;> first | rfl | exact absurd rfl hq)
    (by simp [Drv.owned, Drv.freeIf, hcore]) (Bool.and_false _)

theorem held_revDown (h : Held n d) (hdata : d.drvdata = true) : Held n d.revDown :=
  h.release .rxThread rfl (by intro q hq; cases q <;> first | rfl | exact absurd rfl hq)
    (by rw [Drv.owned, hdata, Bool.true_and]) (Bool.and_false _)

/-- The state after `atbm_sdio_irq_unsubscribe`, with a handler. -/
def Drv.irqDown (d : Drv) : Drv := { d.freeIf d.irq .irq with irqHandler := false, irq := false }

theorem irqUnsubscribe_eq (h : d.irqHandler = true) : d.atbmSdioIrqUnsubscribe = d.irqDown :=
  if_neg (not_not_intro h)

theorem held_irqDown (h : Held n d) (hdata : d.drvdata = true) : Held n d.irqDown :=
  h.release .irq rfl (by intro q hq; cases q <;> first | rfl | exact absurd rfl hq)
    (by rw [Drv.owned, hdata, Bool.true_and]) (Bool.and_false _)

theorem held_irqSubscribe (h : Held n d) (hdata : d.drvdata = true) (hirq : d.irq = false)
    (irq : Bool) : Held n (d.atbmSdioIrqSubscribe irq) :=
  h.acquire .irq rfl (by intro q hq; cases q <;> first | rfl | exact absurd rfl hq)
    (by rw [Drv.owned, hirq, Bool.and_false]) (by rw [Drv.owned]; exact congrArg (· && _) hdata)

/-! ### A probe that fails -/

/-- No card: there is nothing that the driver owns. -/
structure Off (n m k : ℕ) (d : Drv) : Prop where
  held : Held n d
  owned : ∀ r, d.owned r = false
  drvdata : d.drvdata = false
  gHwPriv : d.gHwPriv ≠ .live
  initCnt : d.initCnt = k
  staleWrites : d.staleWrites = m

/-- No card any more. -/
structure Left (n m k : ℕ) (d : Drv) : Prop extends Off n m k d where
  freed : d.gHwPriv = .freed

/-- A card in the middle of its probe: threads that were not created do not count. -/
structure Mid (n m k : ℕ) (d : Drv) : Prop where
  held : Held n d
  alive : Alive d
  vif : d.vif = false
  irqHandler : d.irqHandler = false
  irq : d.irq = false
  initCnt : d.initCnt = k
  staleWrites : d.staleWrites = m

variable {m k : ℕ}

theorem held_freeCommon (h : Held n d) (hcore : d.core = true) (hbuf : d.cmdBuf = false)
    (hpm : d.pmDev = false) (hxmit : d.xmitBuff = false) (hvif : d.vif = false) (s : ℕ) :
    Held (n + d.workqueue.toNat)
      { d.atbmFreeCommon with core := false, staleWrites := s } := by
  intro r
  have hr := h r
  cases r <;> simp_all [Drv.atbmFreeCommon, Drv.free, Drv.freeIf, Drv.owned]
  omega

/-- The state after `err1`. -/
def Drv.failed (d : Drv) : Drv :=
  { d.xmitDown.revDown.wsmBufDeinit.atbmPmDeinit.atbmFreeCommon with
    core := false, staleWrites := d.staleWrites + 1 }

theorem err1_eq (htx : d.txSelf = true) (hrx : d.rxSelf = true) : d.err1 = .ok d.failed := by
  unfold Drv.err1
  rw [xmitDeinit_eq htx]
  show (d.xmitDown.atbmSdioRevDeinit >>= _) = _
  rw [revDeinit_eq (show d.xmitDown.rxSelf = true from hrx)]
  rfl

/-- `sbus_priv` is freed. -/
def Drv.gone (d : Drv) : Drv := { d.free .sbusPriv with drvdata := false }

theorem held_gone (h : Held n d) (hdata : d.drvdata = true) (htx : d.tx = false)
    (hrx : d.rx = false) (hirq : d.irq = false) : Held n d.gone :=
  h.release .sbusPriv rfl
    (by intro q hq; cases q <;> simp_all [Drv.owned, Drv.gone, Drv.free, Drv.freeIf]) hdata rfl

/-- **A probe that fails** leaves its workqueue. -/
theorem off_failed (h : Mid n m k d) :
    Left (n + d.workqueue.toNat) (m + 1) (k + d.tx.toNat + d.rx.toNat) d.failed.gone := by
  have hx := held_xmitDown h.held h.alive.drvdata h.alive.core
  have hr := held_revDown hx h.alive.drvdata
  have hb := held_wsmBufDeinit hr h.alive.core
  have hp := held_pmDeinit hb h.alive.core h.alive.pmDev
  have hf : Held (n + d.workqueue.toNat) d.failed :=
    held_freeCommon hp h.alive.core rfl rfl rfl h.vif _
  refine ⟨⟨held_gone hf h.alive.drvdata rfl rfl h.irq, ?_, rfl, nofun, ?_, ?_⟩, rfl⟩
  · intro r
    cases r <;> rfl
  · show d.initCnt + d.tx.toNat + d.rx.toNat = _
    rw [h.initCnt]
  · show d.staleWrites + 1 = m + 1
    rw [h.staleWrites]

/-! ### A probe that succeeds -/

/-- A card that is up. -/
structure On (n m k : ℕ) (d : Drv) : Prop where
  held : Held n d
  alive : Alive d
  irqHandler : d.irqHandler = true
  tx : d.tx = true
  rx : d.rx = true
  xmitBuff : d.xmitBuff = true
  vif : d.vif = true
  gHwPriv : d.gHwPriv = .live
  initCnt : d.initCnt = k
  staleWrites : d.staleWrites = m

/-- The firmware comes up. -/
def ready : List Boot → Bool
  | [] => false
  | b :: boots => b.load && (b.ready || ready boots)

/-- The firmware comes up or cannot be loaded, some time. -/
def ends : List Boot → Bool
  | [] => false
  | b :: boots => !b.load || b.ready || ends boots

/-- The state in which `atbm_core_probe` asks for the network device. -/
structure Booted (n m k : ℕ) (d : Drv) : Prop where
  held : Held n d
  alive : Alive d
  irqHandler : d.irqHandler = true
  vif : d.vif = false
  initCnt : d.initCnt = k
  staleWrites : d.staleWrites = m

theorem Mid.irqSubscribe (h : Mid n m k d) (irq : Bool) :
    Booted n m k (d.atbmSdioIrqSubscribe irq) :=
  ⟨held_irqSubscribe h.held h.alive.drvdata h.irq irq,
    ⟨h.alive.drvdata, h.alive.core, h.alive.txSelf, h.alive.rxSelf, h.alive.pmDev⟩,
    rfl, h.vif, h.initCnt, h.staleWrites⟩

theorem Mid.irqAgain (h : Mid n m k d) (irq : Bool) :
    Mid n m k (d.atbmSdioIrqSubscribe irq).atbmSdioIrqUnsubscribe := by
  have hs := h.irqSubscribe irq
  rw [irqUnsubscribe_eq hs.irqHandler]
  exact ⟨held_irqDown hs.held hs.alive.drvdata,
    ⟨h.alive.drvdata, h.alive.core, h.alive.txSelf, h.alive.rxSelf, h.alive.pmDev⟩, h.vif, rfl, rfl, h.initCnt, h.staleWrites⟩

/-- Both threads run. -/
structure Running (d : Drv) : Prop where
  tx : d.tx = true
  rx : d.rx = true
  xmitBuff : d.xmitBuff = true
  gHwPriv : d.gHwPriv = .live

/-- **From `reload_fw` on**: the firmware comes up, or cannot be loaded, or neither, for ever. -/
theorem reloadFw_spec (h : Mid n m k d) (hrun : Running d) (netdev : Bool) (boots : List Boot) :
    (ends boots = false → d.reloadFw netdev boots = .error .hang) ∧
      (ends boots = true → ready boots = false →
        ∃ e, d.reloadFw netdev boots = .ok (false, e) ∧
          Left (n + d.workqueue.toNat) (m + 1) (k + 2) e.gone) ∧
      (ready boots = true → ∃ e, Booted n m k e ∧ Running e ∧ e.workqueue = d.workqueue ∧
        d.reloadFw netdev boots =
        .ok (netdev, { e.allocIf netdev .netdev with vif := netdev, hwNetCfgOk := true })) := by
  induction boots generalizing d with
  | nil => exact ⟨fun _ => rfl, nofun, nofun⟩
  | cons b boots ih =>
    unfold Drv.reloadFw ends ready
    cases hload : b.load with
    | false =>
      refine ⟨nofun, fun _ _ => ?_, nofun⟩
      have hoff := off_failed h
      rw [hrun.tx, hrun.rx] at hoff
      rw [if_pos Bool.false_ne_true, err1_eq h.alive.txSelf h.alive.rxSelf]
      exact ⟨_, rfl, hoff⟩
    | true =>
      rw [if_neg (not_not_intro rfl)]
      cases hready : b.ready with
      | false =>
        have hagain := ih (h.irqAgain b.irq) ⟨hrun.tx, hrun.rx, hrun.xmitBuff, hrun.gHwPriv⟩
        have hsame :
            (d.atbmSdioIrqSubscribe b.irq).atbmSdioIrqUnsubscribe.workqueue = d.workqueue := rfl
        rw [hsame] at hagain
        simpa using hagain
      | true =>
        refine ⟨nofun, nofun, fun _ => ⟨_, h.irqSubscribe b.irq, ?_, rfl, rfl⟩⟩
        exact ⟨hrun.tx, hrun.rx, hrun.xmitBuff, hrun.gHwPriv⟩

theorem Booted.on (h : Booted n m k d) (hrun : Running d) :
    On n m k { d.allocIf true .netdev with vif := true, hwNetCfgOk := true } := by
  refine ⟨?_, ⟨h.alive.drvdata, h.alive.core, h.alive.txSelf, h.alive.rxSelf,
    h.alive.pmDev⟩, h.irqHandler, hrun.tx, hrun.rx, hrun.xmitBuff, rfl, hrun.gHwPriv, h.initCnt,
    h.staleWrites⟩
  exact @Held.acquire d _ n h.held .netdev true rfl
    (by intro q hq; cases q <;> first | rfl | exact absurd rfl hq)
    (by rw [Drv.owned, h.vif, Bool.and_false]) ((Bool.and_true _).trans h.alive.core)

theorem xmitInit_eq (hbuff : d.xmitBuff = false) (o : Outcome) : d.atbmSdioXmitInit o =
    (o.tx && o.xmitBuff, { (d.allocIf o.tx .txThread).allocIf (o.tx && o.xmitBuff) .xmitBuff with
      txSelf := true, tx := o.tx, xmitBuff := o.tx && o.xmitBuff }) := by
  unfold Drv.atbmSdioXmitInit
  cases htx : o.tx with
  | true => rfl
  | false =>
    have hd : d = { d with xmitBuff := false } := by rw [← hbuff]
    exact congrArg (fun c : Drv => (false, { c with txSelf := true, tx := false })) hd

/-- `sbus_priv` as `atbm_core_probe` gets it. -/
structure Fresh (n m k : ℕ) (d : Drv) : Prop where
  held : Held n d
  drvdata : d.drvdata = true
  core : d.core = false
  tx : d.tx = false
  rx : d.rx = false
  txSelf : d.txSelf = false
  irqHandler : d.irqHandler = false
  irq : d.irq = false
  gHwPriv : d.gHwPriv ≠ .live
  initCnt : d.initCnt = k
  staleWrites : d.staleWrites = m

/-- The state in which the threads have been tried. -/
def Drv.tried (d : Drv) (o : Outcome) : Drv :=
  ((({ d.atbmInitCommon o with core := true, gHwPriv := .live : Drv }.atbmPmInit
    .ok).2.atbmSdioXmitInit o).2.atbmSdioRevInit o).2

theorem Fresh.tried (h : Fresh n m k d) (o : Outcome) :
    Mid n m k (d.tried o) ∧ (d.tried o).workqueue = o.workqueue ∧ (d.tried o).tx = o.tx ∧
      (d.tried o).rx = o.rx ∧ (d.tried o).xmitBuff = (o.tx && o.xmitBuff) ∧ (d.tried o).gHwPriv = .live := by
  have hinit := held_initCommon h.held h.core o
  have hpm := held_pmInit hinit rfl rfl
  have hxmit := held_xmitInit hpm h.drvdata rfl h.tx rfl o
  unfold Drv.tried
  rw [xmitInit_eq rfl] at hxmit ⊢
  have hrev := held_revInit hxmit h.drvdata h.rx o
  exact ⟨⟨hrev, ⟨h.drvdata, rfl, rfl, rfl, rfl⟩, rfl, h.irqHandler, h.irq, h.initCnt,
    h.staleWrites⟩, rfl, rfl, rfl, rfl, rfl⟩

/-- The firmware is asked for the network device. -/
def Outcome.up (o : Outcome) : Bool := o.tx && o.xmitBuff && o.rx && ready o.boots

/-- The loop over the firmware comes to its end. -/
def Outcome.ends (o : Outcome) : Bool := !(o.tx && o.xmitBuff && o.rx) || Probe.ends o.boots

theorem coreProbe_ok (o : Outcome) (hcore : o.core = true) (hpm : o.pm = .ok) :
    d.atbmCoreProbe o =
      if o.tx && o.xmitBuff && o.rx then (d.tried o).reloadFw o.netdev o.boots
      else (d.tried o).err1 >>= fun e => pure (false, e) := by
  unfold Drv.atbmCoreProbe Drv.tried
  rw [if_neg (not_not_intro hcore), hpm]
  dsimp only [Drv.atbmPmInit]
  rw [xmitInit_eq rfl]
  rfl

theorem coreProbe_oops (htx : d.txSelf = false) (o : Outcome) (hcore : o.core = true)
    (hpm : o.pm ≠ .ok) : d.atbmCoreProbe o = .error .oops := by
  have herr (e : Drv) (he : e.txSelf = false) :
      (e.err1 >>= fun e => pure (false, e) : Except Stop (Bool × Drv)) = .error .oops := by
    unfold Drv.err1 Drv.atbmSdioXmitDeinit
    rw [if_pos (by rw [he]; exact Bool.false_ne_true)]
    rfl
  unfold Drv.atbmCoreProbe
  rw [if_neg (not_not_intro hcore)]
  cases h : o.pm with
  | ok => exact absurd h hpm
  | registerFails => exact herr _ htx
  | allocFails => exact herr _ htx
  | addFails => exact herr _ htx

/-! ### `atbm_sdio_probe` -/

/-- `sbus_priv` is allocated. -/
def Drv.fresh (d : Drv) : Drv :=
  { d.alloc .sbusPriv with
    drvdata := true, core := false, txSelf := false, rxSelf := false, tx := false, rx := false,
    irqHandler := false, irq := false }

theorem Off.fresh (h : Off n m k d) : Fresh n m k d.fresh := by
  have hcore : d.core = false := h.owned .hwPriv
  refine ⟨h.held.acquire .sbusPriv rfl ?_ (h.owned .sbusPriv) rfl, rfl, rfl, rfl, rfl, rfl, rfl,
    rfl, h.gHwPriv, h.initCnt, h.staleWrites⟩
  intro q hq
  rw [h.owned q]
  cases q <;> first | rfl | exact absurd rfl hq

theorem sdioProbe_eq (o : Outcome) (hsbus : o.sbus = true) : d.atbmSdioProbe o =
    d.fresh.atbmCoreProbe o >>= fun x =>
      if x.1 then pure (true, x.2) else pure (false, x.2.gone) := by
  unfold Drv.atbmSdioProbe
  rw [if_neg (not_not_intro hsbus)]
  rfl

theorem sdioProbe_core (h : Off n m k d) (o : Outcome) (hsbus : o.sbus = true)
    (hcore : o.core = false) :
    ∃ e, d.atbmSdioProbe o = .ok (false, e) ∧ Off n m k e ∧ e.gHwPriv = d.gHwPriv := by
  have hf := h.fresh
  refine ⟨{ d.fresh with core := false }.gone, ?_, ?_⟩
  · rw [sdioProbe_eq o hsbus]
    unfold Drv.atbmCoreProbe
    rw [if_pos (by rw [hcore]; exact Bool.false_ne_true)]
    rfl
  · refine ⟨⟨held_gone hf.held rfl rfl rfl rfl, ?_, rfl, hf.gHwPriv, hf.initCnt, hf.staleWrites⟩,
      rfl⟩
    intro r
    cases r <;> rfl

/-- **A probe** of a card, up to the PM device. -/
theorem sdioProbe_spec (h : Off n m k d) (o : Outcome) (hsbus : o.sbus = true)
    (hcore : o.core = true) (hpm : o.pm = .ok) :
    (o.ends = false → d.atbmSdioProbe o = .error .hang) ∧
      (o.ends = true → o.up = false → ∃ e, d.atbmSdioProbe o = .ok (false, e) ∧
        Left (n + o.workqueue.toNat) (m + 1) (k + o.tx.toNat + o.rx.toNat) e) ∧
      (o.up = true → ∃ e, Booted n m k e ∧ Running e ∧ e.workqueue = o.workqueue ∧
        d.atbmSdioProbe o =
        if o.netdev then
          .ok (true, { e.allocIf true .netdev with vif := true, hwNetCfgOk := true })
        else .ok (false, { e with vif := false, hwNetCfgOk := true }.gone)) := by
  obtain ⟨hmid, hqueue, htx, hrx, hxmit, hptr⟩ := h.fresh.tried o
  rw [sdioProbe_eq o hsbus, coreProbe_ok o hcore hpm]
  unfold Outcome.ends Outcome.up
  by_cases ht : (o.tx && o.xmitBuff && o.rx) = true
  · have hrun : Running (d.fresh.tried o) := by
      simp only [Bool.and_eq_true] at ht
      refine ⟨htx.trans ht.1.1, hrx.trans ht.2, hxmit.trans ?_, hptr⟩
      rw [ht.1.1, ht.1.2]
      rfl
    obtain ⟨hhang, hfail, hup⟩ := reloadFw_spec hmid hrun o.netdev o.boots
    rw [if_pos ht, ht]
    simp only [Bool.not_true, Bool.false_or, Bool.true_and]
    refine ⟨fun he => ?_, fun he hr => ?_, fun hr => ?_⟩
    · rw [hhang he]
      rfl
    · obtain ⟨e, heq, hoff⟩ := hfail he hr
      simp only [Bool.and_eq_true] at ht
      rw [heq, ht.1.1, ht.2, ← hqueue]
      exact ⟨_, rfl, hoff⟩
    · obtain ⟨e, hbooted, hrunning, heq', heq⟩ := hup hr
      refine ⟨e, hbooted, hrunning, heq'.trans hqueue, ?_⟩
      rw [heq]
      cases o.netdev <;> rfl
  · have hoff := off_failed hmid
    rw [htx, hrx, hqueue] at hoff
    rw [if_neg ht, eq_false_of_ne_true ht, err1_eq hmid.alive.txSelf hmid.alive.rxSelf]
    exact ⟨nofun, fun _ _ => ⟨_, rfl, hoff⟩, nofun⟩

/-! ### `atbm_sdio_disconnect` -/

/-- The network device is unregistered. -/
def Drv.netDown (d : Drv) : Drv := { d.freeIf d.vif .netdev with vif := false }

/-- The workqueue is destroyed. -/
def Drv.queueDown (d : Drv) : Drv := { d.free .workqueue with workqueue := false }

/-- The state after `atbm_unregister_common`. -/
def Drv.unregistered (d : Drv) : Drv :=
  d.netDown.irqDown.xmitDown.revDown.queueDown.wsmBufDeinit.atbmPmDeinit

/-- The state after `atbm_sdio_disconnect`. -/
def Drv.disconnected (d : Drv) : Drv :=
  { d.unregistered.atbmFreeCommon with core := false, hwNetCfgOk := false : Drv }.gone

theorem disconnect_eq (h : Alive d) (hirq : d.irqHandler = true) (hqueue : d.workqueue = true) :
    d.atbmSdioDisconnect = .ok d.disconnected := by
  have hunregister : d.atbmUnregisterCommon = .ok d.unregistered := by
    unfold Drv.atbmUnregisterCommon
    show (d.netDown.atbmSdioIrqUnsubscribe.atbmSdioXmitDeinit >>= _) = _
    rw [irqUnsubscribe_eq (show d.netDown.irqHandler = true from hirq),
      xmitDeinit_eq (show d.netDown.irqDown.txSelf = true from h.txSelf)]
    show (d.netDown.irqDown.xmitDown.atbmSdioRevDeinit >>= _) = _
    rw [revDeinit_eq (show d.netDown.irqDown.xmitDown.rxSelf = true from h.rxSelf)]
    show (if ¬ d.workqueue = true then _ else _) = _
    rw [if_neg (not_not_intro hqueue)]
    rfl
  unfold Drv.atbmSdioDisconnect Drv.atbmCoreRelease
  rw [if_neg (not_not_intro h.drvdata), if_pos h.core, hunregister]
  rfl

/-- **A card that is disconnected** leaves nothing. -/
theorem off_disconnected (h : On n m k d) (hqueue : d.workqueue = true) :
    Left n m (k + 2) d.disconnected := by
  have hnet : Held n d.netDown :=
    h.held.release .netdev rfl (by intro q hq; cases q <;> first | rfl | exact absurd rfl hq)
      (by rw [Drv.owned, h.alive.core, Bool.true_and]) (Bool.and_false _)
  have hirq := held_irqDown hnet h.alive.drvdata
  have hx := held_xmitDown hirq h.alive.drvdata h.alive.core
  have hr := held_revDown hx h.alive.drvdata
  have hq : Held n d.netDown.irqDown.xmitDown.revDown.queueDown :=
    hr.release (b := true) .workqueue rfl
      (by intro q hq; cases q <;> first | rfl | exact absurd rfl hq)
      (Bool.and_eq_true_iff.mpr ⟨h.alive.core, hqueue⟩) (Bool.and_false _)
  have hb := held_wsmBufDeinit hq h.alive.core
  have hp : Held n d.unregistered := held_pmDeinit hb h.alive.core h.alive.pmDev
  have hfree : Held n
      { d.unregistered.atbmFreeCommon with core := false, hwNetCfgOk := false } := by
    refine hp.release (b := true) .hwPriv rfl ?_ h.alive.core rfl
    intro q hq
    cases q <;> first | rfl | exact absurd rfl hq | exact (Bool.and_false _).symm
  refine ⟨⟨held_gone hfree h.alive.drvdata rfl rfl rfl, ?_, rfl, nofun, ?_, h.staleWrites⟩, rfl⟩
  · intro r
    cases r <;> rfl
  · show d.initCnt + d.tx.toNat + d.rx.toNat = k + 2
    rw [h.tx, h.rx, h.initCnt]
    rfl

/-! ### Probes that keep the balance -/

/-- The PM device is there, and the network device when it is asked for. -/
def Outcome.Sound (o : Outcome) : Prop :=
  o.sbus = true → o.core = true →
    o.pm = .ok ∧ o.ends = true ∧ (o.up = true → o.netdev = true)

instance (o : Outcome) : Decidable o.Sound := inferInstanceAs (Decidable (_ → _ → _))

theorem sdioProbe_sound (h : Off n m k d) {o : Outcome} (ho : o.Sound) :
    ∃ ok e, d.atbmSdioProbe o = .ok (ok, e) ∧
      if o.sbus && o.core && o.up then ok = true ∧ On n m k e ∧ e.workqueue = o.workqueue
      else if o.sbus && o.core then
        ok = false ∧ Left (n + o.workqueue.toNat) (m + 1) (k + o.tx.toNat + o.rx.toNat) e
      else ok = false ∧ Off n m k e ∧ e.gHwPriv = d.gHwPriv := by
  cases hsbus : o.sbus with
  | false =>
    refine ⟨false, d, ?_, rfl, h, rfl⟩
    unfold Drv.atbmSdioProbe
    rw [if_pos (by rw [hsbus]; exact Bool.false_ne_true)]
    rfl
  | true =>
    cases hcore : o.core with
    | false =>
      obtain ⟨e, heq, hoff⟩ := sdioProbe_core h o hsbus hcore
      exact ⟨false, e, heq, rfl, hoff⟩
    | true =>
      obtain ⟨hpm, hends, hnet⟩ := ho hsbus hcore
      obtain ⟨-, hfail, hup⟩ := sdioProbe_spec h o hsbus hcore hpm
      cases hu : o.up with
      | false =>
        obtain ⟨e, heq, hoff⟩ := hfail hends hu
        exact ⟨false, e, heq, rfl, hoff⟩
      | true =>
        obtain ⟨e, hbooted, hrun, hqueue, heq⟩ := hup hu
        rw [if_pos (hnet hu)] at heq
        exact ⟨true, _, heq, rfl, hbooted.on hrun, hqueue⟩

theorem sdioProbe_held_iff (h : Off n m k d) (o : Outcome) :
    (∃ ok e w, d.atbmSdioProbe o = .ok (ok, e) ∧ Held w e) ↔ o.Sound := by
  constructor
  · rintro ⟨ok, e, w, heq, hheld⟩ hsbus hcore
    by_cases hpm : o.pm = .ok
    · obtain ⟨hhang, -, hup⟩ := sdioProbe_spec h o hsbus hcore hpm
      refine ⟨hpm, ?_, fun hu => ?_⟩
      · by_contra hends
        rw [hhang (eq_false_of_ne_true hends)] at heq
        cases heq
      · by_contra hnet
        obtain ⟨c, hbooted, hrun, -, hprobe⟩ := hup hu
        rw [if_neg hnet, heq] at hprobe
        cases hprobe
        -- the thread runs, and what it belongs to is freed
        have htx := hheld .txThread
        have hbefore := hbooted.held .txThread
        simp only [Drv.owned, hbooted.alive.drvdata, hrun.tx] at hbefore
        simp [Drv.owned, Drv.gone, Drv.free, Drv.freeIf, hbefore] at htx
    · rw [sdioProbe_eq o hsbus, coreProbe_oops rfl o hcore hpm] at heq
      cases heq
  · intro ho
    obtain ⟨ok, e, heq, hend⟩ := sdioProbe_sound h ho
    split_ifs at hend
    · exact ⟨ok, e, _, heq, hend.2.1.held⟩
    · exact ⟨ok, e, _, heq, hend.2.held⟩
    · exact ⟨ok, e, _, heq, hend.2.1.held⟩

/-! ### Runs -/

/-- A probe that is sound, with a workqueue for a card that is to be disconnected. -/
def Act.Sound : Act → Prop
  | .probe o => o.Sound ∧ (o.up = true → o.workqueue = true)
  | .disconnect => True

instance (a : Act) : Decidable a.Sound :=
  match a with
  | .probe o => inferInstanceAs (Decidable (o.Sound ∧ _))
  | .disconnect => .isTrue trivial

/-- `hw_priv` is allocated. -/
def Act.tried : Act → Bool
  | .probe o => o.sbus && o.core
  | .disconnect => false

/-- The probe fails with `hw_priv` allocated. -/
def Act.failed : Act → Bool
  | .probe o => o.sbus && o.core && !o.up
  | .disconnect => false

/-- It does so with a workqueue. -/
def Act.leaks : Act → Bool
  | .probe o => o.sbus && o.core && !o.up && o.workqueue
  | .disconnect => false

/-- The threads that a probe creates. -/
def Act.threads : Act → ℕ
  | .probe o => if o.sbus && o.core then o.tx.toNat + o.rx.toNat else 0
  | .disconnect => 0

def leaked (as : List Act) : ℕ := as.countP Act.leaks

def failed (as : List Act) : ℕ := as.countP Act.failed

def threads (as : List Act) : ℕ := (as.map Act.threads).sum

/-- Between two steps; `c` is whether `hw_priv` has been allocated, and `t` is how many threads have
been created. -/
def Settled (n m t : ℕ) (c : Bool) (d : Drv) : Prop :=
  Off n m t d ∧ d.gHwPriv = (if c then .freed else .null) ∨
    ∃ k, On n m k d ∧ d.workqueue = true ∧ t = k + 2 ∧ c = true

theorem up_threads {o : Outcome} (h : o.up = true) : o.tx = true ∧ o.rx = true := by
  simp only [Outcome.up, Bool.and_eq_true] at h
  exact ⟨h.1.1.1, h.1.2⟩

theorem step_probe (o : Outcome) (h : d.drvdata = false) :
    d.step (.probe o) = (d.atbmSdioProbe o).toOption.map Prod.snd :=
  if_neg (by rw [h]; exact Bool.false_ne_true)

theorem step_disconnect (h : d.drvdata = true) :
    d.step .disconnect = d.atbmSdioDisconnect.toOption :=
  if_pos h

variable {t : ℕ} {c : Bool}

theorem settled_step (h : Settled n m t c d) {a : Act} (ha : a.Sound) (hs : d.step a = some e) :
    Settled (n + a.leaks.toNat) (m + a.failed.toNat) (t + a.threads) (c || a.tried) e := by
  cases a with
  | probe o =>
    rcases h with ⟨hoff, hptr⟩ | ⟨k, hon, -⟩
    · obtain ⟨ok, f, heq, hend⟩ := sdioProbe_sound hoff ha.1
      rw [step_probe o hoff.drvdata, heq] at hs
      obtain rfl : f = e := Option.some.inj hs
      simp only [Act.leaks, Act.failed, Act.threads, Act.tried]
      split_ifs at hend with hup htried
      · simp only [Bool.and_eq_true] at hup
        obtain ⟨htx, hrx⟩ := up_threads hup.2
        refine Or.inr ⟨t, ?_, hend.2.2.trans (ha.2 hup.2), ?_, ?_⟩
        · rw [hup.2]
          simpa using hend.2.1
        · rw [hup.1.1, hup.1.2, htx, hrx]
          rfl
        · rw [hup.1.1, hup.1.2]
          exact Bool.or_true c
      · have hdown : o.up = false := by
          rw [htried, Bool.true_and] at hup
          exact eq_false_of_ne_true hup
        refine Or.inl ⟨?_, ?_⟩
        · rw [htried, hdown]
          simpa [Nat.add_assoc] using hend.2.toOff
        · rw [htried, Bool.or_true, if_pos rfl]
          exact hend.2.freed
      · refine Or.inl ⟨?_, ?_⟩
        · rw [eq_false_of_ne_true htried]
          exact hend.2.1
        · rw [eq_false_of_ne_true htried, Bool.or_false]
          exact hend.2.2.trans hptr
    · have hnone : d.step (.probe o) = none := if_pos hon.alive.drvdata
      rw [hnone] at hs
      cases hs
  | disconnect =>
    rcases h with ⟨hoff, -⟩ | ⟨k, hon, hqueue, rfl, rfl⟩
    · have hnone : d.step .disconnect = none :=
        if_neg (by rw [hoff.drvdata]; exact Bool.false_ne_true)
      rw [hnone] at hs
      cases hs
    · rw [step_disconnect hon.alive.drvdata, disconnect_eq hon.alive hon.irqHandler hqueue] at hs
      obtain rfl := Option.some.inj hs
      have hleft := off_disconnected hon hqueue
      exact Or.inl ⟨hleft.toOff, hleft.freed⟩

theorem settled_exec {as : List Act} (h : Settled n m t c d) (hs : ∀ a ∈ as, a.Sound)
    (he : exec system d as = some e) :
    Settled (n + leaked as) (m + failed as) (t + threads as) (c || as.any Act.tried) e := by
  induction as generalizing d n m t c with
  | nil =>
    obtain rfl := Option.some.inj he
    simpa [leaked, failed, threads] using h
  | cons a as ih =>
    rw [exec, Option.bind_eq_some_iff] at he
    obtain ⟨f, hf, he⟩ := he
    have hstep := settled_step h (hs a List.mem_cons_self) hf
    have hrest := ih hstep (fun b hb => hs b (List.mem_cons_of_mem _ hb)) he
    have hleaked : leaked (a :: as) = a.leaks.toNat + leaked as := by
      cases hl : a.leaks <;> simp [leaked, hl, Nat.add_comm]
    have hfailed : failed (a :: as) = a.failed.toNat + failed as := by
      cases hl : a.failed <;> simp [failed, hl, Nat.add_comm]
    have hthreads : threads (a :: as) = a.threads + threads as := List.sum_cons
    rw [hleaked, hfailed, hthreads, List.any_cons, ← Nat.add_assoc, ← Nat.add_assoc,
      ← Nat.add_assoc, ← Bool.or_assoc]
    exact hrest

theorem settled_start : Settled 0 0 0 false start := by
  refine Or.inl ⟨⟨?_, ?_, rfl, nofun, rfl, rfl⟩, rfl⟩
  · intro r
    cases r <;> rfl
  · intro r
    cases r <;> rfl

/-- A settled driver without a card. -/
theorem Settled.off (h : Settled n m t c d) (hd : d.drvdata = false) : Off n m t d := by
  rcases h with ⟨hoff, -⟩ | ⟨k, hon, -⟩
  · exact hoff
  · rw [hon.alive.drvdata] at hd
    cases hd

/-- **When a probe keeps the balance**, after any run that has: it comes to its end, and what is
allocated then is owned by the driver but for workqueues, exactly when the PM device is there, the
loop over the firmware ends, and the network device is there when it is asked for. -/
theorem probe_sound_iff {as : List Act} (he : exec system start as = some d)
    (hs : ∀ a ∈ as, a.Sound) (hd : d.drvdata = false) (o : Outcome) :
    (∃ ok e w, d.atbmSdioProbe o = .ok (ok, e) ∧
        ∀ r, e.live r = (e.owned r).toNat + if r = .workqueue then w else 0) ↔ o.Sound :=
  sdioProbe_held_iff ((settled_exec settled_start hs he).off hd) o

/-- **What is held** after any run of sound probes and of disconnects: the driver owns all that a
card needs while there is one, and nothing while there is none; what is allocated is owned, but for
the workqueue of each probe that failed; and `hw_priv` is written after it was freed in each of
these. -/
theorem balanced {as : List Act} (he : exec system start as = some d) (hs : ∀ a ∈ as, a.Sound) :
    (∀ r, d.live r = (d.owned r).toNat + if r = .workqueue then leaked as else 0) ∧
      (∀ r, r ≠ .cmdBuf → r ≠ .irq → d.owned r = d.drvdata) ∧
      (d.drvdata = false → ∀ r, d.owned r = false) ∧ d.staleWrites = failed as := by
  have h := settled_exec settled_start hs he
  simp only [Nat.zero_add, Bool.false_or] at h
  rcases h with ⟨hoff, -⟩ | ⟨k, hon, hqueue, -⟩
  · exact ⟨hoff.held, fun r _ _ => (hoff.owned r).trans hoff.drvdata.symm, fun _ => hoff.owned,
      hoff.staleWrites⟩
  · refine ⟨hon.held, fun r hbuf hirq => ?_, fun hd => ?_, hon.staleWrites⟩
    · have ha := hon.alive
      cases r with
      | cmdBuf => exact absurd rfl hbuf
      | irq => exact absurd rfl hirq
      | sbusPriv => rfl
      | hwPriv => exact ha.core.trans ha.drvdata.symm
      | workqueue => rw [Drv.owned, ha.core, hqueue, ha.drvdata]; rfl
      | pmDriver => rw [Drv.owned, ha.core, ha.pmDev, ha.drvdata]; rfl
      | pmDev => rw [Drv.owned, ha.core, ha.pmDev, ha.drvdata]; rfl
      | txThread => rw [Drv.owned, hon.tx, Bool.and_true]
      | rxThread => rw [Drv.owned, hon.rx, Bool.and_true]
      | xmitBuff => rw [Drv.owned, ha.core, hon.xmitBuff, ha.drvdata]; rfl
      | netdev => rw [Drv.owned, ha.core, hon.vif, ha.drvdata]; rfl
    · rw [hon.alive.drvdata] at hd
      cases hd

/-- **The end of the module** comes exactly when two threads have been created, and then nothing is
left but the workqueues of the probes that failed. -/
theorem module_exit_iff {as : List Act} (he : exec system start as = some d)
    (hs : ∀ a ∈ as, a.Sound) :
    (∃ f, d.apolloSdioModuleExit = .ok f ∧
        ∀ r, f.live r = if r = .workqueue then leaked as else 0) ↔ 2 ≤ threads as := by
  have h := settled_exec settled_start hs he
  simp only [Nat.zero_add, Bool.false_or] at h
  -- the state without a card, and what the completion counts
  have hend : ∃ f, d.atbmSdioDisconnect = .ok f ∧ Off (leaked as) (failed as) (threads as) f := by
    rcases h with ⟨hoff, -⟩ | ⟨k, hon, hqueue, ht, -⟩
    · exact ⟨d, if_pos (by rw [hoff.drvdata]; exact Bool.false_ne_true), hoff⟩
    · refine ⟨_, disconnect_eq hon.alive hon.irqHandler hqueue, ?_⟩
      rw [ht]
      exact (off_disconnected hon hqueue).toOff
  obtain ⟨f, heq, hoff⟩ := hend
  have hexit : d.apolloSdioModuleExit = if threads as < 2 then .error .uninit else .ok f := by
    unfold Drv.apolloSdioModuleExit
    rw [heq, ← hoff.initCnt]
    show (if f.initCnt < 2 then _ else _) = _
    split_ifs <;> rfl
  rw [hexit]
  constructor
  · rintro ⟨g, hg, -⟩
    by_contra hlt
    rw [if_pos (Nat.lt_of_not_le hlt)] at hg
    cases hg
  · intro hle
    refine ⟨f, if_neg (Nat.not_lt_of_le hle), fun r => ?_⟩
    rw [hoff.held r, hoff.owned r]
    exact Nat.zero_add _

/-- **`g_hw_priv` dangles**: opening the device reads freed memory exactly when there is no card,
but one has been probed as far as `hw_priv`. -/
theorem open_readsFreed_iff {as : List Act} (he : exec system start as = some d)
    (hs : ∀ a ∈ as, a.Sound) :
    atbmIoctlOpen d = .readsFreed ↔ d.drvdata = false ∧ as.any Act.tried = true := by
  have h := settled_exec settled_start hs he
  simp only [Nat.zero_add, Bool.false_or] at h
  unfold atbmIoctlOpen
  rcases h with ⟨hoff, hptr⟩ | ⟨k, hon, -⟩
  · rw [hptr]
    cases as.any Act.tried with
    | true => exact iff_of_true rfl ⟨hoff.drvdata, rfl⟩
    | false => exact iff_of_false nofun fun hd => Bool.false_ne_true hd.2
  · rw [hon.gHwPriv]
    refine iff_of_false ?_ fun hd => ?_
    · dsimp only
      split_ifs <;> exact nofun
    · rw [hon.alive.drvdata] at hd
      exact Bool.false_ne_true hd.1.symm

/-- All goes well, at the second attempt of the firmware. -/
def wellOutcome : Outcome :=
  ⟨true, true, true, true, .ok, true, true, true, [⟨true, true, false⟩, ⟨true, true, true⟩], true⟩

/-- A card that fails, one that is up for a while, and none. -/
def threeCards : List Act :=
  [.probe { wellOutcome with rx := false }, .probe wellOutcome, .disconnect]

theorem sound_threeCards : ∀ a ∈ threeCards, a.Sound := by decide

/-- Where the three of them lead: there is no card any more. -/
theorem exec_threeCards : ∃ d, exec system start threeCards = some d ∧ d.drvdata = false := by
  obtain ⟨d, hd⟩ : ∃ d, exec system start threeCards = some d := Option.isSome_iff_exists.mp rfl
  have hmap : (exec system start threeCards).map Drv.drvdata = some false := rfl
  rw [hd] at hmap
  exact ⟨d, hd, Option.some.inj hmap⟩

theorem probe_sound_iff_threeCards : ∃ d, exec system start threeCards = some d ∧
    ¬ ∃ ok e w, d.atbmSdioProbe { wellOutcome with netdev := false } = .ok (ok, e) ∧
      ∀ r, e.live r = (e.owned r).toNat + if r = .workqueue then w else 0 := by
  obtain ⟨d, hd, hnone⟩ := exec_threeCards
  refine ⟨d, hd, ?_⟩
  rw [probe_sound_iff hd sound_threeCards hnone]
  decide

theorem balanced_threeCards : ∃ d, exec system start threeCards = some d ∧
    (∀ r, d.owned r = false) ∧ d.live .workqueue = 1 ∧ d.staleWrites = 1 := by
  obtain ⟨d, hd, hnone⟩ := exec_threeCards
  have h := balanced hd sound_threeCards
  have howned := h.2.2.1 hnone
  refine ⟨d, hd, howned, ?_, h.2.2.2⟩
  have hq := h.1 .workqueue
  rw [howned] at hq
  exact hq

theorem module_exit_iff_threeCards : ∃ d, exec system start threeCards = some d ∧
    ∃ f, d.apolloSdioModuleExit = .ok f ∧ f.live .workqueue = 1 := by
  obtain ⟨d, hd, -⟩ := exec_threeCards
  obtain ⟨f, hf, hlive⟩ := (module_exit_iff hd sound_threeCards).mpr (by decide)
  exact ⟨d, hd, f, hf, hlive .workqueue⟩

theorem open_readsFreed_threeCards : ∃ d, exec system start threeCards = some d ∧
    atbmIoctlOpen d = .readsFreed := by
  obtain ⟨d, hd, hnone⟩ := exec_threeCards
  exact ⟨d, hd, (open_readsFreed_iff hd sound_threeCards).mpr ⟨hnone, by decide⟩⟩

end Atbm6441.Sdio.Probe
