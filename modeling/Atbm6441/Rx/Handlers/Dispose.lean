import Atbm6441.Rx.Handlers.Access

/-!
# What becomes of a received buffer

The handlers of `ieee80211_rx_handlers` with all that they do to the buffer of a frame: each reads
it, and then hands it to the stack, puts it on the queue of the interface, frees it, or leaves it to
the next handler or to `ieee80211_rx_handlers_result`. The last subframe of an A-MSDU lies in the
original buffer: it goes to the stack, and `ieee80211_rx_h_data` frees it afterwards.

* `disposedOnce_of_good` : a chain of handlers each of which keeps to its result disposes of the
  buffer once;
* `disposedOnce_iff` : every received buffer is disposed of exactly once, unless it comes to
  `ieee80211_rx_h_data` as an A-MSDU that is split.
-/

namespace Atbm6441.Rx.Handlers

open Atbm6441.Ieee80211 Atbm6441.Ether Atbm6441.Rx.Replay

/-! ### Uses of a buffer -/

/-- What is done to a buffer; `queueTail` puts it on `vif->skb_queue`, `store` into a slot of the
reorder buffer. -/
inductive Use
  | read (b : Buf)
  | netifRx (b : Buf)
  | queueTail (b : Buf)
  | store (b : Buf)
  | kfree (b : Buf)

namespace Use

def buf : Use → Buf
  | read b | netifRx b | queueTail b | store b | kfree b => b

/-- The buffer of the frame is handed over. -/
def handsOver : Use → Bool
  | read _ => false
  | u => u.buf = .skb

end Use

def Disposal.use : Disposal → Use
  | netifRx b _ => .netifRx b
  | kfree b => .kfree b

/-- **The buffer is disposed of exactly once**, and not used afterwards. -/
def DisposedOnce (uses : List Use) : Prop :=
  ∃ pre u post, uses = pre ++ u :: post ∧ u.handsOver = true ∧ (∀ x ∈ pre, x.handsOver = false) ∧
    ∀ x ∈ post, x.buf ≠ .skb

/-! ### The handlers -/

/-- A call of a handler: its result, what it leaves, and what it does to the buffers. -/
structure Call where
  res : RxResult
  rx : RxData
  uses : List Use

/-- A handler reads the buffer, and then does what it logs. -/
def called (h : RxData → Handled) (rx : RxData) : Option Call :=
  (h { rx with log := [] }).map fun r => ⟨r.1, r.2, .read .skb :: r.2.log.map Disposal.use⟩

/-- The buffer goes on, or back to the caller. -/
def Call.back (res : RxResult) (rx : RxData) : Call := ⟨res, rx, [.read .skb]⟩

/-- The frame is put on the queue of the interface, for `vif->work`. -/
def Call.queue (rx : RxData) : Call := ⟨.queued, rx, [.read .skb, .queueTail .skb]⟩

/-- The size of a block ack action behind the category: `WLAN_ACTION_ADDBA_REQ`,
`WLAN_ACTION_ADDBA_RESP` and `WLAN_ACTION_DELBA`. -/
def backActionSize : ℕ → Option ℕ
  | 0 => some 8
  | 1 => some 8
  | 2 => some 5
  | _ => none

/-- `ieee80211_rx_h_action`; `IEEE80211_MIN_ACTION_SIZE` is 25, `WLAN_CATEGORY_BACK` is 3 and
`WLAN_CATEGORY_PUBLIC` is 4. A malformed frame is left to the next handler. -/
def rxHAction (rx : RxData) : Call :=
  let d := rx.skb.data
  if ¬ ieee80211IsAction (frameControl d) then .back .cont rx
  else if d.length < 25 then .back .dropUnusable rx
  else if rx.sta.isNone ∧ byteAt d 24 ≠ 4 then .back .dropUnusable rx
  else if ¬ rx.skb.raMatch then .back .dropUnusable rx
  else if byteAt d 24 ≠ 3 then ⟨.queued, rx, [.read .skb, .kfree .skb]⟩
  else if rx.vif.type ≠ .station ∧ rx.vif.type ≠ .apVlan ∧ rx.vif.type ≠ .ap then .back .cont rx
  else if d.length < 25 + 1 then .back .cont rx
  else
    match backActionSize (byteAt d 25) with
    | none => .back .cont rx
    | some size => if d.length < 25 + size then .back .cont rx else .queue rx

/-- `is_broadcast_ether_addr` of the first address. -/
def isBroadcastEtherAddr (d : List UInt8) : Bool := etherAddrAt d 4 = List.replicate 6 0xff

/-- `ieee80211_rx_h_mgmt`: beacons, probe requests and responses, authentications and association
responses are queued, and the frames that end an association at a station. -/
def rxHMgmt (rx : RxData) : Call :=
  let d := rx.skb.data
  let stype := frameControl d &&& 0x00f0
  if stype = 0x80 ∨ stype = 0x50 then .queue rx
  else if stype = 0xc0 ∨ stype = 0xa0 then
    if isMulticastEtherAddr d ∧ ¬ isBroadcastEtherAddr d then .back .dropMonitor rx
    else if rx.vif.type ≠ .station then .back .dropMonitor rx
    else .queue rx
  else if stype = 0x40 ∨ stype = 0xb0 ∨ stype = 0x10 then .queue rx
  else .back .dropMonitor rx

/-- The handlers in front of `ieee80211_rx_h_data`. -/
def handlersBefore (env : RxEnv) : List (RxData → Option Call) :=
  [called (rxHDecrypt env), called rxHStaProcess, called rxHMichaelMicVerify,
    called rxHRemoveQosControl]

/-- `CALL_RXH`, one handler after the other. -/
def callRxhs : List (RxData → Option Call) → RxData → Option (RxResult × List Use)
  | [], _ => some (.cont, [])
  | h :: hs, rx =>
    match h rx with
    | none => none
    | some c =>
      if c.res = .cont then (callRxhs hs c.rx).map fun r => (r.1, c.uses ++ r.2)
      else some (c.res, c.uses)

/-- `ieee80211_rx_handlers_result`: what is not queued is freed. -/
def handlersResultUses (r : RxResult × List Use) : List Use :=
  if r.1 = .queued then r.2 else r.2 ++ [.read .skb, .kfree .skb]

/-- What `ieee80211_rx_handlers` does to the buffer of one frame. -/
def rxHandlersUses (env : RxEnv) (vif : Vif) (sta : Option StaInfo) (skb : RxSkb) :
    Option (List Use) :=
  (callRxhs (handlersBefore env ++ [called (rxHData env), fun rx => some (rxHAction rx),
    fun rx => some (rxHMgmt rx)])
    ⟨skb, vif, sta, none, []⟩).map handlersResultUses

/-! ### Arrival -/

/-- What the reorder buffer does with a frame: it hands it on, at once or later; frees it, as a
duplicate, out of date or at the end of the session; or keeps it. -/
inductive Reordered
  | handedOn
  | freed
  | kept

/-- `ieee80211_rx` up to `ieee80211_rx_reorder_ampdu`: what is done to the buffer, and the frame as
it goes to the reorder buffer if it does. -/
def rxHandlePacket (linearize : Bool) (vif : Vif) (sta : Option StaInfo) (skb : RxSkb) :
    List Use × Option RxSkb :=
  let fc := frameControl skb.data
  if ieee80211IsMgmt fc ∧ ¬ linearize ∨
      ¬ ieee80211IsMgmt fc ∧ skb.data.length < ieee80211Hdrlen fc then
    ([.read .skb, .kfree .skb], none)
  else
    let r := ieee80211ParseQos skb
    match prepareForHandlers vif { r.1 with raMatch := true } with
    | none => ([.read .skb, .kfree .skb], none)
    | some skb =>
      match ieee80211RxHCheck sta r.2 skb.data with
      | (_, false) => ([.read .skb, .read .skb, .kfree .skb], none)
      | (_, true) => ([.read .skb], some skb)

/-- **A received buffer**, until it is disposed of; the handlers run in the state `vif'` of the
interface and `sta'` of the station. -/
def receive (linearize : Bool) (vif : Vif) (sta : Option StaInfo) (skb : RxSkb)
    (reordered : Reordered) (env : RxEnv) (vif' : Vif) (sta' : Option StaInfo) :
    Option (List Use) :=
  match rxHandlePacket linearize vif sta skb with
  | (uses, none) => some uses
  | (uses, some skb) =>
    match reordered with
    | .handedOn => (rxHandlersUses env vif' sta' skb).map (uses ++ ·)
    | .freed => some (uses ++ [.read .skb, .kfree .skb])
    | .kept => some (uses ++ [.read .skb, .store .skb])

/-! ### Handlers that keep to their result -/

/-- **A handler keeps to its result**: it has one, and it hands the buffer over once if it says that
it has queued it, and not at all otherwise. -/
inductive Behaves : Option Call → Prop
  | back {c : Call} (res : c.res ≠ .queued) (uses : c.uses = [.read .skb]) : Behaves (some c)
  | hands {c : Call} {u : Use} (res : c.res = .queued) (uses : c.uses = [.read .skb, u])
      (once : u.handsOver = true) : Behaves (some c)

/-- Every handler that is called keeps to its result. -/
inductive Good : List (RxData → Option Call) → RxData → Prop
  | nil {rx : RxData} : Good [] rx
  | cons {h : RxData → Option Call} {hs : List (RxData → Option Call)} {rx : RxData}
      (behaves : Behaves (h rx)) (next : ∀ c, h rx = some c → c.res = .cont → Good hs c.rx) :
      Good (h :: hs) rx

theorem DisposedOnce.append_left {pre uses : List Use} (h : DisposedOnce uses)
    (hpre : ∀ x ∈ pre, x.handsOver = false) : DisposedOnce (pre ++ uses) := by
  obtain ⟨p, u, post, rfl, hu, hp, hpost⟩ := h
  refine ⟨pre ++ p, u, post, (List.append_assoc _ _ _).symm, hu, fun x hx => ?_, hpost⟩
  rcases List.mem_append.mp hx with hx | hx
  · exact hpre x hx
  · exact hp x hx

theorem disposedOnce_single {u : Use} (hu : u.handsOver = true) :
    DisposedOnce [.read .skb, u] :=
  ⟨[.read .skb], u, [], rfl, hu, by simp [Use.handsOver], nofun⟩

/-- **A chain of such handlers** disposes of the buffer once. -/
theorem disposedOnce_of_good {hs : List (RxData → Option Call)} {rx : RxData} (h : Good hs rx) :
    ∃ r, callRxhs hs rx = some r ∧ DisposedOnce (handlersResultUses r) := by
  induction h with
  | nil => exact ⟨_, rfl, disposedOnce_single rfl⟩
  | cons behaves next ih =>
    rename_i h hs rx
    have hread : ∀ x ∈ [Use.read .skb], x.handsOver = false := by simp [Use.handsOver]
    rcases hc : h rx with _ | c
    · rw [hc] at behaves
      cases behaves
    · rw [callRxhs, hc]
      dsimp only
      rw [hc] at behaves
      by_cases hcont : c.res = .cont
      · have huses : c.uses = [.read .skb] := by
          cases behaves with
          | back _ uses => exact uses
          | hands res => rw [hcont] at res; cases res
        obtain ⟨r, hr, honce⟩ := ih c hc hcont
        rw [if_pos hcont, hr, huses]
        refine ⟨_, rfl, ?_⟩
        have hall := honce.append_left hread
        unfold handlersResultUses at hall ⊢
        dsimp only at hall ⊢
        split_ifs at hall ⊢
        · exact hall
        · rw [List.append_assoc]
          exact hall
      · rw [if_neg hcont]
        refine ⟨_, rfl, ?_⟩
        unfold handlersResultUses
        cases behaves with
        | back res uses =>
          rw [if_neg res, uses]
          exact (disposedOnce_single rfl).append_left hread
        | hands res uses once =>
          rw [if_pos res, uses]
          exact disposedOnce_single once

/-! ### Each handler -/

section

variable {env : RxEnv} {rx : RxData}

/-- A handler that neither hands the buffer over nor says so. -/
def Quiet (rx : RxData) (h : Handled) : Prop :=
  ∃ res rx', h = some (res, rx') ∧ res ≠ .queued ∧ rx'.log = rx.log

theorem Quiet.mk {res : RxResult} {rx' : RxData} (hres : res ≠ .queued) (hlog : rx'.log = rx.log) :
    Quiet rx (some (res, rx')) := ⟨res, rx', rfl, hres, hlog⟩

theorem Quiet.behaves {h : RxData → Handled} (hq : ∀ rx, Quiet rx (h rx)) (rx : RxData) :
    Behaves (called h rx) := by
  obtain ⟨res, rx', hr, hres, hlog⟩ := hq { rx with log := [] }
  unfold called
  rw [hr]
  refine .back hres ?_
  show Use.read .skb :: rx'.log.map Disposal.use = _
  rw [hlog]
  rfl

theorem quiet_cryptoWepDecrypt (rx : RxData) : Quiet rx (some (cryptoWepDecrypt rx)) := by
  unfold cryptoWepDecrypt
  dsimp only
  split_ifs <;> exact .mk (by decide) rfl

theorem quiet_cryptoTkipDecrypt (rx : RxData) : Quiet rx (some (cryptoTkipDecrypt rx)) := by
  unfold cryptoTkipDecrypt
  dsimp only
  split_ifs <;> exact .mk (by decide) rfl

theorem quiet_cryptoCcmpDecrypt (rx : RxData) : Quiet rx (some (cryptoCcmpDecrypt rx)) := by
  unfold cryptoCcmpDecrypt
  dsimp only
  split_ifs <;> exact .mk (by decide) rfl

theorem quiet_cryptoAesCmacDecrypt (rx : RxData) : Quiet rx (some (cryptoAesCmacDecrypt rx)) := by
  unfold cryptoAesCmacDecrypt
  dsimp only
  split_ifs <;> exact .mk (by decide) rfl

theorem quiet_withReplaycnt {decrypt : RxData → RxResult × RxData}
    (hdecrypt : ∀ rx, Quiet rx (some (decrypt rx))) (rx : RxData) (isCcmp : Bool) :
    Quiet rx (some (withReplaycnt rx isCcmp decrypt)) := by
  unfold withReplaycnt
  dsimp only
  split_ifs
  · exact .mk (by decide) rfl
  · exact hdecrypt { rx with
      vif := { rx.vif with replay := (ccmpTkipReplaycnt rx.vif.replay rx.skb.data isCcmp).2 } }

theorem quiet_rxHDecrypt (env : RxEnv) (rx : RxData) : Quiet rx (rxHDecrypt env rx) := by
  unfold rxHDecrypt
  dsimp only
  by_cases hra : ¬ rx.skb.raMatch = true
  · rw [if_pos hra]
    exact .mk (by decide) rfl
  rw [if_neg hra]
  by_cases hlin : ¬ env.linearize = true
  · rw [if_pos hlin]
    exact .mk (by decide) rfl
  rw [if_neg hlin]
  rcases rx.sta with _ | sta
  · exact .mk (by decide) rfl
  dsimp only
  by_cases henc : sta.enc = false
  · rw [if_pos henc]
    exact .mk (by decide) rfl
  rw [if_neg henc]
  by_cases hdec : ¬ rx.skb.decrypted = true
  · rw [if_pos hdec]
    exact .mk (by decide) rfl
  rw [if_neg hdec]
  by_cases hiv : rx.skb.ivStripped = true
  · rw [if_pos hiv]
    exact .mk (by decide) rfl
  rw [if_neg hiv]
  -- the cipher decides
  generalize (if isMulticastEtherAddr rx.skb.data then rx.vif.groupKeyType else sta.keyType) = key
  cases key with
  | wep => exact quiet_cryptoWepDecrypt _
  | tkip => exact quiet_withReplaycnt quiet_cryptoTkipDecrypt _ _
  | aes => exact quiet_withReplaycnt quiet_cryptoCcmpDecrypt _ _
  | aesCmac => exact quiet_cryptoAesCmacDecrypt _
  | unset => exact .mk (by decide) rfl
  | type => exact .mk (by decide) rfl
  | wapi => exact .mk (by decide) rfl

theorem behaves_rxHStaProcess (rx : RxData) : Behaves (called rxHStaProcess rx) := by
  unfold called rxHStaProcess
  dsimp only
  split_ifs
  · exact .back nofun rfl
  · exact .hands rfl rfl rfl
  · exact .back nofun rfl

theorem quiet_michaelMicVerify (rx : RxData) : Quiet rx (rxHMichaelMicVerify rx) := by
  unfold rxHMichaelMicVerify
  dsimp only
  split_ifs <;> exact .mk (by decide) rfl

theorem quiet_removeQosControl (rx : RxData) : Quiet rx (rxHRemoveQosControl rx) :=
  .mk (by decide) rfl

theorem behaves_back {res : RxResult} (h : res ≠ .queued) (rx : RxData) :
    Behaves (some (.back res rx)) := .back h rfl

theorem behaves_queue (rx : RxData) : Behaves (some (.queue rx)) :=
  .hands (u := .queueTail .skb) rfl rfl rfl

theorem behaves_rxHAction (rx : RxData) : Behaves (some (rxHAction rx)) := by
  have hcont := behaves_back (show RxResult.cont ≠ .queued by decide) rx
  have hdrop := behaves_back (show RxResult.dropUnusable ≠ .queued by decide) rx
  have hfree : Behaves (some ⟨.queued, rx, [.read .skb, .kfree .skb]⟩) :=
    .hands (u := .kfree .skb) rfl rfl rfl
  unfold rxHAction
  dsimp only
  rcases backActionSize (byteAt rx.skb.data 25) with _ | size
  · split_ifs <;> first | exact hcont | exact hdrop | exact hfree
  · dsimp only
    split_ifs <;> first | exact hcont | exact hdrop | exact hfree | exact behaves_queue rx

theorem behaves_rxHMgmt (rx : RxData) : Behaves (some (rxHMgmt rx)) := by
  have hdrop := behaves_back (show RxResult.dropMonitor ≠ .queued by decide) rx
  unfold rxHMgmt
  dsimp only
  split_ifs <;> first | exact hdrop | exact behaves_queue rx

/-- **An A-MSDU is split** in `ieee80211_rx_h_data`: it was sent to one station, it is not protected
with a WEP or TKIP key nor in clear text while the AP encrypts, and the splitter accepts it; or it
is protected and no key has been selected, so that a NULL key is read. -/
structure SplitsAmsdu (env : RxEnv) (rx : RxData) : Prop where
  data : ieee80211IsData (frameControl rx.skb.data) = true
  present : ieee80211IsDataPresent (frameControl rx.skb.data) = true
  amsdu : rx.skb.amsdu = true
  unicast : ¬ isMulticastEtherAddr rx.skb.data
  split : rx.skb.decrypted = true ∧ rx.key = none ∨
    (rx.skb.decrypted = true → ∃ key, rx.key = some key ∧ key ≠ .wep ∧ key ≠ .tkip) ∧
    ¬ (rx.vif.type = .station ∧ ¬ rx.skb.decrypted ∧ rx.vif.apEnc) ∧
    ∃ eth, ieee80211DataTo8023 rx.skb.data rx.vif.addr rx.vif.type = some eth ∧
      Splits env.alloc 0 (eth.drop 14)

theorem rxHAmsdu_eq_none (hpresent : ieee80211IsDataPresent (frameControl rx.skb.data) = true) :
    ieee80211RxHAmsdu env rx = none ↔
      ¬ isMulticastEtherAddr rx.skb.data ∧ rx.skb.decrypted = true ∧ rx.key = none := by
  unfold ieee80211RxHAmsdu
  dsimp only
  rw [if_neg (not_not.mpr hpresent)]
  by_cases hmulti : isMulticastEtherAddr rx.skb.data = true
  · simp [hmulti]
  rw [if_neg hmulti]
  by_cases hdec : rx.skb.decrypted = true
  · rw [if_pos hdec]
    rcases rx.key with _ | key
    · simp [hmulti, hdec]
    · cases key <;> simp
  · simp [hdec]

theorem splitsAmsdu_iff (hdata : ieee80211IsData (frameControl rx.skb.data) = true)
    (hpresent : ieee80211IsDataPresent (frameControl rx.skb.data) = true)
    (hamsdu : rx.skb.amsdu = true) :
    SplitsAmsdu env rx ↔ ieee80211RxHAmsdu env rx ≠ some none := by
  constructor
  · intro h hrefused
    rcases h.split with hnull | ⟨hkey, hclear, heth⟩
    · rw [(rxHAmsdu_eq_none hpresent).mpr ⟨h.unicast, hnull⟩] at hrefused
      cases hrefused
    · obtain ⟨l, hl⟩ := amsduTo8023s_iff.mpr heth
      rw [(rxHAmsdu_eq_some hpresent).mpr ⟨h.unicast, hkey, hclear, hl⟩] at hrefused
      cases hrefused
  · intro h
    rcases hr : ieee80211RxHAmsdu env rx with _ | _ | l
    · obtain ⟨hunicast, hnull⟩ := (rxHAmsdu_eq_none hpresent).mp hr
      exact ⟨hdata, hpresent, hamsdu, hunicast, Or.inl hnull⟩
    · exact absurd hr h
    · obtain ⟨hunicast, hkey, hclear, hl⟩ := (rxHAmsdu_eq_some hpresent).mp hr
      exact ⟨hdata, hpresent, hamsdu, hunicast,
        Or.inr ⟨hkey, hclear, amsduTo8023s_iff.mp ⟨l, hl⟩⟩⟩

theorem behaves_rxHData (h : ¬ SplitsAmsdu env rx) : Behaves (called (rxHData env) rx) := by
  unfold called rxHData
  dsimp only
  by_cases hdata : ieee80211IsData (frameControl rx.skb.data) = true
  swap
  · rw [if_pos hdata]
    exact .back nofun rfl
  by_cases hpresent : ieee80211IsDataPresent (frameControl rx.skb.data) = true
  swap
  · rw [if_neg (not_not.mpr hdata), if_pos hpresent]
    exact .back nofun rfl
  rw [if_neg (not_not.mpr hdata), if_neg (not_not.mpr hpresent)]
  by_cases hamsdu : rx.skb.amsdu = true
  · have hrefused : ieee80211RxHAmsdu env { rx with log := [] } = some none := by
      by_contra hsplit
      exact h ((splitsAmsdu_iff hdata hpresent hamsdu).mpr hsplit)
    rw [if_pos hamsdu, hrefused]
    exact .back nofun rfl
  · rw [if_neg hamsdu]
    rcases ieee80211DataTo8023 rx.skb.data rx.vif.addr rx.vif.type with _ | eth
    · exact .back nofun rfl
    · dsimp only
      by_cases hallowed : ¬ frameAllowed ({ rx with log := [] }.setData eth)
          (frameControl rx.skb.data) = true
      · rw [if_pos hallowed]
        exact .back nofun rfl
      · rw [if_neg hallowed]
        unfold ieee80211DeliverSkb
        split_ifs
        · exact .hands (u := .kfree .skb) rfl rfl rfl
        · exact .hands (u := .netifRx .skb) rfl rfl rfl

/-! ### The chain -/

/-- The frame as it comes out of handlers that all let it go on. -/
def passes : List (RxData → Option Call) → RxData → Option RxData
  | [], rx => some rx
  | h :: hs, rx => (h rx).bind fun c => if c.res = .cont then passes hs c.rx else none

theorem Good.append {hs hs' : List (RxData → Option Call)} (h : Good hs rx)
    (h' : ∀ rx', passes hs rx = some rx' → Good hs' rx') : Good (hs ++ hs') rx := by
  induction h with
  | nil => exact h' _ rfl
  | cons behaves next ih =>
    refine .cons behaves fun c hc hcont => ih c hc hcont fun rx' hrx' => h' rx' ?_
    rw [passes, hc, Option.bind_some, if_pos hcont, hrx']

/-- Handlers that let the frame go on only read it. -/
theorem Good.callRxhs_append {hs : List (RxData → Option Call)} (h : Good hs rx)
    (hs' : List (RxData → Option Call)) {rx' : RxData} (hpass : passes hs rx = some rx') :
    ∃ pre, callRxhs (hs ++ hs') rx = (callRxhs hs' rx').map fun r => (r.1, pre ++ r.2) := by
  induction h with
  | nil =>
    obtain rfl := Option.some.inj hpass
    exact ⟨[], by simp⟩
  | cons behaves next ih =>
    rename_i h hs rx
    rw [passes] at hpass
    obtain ⟨c, hc, hpass⟩ := Option.bind_eq_some_iff.mp hpass
    obtain ⟨hcont, hpass⟩ := Option.ite_none_right_eq_some.mp hpass
    obtain ⟨pre, hpre⟩ := ih c hc hcont hpass
    refine ⟨c.uses ++ pre, ?_⟩
    rw [List.cons_append, callRxhs, hc]
    dsimp only
    rw [if_pos hcont, hpre, Option.map_map]
    congr 1
    funext r
    simp

theorem good_handlersBefore (env : RxEnv) (rx : RxData) : Good (handlersBefore env) rx :=
  .cons (Quiet.behaves (quiet_rxHDecrypt env) rx) fun _ _ _ =>
    .cons (behaves_rxHStaProcess _) fun _ _ _ =>
      .cons (Quiet.behaves quiet_michaelMicVerify _) fun _ _ _ =>
        .cons (Quiet.behaves quiet_removeQosControl _) fun _ _ _ => .nil

/-- The frame comes to `ieee80211_rx_h_data` as an A-MSDU that is split. -/
def ComesSplit (env : RxEnv) (vif : Vif) (sta : Option StaInfo) (skb : RxSkb) : Prop :=
  ∃ rx, passes (handlersBefore env) ⟨skb, vif, sta, none, []⟩ = some rx ∧ SplitsAmsdu env rx

theorem DisposedOnce.count {uses : List Use} (h : DisposedOnce uses) :
    uses.countP Use.handsOver = 1 := by
  obtain ⟨pre, u, post, rfl, hu, hpre, hpost⟩ := h
  have hpost' : ∀ x ∈ post, ¬ x.handsOver = true := fun x hx hover => by
    have hbuf := hpost x hx
    cases x with
    | read b => cases hover
    | netifRx b => exact hbuf (of_decide_eq_true hover)
    | queueTail b => exact hbuf (of_decide_eq_true hover)
    | store b => exact hbuf (of_decide_eq_true hover)
    | kfree b => exact hbuf (of_decide_eq_true hover)
  rw [List.countP_append, List.countP_cons_of_pos hu, List.countP_eq_zero.mpr hpost',
    List.countP_eq_zero.mpr fun x hx hover => Bool.false_ne_true ((hpre x hx).symm.trans hover)]

theorem skb_mem_amsduTo8023sLoop {alloc : ℕ → Bool} {n : ℕ} {d : List UInt8}
    {l : List (Buf × List UInt8)} (h : amsduTo8023sLoop alloc n d = some l) :
    ∃ f, (Buf.skb, f) ∈ l := by
  rw [amsduTo8023sLoop] at h
  split_ifs at h with hfits hdst hrest hcopy
  · obtain rfl := Option.some.inj h
    exact ⟨_, List.mem_singleton_self _⟩
  · obtain ⟨l', hl', rfl⟩ := Option.map_eq_some_iff.mp h
    obtain ⟨f, hf⟩ := skb_mem_amsduTo8023sLoop hl'
    exact ⟨f, List.mem_cons_of_mem _ hf⟩
termination_by d.length
decreasing_by
  simp only [List.length_drop]
  unfold subframeLen at *
  omega

theorem skb_mem_amsduTo8023s {d : List UInt8} {addr : EtherAddr} {iftype : Nl80211Iftype}
    {l : List (Buf × List UInt8)} (h : amsduTo8023s env d addr iftype = some l) :
    ∃ f, (Buf.skb, f) ∈ l := by
  unfold amsduTo8023s at h
  rcases he : ieee80211DataTo8023 d addr iftype with _ | eth
  · rw [he] at h
    cases h
  · rw [he] at h
    exact skb_mem_amsduTo8023sLoop (Option.ite_none_left_eq_some.mp h).2

theorem twice_of_mem {frames : List (Buf × List UInt8)} {f : List UInt8}
    (hf : (Buf.skb, f) ∈ frames) : 2 ≤ (Use.read .skb ::
      ([] ++ frames.map (fun g : Buf × List UInt8 => Disposal.netifRx g.1 g.2) ++
        [Disposal.kfree .skb]).map Disposal.use).countP Use.handsOver := by
  have hstack : 0 < (frames.map fun g => Use.netifRx g.1).countP Use.handsOver :=
    List.countP_pos_iff.mpr ⟨.netifRx .skb, List.mem_map.mpr ⟨_, hf, rfl⟩, rfl⟩
  have huses : ([] ++ frames.map (fun g : Buf × List UInt8 => Disposal.netifRx g.1 g.2) ++
      [Disposal.kfree .skb]).map Disposal.use =
        (frames.map fun g => Use.netifRx g.1) ++ [.kfree .skb] := by
    simp [Disposal.use]
  have hfree : [Use.kfree .skb].countP Use.handsOver = 1 := rfl
  rw [huses, List.countP_cons, List.countP_append, hfree]
  omega

/-- **A split A-MSDU** goes to the stack and is freed. -/
theorem called_splits (h : SplitsAmsdu env rx) : called (rxHData env) rx = none ∨
    ∃ c, called (rxHData env) rx = some c ∧ c.res = .queued ∧
      2 ≤ c.uses.countP Use.handsOver := by
  have hdata : ¬ ¬ ieee80211IsData (frameControl rx.skb.data) = true := not_not.mpr h.data
  have hpresent : ¬ ¬ ieee80211IsDataPresent (frameControl rx.skb.data) = true :=
    not_not.mpr h.present
  unfold called rxHData
  dsimp only
  rw [if_neg hdata, if_neg hpresent, if_pos h.amsdu]
  rcases hs : ieee80211RxHAmsdu env { rx with log := [] } with _ | _ | frames
  · exact Or.inl rfl
  · exact absurd hs ((splitsAmsdu_iff h.data h.present h.amsdu).mp h)
  · obtain ⟨f, hf⟩ := skb_mem_amsduTo8023s ((rxHAmsdu_eq_some h.present).mp hs).2.2.2
    exact Or.inr ⟨_, rfl, rfl, twice_of_mem hf⟩

theorem rxHandlersUses_splits {vif : Vif} {sta : Option StaInfo} {skb : RxSkb}
    (h : ComesSplit env vif sta skb) : rxHandlersUses env vif sta skb = none ∨
      ∃ uses, rxHandlersUses env vif sta skb = some uses ∧ 2 ≤ uses.countP Use.handsOver := by
  obtain ⟨rx, hpass, hsplit⟩ := h
  obtain ⟨pre, hpre⟩ := (good_handlersBefore env ⟨skb, vif, sta, none, []⟩).callRxhs_append
    [called (rxHData env), fun rx => some (rxHAction rx), fun rx => some (rxHMgmt rx)] hpass
  unfold rxHandlersUses
  rw [hpre, callRxhs]
  rcases called_splits hsplit with hnone | ⟨c, hc, hres, hcount⟩
  · rw [hnone]
    exact Or.inl rfl
  · rw [hc]
    dsimp only
    rw [if_neg (by rw [hres]; decide)]
    refine Or.inr ⟨_, rfl, ?_⟩
    unfold handlersResultUses
    rw [if_pos hres]
    show 2 ≤ (pre ++ c.uses).countP Use.handsOver
    rw [List.countP_append]
    omega

/-- And so it is not disposed of once, whatever has been done with it before. -/
theorem rxHandlersUses_not_once {vif : Vif} {sta : Option StaInfo} {skb : RxSkb}
    (h : ComesSplit env vif sta skb) {pre uses : List Use}
    (huses : (rxHandlersUses env vif sta skb).map (pre ++ ·) = some uses) :
    ¬ DisposedOnce uses := by
  intro honce
  rcases rxHandlersUses_splits h with hno | ⟨used, hused, hcount⟩
  · rw [hno] at huses
    cases huses
  · rw [hused] at huses
    obtain rfl := Option.some.inj huses
    have hone := honce.count
    rw [List.countP_append] at hone
    omega

/-- **The handlers dispose of the buffer once** on any other frame. -/
theorem rxHandlersUses_once {vif : Vif} {sta : Option StaInfo} {skb : RxSkb}
    (h : ¬ ComesSplit env vif sta skb) :
    ∃ uses, rxHandlersUses env vif sta skb = some uses ∧ DisposedOnce uses := by
  have hgood : Good (handlersBefore env ++ [called (rxHData env), fun rx => some (rxHAction rx),
      fun rx => some (rxHMgmt rx)]) ⟨skb, vif, sta, none, []⟩ :=
    (good_handlersBefore env _).append fun rx hpass =>
      .cons (behaves_rxHData fun hsplit => h ⟨rx, hpass, hsplit⟩) fun _ _ _ =>
        .cons (behaves_rxHAction _) fun _ _ _ => .cons (behaves_rxHMgmt _) fun _ _ _ => .nil
  obtain ⟨r, hr, honce⟩ := disposedOnce_of_good hgood
  unfold rxHandlersUses
  exact ⟨_, by rw [hr, Option.map_some], honce⟩

/-! ### A received buffer -/

/-- The arrival of a frame only reads its buffer if the frame goes on, and frees it if not. -/
theorem rxHandlePacket_uses (linearize : Bool) (vif : Vif) (sta : Option StaInfo) (skb : RxSkb) :
    ((rxHandlePacket linearize vif sta skb).2 = none →
      DisposedOnce (rxHandlePacket linearize vif sta skb).1) ∧
    ∀ skb', (rxHandlePacket linearize vif sta skb).2 = some skb' →
      ∀ x ∈ (rxHandlePacket linearize vif sta skb).1, x.handsOver = false := by
  have hfree : DisposedOnce [.read .skb, .kfree .skb] := disposedOnce_single rfl
  have hread : ∀ x ∈ [Use.read .skb], x.handsOver = false := by simp [Use.handsOver]
  unfold rxHandlePacket
  dsimp only
  split_ifs
  · exact ⟨fun _ => hfree, nofun⟩
  · rcases prepareForHandlers vif { (ieee80211ParseQos skb).1 with raMatch := true } with _ | skb'
    · exact ⟨fun _ => hfree, nofun⟩
    · dsimp only
      rcases ieee80211RxHCheck sta (ieee80211ParseQos skb).2 skb'.data with ⟨sta', _ | _⟩
      · exact ⟨fun _ => hfree.append_left hread, nofun⟩
      · exact ⟨nofun, fun _ _ => hread⟩

/-- **Every received buffer is disposed of exactly once**, whatever the reorder buffer does with the
frame, unless it is handed on and comes to `ieee80211_rx_h_data` as an A-MSDU that is split. -/
theorem disposedOnce_iff (linearize : Bool) (vif : Vif) (sta : Option StaInfo) (skb : RxSkb)
    (reordered : Reordered) (env : RxEnv) (vif' : Vif) (sta' : Option StaInfo) :
    (∃ uses, receive linearize vif sta skb reordered env vif' sta' = some uses ∧
      DisposedOnce uses) ↔
    ¬ ∃ skb', (rxHandlePacket linearize vif sta skb).2 = some skb' ∧ reordered = .handedOn ∧
      ComesSplit env vif' sta' skb' := by
  obtain ⟨hnone, hsome⟩ := rxHandlePacket_uses linearize vif sta skb
  unfold receive
  rcases hr : rxHandlePacket linearize vif sta skb with ⟨uses, _ | skb'⟩
  · rw [hr] at hnone
    refine iff_of_true ⟨uses, rfl, hnone rfl⟩ ?_
    rintro ⟨skb', h, -⟩
    cases h
  · rw [hr] at hsome
    have hpre := hsome skb' rfl
    cases reordered with
    | handedOn =>
      dsimp only
      by_cases hsplit : ComesSplit env vif' sta' skb'
      · refine iff_of_false ?_ (not_not.mpr ⟨skb', rfl, rfl, hsplit⟩)
        rintro ⟨uses', huses, honce⟩
        exact rxHandlersUses_not_once hsplit huses honce
      · obtain ⟨used, hused, honce⟩ := rxHandlersUses_once hsplit
        refine iff_of_true ⟨_, by rw [hused, Option.map_some], honce.append_left hpre⟩ ?_
        rintro ⟨skb'', h, -, hsplit'⟩
        obtain rfl := Option.some.inj h
        exact hsplit hsplit'
    | freed =>
      refine iff_of_true ⟨_, rfl, (disposedOnce_single rfl).append_left hpre⟩ ?_
      rintro ⟨skb', -, h, -⟩
      cases h
    | kept =>
      refine iff_of_true ⟨_, rfl, (disposedOnce_single rfl).append_left hpre⟩ ?_
      rintro ⟨skb', -, h, -⟩
      cases h

end

/-! ### The A-MSDU in clear text again -/

/-- An A-MSDU of one subframe that comes to an AP: its buffer goes to the stack and is freed. -/
theorem amsdu_twice :
    atbmRxCb 0 (clearFrame 0x80) = some { clearSkb 0x80 false with raMatch := false } ∧
    ¬ ∃ uses, receive true openAp (some newSta) { clearSkb 0x80 false with raMatch := false }
      .handedOn ⟨true, fun _ => true⟩ openAp (some newSta) = some uses ∧ DisposedOnce uses := by
  refine ⟨rfl, ?_⟩
  have hsplit : ComesSplit ⟨true, fun _ => true⟩ openAp (some newSta) (clearSkb 0x80 true) :=
    ⟨_, rfl,
      { data := rfl
        present := rfl
        amsdu := rfl
        unicast := by decide
        split := Or.inr ⟨nofun, by decide, _, rfl, .last rfl (by decide) (by decide)⟩ }⟩
  rintro ⟨uses, huses, honce⟩
  have huses : (rxHandlersUses ⟨true, fun _ => true⟩ openAp (some newSta) (clearSkb 0x80 true)).map
      ([.read .skb] ++ ·) = some uses := huses
  exact rxHandlersUses_not_once hsplit huses honce

end Atbm6441.Rx.Handlers
