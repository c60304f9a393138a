import Atbm6441.Ether.RoundTrip
import Atbm6441.Rx.Handlers.Mgmt
import Atbm6441.Rx.Handlers.Unpack
import Atbm6441.Rx.Reorder.Run

/-!
# From the air to the network stack

`ieee80211_rx` of `rx.c` for all frames of an interface: `ieee80211_rx_h_check`, the reorder buffers of
its stations (`ieee80211_rx_reorder_ampdu`, and the callback of the reorder timer) and the RX handlers,
which give Ethernet frames to the network stack. A frame and the handlers of what it releases are one
step; `Delivery` has what happens when they are not. On the other side of the air, the reference for a
peer: it numbers its Ethernet frames and sends each in an MPDU.
-/

namespace Atbm6441.Rx.Air

open Atbm6441.Ieee80211 Atbm6441.Lib
open Atbm6441.Ether (EtherAddr etherAddrAt)
open Atbm6441.Rx.Handlers
open Atbm6441.Rx.Reorder
open Atbm6441.Rx.Replay (Nl80211Iftype)

variable {w : ℕ}

/-! ### The receiver -/

/-- A station, with its sessions in `ampdu_mlme.tid_rx`. -/
structure Station (w : ℕ) where
  info : StaInfo
  tidRx : ℕ → Option (TidAmpduRx w)

/-- A call of `ieee80211_rx_handlers`: the station and `rx->seqno_idx` of its frames, and what the
network stack gets. -/
structure Called where
  addr : List UInt8
  seqnoIdx : ℕ
  frames : List (List UInt8)

/-- The interface, its stations by their addresses, and the calls so far. -/
structure Receiver (w : ℕ) where
  vif : Vif
  tmo : ReorderTimeout
  sta : List UInt8 → Option (Station w)
  calls : List Called

/-- `TU_TO_EXP_TIME`, in `atbm_mod_timer` of the session timer. -/
def resetSessionTimer (now : BitVec w) (t : TidAmpduRx w) : TidAmpduRx w :=
  if t.timeout ≠ 0 then { t with sessionTimer := some (now + BitVec.ofNat w (t.timeout * 1024)) }
  else t

/-- `ieee80211_rx_handlers` for frames of one station; the packet number counters of the interface go
from one frame to the next. A frame that is handled has its status from its arrival. -/
def rxHandlers (sta : Option StaInfo) :
    (ℕ → RxEnv) → Vif → List SkBuff → Option (Vif × List (List UInt8))
  | _, vif, [] => some (vif, [])
  | env, vif, f :: fs =>
    match receivedAtCheck true vif 0 f.data with
    | none => rxHandlers sta (fun n => env (n + 1)) vif fs
    | some (skb, _) =>
      match handlersResult (ieee80211RxHandlers (env 0) vif sta skb) with
      | none => none
      | some rx =>
        (rxHandlers sta (fun n => env (n + 1)) rx.vif fs).map fun (vif, out) =>
          (vif, stackFrames rx.log ++ out)

namespace Receiver

/-- `sta->ampdu_mlme.tid_rx[tid]`. -/
def session (r : Receiver w) (addr : List UInt8) (tid : ℕ) : Option (TidAmpduRx w) :=
  (r.sta addr).bind fun s => s.tidRx tid

def setSession (r : Receiver w) (addr : List UInt8) (tid : ℕ) (t : TidAmpduRx w) : Receiver w :=
  { r with
    sta := Function.update r.sta addr ((r.sta addr).map fun s =>
      { s with tidRx := Function.update s.tidRx tid (some t) }) }

/-- Up to `ieee80211_rx_h_check`, for a frame that the device has received without an error: its
`seqno_idx`, if it goes on. -/
def arrive (r : Receiver w) (linearize : Bool) (d : List UInt8) : Receiver w × Option ℕ :=
  match receivedAtCheck linearize r.vif 0 d with
  | none => (r, none)
  | some (_, seqnoIdx) =>
    let addr := etherAddrAt d 10
    match r.sta addr with
    | none => (r, if (ieee80211RxHCheck none seqnoIdx d).2 then some seqnoIdx else none)
    | some s =>
      let c := ieee80211RxHCheck (some s.info) seqnoIdx d
      ({ r with sta := Function.update r.sta addr (c.1.map fun info => { s with info := info }) },
        if c.2 then some seqnoIdx else none)

/-- The session of a frame: it has a QoS control field and is no null frame. -/
def sessionOf (r : Receiver w) (d : List UInt8) : Option (TidAmpduRx w) :=
  if ieee80211IsDataQos (frameControl d) ∧ frameControl d &&& 0x0040 = 0 then
    r.session (etherAddrAt d 10) (qosCtlTid d)
  else none

/-- `ieee80211_rx_reorder_ampdu`; a fragment is handed on. -/
def rxReorderAmpdu (r : Receiver w) (now : BitVec w) (skb : SkBuff) : Receiver w × List SkBuff :=
  match r.sessionOf skb.data with
  | none => (r, [skb])
  | some t =>
    let t := resetSessionTimer now t
    let addr := etherAddrAt skb.data 10
    let tid := qosCtlTid skb.data
    if seqCtrl skb.data &&& 0x000f ≠ 0 then (r.setSession addr tid t, [skb])
    else
      let tmo := updateTimeout r.tmo skb
      let m := ieee80211StaManageReorderBuf tmo now t skb []
      ({ r.setSession addr tid m.agg with tmo := tmo }, m.handedOn skb)

/-- The handlers for frames of a station. -/
def handle (r : Receiver w) (addr : List UInt8) (seqnoIdx : ℕ) (env : ℕ → RxEnv)
    (frames : List SkBuff) : Option (Receiver w) :=
  (rxHandlers ((r.sta addr).map Station.info) env r.vif frames).map fun (vif, out) =>
    { r with vif := vif, calls := r.calls ++ [⟨addr, seqnoIdx, out⟩] }

/-- `ieee80211_rx`. -/
def ieee80211Rx (r : Receiver w) (linearize : Bool) (env : ℕ → RxEnv) (now : BitVec w)
    (d : List UInt8) : Option (Receiver w) :=
  match r.arrive linearize d with
  | (r, none) => some r
  | (r, some seqnoIdx) =>
    let (r, frames) := r.rxReorderAmpdu now ⟨d⟩
    r.handle (etherAddrAt d 10) seqnoIdx env frames

/-- `ieee80211_release_reorder_timeout`. -/
def releaseReorderTimeout (r : Receiver w) (env : ℕ → RxEnv) (now : BitVec w) (addr : List UInt8)
    (tid : ℕ) : Option (Receiver w) :=
  match r.session addr tid with
  | none => some r
  | some t =>
    let (t, frames) := ieee80211StaReorderRelease r.tmo now t []
    (r.setSession addr tid t).handle addr tid env frames

end Receiver

/-- What happens at the interface: a frame arrives from any station, or a reorder timer fires. `env` is
for the frames that are handled, one after the other. -/
inductive Act (w : ℕ)
  | frame (d : List UInt8) (linearize : Bool) (env : ℕ → RxEnv) (now : BitVec w)
  | expiry (addr : List UInt8) (tid : ℕ) (env : ℕ → RxEnv) (now : BitVec w)

/-- The buffers of the frames that are handled can be linearized. -/
def Act.Linear : Act w → Prop
  | .frame _ _ env _ | .expiry _ _ env _ => ∀ n, (env n).linearize = true

/-! ### The peer -/

/-- A peer that sends Ethernet frames with one TID, numbered from 0 on, to an interface of ours. -/
structure Peer where
  addr : EtherAddr
  tid : ℕ
  tid_lt : tid < 16
  /-- the sequence number of frame 0 -/
  ssn : ℕ
  cipher : Option EncType
  frame : ℕ → List UInt8
  own : EtherAddr
  iftype : Nl80211Iftype

namespace Peer

variable (p : Peer)

/-- The lengths of what a cipher adds to an MPDU. -/
def ivRoom : ℕ := p.cipher.elim 0 ivLen

def trailer : ℕ := p.cipher.elim 0 (trailerLen 0x0088)

/-- The addresses of an MPDU: an AP sends to its station, or a station to its AP. -/
structure Addressed (d f : List UInt8) : Prop where
  unicast : isMulticastEtherAddr d = false
  receiver : etherAddrAt d 4 = p.own.bytes
  transmitter : etherAddrAt d 10 = p.addr.bytes
  ends : p.iftype = .station ∧ frameControl d &&& 0x0300 = 0x0200 ∧
      etherAddrAt f 0 = etherAddrAt d 4 ∧ etherAddrAt f 6 = etherAddrAt d 16 ∨
    p.iftype = .ap ∧ frameControl d &&& 0x0300 = 0x0100 ∧
      etherAddrAt f 0 = etherAddrAt d 16 ∧ etherAddrAt f 6 = etherAddrAt d 10

/-- **An MPDU with frame `k`**: a whole QoS data frame, of an Ethernet II frame that is not EAPOL. Bits
such as Retry, and the duration, may be any. -/
structure Mpdu (k : ℕ) (d : List UInt8) : Prop where
  parts : ∃ hdr iv trailer, d = hdr ++ (iv ++ (Ether.msdu (p.frame k) ++ trailer)) ∧
    hdr.length = 26 ∧ iv.length = p.ivRoom ∧ trailer.length = p.trailer
  len : d.length < 0x100000000
  kind : frameControl d &&& 0x80fc = 0x0088
  protection : ieee80211HasProtected (frameControl d) = p.cipher.isSome
  addressed : p.Addressed d (p.frame k)
  seq : seqCtrl d = 16 * ((p.ssn + k) % 0x1000)
  tid : qosCtlTid d = p.tid
  single : byteAt d 24 &&& 0x80 = 0
  ethernet : 14 ≤ (p.frame k).length ∧ 0x600 ≤ Ether.ethertype (p.frame k)
  not_eapol : ¬ isEapol ⟨d⟩

/-- A frame belongs to the peer's TID. -/
def Owns (d : List UInt8) : Prop :=
  etherAddrAt d 10 = p.addr.bytes ∧ ieee80211IsDataQos (frameControl d) = true ∧
    qosCtlTid d = p.tid

instance (d : List UInt8) : Decidable (p.Owns d) := inferInstanceAs (Decidable (_ ∧ _ ∧ _))

/-- The station has the key of the peer. -/
def Keyed (info : StaInfo) : Prop :=
  ∀ key, p.cipher = some key → (key = .wep ∨ key = .tkip ∨ key = .aes) ∧ info.enc = true ∧
    info.keyType = key

/-- **The frames of the peer are let through** by a station: it is authorized, what the peer sends in
clear text is expected in clear text, and no packet number is checked. -/
structure Lets (apEnc : Bool) (info : StaInfo) : Prop where
  authorized : info.authorized = true
  clear : p.cipher = none → info.enc = false ∧ ¬ (p.iftype = .station ∧ apEnc = true)
  unchecked : p.iftype = .station → p.cipher = none ∨ p.cipher = some .wep

/-- What the network stack has got of the peer's frames. -/
def got {w : ℕ} (r : Receiver w) : List (List UInt8) :=
  (r.calls.filter fun c => c.addr = p.addr.bytes ∧ c.seqnoIdx = p.tid).flatMap Called.frames

end Peer

/-! ### The session of the peer -/

/-- The receiver, and what is observed of the peer's session. -/
structure Watch (w : ℕ) where
  rx : Receiver w
  obs : Obs w

/-- The frame comes to the peer's session. -/
def Watch.comes (p : Peer) (s : Watch w) (linearize : Bool) (d : List UInt8) : Bool :=
  (s.rx.arrive linearize d).2.isSome && p.Owns d && frameControl d &&& 0x0040 == 0 &&
    seqCtrl d &&& 0x000f == 0

/-- A step of the receiver; the timeout of the sessions is shared. -/
def Watch.step (p : Peer) (s : Watch w) : Act w → Option (Watch w)
  | .frame d linearize env now =>
    (s.rx.ieee80211Rx linearize env now d).bind fun rx =>
      if s.comes p linearize d then
        (Obs.step { s.obs with agg := resetSessionTimer now s.obs.agg } (.frame ⟨d⟩ now)).map
          fun obs => ⟨rx, obs⟩
      else some ⟨rx, { s.obs with tmo := rx.tmo }⟩
  | .expiry addr tid env now =>
    (s.rx.releaseReorderTimeout env now addr tid).bind fun rx =>
      if addr = p.addr.bytes ∧ tid = p.tid then
        (s.obs.step (.expiry now)).map fun obs => ⟨rx, obs⟩
      else some ⟨rx, s.obs⟩

/-- **The start**: an ADDBA request has set up the session of the peer, and the station has its key. -/
structure Starts (p : Peer) (s : Watch w) : Prop where
  obs : (Reorder.session w).init s.obs
  session : s.rx.session p.addr.bytes p.tid = some s.obs.agg
  ssn : s.obs.agg.ssn = p.ssn
  tmo : s.obs.tmo = s.rx.tmo
  addr : s.rx.vif.addr = p.own
  type : s.rx.vif.type = p.iftype
  keyed : ∀ sta, s.rx.sta p.addr.bytes = some sta → p.Keyed sta.info
  calls : s.rx.calls = []

def system (w : ℕ) (p : Peer) : System (Watch w) (Act w) where
  init := Starts p
  step := Watch.step p

/-- The station lets the frames of the peer through. -/
def Peer.LetBy (p : Peer) (r : Receiver w) : Prop :=
  ∀ s, r.sta p.addr.bytes = some s → p.Lets r.vif.apEnc s.info

/-- Runs in which the station lets the frames of the peer through. -/
def openSystem (w : ℕ) (p : Peer) : System (Watch w) (Act w) where
  init s := Starts p s ∧ p.LetBy s.rx
  step := Watch.step p

/-- A QoS null frame in clear text. -/
def IsNull (d : List UInt8) : Prop :=
  ieee80211IsQosNullfunc (frameControl d) = true ∧ ieee80211HasProtected (frameControl d) = false

instance (d : List UInt8) : Decidable (IsNull d) := inferInstanceAs (Decidable (_ ∧ _))

/-- **The steps**: a frame of the peer's TID is one of its MPDUs, less than half of the sequence numbers
away from the head of the window, or a null frame. All other frames are free. -/
def Sound (p : Peer) (s : Watch w) : Act w → Prop
  | .frame d _ _ _ => p.Owns d →
    (∃ k, p.Mpdu k d ∧ s.obs.pos ≤ k + 0x7ff ∧ k ≤ s.obs.pos + 0x800) ∨ IsNull d
  | .expiry _ _ _ _ => True

end Atbm6441.Rx.Air
