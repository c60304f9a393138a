import Atbm6441.Rx.Handlers.Dispose
import Atbm6441.Rx.Handlers.Deref

/-!
# Management frames

A management frame comes through the handlers to `ieee80211_rx_h_action` and `ieee80211_rx_h_mgmt`,
which put it on the queue of the interface, and `ieee80211_iface_work` of `iface.c` handles it
there. Every function that looks at the frame is listed with what it reads, and with its warning.
`mgmt_safe_iff` : nothing is read beyond the frame and no warning comes up, exactly if the frame is
not too short for its sequence control, no block ack response is queued for a station that is known,
and no authentication without a status of success nor an association response comes to the work of a
station.
-/

namespace Atbm6441.Rx.Handlers

open Atbm6441.Ieee80211 Atbm6441.Ether Atbm6441.Rx.Replay

/-! ### Visits -/

/-- A function looks at a frame: its length at that time, the offsets and sizes that are read, and
whether a `WARN_ON` comes up. -/
structure Visit where
  len : ℕ
  reads : List (ℕ × ℕ)
  warns : Bool

/-- All reads are inside the frame. -/
def Inside (len : ℕ) (reads : List (ℕ × ℕ)) : Prop := ∀ r ∈ reads, r.1 + r.2 ≤ len

def Visit.Safe (v : Visit) : Prop := Inside v.len v.reads ∧ v.warns = false

def SafeVisits (l : List Visit) : Prop := ∀ v ∈ l, v.Safe

theorem safeVisits_nil : SafeVisits [] := List.forall_mem_nil _

theorem safeVisits_cons {v : Visit} {l : List Visit} :
    SafeVisits (v :: l) ↔ v.Safe ∧ SafeVisits l := List.forall_mem_cons

/-! ### The handlers -/

/-- What `ieee80211_rx_h_check` reads. -/
def checkReads (sta : Option StaInfo) (seqnoIdx : ℕ) (d : List UInt8) : List (ℕ × ℕ) :=
  (if sta.isSome then (4, 1) :: if ¬ isMulticastEtherAddr d then [(0, 2), (22, 2)] else []
    else []) ++
    if droppedAsDuplicate sta seqnoIdx d ∨ d.length < 16 then [] else [(0, 2)]

/-- What `ieee80211_rx_h_action` reads. -/
def actionReads (rx : RxData) : List (ℕ × ℕ) :=
  let d := rx.skb.data
  (0, 2) ::
    if ¬ ieee80211IsAction (frameControl d) ∨ d.length < 25 then []
    else
      (if rx.sta.isNone then [(24, 1)] else []) ++
        if rx.sta.isNone ∧ byteAt d 24 ≠ 4 ∨ ¬ rx.skb.raMatch then []
        else (24, 1) ::
          if byteAt d 24 ≠ 3 ∨ rx.vif.type ≠ .station ∧ rx.vif.type ≠ .apVlan ∧ rx.vif.type ≠ .ap ∨
              d.length < 25 + 1 then []
          else [(25, 1)]

/-- What `ieee80211_rx_h_mgmt` reads. -/
def mgmtReads (d : List UInt8) : List (ℕ × ℕ) :=
  let stype := frameControl d &&& 0x00f0
  (0, 2) ::
    if stype = 0xc0 ∨ stype = 0xa0 then
      (4, 1) :: if isMulticastEtherAddr d then [(4, 6)] else []
    else []

/-! ### The work of the interface -/

/-- `enum work_action`. -/
inductive WorkAction
  | mismatch | none | timeout | done | associat | deauthen
deriving DecidableEq

/-- The state of the interface when the work runs; `sta_info_get` finds a station or not. -/
structure Work where
  enabled : Bool
  type : Nl80211Iftype
  staInfoGet : List UInt8 → Bool

/-- `ieee80211_rx_mgmt_auth`, with what it reads. -/
def rxMgmtAuth (d : List UInt8) : WorkAction × List (ℕ × ℕ) :=
  if le16At d 28 ≠ 0 then (.done, [(24, 2), (26, 2), (28, 2), (10, 6)])
  else (.associat, [(24, 2), (26, 2), (28, 2)])

/-- `ieee80211_rx_mgmt_assoc_resp`, with what it reads. -/
def rxMgmtAssocResp (d : List UInt8) : WorkAction × List (ℕ × ℕ) :=
  if d.length < 24 + 6 then (.none, [])
  else
    (.done, [(24, 2), (26, 2), (28, 2), (10, 6)] ++
      if le16At d 26 ≠ 0 then [(10, 6)] else [(16, 6)])

/-- The switch over the action at the end of `ieee80211_sta_rx_queued_mgmt` warns. -/
def WorkAction.unexpected : WorkAction → Bool
  | .none | .associat | .deauthen => false
  | _ => true

/-- `ieee80211_sta_rx_queued_mgmt`. -/
def staRxQueuedMgmt (d : List UInt8) : Visit :=
  let stype := frameControl d &&& 0x00f0
  let (rma, reads) :=
    if stype = 0x80 ∨ stype = 0x50 then (WorkAction.none, [])
    else if stype = 0xb0 then rxMgmtAuth d
    else if stype = 0x10 then rxMgmtAssocResp d
    else if stype = 0xc0 ∨ stype = 0xa0 then (.deauthen, [])
    else (.none, [])
  ⟨d.length, (0, 2) :: reads, rma.unexpected⟩

/-- What `ieee80211_process_addba_request` reads: `dialog_token`, `timeout`, `start_seq_num` and
`capab`. -/
def processAddbaRequestReads : List (ℕ × ℕ) := [(26, 1), (29, 2), (31, 2), (27, 2)]

/-- What `ieee80211_process_delba` reads: `params`. -/
def processDelbaReads : List (ℕ × ℕ) := [(26, 2)]

/-- The block ack actions of a station that is known. -/
def backWork (work : Work) (d : List UInt8) : List (ℕ × ℕ) × Bool :=
  if ¬ work.staInfoGet (etherAddrAt d 10) then ([], false)
  else
    match byteAt d 25 with
    | 0 => ((25, 1) :: processAddbaRequestReads, false)
    | 2 => ((25, 1) :: processDelbaReads, false)
    | _ => ([(25, 1)], true)

/-- The loop of `ieee80211_iface_work`, for one frame. -/
def ieee80211IfaceWork (work : Work) (d : List UInt8) : Visit :=
  let fc := frameControl d
  if ieee80211IsAction fc ∧ byteAt d 24 = 3 then
    let r := backWork work d
    ⟨d.length, [(0, 2), (24, 1), (10, 6)] ++ r.1, r.2⟩
  else
    let reads := (0, 2) :: if ieee80211IsAction fc then [(24, 1)] else []
    if ieee80211IsDataQos fc then ⟨d.length, reads, true⟩
    else if ieee80211IsMgmt fc then
      match work.type with
      | .ap | .p2pGo => ⟨d.length, reads, false⟩
      | .station =>
        let v := staRxQueuedMgmt d
        ⟨d.length, reads ++ v.reads, v.warns⟩
      | _ => ⟨d.length, reads, true⟩
    else ⟨d.length, reads, false⟩

/-! ### The way of a frame -/

/-- The call has put the frame on the queue. -/
def Call.queues (c : Call) : Bool :=
  c.uses.any fun
    | .queueTail _ => true
    | _ => false

/-- The work on the frame of a call, if it is queued and the interface is enabled. -/
def workVisits (work : Work) (c : Call) : List Visit :=
  if c.queues ∧ work.enabled then [ieee80211IfaceWork work c.rx.skb.data] else []

/-- From `ieee80211_rx_h_action` on. -/
def handlerVisits (work : Work) (rx : RxData) : List Visit :=
  ⟨rx.skb.data.length, actionReads rx, false⟩ ::
    if (rxHAction rx).res = .cont then
      ⟨rx.skb.data.length, mgmtReads rx.skb.data, false⟩ :: workVisits work (rxHMgmt rx)
    else workVisits work (rxHAction rx)

/-- A frame as it comes to `ieee80211_rx_h_check`, and its queue index. -/
def atCheck (linearize : Bool) (vif : Vif) (skb : RxSkb) : Option (RxSkb × ℕ) :=
  let fc := frameControl skb.data
  if ieee80211IsMgmt fc ∧ ¬ linearize ∨
      ¬ ieee80211IsMgmt fc ∧ skb.data.length < ieee80211Hdrlen fc then none
  else
    let r := ieee80211ParseQos skb
    (prepareForHandlers vif { r.1 with raMatch := true }).map fun skb => (skb, r.2)

/-- The handlers before `ieee80211_rx_h_action`. -/
def handlersFirst (env : RxEnv) : List (RxData → Option Call) :=
  handlersBefore env ++ [called (rxHData env)]

/-- A received frame as it comes to `ieee80211_rx_h_check`. -/
def receivedAtCheck (linearize : Bool) (vif : Vif) (status : ℕ) (d : List UInt8) :
    Option (RxSkb × ℕ) :=
  (atbmRxCb status d).bind (atCheck linearize vif)

/-- **The visits of a received management frame**, from the check on; the reorder buffer hands it on
at once. -/
def visits (linearize : Bool) (env : RxEnv) (vif : Vif) (sta : Option StaInfo) (work : Work)
    (status : ℕ) (d : List UInt8) : List Visit :=
  match receivedAtCheck linearize vif status d with
  | none => []
  | some (skb, seqnoIdx) =>
    let r := ieee80211RxHCheck sta seqnoIdx skb.data
    ⟨skb.data.length, checkReads sta seqnoIdx skb.data, false⟩ ::
      if r.2 then
        match passes (handlersFirst env) ⟨skb, vif, r.1, none, []⟩ with
        | none => []
        | some rx => handlerVisits work rx
      else []

theorem rxHandlePacket_snd (linearize : Bool) (vif : Vif) (sta : Option StaInfo) (skb : RxSkb) :
    (rxHandlePacket linearize vif sta skb).2 =
      (atCheck linearize vif skb).bind fun p =>
        if (ieee80211RxHCheck sta p.2 p.1.data).2 then some p.1 else none := by
  unfold rxHandlePacket atCheck
  dsimp only
  split_ifs
  · rfl
  · rcases prepareForHandlers vif { (ieee80211ParseQos skb).1 with raMatch := true } with _ | skb'
    · rfl
    · rcases hcheck : ieee80211RxHCheck sta (ieee80211ParseQos skb).2 skb'.data with
        ⟨sta', _ | _⟩ <;> simp [hcheck]

/-! ### Reads that are always inside -/

section

variable {rx : RxData} {work : Work} {len : ℕ} {l m : List (ℕ × ℕ)}

theorem inside_nil : Inside len [] := List.forall_mem_nil _

theorem inside_cons {off n : ℕ} : Inside len ((off, n) :: l) ↔ off + n ≤ len ∧ Inside len l :=
  List.forall_mem_cons

theorem inside_append : Inside len (l ++ m) ↔ Inside len l ∧ Inside len m := List.forall_mem_append

theorem inside_ite {p : Prop} [Decidable p] (hl : p → Inside len l) (hm : ¬ p → Inside len m) :
    Inside len (if p then l else m) := by
  by_cases h : p
  · rw [if_pos h]
    exact hl h
  · rw [if_neg h]
    exact hm h

/-- **The check** reads the sequence control of a frame for us from a station that is known. -/
theorem checkReads_inside (sta : Option StaInfo) (i : ℕ) {d : List UInt8} (hlen : 16 ≤ d.length) :
    Inside d.length (checkReads sta i d) ↔
      ¬ (sta.isSome = true ∧ isMulticastEtherAddr d = false ∧ d.length < 24) := by
  have hrest : Inside d.length
      (if droppedAsDuplicate sta i d ∨ d.length < 16 then [] else [(0, 2)]) :=
    inside_ite (fun _ => inside_nil) fun _ => inside_cons.mpr ⟨by omega, inside_nil⟩
  rw [checkReads, inside_append, and_iff_left hrest]
  by_cases hsta : sta.isSome = true
  swap
  · rw [if_neg hsta]
    exact iff_of_true inside_nil fun h => hsta h.1
  rw [if_pos hsta, inside_cons]
  by_cases hmulti : isMulticastEtherAddr d = true
  · rw [if_neg (not_not.mpr hmulti)]
    exact iff_of_true ⟨by omega, inside_nil⟩ fun h => Bool.noConfusion (hmulti.symm.trans h.2.1)
  · have hclear := Bool.eq_false_iff.mpr hmulti
    rw [if_pos hmulti, inside_cons, inside_cons]
    constructor
    · rintro ⟨-, -, hseq, -⟩ ⟨-, -, hshort⟩
      omega
    · intro h
      have hlong : ¬ d.length < 24 := fun hshort => h ⟨hsta, hclear, hshort⟩
      exact ⟨by omega, by omega, by omega, inside_nil⟩

theorem actionReads_inside (rx : RxData) (hlen : 2 ≤ rx.skb.data.length) :
    Inside rx.skb.data.length (actionReads rx) := by
  refine inside_cons.mpr ⟨by omega, inside_ite (fun _ => inside_nil) fun haction => ?_⟩
  have hcategory : 25 ≤ rx.skb.data.length := by
    by_contra hshort
    exact haction (Or.inr (by omega))
  have hread : Inside rx.skb.data.length [(24, 1)] :=
    inside_cons.mpr ⟨by omega, inside_nil⟩
  refine inside_append.mpr ⟨inside_ite (fun _ => hread) fun _ => inside_nil, ?_⟩
  refine inside_ite (fun _ => inside_nil) fun _ => inside_cons.mpr ⟨by omega, ?_⟩
  refine inside_ite (fun _ => inside_nil) fun hback => inside_cons.mpr ⟨?_, inside_nil⟩
  by_contra hshort
  exact hback (Or.inr (Or.inr (by omega)))

theorem mgmtReads_inside {d : List UInt8} (hlen : 2 ≤ d.length)
    (hlong : frameControl d &&& 0x00f0 = 0xc0 ∨ frameControl d &&& 0x00f0 = 0xa0 →
      16 ≤ d.length) : Inside d.length (mgmtReads d) := by
  refine inside_cons.mpr ⟨by omega, inside_ite (fun hend => ?_) fun _ => inside_nil⟩
  have := hlong hend
  exact inside_cons.mpr ⟨by omega,
    inside_ite (fun _ => inside_cons.mpr ⟨by omega, inside_nil⟩) fun _ => inside_nil⟩

/-! ### What is queued -/

/-- A block ack action that is queued. -/
structure QueuedAction (rx : RxData) : Prop where
  action : ieee80211IsAction (frameControl rx.skb.data) = true
  known : rx.sta.isSome = true
  raMatch : rx.skb.raMatch = true
  category : byteAt rx.skb.data 24 = 3
  mode : rx.vif.type = .station ∨ rx.vif.type = .apVlan ∨ rx.vif.type = .ap
  long : ∃ size, backActionSize (byteAt rx.skb.data 25) = some size ∧
    25 + size ≤ rx.skb.data.length

theorem rxHAction_queued (h : QueuedAction rx) : rxHAction rx = .queue rx := by
  obtain ⟨size, hsize, hlong⟩ := h.long
  have hpos : 1 < size := by
    unfold backActionSize at hsize
    split at hsize <;> cases hsize <;> omega
  have hknown : ¬ (rx.sta.isNone = true ∧ byteAt rx.skb.data 24 ≠ 4) := by
    rw [Option.isNone_iff_eq_none]
    intro hnone
    have hsome := h.known
    rw [hnone.1] at hsome
    cases hsome
  have hmode : ¬ (rx.vif.type ≠ .station ∧ rx.vif.type ≠ .apVlan ∧ rx.vif.type ≠ .ap) := by
    rintro ⟨hstation, hvlan, hap⟩
    rcases h.mode with htype | htype | htype
    · exact hstation htype
    · exact hvlan htype
    · exact hap htype
  unfold rxHAction
  dsimp only
  rw [if_neg (not_not.mpr h.action), if_neg (by omega), if_neg hknown,
    if_neg (not_not.mpr h.raMatch), if_neg (not_not.mpr h.category), if_neg hmode,
    if_neg (by omega), hsize]
  exact if_neg (by omega)

theorem rxHAction_other (haction : ieee80211IsAction (frameControl rx.skb.data) = true)
    (h : ¬ QueuedAction rx) : (∃ res, rxHAction rx = .back res rx) ∨
      rxHAction rx = ⟨.queued, rx, [.read .skb, .kfree .skb]⟩ := by
  unfold rxHAction
  dsimp only
  rw [if_neg (not_not.mpr haction)]
  by_cases hshort : rx.skb.data.length < 25
  · rw [if_pos hshort]
    exact Or.inl ⟨_, rfl⟩
  rw [if_neg hshort]
  by_cases hunknown : rx.sta.isNone = true ∧ byteAt rx.skb.data 24 ≠ 4
  · rw [if_pos hunknown]
    exact Or.inl ⟨_, rfl⟩
  rw [if_neg hunknown]
  by_cases hra : rx.skb.raMatch = true
  swap
  · rw [if_pos hra]
    exact Or.inl ⟨_, rfl⟩
  rw [if_neg (not_not.mpr hra)]
  by_cases hcategory : byteAt rx.skb.data 24 = 3
  swap
  · rw [if_pos hcategory]
    exact Or.inr rfl
  rw [if_neg (not_not.mpr hcategory)]
  by_cases hmode : rx.vif.type ≠ .station ∧ rx.vif.type ≠ .apVlan ∧ rx.vif.type ≠ .ap
  · rw [if_pos hmode]
    exact Or.inl ⟨_, rfl⟩
  rw [if_neg hmode]
  by_cases hcode : rx.skb.data.length < 25 + 1
  · rw [if_pos hcode]
    exact Or.inl ⟨_, rfl⟩
  rw [if_neg hcode]
  rcases hsize : backActionSize (byteAt rx.skb.data 25) with _ | size
  · exact Or.inl ⟨_, rfl⟩
  dsimp only
  by_cases hlong : rx.skb.data.length < 25 + size
  · rw [if_pos hlong]
    exact Or.inl ⟨_, rfl⟩
  -- what is left is queued
  refine absurd ⟨haction, ?_, hra, hcategory, ?_, size, hsize, by omega⟩ h
  · rw [← Option.not_isNone, Bool.not_eq_true']
    by_contra hnone
    exact hunknown ⟨Bool.eq_true_of_not_eq_false hnone, by omega⟩
  · by_contra hno
    exact hmode ⟨fun h => hno (Or.inl h), fun h => hno (Or.inr (Or.inl h)),
      fun h => hno (Or.inr (Or.inr h))⟩

theorem stype_action {fc : ℕ} (h : ieee80211IsAction fc = true) : fc &&& 0x00f0 = 0xd0 := by
  unfold ieee80211IsAction at h
  exact mask_part (beq_iff_eq.mp h) rfl

theorem stype_auth {fc : ℕ} (h : ieee80211IsAuth fc = true) : fc &&& 0x00f0 = 0xb0 := by
  unfold ieee80211IsAuth at h
  exact mask_part (beq_iff_eq.mp h) rfl

/-- The subtypes that `ieee80211_rx_h_mgmt` queues. -/
def queuedStypes : List ℕ := [0x80, 0x50, 0xc0, 0xa0, 0x40, 0xb0, 0x10]

theorem rxHMgmt_path (rx : RxData) :
    (frameControl rx.skb.data &&& 0x00f0 ∈ queuedStypes ∧ rxHMgmt rx = .queue rx) ∨
    (frameControl rx.skb.data &&& 0x00f0 ≠ 0xb0 ∧ frameControl rx.skb.data &&& 0x00f0 ≠ 0x10 ∧
      rxHMgmt rx = .back .dropMonitor rx) := by
  unfold rxHMgmt queuedStypes
  dsimp only
  generalize frameControl rx.skb.data &&& 0x00f0 = stype
  by_cases hbeacon : stype = 0x80 ∨ stype = 0x50
  · rw [if_pos hbeacon]
    exact Or.inl ⟨by simp; omega, rfl⟩
  rw [if_neg hbeacon]
  by_cases hend : stype = 0xc0 ∨ stype = 0xa0
  · rw [if_pos hend]
    by_cases hgroup : isMulticastEtherAddr rx.skb.data = true ∧
        ¬ isBroadcastEtherAddr rx.skb.data = true
    · rw [if_pos hgroup]
      exact Or.inr ⟨by omega, by omega, rfl⟩
    rw [if_neg hgroup]
    by_cases htype : rx.vif.type ≠ .station
    · rw [if_pos htype]
      exact Or.inr ⟨by omega, by omega, rfl⟩
    · rw [if_neg htype]
      exact Or.inl ⟨by simp; omega, rfl⟩
  rw [if_neg hend]
  by_cases hrest : stype = 0x40 ∨ stype = 0xb0 ∨ stype = 0x10
  · rw [if_pos hrest]
    exact Or.inl ⟨by simp; omega, rfl⟩
  · rw [if_neg hrest]
    exact Or.inr ⟨by omega, by omega, rfl⟩

/-! ### The work -/

/-- **A frame that the work does not expect.** -/
inductive Unexpected (work : Work) (rx : RxData) : Prop
  /-- a block ack response of a station that is known -/
  | addbaResp (h : QueuedAction rx) (hcode : byteAt rx.skb.data 25 = 1)
      (hsta : work.staInfoGet (etherAddrAt rx.skb.data 10) = true)
  /-- an authentication that has no status, or none of success -/
  | auth (hstation : work.type = .station) (h : frameControl rx.skb.data &&& 0x00f0 = 0xb0)
      (hstatus : rx.skb.data.length < 30 ∨ le16At rx.skb.data 28 ≠ 0)
  /-- an association response -/
  | assocResp (hstation : work.type = .station)
      (h : frameControl rx.skb.data &&& 0x00f0 = 0x10) (hlong : 30 ≤ rx.skb.data.length)

theorem ifaceWork_action (work : Work) (h : QueuedAction rx) :
    (ieee80211IfaceWork work rx.skb.data).Safe ↔ ¬ (byteAt rx.skb.data 25 = 1 ∧
      work.staInfoGet (etherAddrAt rx.skb.data 10) = true) := by
  obtain ⟨size, hsize, hlong⟩ := h.long
  unfold ieee80211IfaceWork Visit.Safe
  dsimp only
  rw [if_pos ⟨h.action, h.category⟩]
  dsimp only
  unfold backWork
  by_cases hsta : work.staInfoGet (etherAddrAt rx.skb.data 10) = true
  swap
  · rw [if_pos hsta]
    refine iff_of_true ⟨?_, rfl⟩ fun h => hsta h.2
    rw [List.append_nil, inside_cons, inside_cons, inside_cons]
    have hpos : 1 < size := by
      unfold backActionSize at hsize
      split at hsize <;> cases hsize <;> omega
    exact ⟨by omega, by omega, by omega, inside_nil⟩
  rw [if_neg (not_not.mpr hsta), and_iff_left hsta]
  generalize byteAt rx.skb.data 25 = code at hsize
  unfold backActionSize at hsize
  split at hsize <;> cases hsize
  · refine iff_of_true ⟨?_, rfl⟩ (by omega)
    simp only [processAddbaRequestReads, List.cons_append, List.nil_append, inside_cons]
    exact ⟨by omega, by omega, by omega, by omega, by omega, by omega, by omega, by omega,
      inside_nil⟩
  · exact iff_of_false (fun h => Bool.noConfusion h.2) (not_not.mpr rfl)
  · refine iff_of_true ⟨?_, rfl⟩ (by omega)
    simp only [processDelbaReads, List.cons_append, List.nil_append, inside_cons]
    exact ⟨by omega, by omega, by omega, by omega, by omega, inside_nil⟩

theorem staRxQueuedMgmt_safe {d : List UInt8} (hlen : 2 ≤ d.length) :
    (staRxQueuedMgmt d).Safe ↔
      ¬ (frameControl d &&& 0x00f0 = 0xb0 ∧ (d.length < 30 ∨ le16At d 28 ≠ 0)) ∧
      ¬ (frameControl d &&& 0x00f0 = 0x10 ∧ 30 ≤ d.length) := by
  have hfc : Inside d.length [(0, 2)] := inside_cons.mpr ⟨by omega, inside_nil⟩
  unfold staRxQueuedMgmt Visit.Safe
  dsimp only
  generalize frameControl d &&& 0x00f0 = stype
  by_cases hbeacon : stype = 0x80 ∨ stype = 0x50
  · rw [if_pos hbeacon]
    exact iff_of_true ⟨hfc, rfl⟩ ⟨by omega, by omega⟩
  rw [if_neg hbeacon]
  by_cases hauth : stype = 0xb0
  · have hassoc : ¬ (stype = 0x10 ∧ 30 ≤ d.length) := by omega
    rw [if_pos hauth, rxMgmtAuth, and_iff_left hassoc]
    by_cases hstatus : le16At d 28 = 0
    · rw [if_neg (not_not.mpr hstatus)]
      simp only [inside_cons]
      constructor
      · rintro ⟨⟨-, -, -, hread, -⟩, -⟩ ⟨-, hshort | hdenied⟩
        · omega
        · exact hdenied hstatus
      · intro h
        have hlong : ¬ d.length < 30 := fun hshort => h ⟨hauth, Or.inl hshort⟩
        exact ⟨⟨by omega, by omega, by omega, by omega, inside_nil⟩, rfl⟩
    · rw [if_pos hstatus]
      exact iff_of_false (fun h => Bool.noConfusion h.2) (not_not.mpr ⟨hauth, Or.inr hstatus⟩)
  rw [if_neg hauth, and_iff_right (fun h => hauth h.1)]
  by_cases hassoc : stype = 0x10
  · rw [if_pos hassoc, rxMgmtAssocResp]
    by_cases hshort : d.length < 24 + 6
    · rw [if_pos hshort]
      exact iff_of_true ⟨hfc, rfl⟩ fun h => by omega
    · rw [if_neg hshort]
      exact iff_of_false (fun h => Bool.noConfusion h.2) (not_not.mpr ⟨hassoc, by omega⟩)
  rw [if_neg hassoc]
  have hsafe : ∀ rma : WorkAction, rma.unexpected = false →
      (Inside d.length [(0, 2)] ∧ rma.unexpected = false ↔ ¬ (stype = 0x10 ∧ 30 ≤ d.length)) :=
    fun rma hrma => iff_of_true ⟨hfc, hrma⟩ fun h => hassoc h.1
  by_cases hend : stype = 0xc0 ∨ stype = 0xa0
  · rw [if_pos hend]
    exact hsafe .deauthen rfl
  · rw [if_neg hend]
    exact hsafe .none rfl

/-- **The work on a management frame** that is not a block ack action. -/
theorem ifaceWork_mgmt (hmode : work.type = .station ∨ work.type = .ap) {d : List UInt8}
    (hlen : 2 ≤ d.length) (hmgmt : ieee80211IsMgmt (frameControl d) = true)
    (haction : ieee80211IsAction (frameControl d) = false) :
    (ieee80211IfaceWork work d).Safe ↔ (work.type = .station →
      ¬ (frameControl d &&& 0x00f0 = 0xb0 ∧ (d.length < 30 ∨ le16At d 28 ≠ 0)) ∧
      ¬ (frameControl d &&& 0x00f0 = 0x10 ∧ 30 ≤ d.length)) := by
  unfold ieee80211IfaceWork
  dsimp only
  rw [haction, isDataQos_of_mgmt hmgmt, hmgmt, if_neg (fun h => Bool.noConfusion h.1),
    if_neg Bool.false_ne_true, if_neg Bool.false_ne_true, if_pos rfl]
  have hfc : Inside d.length [(0, 2)] := inside_cons.mpr ⟨by omega, inside_nil⟩
  rcases hmode with htype | htype
  · rw [htype, ← staRxQueuedMgmt_safe hlen]
    show Inside d.length ([(0, 2)] ++ (staRxQueuedMgmt d).reads) ∧ _ ↔ _
    rw [inside_append, and_iff_right hfc]
    exact ⟨fun h _ => h, fun h => h rfl⟩
  · rw [htype]
    exact iff_of_true ⟨hfc, rfl⟩ nofun

/-! ### From the action handler on -/

/-- A management frame as the first handlers leave it. -/
structure Held (d : List UInt8) : Prop where
  mgmt : ieee80211IsMgmt (frameControl d) = true
  long : 8 ≤ d.length
  longer : ieee80211IsAuth (frameControl d) = false → 16 ≤ d.length

theorem workVisits_back (work : Work) (res : RxResult) (rx : RxData) :
    workVisits work (.back res rx) = [] := if_neg fun h => Bool.noConfusion h.1

theorem workVisits_queue (work : Work) (rx : RxData) :
    SafeVisits (workVisits work (.queue rx)) ↔
      (work.enabled = true → (ieee80211IfaceWork work rx.skb.data).Safe) := by
  unfold workVisits
  have hqueues : (Call.queue rx).queues = true := rfl
  rw [hqueues]
  by_cases henabled : work.enabled = true
  · rw [if_pos ⟨rfl, henabled⟩, safeVisits_cons, and_iff_left safeVisits_nil]
    exact ⟨fun h _ => h, fun h => h henabled⟩
  · rw [if_neg fun h => henabled h.2]
    exact iff_of_true safeVisits_nil fun h => absurd h henabled

theorem unexpected_iff (haction : ieee80211IsAction (frameControl rx.skb.data) = false) :
    ¬ Unexpected work rx ↔ (work.type = .station →
      ¬ (frameControl rx.skb.data &&& 0x00f0 = 0xb0 ∧
        (rx.skb.data.length < 30 ∨ le16At rx.skb.data 28 ≠ 0)) ∧
      ¬ (frameControl rx.skb.data &&& 0x00f0 = 0x10 ∧ 30 ≤ rx.skb.data.length)) := by
  constructor
  · intro h hstation
    exact ⟨fun hauth => h (.auth hstation hauth.1 hauth.2),
      fun hassoc => h (.assocResp hstation hassoc.1 hassoc.2)⟩
  · intro h hun
    cases hun with
    | addbaResp hqueued => cases haction.symm.trans hqueued.action
    | auth hstation hstype hstatus => exact (h hstation).1 ⟨hstype, hstatus⟩
    | assocResp hstation hstype hlong => exact (h hstation).2 ⟨hstype, hlong⟩

/-- An action is unexpected only if it is queued. -/
theorem not_unexpected_action (haction : ieee80211IsAction (frameControl rx.skb.data) = true)
    (hqueued : ¬ QueuedAction rx) : ¬ Unexpected work rx := by
  have hstype := stype_action haction
  intro hun
  cases hun with
  | addbaResp h => exact hqueued h
  | auth _ h => rw [hstype] at h; cases h
  | assocResp _ h => rw [hstype] at h; cases h

/-- **The handlers from the action handler on, and the work**, are safe on what they expect. -/
theorem handlerVisits_safe (hmode : work.type = .station ∨ work.type = .ap)
    (h : Held rx.skb.data) :
    SafeVisits (handlerVisits work rx) ↔ (work.enabled = true → ¬ Unexpected work rx) := by
  have hlen : 2 ≤ rx.skb.data.length := by
    have := h.long
    omega
  have hmgmtReads : Inside rx.skb.data.length (mgmtReads rx.skb.data) := by
    refine mgmtReads_inside hlen fun hend => h.longer ?_
    by_contra hauth
    have hstype := stype_auth (Bool.eq_true_of_not_eq_false hauth)
    omega
  unfold handlerVisits
  rw [safeVisits_cons, and_iff_right ⟨actionReads_inside rx hlen, rfl⟩]
  by_cases haction : ieee80211IsAction (frameControl rx.skb.data) = true
  swap
  · have hpath : rxHAction rx = .back .cont rx := if_pos haction
    have hcont : (rxHAction rx).res = .cont := by rw [hpath]; rfl
    have hother := Bool.eq_false_iff.mpr haction
    rw [if_pos hcont, safeVisits_cons, and_iff_right ⟨hmgmtReads, rfl⟩, unexpected_iff hother]
    obtain ⟨-, hmgmt⟩ | ⟨hauth, hassoc, hmgmt⟩ := rxHMgmt_path rx
    · rw [hmgmt, workVisits_queue, ifaceWork_mgmt hmode hlen h.mgmt hother]
    · rw [hmgmt, workVisits_back]
      exact iff_of_true safeVisits_nil
        fun _ _ => ⟨fun h => hauth h.1, fun h => hassoc h.1⟩
  have hstype := stype_action haction
  by_cases hqueued : QueuedAction rx
  · have hpath := rxHAction_queued hqueued
    have hres : (rxHAction rx).res ≠ .cont := by rw [hpath]; exact nofun
    rw [if_neg hres, hpath, workVisits_queue, ifaceWork_action work hqueued]
    refine imp_congr_right fun _ => not_congr ⟨fun h => .addbaResp hqueued h.1 h.2, fun hun => ?_⟩
    cases hun with
    | addbaResp _ hcode hsta => exact ⟨hcode, hsta⟩
    | auth _ h => rw [hstype] at h; cases h
    | assocResp _ h => rw [hstype] at h; cases h
  · refine iff_of_true ?_ fun _ => not_unexpected_action haction hqueued
    have hmgmt : rxHMgmt rx = .back .dropMonitor rx := by
      obtain ⟨hmem, -⟩ | ⟨-, -, hmgmt⟩ := rxHMgmt_path rx
      · rw [hstype] at hmem
        exact absurd hmem (by decide)
      · exact hmgmt
    rw [hmgmt, workVisits_back]
    obtain ⟨res, hpath⟩ | hpath := rxHAction_other haction hqueued
    · rw [hpath, workVisits_back]
      split_ifs
      · exact safeVisits_cons.mpr ⟨⟨hmgmtReads, rfl⟩, safeVisits_nil⟩
      · exact safeVisits_nil
    · rw [hpath]
      exact safeVisits_nil

/-! ### The first handlers -/

theorem Held.take {d : List UInt8} (h : Held d) {n : ℕ} (hn : 16 ≤ n) (hd : n ≤ d.length) :
    Held (d.take n) := by
  have hlen : (d.take n).length = n := List.length_take_of_le hd
  refine ⟨?_, by omega, fun _ => by omega⟩
  rw [frameControl_take (by omega)]
  exact h.mgmt

/-- The handler of a cipher on a management frame that it lets pass. -/
def Passed (r : RxResult × RxData) : Prop := r.1 = .cont → Held r.2.skb.data

theorem passed_cryptoWepDecrypt (h : Held rx.skb.data) (hlen : 16 ≤ rx.skb.data.length) :
    Passed (cryptoWepDecrypt rx) := by
  have hmgmt := h.mgmt
  unfold cryptoWepDecrypt
  dsimp only
  rw [isData_of_mgmt hmgmt]
  by_cases hauth : ieee80211IsAuth (frameControl rx.skb.data) = true
  swap
  · rw [if_pos ⟨Bool.false_ne_true, hauth⟩]
    exact fun _ => h
  rw [if_neg fun hno => hno.2 hauth]
  by_cases hdec : ¬ rx.skb.decrypted = true
  · rw [if_pos hdec]
    exact nofun
  rw [if_neg hdec]
  by_cases hiv : rx.skb.ivStripped = true
  · rw [if_pos hiv]
    exact fun _ => h
  rw [if_neg hiv]
  intro _
  -- the IV and the ICV are taken off
  have hmoved := length_moveHeader rx.skb.data (ieee80211Hdrlen (frameControl rx.skb.data)) 4
  have hfc : frameControl ((moveHeader rx.skb.data
      (ieee80211Hdrlen (frameControl rx.skb.data)) 4).take (rx.skb.data.length - 4 - 4)) =
        frameControl rx.skb.data := by
    rw [frameControl_take (by omega), frameControl_moveHeader (by rw [hdrlen_mgmt hmgmt]; omega)
      (by omega)]
  show Held (List.take _ _)
  rw [hmoved]
  refine ⟨by rw [hfc]; exact hmgmt, ?_, fun hno => ?_⟩
  · rw [List.length_take, hmoved]
    omega
  · rw [hfc, hauth] at hno
    cases hno

theorem passed_cryptoTkipDecrypt (h : Held rx.skb.data) : Passed (cryptoTkipDecrypt rx) := by
  unfold cryptoTkipDecrypt
  dsimp only
  rw [isData_of_mgmt h.mgmt, if_pos Bool.false_ne_true]
  exact fun _ => h

theorem passed_cryptoCcmpDecrypt (h : Held rx.skb.data) : Passed (cryptoCcmpDecrypt rx) := by
  have hmgmt := h.mgmt
  unfold cryptoCcmpDecrypt
  dsimp only
  rw [isData_of_mgmt hmgmt, hdrlen_mgmt hmgmt]
  by_cases hrobust : ieee80211IsRobustMgmtFrame rx.skb.data = true
  swap
  · rw [if_pos ⟨Bool.false_ne_true, hrobust⟩]
    exact fun _ => h
  rw [if_neg fun hno => hno.2 hrobust]
  by_cases hshort : rx.skb.data.length < 24 + 8 + 8
  · rw [if_pos hshort]
    exact nofun
  rw [if_neg hshort]
  intro _
  have htake := h.take (n := rx.skb.data.length - 8) (by omega) (by omega)
  have htaken : (rx.skb.data.take (rx.skb.data.length - 8)).length = rx.skb.data.length - 8 :=
    List.length_take_of_le (by omega)
  have hmoved := length_moveHeader (rx.skb.data.take (rx.skb.data.length - 8)) 24 8
  show Held (moveHeader _ 24 8)
  refine ⟨?_, by omega, fun _ => by omega⟩
  rw [frameControl_moveHeader (by omega) (by omega)]
  exact htake.mgmt

theorem passed_cryptoAesCmacDecrypt (h : Held rx.skb.data) : Passed (cryptoAesCmacDecrypt rx) := by
  unfold cryptoAesCmacDecrypt
  dsimp only
  rw [if_neg (not_not.mpr h.mgmt)]
  by_cases hshort : rx.skb.data.length < 24 + 18
  · rw [if_pos hshort]
    exact nofun
  rw [if_neg hshort]
  by_cases hmmie : byteAt rx.skb.data (rx.skb.data.length - 18) ≠ 76 ∨
      byteAt rx.skb.data (rx.skb.data.length - 17) ≠ 16
  · rw [if_pos hmmie]
    exact nofun
  rw [if_neg hmmie]
  exact fun _ => h.take (by omega) (by omega)

theorem passed_cryptoDecrypt (h : Held rx.skb.data) (hlen : 16 ≤ rx.skb.data.length)
    (key : EncType) : Passed (cryptoDecrypt key rx) := by
  have hreplay : ∀ isCcmp (decrypt : RxData → RxResult × RxData),
      (∀ rx' : RxData, rx'.skb = rx.skb → Passed (decrypt rx')) →
        Passed (withReplaycnt rx isCcmp decrypt) := by
    intro isCcmp decrypt hdecrypt
    unfold withReplaycnt
    dsimp only
    split_ifs
    · exact nofun
    · exact hdecrypt _ rfl
  cases key with
  | unset => exact nofun
  | type => exact nofun
  | wep => exact passed_cryptoWepDecrypt h hlen
  | tkip =>
    exact hreplay false _ fun rx' hskb =>
      passed_cryptoTkipDecrypt (by rw [hskb]; exact h)
  | aes =>
    exact hreplay true _ fun rx' hskb =>
      passed_cryptoCcmpDecrypt (by rw [hskb]; exact h)
  | aesCmac => exact passed_cryptoAesCmacDecrypt h
  | wapi => exact nofun

theorem passes_called {h : RxData → Handled} {hs : List (RxData → Option Call)} {rx' : RxData}
    (hp : passes (called h :: hs) rx = some rx') :
    ∃ rx₁, h { rx with log := [] } = some (.cont, rx₁) ∧ passes hs rx₁ = some rx' := by
  rw [passes] at hp
  obtain ⟨c, hc, hp⟩ := Option.bind_eq_some_iff.mp hp
  obtain ⟨hcont, hp⟩ := Option.ite_none_right_eq_some.mp hp
  obtain ⟨⟨res, rx₁⟩, hr, rfl⟩ := Option.map_eq_some_iff.mp hc
  obtain rfl : res = .cont := hcont
  exact ⟨rx₁, hr, hp⟩

theorem staProcess_cont {rx' : RxData} (h : rxHStaProcess rx = some (.cont, rx')) : rx' = rx := by
  unfold rxHStaProcess at h
  dsimp only at h
  split_ifs at h <;> cases h <;> rfl

theorem michaelMicVerify_mgmt {rx' : RxData} (h : rxHMichaelMicVerify rx = some (.cont, rx'))
    (hmgmt : ieee80211IsMgmt (frameControl rx.skb.data) = true) : rx' = rx := by
  unfold rxHMichaelMicVerify at h
  dsimp only at h
  rw [isDataPresent_of_mgmt hmgmt, if_pos Bool.false_ne_true] at h
  split_ifs at h <;> cases h <;> rfl

/-- **The handlers in front of the action handler** keep a management frame. -/
theorem held_of_passes {env : RxEnv} {vif : Vif} {sta : Option StaInfo} {skb : RxSkb}
    (h : Held skb.data) (hlen : 16 ≤ skb.data.length)
    (hp : passes (handlersFirst env) ⟨skb, vif, sta, none, []⟩ = some rx) : Held rx.skb.data := by
  obtain ⟨rx₁, hdecrypt, hp⟩ := passes_called hp
  have h₁ : Held rx₁.skb.data := by
    have heq := rxHDecrypt_eq env vif sta skb
    rw [show rxHDecrypt env ⟨skb, vif, sta, none, []⟩ = _ from hdecrypt] at heq
    rcases hkey : keyOf env vif sta skb with _ | key
    · rw [hkey] at heq
      obtain rfl : rx₁ = _ := congrArg Prod.snd (Option.some.inj heq)
      exact h
    · rw [hkey] at heq
      have hpassed := @passed_cryptoDecrypt ⟨skb, vif, sta, some key, []⟩ h hlen key
      rw [← Option.some.inj heq] at hpassed
      exact hpassed rfl
  obtain ⟨rx₂, hsta, hp⟩ := passes_called hp
  have h₂ : Held rx₂.skb.data := by
    rw [staProcess_cont hsta]
    exact h₁
  obtain ⟨rx₃, hmic, hp⟩ := passes_called hp
  have h₃ : Held rx₃.skb.data := by
    rw [michaelMicVerify_mgmt hmic h₂.mgmt]
    exact h₂
  obtain ⟨rx₄, hqos, hp⟩ := passes_called hp
  have h₄ : Held rx₄.skb.data := by
    have hremove : removeQosControl rx₃.skb.data = rx₃.skb.data := by
      rw [removeQosControl, isDataQos_of_mgmt h₃.mgmt]
      rfl
    obtain rfl : _ = rx₄ := congrArg Prod.snd (Option.some.inj hqos)
    show Held (removeQosControl rx₃.skb.data)
    rw [hremove]
    exact h₃
  obtain ⟨rx₅, hdata, hp⟩ := passes_called hp
  unfold rxHData at hdata
  dsimp only at hdata
  rw [isData_of_mgmt h₄.mgmt, if_pos Bool.false_ne_true] at hdata
  obtain rfl : _ = rx₅ := congrArg Prod.snd (Option.some.inj hdata)
  obtain rfl : _ = rx := Option.some.inj hp
  exact h₄

/-! ### The whole way -/

theorem prepareForHandlers_data {vif : Vif} {skb skb' : RxSkb}
    (h : prepareForHandlers vif skb = some skb') : skb'.data = skb.data := by
  unfold prepareForHandlers at h
  split at h
  · split_ifs at h <;> cases h <;> rfl
  · cases h
    rfl
  · cases h
    rfl
  · cases h

theorem receivedAtCheck_some {linearize : Bool} {vif : Vif} {status : ℕ} {d : List UInt8}
    {skb : RxSkb} {i : ℕ} (h : receivedAtCheck linearize vif status d = some (skb, i)) :
    skb.data = d ∧ 16 ≤ d.length := by
  obtain ⟨skb₀, hcb, hcheck⟩ := Option.bind_eq_some_iff.mp h
  unfold atCheck at hcheck
  obtain ⟨-, hcheck⟩ := Option.ite_none_left_eq_some.mp hcheck
  obtain ⟨skb₁, hprepare, hpair⟩ := Option.map_eq_some_iff.mp hcheck
  obtain rfl : skb₁ = skb := congrArg Prod.fst hpair
  have hparse : (ieee80211ParseQos skb₀).1.data = skb₀.data := by
    unfold ieee80211ParseQos
    dsimp only
    split_ifs <;> rfl
  unfold atbmRxCb at hcb
  obtain ⟨-, hcb⟩ := Option.ite_none_left_eq_some.mp hcb
  obtain ⟨hlong, hcb⟩ := Option.ite_none_left_eq_some.mp hcb
  refine ⟨(prepareForHandlers_data hprepare).trans (hparse.trans ?_), by omega⟩
  rw [← Option.some.inj hcb]

theorem rxHCheck_mgmt (sta : Option StaInfo) (i : ℕ) {d : List UInt8}
    (hmgmt : ieee80211IsMgmt (frameControl d) = true) (hlen : 16 ≤ d.length) :
    (ieee80211RxHCheck sta i d).2 = !droppedAsDuplicate sta i d := by
  have hpoll := isPspoll_of_mgmt hmgmt
  have hdata := isData_of_mgmt hmgmt
  have hlong : ¬ d.length < 16 := by omega
  unfold ieee80211RxHCheck droppedAsDuplicate
  rcases sta with _ | sta
  · simp [hdata, hpoll, hlong]
  · by_cases hmulti : isMulticastEtherAddr d = true
    · simp [hmulti, hdata, hpoll, hlong]
    · by_cases hdup : ieee80211HasRetry (frameControl d) ∧ sta.lastSeqCtrl i = seqCtrl d
      · simp [hmulti, hdup]
      · have hno : (ieee80211HasRetry (frameControl d) && sta.lastSeqCtrl i == seqCtrl d) =
            false := by
          simpa using hdup
        simp [hmulti, hdup, hno, hdata, hpoll, hlong]

/-- **A frame that comes to the action handler**, as the handlers in front of it have left it. -/
def ComesToAction (linearize : Bool) (env : RxEnv) (vif : Vif) (sta : Option StaInfo) (status : ℕ)
    (d : List UInt8) (rx : RxData) : Prop :=
  ∃ skb i, receivedAtCheck linearize vif status d = some (skb, i) ∧
    droppedAsDuplicate sta i d = false ∧
    passes (handlersFirst env) ⟨skb, vif, (ieee80211RxHCheck sta i d).1, none, []⟩ = some rx

/-- **Nothing is read beyond a management frame and no warning comes up**, exactly if a frame that
comes to the check is not too short for its sequence control and one that comes to the work is not
unexpected. -/
theorem mgmt_safe_iff (linearize : Bool) (env : RxEnv) (vif : Vif) (sta : Option StaInfo)
    (work : Work) (status : ℕ) (d : List UInt8)
    (hmgmt : ieee80211IsMgmt (frameControl d) = true)
    (hmode : work.type = .station ∨ work.type = .ap) :
    SafeVisits (visits linearize env vif sta work status d) ↔
      ((receivedAtCheck linearize vif status d).isSome = true →
        ¬ (sta.isSome = true ∧ isMulticastEtherAddr d = false ∧ d.length < 24)) ∧
      ∀ rx, ComesToAction linearize env vif sta status d rx → work.enabled = true →
        ¬ Unexpected work rx := by
  unfold visits ComesToAction
  rcases hat : receivedAtCheck linearize vif status d with _ | ⟨skb, i⟩
  · refine iff_of_true safeVisits_nil ⟨nofun, fun rx hcomes => ?_⟩
    obtain ⟨skb, i, hnone, -⟩ := hcomes
    cases hnone
  obtain ⟨rfl, hlen⟩ := receivedAtCheck_some hat
  have hheld : Held skb.data := ⟨hmgmt, by omega, fun _ => hlen⟩
  have hcheck : (⟨skb.data.length, checkReads sta i skb.data, false⟩ : Visit).Safe ↔ _ :=
    (and_iff_left rfl).trans (checkReads_inside sta i hlen)
  dsimp only
  rw [safeVisits_cons, hcheck, rxHCheck_mgmt sta i hmgmt hlen]
  refine and_congr ⟨fun h _ => h, fun h => h rfl⟩ ?_
  by_cases hdup : droppedAsDuplicate sta i skb.data = true
  · rw [hdup]
    refine iff_of_true safeVisits_nil fun rx hcomes => ?_
    obtain ⟨skb', i', hsome, hno, -⟩ := hcomes
    cases hsome
    cases hdup.symm.trans hno
  rw [Bool.eq_false_iff.mpr hdup, if_pos (by rfl)]
  have hdup' := Bool.eq_false_iff.mpr hdup
  rcases hpass : passes (handlersFirst env)
      ⟨skb, vif, (ieee80211RxHCheck sta i skb.data).1, none, []⟩ with _ | rx
  · refine iff_of_true safeVisits_nil fun rx hcomes => ?_
    obtain ⟨skb', i', hsome, -, hrx⟩ := hcomes
    cases hsome
    cases hpass.symm.trans hrx
  · dsimp only
    rw [handlerVisits_safe hmode (held_of_passes hheld hlen hpass)]
    constructor
    · intro h rx' hcomes
      obtain ⟨skb', i', hsome, -, hrx⟩ := hcomes
      cases hsome
      cases hpass.symm.trans hrx
      exact h
    · intro h
      exact h rx ⟨skb, i, rfl, hdup', hpass⟩

end

/-- A management frame from the AP to the station, with a body. -/
def mgmtFrame (fc : UInt8) (body : List UInt8) : List UInt8 :=
  [fc, 0, 0, 0] ++ stationAddr ++ List.replicate 12 2 ++ [0, 0] ++ body

/-- An interface that runs as a station, and knows no other. -/
def stationWork : Work := ⟨true, .station, fun _ => false⟩

/-- A successful authentication. -/
def authSkb : RxSkb := ⟨mgmtFrame 0xb0 [0, 0, 2, 0, 0, 0], false, false, false, true, false⟩

theorem authSkb_passes : passes (handlersFirst ⟨true, fun _ => true⟩)
    ⟨authSkb, freshStation, none, none, []⟩ = some ⟨authSkb, freshStation, none, none, []⟩ := rfl

theorem mgmt_safe_iff_auth : SafeVisits (visits true ⟨true, fun _ => true⟩ freshStation none
    stationWork 0 (mgmtFrame 0xb0 [0, 0, 2, 0, 0, 0])) := by
  have hauth : receivedAtCheck true freshStation 0 (mgmtFrame 0xb0 [0, 0, 2, 0, 0, 0]) =
      some (authSkb, 16) := rfl
  refine (mgmt_safe_iff true ⟨true, fun _ => true⟩ freshStation none stationWork 0
    (mgmtFrame 0xb0 [0, 0, 2, 0, 0, 0]) (by decide) (Or.inl rfl)).mpr ⟨fun _ h => ?_, ?_⟩
  · cases h.1
  · rintro rx ⟨skb, i, hat, -, hpass⟩ - hun
    obtain ⟨rfl, rfl⟩ := Prod.mk.inj (Option.some.inj (hauth.symm.trans hat))
    obtain rfl : _ = rx := Option.some.inj (authSkb_passes.symm.trans hpass)
    cases hun with
    | addbaResp h => exact absurd h.action (by decide)
    | auth _ _ hstatus => exact absurd hstatus (by decide)
    | assocResp _ h => exact absurd h (by decide)

/-- **The work warns of a successful association response.** -/
theorem assocResp_warns :
    (visits true ⟨true, fun _ => true⟩ freshStation none stationWork 0
      (mgmtFrame 0x10 [1, 0, 0, 0, 1, 0xc0])).any Visit.warns = true ∧
    ¬ SafeVisits (visits true ⟨true, fun _ => true⟩ freshStation none stationWork 0
      (mgmtFrame 0x10 [1, 0, 0, 0, 1, 0xc0])) := by
  have hwarns : (visits true ⟨true, fun _ => true⟩ freshStation none stationWork 0
      (mgmtFrame 0x10 [1, 0, 0, 0, 1, 0xc0])).any Visit.warns = true := by decide +kernel
  refine ⟨hwarns, fun h => ?_⟩
  obtain ⟨v, hv, hw⟩ := List.any_eq_true.mp hwarns
  cases hw.symm.trans (h v hv).2

end Atbm6441.Rx.Handlers
