import Atbm6441.Ieee80211.Elems.Reading
import Atbm6441.Ether.Model
import Atbm6441.Lib.Memory

/-!
# The association request

`ieee80211_send_assoc` of `iface.c` builds a frame of 28 fixed bytes and information elements. The
HT capability element is written behind the extended rates without `atbm_skb_put`, where the WMM
element is put next: `elements_sendAssoc` says which elements are left, and `sendAssoc_drops_ht`
that they are never all those written.
-/

namespace Atbm6441.Ieee80211.Assoc

open Atbm6441.Lib Atbm6441.Ieee80211.Elems
open Atbm6441.Ether (EtherAddr le16)

/-! ### Building a frame -/

/-- A buffer while a frame is built: the memory from `skb->data` on, `skb->len`, and `pos`. -/
structure Build where
  mem : ℕ → UInt8
  len : ℕ
  pos : ℕ

namespace Build

/-- The bytes of the frame. -/
def frame (b : Build) : List UInt8 := slice b.mem 0 b.len

/-- `pos = atbm_skb_put(skb, n)`. -/
def skbPut (b : Build) (n : ℕ) : Build := ⟨b.mem, b.len + n, b.len⟩

/-- Bytes written at `pos`, which moves behind them. -/
def store (b : Build) (l : List UInt8) : Build := ⟨writes b.mem b.pos l, b.len, b.pos + l.length⟩

/-- `*pos++ = v`. -/
def storeByte (b : Build) (v : UInt8) : Build := b.store [v]

/-- Bytes written at an offset of the frame. -/
def storeAt (b : Build) (off : ℕ) (l : List UInt8) : Build := { b with mem := writes b.mem off l }

/-- `pos += n`. -/
def advance (b : Build) (n : ℕ) : Build := { b with pos := b.pos + n }

end Build

/-! ### `ieee80211_send_assoc` -/

/-- What the function reads: the address of the AP, and of the interface its own address and
`ap_info`, whose SSID has at most `ATBM_MAX_SSID_LEN` bytes. -/
structure AssocVif where
  bssid : EtherAddr
  addr : EtherAddr
  ssid : List UInt8
  ssid_le : ssid.length ≤ 32

/-- `atbm_rates`. -/
def atbmRates : List ℕ := [10, 20, 55, 110, 60, 90, 120, 180, 240, 360, 480, 540]

/-- `capab`: `WLAN_CAPABILITY_ESS`, `WLAN_CAPABILITY_SHORT_SLOT_TIME` and
`WLAN_CAPABILITY_SHORT_PREAMBLE`. -/
def capab : ℕ := 1 ||| 0x400 ||| 0x20

/-- `ht_cap.cap`. -/
def htCapInfo : ℕ := 0x10 ||| 0x2 ||| 0x1000 ||| 1 <<< 8

/-- `ht_cap.mcs`: `rx_mask`, `rx_highest`, `tx_params` and the reserved bytes. -/
def htCapMcs : List UInt8 := 0xff :: List.replicate 9 0 ++ le16 0 ++ [0x01] ++ List.replicate 3 0

/-- The loop over the supported rates, which stops after eight: the buffer, their number and the
rates that follow. -/
def suppRatesLoop (rates : ℕ) : List (ℕ × ℕ) → ℕ → Build → Build × ℕ × List (ℕ × ℕ)
  | [], count, b => (b, count, [])
  | (rate, i) :: l, count, b =>
    if rates.testBit i then
      let b := b.storeByte (.ofNat (if i < 4 then rate / 5 ||| 0x80 else rate / 5))
      if count + 1 = 8 then (b, count + 1, l) else suppRatesLoop rates l (count + 1) b
    else suppRatesLoop rates l count b

/-- The loop over the other rates. -/
def extRatesLoop (rates : ℕ) : List (ℕ × ℕ) → Build → Build
  | [], b => b
  | (rate, i) :: l, b =>
    extRatesLoop rates l (if rates.testBit i then b.storeByte (.ofNat (rate / 5)) else b)

/-- The fixed part. -/
def fixedPart (v : AssocVif) (b : Build) : Build :=
  ((((((((b.skbPut 24).storeAt 0 (List.replicate 24 0)).storeAt 4 v.bssid.bytes).storeAt 10
    v.addr.bytes).storeAt 16 v.bssid.bytes).skbPut 4).storeAt 0 (le16 0)).storeAt 24
    (le16 capab)).storeAt 26 (le16 0)

/-- The SSID. -/
def ssidPart (v : AssocVif) (b : Build) : Build :=
  (((b.skbPut (2 + v.ssid.length)).storeByte 0).storeByte (.ofNat v.ssid.length)).store v.ssid

/-- The rates, all of the bits of `rates` being set. -/
def ratesPart (b : Build) : Build :=
  let rates := 0xffffffff
  let ratesLen := 12
  let suppRatesLen := if 8 < ratesLen then 8 else ratesLen
  let b := ((b.skbPut (suppRatesLen + 2)).storeByte 1).storeByte (.ofNat suppRatesLen)
  let (b, count, l) := suppRatesLoop rates atbmRates.zipIdx 0 b
  if count < ratesLen then
    extRatesLoop rates l
      (((b.skbPut (ratesLen - count + 2)).storeByte 50).storeByte (.ofNat (ratesLen - count)))
  else b

/-- The HT capability element, from `pos` on. -/
def htCapPart (b : Build) : Build :=
  let b := (b.storeByte 45).storeByte 26
  let b := b.storeAt b.pos (List.replicate 26 0)
  ((((((b.store (le16 htCapInfo)).storeByte (.ofNat (2 ||| 0 <<< 2))).store htCapMcs).advance
    2).advance 2).advance 1)

/-- The WMM element. -/
def wmmPart (b : Build) : Build :=
  ((((((((((b.skbPut 9).storeByte 221).storeByte 7).storeByte 0x00).storeByte 0x50).storeByte
    0xf2).storeByte 2).storeByte 0).storeByte 1).storeByte 0)

/-- `ieee80211_send_assoc`: the frame, built in fresh memory. -/
def sendAssoc (v : AssocVif) (fresh : ℕ → UInt8) : List UInt8 :=
  (wmmPart (htCapPart (ratesPart (ssidPart v (fixedPart v ⟨fresh, 0, 0⟩))))).frame

/-! ### What is to be in the frame -/

/-- An element as it is sent. -/
def element (e : ℕ × List UInt8) : List UInt8 := .ofNat e.1 :: .ofNat e.2.length :: e.2

/-- The SSID and the rates. -/
def plainElements (v : AssocVif) : List (ℕ × List UInt8) :=
  [(0, v.ssid), (1, [0x82, 0x84, 0x8b, 0x96, 12, 18, 24, 36]), (50, [48, 72, 96, 108])]

/-- The HT capability element. -/
def htCapElement : ℕ × List UInt8 :=
  (45, le16 htCapInfo ++ [2] ++ htCapMcs ++ List.replicate 7 0)

/-- The WMM information element. -/
def wmmElement : ℕ × List UInt8 := (221, [0x00, 0x50, 0xf2, 2, 0, 1, 0])

/-- The elements that the function writes. -/
def writtenElements (v : AssocVif) : List (ℕ × List UInt8) :=
  plainElements v ++ [htCapElement, wmmElement]

/-- **A frame carries elements**: behind the fixed part there are exactly these, and the parser
reads them. -/
structure Carries (frame : List UInt8) (es : List (ℕ × List UInt8)) : Prop where
  covered : frame.drop 28 = es.flatMap element
  walked : (elements 0 (frame.drop 28)).map (fun ie => (ie.id, ie.body)) = es
  parsed : Reads (frame.drop 28) (parseElems (frame.drop 28))

/-! ### What is in the frame -/

namespace Build

theorem store_store (b : Build) (l m : List UInt8) : (b.store l).store m = b.store (l ++ m) := by
  unfold store
  rw [writes_writes, List.length_append, Nat.add_assoc]

theorem length_frame (b : Build) : b.frame.length = b.len := length_slice _ _ _

/-- **Bytes put and written** are appended to the frame. -/
theorem frame_put (b : Build) {n : ℕ} {l : List UInt8} (hl : l.length = n) :
    ((b.skbPut n).store l).frame = b.frame ++ l := by
  subst hl
  have happend := slice_append (writes b.mem b.len l) 0 b.len l.length
  rw [Nat.zero_add, slice_writes, slice_writes_below l (Nat.le_of_eq (Nat.zero_add _))] at happend
  exact happend

/-- The frame is done, and `pos` is not inside it. -/
structure Behind (b : Build) (frame : List UInt8) : Prop where
  frame_eq : b.frame = frame
  len_le : b.len ≤ b.pos

variable {b : Build} {frame : List UInt8}

theorem Behind.storeAt (h : b.Behind frame) {off : ℕ} (hoff : b.pos ≤ off) (l : List UInt8) :
    (b.storeAt off l).Behind frame where
  frame_eq := by
    have hle : 0 + b.len ≤ off := by
      have := h.len_le
      omega
    exact (slice_writes_below l hle).trans h.frame_eq
  len_le := h.len_le

theorem Behind.advance (h : b.Behind frame) (n : ℕ) : (b.advance n).Behind frame :=
  ⟨h.frame_eq, Nat.le_trans h.len_le (Nat.le_add_right _ _)⟩

theorem Behind.store (h : b.Behind frame) (l : List UInt8) : (b.store l).Behind frame :=
  (h.storeAt (Nat.le_refl _) l).advance l.length

end Build

open Build

theorem ssidPart_eq (v : AssocVif) (b : Build) :
    ssidPart v b = (b.skbPut (2 + v.ssid.length)).store (element (0, v.ssid)) := by
  unfold ssidPart storeByte
  rw [store_store, store_store]
  rfl

theorem ratesPart_eq (b : Build) : ratesPart b =
    (((b.skbPut 10).store (element (1, [0x82, 0x84, 0x8b, 0x96, 12, 18, 24, 36]))).skbPut 6).store
      (element (50, [48, 72, 96, 108])) := by
  have hsupp : ∀ b : Build, suppRatesLoop 0xffffffff atbmRates.zipIdx 0 b =
      ((((((((b.store [0x82]).store [0x84]).store [0x8b]).store [0x96]).store [12]).store
        [18]).store [24]).store [36], 8, [(240, 8), (360, 9), (480, 10), (540, 11)]) :=
    fun _ => rfl
  have hext : ∀ b : Build, extRatesLoop 0xffffffff [(240, 8), (360, 9), (480, 10), (540, 11)] b =
      (((b.store [48]).store [72]).store [96]).store [108] := fun _ => rfl
  unfold ratesPart
  simp only [hsupp, hext, storeByte, store_store]
  rfl

theorem wmmPart_eq (b : Build) : wmmPart b = (b.skbPut 9).store (element wmmElement) := by
  unfold wmmPart storeByte
  simp only [store_store]
  rfl

/-- **The HT capability element is written behind the frame.** -/
theorem behind_htCapPart {b : Build} {frame : List UInt8} (h : b.Behind frame) :
    (htCapPart b).Behind frame := by
  have hzero := ((h.store [45]).store [26]).storeAt (Nat.le_refl _) (List.replicate 26 0)
  have hfields := ((hzero.store (le16 htCapInfo)).store [.ofNat (2 ||| 0 <<< 2)]).store htCapMcs
  exact ((hfields.advance 2).advance 2).advance 1

theorem length_fixedPart (v : AssocVif) (fresh : ℕ → UInt8) :
    (fixedPart v ⟨fresh, 0, 0⟩).frame.length = 28 := length_frame _

/-- **What is in the frame**: the fixed part and all the elements but the HT capabilities. -/
theorem sendAssoc_eq (v : AssocVif) (fresh : ℕ → UInt8) : sendAssoc v fresh =
    (fixedPart v ⟨fresh, 0, 0⟩).frame ++ (plainElements v ++ [wmmElement]).flatMap element := by
  have hssid : (element (0, v.ssid)).length = 2 + v.ssid.length := by
    show v.ssid.length + 2 = 2 + v.ssid.length
    omega
  have hrates : ∀ b : Build, (ratesPart b).Behind (ratesPart b).frame := fun b => by
    refine ⟨rfl, ?_⟩
    rw [ratesPart_eq]
    exact Nat.le_of_eq rfl
  unfold sendAssoc
  rw [wmmPart_eq, frame_put (n := 9) _ rfl, (behind_htCapPart (hrates _)).frame_eq, ratesPart_eq,
    frame_put (n := 6) _ rfl, frame_put (n := 10) _ rfl, ssidPart_eq, frame_put _ hssid]
  simp only [plainElements, List.flatMap_append, List.flatMap_cons, List.flatMap_nil,
    List.append_assoc, List.append_nil]

theorem drop_sendAssoc (v : AssocVif) (fresh : ℕ → UInt8) :
    (sendAssoc v fresh).drop 28 = (plainElements v ++ [wmmElement]).flatMap element := by
  rw [sendAssoc_eq, List.drop_left' (length_fixedPart v fresh)]

/-! ### What is read of it -/

theorem elements_flatMap (es : List (ℕ × List UInt8))
    (hes : ∀ e ∈ es, e.1 < 256 ∧ e.2.length < 256) (pos : ℕ) :
    (elements pos (es.flatMap element)).map (fun ie => (ie.id, ie.body)) = es := by
  induction es generalizing pos with
  | nil =>
    rw [List.flatMap_nil, elements_nil]
    rfl
  | cons e es ih =>
    obtain ⟨hid, hlen⟩ := hes e List.mem_cons_self
    have hbyte : ∀ n < 256, (UInt8.ofNat n).toNat = n := fun n hn => by
      rw [UInt8.toNat_ofNat', Nat.mod_eq_of_lt hn]
    have happend : (e :: es).flatMap element =
        .ofNat e.1 :: .ofNat e.2.length :: (e.2 ++ es.flatMap element) := rfl
    rw [happend, elements_append (hbyte _ hlen).symm, List.map_cons,
      ih fun e he => hes e (List.mem_cons_of_mem _ he), hbyte _ hid]

theorem plainElements_fit (v : AssocVif) :
    ∀ e ∈ plainElements v ++ [wmmElement], e.1 < 256 ∧ e.2.length < 256 := by
  have hssid := v.ssid_le
  intro e he
  simp only [plainElements, List.mem_append, List.mem_cons, List.not_mem_nil, or_false] at he
  rcases he with (rfl | rfl | rfl) | rfl
  · dsimp only
    omega
  all_goals exact ⟨by decide, by decide⟩

/-- **The frame carries the SSID, the rates and the WMM element.** -/
theorem carries_sendAssoc (v : AssocVif) (fresh : ℕ → UInt8) :
    Carries (sendAssoc v fresh) (plainElements v ++ [wmmElement]) := by
  have hwalk := elements_flatMap _ (plainElements_fit v) 0
  rw [← drop_sendAssoc v fresh] at hwalk
  have hids : ∀ ie ∈ elements 0 ((sendAssoc v fresh).drop 28), ie.id ∈ [0, 1, 50, 221] := by
    intro ie hie
    have hmem : (ie.id, ie.body) ∈ plainElements v ++ [wmmElement] := by
      rw [← hwalk]
      exact List.mem_map_of_mem hie
    simp only [plainElements, wmmElement, List.mem_append, List.mem_cons, List.not_mem_nil,
      or_false, Prod.mk.injEq] at hmem
    rcases hmem with (h | h | h) | h <;> simp [h.1]
  refine ⟨drop_sendAssoc v fresh, hwalk, reads_of _ _ _ ?_ ?_⟩
  · intro ie hie
    obtain ⟨hmem, hid⟩ := List.mem_filter.mp (List.mem_of_getLast? hie)
    have hin := hids ie hmem
    simp only [List.mem_cons, List.not_mem_nil, or_false] at hin
    simp only [Bool.or_eq_true, decide_eq_true_eq] at hid
    omega
  · have hnone : ((elements 0 ((sendAssoc v fresh).drop 28)).filter fun ie => ie.id = 40) = [] := by
      refine List.filter_eq_nil_iff.mpr fun ie hie h40 => ?_
      have hin := hids ie hie
      rw [of_decide_eq_true h40] at hin
      exact absurd hin (by decide)
    rw [hnone]
    exact Nat.zero_lt_succ _

/-- **Never all of them**: no association request carries the elements that the function writes. -/
theorem sendAssoc_drops_ht (v : AssocVif) (fresh : ℕ → UInt8) :
    ¬ Carries (sendAssoc v fresh) (writtenElements v) := by
  intro h
  have hlen := congrArg List.length ((carries_sendAssoc v fresh).walked.symm.trans h.walked)
  rw [plainElements, writtenElements] at hlen
  cases hlen

/-- An AP without a name. -/
def noName : AssocVif := ⟨⟨List.replicate 6 2, rfl⟩, ⟨List.replicate 6 4, rfl⟩, [], Nat.zero_le _⟩

/-- **No HT capabilities** in the request for it: the parser finds none, and the frame ends with the
WMM element where they were written. -/
theorem no_ht_capabilities :
    (sendAssoc noName fun _ => 0).drop 28 =
        [0, 0, 1, 8, 0x82, 0x84, 0x8b, 0x96, 12, 18, 24, 36, 50, 4, 48, 72, 96, 108,
          221, 7, 0x00, 0x50, 0xf2, 2, 0, 1, 0] ∧
      ¬ Carries (sendAssoc noName fun _ => 0) (writtenElements noName) := by
  have hdrop := drop_sendAssoc noName fun _ => 0
  refine ⟨hdrop, fun h => ?_⟩
  have hlen := congrArg List.length (hdrop.symm.trans h.covered)
  exact absurd hlen (by decide)

end Atbm6441.Ieee80211.Assoc
