import Atbm6441.Ieee80211.Hdr
import Atbm6441.Lib.Bytes
import Mathlib.Logic.Function.Basic

/-!
# The replay check of protected frames

`ccmp_tkip_replaycnt` of `rx.c`. An interface has three packet number counters: for unicast QoS
frames, whatever their TID, for other unicast frames, and for multicast frames.
-/

namespace Atbm6441.Rx.Replay

open Atbm6441.Ieee80211 Atbm6441.Lib

/-- `enum nl80211_iftype`. -/
inductive Nl80211Iftype
  | unspecified | adhoc | station | ap | apVlan | wds | monitor | meshPoint | p2pClient | p2pGo
deriving DecidableEq

/-- The counters: `ptk_pn`, `ptk_noqos_pn` and `gtk_pn`. -/
inductive Stream
  | ptk | ptkNoqos | gtk
deriving DecidableEq

/-- The last packet number, and the flag that it has not been set since the association. -/
structure PnCounter where
  pn : List UInt8
  pnInit : UInt8

/-- What the check reads and writes of `struct atbm_vif`. -/
structure AtbmVif where
  type : Nl80211Iftype
  counter : Stream → PnCounter

/-- `CCMP_PN_LEN`. -/
def ccmpPnLen : ℕ := 6

/-- The packet number of a CCMP or TKIP header, most significant byte first. -/
def ccmpTkipHdr2pn (hdr : List UInt8) (isCcmp : Bool) : List UInt8 :=
  [hdr.getD 7 0, hdr.getD 6 0, hdr.getD 5 0, hdr.getD 4 0,
    if isCcmp then hdr.getD 1 0 else hdr.getD 0 0, if isCcmp then hdr.getD 0 0 else hdr.getD 2 0]

/-- The packet number of a frame. -/
def framePn (d : List UInt8) (isCcmp : Bool) : List UInt8 :=
  ccmpTkipHdr2pn (d.drop (ieee80211Hdrlen (frameControl d))) isCcmp

/-- The counter a frame is checked against. -/
def streamOf (d : List UInt8) : Stream :=
  if isMulticastEtherAddr d then .gtk
  else if ieee80211IsDataQos (frameControl d) then .ptk
  else .ptkNoqos

/-- The loop over the bytes, from byte `i` on with `n` to go: it is left with "not update" at a byte
that has grown by more than a carry from the byte behind it. -/
def notUpdateLoop (pn oldPn : List UInt8) : ℕ → ℕ → Bool
  | 0, _ => false
  | n + 1, i =>
    if byteAt oldPn i < byteAt pn i then
      if ccmpPnLen - 2 ≤ i then false
      else if byteAt pn i ≠ byteAt oldPn i + 1 ∨ byteAt oldPn (i + 1) ≠ 0xff ∨
          byteAt pn (i + 1) ≠ 0 then true
      else notUpdateLoop pn oldPn n (i + 1)
    else notUpdateLoop pn oldPn n (i + 1)

/-- `memcpy(pOldPN, pn, CCMP_PN_LEN)`, with the flag as it is left. -/
def AtbmVif.store (vif : AtbmVif) (s : Stream) (pn : List UInt8) : AtbmVif :=
  { vif with counter := Function.update vif.counter s ⟨pn, 0⟩ }

/-- `ccmp_tkip_replaycnt`: `0` accepts the frame, `-1` drops it. -/
def ccmpTkipReplaycnt (vif : AtbmVif) (d : List UInt8) (isCcmp : Bool) : ℤ × AtbmVif :=
  if vif.type ≠ .station then (0, vif)
  else
    let pn := framePn d isCcmp
    let old := vif.counter (streamOf d)
    if old.pnInit = 0 then
      if memcmp pn old.pn ≤ 0 then (-1, vif)
      else if notUpdateLoop pn old.pn ccmpPnLen 0 then (0, vif)
      else (0, vif.store (streamOf d) pn)
    else (0, vif.store (streamOf d) pn)

/-! ### What the check does -/

/-- A byte has grown by a carry: by one, from a `0xff` behind it that has become `0`. -/
def Carry (pn oldPn : List UInt8) (i : ℕ) : Prop :=
  byteAt pn i = byteAt oldPn i + 1 ∧ byteAt oldPn (i + 1) = 0xff ∧ byteAt pn (i + 1) = 0

/-- One of the first four bytes has grown, but not by a carry. -/
def Jump (pn oldPn : List UInt8) : Prop :=
  ∃ i < 4, byteAt oldPn i < byteAt pn i ∧ ¬ Carry pn oldPn i

instance (pn oldPn : List UInt8) (i : ℕ) : Decidable (Carry pn oldPn i) :=
  inferInstanceAs (Decidable (_ ∧ _))

instance (pn oldPn : List UInt8) : Decidable (Jump pn oldPn) :=
  inferInstanceAs (Decidable (∃ i < 4, _))

theorem notUpdateLoop_iff (pn oldPn : List UInt8) : ∀ n i, n + i = 6 →
    (notUpdateLoop pn oldPn n i = true ↔
      ∃ j, i ≤ j ∧ j < 4 ∧ byteAt oldPn j < byteAt pn j ∧ ¬ Carry pn oldPn j) := by
  intro n
  induction n with
  | zero =>
    intro i hi
    rw [notUpdateLoop]
    constructor
    · intro h
      cases h
    · rintro ⟨j, hij, hj, -⟩
      omega
  | succ n ih =>
    intro i hi
    have hnext := ih (i + 1) (by omega)
    -- the loop goes on behind byte `i`
    have hskip : ¬ (i < 4 ∧ byteAt oldPn i < byteAt pn i ∧ ¬ Carry pn oldPn i) →
        ((∃ j, i + 1 ≤ j ∧ j < 4 ∧ byteAt oldPn j < byteAt pn j ∧ ¬ Carry pn oldPn j) ↔
          ∃ j, i ≤ j ∧ j < 4 ∧ byteAt oldPn j < byteAt pn j ∧ ¬ Carry pn oldPn j) := by
      intro hno
      constructor
      · rintro ⟨j, hij, h⟩
        exact ⟨j, by omega, h⟩
      · rintro ⟨j, hij, h⟩
        rcases Nat.eq_or_lt_of_le hij with rfl | hlt
        · exact absurd h hno
        · exact ⟨j, hlt, h⟩
    rw [notUpdateLoop]
    split_ifs with hgrow hlast hjump
    · constructor
      · intro h
        cases h
      · rintro ⟨j, hij, hj, -⟩
        unfold ccmpPnLen at hlast
        omega
    · refine ⟨fun _ => ⟨i, Nat.le_refl i, ?_, hgrow, fun hc => ?_⟩, fun _ => rfl⟩
      · unfold ccmpPnLen at hlast
        omega
      · obtain ⟨h1, h2, h3⟩ := hc
        rcases hjump with h | h | h
        · exact h h1
        · exact h h2
        · exact h h3
    · refine hnext.trans (hskip fun h => h.2.2 ⟨?_, ?_, ?_⟩)
      · exact not_not.mp fun h => hjump (Or.inl h)
      · exact not_not.mp fun h => hjump (Or.inr (Or.inl h))
      · exact not_not.mp fun h => hjump (Or.inr (Or.inr h))
    · exact hnext.trans (hskip fun h => hgrow h.2.1)

theorem notUpdate_iff (pn oldPn : List UInt8) :
    notUpdateLoop pn oldPn ccmpPnLen 0 = true ↔ Jump pn oldPn := by
  rw [ccmpPnLen, notUpdateLoop_iff pn oldPn 6 0 rfl]
  exact ⟨fun ⟨j, _, h⟩ => ⟨j, h⟩, fun ⟨j, h⟩ => ⟨j, Nat.zero_le j, h⟩⟩

theorem length_framePn (d : List UInt8) (isCcmp : Bool) : (framePn d isCcmp).length = 6 := rfl

/-- **What the check does in station mode**: a frame is dropped if its packet number is not above
the stored one, is accepted without a trace if it is above by a jump, and else is accepted and its
packet number is stored. -/
theorem replaycnt_station {vif : AtbmVif} (hv : vif.type = .station) {d : List UInt8}
    (hlen : (vif.counter (streamOf d)).pn.length = 6) (isCcmp : Bool) :
    ccmpTkipReplaycnt vif d isCcmp =
      if (vif.counter (streamOf d)).pnInit = 0 then
        if be (framePn d isCcmp) ≤ be (vif.counter (streamOf d)).pn then (-1, vif)
        else if Jump (framePn d isCcmp) (vif.counter (streamOf d)).pn then (0, vif)
        else (0, vif.store (streamOf d) (framePn d isCcmp))
      else (0, vif.store (streamOf d) (framePn d isCcmp)) := by
  unfold ccmpTkipReplaycnt
  dsimp only
  rw [if_neg (not_not.mpr hv)]
  simp only [memcmp_le_zero (hlen ▸ length_framePn d isCcmp), notUpdate_iff]

end Atbm6441.Rx.Replay
