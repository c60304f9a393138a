import Atbm6441.Ieee80211.Hdr
import Mathlib.Logic.Function.Basic

/-!
# The parser of information elements

`atbm_ieee802_11_parse_elems_crc` of `util.c` goes over the elements of a management frame and notes
where the bodies of those it knows lie. A pointer is an offset from `ie_start`.
-/

namespace Atbm6441.Ieee80211.Elems

open Atbm6441.Ieee80211

/-! ### `struct ieee802_atbm_11_elems` -/

/-- The pointers of the structure. -/
inductive Field
  | ssid | suppRates | fhParams | dsParams | cfParams | tim | ibssParams | challenge | wpa | rsn
  | erpInfo | extSuppRates | wmmInfo | wmmParam | p2pIe | wfd | hs20 | htCapElem | htInfoElem
  | meshConfig | meshId | peering | preq | prep | perr | rann | chSwitchElem | countryElem
  | pwrConstrElem | quietElem | timeoutInt | wpsIe | extendedChSwitchElem | secondaryChElem
  | atbmSpecial
deriving DecidableEq

/-- `struct ieee802_atbm_11_elems`: the pointers, NULL or not, and the lengths that go with them. -/
structure Ieee802Atbm11Elems where
  totalLen : ℕ
  ptr : Field → Option ℕ
  len : Field → ℕ
  /-- a `u8` -/
  numOfQuietElem : ℕ

namespace Ieee802Atbm11Elems

/-- `memset(elems, 0, sizeof(*elems))`, with the length of the input. -/
def zero (totalLen : ℕ) : Ieee802Atbm11Elems := ⟨totalLen, fun _ => none, fun _ => 0, 0⟩

/-- A pointer and its length. -/
def set (elems : Ieee802Atbm11Elems) (f : Field) (pos elen : ℕ) : Ieee802Atbm11Elems :=
  { elems with
    ptr := Function.update elems.ptr f (some pos), len := Function.update elems.len f elen }

/-- A pointer without a length. -/
def setPtr (elems : Ieee802Atbm11Elems) (f : Field) (pos : ℕ) : Ieee802Atbm11Elems :=
  { elems with ptr := Function.update elems.ptr f (some pos) }

end Ieee802Atbm11Elems

/-! ### Vendor specific elements -/

/-- `ATBM_WPA_GET_BE24`. -/
def be24 (body : List UInt8) : ℕ :=
  byteAt body 0 * 0x10000 + byteAt body 1 * 0x100 + byteAt body 2

/-- `ieee802_11_parse_vendor_specific`, for the body at `pos`; its result is not used. -/
def parseVendorSpecific (pos : ℕ) (body : List UInt8) (elems : Ieee802Atbm11Elems) :
    Ieee802Atbm11Elems :=
  let elen := body.length
  if elen < 4 then elems
  else if be24 body = 0x0050f2 then
    if byteAt body 3 = 1 then elems.set .wpa pos elen
    else if byteAt body 3 = 2 then
      if elen < 5 then elems
      else if byteAt body 4 = 0 then elems.set .wmmInfo pos elen
      else if byteAt body 4 = 1 then elems.set .wmmParam pos elen
      else elems
    else if byteAt body 3 = 4 then elems.set .wpsIe pos elen
    else elems
  else if be24 body = 0x506f9a then
    if byteAt body 3 = 9 then elems.set .p2pIe pos elen
    else if byteAt body 3 = 10 then elems.set .wfd pos elen
    else elems
  else elems

/-! ### The loop -/

/-- The `switch` over the id, for the element with the body at `pos`. The sizes are those of
`struct ieee80211_tim_ie`, `ieee80211_ht_cap`, `ieee80211_ht_info`, `ieee80211_meshconf_ie` and
`ieee80211_rann_ie`. -/
def parseElem (id pos : ℕ) (body : List UInt8) (elems : Ieee802Atbm11Elems) : Ieee802Atbm11Elems :=
  let elen := body.length
  match id with
  | 0 => elems.set .ssid pos elen
  | 1 => elems.set .suppRates pos elen
  | 2 => elems.set .fhParams pos elen
  | 3 => elems.set .dsParams pos elen
  | 4 => elems.set .cfParams pos elen
  | 5 => if 4 ≤ elen then elems.set .tim pos elen else elems
  | 6 => elems.set .ibssParams pos elen
  | 16 => elems.set .challenge pos elen
  | 221 => parseVendorSpecific pos body elems
  | 48 => elems.set .rsn pos elen
  | 42 => elems.set .erpInfo pos elen
  | 50 => elems.set .extSuppRates pos elen
  | 45 => if 26 ≤ elen then elems.setPtr .htCapElem pos else elems
  | 61 => if 22 ≤ elen then elems.setPtr .htInfoElem pos else elems
  | 114 => elems.set .meshId pos elen
  | 113 => if 7 ≤ elen then elems.setPtr .meshConfig pos else elems
  | 117 => elems.set .peering pos elen
  | 130 => elems.set .preq pos elen
  | 131 => elems.set .prep pos elen
  | 132 => elems.set .perr pos elen
  | 126 => if 21 ≤ elen then elems.setPtr .rann pos else elems
  | 37 => elems.set .chSwitchElem pos elen
  | 40 =>
    let elems := if (elems.ptr .quietElem).isNone then elems.set .quietElem pos elen else elems
    { elems with numOfQuietElem := (elems.numOfQuietElem + 1) % 256 }
  | 7 => elems.set .countryElem pos elen
  | 32 => elems.set .pwrConstrElem pos elen
  | 56 => elems.set .timeoutInt pos elen
  | 60 => elems.set .extendedChSwitchElem pos elen
  -- the case of `ATBM_WLAN_EID_SECONDARY_CH_OFFSET` has no `break`
  | 62 => (elems.set .secondaryChElem pos elen).set .atbmSpecial pos elen
  | 233 => elems.set .atbmSpecial pos elen
  | _ => elems

/-- What the loop depends on besides the input: `crc32_be`, and the ids that the checksum is made
of. -/
structure CrcEnv where
  crc32Be : ℕ → List UInt8 → ℕ
  filter : ℕ

/-- The checksum with an element, if it is one of those. -/
def CrcEnv.step (env : CrcEnv) (crc id : ℕ) (element : List UInt8) : ℕ :=
  if env.filter ≠ 0 ∧ id < 64 ∧ env.filter.testBit id then env.crc32Be crc element else crc

/-- The loop, with the rest of the input from `pos` on. -/
def parseElemsLoop (env : CrcEnv) (pos : ℕ) (rest : List UInt8) (elems : Ieee802Atbm11Elems)
    (crc : ℕ) : Ieee802Atbm11Elems × ℕ :=
  match rest with
  | id :: elen :: rest =>
    if rest.length < elen.toNat then (elems, crc)
    else
      let body := rest.take elen.toNat
      parseElemsLoop env (pos + 2 + elen.toNat) (rest.drop elen.toNat)
        (parseElem id.toNat (pos + 2) body elems) (env.step crc id.toNat (id :: elen :: body))
  | _ => (elems, crc)
termination_by rest.length
decreasing_by
  simp only [List.length_drop, List.length_cons]
  omega

/-- `atbm_ieee802_11_parse_elems_crc`. -/
def parseElemsCrc (env : CrcEnv) (start : List UInt8) (crc : ℕ) : Ieee802Atbm11Elems × ℕ :=
  parseElemsLoop env 0 start (.zero start.length) crc

/-- `ieee802_11_parse_elems`. -/
def parseElems (start : List UInt8) : Ieee802Atbm11Elems :=
  (parseElemsCrc ⟨fun crc _ => crc, 0⟩ start 0).1

end Atbm6441.Ieee80211.Elems
