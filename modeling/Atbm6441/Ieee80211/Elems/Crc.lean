import Atbm6441.Ieee80211.Elems.Reading
import Atbm6441.Os.Crc32

/-!
# The checksum of the elements

The parser runs `crc32_be` over the elements that the filter asks for, header and body. The result
is the checksum of these elements alone, put one behind the other (`parseElemsCrc_selected`): the
rest of the input has no influence, and a burst of up to 32 bits in what is asked for is detected
(`parseElemsCrc_ne_of_burst`).
-/

namespace Atbm6441.Ieee80211.Elems

open Polynomial Atbm6441.Lib.Crc Atbm6441.Os.Crc32

/-- The parser with `crc32_be`. -/
def crcEnv (filter : ℕ) : CrcEnv :=
  ⟨fun crc p => (crc32Be (BitVec.ofNat 32 crc) p).toNat, filter⟩

/-- An element as it is in the input. -/
def Ie.bytes (ie : Ie) : List UInt8 :=
  UInt8.ofNat ie.id :: UInt8.ofNat ie.body.length :: ie.body

/-- The elements that the filter asks for. -/
def asked (filter : ℕ) (l : List Ie) : List Ie :=
  l.filter fun ie => ie.id < 64 ∧ filter.testBit ie.id

/-- What the checksum is made of. -/
def selected (filter : ℕ) (start : List UInt8) : List UInt8 :=
  (asked filter (elements 0 start)).flatMap Ie.bytes

theorem step_crcEnv (filter : ℕ) (crc : BitVec 32) (id elen : UInt8) (pos : ℕ) {body : List UInt8}
    (hbody : body.length = elen.toNat) :
    (crcEnv filter).step crc.toNat id.toNat (id :: elen :: body) =
      (crc32Be crc ((asked filter [⟨id.toNat, pos, body⟩]).flatMap Ie.bytes)).toNat := by
  have hbytes : Ie.bytes ⟨id.toNat, pos, body⟩ = id :: elen :: body := by
    simp [Ie.bytes, hbody]
  by_cases hask : id.toNat < 64 ∧ filter.testBit id.toNat
  · have hfilter : filter ≠ 0 := by
      rintro rfl
      simp at hask
    rw [CrcEnv.step, if_pos ⟨hfilter, hask⟩, asked, List.filter_singleton, decide_eq_true hask]
    simp [crcEnv, hbytes]
  · rw [CrcEnv.step, if_neg fun h => hask h.2, asked, List.filter_singleton, decide_eq_false hask]
    rfl

theorem asked_append (filter : ℕ) (l l' : List Ie) :
    (asked filter (l ++ l')).flatMap Ie.bytes =
      (asked filter l).flatMap Ie.bytes ++ (asked filter l').flatMap Ie.bytes := by
  rw [asked, List.filter_append, List.flatMap_append]
  rfl

theorem parseElemsLoop_crc (filter pos : ℕ) (rest : List UInt8) (elems : Ieee802Atbm11Elems)
    (crc : BitVec 32) : (parseElemsLoop (crcEnv filter) pos rest elems crc.toNat).2 =
      (crc32Be crc ((asked filter (elements pos rest)).flatMap Ie.bytes)).toNat := by
  induction pos, rest using elements_induction generalizing elems crc with
  | done pos rest hno =>
    rw [elements_done pos hno, parseElemsLoop_done _ pos hno]
    rfl
  | more pos id elen body rest hbody ih =>
    rw [parseElemsLoop_append _ pos id rest elems _ hbody, step_crcEnv filter crc id elen _ hbody,
      ih, elements_append hbody, ← crc32Be_append, ← asked_append, List.singleton_append]

/-- **The checksum** is that of the elements asked for. -/
theorem parseElemsCrc_selected (filter : ℕ) (start : List UInt8) (crc : BitVec 32) :
    (parseElemsCrc (crcEnv filter) start crc.toNat).2 =
      (crc32Be crc (selected filter start)).toNat :=
  parseElemsLoop_crc filter 0 start _ crc

/-- **The checksum is the remainder** of the elements asked for, with 32 zeros behind them and the
first register in front, divided by the polynomial. -/
theorem parseElemsCrc_remainder (filter : ℕ) (start : List UInt8) (crc : BitVec 32) :
    toPoly (BitVec.ofNat 32 (parseElemsCrc (crcEnv filter) start crc.toNat).2) =
      (toPoly crc * X ^ (8 * (selected filter start).length) +
        bitsPoly (byteBits (selected filter start)) * X ^ 32) %ₘ gen CRCPOLY_BE := by
  rw [parseElemsCrc_selected, BitVec.ofNat_toNat, BitVec.setWidth_eq, toPoly_crc32Be]

/-- **A burst is detected**: inputs whose elements asked for differ, but in no more than 32 bits in
a row, have different checksums. -/
theorem parseElemsCrc_ne_of_burst {filter : ℕ} {start start' : List UInt8} {a m m' z : List Bool}
    (hsel : byteBits (selected filter start) = a ++ m ++ z)
    (hsel' : byteBits (selected filter start') = a ++ m' ++ z) (hlen : m.length = m'.length)
    (hle : m.length ≤ 32) (hne : m ≠ m') (crc : BitVec 32) :
    (parseElemsCrc (crcEnv filter) start crc.toNat).2 ≠
      (parseElemsCrc (crcEnv filter) start' crc.toNat).2 := by
  rw [parseElemsCrc_selected, parseElemsCrc_selected, Ne, BitVec.toNat_inj]
  exact crc32Be_ne_of_burst hsel hsel' hlen hle hne crc

theorem selected_frame (x y : UInt8) :
    selected 1 [1, 1, x, 0, 2, 0x61, y] = [0, 2, 0x61, y] := by
  have hrates := @elements_append 0 1 1 [x] (0 :: 2 :: ([0x61, y] ++ [])) rfl
  have hssid := @elements_append 3 0 2 [0x61, y] [] rfl
  simp only [List.cons_append, List.nil_append, List.length_singleton] at hrates hssid
  rw [selected, hrates, hssid, elements_nil]
  have hno : (1 : ℕ).testBit 1 = false := by decide
  have hyes : (1 : ℕ).testBit 0 = true := by decide
  simp [asked, Ie.bytes, hno, hyes]

/-- The rates are not asked for, the name is; its last bit differs. -/
theorem burst_frame : (parseElemsCrc (crcEnv 1) [1, 1, 0x82, 0, 2, 0x61, 0x62] 0).2 ≠
    (parseElemsCrc (crcEnv 1) [1, 1, 0x96, 0, 2, 0x61, 0x63] 0).2 :=
  @parseElemsCrc_ne_of_burst 1 _ _ (byteBits [0, 2, 0x61, 0x62]).dropLast [false] [true] []
    (by rw [selected_frame]; decide) (by rw [selected_frame]; decide) rfl (by decide) (by decide) 0

end Atbm6441.Ieee80211.Elems
