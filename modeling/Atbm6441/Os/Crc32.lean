import Atbm6441.Lib.Bytes
import Atbm6441.Lib.Crc

/-!
# The checksum of the RTOS

`crc32_be` of `atbm_os_misc.c`, bit by bit over the bytes. It is the register of a division by the
polynomial (`crc32Be_eq_digest`), so it holds the remainder (`toPoly_crc32Be`), goes on where it left
off (`crc32Be_append`), and is 0 over a message with its checksum behind it (`crc32Be_residue`).
-/

namespace Atbm6441.Os.Crc32

open Polynomial Atbm6441.Lib Atbm6441.Lib.Crc

/-- `CRCPOLY_BE` -/
def CRCPOLY_BE : BitVec 32 := 0x04c11db7

/-- The body of the inner loop. -/
def crcBit (crc : BitVec 32) : BitVec 32 :=
  (crc <<< 1) ^^^ (if crc &&& 0x80000000 ≠ 0 then CRCPOLY_BE else 0)

/-- The body of the outer loop: a byte at the top, and eight bits. -/
def crcByte (crc : BitVec 32) (p : UInt8) : BitVec 32 :=
  Nat.iterate crcBit 8 (crc ^^^ p.toBitVec.setWidth 32 <<< 24)

/-- `crc32_be` -/
def crc32Be (crc : BitVec 32) : List UInt8 → BitVec 32
  | [] => crc
  | p :: rest => crc32Be (crcByte crc p) rest

example : crc32Be (-1) [0x31, 0x32, 0x33, 0x34, 0x35, 0x36, 0x37, 0x38, 0x39] = 0x0376e6e7 := by
  decide +kernel

/-! ### The division -/

theorem and_mask (crc : BitVec 32) : crc &&& 0x80000000 ≠ 0 ↔ crc.msb = true := by
  have hmask : (0x80000000 : BitVec 32) = BitVec.twoPow 32 31 := by decide
  rw [hmask, BitVec.and_twoPow, BitVec.msb_eq_getLsbD_last]
  cases crc.getLsbD 31 with
  | true => decide
  | false => decide

theorem crcBit_eq_shift (crc : BitVec 32) : crcBit crc = shift CRCPOLY_BE crc := by
  unfold crcBit shift
  simp only [and_mask]

theorem crcByte_eq_absorb (crc : BitVec 32) (p : UInt8) :
    crcByte crc p = absorb CRCPOLY_BE crc p.toBitVec := by
  have hbit : crcBit = shift CRCPOLY_BE := funext crcBit_eq_shift
  rw [crcByte, hbit]
  rfl

/-- **The register** of the division. -/
theorem crc32Be_eq_digest (crc : BitVec 32) (p : List UInt8) :
    crc32Be crc p = digest CRCPOLY_BE crc (p.map UInt8.toBitVec) := by
  induction p generalizing crc with
  | nil => rfl
  | cons b p ih =>
    rw [crc32Be, ih, crcByte_eq_absorb]
    rfl

theorem crc32Be_append (crc : BitVec 32) (p q : List UInt8) :
    crc32Be crc (p ++ q) = crc32Be (crc32Be crc p) q := by
  induction p generalizing crc with
  | nil => rfl
  | cons b p ih => exact ih _

/-- The bits of some bytes, the highest of each first. -/
def byteBits (p : List UInt8) : List Bool := p.flatMap fun b => bits b.toBitVec

theorem flatMap_bits (p : List UInt8) : (p.map UInt8.toBitVec).flatMap bits = byteBits p := by
  rw [byteBits, List.flatMap_map]

/-- **The remainder**: the checksum is what is left of the message, with 32 zeros behind it and the
first register in front, divided by the polynomial. -/
theorem toPoly_crc32Be (crc : BitVec 32) (p : List UInt8) :
    toPoly (crc32Be crc p) =
      (toPoly crc * X ^ (8 * p.length) + bitsPoly (byteBits p) * X ^ 32) %ₘ gen CRCPOLY_BE := by
  rw [crc32Be_eq_digest, toPoly_digest CRCPOLY_BE (by decide), List.length_map, flatMap_bits]

theorem length_byteBits (p : List UInt8) : (byteBits p).length = 8 * p.length := by
  rw [← flatMap_bits, length_flatMap_bits, List.length_map]

theorem byteBits_injective : Function.Injective byteBits := by
  intro p q h
  have hbits : Function.Injective fun b : UInt8 => bits b.toBitVec := by
    intro b c hbc
    exact UInt8.toBitVec_inj.mp (toPoly_injective (congrArg bitsPoly hbc))
  induction p generalizing q with
  | nil =>
    have hlen := congrArg List.length h
    rw [length_byteBits, length_byteBits] at hlen
    exact (List.length_eq_zero_iff.mp (by simpa using hlen.symm)).symm
  | cons b p ih =>
    rcases q with _ | ⟨c, q⟩
    · have hlen := congrArg List.length h
      rw [length_byteBits, length_byteBits] at hlen
      simp at hlen
    · obtain ⟨hb, hp⟩ := List.append_inj h (by rw [length_bits, length_bits])
      rw [hbits hb, ih hp]

/-- **A burst of up to 32 bits is detected**, wherever it is in the message. -/
theorem crc32Be_ne_of_burst {p q : List UInt8} {a m m' z : List Bool}
    (hp : byteBits p = a ++ m ++ z) (hq : byteBits q = a ++ m' ++ z) (hlen : m.length = m'.length)
    (hle : m.length ≤ 32) (hne : m ≠ m') (crc : BitVec 32) : crc32Be crc p ≠ crc32Be crc q := by
  rw [crc32Be_eq_digest, crc32Be_eq_digest]
  exact digest_ne_of_burst (by decide) (by decide) ((flatMap_bits p).trans hp)
    ((flatMap_bits q).trans hq) hlen hle hne crc

/-! ### The checksum behind its message -/

/-- The bytes of a checksum, the highest first. -/
def beBytes (crc : BitVec 32) : List UInt8 :=
  [24, 16, 8, 0].map fun i => ⟨crc.extractLsb' i 8⟩

theorem byteBits_beBytes (crc : BitVec 32) : byteBits (beBytes crc) = bits crc := by
  simp [byteBits, beBytes, bits, List.ofFn_succ, BitVec.getMsbD_eq_getLsbD]

theorem crc32Be_beBytes (crc : BitVec 32) : crc32Be crc (beBytes crc) = 0 := by
  apply toPoly_injective
  have hlen : (beBytes crc).length = 4 := by rw [beBytes, List.length_map]; rfl
  rw [toPoly_crc32Be, byteBits_beBytes, hlen, ← toPoly, CharTwo.add_self_eq_zero, zero_modByMonic,
    toPoly_zero]

/-- **The residue**: a message with its checksum behind it has the checksum 0, whatever the register
was in front of it. -/
theorem crc32Be_residue (crc : BitVec 32) (p : List UInt8) :
    crc32Be crc (p ++ beBytes (crc32Be crc p)) = 0 := by
  rw [crc32Be_append, crc32Be_beBytes]

/-- **The residue is proof of the message**: of the four bytes that can follow it, only those of its
checksum give 0. -/
theorem residue_iff (crc : BitVec 32) (p : List UInt8) {t : List UInt8} (ht : t.length = 4) :
    crc32Be crc (p ++ t) = 0 ↔ t = beBytes (crc32Be crc p) := by
  have hlen : (beBytes (crc32Be crc p)).length = 4 := by rw [beBytes, List.length_map]; rfl
  constructor
  · intro h
    by_contra hne
    have hbits : byteBits t ≠ byteBits (beBytes (crc32Be crc p)) :=
      fun he => hne (byteBits_injective he)
    have hburst : crc32Be (crc32Be crc p) t ≠ crc32Be (crc32Be crc p) (beBytes (crc32Be crc p)) :=
      crc32Be_ne_of_burst (List.append_nil ([] ++ _)).symm (List.append_nil ([] ++ _)).symm
        (by rw [length_byteBits, length_byteBits, ht, hlen]) (by rw [length_byteBits, ht]) hbits _
    exact hburst ((crc32Be_append _ _ _).symm.trans (h.trans (crc32Be_beBytes _).symm))
  · rintro rfl
    exact crc32Be_residue crc p

end Atbm6441.Os.Crc32
