import Atbm6441.Wsm.MultiRx.Model

/-!
# The aggregate layout and its decoding

An aggregate is a `struct wsm_multi_rx` header and messages, each with padding up to the size of
its slot. `decode_encode` : `atbm_rx_tasklet` turns an aggregate back into the messages it was made
of, whatever the padding holds and whatever lies behind the aggregate.
-/

namespace Atbm6441.Wsm.MultiRx

/-! ### Messages in memory -/

/-- The memory holds some bytes at an offset. -/
def RxBuf.Holds (b : RxBuf) (off : ℕ) (l : List UInt8) : Prop := b.bytes off l.length = l

theorem RxBuf.length_bytes (b : RxBuf) (off n : ℕ) : (b.bytes off n).length = n := by
  unfold RxBuf.bytes
  rw [List.length_map, List.length_range]

theorem RxBuf.bytes_add (b : RxBuf) (off m n : ℕ) :
    b.bytes off (m + n) = b.bytes off m ++ b.bytes (off + m) n := by
  unfold RxBuf.bytes
  rw [List.range_add, List.map_append, List.map_map]
  congr 1
  exact List.map_congr_left fun i _ => congrArg b.mem (Nat.add_assoc _ _ _).symm

theorem RxBuf.holds_append {b : RxBuf} {off : ℕ} {l l' : List UInt8} :
    b.Holds off (l ++ l') ↔ b.Holds off l ∧ b.Holds (off + l.length) l' := by
  unfold RxBuf.Holds
  rw [List.length_append, RxBuf.bytes_add]
  exact ⟨fun h => List.append_inj h (b.length_bytes _ _), fun ⟨h, h'⟩ => by rw [h, h']⟩

theorem RxBuf.Holds.mem {b : RxBuf} {off i : ℕ} {l : List UInt8} (h : b.Holds off l)
    (hi : i < l.length) : b.mem (off + i) = l.getD i 0 := by
  have : (b.bytes off l.length).getD i 0 = l.getD i 0 := congrArg (·.getD i 0) h
  rw [← this]
  unfold RxBuf.bytes
  simp [hi]

theorem RxBuf.Holds.le16 {b : RxBuf} {off i : ℕ} {l : List UInt8} (h : b.Holds off l)
    (hi : i + 1 < l.length) :
    b.le16 (off + i) = (l.getD i 0).toNat + 256 * (l.getD (i + 1) 0).toNat := by
  unfold RxBuf.le16
  rw [Nat.add_assoc, h.mem (by omega), h.mem hi]

/-! ### The layout -/

/-- A receive indication and the padding of its slot. Its length field is its length. -/
structure Inner where
  bytes : List UInt8
  pad : List UInt8
  four_le : 4 ≤ bytes.length
  length_eq : (bytes.getD 0 0).toNat + 256 * (bytes.getD 1 0).toNat = bytes.length
  slot_eq : bytes.length + pad.length = align (bytes.length + rxAllocBuffOffload) 4

namespace Inner

/-- The message id. -/
def id (m : Inner) : ℕ := ((m.bytes.getD 2 0).toNat + 256 * (m.bytes.getD 3 0).toNat) &&& 0xFFF

/-- What the message occupies in the aggregate. -/
def encode (m : Inner) : List UInt8 := m.bytes ++ m.pad

theorem length_encode (m : Inner) :
    m.encode.length = align (m.bytes.length + rxAllocBuffOffload) 4 := by
  unfold encode
  rw [List.length_append, m.slot_eq]

theorem le_length_encode (m : Inner) : m.bytes.length + 40 ≤ m.encode.length := by
  rw [length_encode]
  unfold align rxAllocBuffOffload
  omega

end Inner

/-- **An aggregate**: a non-empty list of messages, as many as `RxFrameNum` can count, of at most
16384 bytes in total, and what else the header holds. -/
structure Aggregate where
  idLo : UInt8
  idHi : UInt8
  reserved : UInt8 × UInt8 × UInt8
  msgs : List Inner
  nonempty : msgs ≠ []
  counted : msgs.length < 256
  isMulti : (idLo.toNat + 256 * idHi.toNat) &&& 0xFFF = 0x0811 ∨
    (idLo.toNat + 256 * idHi.toNat) &&& 0xFFF = 0x0813
  total : 8 + (msgs.flatMap Inner.encode).length ≤ 0x4000

namespace Aggregate

/-- The length field. -/
def msgLen (a : Aggregate) : ℕ := 8 + (a.msgs.flatMap Inner.encode).length

/-- `struct wsm_multi_rx`. -/
def header (a : Aggregate) : List UInt8 :=
  [UInt8.ofNat a.msgLen, UInt8.ofNat (a.msgLen / 256), a.idLo, a.idHi,
    UInt8.ofNat a.msgs.length, a.reserved.1, a.reserved.2.1, a.reserved.2.2]

def encode (a : Aggregate) : List UInt8 := a.header ++ a.msgs.flatMap Inner.encode

end Aggregate

/-! ### Decoding -/

variable {b : RxBuf} {wsmHandleRx : ℕ → ℤ}

theorem Inner.read (m : Inner) {off : ℕ} (h : b.Holds off m.encode) :
    b.wsmLen off = m.bytes.length ∧ b.wsmId off = m.id ∧ b.bytes off m.bytes.length = m.bytes ∧
      b.slotLen off = m.encode.length := by
  have hb := (RxBuf.holds_append.mp h).1
  have hfour := m.four_le
  have hlen : b.wsmLen off = m.bytes.length := by
    have := hb.le16 (i := 0) (by omega)
    rw [Nat.add_zero, m.length_eq] at this
    exact this
  refine ⟨hlen, ?_, hb, ?_⟩
  · exact congrArg (· &&& 0xFFF) (hb.le16 (i := 2) (by omega))
  · rw [m.length_encode, ← hlen]
    rfl

theorem u32_of_lt {n : ℕ} (h : n < 0x100000000) : u32 n = n := by
  unfold u32
  omega

/-- What the loop has done when it has handled a message without an error. -/
theorem Inner.handle (m : Inner) {off : ℕ} (h : b.Holds off m.encode) (u : Unpack) :
    ((u.handle b off).readHdr (off + b.slotLen off)).calls = u.calls ++ [(m.id, m.bytes)] := by
  obtain ⟨hlen, hid, hbytes, -⟩ := m.read h
  show u.calls ++ [(b.wsmId off, b.bytes off (b.wsmLen off))] = _
  rw [hlen, hid, hbytes]

/-- **The loop** calls `wsm_handle_rx` with each of the messages that are left. -/
theorem unpackLoop_encode (ms : List Inner) : ∀ (m : Inner) (off : ℕ) (u : Unpack),
    b.Holds off ((m :: ms).flatMap Inner.encode) →
    ((m :: ms).flatMap Inner.encode).length ≤ 0x4000 →
    (∀ i < u.calls.length + (m :: ms).length, wsmHandleRx i = 0) →
    let v := unpackLoop b wsmHandleRx (m :: ms).length off
      (((m :: ms).flatMap Inner.encode).length : ℤ) u
    v.calls = u.calls ++ (m :: ms).map (fun m => (m.id, m.bytes)) ∧
      (u.bug = false → v.bug = false) ∧ v.ret = u.ret := by
  induction ms with
  | nil =>
    intro m off u hb htotal hf
    rw [List.flatMap_cons, List.flatMap_nil, List.append_nil] at hb htotal ⊢
    obtain ⟨hlen, -, -, hslot⟩ := m.read hb
    have hle := m.le_length_encode
    have hshort : ¬ u32 (m.encode.length : ℤ) < b.wsmLen off := by
      rw [u32_of_lt (by omega), hlen]
      omega
    have herr : wsmHandleRx u.calls.length = 0 := hf _ (by simp)
    rw [show ([m] : List Inner).length = 0 + 1 from rfl,
      unpackLoop_exit hshort herr fun h => absurd h.1 (Nat.lt_irrefl 0)]
    exact ⟨m.handle hb u, fun _ => rfl, rfl⟩
  | cons m' ms ih =>
    intro m off u hb htotal hf
    rw [List.flatMap_cons] at hb htotal ⊢
    obtain ⟨hbm, hbms⟩ := RxBuf.holds_append.mp hb
    rw [List.length_append] at htotal ⊢
    obtain ⟨hlen, -, -, hslot⟩ := m.read hbm
    have hle := m.le_length_encode
    have hle' : 40 ≤ ((m' :: ms).flatMap Inner.encode).length := by
      have := m'.le_length_encode
      rw [List.flatMap_cons, List.length_append]
      omega
    have hshort : ¬ u32 ((m.encode.length + ((m' :: ms).flatMap Inner.encode).length : ℕ) : ℤ) <
        b.wsmLen off := by
      rw [u32_of_lt (by omega), hlen]
      omega
    have herr : wsmHandleRx u.calls.length = 0 := hf _ (by simp)
    have hmore : 0 < (m' :: ms).length ∧
        32 < ((m.encode.length + ((m' :: ms).flatMap Inner.encode).length : ℕ) : ℤ) -
          b.slotLen off := by
      rw [hslot]
      exact ⟨Nat.succ_pos _, by omega⟩
    have hcalls := m.handle hbm u
    have hrest := ih m' (off + b.slotLen off)
      ((u.handle b off).readHdr (off + b.slotLen off)) (by rw [hslot]; exact hbms) (by omega)
      fun i hi => hf i (by
        rw [hcalls, List.length_append] at hi
        simp only [List.length_cons, List.length_nil] at hi ⊢
        omega)
    rw [hcalls, List.append_assoc] at hrest
    rw [show (m :: m' :: ms).length = (m' :: ms).length + 1 from rfl,
      unpackLoop_more hshort herr hmore]
    have hleft : ((m.encode.length + ((m' :: ms).flatMap Inner.encode).length : ℕ) : ℤ) -
        b.slotLen off = (((m' :: ms).flatMap Inner.encode).length : ℤ) := by
      rw [hslot]
      omega
    rw [hleft]
    exact hrest

/-- **Decoding an aggregate**: `wsm_handle_rx` is called once for each message, in order, with the
message's id and bytes, whatever lies in the padding and behind the aggregate. -/
theorem decode_encode (a : Aggregate) (hb : b.Holds 0 a.encode)
    (hf : ∀ i < a.msgs.length, wsmHandleRx i = 0) (id : ℕ) :
    let v := atbmRxTasklet b id wsmHandleRx
    v.calls = a.msgs.map (fun m => (m.id, m.bytes)) ∧ v.bug = false ∧ v.ret = 0 := by
  obtain ⟨hhdr, hmsgs⟩ := RxBuf.holds_append.mp hb
  have htotal := a.total
  have hlen : b.wsmLen 0 = a.msgLen := by
    have := hhdr.le16 (i := 0) (by simp [Aggregate.header])
    refine this.trans ?_
    simp only [Aggregate.header, List.getD_cons_zero, List.getD_cons_succ, UInt8.toNat_ofNat']
    unfold Aggregate.msgLen
    omega
  have hid : b.wsmId 0 = 0x0811 ∨ b.wsmId 0 = 0x0813 := by
    have := hhdr.le16 (i := 2) (by simp [Aggregate.header])
    have hid : b.wsmId 0 = (a.idLo.toNat + 256 * a.idHi.toNat) &&& 0xFFF :=
      congrArg (· &&& 0xFFF) this
    rw [hid]
    exact a.isMulti
  have hnum : b.rxFrameNum = a.msgs.length := by
    have hmem := hhdr.mem (i := 4) (by simp [Aggregate.header])
    have hcount : (UInt8.ofNat a.msgs.length).toNat = a.msgs.length := by
      rw [UInt8.toNat_ofNat']
      exact Nat.mod_eq_of_lt a.counted
    exact (congrArg UInt8.toNat hmem).trans hcount
  have hleft : ((b.wsmLen 0 : ℤ) - 8) = ((a.msgs.flatMap Inner.encode).length : ℤ) := by
    rw [hlen]
    unfold Aggregate.msgLen
    omega
  rw [atbmRxTasklet, if_pos hid, hnum, hleft]
  obtain ⟨m, ms, hcons⟩ := List.exists_cons_of_ne_nil a.nonempty
  rw [hcons] at hmsgs hf htotal ⊢
  obtain ⟨hcalls, hbug, hret⟩ := @unpackLoop_encode b wsmHandleRx ms m 8
    ⟨[(0, 4), (4, 1), (8, 4)], some (align (b.wsmLen 0) 1024 / 1024), [], false, 0⟩ hmsgs
    (by omega) fun i hi => hf i (by simpa using hi)
  exact ⟨hcalls, hbug rfl, hret⟩

/-! ### An aggregate of two messages -/

/-- A receive indication of 4 bytes, in a slot of 44. -/
def shortest (idLo : UInt8) : Inner where
  bytes := [4, 0, idLo, 0x08]
  pad := List.replicate 40 0xAA
  four_le := Nat.le_refl 4
  length_eq := rfl
  slot_eq := by simp [align, rxAllocBuffOffload]

def twoMessages : Aggregate where
  idLo := 0x11
  idHi := 0x08
  reserved := (0, 0, 0)
  msgs := [shortest 0x04, shortest 0x44]
  nonempty := by decide
  counted := by decide
  isMulti := by decide
  total := by decide

theorem decode_encode_twoMessages :
    (atbmRxTasklet ⟨fun i => twoMessages.encode.getD i 0xFF, 96⟩ 0x0811 fun _ => 0).calls =
      [(0x804, [4, 0, 0x04, 0x08]), (0x844, [4, 0, 0x44, 0x08])] :=
  (@decode_encode _ (fun _ => 0) twoMessages (show _ = _ by decide) (fun _ _ => rfl) 0x0811).1

end Atbm6441.Wsm.MultiRx
