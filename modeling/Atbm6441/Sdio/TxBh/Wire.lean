import Atbm6441.Lib.Link
import Atbm6441.Sdio.TxBh.Fail
import Mathlib.Data.List.Forall2
import Mathlib.Tactic.IntervalCases

/-!
# What the device reads from the transfers

The reference for the other end of the bus: the device knows of a transfer no more than its bytes,
takes it apart by the lengths in the headers, and expects one sequence number after the other.
`frames_of_run` : over any number of passes of the bottom half it reads the messages of the batches
that were written, in their order, each with its bytes, the sum of its length and the sequence number
that the bottom half has counted. `accepts_iff` : it finds the sequence numbers in order exactly when
the messages of the batches that were not written come in multiples of eight.
-/

namespace Atbm6441.Sdio.TxBh

open Atbm6441.Lib Atbm6441.Wsm

/-! ### The device -/

/-- The first word of a message. -/
def rdFlag (l : List UInt8) : BitVec 32 := BitVec.ofNat 32 (leNat (l.take 4))

/-- The length of the message in front. -/
def rdLen (l : List UInt8) : ℕ := leNat ((l.drop 4).take 2)

/-- The id, with the sequence number in its highest bits. -/
def rdId (l : List UInt8) : BitVec 16 := BitVec.ofNat 16 (leNat ((l.drop 6).take 2))

/-- The sequence number. -/
def rdSeq (l : List UInt8) : ℕ := (rdId l >>> 13).toNat

/-- The messages of a transfer. -/
def frames (transfer : List UInt8) : List (List UInt8) :=
  takeApart rdLen alignedLen transfer.length transfer

/-- **A message as it was sent**: its header says its length, twice, its id and its number, and its
bytes are there. -/
structure Msg.ReadAs (m : Msg) (n : ℕ) (l : List UInt8) : Prop where
  flag : rdFlag l = Cmd.wsmFlag (m.len.zeroExtend 32)
  len : rdLen l = m.len.toNat ∧ l.length = m.len.toNat
  id : rdId l &&& ~~~0xe000#16 = m.id &&& ~~~0xe000#16
  seq : rdSeq l = n
  bytes : m.bytes n <+: l

/-! ### Passes -/

/-- What a pass of the bottom half meets. -/
structure Pass where
  rounds : List Round
  tries : ℕ → Bool

/-- From `xmit_continue` to the next one, or to `xmit_finished`: the transfer that was written, and
the messages that were packed. There is nothing to write when nothing was packed; after a `BUG_ON`
there is no next pass. -/
def Bh.pass (s : Bh) (sizeInpChBuf : ℕ) (p : Pass) :
    Option (Option (List UInt8) × List Msg × Bh) :=
  match s.xmitContinue.loop sizeInpChBuf p.rounds with
  | (none, _) | (some .bug, _) => none
  | (some _, t) =>
    let msgs := t.packed.map Packed.msg
    if t.frames = 0 then some (none, msgs, t)
    else
      match t.write p.tries with
      | (true, u) => some (some (t.xmitBuff.take t.xmitBuffPut), msgs, u)
      | (false, u) => some (none, msgs, u)

/-- The passes of a run, up to the one that does not come to its end: what was written, and what was
packed. -/
def Bh.run (sizeInpChBuf : ℕ) : Bh → List Pass → List (Option (List UInt8) × List Msg)
  | _, [] => []
  | s, p :: ps =>
    match s.pass sizeInpChBuf p with
    | none => []
    | some (w, msgs, t) => (w, msgs) :: t.run sizeInpChBuf ps

/-- The bytes that arrive. -/
def wire (l : List (Option (List UInt8) × List Msg)) : List (List UInt8) := l.filterMap Prod.fst

/-- The batches. -/
def batches (l : List (Option (List UInt8) × List Msg)) : List (Batch Msg) :=
  l.map fun b => ⟨b.1.isSome, b.2⟩

/-! ### Headers -/

theorem seq_stamp (id seq : BitVec 16) :
    (id &&& ~~~0xe000#16 ||| (seq &&& 7) <<< 13) >>> 13 = seq &&& 7 := by
  ext i hi
  interval_cases i <;> simp

theorem id_stamp (id seq : BitVec 16) :
    (id &&& ~~~0xe000#16 ||| (seq &&& 7) <<< 13) &&& ~~~0xe000#16 = id &&& ~~~0xe000#16 := by
  ext i hi
  interval_cases i <;> simp

variable {m : Msg} {seq : ℕ} {l : List UInt8}

theorem hdr_isPrefix (m : Msg) (seq : ℕ) : m.hdr seq <+: m.bytes seq := by
  unfold Msg.bytes Msg.pieces
  rcases m.body with data | ⟨head, frags, hfrags⟩
  · exact ⟨_, (List.flatten_singleton).symm⟩
  · exact ⟨head ++ frags.flatten, by rw [List.flatten_cons, List.append_assoc]⟩

/-- **The header is read** as it was written. -/
theorem rd_hdr (h : m.hdr seq <+: l) : rdFlag l = Cmd.wsmFlag (m.len.zeroExtend 32) ∧
    rdLen l = m.len.toNat ∧
    rdId l = m.id &&& ~~~0xe000#16 ||| (BitVec.ofNat 16 seq &&& 7) <<< 13 := by
  obtain ⟨tail, rfl⟩ := h
  have hflag := length_leBytes 4 (Cmd.wsmFlag (m.len.zeroExtend 32)).toNat
  have hlen := length_leBytes 2 m.len.toNat
  have hid := length_leBytes 2 (m.id &&& ~~~0xe000#16 ||| (BitVec.ofNat 16 seq &&& 7) <<< 13).toNat
  refine ⟨?_, ?_, ?_⟩
  · unfold rdFlag Msg.hdr Cmd.WsmTx.stamp
    dsimp only
    rw [List.append_assoc, List.append_assoc, List.take_left' hflag,
      leNat_leBytes 4 (BitVec.isLt _), BitVec.ofNat_toNat, BitVec.setWidth_eq]
  · unfold rdLen Msg.hdr Cmd.WsmTx.stamp
    dsimp only
    rw [List.append_assoc, List.append_assoc, List.drop_left' hflag, List.take_left' hlen,
      leNat_leBytes 2 (BitVec.isLt _)]
  · unfold rdId Msg.hdr Cmd.WsmTx.stamp
    dsimp only
    rw [List.append_assoc, List.drop_left' (by rw [List.length_append, hflag, hlen]),
      List.take_left' hid, leNat_leBytes 2 (BitVec.isLt _), BitVec.ofNat_toNat, BitVec.setWidth_eq]

theorem readAs_of (hbytes : m.bytes (seq % 8) <+: l) (hlen : l.length = m.len.toNat) :
    m.ReadAs (seq % 8) l := by
  obtain ⟨hflag, hrd, hid⟩ := rd_hdr ((hdr_isPrefix m _).trans hbytes)
  refine ⟨hflag, ⟨hrd, hlen⟩, ?_, ?_, hbytes⟩
  · rw [hid]
    exact id_stamp _ _
  · have h7 : (7 : BitVec 16).toNat = 2 ^ 3 - 1 := rfl
    rw [rdSeq, hid, seq_stamp, BitVec.toNat_and, BitVec.toNat_ofNat, h7,
      Nat.and_two_pow_sub_one_eq_mod]
    omega

/-! ### Places -/

/-- The blocks that messages take. -/
def blocks (ms : List Msg) : ℕ := (ms.map fun m => alignedLen m.len.toNat).sum

/-- The places of messages that are packed one behind the other. -/
def places (off seq : ℕ) : List Msg → List Packed
  | [] => []
  | m :: ms =>
    ⟨m, off, m.bytes (seq % 8), alignedLen m.len.toNat⟩ ::
      places (off + alignedLen m.len.toNat) (seq + 1) ms

theorem places_concat (off seq : ℕ) (ms : List Msg) (m : Msg) : places off seq (ms ++ [m]) =
    places off seq ms ++
      [⟨m, off + blocks ms, m.bytes ((seq + ms.length) % 8), alignedLen m.len.toNat⟩] := by
  induction ms generalizing off seq with
  | nil => rfl
  | cons m' ms ih =>
    have hblocks : blocks (m' :: ms) = alignedLen m'.len.toNat + blocks ms := List.sum_cons
    rw [List.cons_append, places, ih, places, List.cons_append, hblocks, List.length_cons,
      ← Nat.add_assoc off, Nat.add_assoc seq, Nat.add_comm 1]

theorem blocks_concat (ms : List Msg) (m : Msg) :
    blocks (ms ++ [m]) = blocks ms + alignedLen m.len.toNat := by
  simp [blocks]

/-- **Messages are packed without gaps**, and numbered from `seq` on. -/
structure Tight (seq : ℕ) (t : Bh) : Prop where
  packed : t.packed = places 0 seq (t.packed.map Packed.msg)
  put : t.xmitBuffPut = blocks (t.packed.map Packed.msg)
  next : t.wsmTxSeq = (seq + t.packed.length) % 8
  frames : t.frames = t.packed.length

theorem tight_xmitContinue {s : Bh} (hs : s.wsmTxSeq = seq % 8) : Tight seq s.xmitContinue where
  packed := rfl
  put := rfl
  next := hs
  frames := rfl

variable {s t : Bh}

theorem Tight.copied (h : Tight seq t) (m : Msg) : Tight seq (t.copied m) := by
  have hmap : (t.copied m).packed.map Packed.msg = t.packed.map Packed.msg ++ [m] := by
    simp [Bh.copied]
  refine ⟨?_, ?_, ?_, ?_⟩
  · rw [hmap, places_concat, ← h.packed, ← h.put, List.length_map, ← h.next, Nat.zero_add]
    rfl
  · rw [hmap, blocks_concat, ← h.put]
    rfl
  · have hlen : (t.copied m).packed.length = t.packed.length + 1 := by simp [Bh.copied]
    show (t.wsmTxSeq + 1) &&& 7 = _
    rw [hlen, h.next, show ∀ n, n &&& 7 = n % 8 from fun n => Nat.and_two_pow_sub_one_eq_mod n 3]
    omega
  · show t.frames + 1 = _
    rw [h.frames]
    simp [Bh.copied]

theorem Tight.round (h : Tight seq t) (sizeInpChBuf : ℕ) (r : Round) :
    Tight seq (t.round sizeInpChBuf r).2 := by
  have hchecked : Tight seq (t.checked r.hwXmits) := ⟨h.packed, h.put, h.next, h.frames⟩
  rcases r with ⟨hwXmits, _ | m⟩
  · unfold Bh.round
    dsimp only
    split_ifs <;> exact hchecked
  have hcopied := hchecked.copied m
  unfold Bh.round Bh.pack
  dsimp only
  split_ifs
  · exact hchecked
  · exact ⟨h.packed, h.put, h.next, h.frames⟩
  · exact ⟨hcopied.packed, hcopied.put, hcopied.next, hcopied.frames⟩
  · exact ⟨hcopied.packed, hcopied.put, hcopied.next, hcopied.frames⟩
  · exact ⟨hcopied.packed, hcopied.put, hcopied.next, hcopied.frames⟩
  · exact hchecked

theorem Tight.loop (h : Tight seq t) (sizeInpChBuf : ℕ) (rs : List Round) :
    Tight seq (t.loop sizeInpChBuf rs).2 := by
  induction rs generalizing t with
  | nil => exact h
  | cons r rs ih =>
    have hround := h.round sizeInpChBuf r
    unfold Bh.loop
    rcases hr : t.round sizeInpChBuf r with ⟨_ | stop, u⟩
    · rw [hr] at hround
      exact ih hround
    · rw [hr] at hround
      exact hround

/-! ### One transfer -/

/-- The blocks of a message. -/
def slot (buff : List UInt8) (p : Packed) : List UInt8 := (buff.drop p.off).take p.len

theorem take_blocks (buff : List UInt8) (off seq : ℕ) (ms : List Msg) :
    (buff.drop off).take (blocks ms) = ((places off seq ms).map (slot buff)).flatten := by
  induction ms generalizing off seq with
  | nil => exact List.take_zero
  | cons m ms ih =>
    have hblocks : blocks (m :: ms) = alignedLen m.len.toNat + blocks ms := List.sum_cons
    rw [hblocks, List.take_add, List.drop_drop, ih _ (seq + 1), places, List.map_cons,
      List.flatten_cons]
    rfl

theorem mem_places {off seq : ℕ} {ms : List Msg} {p : Packed} (hp : p ∈ places off seq ms) :
    (∃ k, p.bytes = p.msg.bytes (k % 8)) ∧ p.len = alignedLen p.msg.len.toNat := by
  induction ms generalizing off seq with
  | nil => exact absurd hp List.not_mem_nil
  | cons m ms ih =>
    rcases List.mem_cons.mp hp with rfl | hp
    · exact ⟨⟨seq, rfl⟩, rfl⟩
    · exact ih hp

/-- The bytes of a message are in its blocks. -/
def Filled (buff : List UInt8) (p : Packed) : Prop :=
  p.bytes <+: slot buff p ∧ (slot buff p).length = p.len

theorem Laid.filled (h : Laid t) {p : Packed} (hp : p ∈ t.packed) : Filled t.xmitBuff p := by
  constructor
  · rw [← h.contents p hp, slot]
    exact List.take_prefix_take_left (h.le_len p hp)
  · have hinside := h.inside p hp
    have hput := h.put_le
    have hbuff := h.buff
    rw [slot, List.length_take, List.length_drop]
    omega

variable {buff : List UInt8} {off : ℕ} {ms : List Msg}

theorem Filled.rdLen {p : Packed} (h : Filled buff p) (hp : p ∈ places off seq ms)
    (rest : List UInt8) : rdLen (slot buff p ++ rest) = p.msg.len.toNat := by
  obtain ⟨⟨k, hk⟩, -⟩ := mem_places hp
  have hhdr := hdr_isPrefix p.msg (k % 8)
  rw [← hk] at hhdr
  exact (rd_hdr ((hhdr.trans h.1).trans (List.prefix_append _ _))).2.1

theorem alignedLen_ge (n : ℕ) : n ≤ alignedLen n := by
  unfold alignedLen Buf.sdioBlockSize
  dsimp only
  split_ifs <;> omega

theorem Filled.isSlot {p : Packed} (h : Filled buff p) (hp : p ∈ places off seq ms) :
    Slot TxBh.rdLen alignedLen (slot buff p) := by
  have hlen : TxBh.rdLen (slot buff p) = p.msg.len.toNat := by
    simpa using h.rdLen hp []
  have hpad := (mem_places hp).2
  refine ⟨fun hnil => ?_, fun rest => (h.rdLen hp rest).trans hlen.symm, ?_, ?_⟩
  · have hblock := block_le_alignedLen p.msg.len.toNat
    have hzero := h.2
    rw [hnil, hpad] at hzero
    rw [← hzero] at hblock
    exact absurd hblock (by decide)
  · rw [hlen, h.2, hpad]
    exact alignedLen_ge _
  · rw [hlen, h.2, hpad]

theorem readAs_places (h : ∀ p ∈ places off seq ms, Filled buff p) :
    List.Forall₂ (fun (a : ℕ × Msg) l => a.2.ReadAs a.1 l) (numbered 8 seq ms)
      (((places off seq ms).map (slot buff)).map fun l => l.take (rdLen l)) := by
  induction ms generalizing off seq with
  | nil => exact .nil
  | cons m ms ih =>
    refine .cons ?_ (ih fun p hp => h p (List.mem_cons_of_mem _ hp))
    have hfilled := h _ List.mem_cons_self
    have hfirst : _ ∈ places off seq (m :: ms) := List.mem_cons_self
    have hlen := hfilled.rdLen hfirst []
    rw [List.append_nil] at hlen
    dsimp only at hlen ⊢
    rw [hlen]
    have hbytes := length_bytes_le m (seq % 8)
    refine readAs_of (List.prefix_take_iff.mpr ⟨hfilled.1, hbytes⟩) ?_
    rw [List.length_take, hfilled.2]
    exact Nat.min_eq_left (alignedLen_ge _)

/-- **A transfer is read** as it was packed. -/
theorem frames_of_tight (hlaid : Laid t) (h : Tight seq t) :
    List.Forall₂ (fun (a : ℕ × Msg) l => a.2.ReadAs a.1 l)
      (numbered 8 seq (t.packed.map Packed.msg)) (frames (t.xmitBuff.take t.xmitBuffPut)) := by
  have hfilled : ∀ p ∈ places 0 seq (t.packed.map Packed.msg), Filled t.xmitBuff p := by
    rw [← h.packed]
    exact fun p hp => hlaid.filled hp
  have hslots : ∀ s ∈ (places 0 seq (t.packed.map Packed.msg)).map (slot t.xmitBuff),
      Slot rdLen alignedLen s := by
    intro s hs
    obtain ⟨p, hp, rfl⟩ := List.mem_map.mp hs
    exact (hfilled p hp).isSlot hp
  have htransfer := take_blocks t.xmitBuff 0 seq (t.packed.map Packed.msg)
  rw [List.drop_zero, ← h.put] at htransfer
  rw [frames, htransfer, takeApart_flatten hslots (length_le_flatten hslots)]
  exact readAs_places hfilled

/-! ### A run -/

/-- The messages that a pass meets fit in a buffer of the device. -/
def Pass.Fits (sizeInpChBuf : ℕ) (p : Pass) : Prop :=
  ∀ r ∈ p.rounds, ∀ m, r.msg = some m → m.len.toNat ≤ sizeInpChBuf

/-- Between two passes: the transfer buffer has its length, and `n` messages have been numbered. -/
structure Idle (n : ℕ) (s : Bh) : Prop where
  buff : s.xmitBuff.length = sdioTxMaxlen
  seq : s.wsmTxSeq = n % 8

theorem write_idle {n : ℕ} (h : Idle n t) (tries : ℕ → Bool) : Idle n (t.write tries).2 := by
  unfold Bh.write Bh.dataWrite
  split_ifs
  · exact ⟨h.buff, h.seq⟩
  · dsimp only
    unfold Bh.forceFree
    split_ifs
    · exact ⟨h.buff, h.seq⟩
    · exact h

variable {sizeInpChBuf n : ℕ} {w : Option (List UInt8)} {msgs : List Msg}

/-- **One pass**: a transfer that is written is read as it was packed, and the messages are counted
whether it is written or not. -/
theorem pass_idle (hsize : sizeInpChBuf ≤ sdioTxMaxlen) (hs : Idle n s) {p : Pass}
    (hp : p.Fits sizeInpChBuf) (h : s.pass sizeInpChBuf p = some (w, msgs, t)) :
    Idle (n + msgs.length) t ∧ msgs <+: got p.rounds ∧ (w.isSome → msgs ≠ []) ∧
      ∀ transfer, w = some transfer →
        List.Forall₂ (fun (a : ℕ × Msg) l => a.2.ReadAs a.1 l) (numbered 8 n msgs)
          (frames transfer) := by
  have hlaid := (laid_xmitContinue hs.buff).loop (Or.inl rfl) hsize hp
  have htight := (tight_xmitContinue hs.seq).loop sizeInpChBuf p.rounds
  have hgot := loop_packed s.xmitContinue sizeInpChBuf p.rounds
  unfold Bh.pass at h
  rcases hloop : s.xmitContinue.loop sizeInpChBuf p.rounds with ⟨_ | stop, u⟩
  · rw [hloop] at h
    cases h
  rw [hloop] at h hlaid htight hgot
  have hidle : Idle (n + (u.packed.map Packed.msg).length) u :=
    ⟨hlaid.buff, by rw [List.length_map]; exact htight.next⟩
  have hbody : (if u.frames = 0 then some (none, u.packed.map Packed.msg, u)
      else match u.write p.tries with
        | (true, t) => some (some (u.xmitBuff.take u.xmitBuffPut), u.packed.map Packed.msg, t)
        | (false, t) => some (none, u.packed.map Packed.msg, t)) = some (w, msgs, t) := by
    cases stop with
    | bug => cases h
    | noSpace | noMsg | txed | full => exact h
  split_ifs at hbody with hframes
  · cases hbody
    exact ⟨hidle, hgot, nofun, nofun⟩
  · have hpacked : u.packed.map Packed.msg ≠ [] := by
      intro hnil
      rw [htight.frames, List.map_eq_nil_iff.mp hnil] at hframes
      exact hframes rfl
    have hwrite := write_idle hidle p.tries
    rcases hw : u.write p.tries with ⟨_ | _, v⟩
    · rw [hw] at hbody hwrite
      cases hbody
      exact ⟨hwrite, hgot, nofun, nofun⟩
    · rw [hw] at hbody hwrite
      cases hbody
      refine ⟨hwrite, hgot, fun _ => hpacked, ?_⟩
      rintro transfer ⟨rfl⟩
      exact frames_of_tight hlaid htight

theorem run_cons (s : Bh) (p : Pass) (ps : List Pass) : s.run sizeInpChBuf (p :: ps) =
    match s.pass sizeInpChBuf p with
    | none => []
    | some (w, msgs, t) => (w, msgs) :: t.run sizeInpChBuf ps := rfl

theorem frames_run (hsize : sizeInpChBuf ≤ sdioTxMaxlen) (hs : Idle n s) {ps : List Pass}
    (hps : ∀ p ∈ ps, p.Fits sizeInpChBuf) :
    List.Forall₂ (fun (a : ℕ × Msg) l => a.2.ReadAs a.1 l)
        (arrivals 8 n (batches (s.run sizeInpChBuf ps)))
        ((wire (s.run sizeInpChBuf ps)).flatMap frames) ∧
      ∀ b ∈ s.run sizeInpChBuf ps, b.1.isSome → b.2 ≠ [] := by
  induction ps generalizing s n with
  | nil => exact ⟨.nil, nofun⟩
  | cons p ps ih =>
    rw [run_cons]
    rcases hpass : s.pass sizeInpChBuf p with _ | ⟨w, msgs, t⟩
    · exact ⟨.nil, nofun⟩
    obtain ⟨ht, -, hne, hread⟩ := pass_idle hsize hs (hps p List.mem_cons_self) hpass
    obtain ⟨hrest, hrestne⟩ := ih ht fun q hq => hps q (List.mem_cons_of_mem _ hq)
    refine ⟨?_, List.forall_mem_cons.mpr ⟨hne, hrestne⟩⟩
    rcases w with _ | transfer
    · exact hrest
    · exact List.rel_append (hread transfer rfl) hrest

theorem run_got (hsize : sizeInpChBuf ≤ sdioTxMaxlen) (hs : Idle n s) {ps : List Pass}
    (hps : ∀ p ∈ ps, p.Fits sizeInpChBuf) :
    List.Forall₂ (fun b p => b.2 <+: got p.rounds) (s.run sizeInpChBuf ps)
      (ps.take (s.run sizeInpChBuf ps).length) := by
  induction ps generalizing s n with
  | nil => exact .nil
  | cons p ps ih =>
    rw [run_cons]
    rcases hpass : s.pass sizeInpChBuf p with _ | ⟨w, msgs, t⟩
    · exact .nil
    obtain ⟨ht, hgot, -⟩ := pass_idle hsize hs (hps p List.mem_cons_self) hpass
    exact .cons hgot (ih ht fun q hq => hps q (List.mem_cons_of_mem _ hq))

/-- **Messages are delivered** over any number of passes: each batch is what `wsm_get_tx` has
returned in its pass, and the device reads the messages of the batches that were written, in their
order, with their bytes and the numbers that the bottom half has counted. -/
theorem frames_of_run (s : Bh) (hbuff : s.xmitBuff.length = sdioTxMaxlen) (hseq : s.wsmTxSeq < 8)
    (hsize : 16 ≤ sizeInpChBuf ∧ sizeInpChBuf ≤ 32768) (ps : List Pass)
    (hps : ∀ p ∈ ps, p.Fits sizeInpChBuf) :
    List.Forall₂ (fun b p => b.2 <+: got p.rounds) (s.run sizeInpChBuf ps)
        (ps.take (s.run sizeInpChBuf ps).length) ∧
      List.Forall₂ (fun (a : ℕ × Msg) l => a.2.ReadAs a.1 l)
        (arrivals 8 s.wsmTxSeq (batches (s.run sizeInpChBuf ps)))
        ((wire (s.run sizeInpChBuf ps)).flatMap frames) := by
  have hs : Idle s.wsmTxSeq s := ⟨hbuff, (Nat.mod_eq_of_lt hseq).symm⟩
  exact ⟨run_got hsize.2 hs hps, (frames_run hsize.2 hs hps).1⟩

theorem map_rdSeq {l : List (ℕ × Msg)} {ls : List (List UInt8)}
    (h : List.Forall₂ (fun (a : ℕ × Msg) l => a.2.ReadAs a.1 l) l ls) :
    ls.map rdSeq = l.map Prod.fst := by
  induction h with
  | nil => rfl
  | cons hread _ ih => rw [List.map_cons, List.map_cons, hread.seq, ih]

/-- **The device notices a loss** unless a multiple of eight messages is lost: it finds the sequence
numbers in order exactly when so many are lost in front of each transfer that arrives. -/
theorem accepts_iff (s : Bh) (hbuff : s.xmitBuff.length = sdioTxMaxlen) (hseq : s.wsmTxSeq < 8)
    (hsize : 16 ≤ sizeInpChBuf ∧ sizeInpChBuf ≤ 32768) (ps : List Pass)
    (hps : ∀ p ∈ ps, p.Fits sizeInpChBuf) :
    Accepts 8 s.wsmTxSeq (((wire (s.run sizeInpChBuf ps)).flatMap frames).map rdSeq) ↔
      ∀ pre b post, s.run sizeInpChBuf ps = pre ++ b :: post → b.1.isSome →
        8 ∣ lost (batches pre) := by
  have hs : Idle s.wsmTxSeq s := ⟨hbuff, (Nat.mod_eq_of_lt hseq).symm⟩
  obtain ⟨hread, hne⟩ := frames_run hsize.2 hs hps
  have hnumbers : ((wire (s.run sizeInpChBuf ps)).flatMap frames).map rdSeq =
      (arrivals 8 s.wsmTxSeq (batches (s.run sizeInpChBuf ps))).map Prod.fst := map_rdSeq hread
  rw [hnumbers, accepts_arrivals_iff]
  constructor
  · intro h pre b post hrun hb
    refine h (batches pre) ⟨b.1.isSome, b.2⟩ (batches post) ?_ hb (hne b (by rw [hrun]; simp) hb)
    rw [hrun, batches, List.map_append, List.map_cons]
    rfl
  · intro h pre b post hrun hb _
    obtain ⟨pre', rest, hsplit, rfl, hrest⟩ := List.map_eq_append_iff.mp hrun
    obtain ⟨b', post', rfl, rfl, -⟩ := List.map_eq_cons_iff.mp hrest
    exact h pre' b' post' hsplit hb

/-- A pass that is not written between two that are. -/
def lossy : List Pass :=
  [⟨batch, fun _ => true⟩, ⟨batch, fun _ => false⟩, ⟨batch, fun i => i = 3⟩]

theorem fits_lossy : ∀ p ∈ lossy, p.Fits 1632 := by
  have hbatch : ∀ r ∈ batch, ∀ m, r.msg = some m → m.len.toNat ≤ 1632 := by
    intro r hr m hm
    rcases List.mem_cons.mp hr with rfl | hr
    · obtain rfl := Option.some.inj hm
      decide
    rcases List.mem_cons.mp hr with rfl | hr
    · obtain rfl := Option.some.inj hm
      decide
    · rw [List.mem_singleton.mp hr] at hm
      cases hm
  intro p hp
  simp only [lossy, List.mem_cons, List.not_mem_nil, or_false] at hp
  rcases hp with rfl | rfl | rfl <;> exact hbatch

theorem frames_of_run_lossy :
    ((start 8).run 1632 lossy).map (fun b => (b.1.isSome, b.2.length)) =
        [(true, 2), (false, 2), (true, 2)] ∧
      List.Forall₂ (fun b p => b.2 <+: got p.rounds) ((start 8).run 1632 lossy)
        (lossy.take ((start 8).run 1632 lossy).length) ∧
      List.Forall₂ (fun (a : ℕ × Msg) l => a.2.ReadAs a.1 l)
        (arrivals 8 (start 8).wsmTxSeq (batches ((start 8).run 1632 lossy)))
        ((wire ((start 8).run 1632 lossy)).flatMap frames) :=
  ⟨by decide +kernel, frames_of_run (start 8) List.length_replicate (by decide) (by decide) lossy
    fits_lossy⟩

theorem accepts_iff_lossy :
    ¬ 8 ∣ lost (batches (((start 8).run 1632 lossy).take 2)) ∧
      (Accepts 8 (start 8).wsmTxSeq
          (((wire ((start 8).run 1632 lossy)).flatMap frames).map rdSeq) ↔
        ∀ pre b post, (start 8).run 1632 lossy = pre ++ b :: post → b.1.isSome →
          8 ∣ lost (batches pre)) :=
  ⟨by decide +kernel, accepts_iff (start 8) List.length_replicate (by decide) (by decide) lossy
    fits_lossy⟩

end Atbm6441.Sdio.TxBh
