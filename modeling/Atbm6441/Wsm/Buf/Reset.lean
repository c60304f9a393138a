import Atbm6441.Wsm.Buf.Model
import Atbm6441.Wsm.Cmd.Model

/-!
# What a command leaves in the buffer

`transcript_clean_iff` : every call leaves the buffer reset and sends its own arguments exactly when
every call is served (`Served`): its puts find room, and a command without an answer gets its buffer.
`leftover_sent` : otherwise the next command carries bytes of an earlier one.
-/

namespace Atbm6441.Wsm.Buf

open Atbm6441.Lib Atbm6441.Os

/-! ### The property and the condition -/

/-- The state that `wsm_buf_reset` leaves. -/
def WsmBuf.IsReset (b : WsmBuf) : Prop :=
  ∃ m, b.mem = some m ∧ hdrTxLen ≤ m.length ∧ m.take 4 = leBytes 4 0 ∧ b.data = hdrTxLen

/-- **A call is clean**: it leaves the buffer reset, and behind the header its message is exactly its
encoded arguments. -/
def Clean (c : Call) (o : Option Result) : Prop :=
  ∃ r, o = some r ∧ r.buf.IsReset ∧ ∀ m, r.msg = some m →
    m.length = hdrTxLen + c.payload.length ∧ m.drop hdrTxLen = c.payload

/-- `krealloc` of the RTOS has found the bytes `l`, from `off` on. -/
def Block.Finds (blk : Block) (off : ℕ) (l : List UInt8) : Prop :=
  (List.range l.length).map (fun i => blk.found (off + i)) = l

/-- **The puts find room** for what comes behind the bytes `l`, which leaves `size'` bytes: where a put
does not fit, the allocation succeeds and what is reserved is enough. In the end what was put is there,
when `l` is at first (`ok`): `krealloc` keeps it on Linux, and has to find it on the RTOS. -/
def Room (size : ℕ) (l : List UInt8) (ok : Prop) :
    List (List UInt8) → (ℕ → Alloc) → ℕ → Prop
  | [], _, size' => size' = size ∧ ok
  | bs :: bss, alloc, size' =>
    let need := hdrTxLen + l.length + bs.length
    if need ≤ size then Room size (l ++ bs) ok bss (fun i => alloc (i + 1)) size'
    else ∃ blk, alloc 0 = some blk ∧ need ≤ WsmBuf.reserveSize need ∧
      Room (WsmBuf.reserveSize need) (l ++ bs)
        (blk.port = .linux ∧ ok ∨ blk.port = .rtos ∧ blk.Finds hdrTxLen l) bss
        (fun i => alloc (i + 1)) size'

/-- **A call is served**: its puts find room, which leaves `size'` bytes, and a command without an
answer that has arguments gets a buffer for its message. -/
def CallServed (size : ℕ) (c : Call) (e : Env) (size' : ℕ) : Prop :=
  Room size [] True c.puts e.krealloc size' ∧ (c.noAck = true → e.skb = true ∨ c.payload = [])

/-- **Every call is served.** -/
def Served : ℕ → List (Call × Env) → Prop
  | _, [] => True
  | size, (c, e) :: cs => ∃ size', CallServed size c e size' ∧ Served size' cs

/-! ### What `krealloc` leaves -/

namespace Block

/-- What is left of the bytes from `off` on. -/
def kept (blk : Block) (off : ℕ) (l : List UInt8) : List UInt8 :=
  match blk.port with
  | .linux => l
  | .rtos => (List.range l.length).map fun i => blk.found (off + i)

variable (blk : Block) {l m : List UInt8}

@[simp] theorem length_kept (off : ℕ) (l : List UInt8) : (blk.kept off l).length = l.length := by
  unfold kept
  cases blk.port <;> simp

theorem kept_append (off : ℕ) (l m : List UInt8) :
    blk.kept off (l ++ m) = blk.kept off l ++ blk.kept (off + l.length) m := by
  unfold kept
  cases blk.port with
  | linux => rfl
  | rtos =>
    simp [List.range_add, Nat.add_assoc]

theorem kept_eq_iff {off : ℕ} (hlen : m.length = l.length) : blk.kept off m = l ↔
    blk.port = .linux ∧ m = l ∨ blk.port = .rtos ∧ blk.Finds off l := by
  unfold kept Finds
  cases blk.port <;> simp [hlen]

theorem take_krealloc (old : List UInt8) {n size : ℕ} (hold : n ≤ old.length) (hsize : n ≤ size) :
    (blk.krealloc old size).take n = blk.kept 0 (old.take n) := by
  unfold krealloc kept
  cases blk.port with
  | linux => exact Port.take_krealloc_linux old blk.found hold hsize
  | rtos =>
    rw [Port.take_krealloc_rtos old blk.found hsize]
    simp [hold]

theorem krealloc_append (l rest : List UInt8) (size : ℕ) (h : l.length ≤ size) :
    ∃ rest', blk.krealloc (l ++ rest) size = blk.kept 0 l ++ rest' ∧
      l.length + rest'.length = size := by
  have htake := blk.take_krealloc (l ++ rest) (by simp) h
  rw [List.take_left] at htake
  refine ⟨(blk.krealloc (l ++ rest) size).drop l.length, ?_, ?_⟩
  · rw [← htake, List.take_append_drop]
  · rw [List.length_drop, length_krealloc]
    omega

end Block

/-! ### What the buffer holds -/

/-- The buffer holds `hd` in the room for the header, and the bytes `l` behind it. -/
structure Holds (b : WsmBuf) (size : ℕ) (hd l : List UInt8) : Prop where
  hdr : hd.length = hdrTxLen
  mem : ∃ rest, b.mem = some (hd ++ l ++ rest) ∧ hdrTxLen + l.length + rest.length = size
  data : b.data = hdrTxLen + l.length

/-- The buffer has been reset. -/
def Ready (b : WsmBuf) (size : ℕ) : Prop := ∃ hd, Holds b size hd [] ∧ hd.take 4 = leBytes 4 0

variable {b : WsmBuf} {size : ℕ} {hd l m bs : List UInt8} {alloc : Alloc}

theorem memcpy_append (a c x y : List UInt8) (h : c.length = x.length) :
    memcpy (a ++ x ++ y) a.length c = a ++ c ++ y := by
  simp [memcpy, h, List.drop_append]

namespace Holds

theorem size_eq (h : Holds b size hd l) : b.size = size := by
  obtain ⟨rest, hmem, hsize⟩ := h.mem
  rw [WsmBuf.size, hmem, Option.getD_some, List.length_append, List.length_append, h.hdr, hsize]

theorem isReset_iff (h : Holds b size hd l) : b.IsReset ↔ l = [] ∧ hd.take 4 = leBytes 4 0 := by
  obtain ⟨rest, hmem, hsize⟩ := h.mem
  have hdata := h.data
  have hhd := h.hdr
  have htake : (hd ++ l ++ rest).take 4 = hd.take 4 := by
    rw [List.append_assoc, List.take_append_of_le_length (by rw [hhd]; decide)]
  constructor
  · rintro ⟨m, hm, -, hzero, heq⟩
    obtain rfl := Option.some.inj (hmem.symm.trans hm)
    refine ⟨?_, htake ▸ hzero⟩
    rw [← List.length_eq_zero_iff]
    omega
  · rintro ⟨rfl, hzero⟩
    exact ⟨_, hmem, by simp [hhd], htake.trans hzero, hdata⟩

theorem le (h : Holds b size hd l) : hdrTxLen + l.length ≤ size := by
  obtain ⟨rest, -, hsize⟩ := h.mem
  omega

theorem write (h : Holds b size hd l) (hroom : hdrTxLen + l.length + bs.length ≤ size) :
    ∃ b', b.write bs = .done b' ∧ Holds b' size hd (l ++ bs) := by
  obtain ⟨rest, hmem, hsize⟩ := h.mem
  have hdata := h.data
  have hhd := h.hdr
  have hle : bs.length ≤ rest.length := by omega
  have hpos : b.data = (hd ++ l).length := by rw [hdata, List.length_append, hhd]
  have hcpy : memcpy (hd ++ l ++ rest) b.data bs = hd ++ l ++ bs ++ rest.drop bs.length := by
    have hcut : rest = rest.take bs.length ++ rest.drop bs.length := by simp
    conv_lhs => rw [hcut, ← List.append_assoc, hpos]
    exact memcpy_append _ _ _ _ (by simp [hle])
  have hlen : b.data + bs.length ≤ (hd ++ l ++ rest).length := by
    rw [List.length_append, ← hpos]
    omega
  refine ⟨⟨some (hd ++ l ++ bs ++ rest.drop bs.length), b.data + bs.length⟩, ?_, hhd, ?_, ?_⟩
  · simp only [WsmBuf.write, hmem, if_pos hlen, hcpy]
  · refine ⟨rest.drop bs.length, by simp, ?_⟩
    simp
    omega
  · simp [hdata]
    omega

theorem reserve (h : Holds b size hd l) {n : ℕ} (blk : Block)
    (hroom : b.data + n ≤ WsmBuf.reserveSize (b.data + n)) :
    ∃ b', b.reserve n (some blk) = .done b' ∧
      Holds b' (WsmBuf.reserveSize (b.data + n)) (blk.kept 0 hd) (blk.kept hdrTxLen l) := by
  obtain ⟨rest, hmem, hsize⟩ := h.mem
  have hdata := h.data
  have hhd := h.hdr
  have hpos : (hd ++ l).length = b.data := by rw [hdata, List.length_append, hhd]
  obtain ⟨rest', heq, hlen⟩ :=
    blk.krealloc_append (hd ++ l) rest (WsmBuf.reserveSize (b.data + n)) (by omega)
  rw [blk.kept_append, Nat.zero_add, hhd] at heq
  refine ⟨_, rfl, by simp [hhd], ⟨rest', ?_, by simp; omega⟩, by simp [hdata]⟩
  simp only [hmem, Option.getD_some, heq]

/-- **A put that fits** appends. -/
theorem put_fits (h : Holds b size hd l) (bs : List UInt8) (alloc : Alloc)
    (hfit : hdrTxLen + l.length + bs.length ≤ size) :
    ∃ b', b.put bs alloc = .done b' ∧ Holds b' size hd (l ++ bs) := by
  have hsize := h.size_eq
  have hdata := h.data
  rw [WsmBuf.put, if_neg (by omega)]
  exact h.write hfit

/-- **A put that makes the buffer grow** appends to what `krealloc` leaves. -/
theorem put_grows (h : Holds b size hd l) (bs : List UInt8) (blk : Block)
    (hfull : ¬ hdrTxLen + l.length + bs.length ≤ size)
    (hroom : hdrTxLen + l.length + bs.length ≤
      WsmBuf.reserveSize (hdrTxLen + l.length + bs.length)) :
    ∃ b', b.put bs (some blk) = .done b' ∧
      Holds b' (WsmBuf.reserveSize (hdrTxLen + l.length + bs.length)) (blk.kept 0 hd)
        (blk.kept hdrTxLen l ++ bs) := by
  have hsize := h.size_eq
  rw [← h.data] at hfull hroom ⊢
  obtain ⟨b₁, hreserve, h₁⟩ := h.reserve blk hroom
  rw [WsmBuf.put, if_pos (by omega), hreserve]
  refine h₁.write ?_
  rwa [Block.length_kept, ← h.data]

/-- **A put that finds no room** gives the buffer up or writes behind it. -/
theorem put_fails (h : Holds b size hd l) (bs : List UInt8) (alloc : Alloc)
    (hfull : ¬ hdrTxLen + l.length + bs.length ≤ size)
    (hno : ∀ blk, alloc = some blk → ¬ hdrTxLen + l.length + bs.length ≤
      WsmBuf.reserveSize (hdrTxLen + l.length + bs.length)) :
    b.put bs alloc = .nomem ⟨none, 0⟩ ∨ b.put bs alloc = .overrun := by
  have hsize := h.size_eq
  rw [← h.data] at hfull hno
  rw [WsmBuf.put, if_pos (by omega)]
  rcases alloc with _ | blk
  · exact .inl rfl
  · right
    simp only [WsmBuf.reserve, WsmBuf.write, Block.length_krealloc, if_neg (hno blk rfl)]

/-- **The puts** append one after the other, and find room exactly when what was put is there in the
end; or they stop. -/
theorem puts (h : Holds b size hd m) {ok : Prop} (hlen : m.length = l.length) (hok : ok ↔ m = l)
    (bss : List (List UInt8)) (alloc : ℕ → Alloc) :
    (∃ b' size' hd' m', b.puts bss alloc = .done b' ∧ Holds b' size' hd' m' ∧
      (m' = [] → hd' = hd) ∧ m'.length = l.length + bss.flatten.length ∧
      ∀ n, Room size l ok bss alloc n ↔ n = size' ∧ m' = l ++ bss.flatten) ∨
    (b.puts bss alloc = .nomem ⟨none, 0⟩ ∨ b.puts bss alloc = .overrun) ∧
      ∀ n, ¬ Room size l ok bss alloc n := by
  induction bss generalizing b size hd m l ok alloc with
  | nil =>
    refine .inl ⟨b, size, hd, m, rfl, h, fun _ => rfl, by simpa using hlen, fun n => ?_⟩
    rw [Room, hok, List.flatten_nil, List.append_nil]
  | cons bs bss ih =>
    simp only [WsmBuf.puts, Room, List.flatten_cons, ← List.append_assoc]
    by_cases hfit : hdrTxLen + l.length + bs.length ≤ size
    · obtain ⟨b₁, hput, h₁⟩ := h.put_fits bs (alloc 0) (by omega)
      have hok' : ok ↔ m ++ bs = l ++ bs := by rw [hok, List.append_cancel_right_eq]
      have hih := ih h₁ (by simp [hlen]) hok' fun i => alloc (i + 1)
      simp only [hput, if_pos hfit]
      simpa only [List.length_append, Nat.add_assoc] using hih
    · simp only [if_neg hfit]
      by_cases hgrow : ∃ blk, alloc 0 = some blk ∧ hdrTxLen + l.length + bs.length ≤
          WsmBuf.reserveSize (hdrTxLen + l.length + bs.length)
      · obtain ⟨blk, halloc, hroom⟩ := hgrow
        have hgrown := h.put_grows bs blk (by rwa [hlen]) (by rwa [hlen])
        rw [hlen] at hgrown
        obtain ⟨b₁, hput, h₁⟩ := hgrown
        have hok' : (blk.port = .linux ∧ ok ∨ blk.port = .rtos ∧ blk.Finds hdrTxLen l) ↔
            blk.kept hdrTxLen m ++ bs = l ++ bs := by
          rw [List.append_cancel_right_eq, blk.kept_eq_iff hlen, hok]
        have hih := ih h₁ (by simp [hlen]) hok' fun i => alloc (i + 1)
        simp only [halloc, hput, Option.some.injEq, exists_eq_left', hroom, true_and]
        rcases hih with ⟨b', size', hd', m', hputs, h', -, hlen', hiff⟩ | hstop
        · rw [List.length_append, Nat.add_assoc] at hlen'
          refine .inl ⟨b', size', hd', m', hputs, h', ?_, by rwa [List.length_append], hiff⟩
          rintro rfl
          have hle := h.le
          rw [List.length_nil] at hlen'
          omega
        · exact .inr hstop
      · right
        refine ⟨?_, fun n hn => ?_⟩
        · rcases h.put_fails bs (alloc 0) (by rwa [hlen]) fun blk halloc hroom =>
            hgrow ⟨blk, halloc, hlen ▸ hroom⟩ with hput | hput
          · exact .inl (by rw [hput])
          · exact .inr (by rw [hput])
        · obtain ⟨blk, halloc, hroom, -⟩ := hn
          exact hgrow ⟨blk, halloc, hroom⟩

theorem reset (h : Holds b size hd l) : Ready b.reset size := by
  obtain ⟨rest, hmem, hsize⟩ := h.mem
  have hhd := h.hdr
  have hcpy := memcpy_append [] (leBytes 4 0) (hd.take 4) (hd.drop 4 ++ l ++ rest)
    (by simp [hhd, hdrTxLen])
  have hcut : hd.take 4 ++ (hd.drop 4 ++ l ++ rest) = hd ++ l ++ rest := by
    rw [← List.append_assoc, ← List.append_assoc, List.take_append_drop]
  rw [List.nil_append, List.nil_append, List.length_nil, hcut] at hcpy
  refine ⟨leBytes 4 0 ++ hd.drop 4, ⟨by simp [hhd, hdrTxLen], ⟨l ++ rest, ?_, ?_⟩, ?_⟩, by simp⟩
  · simp only [WsmBuf.reset, hmem, hcpy]
    simp
  · simp
    omega
  · simp [WsmBuf.reset, hmem]

theorem fillHdr (h : Holds b size hd l) {fields : List UInt8} (hfields : fields.length = 4) :
    ∃ m, b.mem = some m ∧ hdrTxLen ≤ m.length ∧
      (memcpy m 4 fields).take b.data = hd.take 4 ++ fields ++ l ∧
      Holds ⟨some (memcpy m 4 fields), b.data⟩ size (hd.take 4 ++ fields) l := by
  obtain ⟨rest, hmem, hsize⟩ := h.mem
  have hdata := h.data
  have hhd := h.hdr
  have htake : (hd.take 4).length = 4 := by simp [hhd, hdrTxLen]
  have hnew : (hd.take 4 ++ fields).length = hdrTxLen := by simp [htake, hfields, hdrTxLen]
  have hcpy := memcpy_append (hd.take 4) fields (hd.drop 4) (l ++ rest)
    (by simp [hhd, hfields, hdrTxLen])
  rw [List.take_append_drop, htake, ← List.append_assoc, ← List.append_assoc] at hcpy
  have hpos : b.data = (hd.take 4 ++ fields ++ l).length := by
    rw [List.length_append, hnew, hdata]
  refine ⟨_, hmem, ?_, ?_, hnew, ⟨rest, by rw [hcpy], hsize⟩, hdata⟩
  · simp [hhd]
  · rw [hcpy, hpos, List.take_left]

/-- **The command is sent** with what the buffer holds, and the buffer is reset. -/
theorem send (h : Holds b size hd l) {c : Call} {e : Env} (hskb : ¬ (c.noAck ∧ ¬ e.skb)) :
    ∃ r, b.send c e = some r ∧ Ready r.buf size ∧
      r.msg = some (hd.take 4 ++ (leBytes 2 b.data ++ leBytes 2 c.hdrId.toNat) ++ l) := by
  obtain ⟨m, hmem, hlen, htake, hfill⟩ := h.fillHdr
    (show (leBytes 2 b.data ++ leBytes 2 c.hdrId.toNat).length = 4 by simp)
  unfold WsmBuf.send
  simp only [hmem, if_pos hlen, if_neg hskb, htake]
  exact ⟨_, rfl, hfill.reset, rfl⟩

theorem send_noSkb (h : Holds b size hd l) {c : Call} {e : Env} (hskb : c.noAck ∧ ¬ e.skb) :
    ∃ r hd', b.send c e = some r ∧ r.msg = none ∧ Holds r.buf size hd' l ∧
      hd'.take 4 = hd.take 4 := by
  obtain ⟨m, hmem, hlen, -, hfill⟩ := h.fillHdr
    (show (leBytes 2 b.data ++ leBytes 2 c.hdrId.toNat).length = 4 by simp)
  have hhd := h.hdr
  unfold WsmBuf.send
  simp only [hmem, if_pos hlen, if_pos hskb]
  exact ⟨_, _, rfl, rfl, hfill, by simp [hhd, hdrTxLen]⟩

end Holds

/-! ### Calls -/

theorem ready_init (fresh : ℕ → UInt8) : Ready (WsmBuf.init (some fresh)) maxWsmBufLen := by
  have hlen : ((List.range maxWsmBufLen).map fresh).length = 1632 := by simp [maxWsmBufLen]
  generalize hm : (List.range maxWsmBufLen).map fresh = m at hlen
  have h : Holds ⟨some m, hdrTxLen⟩ maxWsmBufLen (m.take hdrTxLen) [] :=
    ⟨by simp [hlen, hdrTxLen],
      ⟨m.drop hdrTxLen, by simp, by simp [hlen, hdrTxLen, maxWsmBufLen]⟩, rfl⟩
  have hinit : WsmBuf.init (some fresh) = WsmBuf.reset ⟨some m, hdrTxLen⟩ := by
    rw [← hm]
    rfl
  exact hinit ▸ h.reset

theorem Holds.clean_send_iff (h : Holds b size hd l) {c : Call} {e : Env}
    (hskb : ¬ (c.noAck ∧ ¬ e.skb)) : Clean c (b.send c e) ↔ l = c.payload := by
  obtain ⟨r, hsend, hready, hmsg⟩ := h.send hskb
  obtain ⟨hd', h', hzero⟩ := hready
  have hhd := h.hdr
  have hlen : (hd.take 4 ++ (leBytes 2 b.data ++ leBytes 2 c.hdrId.toNat)).length = hdrTxLen := by
    simp [hhd, hdrTxLen]
  constructor
  · rintro ⟨r', hr', -, hsent⟩
    obtain rfl := Option.some.inj (hsend.symm.trans hr')
    rw [← (hsent _ hmsg).2, List.drop_left' hlen]
  · rintro rfl
    refine ⟨r, hsend, h'.isReset_iff.mpr ⟨rfl, hzero⟩, fun m hm => ?_⟩
    obtain rfl := Option.some.inj (hmsg.symm.trans hm)
    exact ⟨by rw [List.length_append, hlen], List.drop_left' hlen⟩

theorem Holds.clean_noSkb_iff (h : Holds b size hd l) {c : Call} {e : Env}
    (hskb : c.noAck ∧ ¬ e.skb) :
    Clean c (b.send c e) ↔ l = [] ∧ hd.take 4 = leBytes 4 0 := by
  obtain ⟨r, hd', hsend, hmsg, h', hhd⟩ := h.send_noSkb hskb
  rw [← hhd, ← h'.isReset_iff]
  constructor
  · rintro ⟨r', hr', hreset, -⟩
    obtain rfl := Option.some.inj (hsend.symm.trans hr')
    exact hreset
  · refine fun hreset => ⟨r, hsend, hreset, fun m hm => ?_⟩
    rw [hmsg] at hm
    cases hm

/-- **A call** sends what its puts leave, which find room exactly when that is its arguments; or the
puts stop. -/
theorem Ready.call_cases (h : Ready b size) (c : Call) (e : Env) :
    (∃ b' size' hd m, b.call c e = b'.send c e ∧ Holds b' size' hd m ∧
      (m = [] → hd.take 4 = leBytes 4 0) ∧ m.length = c.payload.length ∧
      ∀ n, Room size [] True c.puts e.krealloc n ↔ n = size' ∧ m = c.payload) ∨
    (∀ r, b.call c e = some r → ¬ r.buf.IsReset) ∧
      ∀ n, ¬ Room size [] True c.puts e.krealloc n := by
  obtain ⟨hd, h, hzero⟩ := h
  rcases h.puts rfl (iff_of_true trivial rfl) c.puts e.krealloc with
    ⟨b', size', hd', m, hputs, h', hhd, hlen, hiff⟩ | ⟨hputs, hno⟩
  · refine .inl ⟨b', size', hd', m, ?_, h', fun hm => by rw [hhd hm, hzero], ?_, hiff⟩
    · rw [WsmBuf.call, hputs]
    · rwa [List.length_nil, Nat.zero_add] at hlen
  · refine .inr ⟨fun r hcall hreset => ?_, hno⟩
    rcases hputs with hputs | hputs <;> rw [WsmBuf.call, hputs] at hcall <;> cases hcall
    obtain ⟨m, hm, -⟩ := hreset
    cases hm

/-- **A call is clean exactly when it is served.** -/
theorem Ready.clean_iff (h : Ready b size) (c : Call) (e : Env) :
    Clean c (b.call c e) ↔ ∃ size', CallServed size c e size' := by
  unfold CallServed
  rcases h.call_cases c e with ⟨b', size', hd, m, hcall, h', hzero, hlen, hiff⟩ | ⟨hcall, hno⟩
  · simp only [hiff, hcall]
    by_cases hskb : c.noAck ∧ ¬ e.skb
    · rw [h'.clean_noSkb_iff hskb]
      constructor
      · rintro ⟨rfl, -⟩
        have hnil : c.payload = [] := List.length_eq_zero_iff.mp hlen.symm
        exact ⟨size', ⟨rfl, hnil.symm⟩, fun _ => .inr hnil⟩
      · rintro ⟨-, ⟨-, hm⟩, hno⟩
        have hnil : m = [] := hm.trans ((hno hskb.1).resolve_left hskb.2)
        exact ⟨hnil, hzero hnil⟩
    · rw [h'.clean_send_iff hskb]
      constructor
      · exact fun hm => ⟨size', ⟨rfl, hm⟩, fun hno => .inl (by_contra fun hs => hskb ⟨hno, hs⟩)⟩
      · rintro ⟨-, ⟨-, hm⟩, -⟩
        exact hm
  · simp only [hno, false_and, exists_false, iff_false]
    rintro ⟨r, hr, hreset, -⟩
    exact hcall r hr hreset

theorem Ready.served (h : Ready b size) {c : Call} {e : Env} {size' : ℕ}
    (hs : CallServed size c e size') : ∃ r, b.call c e = some r ∧ Ready r.buf size' := by
  obtain ⟨hroom, hno⟩ := hs
  rcases h.call_cases c e with ⟨b', n, hd, m, hcall, h', hzero, -, hiff⟩ | ⟨-, hstop⟩
  · obtain ⟨rfl, hm⟩ := (hiff size').mp hroom
    rw [hcall]
    by_cases hskb : c.noAck ∧ ¬ e.skb
    · have hnil : m = [] := hm.trans ((hno hskb.1).resolve_left hskb.2)
      obtain ⟨r, hd', hsend, -, hr, hhd'⟩ := h'.send_noSkb hskb
      rw [hnil] at hr
      exact ⟨r, hsend, hd', hr, by rw [hhd', hzero hnil]⟩
    · obtain ⟨r, hsend, hready, -⟩ := h'.send hskb
      exact ⟨r, hsend, hready⟩
  · exact absurd hroom (hstop size')

theorem transcript_clean_iff_of_ready (h : Ready b size) (cs : List (Call × Env)) :
    (∀ r ∈ b.transcript cs, Clean r.1 r.2) ↔ Served size cs := by
  induction cs generalizing b size with
  | nil => simp [WsmBuf.transcript, Served]
  | cons ce cs ih =>
    obtain ⟨c, e⟩ := ce
    rw [WsmBuf.transcript, List.forall_mem_cons, Served]
    constructor
    · rintro ⟨hclean, hrest⟩
      obtain ⟨size', hs⟩ := (h.clean_iff c e).mp hclean
      obtain ⟨r, hcall, hr⟩ := h.served hs
      rw [hcall] at hrest
      exact ⟨size', hs, (ih hr).mp hrest⟩
    · rintro ⟨size', hs, hrest⟩
      obtain ⟨r, hcall, hr⟩ := h.served hs
      refine ⟨(h.clean_iff c e).mpr ⟨size', hs⟩, ?_⟩
      rw [hcall]
      exact (ih hr).mpr hrest

/-- **Every call is clean exactly when every call is served**, from the initialisation on. -/
theorem transcript_clean_iff (fresh : ℕ → UInt8) (cs : List (Call × Env)) :
    (∀ r ∈ (WsmBuf.init (some fresh)).transcript cs, Clean r.1 r.2) ↔ Served maxWsmBufLen cs :=
  transcript_clean_iff_of_ready (ready_init fresh) cs

/-! ### The buffer of the command path -/

/-- The buffer holds what the buffer of the command path holds, which never runs out of memory. -/
structure Shows (b : WsmBuf) (size : ℕ) (c : Cmd.WsmBuf) : Prop where
  le : c.data ≤ c.mem.length
  holds : ∃ hd, Holds b size hd (c.mem.take c.data)

namespace Shows

variable {c : Cmd.WsmBuf}

theorem of_put (h : c.data ≤ c.mem.length)
    (hput : ∃ hd, Holds b size hd (c.mem.take c.data ++ bs)) : Shows b size (c.put bs) := by
  have htake : (c.mem.take c.data).length = c.data := List.length_take_of_le h
  have heq : (c.put bs).mem.take (c.put bs).data = c.mem.take c.data ++ bs :=
    List.take_left' (by rw [List.length_append, htake]; rfl)
  refine ⟨?_, heq ▸ hput⟩
  simp only [Cmd.WsmBuf.put, List.length_append, htake]
  omega

theorem put (h : Shows b size c)
    (hroom : hdrTxLen + c.data + bs.length ≤ size ∨ ∃ blk, alloc = some blk ∧
      blk.port = .linux ∧ hdrTxLen + c.data + bs.length ≤
        WsmBuf.reserveSize (hdrTxLen + c.data + bs.length)) :
    ∃ b' size', b.put bs alloc = .done b' ∧ Shows b' size' (c.put bs) := by
  obtain ⟨hd, hholds⟩ := h.holds
  have htake : (c.mem.take c.data).length = c.data := List.length_take_of_le h.le
  rw [← htake] at hroom
  by_cases hfit : hdrTxLen + (c.mem.take c.data).length + bs.length ≤ size
  · obtain ⟨b', hput, h'⟩ := hholds.put_fits bs alloc hfit
    exact ⟨b', size, hput, of_put h.le ⟨hd, h'⟩⟩
  · obtain ⟨blk, rfl, hport, hgrow⟩ := hroom.resolve_left hfit
    obtain ⟨b', hput, h'⟩ := hholds.put_grows bs blk hfit hgrow
    have hkept : blk.kept hdrTxLen (c.mem.take c.data) = c.mem.take c.data :=
      (blk.kept_eq_iff rfl).mpr (.inl ⟨hport, rfl⟩)
    rw [hkept] at h'
    exact ⟨b', _, hput, of_put h.le ⟨_, h'⟩⟩

theorem reset (h : Shows b size c) : Shows b.reset size c.reset := by
  obtain ⟨hd, hholds⟩ := h.holds
  obtain ⟨hd', hready, -⟩ := hholds.reset
  exact ⟨Nat.zero_le _, hd', by simpa [Cmd.WsmBuf.reset] using hready⟩

/-- **The message is that of the command path**, as long as its length fits the header. -/
theorem send (h : Shows b size c) (hlen : c.bufLen < 2 ^ 16) {call : Call} {e : Env}
    (hskb : ¬ (call.noAck ∧ ¬ e.skb)) (cmd ifId : BitVec 16) (owner : ℕ) :
    ∃ r m, b.send call e = some r ∧ r.msg = some m ∧
      m.drop hdrTxLen = (c.fillHdr cmd ifId owner).msg.body := by
  obtain ⟨hd, hholds⟩ := h.holds
  have hhd := hholds.hdr
  obtain ⟨r, hsend, -, hmsg⟩ := hholds.send hskb
  have hbody : (BitVec.ofNat 16 c.bufLen).toNat - 8 = c.data := by
    rw [BitVec.toNat_ofNat, Nat.mod_eq_of_lt hlen, Cmd.WsmBuf.bufLen]
    omega
  refine ⟨r, _, hsend, hmsg, ?_⟩
  rw [List.drop_left' (by simp [hhd, hdrTxLen]), Cmd.WsmBuf.msg, Cmd.WsmBuf.fillHdr]
  simp only [hbody]

end Shows

/-! ### Runs -/

/-- A call that meets these allocations. -/
def meets (alloc : Alloc) (skb : Bool) : Env := ⟨fun _ => alloc, skb, 0⟩

/-- A command without an answer that gets no buffer, and a command after it. -/
def afterNoSkb : List (Call × Env) :=
  [(.sendIpcData [1, 2, 3, 4], meets none false), (.set .setPsmode [9], meets none true)]

/-- **The next command carries bytes of an earlier one.** -/
theorem leftover_sent : ∃ r ∈ (WsmBuf.init (some fun _ => 0)).transcript afterNoSkb,
    (r.2.bind Result.msg).map (List.drop hdrTxLen) = some [1, 2, 3, 4, 9] ∧
      r.1.payload = [9] ∧ ¬ Clean r.1 r.2 := by
  have hout : ((WsmBuf.init (some fun _ => 0)).transcript afterNoSkb).map (fun r =>
      ((r.2.bind Result.msg).map (List.drop hdrTxLen), r.1.payload)) =
        [(none, [1, 2, 3, 4]), (some [1, 2, 3, 4, 9], [9])] := by
    decide +kernel
  have hmem : (some [1, 2, 3, 4, 9], [9]) ∈
      ((WsmBuf.init (some fun _ => 0)).transcript afterNoSkb).map (fun r =>
        ((r.2.bind Result.msg).map (List.drop hdrTxLen), r.1.payload)) := by
    rw [hout]
    simp
  obtain ⟨r, hr, heq⟩ := List.mem_map.mp hmem
  obtain ⟨hmsg, hpay⟩ := Prod.mk.inj heq
  refine ⟨r, hr, hmsg, hpay, ?_⟩
  rintro ⟨res, hres, -, hsent⟩
  rw [hres, Option.bind_some] at hmsg
  obtain ⟨m, hm, hdrop⟩ := Option.map_eq_some_iff.mp hmsg
  have := (hsent m hm).2
  rw [hdrop, hpay] at this
  simp at this

/- After a put that did not get memory the next command starts where its header belongs. -/
example : ((WsmBuf.init (some fun _ => 0)).transcript
    [(.set .updateFw (List.replicate 1625 0), meets none true),
      (.set .setPsmode [9, 8, 7, 6, 5, 4, 3, 2, 1], meets (some ⟨.linux, fun _ => 0⟩) true)]).map
        (fun r => r.2.bind Result.msg) = [none, some [9, 8, 7, 6, 9, 0, 8, 0, 1]] := by
  decide +kernel

end Atbm6441.Wsm.Buf
