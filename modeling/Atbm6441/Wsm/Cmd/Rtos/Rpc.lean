import Atbm6441.Wsm.Cmd.Confirm
import Atbm6441.Wsm.Cmd.Rtos.Returns

/-!
# Commands on the RTOS, when the device answers them

`rpc` : in every run whose writes succeed and whose device answers no message twice, the commands go
to the device one after the other, each once and as it was built, each sender gets the confirm of its
own command, and comes back with it. On Linux this needs senders that do not time out; here there are
none.
-/

namespace Atbm6441.Wsm.Cmd.Rtos

open Atbm6441.Lib

/-- **The steps** of a bus that writes and a device that answers what it has got, and once; with the
commands of the driver, whose length fits the header. -/
def Faithful (p : Port) : Act → Prop
  | .stray _ => False
  | .own (.confirm k) => k ∉ p.answered
  | .own (.write ok) => ok = true
  | .own (.send cmd ifId arg) => FromDriver (.own (.send cmd ifId arg)) ∧ p.cmd.buf.bufLen < 2 ^ 16
  | _ => True

/-- How many commands are in the transfer buffer or have been handed to the bus. -/
def Port.transmitted (p : Port) : ℕ :=
  p.cmd.cur + (if p.cmd.slot.ptr.isSome then p.cmd.tx.isCopied else p.cmd.sender.registered).toNat

/-- How many commands have been answered. -/
def Port.replied (p : Port) : ℕ :=
  p.cmd.cur + (if p.cmd.sender = .waiting then decide (p.cmd.slot.cmd = 0xffff)
    else p.cmd.sender.registered).toNat

/-- The message in the transfer buffer. -/
def full : TxPc → Bool
  | .copied _ | .found _ | .txed => true
  | .idle | .tested | .got _ _ => false

/-- The header in the buffer is that of the command. -/
structure Hdr (buf : WsmBuf) (cur : ℕ) (cmd : BitVec 16) (len : ℕ) : Prop where
  owner : buf.owner = cur
  id : buf.id &&& 0x3f = cmd &&& 0x3f
  len : buf.len.toNat = len

structure Line (p : Port) : Prop where
  out : p.cmd.out.map (·.cmd) = List.range p.transmitted
  owner : ∀ e ∈ p.cmd.out, e.owner = e.cmd
  xmit : p.cmd.xmitBuff.length = (full p.cmd.tx).toNat
  answered : p.answered = List.range p.replied
  submitted : ∀ cmd arg, p.cmd.sender = .submitted cmd arg →
    Hdr p.cmd.buf p.cmd.cur cmd p.cmd.buf.bufLen
  pending : p.cmd.slot.ptr.isSome = true → p.cmd.slot.cmd ≠ 0xffff ∧
    (p.cmd.tx.isCopied = false → Hdr p.cmd.buf p.cmd.cur p.cmd.slot.cmd p.cmd.slot.len)
  got : ∀ n len, p.cmd.tx = .got n len → len = p.cmd.slot.len
  txed : p.cmd.tx = .txed → p.cmd.sender = .waiting ∧ p.cmd.slot.ptr = none ∧
    p.cmd.slot.cmd ≠ 0xffff
  /-- the confirm of the command that is waited for is taken for it -/
  taken : p.cmd.slot.cmd ≠ 0xffff → ∀ e ∈ p.cmd.out, e.cmd = p.cmd.cur →
    p.cmd.slot.isCnf e.cnfId = true
  /-- the command that is waited for is not lost -/
  live : p.cmd.sender = .waiting → ¬ p.Wedged
  own : ∀ e, p.cmd.rx.msg = some e → p.cmd.sent[p.cmd.cur]? = some e
  doneBy : p.cmd.sender = .waiting → p.cmd.slot.done = true →
    ∃ e, p.cmd.slot.doneBy = some e ∧ p.cmd.sent[p.cmd.cur]? = some e
  noBug : p.cmd.bug = none

structure Inv (p : Port) : Prop where
  paired : Paired p
  ids : Ids p.cmd
  hand : InHand p.cmd
  waits : Waits p.cmd
  line : Line p

variable {p q : Port} {s t : State} {a : Cmd.Act} {b : Act}

theorem isCnf_of_low {c : WsmCmd} (h : IsId c.cmd) {id : BitVec 16}
    (hid : id &&& 0x3f#16 = c.cmd &&& 0x3f#16) :
    c.isCnf (id &&& 0x3ff#16 ||| 0x400#16) = true := by
  have hlow : ∀ j : Fin 16, (0x3f#16)[j] = decide (j.val < 6) := by decide
  have hmid : ∀ j : Fin 16, (0x3c0#16)[j] = decide (6 ≤ j.val ∧ j.val < 10) := by decide
  have hten : ∀ j : Fin 16, (0x3ff#16)[j] = decide (j.val < 10) := by decide
  have hcnf : ∀ j : Fin 16, (0x400#16)[j] = decide (j.val = 10) := by decide
  rw [WsmCmd.isCnf, beq_iff_eq]
  ext i hi
  have hbit := congrArg (fun b : BitVec 16 => b[i]) hid
  simp only [BitVec.getElem_and, BitVec.getElem_or, BitVec.getElem_not] at hbit ⊢
  rw [show (0x3f#16)[i] = _ from hlow ⟨i, hi⟩] at hbit
  rw [show (0x3c0#16)[i] = _ from hmid ⟨i, hi⟩, show (0x3ff#16)[i] = _ from hten ⟨i, hi⟩,
    show (0x400#16)[i] = _ from hcnf ⟨i, hi⟩]
  rcases Nat.lt_or_ge i 6 with hlt | hge
  · rw [decide_eq_true hlt, Bool.and_true, Bool.and_true] at hbit
    have hten : i < 10 := by omega
    have hne : i ≠ 10 := by omega
    simp [hbit, hten, hne]
  rcases Nat.lt_or_ge i 10 with hlt | hge'
  · simp [hge, hlt]
  · have hzero : c.cmd[i] = false := by
      rw [← BitVec.getLsbD_eq_getElem]
      exact Nat.testBit_lt_two_pow (lt_of_lt_of_le h (Nat.pow_le_pow_right (by decide) hge'))
    have hten : ¬ i < 10 := by omega
    simp [hzero, hten]

theorem transmitted_of_none (hptr : p.cmd.slot.ptr = none) :
    p.transmitted = p.cmd.cur + p.cmd.sender.registered.toNat := by
  rw [Port.transmitted, hptr]
  rfl

theorem transmitted_of_some (hptr : p.cmd.slot.ptr.isSome = true) :
    p.transmitted = p.cmd.cur + p.cmd.tx.isCopied.toNat := by
  rw [Port.transmitted, if_pos hptr]

theorem replied_of_ne (hpc : p.cmd.sender ≠ .waiting) :
    p.replied = p.cmd.cur + p.cmd.sender.registered.toNat := by
  rw [Port.replied, if_neg hpc]

theorem replied_of_open (hpc : p.cmd.sender = .waiting) (hcmd : p.cmd.slot.cmd ≠ 0xffff) :
    p.replied = p.cmd.cur := by
  rw [Port.replied, if_pos hpc, decide_eq_false hcmd]
  rfl

theorem replied_of_taken (hpc : p.cmd.sender = .waiting) (hcmd : p.cmd.slot.cmd = 0xffff) :
    p.replied = p.cmd.cur + 1 := by
  rw [Port.replied, if_pos hpc, decide_eq_true hcmd]
  rfl

theorem line_start (mem : List UInt8) : Line ⟨start mem, 0, false, false, []⟩ := by
  refine ⟨rfl, nofun, rfl, rfl, nofun, nofun, nofun, nofun, nofun, nofun, nofun, nofun, rfl⟩

theorem Line.lt_of_mem (h : Line p) {e : Sent} (he : e ∈ p.cmd.out) : e.cmd < p.transmitted := by
  have hmem := List.mem_map_of_mem (f := (·.cmd)) he
  rw [h.out] at hmem
  exact List.mem_range.mp hmem

theorem Line.length_sent (h : Line p) :
    p.cmd.sent.length + (full p.cmd.tx).toNat = p.transmitted := by
  have hlen := congrArg List.length h.out
  rwa [List.length_map, List.length_range, State.out, List.length_append, h.xmit] at hlen

namespace Inv

theorem tx_idle (h : Inv p) (hpc : p.cmd.sender ≠ .waiting) :
    p.cmd.slot.ptr = none ∧ p.cmd.tx = .idle := by
  have hptr := h.hand.ptr_none hpc h.paired.pc.1
  have hin := h.hand.not_inHand hptr
  refine ⟨hptr, ?_⟩
  cases htx : p.cmd.tx with
  | idle => rfl
  | txed => exact absurd (h.line.txed htx).1 hpc
  | tested | got | copied | found =>
    rw [htx] at hin
    cases hin

/-- Nothing is in the slot of a sender that does not wait, but before the first command. -/
theorem out_nil (h : Inv p) (hpc : p.cmd.sender ≠ .waiting) (hcmd : p.cmd.slot.cmd ≠ 0xffff) :
    p.cmd.out = [] := by
  have hfresh := h.paired.first fun hreg => hpc (h.paired.free hreg hcmd)
  rw [State.out, hfresh.sent, hfresh.xmitBuff]
  rfl

theorem goto (h : Inv p) (hpc : p.cmd.sender ≠ .waiting) (ht : t.sender ≠ .waiting)
    (hcount : t.cur + t.sender.registered.toNat = p.cmd.cur + p.cmd.sender.registered.toNat)
    (hsent : t.sent = p.cmd.sent) (hbuff : t.xmitBuff = p.cmd.xmitBuff)
    (hslot : t.slot = p.cmd.slot) (htx : t.tx = p.cmd.tx) (hrx : t.rx = p.cmd.rx)
    (hbug : t.bug = p.cmd.bug)
    (hsub : ∀ cmd arg, t.sender = .submitted cmd arg → Hdr t.buf t.cur cmd t.buf.bufLen) :
    Line { p with cmd := t } := by
  obtain ⟨hptr, hidle⟩ := h.tx_idle hpc
  have hl := h.line
  have hout : t.out = p.cmd.out := by rw [State.out, State.out, hsent, hbuff]
  have htransmitted : Port.transmitted { p with cmd := t } = p.transmitted := by
    simp only [Port.transmitted, hslot, hptr]
    exact hcount
  have hreplied : Port.replied { p with cmd := t } = p.replied := by
    simp only [Port.replied, if_neg ht, if_neg hpc]
    exact hcount
  constructor <;> dsimp only
  · rw [hout, htransmitted]
    exact hl.out
  · rw [hout]
    exact hl.owner
  · rw [hbuff, htx]
    exact hl.xmit
  · rw [hreplied]
    exact hl.answered
  · exact hsub
  · rw [hslot, hptr]
    nofun
  · rw [htx, hidle]
    nofun
  · rw [htx, hidle]
    nofun
  · rw [hslot, hout]
    intro hcmd e he
    rw [h.out_nil hpc hcmd] at he
    cases he
  · exact fun hw => absurd hw ht
  · rw [hrx, h.paired.rx_idle hpc]
    nofun
  · exact fun hw => absurd hw ht
  · exact hbug.trans hl.noBug

theorem register (h : Inv p) {cmd : BitVec 16} {arg : Bool}
    (hpc : p.cmd.sender = .submitted cmd arg) :
    Line { p with cmd := { p.cmd with sender := .waiting, slot := p.cmd.registered cmd arg } } := by
  have hne : p.cmd.sender ≠ .waiting := by rw [hpc]; nofun
  obtain ⟨hptr, hidle⟩ := h.tx_idle hne
  have hl := h.line
  have hid : cmd ≠ 0xffff := by
    rintro rfl
    exact absurd (h.ids.submitted _ _ hpc) (by decide)
  have htransmitted : Port.transmitted { p with cmd := { p.cmd with
      sender := .waiting, slot := p.cmd.registered cmd arg } } = p.transmitted := by
    simp only [Port.transmitted, hptr, hpc, hidle, State.registered]
    rfl
  have hreplied : Port.replied { p with cmd := { p.cmd with
      sender := .waiting, slot := p.cmd.registered cmd arg } } = p.replied := by
    rw [replied_of_ne hne, hpc]
    exact replied_of_open rfl hid
  have hlen : p.transmitted = p.cmd.cur := by
    rw [transmitted_of_none hptr, hpc]
    rfl
  constructor <;> dsimp only
  · rw [htransmitted]
    exact hl.out
  · exact hl.owner
  · exact hl.xmit
  · rw [hreplied]
    exact hl.answered
  · nofun
  · exact fun _ => ⟨hid, fun _ => hl.submitted cmd arg hpc⟩
  · rw [hidle]
    nofun
  · rw [hidle]
    nofun
  · -- the command that is registered is not among those before it
    intro _ e he hcur
    have hlt := hl.lt_of_mem he
    rw [hcur, hlen] at hlt
    exact absurd hlt (Nat.lt_irrefl _)
  · exact fun _ hw => absurd hw.1 hid
  · rw [h.paired.rx_idle hne]
    nofun
  · nofun
  · exact hl.noBug

theorem complete (h : Inv p) (hpc : p.cmd.sender = .waiting) (hdone : p.cmd.slot.done = true)
    (ret : ℤ) : Line { p with cmd := { p.cmd with sender := .leaving ret }, woken := false } := by
  have hl := h.line
  have hptr := h.hand.ptr_none_of_done hdone
  have hcmd := h.paired.done hpc hdone
  have hidle : p.cmd.rx = .idle := by
    by_contra hrx
    rw [(h.paired.busy hrx).2.1] at hdone
    cases hdone
  have htransmitted : Port.transmitted { p with
      cmd := { p.cmd with sender := .leaving ret }, woken := false } = p.transmitted := by
    rw [transmitted_of_none hptr, hpc]
    exact transmitted_of_none hptr
  have hreplied : Port.replied { p with
      cmd := { p.cmd with sender := .leaving ret }, woken := false } = p.replied := by
    rw [replied_of_taken hpc hcmd]
    exact replied_of_ne nofun
  constructor <;> dsimp only
  · rw [htransmitted]
    exact hl.out
  · exact hl.owner
  · exact hl.xmit
  · rw [hreplied]
    exact hl.answered
  · nofun
  · exact hl.pending
  · exact hl.got
  · intro htx
    exact absurd hcmd (hl.txed htx).2.2
  · exact hl.taken
  · nofun
  · rw [hidle]
    nofun
  · nofun
  · exact hl.noBug

/-- The bottom half moves on without a copy. -/
theorem txGoto (h : Inv p) (hsender : t.sender = p.cmd.sender) (hcur : t.cur = p.cmd.cur)
    (hbuf : t.buf = p.cmd.buf) (hslot : t.slot = p.cmd.slot) (hsent : t.sent = p.cmd.sent)
    (hbuff : t.xmitBuff = p.cmd.xmitBuff) (hrx : t.rx = p.cmd.rx) (hbug : t.bug = p.cmd.bug)
    (hcopied : t.tx.isCopied = p.cmd.tx.isCopied) (hfull : full t.tx = full p.cmd.tx)
    (hgot : ∀ n len, t.tx = .got n len → len = p.cmd.slot.len) (htxed : t.tx ≠ .txed) :
    Line { p with cmd := t } := by
  have hl := h.line
  have hout : t.out = p.cmd.out := by rw [State.out, State.out, hsent, hbuff]
  have htransmitted : Port.transmitted { p with cmd := t } = p.transmitted := by
    simp only [Port.transmitted, hslot, hcopied, hsender, hcur]
  have hreplied : Port.replied { p with cmd := t } = p.replied := by
    simp only [Port.replied, hslot, hsender, hcur]
  constructor <;> dsimp only
  · rw [hout, htransmitted]
    exact hl.out
  · rw [hout]
    exact hl.owner
  · rw [hbuff, hfull]
    exact hl.xmit
  · rw [hreplied]
    exact hl.answered
  · rw [hsender, hbuf, hcur]
    exact hl.submitted
  · rw [hslot, hcopied, hbuf, hcur]
    exact hl.pending
  · rw [hslot]
    exact hgot
  · exact fun ht => absurd ht htxed
  · rw [hslot, hout, hcur]
    exact hl.taken
  · simp only [Port.Wedged, hsender, hslot, hrx]
    exact hl.live
  · rw [hrx, hsent, hcur]
    exact hl.own
  · rw [hsender, hslot, hsent, hcur]
    exact hl.doneBy
  · exact hbug.trans hl.noBug

/-- **A command is copied**, behind those before it. -/
theorem linearize (h : Inv p) {n len : ℕ} (hpc : p.cmd.tx = .got n len) :
    Line { p with cmd := p.cmd.linearized n } := by
  have hl := h.line
  obtain rfl : n = p.cmd.cur := h.hand.got n len hpc
  have hptr : p.cmd.slot.ptr = some p.cmd.cur := h.hand.hand (by rw [hpc]; rfl)
  have hsome : p.cmd.slot.ptr.isSome = true := by rw [hptr]; rfl
  have hcopied : p.cmd.tx.isCopied = false := by rw [hpc]; rfl
  obtain ⟨hcmd, hhdr⟩ := hl.pending hsome
  have hhdr := hhdr hcopied
  have hbefore : p.transmitted = p.cmd.cur := by
    rw [transmitted_of_some hsome, hcopied]
    rfl
  have hafter : Port.transmitted { p with cmd := p.cmd.linearized p.cmd.cur } = p.cmd.cur + 1 :=
    transmitted_of_some hsome
  constructor <;> dsimp only
  · rw [linearized_out, List.map_append, hl.out, hbefore, hafter, List.range_succ]
    rfl
  · intro e he
    rw [linearized_out] at he
    rcases List.mem_append.mp he with he | he
    · exact hl.owner e he
    · rw [List.mem_singleton.mp he]
      exact hhdr.owner
  · show (p.cmd.xmitBuff ++ [p.cmd.copy p.cmd.cur]).length = 1
    rw [List.length_append, hl.xmit, hpc]
    rfl
  · exact hl.answered
  · intro cmd arg hs
    change p.cmd.sender = _ at hs
    rcases (h.hand.ptr _ hptr).2.1 with hw | hw
    · rw [hw] at hs
      cases hs
    · exact absurd hw h.paired.pc.1
  · exact fun _ => ⟨hcmd, nofun⟩
  · nofun
  · nofun
  · intro _ e he hcur
    rw [linearized_out] at he
    rcases List.mem_append.mp he with he | he
    · have hlt := hl.lt_of_mem he
      change e.cmd = p.cmd.cur at hcur
      rw [hcur, hbefore] at hlt
      exact absurd hlt (Nat.lt_irrefl _)
    · rw [List.mem_singleton.mp he]
      exact isCnf_of_low (h.ids.slot hcmd) ((HdrKept.stamp p.cmd.buf _).trans hhdr.id)
  · exact hl.live
  · exact hl.own
  · exact hl.doneBy
  · exact hl.noBug

theorem txed (h : Inv p) {n : ℕ} (hpc : p.cmd.tx = .found n) :
    Line { p with cmd := { p.cmd with tx := .txed, slot := { p.cmd.slot with ptr := none } } } := by
  have hl := h.line
  have hptr : p.cmd.slot.ptr = some p.cmd.cur := h.hand.hand (by rw [hpc]; rfl)
  have hsome : p.cmd.slot.ptr.isSome = true := by rw [hptr]; rfl
  have hw : p.cmd.sender = .waiting := by
    rcases (h.hand.ptr _ hptr).2.1 with hw | hw
    · exact hw
    · exact absurd hw h.paired.pc.1
  have hbefore : p.transmitted = p.cmd.cur + 1 := by
    rw [transmitted_of_some hsome, hpc]
    rfl
  have hafter : Port.transmitted { p with cmd := { p.cmd with
      tx := .txed, slot := { p.cmd.slot with ptr := none } } } = p.transmitted := by
    rw [hbefore]
    refine (transmitted_of_none rfl).trans ?_
    show p.cmd.cur + p.cmd.sender.registered.toNat = _
    rw [hw]
    rfl
  constructor <;> dsimp only
  · rw [hafter]
    exact hl.out
  · exact hl.owner
  · rw [hl.xmit, hpc]
    rfl
  · exact hl.answered
  · exact hl.submitted
  · nofun
  · nofun
  · exact fun _ => ⟨hw, rfl, (hl.pending hsome).1⟩
  · exact hl.taken
  · exact hl.live
  · exact hl.own
  · exact hl.doneBy
  · exact hl.noBug

theorem written (h : Inv p) (hpc : p.cmd.tx = .txed ∨ p.cmd.tx = .idle) :
    Line { p with cmd := p.cmd.written } := by
  have hl := h.line
  have hcopied : p.cmd.tx.isCopied = false := by rcases hpc with hpc | hpc <;> rw [hpc] <;> rfl
  have hafter : Port.transmitted { p with cmd := p.cmd.written } = p.transmitted := by
    rw [Port.transmitted, Port.transmitted, hcopied]
    rfl
  have hsent {k : ℕ} {e : Sent} (hk : p.cmd.sent[k]? = some e) : p.cmd.written.sent[k]? = some e :=
    (List.getElem?_append_left (List.getElem?_eq_some_iff.mp hk).1).trans hk
  constructor <;> dsimp only
  · rw [written_out, hafter]
    exact hl.out
  · rw [written_out]
    exact hl.owner
  · rfl
  · exact hl.answered
  · exact hl.submitted
  · exact fun hptr => ⟨(hl.pending hptr).1, fun _ => (hl.pending hptr).2 hcopied⟩
  · nofun
  · nofun
  · rw [written_out]
    exact hl.taken
  · exact hl.live
  · exact fun e he => hsent (hl.own e he)
  · intro hw hdone
    obtain ⟨e, he, hk⟩ := hl.doneBy hw hdone
    exact ⟨e, he, hsent hk⟩
  · exact hl.noBug

/-- **What the device can answer** is the command that is waited for, once it has got it. -/
theorem answerable (h : Inv p) {k : ℕ} {e : Sent} (hk : p.cmd.sent[k]? = some e)
    (hnew : k ∉ p.answered) : k = p.cmd.cur ∧ e.cmd = p.cmd.cur ∧ p.cmd.sender = .waiting ∧
      p.cmd.slot.cmd ≠ 0xffff ∧ p.cmd.slot.ptr = none ∧ full p.cmd.tx = false := by
  have hl := h.line
  have hlen := hl.length_sent
  have hlt : k < p.cmd.sent.length := (List.getElem?_eq_some_iff.mp hk).1
  have hge : p.replied ≤ k := by
    rw [hl.answered, List.mem_range] at hnew
    exact Nat.le_of_not_lt hnew
  have hcmd : e.cmd = k := by
    have hout : p.cmd.out[k]? = some e := (List.getElem?_append_left hlt).trans hk
    have hrange := congrArg (fun l : List ℕ => l[k]?) hl.out
    simp only [List.getElem?_map, hout, Option.map_some] at hrange
    rw [List.getElem?_range (by omega), Option.some.injEq] at hrange
    exact hrange
  by_cases hpc : p.cmd.sender = .waiting
  · by_cases hfree : p.cmd.slot.cmd = 0xffff
    · rw [replied_of_taken hpc hfree] at hge
      have hle : p.transmitted ≤ p.cmd.cur + 1 := Nat.add_le_add_left (Bool.toNat_le _) _
      omega
    · rw [replied_of_open hpc hfree] at hge
      cases hptr : p.cmd.slot.ptr with
      | some n =>
        rw [transmitted_of_some (by rw [hptr]; rfl)] at hlen
        have hle : p.cmd.tx.isCopied.toNat ≤ (full p.cmd.tx).toNat := by
          cases p.cmd.tx <;> first | exact Nat.le_refl _ | exact Nat.zero_le _
        omega
      | none =>
        rw [transmitted_of_none hptr, hpc] at hlen
        change _ = p.cmd.cur + 1 at hlen
        cases hfull : full p.cmd.tx with
        | true =>
          rw [hfull, Bool.toNat_true] at hlen
          omega
        | false =>
          obtain rfl : k = p.cmd.cur := by omega
          exact ⟨rfl, hcmd, hpc, hfree, rfl, rfl⟩
  · rw [replied_of_ne hpc] at hge
    rw [transmitted_of_none (h.tx_idle hpc).1] at hlen
    omega

/-- **A confirm is taken** for the command that is waited for. -/
theorem confirm (h : Inv p) {k : ℕ} {e : Sent} (hk : p.cmd.sent[k]? = some e)
    (hnew : k ∉ p.answered) : Line { p with
      cmd := { p.cmd with
        slot := { p.cmd.slot with cmd := 0xffff }, rx := .handling e p.cmd.slot.arg }
      answered := p.answered ++ [k] } := by
  have hl := h.line
  obtain ⟨rfl, hcmd, hpc, hopen, hptr, hfull⟩ := h.answerable hk hnew
  have hreg : p.cmd.IsRegistered 0 := h.paired.registered_of_sent hk
  constructor <;> dsimp only
  · exact hl.out
  · exact hl.owner
  · exact hl.xmit
  · rw [hl.answered, replied_of_open hpc hopen, ← List.range_succ]
    refine congrArg List.range (Eq.symm ?_)
    exact replied_of_taken hpc rfl
  · exact hl.submitted
  · rw [hptr]
    nofun
  · exact hl.got
  · intro htx
    rw [htx] at hfull
    cases hfull
  · exact fun hne => absurd rfl hne
  · exact fun _ hw => (nomatch hw.2.2)
  · rintro e' ⟨⟩
    exact hk
  · intro _ hdone
    rw [(h.paired.outstanding hreg hopen).2] at hdone
    cases hdone
  · exact hl.noBug

theorem confirmed (h : Inv p) {e : Sent} {ret : ℤ} (hrx : p.cmd.rx = .handled e ret) :
    Line { p with
      cmd := { p.cmd with
        rx := .idle
        slot := { p.cmd.slot with ret := ret, done := true, doneBy := some e } }
      toWake := true } := by
  have hl := h.line
  refine ⟨hl.out, hl.owner, hl.xmit, hl.answered, hl.submitted, hl.pending, hl.got, hl.txed,
    hl.taken, fun _ hw => (nomatch hw.2.1), nofun, fun _ _ => ⟨e, rfl, hl.own e ?_⟩, hl.noBug⟩
  rw [hrx]
  rfl

/-- **Every step of the command path** keeps the line. -/
theorem line_own (h : Inv p) (hon : Faithful p (.own a)) (hs : p.cmd.step a = some t)
    (hq : p.ownStep a t = some q) : Line q := by
  have hl := h.line
  cases (branch_of_step hs).2 with
  | lock hpc | nomem hpc =>
    cases hq
    exact h.goto (by simp [hpc]) (by simp) (by rw [hpc]; rfl) rfl rfl rfl rfl rfl rfl (by simp)
  | put bs hpc =>
    cases hq
    exact h.goto (by simp [hpc]) (by simp [hpc]) rfl rfl rfl rfl rfl rfl rfl (by simp [hpc])
  | send cmd ifId arg hpc =>
    cases hq
    refine h.goto (by simp [hpc]) (by simp) (by rw [hpc]; rfl) rfl rfl rfl rfl rfl rfl ?_
    rintro cmd arg ⟨⟩
    exact ⟨rfl, and_or_shift _ _, Nat.mod_eq_of_lt hon.2⟩
  | registerBug hpc hptr =>
    rw [(h.tx_idle (by simp [hpc])).1] at hptr
    cases hptr
  | register hpc hptr =>
    cases hq
    exact h.register hpc
  | timeout hpc hdone =>
    rw [Port.ownStep] at hq
    split_ifs at hq with hw
    rw [(h.paired.done_of_woken hw).2] at hdone
    cases hdone
  | complete hpc hdone =>
    rw [Port.ownStep] at hq
    split_ifs at hq with hw
    cases hq
    exact h.complete hpc hdone _
  | giveUp hpc | giveUpRace hpc => exact absurd hpc h.paired.pc.1
  | lastChance hpc | lastChanceBug hpc => exact absurd hpc h.paired.pc.2
  | leave hpc =>
    cases hq
    exact h.goto (by simp [hpc]) (by simp) (by rw [hpc]; rfl) rfl rfl rfl rfl rfl rfl (by simp)
  | test frame hpc =>
    cases hq
    exact h.txGoto rfl rfl rfl rfl rfl rfl rfl rfl (by rw [hpc]; rfl) (by rw [hpc]; rfl)
      (by simp) (by simp)
  | testNone frame seq hpc =>
    cases hq
    exact h.txGoto rfl rfl rfl rfl rfl rfl rfl rfl rfl rfl hl.got (by simp [hpc])
  | getBug hpc hptr =>
    rw [h.hand.hand (by rw [hpc]; rfl)] at hptr
    cases hptr
  | get hpc hptr =>
    cases hq
    refine h.txGoto rfl rfl rfl rfl rfl rfl rfl rfl (by rw [hpc]; rfl) (by rw [hpc]; rfl) ?_
      (by simp)
    rintro n len ⟨⟩
    rfl
  | linearizeBug hpc hlen =>
    have hcopied : p.cmd.tx.isCopied = false := by rw [hpc]; rfl
    have hptr := h.hand.hand (by rw [hpc]; rfl)
    have hhdr := (hl.pending (by rw [hptr]; rfl)).2 hcopied
    exact absurd (hhdr.len.trans (hl.got _ _ hpc).symm) hlen
  | linearize hpc hlen =>
    cases hq
    exact h.linearize hpc
  | txedTest hpc hptr =>
    cases hq
    exact h.txGoto rfl rfl rfl rfl rfl rfl rfl rfl (by rw [hpc]; rfl) (by rw [hpc]; rfl)
      (by simp) (by simp)
  | txedTestNone hpc hptr =>
    rw [h.hand.hand (by rw [hpc]; rfl)] at hptr
    cases hptr
  | txed hpc =>
    cases hq
    exact h.txed hpc
  | write ok hok =>
    have hw := h.written (hok.imp And.left id)
    cases hq
    exact ⟨hw.out, hw.owner, hw.xmit, hw.answered, hw.submitted, hw.pending, hw.got, hw.txed,
      hw.taken, hw.live, hw.own, hw.doneBy, hw.noBug⟩
  | writeFailed => exact (Bool.false_ne_true hon).elim
  | confirm k hrx hk hm =>
    rw [Port.ownStep] at hq
    split_ifs at hq
    cases hq
    exact h.confirm hk hon
  | confirmOther k hrx hk hm =>
    obtain ⟨-, hcmd, -, hopen, -⟩ := h.answerable hk hon
    rw [hl.taken hopen _ (List.mem_append_left _ (List.mem_of_getElem? hk)) hcmd] at hm
    cases hm
  | handle ret hrx =>
    cases hq
    exact ⟨hl.out, hl.owner, hl.xmit, hl.answered, hl.submitted, hl.pending, hl.got, hl.txed,
      hl.taken, fun _ hw => absurd hw.2.2 (by simp), fun e he => hl.own e (by rw [hrx]; exact he),
      hl.doneBy, hl.noBug⟩
  | confirmed hrx =>
    cases hq
    exact h.confirmed hrx

theorem undisturbed (h : Inv p) (hon : Faithful p (.own a)) (hs : p.cmd.step a = some t) :
    Undisturbed p.cmd a ∧ OnTime p.cmd a := by
  cases (branch_of_step hs).2 with
  | giveUp hpc | giveUpRace hpc => exact absurd hpc h.paired.pc.1
  | confirmed hrx =>
    refine ⟨?_, trivial⟩
    have hcmd := (h.paired.busy (by simp [hrx])).2.2
    show p.cmd.slot.ptr = none
    rw [← Option.not_isSome_iff_eq_none]
    exact fun hptr => (h.line.pending hptr).1 hcmd
  | write ok => exact ⟨fun hok => Bool.noConfusion (hon.symm.trans hok), trivial⟩
  | writeFailed => exact (Bool.false_ne_true hon).elim
  | confirm k hrx hk | confirmOther k hrx hk =>
    refine ⟨trivial, ?_⟩
    rw [OnTime, hk]
    intro hlt
    have howner := h.line.owner _ (List.mem_append_left _ (List.mem_of_getElem? hk))
    rw [howner, (h.answerable hk hon).2.1] at hlt
    exact absurd hlt (Nat.lt_irrefl _)
  | register hpc | registerBug hpc => exact ⟨trivial, h.paired.rx_idle (by simp [hpc])⟩
  | _ => exact ⟨trivial, trivial⟩

theorem own (h : Inv p) (hon : Faithful p (.own a)) (hs : p.cmd.step a = some t)
    (hq : p.ownStep a t = some q) : Inv q := by
  obtain ⟨hun, htime⟩ := h.undisturbed hon hs
  have hcmd := cmd_of_ownStep hq
  refine ⟨paired_own h.paired hs hq, ?_, ?_, ?_, h.line_own hon hs hq⟩ <;> rw [hcmd]
  · refine ids_own h.ids ?_ hs
    cases a with
    | send cmd ifId arg => exact hon.1
    | _ => trivial
  · exact inHand_step h.hand hun hs
  · exact waits_step h.waits htime hs

theorem step (h : Inv p) (hon : Faithful p b) (hq : p.step b = some q) : Inv q := by
  have hpair : Paired q := paired_step h.paired (by cases b <;> trivial) hq
  cases b with
  | own a =>
    obtain ⟨t, hs, hq⟩ := Option.bind_eq_some_iff.mp hq
    exact h.own hon hs hq
  | stray id => exact hon.elim
  | down | again | wake =>
    simp only [Port.step, Option.ite_none_right_eq_some, Option.some.injEq] at hq
    obtain ⟨-, rfl⟩ := hq
    have hl := h.line
    exact ⟨hpair, h.ids, h.hand, h.waits, hl.out, hl.owner, hl.xmit, hl.answered, hl.submitted,
      hl.pending, hl.got, hl.txed, hl.taken, hl.live, hl.own, hl.doneBy, hl.noBug⟩

end Inv

theorem inv_of_reach (h : Reach system Faithful p) : Inv p := by
  refine Reach.inv ?_ ?_ h
  · rintro p ⟨mem, rfl⟩
    exact ⟨paired_start mem, ⟨nofun, fun _ => (by decide : IsId 0)⟩, inHand_start mem,
      waits_start mem, line_start mem⟩
  · intro p b q hI hon hq
    exact hI.step hon hq

/-- **A call for each command**: the messages that the device has got are those of the commands, in
their order, as they were built; it has answered one after the other; a sender that waits gets the
confirm of its own command, into its own memory, and comes back. -/
structure Calls (p : Port) : Prop where
  sent : p.cmd.sent.map (fun e => (e.cmd, e.owner)) =
    (List.range p.cmd.sent.length).map fun n => (n, n)
  bytes : ∀ e ∈ p.cmd.sent, ∃ m, p.cmd.built[e.cmd]? = some m ∧ e.msg = m.stamp e.seq
  answered : p.answered = List.range p.answered.length
  left : p.cmd.cur ≤ p.answered.length ∧ p.answered.length ≤ p.cmd.sent.length ∧
    p.cmd.sent.length ≤ p.cmd.cur + 1
  doneBy : p.cmd.sender = .waiting → p.cmd.slot.done = true →
    ∃ e, p.cmd.slot.doneBy = some e ∧ p.cmd.sent[p.cmd.cur]? = some e
  store : ∀ e n, p.cmd.rx = .handling e (some n) →
    p.cmd.sender = .waiting ∧ n = p.cmd.cur ∧ p.cmd.sent[n]? = some e
  returns : p.cmd.sender = .waiting → p.Returns
  noBug : p.cmd.bug = none

/-- **The device has got what it has answered.** -/
theorem Inv.replied_le (h : Inv p) : p.replied ≤ p.cmd.sent.length := by
  have hl := h.line
  have hlen := hl.length_sent
  by_cases hpc : p.cmd.sender = .waiting
  · cases hptr : p.cmd.slot.ptr with
    | some n =>
      have hsome : p.cmd.slot.ptr.isSome = true := by rw [hptr]; rfl
      rw [replied_of_open hpc (hl.pending hsome).1]
      rw [transmitted_of_some hsome] at hlen
      have hle : (full p.cmd.tx).toNat ≤ p.cmd.tx.isCopied.toNat := by
        cases htx : p.cmd.tx with
        | txed =>
          rw [(hl.txed htx).2.1] at hptr
          cases hptr
        | idle | tested | got | copied | found => exact Nat.le_refl _
      omega
    | none =>
      rw [transmitted_of_none hptr, hpc] at hlen
      change _ = p.cmd.cur + 1 at hlen
      by_cases hcmd : p.cmd.slot.cmd = 0xffff
      · rw [replied_of_taken hpc hcmd]
        have hfull : full p.cmd.tx = false := by
          have hin := h.hand.not_inHand hptr
          cases htx : p.cmd.tx with
          | txed => exact absurd hcmd (hl.txed htx).2.2
          | idle | tested | got => rfl
          | copied | found =>
            rw [htx] at hin
            cases hin
        rw [hfull, Bool.toNat_false] at hlen
        omega
      · rw [replied_of_open hpc hcmd]
        have hle := Bool.toNat_le (full p.cmd.tx)
        omega
  · obtain ⟨hptr, htx⟩ := h.tx_idle hpc
    rw [transmitted_of_none hptr, htx] at hlen
    rw [replied_of_ne hpc]
    exact hlen.ge

/-- **Commands on the RTOS are calls**, in every run with a bus that writes and a device that answers
what it has got, once. -/
theorem rpc (h : Reach system Faithful p) : Calls p := by
  have hinv := inv_of_reach h
  have hl := hinv.line
  have hlen := hl.length_sent
  have hcmds : p.cmd.sent.map (·.cmd) = List.range p.cmd.sent.length := by
    have htake := congrArg (List.take p.cmd.sent.length) hl.out
    rw [State.out, List.map_append, List.take_left' (List.length_map _), List.take_range] at htake
    rw [htake, Nat.min_eq_left (by omega)]
  have hreplied : p.answered.length = p.replied := by rw [hl.answered, List.length_range]
  have hle : p.transmitted ≤ p.cmd.cur + 1 := Nat.add_le_add_left (Bool.toNat_le _) _
  refine ⟨?_, fun e he => hinv.hand.bytes e (List.mem_append_left _ he), ?_, ?_, hl.doneBy, ?_, ?_,
    hl.noBug⟩
  · rw [← hcmds, List.map_map]
    refine List.map_congr_left fun e he => ?_
    exact congrArg (Prod.mk e.cmd) (hl.owner e (List.mem_append_left _ he))
  · rw [hreplied]
    exact hl.answered
  · rw [hreplied]
    exact ⟨Nat.le_add_right _ _, hinv.replied_le, by omega⟩
  · intro e n hrx
    obtain ⟨-, rfl⟩ := hinv.waits.store e n hrx
    refine ⟨(hinv.paired.busy (by rw [hrx]; nofun)).1, rfl, hl.own e ?_⟩
    rw [hrx]
    rfl
  · intro hpc
    exact returns_of_not_wedged hinv.paired hinv.ids hl.noBug hpc (hl.live hpc)

/-- The steps, with `wsm_set_psmode` as the only command. -/
def psmodes (p : Port) : Act → Bool
  | .stray _ => false
  | .own (.confirm k) => k ∉ p.answered
  | .own (.write ok) => ok
  | .own (.send cmd ifId _) => cmd = 0x0008 ∧ ifId = 0 ∧ p.cmd.buf.bufLen < 2 ^ 16
  | _ => true

theorem faithful_of_psmodes (h : psmodes p b = true) : Faithful p b := by
  cases b with
  | stray => cases h
  | down | again | wake => trivial
  | own a =>
    cases a with
    | confirm k => exact (of_decide_eq_true h : k ∉ p.answered)
    | write ok => exact h
    | send cmd ifId arg =>
      obtain ⟨rfl, rfl, hlen⟩ := of_decide_eq_true h
      exact ⟨⟨.set .setPsmode [], rfl, rfl, rfl⟩, hlen⟩
    | _ => trivial

/-- Two commands, of which the second is done. -/
theorem rpc_second : ∃ p, Reach system Faithful p ∧ Calls p ∧ p.cmd.cur = 1 ∧
    p.cmd.slot.done = true ∧ p.answered = [0, 1] ∧ p.Returns := by
  let as := sends 0x0008 ++ answers 0 ++ sends 0x0008 ++ (answers 1).take 4
  have hinit : system.init ⟨start [], 0, false, false, []⟩ := ⟨[], rfl⟩
  have hout : (execIf system (fun p b => psmodes p b = true) ⟨start [], 0, false, false, []⟩ as).map
      (fun p => ((p.cmd.cur, p.cmd.sender), p.cmd.slot.done, p.answered)) =
        some ((1, .waiting), true, [0, 1]) := by
    decide +kernel
  obtain ⟨p, hp, hout⟩ := Option.map_eq_some_iff.mp hout
  simp only [Prod.mk.injEq] at hout
  obtain ⟨⟨hcur, hpc⟩, hdone, hanswered⟩ := hout
  have hr : Reach system Faithful p :=
    (Reach.of_execIf (.init hinit) hp).mono fun _ _ => faithful_of_psmodes
  have hcalls := rpc hr
  exact ⟨p, hr, hcalls, hcur, hdone, hanswered, hcalls.returns hpc⟩

end Atbm6441.Wsm.Cmd.Rtos
