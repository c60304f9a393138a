import Atbm6441.Sdio.Hwio.Model
import Atbm6441.Lib.Runs

/-!
# Data transfers over the SDIO bus

`atbm_data_read_unlock` and `atbm_data_write_unlock` of `hwio_sdio.c`, which the callers call with
the bus locked. The address of a transfer has the id of the next buffer, and a bit for the force
flag of the direction: `buf_force_tx` for reads and `buf_force_rx` for writes. A transfer that fails
is tried again. The only caller of the write sets `buf_id_offset` first, to the number of buffers
that it writes at once. `atbm_data_force_write` is called by nobody.

`transfer_iff` : the ids are right in every run; and a flag is carried by the next transfer of its
direction that succeeds exactly if that is the first try that goes over the bus.
-/

namespace Atbm6441.Sdio.Hwio

open Atbm6441.Lib

/-- `MAX_RETRY`. -/
def maxRetry : ℕ := 10

/-- `SPI_REG_ADDR_TO_SDIO` of `ATBM_HIFREG_IN_OUT_QUEUE_REG_ID`. -/
def addrSdio : ℕ := 0x0002 <<< 2

/-- `SDIO_ADDR17BIT`, whose `mpf` is not used. -/
def sdioAddr17bit (bufId : ℕ) (force : Bool) (regIdOfs : ℕ) : ℕ :=
  (bufId &&& 0x7F) <<< 6 ||| (force.toNat &&& 1) <<< 5 ||| (regIdOfs &&& 0x1F) <<< 0

inductive Dir
  | read
  | write
deriving DecidableEq

/-- What happens between the host and the device. -/
inductive Event
  /-- a force flag is set -/
  | force (d : Dir)
  /-- a try goes over the bus, for a number of buffers -/
  | xfer (d : Dir) (addr bufs : ℕ) (ok : Bool)

/-- The fields of the host, and of the run what has happened, the last first. -/
structure Link where
  bufIdOffset : ℕ
  bufIdTx : ℕ
  bufIdRx : ℕ
  bufForceTx : Bool
  bufForceRx : Bool
  trace : List Event

namespace Link

/-- The force flag of a direction. -/
def force (s : Link) : Dir → Bool
  | .read => s.bufForceTx
  | .write => s.bufForceRx

def setForce (s : Link) (force : Bool) : Dir → Link
  | .read => { s with bufForceTx := force }
  | .write => { s with bufForceRx := force }

/-- **One try**: the address takes the force flag, which is cleared before the transfer. -/
def xfer (s : Link) (d : Dir) (bufId bufs : ℕ) (ret : ℤ) : ℤ × Link :=
  let addr := sdioAddr17bit bufId (s.force d) addrSdio
  let s := s.setForce false d
  (ret, { s with trace := .xfer d addr bufs (decide (ret = 0)) :: s.trace })

/-- `__atbm_data_read`. -/
def dataRead (s : Link) (buf : Buf) (bufId : ℕ) (ret : ℤ) : ℤ × Link :=
  if ¬ buf.aligned ∧ 4 < buf.len then (-einval, s) else s.xfer .read bufId 1 ret

/-- `__atbm_data_write`. -/
def dataWrite (s : Link) (bufId : ℕ) (ret : ℤ) : ℤ × Link :=
  s.xfer .write bufId s.bufIdOffset ret

/-- `ret`, as a condition. -/
def again (ret : ℤ) : Bool := decide (ret ≠ 0)

/-- The loop of both functions, and what the try that succeeds goes on with. -/
def dataUnlock (attempt : ℕ → Link → ℤ × Link) (done : Link → Link) (s : Link) : ℤ × Link :=
  let x := tries again attempt (maxRetry - 1) 0 s
  if x.1 = 0 then (x.1, done x.2) else x

/-- `atbm_data_read_unlock`, with what the bus driver returns, try by try. -/
def dataReadUnlock (s : Link) (buf : Buf) (bus : ℕ → ℤ) : ℤ × Link :=
  let bufIdRx := s.bufIdRx
  dataUnlock (fun i s => s.dataRead buf (bufIdRx + 1) (bus i))
    (fun s => { s with bufIdRx := (bufIdRx + 1) &&& 3 }) s

/-- `atbm_data_write_unlock`. -/
def dataWriteUnlock (s : Link) (bus : ℕ → ℤ) : ℤ × Link :=
  let bufIdTx := s.bufIdTx
  dataUnlock (fun i s => s.dataWrite bufIdTx (bus i))
    (fun s => { s with bufIdTx := (bufIdTx + s.bufIdOffset) &&& 0x3f }) s

/-- What the host begins with: both flags are set. -/
def start : Link := ⟨0, 0, 0, true, true, [.force .write, .force .read]⟩

/-- Set a force flag. -/
def raise (s : Link) (d : Dir) : Link :=
  let s := s.setForce true d
  { s with trace := .force d :: s.trace }

end Link

/-- What the host does. -/
inductive XferAct
  | force (d : Dir)
  | read (buf : Buf) (bus : ℕ → ℤ)
  | write (bufIdOffset : ℕ) (bus : ℕ → ℤ)

/-- Transfers in any order. -/
def xferSystem : System Link XferAct where
  init s := s = .start
  step s
    | .force d => some (s.raise d)
    | .read buf bus => some (s.dataReadUnlock buf bus).2
    | .write bufIdOffset bus => some ({ s with bufIdOffset := bufIdOffset }.dataWriteUnlock bus).2

/-! ### What the device expects -/

/-- The number of buffers transferred in a direction. -/
def transferred (d : Dir) : List Event → ℕ
  | [] => 0
  | .force _ :: l => transferred d l
  | .xfer e _ bufs ok :: l => transferred d l + if e = d ∧ ok then bufs else 0

/-- The id of the next buffer, after a number of buffers. -/
def nextId (d : Dir) (n : ℕ) : ℕ :=
  match d with
  | .read => n % 4 + 1
  | .write => n % 64

/-- **The device gets the ids that it expects.** -/
def Agreed : List Event → Prop
  | [] => True
  | .force _ :: l => Agreed l
  | .xfer d addr _ _ :: l => addr >>> 6 = nextId d (transferred d l) ∧ Agreed l

/-- The force flag was set, and no transfer of the direction has succeeded since. -/
def due (d : Dir) : List Event → Bool
  | [] => false
  | .force e :: l => decide (e = d) || due d l
  | .xfer e _ _ ok :: l => !(decide (e = d) && ok) && due d l

/-- **A flag is carried** by the next transfer of its direction that succeeds. -/
def Carried : List Event → Prop
  | [] => True
  | .force _ :: l => Carried l
  | .xfer d addr _ ok :: l => (ok = true → due d l = true → addr.testBit 5 = true) ∧ Carried l

/-- The force flag was set, and nothing has gone over the bus in the direction since. -/
def fresh (d : Dir) : List Event → Bool
  | [] => false
  | .force e :: l => decide (e = d) || fresh d l
  | .xfer e _ _ _ :: l => !decide (e = d) && fresh d l

/-- **The condition**: a transfer that succeeds when a flag is due is the first one of its direction
that goes over the bus since the flag was set. -/
def Prompt : List Event → Prop
  | [] => True
  | .force _ :: l => Prompt l
  | .xfer d _ _ ok :: l => (ok = true → due d l = true → fresh d l = true) ∧ Prompt l

/-! ### Addresses -/

theorem testBit_sdioAddr17bit (bufId : ℕ) (force : Bool) :
    (sdioAddr17bit bufId force addrSdio).testBit 5 = force := by
  unfold sdioAddr17bit
  rw [Nat.testBit_or, Nat.testBit_or, Nat.testBit_shiftLeft, Nat.testBit_shiftLeft]
  rcases force with _ | _ <;> rfl

theorem sdioAddr17bit_shiftRight {bufId : ℕ} (h : bufId < 128) (force : Bool) :
    sdioAddr17bit bufId force addrSdio >>> 6 = bufId := by
  have hid : bufId &&& 0x7F = bufId := by
    rw [show (0x7F : ℕ) = 2 ^ 7 - 1 from rfl, Nat.and_two_pow_sub_one_eq_mod]
    exact Nat.mod_eq_of_lt h
  unfold sdioAddr17bit
  rw [hid, Nat.shiftRight_or_distrib, Nat.shiftRight_or_distrib, Nat.shiftLeft_shiftRight,
    Nat.or_assoc]
  rcases force with _ | _ <;> exact Nat.or_zero bufId

theorem nextId_lt (d : Dir) (n : ℕ) : nextId d n < 128 := by
  unfold nextId
  rcases d with _ | _
  · show n % 4 + 1 < 128
    omega
  · show n % 64 < 128
    omega

/-! ### What is kept -/

namespace Link

variable {s t : Link} {d e : Dir} {bufs : ℕ} {ret : ℤ}

@[simp] theorem force_setForce (s : Link) (b : Bool) (d : Dir) : (s.setForce b d).force d = b := by
  rcases d with _ | _ <;> rfl

theorem force_setForce_of_ne (s : Link) (b : Bool) (h : d ≠ e) :
    (s.setForce b d).force e = s.force e := by
  rcases d with _ | _ <;> rcases e with _ | _
  · exact absurd rfl h
  · rfl
  · rfl
  · exact absurd rfl h

/-- **What holds of the flags**, and of the addresses that there have been. -/
structure Kept (s : Link) : Prop where
  force : ∀ d, s.force d = fresh d s.trace
  agreed : Agreed s.trace
  carried : Carried s.trace ↔ Prompt s.trace

/-- Ids and flags. -/
structure Inv (s : Link) : Prop where
  kept : s.Kept
  rx : s.bufIdRx = transferred .read s.trace % 4
  tx : s.bufIdTx = transferred .write s.trace % 64

theorem trace_xfer (s : Link) (d : Dir) (bufId bufs : ℕ) (ret : ℤ) :
    (s.xfer d bufId bufs ret).2.trace =
      .xfer d (sdioAddr17bit bufId (s.force d) addrSdio) bufs (decide (ret = 0)) :: s.trace := by
  rcases d with _ | _ <;> rfl

theorem force_xfer (s : Link) (d : Dir) (bufId bufs : ℕ) (ret : ℤ) :
    (s.xfer d bufId bufs ret).2.force = (s.setForce false d).force := by
  rcases d with _ | _ <;> rfl

/-- **A try**, with the id that the device expects: the flag is there exactly if nothing has gone
over the bus since it was set. -/
theorem Kept.xfer (h : s.Kept) (bufs : ℕ) (ret : ℤ) :
    (s.xfer d (nextId d (transferred d s.trace)) bufs ret).2.Kept where
  force e := by
    rw [force_xfer, trace_xfer]
    by_cases he : d = e
    · subst he
      rw [force_setForce]
      simp [fresh]
    · rw [force_setForce_of_ne s false he, h.force e]
      simp [fresh, he]
  agreed := by
    rw [trace_xfer]
    exact ⟨sdioAddr17bit_shiftRight (nextId_lt _ _) _, h.agreed⟩
  carried := by
    rw [trace_xfer, Carried, Prompt, testBit_sdioAddr17bit, h.force d]
    exact and_congr_right' h.carried

theorem transferred_xfer (s : Link) (d e : Dir) (bufId bufs : ℕ) (ret : ℤ) :
    transferred e (s.xfer d bufId bufs ret).2.trace =
      transferred e s.trace + if d = e ∧ ret = 0 then bufs else 0 := by
  rw [trace_xfer, transferred]
  simp

/-- The ids are those of another state. -/
def Same (s t : Link) : Prop := t.bufIdRx = s.bufIdRx ∧ t.bufIdTx = s.bufIdTx

theorem same_xfer (s : Link) (d : Dir) (bufId bufs : ℕ) (ret : ℤ) :
    Same s (s.xfer d bufId bufs ret).2 := by
  rcases d with _ | _ <;> exact ⟨rfl, rfl⟩

theorem Kept.congr_ids (h : s.Kept) (bufIdRx bufIdTx : ℕ) :
    { s with bufIdRx := bufIdRx, bufIdTx := bufIdTx }.Kept where
  force d := by
    have hd := h.force d
    rcases d with _ | _ <;> exact hd
  agreed := h.agreed
  carried := h.carried

/-- **A try that fails** keeps the ids. -/
theorem Inv.xfer_fails (h : s.Inv) (bufs : ℕ) (hret : ret ≠ 0) :
    (s.xfer d (nextId d (transferred d s.trace)) bufs ret).2.Inv where
  kept := h.kept.xfer bufs ret
  rx := by
    rw [(same_xfer ..).1, transferred_xfer, if_neg fun hd => hret hd.2]
    exact h.rx
  tx := by
    rw [(same_xfer ..).2, transferred_xfer, if_neg fun hd => hret hd.2]
    exact h.tx

/-! ### The transfers -/

theorem and_three (n : ℕ) : n &&& 3 = n % 4 := Nat.and_two_pow_sub_one_eq_mod n 2

theorem and_sixtyThree (n : ℕ) : n &&& 0x3f = n % 64 := Nat.and_two_pow_sub_one_eq_mod n 6

theorem Inv.id_read (ht : t.Inv) (hsame : Same s t) :
    s.bufIdRx + 1 = nextId .read (transferred .read t.trace) := by
  rw [← hsame.1, ht.rx]
  rfl

theorem Inv.id_write (ht : t.Inv) (hsame : Same s t) :
    s.bufIdTx = nextId .write (transferred .write t.trace) := by
  rw [← hsame.2, ht.tx]
  rfl

/-- **A read that succeeds.** -/
theorem Inv.xfer_read (ht : t.Inv) (hsame : Same s t) (hret : ret = 0) :
    { (t.xfer .read (s.bufIdRx + 1) 1 ret).2 with bufIdRx := (s.bufIdRx + 1) &&& 3 }.Inv := by
  rw [ht.id_read hsame]
  refine ⟨(ht.kept.xfer 1 ret).congr_ids _ _, ?_, ?_⟩ <;> dsimp only
  · rw [and_three, transferred_xfer, if_pos ⟨rfl, hret⟩, nextId]
    omega
  · rw [(same_xfer ..).2, transferred_xfer, if_neg fun hd => by cases hd.1]
    exact ht.tx

/-- **A write that succeeds.** -/
theorem Inv.xfer_write (ht : t.Inv) (hsame : Same s t) (hret : ret = 0) (bufs : ℕ) :
    { (t.xfer .write s.bufIdTx bufs ret).2 with bufIdTx := (s.bufIdTx + bufs) &&& 0x3f }.Inv := by
  rw [ht.id_write hsame]
  refine ⟨(ht.kept.xfer bufs ret).congr_ids _ _, ?_, ?_⟩ <;> dsimp only
  · rw [(same_xfer ..).1, transferred_xfer, if_neg fun hd => by cases hd.1]
    exact ht.rx
  · rw [and_sixtyThree, transferred_xfer, if_pos ⟨rfl, hret⟩, nextId]
    omega

/-- **The loop**: the tries that fail, and the one that succeeds. -/
theorem Inv.dataUnlock {attempt : ℕ → Link → ℤ × Link} {done : Link → Link} (h : s.Inv)
    (hfails : ∀ i t, t.Inv → Same s t → (attempt i t).1 ≠ 0 →
      (attempt i t).2.Inv ∧ Same s (attempt i t).2)
    (hdone : ∀ i t, t.Inv → Same s t → (attempt i t).1 = 0 → (done (attempt i t).2).Inv) :
    (Link.dataUnlock attempt done s).2.Inv := by
  have hagain : ∀ i t, t.Inv ∧ Same s t → again (attempt i t).1 = true →
      (attempt i t).2.Inv ∧ Same s (attempt i t).2 :=
    fun i t ht hret => hfails i t ht.1 ht.2 (of_decide_eq_true hret)
  unfold Link.dataUnlock
  rcases tries_inv (fun t : Link => t.Inv ∧ Same s t) hagain (maxRetry - 1) 0 ⟨h, rfl, rfl⟩
    with ⟨j, t, ⟨ht, hsame⟩, hstop, htries⟩ | ⟨hall, hinv, -⟩
  · have hret : (attempt j t).1 = 0 := by simpa [again] using hstop
    dsimp only
    rw [htries, if_pos hret]
    exact hdone j t ht hsame hret
  · have hret : (tries again attempt (maxRetry - 1) 0 s).1 ≠ 0 := of_decide_eq_true hall
    dsimp only
    rw [if_neg hret]
    exact hinv

/-- **A read.** -/
theorem Inv.dataReadUnlock (h : s.Inv) (buf : Buf) (bus : ℕ → ℤ) :
    (s.dataReadUnlock buf bus).2.Inv := by
  by_cases hbuf : ¬ buf.aligned ∧ 4 < buf.len
  · -- no try goes over the bus
    have hread : ∀ i (t : Link),
        t.dataRead buf (s.bufIdRx + 1) (bus i) = (-einval, t) := fun i t => if_pos hbuf
    refine h.dataUnlock (fun i t ht hsame _ => ?_) fun i t ht hsame hret => ?_
    · rw [hread]
      exact ⟨ht, hsame⟩
    · rw [hread] at hret
      cases hret
  · have hread : ∀ i (t : Link), t.dataRead buf (s.bufIdRx + 1) (bus i) =
        t.xfer .read (s.bufIdRx + 1) 1 (bus i) := fun i t => if_neg hbuf
    refine h.dataUnlock (fun i t ht hsame hret => ?_) fun i t ht hsame hret => ?_
    · rw [hread] at hret ⊢
      have hids := same_xfer t .read (s.bufIdRx + 1) 1 (bus i)
      refine ⟨?_, hids.1.trans hsame.1, hids.2.trans hsame.2⟩
      rw [ht.id_read hsame]
      exact ht.xfer_fails 1 hret
    · rw [hread] at hret ⊢
      exact ht.xfer_read hsame hret

/-- **A write.** -/
theorem Inv.dataWriteUnlock (h : s.Inv) (bus : ℕ → ℤ) : (s.dataWriteUnlock bus).2.Inv := by
  refine h.dataUnlock (fun i t ht hsame hret => ?_) fun i t ht hsame hret => ?_
  · have hids := same_xfer t .write s.bufIdTx t.bufIdOffset (bus i)
    refine ⟨?_, hids.1.trans hsame.1, hids.2.trans hsame.2⟩
    rw [ht.id_write hsame]
    exact ht.xfer_fails t.bufIdOffset hret
  · exact ht.xfer_write hsame hret t.bufIdOffset

theorem trace_raise (s : Link) (d : Dir) : (s.raise d).trace = .force d :: s.trace := by
  rcases d with _ | _ <;> rfl

/-- **A flag is set.** -/
theorem Inv.raise (h : s.Inv) (d : Dir) : (s.raise d).Inv where
  kept := {
    force := fun e => by
      have hraise : (s.raise d).force e = (s.setForce true d).force e := by
        rcases d with _ | _ <;> rcases e with _ | _ <;> rfl
      rw [hraise, trace_raise]
      by_cases he : d = e
      · subst he
        rw [force_setForce]
        simp [fresh]
      · rw [force_setForce_of_ne s true he, h.kept.force e]
        simp [fresh, he]
    agreed := by rw [trace_raise]; exact h.kept.agreed
    carried := by rw [trace_raise]; exact h.kept.carried }
  rx := by
    rw [trace_raise]
    rcases d with _ | _ <;> exact h.rx
  tx := by
    rw [trace_raise]
    rcases d with _ | _ <;> exact h.tx

theorem Inv.start : Link.start.Inv where
  kept := {
    force := fun d => by rcases d with _ | _ <;> rfl
    agreed := trivial
    carried := Iff.rfl }
  rx := rfl
  tx := rfl

/-- **What holds after any step.** -/
theorem Inv.step {a : XferAct} (h : s.Inv) (ht : xferSystem.step s a = some t) : t.Inv := by
  rcases a with d | ⟨buf, bus⟩ | ⟨n, bus⟩
  · obtain rfl := Option.some.inj ht
    exact h.raise d
  · obtain rfl := Option.some.inj ht
    exact h.dataReadUnlock buf bus
  · obtain rfl := Option.some.inj ht
    have hoffset : { s with bufIdOffset := n }.Inv :=
      ⟨⟨fun d => by have hd := h.kept.force d; rcases d with _ | _ <;> exact hd, h.kept.agreed,
        h.kept.carried⟩, h.rx, h.tx⟩
    exact hoffset.dataWriteUnlock bus

end Link

/-- **The ids are those of the device in every run**; and each force flag is carried by the next
transfer of its direction that succeeds, if and only if the condition holds. -/
theorem transfer_iff {as : List XferAct} {s : Link} (h : exec xferSystem .start as = some s) :
    (s.bufIdRx = transferred .read s.trace % 4 ∧ s.bufIdTx = transferred .write s.trace % 64 ∧
      Agreed s.trace) ∧ (Carried s.trace ↔ Prompt s.trace) := by
  have hinv : s.Inv :=
    (Reach.of_exec (.init rfl) h).inv_of_start (fun _ h => h) .start fun _ _ _ hi _ ht => hi.step ht
  exact ⟨⟨hinv.rx, hinv.tx, hinv.kept.agreed⟩, hinv.kept.carried⟩

/-- A buffer is read and three are written, each with one try that fails once the flag is gone. -/
theorem transfer_iff_promptly :
    ∃ s, exec xferSystem .start [.read ⟨true, 64⟩ fun _ => 0, .write 3 fun _ => 0,
        .read ⟨true, 64⟩ fun i => if i = 0 then -110 else 0] = some s ∧
      (s.bufIdRx = 2 ∧ s.bufIdTx = 3) ∧ (Carried s.trace ↔ Prompt s.trace) ∧ Carried s.trace := by
  have hrun : exec xferSystem .start [.read ⟨true, 64⟩ fun _ => 0, .write 3 fun _ => 0,
      .read ⟨true, 64⟩ fun i => if i = 0 then -110 else 0] = some _ := rfl
  have hiff := transfer_iff hrun
  refine ⟨_, hrun, ⟨by decide, by decide⟩, hiff.2, hiff.2.mpr ?_⟩
  exact ⟨fun _ h => (by cases h), fun h => (by cases h), fun _ _ => rfl, fun _ _ => rfl, trivial⟩

/-- **The flag is lost**: the first try of the first read fails, the second succeeds without it. -/
theorem force_lost :
    ∃ s addr, exec xferSystem .start [.read ⟨true, 64⟩ fun i => if i = 0 then -110 else 0] =
        some s ∧
      s.trace = [.xfer .read addr 1 true, .xfer .read (addr + 32) 1 false, .force .write,
        .force .read] ∧
      addr.testBit 5 = false ∧ ¬ Carried s.trace := by
  refine ⟨_, sdioAddr17bit 1 false addrSdio, rfl, rfl, by decide, fun h => ?_⟩
  have hforce := h.1 rfl rfl
  cases hforce

end Atbm6441.Sdio.Hwio
