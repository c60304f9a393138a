import Atbm6441.Lib.Retry
import Mathlib.Data.Int.Init
import Mathlib.Data.Nat.Bitwise

/-!
# Register accesses over the SDIO bus

`hwio_sdio.c`: the device shows its memory behind an address register and two data ports. For a read
the host writes the address, sets the prefetch bit of the port in the config register, waits until
the device clears it, and reads the port; for a write it writes the address and the port. In direct
access mode, which is a bit of the config register as well, single words are read and written this
way.

The bus is given by what each operation of each step comes back with, try by try. An operation that
fails changes nothing on the device. Delays, messages and the lock of the bus are left out.
-/

namespace Atbm6441.Sdio.Hwio

open Atbm6441.Lib

/-- `EINVAL`. -/
def einval : ℤ := 22

/-- What an operation of the bus driver comes back with: 0 or a negative error, and the value that a
read of a register has got. -/
structure Reply where
  ret : ℤ
  val : UInt32
  ret_le : ret ≤ 0

/-- The operation has succeeded. -/
def Reply.Ok (r : Reply) : Prop := 0 ≤ r.ret

instance (r : Reply) : Decidable r.Ok := inferInstanceAs (Decidable (_ ≤ _))

/-- The data ports. -/
inductive Port
  /-- `ATBM_HIFREG_SRAM_DPORT_REG_ID` -/
  | apb
  /-- `ATBM_HIFREG_AHB_DPORT_REG_ID` -/
  | ahb
deriving DecidableEq

/-- `ATBM_HIFREG_CONFIG_PFETCH_BIT` and `ATBM_HIFREG_CONFIG_AHB_PFETCH_BIT`. -/
def Port.prefetch : Port → UInt32
  | .apb => 0x2000
  | .ahb => 0x800

/-- `ATBM_HIFREG_CONFIG_ACCESS_MODE_BIT`. -/
def accessModeBit : UInt32 := 0x400

/-- What an access has told the device: what it has written last to the config register, the address
in the address register, the address whose data are behind the ports, and the word that it has
stored, with its address. -/
structure Dev where
  config : Option UInt32
  base : Option UInt32
  fetched : Option UInt32
  stored : Option (Option UInt32 × UInt32)
deriving DecidableEq

namespace Dev

/-- Nothing yet. -/
def start : Dev := ⟨none, none, none, none⟩

/-- `ATBM_HIFREG_SRAM_BASE_ADDR_REG_ID` is written. -/
def writeAddr (d : Dev) (addr : UInt32) : Dev := { d with base := some addr }

/-- `ATBM_HIFREG_CONFIG_REG_ID` is written; a prefetch bit starts a prefetch. -/
def writeConfig (d : Dev) (v : UInt32) : Dev :=
  { d with config := some v, fetched := if v &&& 0x2800 ≠ 0 then d.base else d.fetched }

/-- `ATBM_HIFREG_AHB_DPORT_REG_ID` is written. -/
def writePort (d : Dev) (v : UInt32) : Dev := { d with stored := some (d.base, v) }

/-- An operation takes effect unless it has failed. -/
def accept (d : Dev) (r : Reply) (f : Dev → Dev) : Dev := if r.ret < 0 then d else f d

end Dev

/-- `ret < 0`. -/
def Reply.fails (r : Reply) : Bool := decide (r.ret < 0)

/-- `ret`, as a condition. -/
def Reply.nonzero (r : Reply) : Bool := decide (r.ret ≠ 0)

/-! ### Indirect reads -/

/-- What a buffer is filled with: the port, the address whose data were behind it, and the length.
-/
structure Fill where
  port : Port
  addr : Option UInt32
  len : UInt32
deriving DecidableEq

/-- The buffer of the caller. -/
structure Buf where
  aligned : Bool
  len : UInt32

/-- The steps of an indirect read. -/
structure ReadBus where
  addr : ℕ → Reply
  config : ℕ → Reply
  prefetch : ℕ → Reply
  poll : ℕ → Reply
  data : ℕ → Reply

/-- `__atbm_reg_read` of a buffer. -/
def atbmRegRead (buf : Buf) (r : Reply) : Reply :=
  if ¬ buf.aligned ∧ 4 < buf.len then ⟨-einval, r.val, by decide⟩ else r

/-- The data port is read. -/
def Dev.readPort (d : Dev) (port : Port) (buf : Buf) (r : Reply) : ℤ × Option Fill × Dev :=
  (r.ret, if r.ret < 0 then none else some ⟨port, d.fetched, buf.len⟩, d)

/-- The poll loop of `atbm_indirect_read` goes on. -/
def waits (prefetch : UInt32) (r : Reply) : Bool :=
  decide (¬ r.ret < 0 ∧ r.val &&& prefetch ≠ 0)

/-- `atbm_indirect_read`: the result, what the buffer is filled with, and the device. -/
def atbmIndirectRead (bus : ReadBus) (port : Port) (addr : UInt32) (buf : Buf) (d : Dev) :
    ℤ × Option Fill × Dev :=
  if 0x1000 ≤ buf.len / 2 then (-einval, none, d)
  else if (bus.addr 0).ret < 0 then ((bus.addr 0).ret, none, d)
  else
    let d := d.writeAddr addr
    if (bus.config 0).ret < 0 then ((bus.config 0).ret, none, d)
    else
      let val32 := (bus.config 0).val
      if (bus.prefetch 0).ret < 0 then ((bus.prefetch 0).ret, none, d)
      else
        let d := d.writeConfig (val32 ||| port.prefetch)
        let r := retry (waits port.prefetch) bus.poll 19 0
        if r.ret < 0 then (r.ret, none, d)
        else if r.val &&& port.prefetch ≠ 0 then (r.ret, none, d)
        else d.readPort port buf (atbmRegRead buf (bus.data 0))

/-- The poll loop of `atbm_indirect_read_unlock`, with `n` polls to go: `ret` and `val32`. A poll
that fails leaves `val32` as it is. -/
def pollUnlock (op : ℕ → Reply) (prefetch : UInt32) : ℕ → ℕ → ℤ × UInt32 → ℤ × UInt32
  | 0, _, x => x
  | n + 1, i, x =>
    if (op i).ret < 0 then pollUnlock op prefetch n (i + 1) ((op i).ret, x.2)
    else if (op i).val &&& prefetch = 0 then ((op i).ret, (op i).val)
    else pollUnlock op prefetch n (i + 1) ((op i).ret, (op i).val)

/-- `atbm_indirect_read_unlock`, which goes on after a step whose tries have all failed. -/
def atbmIndirectReadUnlock (bus : ReadBus) (port : Port) (addr : UInt32) (buf : Buf) (d : Dev) :
    ℤ × Option Fill × Dev :=
  if 0x1000 ≤ buf.len / 2 then (-einval, none, d)
  else
    let d := d.accept (retry Reply.fails bus.addr 3 0) fun d => d.writeAddr addr
    let c := retry Reply.fails bus.config 3 0
    let val32 := if c.ret < 0 then 0 else c.val
    let p := retry Reply.fails bus.prefetch 3 0
    let d := d.accept p fun d => d.writeConfig (val32 ||| port.prefetch)
    let x := pollUnlock bus.poll port.prefetch 20 0 (p.ret, val32)
    if x.2 &&& port.prefetch ≠ 0 then (x.1, none, d)
    else d.readPort port buf (retry Reply.fails (fun i => atbmRegRead buf (bus.data i)) 3 0)

/-! ### Writes over AHB -/

/-- The steps of a write. -/
structure WriteBus where
  addr : ℕ → Reply
  data : ℕ → Reply

/-- `atbm_ahb_write_32`. -/
def atbmAhbWrite32 (bus : WriteBus) (addr val : UInt32) (d : Dev) : ℤ × Dev :=
  if (bus.addr 0).ret < 0 then ((bus.addr 0).ret, d)
  else
    let d := d.writeAddr addr
    ((bus.data 0).ret, d.accept (bus.data 0) fun d => d.writePort val)

/-- `atbm_ahb_write_unlock` of a word. -/
def atbmAhbWriteUnlock (bus : WriteBus) (addr val : UInt32) (d : Dev) : ℤ × Dev :=
  let d := d.accept (retry Reply.fails bus.addr 3 0) fun d => d.writeAddr addr
  let r := retry Reply.fails bus.data 3 0
  (r.ret, d.accept r fun d => d.writePort val)

/-- `atbm_ahb_write_unlock_32`, whose loop does not count its rounds. -/
def atbmAhbWriteUnlock32 (bus : ℕ → WriteBus) (addr val : UInt32) (fuel : ℕ) (d : Dev) :
    Option (ℤ × Dev) :=
  repeatUntil (fun k d =>
    let x := atbmAhbWriteUnlock (bus k) addr val d
    if x.1 ≠ 0 then .inl x.2 else .inr x) fuel 0 d

/-! ### Direct accesses -/

/-- The steps of a direct access around the AHB access; the restoring write has rounds, and tries in
each round. -/
structure DirectBus where
  config : ℕ → Reply
  mode : ℕ → Reply
  restore : ℕ → ℕ → Reply

/-- The `goto out` loop: the config register is written until that succeeds. -/
def restoreLoop (write : ℕ → Reply) (orig : UInt32) (fuel : ℕ) (d : Dev) : Option (ℤ × Dev) :=
  repeatUntil (fun k d =>
    if (write k).ret < 0 then .inl d else .inr ((write k).ret, d.writeConfig orig)) fuel 0 d

/-- **The body of the four direct accesses**, with their register operations and their AHB access.
The loop at `out` follows whether the steps have succeeded or not, and gives the result. -/
def direct (config mode : Reply) (restore : ℕ → Reply)
    (ahb : ℕ → Dev → Option (ℤ × Option Fill × Dev)) (fuel : ℕ) (d : Dev) :
    Option (ℤ × Option Fill × Dev) :=
  if config.ret < 0 then some (config.ret, none, d)
  else
    let orig := config.val
    if mode.ret < 0 then
      (restoreLoop restore orig fuel d).map fun x => (x.1, none, x.2)
    else
      let d := d.writeConfig (orig ||| accessModeBit)
      (ahb fuel d).bind fun y =>
        (restoreLoop restore orig fuel y.2.2).map fun x => (x.1, y.2.1, x.2)

/-- The word that is read or written. -/
def word : Buf := ⟨true, 4⟩

/-- `atbm_direct_read_reg_32`. -/
def atbmDirectReadReg32 (bus : DirectBus) (ahb : ReadBus) (addr : UInt32) :
    ℕ → Dev → Option (ℤ × Option Fill × Dev) :=
  direct (bus.config 0) (bus.mode 0) (fun k => bus.restore k 0)
    fun _ d => some (atbmIndirectRead ahb .ahb addr word d)

/-- `atbm_direct_write_reg_32`. -/
def atbmDirectWriteReg32 (bus : DirectBus) (ahb : WriteBus) (addr val : UInt32) :
    ℕ → Dev → Option (ℤ × Option Fill × Dev) :=
  direct (bus.config 0) (bus.mode 0) (fun k => bus.restore k 0)
    fun _ d =>
      let x := atbmAhbWrite32 ahb addr val d
      some (x.1, none, x.2)

/-- `atbm_reg_read_unlock_32` and `atbm_reg_write_unlock_32`. -/
def regUnlock (op : ℕ → Reply) : Reply := retry Reply.nonzero op 3 0

/-- `atbm_direct_write_unlock`. -/
def atbmDirectWriteUnlock (bus : DirectBus) (ahb : ℕ → WriteBus) (addr val : UInt32) :
    ℕ → Dev → Option (ℤ × Option Fill × Dev) :=
  direct (regUnlock bus.config) (regUnlock bus.mode) (fun k => regUnlock (bus.restore k))
    fun fuel d => (atbmAhbWriteUnlock32 ahb addr val fuel d).map fun x => (x.1, none, x.2)

/-- `atbm_direct_read_unlock`. -/
def atbmDirectReadUnlock (bus : DirectBus) (ahb : ReadBus) (addr : UInt32) :
    ℕ → Dev → Option (ℤ × Option Fill × Dev) :=
  direct (regUnlock bus.config) (regUnlock bus.mode) (fun k => regUnlock (bus.restore k))
    fun _ d => some (atbmIndirectReadUnlock ahb .ahb addr word d)

end Atbm6441.Sdio.Hwio
