import Atbm6441.Wsm.Buf.Model
import Atbm6441.Wsm.Cmd.Stack

/-!
# A command whose write fails

`atbm_sdio_force_free_wsm` tells commands from data and check messages by six bits of the id in the
header. `writeFailed_iff` : a sender whose command is to be written is completed with an error when
the write fails exactly when its command is not that of `wsm_get_config` and is still in the slot.
-/

namespace Atbm6441.Wsm.Cmd

open Atbm6441.Lib Atbm6441.Wsm.Buf

/-! ### The ids of the driver -/

/-- The interface in the header of a call. -/
def ifBits (c : Call) : BitVec 16 := BitVec.ofInt 16 (if c.ifId = -1 then 0 else c.ifId)

/-- **Commands come from the functions `wsm_*`** that wait for a confirm. -/
def FromDriver : AnyAct → Prop
  | .own (.send cmd ifId _) => ∃ c : Call, c.noAck = false ∧ cmd = c.reqId ∧ ifId = ifBits c
  | _ => True

/-- A call of `wsm_get_config`. -/
def isGetConfig : Call → Bool
  | .get f _ => f == .getConfig
  | _ => false

/-- What `atbm_sdio_force_free_wsm` takes for a data or a check message. -/
def isMsgId (id : BitVec 16) : Bool := id &&& 0x3f == 0x0002 || id &&& 0x3f == 0x0004

theorem isMsgId_congr {id id' : BitVec 16} (h : id &&& 0x3f = id' &&& 0x3f) :
    isMsgId id = isMsgId id' := by rw [isMsgId, isMsgId, h]

theorem isFreed_eq (c : WsmCmd) (id : BitVec 16) :
    c.isFreed id = (!isMsgId id && c.cmd != 0xffff) := by
  simp [WsmCmd.isFreed, isMsgId, bne]

theorem and_or_shift (x y : BitVec 16) : (x ||| y <<< 6) &&& 0x3f = x &&& 0x3f := by
  have hhigh : ∀ i : Fin 16, 6 ≤ i.val → (0x3f : BitVec 16)[i] = false := by decide
  ext i hi
  simp only [BitVec.getElem_and, BitVec.getElem_or, BitVec.getElem_shiftLeft]
  rcases Nat.lt_or_ge i 6 with hlt | hge
  · simp [hlt]
  · rw [show (0x3f : BitVec 16)[i] = false from hhigh ⟨i, hi⟩ hge, Bool.and_false, Bool.and_false]

theorem isMsgId_set (f : SetFn) : isMsgId f.reqId = false := by cases f <;> decide

theorem isMsgId_get (f : GetFn) : isMsgId f.reqId = (f == .getConfig) := by cases f <;> decide

/-- **The six bits of a call** are those of a data or a check message only for `wsm_get_config`. -/
theorem isMsgId_hdrId (c : Call) : isMsgId c.hdrId = isGetConfig c := by
  have hbits : c.hdrId &&& 0x3f = c.reqId &&& 0x3f := and_or_shift _ _
  rw [isMsgId_congr hbits]
  cases c with
  | set f buffer => exact isMsgId_set f
  | get f bufSize => exact isMsgId_get f
  | reset linkId resetStatistics ifId =>
    have hreset : isMsgId (0x000A ||| (linkId &&& 0x0F) <<< 6) = isMsgId 0x000A :=
      isMsgId_congr (and_or_shift _ _)
    have hid : isMsgId 0x000A = false := by decide
    exact hreset.trans hid
  | getScanInfo => exact (show isMsgId 0x000B = false by decide)
  | readShmem => exact (show isMsgId 0x0000 = false by decide)
  | writeShmem => exact (show isMsgId 0x0001 = false by decide)
  | join => exact (show isMsgId 0x0003 = false by decide)
  | configuration => exact (show isMsgId 0x0009 = false by decide)
  | sendIpcData => exact (show isMsgId 0x0028 = false by decide)

/-! ### Whose header the buffer holds -/

/-- The sender has built its command. -/
def SenderPc.built : SenderPc → Bool
  | .submitted _ _ | .waiting | .expired | .lastChance | .leaving _ => true
  | .free | .building => false

/-- The last command that was built is that of a call. -/
def State.IsFor (s : State) (c : Call) : Prop := ∃ m, s.built.getLast? = some m ∧ m.id = c.hdrId

/-- **The header in the buffer is that of the command that was built last**, up to the stamp of the
bottom half. -/
structure HdrKept (s : State) : Prop where
  exists_last : s.sender.built = true → ∃ m, s.built.getLast? = some m
  bits : ∀ m, s.built.getLast? = some m → m.id &&& 0x3f = s.buf.id &&& 0x3f
  call : ∀ m ∈ s.built, ∃ c : Call, m.id = c.hdrId

variable {s t : State}

theorem hdrKept_start (mem : List UInt8) : HdrKept (start mem) := ⟨nofun, nofun, nofun⟩

namespace HdrKept

theorem keep (h : HdrKept s) (hbuf : t.buf.id = s.buf.id) (hbuilt : t.built = s.built)
    (hpc : t.sender.built = true → s.sender.built = true) : HdrKept t := by
  refine ⟨?_, ?_, ?_⟩
  · rw [hbuilt]
    exact fun hb => h.exists_last (hpc hb)
  · rw [hbuilt, hbuf]
    exact h.bits
  · rw [hbuilt]
    exact h.call

/-- **A command is built.** -/
theorem send (h : HdrKept s) (c : Call) (arg : Bool) :
    HdrKept { s with
      sender := .submitted c.reqId arg
      buf := s.buf.fillHdr c.reqId (ifBits c) s.cur
      built := s.built ++ [(s.buf.fillHdr c.reqId (ifBits c) s.cur).msg] } := by
  refine ⟨fun _ => ⟨_, List.getLast?_concat ..⟩, fun m hm => ?_, fun m hm => ?_⟩
  · rw [List.getLast?_concat, Option.some.injEq] at hm
    rw [← hm]
    rfl
  · rcases List.mem_append.mp hm with hm | hm
    · exact h.call m hm
    · rw [List.mem_singleton.mp hm]
      exact ⟨c, rfl⟩

theorem stamp (b : WsmBuf) (seq : ℕ) : (b.stamp seq).id &&& 0x3f = b.id &&& 0x3f := by
  have hlow : ∀ i : Fin 16, i.val < 6 → (0xe000#16)[i] = false := by decide
  have hhigh : ∀ i : Fin 16, 6 ≤ i.val → (0x3f : BitVec 16)[i] = false := by decide
  show (b.id &&& ~~~0xe000#16 ||| (BitVec.ofNat 16 seq &&& 7) <<< 13) &&& 0x3f = b.id &&& 0x3f
  ext i hi
  simp only [BitVec.getElem_and, BitVec.getElem_or, BitVec.getElem_shiftLeft, BitVec.getElem_not]
  rcases Nat.lt_or_ge i 6 with hlt | hge
  · rw [show (0xe000#16)[i] = false from hlow ⟨i, hi⟩ hlt]
    simp [show i < 13 by omega]
  · rw [show (0x3f : BitVec 16)[i] = false from hhigh ⟨i, hi⟩ hge, Bool.and_false, Bool.and_false]

theorem linearized (h : HdrKept s) (n : ℕ) : HdrKept (s.linearized n) := by
  refine ⟨h.exists_last, fun m hm => ?_, h.call⟩
  rw [h.bits m hm]
  exact (stamp s.buf s.wsmTxSeq).symm

theorem own (h : HdrKept s) {a : Act} (ha : FromDriver (.own a)) (ht : s.step a = some t) :
    HdrKept t := by
  cases (branch_of_step ht).2 with
  | send cmd ifId arg hpc =>
    obtain ⟨c, -, rfl, rfl⟩ := ha
    exact h.send c arg
  | linearize hpc hlen => exact h.linearized _
  | lock | nomem | leave => exact h.keep rfl rfl nofun
  | register hpc | timeout hpc | complete hpc | giveUp hpc | giveUpRace hpc | lastChance hpc =>
    exact h.keep rfl rfl fun _ => by rw [hpc]; rfl
  | put | registerBug | lastChanceBug | test | testNone | getBug | get | linearizeBug | txedTest
  | txedTestNone | txed | write | writeFailed | confirm | confirmOther | handle | confirmed =>
    exact h.keep rfl rfl id

theorem step (h : HdrKept s) {a : AnyAct} (ha : FromDriver a) (ht : s.anyStep a = some t) :
    HdrKept t := by
  cases a with
  | own a => exact h.own ha ht
  | stray id =>
    simp only [State.anyStep, Option.ite_none_right_eq_some, Option.some.injEq] at ht
    obtain ⟨-, rfl⟩ := ht
    exact h.keep rfl rfl fun hb => hb
  | release =>
    simp only [State.anyStep, Option.ite_none_right_eq_some, Option.some.injEq] at ht
    obtain ⟨-, rfl⟩ := ht
    exact h.keep rfl rfl fun hb => hb

end HdrKept

/-! ### A write that fails -/

/-- **The sender is completed with an error, and the slot is freed.** -/
def WsmCmd.Failed (c : WsmCmd) : Prop :=
  c.done = true ∧ c.ret < 0 ∧ c.cmd = 0xffff ∧ c.ptr = none ∧ c.arg = none

theorem failed_forceFree_iff {c : WsmCmd} (hdone : c.done = false) (id : BitVec 16) :
    (c.forceFree id).Failed ↔ c.isFreed id = true := by
  unfold WsmCmd.forceFree
  by_cases hfreed : c.isFreed id = true
  · rw [if_pos hfreed]
    exact ⟨fun _ => hfreed, fun _ => ⟨rfl, Int.negSucc_lt_zero 0, rfl, rfl, rfl⟩⟩
  · rw [if_neg hfreed]
    refine ⟨fun h => ?_, fun h => absurd h hfreed⟩
    rw [h.1] at hdone
    cases hdone

/-- **A sender whose command is not written is completed with an error** exactly when its command is
not that of `wsm_get_config` and is still in the slot, in every run. -/
theorem writeFailed_iff (h : Reach anyConfirm (fun _ a => FromDriver a) s)
    (hw : s.sender.waits = true) (hdone : s.slot.done = false) (htx : s.tx = .txed)
    (ht : s.step (.write false) = some t) :
    ∃ c, s.IsFor c ∧ (t.slot.Failed ↔ isGetConfig c = false ∧ s.slot.cmd ≠ 0xffff) := by
  have hinv : HdrKept s := by
    refine Reach.inv ?_ ?_ h
    · rintro s ⟨mem, rfl⟩
      exact hdrKept_start mem
    · intro s a t hI ha hst
      exact hI.step ha hst
  have hbuilt : s.sender.built = true := by
    cases hpc : s.sender <;> rw [hpc] at hw <;> first | rfl | cases hw
  obtain ⟨m, hm⟩ := hinv.exists_last hbuilt
  obtain ⟨c, hc⟩ := hinv.call m (List.mem_of_getLast? hm)
  refine ⟨c, ⟨m, hm, hc⟩, ?_⟩
  have hmsg : isMsgId s.buf.id = isGetConfig c := by
    rw [← isMsgId_hdrId, ← hc]
    exact (isMsgId_congr (hinv.bits m hm)).symm
  have hslot : t.slot = s.slot.forceFree s.buf.id := by
    cases (branch_of_step ht).2 with
    | write ok hpc =>
      rcases hpc with ⟨-, hok⟩ | hpc
      · cases hok
      · rw [htx] at hpc
        cases hpc
    | writeFailed hpc => rfl
  rw [hslot, failed_forceFree_iff hdone, isFreed_eq, hmsg]
  simp

/-! ### Runs -/

/-- A command without an interface is got by the bottom half, up to the write. -/
def toWrite (cmd : BitVec 16) : List AnyAct :=
  (submits cmd ++ [Act.test false, .get, .linearize, .txedTest, .txed]).map .own

theorem reach_toWrite {c : Call} (hack : c.noAck = false) (hif : ifBits c = 0) {s : State}
    (hs : exec anyConfirm (start []) (toWrite c.reqId) = some s) :
    Reach anyConfirm (fun _ a => FromDriver a) s := by
  have hinit : anyConfirm.init (start []) := ⟨[], rfl⟩
  refine Reach.of_exec_forall (.init hinit) (fun a ha _ => ?_) hs
  simp only [toWrite, submits, List.cons_append, List.nil_append, List.map_cons, List.map_nil,
    List.mem_cons, List.not_mem_nil, or_false] at ha
  rcases ha with rfl | rfl | rfl | rfl | rfl | rfl | rfl | rfl | rfl
  case inr.inr.inl => exact ⟨c, hack, rfl, hif.symm⟩
  all_goals trivial

theorem waits_toWrite {cmd : BitVec 16} {s : State} (hcmd : cmd = 0x0008 ∨ cmd = 0x0002)
    (hs : exec anyConfirm (start []) (toWrite cmd) = some s) :
    s.sender = .waiting ∧ s.slot.done = false ∧ s.tx = .txed ∧ s.slot.cmd = cmd ∧
      s.built.getLast?.map (·.id) = some cmd := by
  have hout : (exec anyConfirm (start []) (toWrite cmd)).map (fun s =>
      (s.sender, s.slot.done, s.tx, s.slot.cmd)) = some (.waiting, false, .txed, cmd) := by
    rcases hcmd with rfl | rfl <;> decide +kernel
  have hlast : (exec anyConfirm (start []) (toWrite cmd)).map (fun s =>
      s.built.getLast?.map (·.id)) = some (some cmd) := by
    rcases hcmd with rfl | rfl <;> decide +kernel
  have hall := eq_of_map hs _ hout
  simp only [Prod.mk.injEq] at hall
  exact ⟨hall.1, hall.2.1, hall.2.2.1, hall.2.2.2, eq_of_map hs _ hlast⟩

/-- The sender of a command with id 8 is completed with an error. -/
theorem writeFailed_setPsmode : ∃ (s t : State) (c : Call), s.sender = .waiting ∧
    s.step (.write false) = some t ∧ s.IsFor c ∧ t.slot.Failed := by
  have hsome : ((exec anyConfirm (start []) (toWrite 0x0008)).bind fun s =>
      s.step (.write false)).isSome = true := by
    decide +kernel
  obtain ⟨t, ht⟩ := Option.isSome_iff_exists.mp hsome
  obtain ⟨s, hs, ht⟩ := Option.bind_eq_some_iff.mp ht
  obtain ⟨hpc, hdone, htx, hcmd, hid⟩ := waits_toWrite (Or.inl rfl) hs
  have hr := reach_toWrite (c := .set .setPsmode []) rfl rfl hs
  obtain ⟨c, ⟨m, hm, hc⟩, hiff⟩ := writeFailed_iff hr (by rw [hpc]; rfl) hdone htx ht
  refine ⟨s, t, c, hpc, ht, ⟨m, hm, hc⟩, hiff.mpr ⟨?_, by rw [hcmd]; decide⟩⟩
  rw [hm, Option.map_some, Option.some.injEq] at hid
  rw [← isMsgId_hdrId, ← hc, hid]
  decide

/-- **The sender of `wsm_get_config` is not completed** when its command is not written. -/
theorem getConfig_waits : ∃ s t : State, Reach anyConfirm (fun _ a => FromDriver a) s ∧
    s.sender = .waiting ∧ s.slot.done = false ∧ s.tx = .txed ∧ s.IsFor (.get .getConfig 4) ∧
    s.step (.write false) = some t ∧ t.sender = .waiting ∧ t.slot.cmd = 0x0002 ∧
    ¬ t.slot.Failed := by
  have hout : ((exec anyConfirm (start []) (toWrite 0x0002)).bind fun s =>
      s.step (.write false)).map (fun t => (t.sender, t.slot.cmd, t.slot.done)) =
        some (.waiting, 0x0002, false) := by
    decide +kernel
  obtain ⟨t, ht, hout⟩ := Option.map_eq_some_iff.mp hout
  obtain ⟨s, hs, ht⟩ := Option.bind_eq_some_iff.mp ht
  simp only [Prod.mk.injEq] at hout
  obtain ⟨hpc', hcmd', hdone'⟩ := hout
  obtain ⟨hpc, hdone, htx, -, hid⟩ := waits_toWrite (Or.inr rfl) hs
  obtain ⟨m, hm, hmid⟩ := Option.map_eq_some_iff.mp hid
  have hr := reach_toWrite (c := .get .getConfig 4) rfl rfl hs
  refine ⟨s, t, hr, hpc, hdone, htx, ⟨m, hm, hmid⟩, ht, hpc', hcmd', fun hfailed => ?_⟩
  rw [hfailed.1] at hdone'
  cases hdone'

end Atbm6441.Wsm.Cmd
