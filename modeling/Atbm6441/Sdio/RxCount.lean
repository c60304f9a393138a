import Atbm6441.Sdio.ReadData

/-!
# How many frames a call has read

`atbm_sdio_process_read_data` returns the number of frames, or -1, to `atbm_irq_handler`, which goes
on to read, starts the RX thread or returns according to it. The number is kept in a `u8`.
`counted_iff` : it is that of the frames that were read and given to `rx_handle` exactly if these
are fewer than 256, or there is an error and no number is returned.
-/

namespace Atbm6441.Sdio.ReadData

open Atbm6441.Lib

/-- What `atbm_irq_handler` does next, in an interrupt thread. -/
inductive IrqNext
  | trigerRx
  /-- it gives up the bus for a while, and reads again -/
  | rxContinue
  | ret
deriving DecidableEq

/-- `atbm_irq_handler` with a result, where 64 is `ATBM_MAX_OVERFLOW_SIZE`. -/
def irqNext (rxCounter : ℤ) : IrqNext :=
  if rxCounter = 0 then .trigerRx else if 64 ≤ rxCounter then .rxContinue else .ret

/-- A frame has been read. -/
def Act.isFrame : Act → Bool
  | .readDataFunc (some _) => true
  | _ => false

/-- The number of frames that are read. -/
def frames (as : List Act) : ℕ := as.countP Act.isFrame

/-- **There is no error**: what is read is read, with a length that is possible. -/
def State.Sound (s : State) : Act → Prop
  | .readCtrlFunc r => ∃ ctrlReg, r = some ctrlReg ∧ Valid ctrlReg
  | .getSkb r => r ≠ some false
  | .readDataFunc r => r ≠ none
  | .rxHandle v => v = 0 → ∀ ctrlReg, s.pc = .rxHandle ctrlReg → Valid ctrlReg

/-- **The number is right**, where one is returned, and so is what the handler does with it. -/
def State.Counted (s : State) (v : ℤ) : Prop :=
  v ≠ -1 → v = s.handed.length ∧ irqNext v = irqNext s.handed.length

/-! ### What is kept -/

variable {s t : State} {a : Act} {as : List Act} {v : ℤ}

/-- The frame that `rx_handle` is about to get. -/
def Pc.pending : Pc → ℕ
  | .rxHandle _ => 1
  | _ => 0

/-- The number of frames read. -/
def State.read (s : State) : ℕ := s.handed.length + s.pc.pending

/-- **The counter is the number of frames**, up to the width of a `u8`, and `skb_rx` is there where
it is needed. -/
def State.Counts (s : State) : Prop :=
  match s.pc with
  | .rxCheck | .getSkb _ => s.rxContinueCnt.toNat = s.read % 256
  | .readData _ | .rxHandle _ => s.rxContinueCnt.toNat = s.read % 256 ∧ s.skbRx.toList.length = 1
  | .ret v => v = -1 ∨ v = (s.read % 256 : ℕ)
  | .bug => True

theorem counts_err (s : State) : s.err.Counts := Or.inl rfl

theorem read_rxContinue (s : State) (ctrlReg : BitVec 16) :
    (s.rxContinue ctrlReg).read = s.handed.length := by
  unfold State.rxContinue
  split_ifs <;> rfl

theorem counts_rxContinue (hcnt : s.rxContinueCnt.toNat = s.handed.length % 256)
    (ctrlReg : BitVec 16) : (s.rxContinue ctrlReg).Counts := by
  unfold State.rxContinue
  split_ifs
  · refine Or.inr ?_
    show (s.rxContinueCnt.toNat : ℤ) = (s.handed.length % 256 : ℕ)
    rw [hcnt]
  · exact counts_err s
  · exact hcnt

theorem toNat_succ (c : BitVec 8) {n : ℕ} (hc : c.toNat = n % 256) :
    (c + 1).toNat = (n + 1) % 256 := by
  rw [BitVec.toNat_add, hc]
  show (n % 256 + 1) % 256 = (n + 1) % 256
  omega

/-- **A step counts the frame that it reads.** -/
theorem State.Counts.step (h : s.Counts) (ht : s.step a = some t) :
    t.Counts ∧ t.read = s.read + a.isFrame.toNat := by
  unfold State.Counts at h
  obtain ⟨r, rfl, hpc, rfl⟩ | ⟨n, rfl, hpc, rfl⟩ | ⟨n, data, rfl, hpc, u, hu, rfl⟩ |
    ⟨n, rfl, hpc, rfl⟩ | ⟨n, data, rfl, hpc, rfl⟩ | ⟨v, ctrlReg, rfl, hpc, u, hu, rfl⟩ :=
    step_cases ht
  all_goals have hread : s.read = s.handed.length + s.pc.pending := rfl
  all_goals rw [hpc] at h hread
  · rcases r with _ | ctrlReg
    · exact ⟨counts_err s, hread.symm⟩
    · refine ⟨counts_rxContinue ?_ ctrlReg, ?_⟩
      · rw [h, hread]
        rfl
      · show (s.rxContinue ctrlReg).read = s.read
        rw [read_rxContinue, hread]
        rfl
  · exact ⟨trivial, hread.symm⟩
  · have hhanded : u.handed.length = s.read := by
      rw [hu, hread]
      rfl
    have hcnt : u.rxContinueCnt.toNat = u.handed.length % 256 := by
      rw [hhanded, ← h, hu]
    rcases data with _ | _
    · exact ⟨counts_err u, hhanded⟩
    · exact ⟨⟨hcnt, by subst hu; rfl⟩, hhanded⟩
  · exact ⟨counts_err s, hread.symm⟩
  · refine ⟨⟨toNat_succ _ ?_, h.2⟩, ?_⟩
    · rw [h.1, hread]
      rfl
    · rw [hread]
      rfl
  · have hhanded : u.handed.length = s.read := by
      rw [hu, hread]
      show (s.handed ++ s.skbRx.toList).length = s.handed.length + 1
      rw [List.length_append, h.2]
    have hcnt : u.rxContinueCnt.toNat = u.handed.length % 256 := by
      rw [hhanded, ← h.1, hu]
    split_ifs
    · refine ⟨Or.inr ?_, hhanded⟩
      show (u.rxContinueCnt.toNat : ℤ) = (u.handed.length % 256 : ℕ)
      rw [hcnt]
    · exact ⟨counts_rxContinue hcnt ctrlReg, by rw [read_rxContinue, hhanded]; rfl⟩
    · exact ⟨hcnt, hhanded⟩

/-- **What a run has counted.** -/
theorem State.Counts.exec (h : s.Counts) (he : exec system s as = some t) :
    t.Counts ∧ t.read = s.read + frames as := by
  induction as generalizing s with
  | nil =>
    obtain rfl := Option.some.inj he
    exact ⟨h, rfl⟩
  | cons a as ih =>
    obtain ⟨u, hu, hut⟩ := Option.bind_eq_some_iff.mp he
    obtain ⟨hcounts, hread⟩ := h.step hu
    obtain ⟨hcounts, hread'⟩ := ih hcounts hut
    refine ⟨hcounts, ?_⟩
    rw [hread', hread, frames, frames, List.countP_cons]
    rcases a.isFrame with _ | _
    · rfl
    · rw [Bool.toNat_true, if_pos rfl]
      omega

/-! ### Errors -/

theorem natCast_ne_err (n : ℕ) : Pc.ret (n : ℤ) ≠ .ret (-1) := by
  intro h
  have hn := Pc.ret.inj h
  omega

theorem rxContinue_pc {ctrlReg : BitVec 16} (hvalid : Valid ctrlReg) :
    (s.rxContinue ctrlReg).pc ≠ .ret (-1) := by
  unfold State.rxContinue
  split_ifs with hzero hinvalid
  · exact natCast_ne_err _
  · rcases hvalid with hv | ⟨hle, hge⟩
    · exact absurd hv hzero
    · omega
  · exact fun h => by cases h

/-- **A step returns -1 if and only if there is an error.** -/
theorem step_sound_iff (ht : s.step a = some t) : s.Sound a ↔ t.pc ≠ .ret (-1) := by
  obtain ⟨r, rfl, hpc, rfl⟩ | ⟨n, rfl, hpc, rfl⟩ | ⟨n, data, rfl, hpc, u, hu, rfl⟩ |
    ⟨n, rfl, hpc, rfl⟩ | ⟨n, data, rfl, hpc, rfl⟩ | ⟨v, ctrlReg, rfl, hpc, u, hu, rfl⟩ :=
    step_cases ht
  · rcases r with _ | ctrlReg
    · exact ⟨fun ⟨_, h, _⟩ => (by cases h), fun h => absurd rfl h⟩
    · by_cases hvalid : Valid ctrlReg
      · exact ⟨fun _ => rxContinue_pc hvalid, fun _ => ⟨ctrlReg, rfl, hvalid⟩⟩
      · refine ⟨fun ⟨c, hc, hv⟩ => absurd (Option.some.inj hc ▸ hv) hvalid, fun h => ?_⟩
        exact absurd (congrArg State.pc (rxContinue_invalid s hvalid)) h
  · exact ⟨fun _ h => (by cases h), fun _ h => (by cases h)⟩
  · rcases data with _ | _
    · exact ⟨fun h => absurd rfl h, fun h => absurd rfl h⟩
    · exact ⟨fun _ h => (by cases h), fun _ h => (by cases h)⟩
  · exact ⟨fun h => absurd rfl h, fun h => absurd rfl h⟩
  · exact ⟨fun _ h => (by cases h), fun _ h => (by cases h)⟩
  · have hsound : s.Sound (.rxHandle v) ↔ (v = 0 → Valid ctrlReg) := by
      refine ⟨fun h hv => h hv ctrlReg hpc, fun h hv c hc => ?_⟩
      obtain rfl := Pc.rxHandle.inj (hpc.symm.trans hc)
      exact h hv
    rw [hsound]
    split_ifs with hv hlen
    · exact ⟨fun _ => natCast_ne_err _, fun _ hzero => absurd hzero hv⟩
    · by_cases hvalid : Valid ctrlReg
      · exact ⟨fun _ => rxContinue_pc hvalid, fun _ _ => hvalid⟩
      · refine ⟨fun h => absurd (h (not_not.mp hv)) hvalid, fun h => ?_⟩
        exact absurd (congrArg State.pc (rxContinue_invalid u hvalid)) h
    · exact ⟨fun _ h => (by cases h), fun _ _ => Or.inl (not_not.mp hlen)⟩

theorem ret_stuck (hret : t.pc = .ret v) (b : Act) : t.step b = none := by
  rcases b with r | r | r | w <;> simp [State.step, hret]

/-- **A call returns -1** if and only if there is an error in it. -/
theorem ret_eq_err_iff (he : exec system .start as = some s) (hret : s.pc = .ret v) :
    v = -1 ↔ ¬ Along system State.Sound .start as := by
  have hiff : s.pc ≠ .ret (-1) ↔ Along system State.Sound .start as := by
    refine along_iff (I := fun s => s.pc ≠ .ret (-1)) (fun _ h => h) ?_ ?_ (fun h => by cases h) he
    · exact fun s a t _ hsound ht => (step_sound_iff ht).mp hsound
    · intro s a t _ hnot ht
      have hpc : t.pc = .ret (-1) := not_not.mp fun h => hnot ((step_sound_iff ht).mpr h)
      exact ⟨fun h => h hpc, ret_stuck hpc⟩
  rw [← hiff, not_not, hret]
  exact ⟨congrArg Pc.ret, Pc.ret.inj⟩

/-! ### The number -/

/-- **What a call returns** and has handed over. -/
theorem ret_eq (he : exec system .start as = some s) (hret : s.pc = .ret v) :
    s.handed.length = frames as ∧ (v = -1 ∨ v = (frames as % 256 : ℕ)) := by
  have hstart : State.start.Counts := rfl
  obtain ⟨hcounts, hread⟩ := hstart.exec he
  rw [show State.start.read = 0 from rfl, Nat.zero_add] at hread
  unfold State.Counts at hcounts
  rw [hret] at hcounts
  refine ⟨?_, hread ▸ hcounts⟩
  rw [← hread, State.read, hret]
  rfl

theorem counted_iff_eq : s.Counted v ↔ (v ≠ -1 → v = s.handed.length) := by
  refine ⟨fun h hne => (h hne).1, fun h hne => ⟨h hne, ?_⟩⟩
  rw [← h hne]

/-- **The number that is returned is right**, and with it what the handler does, if and only if
there is an error, which is returned as -1, or fewer than 256 frames are read. -/
theorem counted_iff (he : exec system .start as = some s) (hret : s.pc = .ret v) :
    s.handed.length = frames as ∧ (v = -1 ↔ ¬ Along system State.Sound .start as) ∧
      (v = s.handed.length ↔ Along system State.Sound .start as ∧ frames as < 256) ∧
      (s.Counted v ↔ ¬ Along system State.Sound .start as ∨ frames as < 256) := by
  obtain ⟨hlen, hv⟩ := ret_eq he hret
  have herr := ret_eq_err_iff he hret
  have hsound : Along system State.Sound .start as ↔ v ≠ -1 := by rw [ne_eq, herr, not_not]
  refine ⟨hlen, herr, ?_, ?_⟩
  · rw [hlen, hsound]
    omega
  · rw [counted_iff_eq, hlen, ← herr]
    omega

theorem counted_iff_twoFrames :
    ∃ s, exec system .start twoFrames = some s ∧ s.pc = .ret 2 ∧
      (s.Counted 2 ↔ ¬ Along system State.Sound .start twoFrames ∨ frames twoFrames < 256) := by
  have hrun : exec system .start twoFrames = some _ := rfl
  exact ⟨_, hrun, by decide, (counted_iff hrun (by decide)).2.2.2⟩

/-! ### A burst -/

/-- A number of frames, one after the other. -/
def burst : ℕ → List Act
  | 0 => []
  | n + 1 => oneFrame ++ burst n

/-- **A frame of a burst.** -/
theorem exec_oneFrame (hpc : s.pc = .rxCheck) :
    exec system s oneFrame = some { s with
      skbRx := some s.allocated
      rxContinueCnt := s.rxContinueCnt + 1
      allocated := s.allocated + 1
      handed := s.handed ++ [s.allocated] } := by
  rcases s with ⟨pc, skbRx, cnt, allocated, handed, freed⟩
  obtain rfl : pc = .rxCheck := hpc
  rfl

theorem exec_burst (n : ℕ) (hpc : s.pc = .rxCheck) :
    ∃ t, exec system s (burst n) = some t ∧ t.pc = .rxCheck ∧
      t.rxContinueCnt = s.rxContinueCnt + BitVec.ofNat 8 n ∧
      t.handed.length = s.handed.length + n := by
  induction n generalizing s with
  | zero => exact ⟨s, rfl, hpc, by simp, rfl⟩
  | succ n ih =>
    obtain ⟨t, ht, hpc', hcnt, hlen⟩ := ih (s := { s with
      skbRx := some s.allocated
      rxContinueCnt := s.rxContinueCnt + 1
      allocated := s.allocated + 1
      handed := s.handed ++ [s.allocated] }) hpc
    refine ⟨t, ?_, hpc', ?_, ?_⟩
    · rw [burst, exec_append, exec_oneFrame hpc]
      exact ht
    · rw [hcnt, Nat.add_comm n 1, BitVec.ofNat_add, ← BitVec.add_assoc]
      rfl
    · rw [hlen, List.length_append, List.length_singleton]
      omega

/-- **256 frames are reported as none**: the handler starts the RX thread, and does not go on to
read. -/
theorem burst_not_counted :
    ∃ s, exec system .start (burst 256 ++ [.readCtrlFunc (some 0)]) = some s ∧ s.pc = .ret 0 ∧
      s.handed.length = 256 ∧ irqNext 0 = .trigerRx ∧ irqNext 256 = .rxContinue ∧
      ¬ s.Counted 0 := by
  obtain ⟨t, ht, hpc, hcnt, hlen⟩ := exec_burst (s := .start) 256 rfl
  have hzero : t.rxContinueCnt = 0 := hcnt
  have hlen : t.handed.length = 256 := hlen
  refine ⟨{ t with pc := .ret 0 }, ?_, rfl, hlen, rfl, rfl, fun h => ?_⟩
  · rw [exec_append, ht]
    rcases t with ⟨pc, skbRx, cnt, allocated, handed, freed⟩
    obtain rfl : pc = .rxCheck := hpc
    obtain rfl : cnt = 0 := hzero
    rfl
  · have heq := (h (by decide)).1
    rw [hlen] at heq
    cases heq

end Atbm6441.Sdio.ReadData
