import Atbm6441.Lib.Cursor
import Atbm6441.Lib.Progress
import Atbm6441.Wsm.Buf.Model

/-!
# Who has an skb that was read

`atbm_sdio_process_read_data` of `bh_sdio.c`, with `atbm_get_skb` (nothing is ever put into
`skb_cache`). `skb_rx` goes on pointing to a frame that `rx_handle` was given, and the error exit
frees what it points to. `accounted_iff` : each skb is given to `rx_handle` or freed, and not both,
exactly when no read of the control register fails, and no length is invalid, after a frame.
-/

namespace Atbm6441.Sdio.ReadData

open Atbm6441.Lib Atbm6441.Wsm

/-- `EFFECTIVE_BUF_SIZE`. -/
def effectiveBufSize : ℕ := (0x4000 - 4) * 2 - 2

/-- `sizeof(struct wsm_hdr)`. -/
def wsmHdrLen : ℕ := 4

/-- `read_len` of a control register. -/
def readLen (ctrlReg : BitVec 16) : ℕ :=
  let readLenLsb := (ctrlReg &&& 0x0fff).toNat * 2
  let readLenMsb := (ctrlReg &&& 0xc000).toNat * 2
  (readLenMsb >>> 2) + readLenLsb

/-- There is no frame, or one whose length is possible. -/
def Valid (ctrlReg : BitVec 16) : Prop :=
  readLen ctrlReg = 0 ∨ (wsmHdrLen ≤ readLen ctrlReg ∧ readLen ctrlReg ≤ effectiveBufSize)

instance (ctrlReg : BitVec 16) : Decidable (Valid ctrlReg) := inferInstanceAs (Decidable (_ ∨ _))

/-- `alloc_len`. -/
def allocLen (readLen : ℕ) : ℕ :=
  if readLen % Buf.sdioBlockSize ≠ 0 then
    readLen - readLen % Buf.sdioBlockSize + Buf.sdioBlockSize
  else readLen

/-- The control register at the end of what was read. -/
def piggyback (data : ℕ → UInt8) (allocLen : ℕ) : BitVec 16 :=
  BitVec.ofNat 16 (leNat (slice data (2 * (allocLen / 2 - 1)) 2))

/-! ### The function -/

/-- Where it is. -/
inductive Pc
  /-- `rx_check` -/
  | rxCheck
  /-- before `atbm_get_skb` -/
  | getSkb (readLen : ℕ)
  /-- before `read_data_func` -/
  | readData (allocLen : ℕ)
  /-- before `rx_handle`, with the piggyback -/
  | rxHandle (ctrlReg : BitVec 16)
  | ret (v : ℤ)
  /-- the `BUG_ON` in `atbm_get_skb` -/
  | bug
deriving DecidableEq

/-- The local variables, the number of skbs allocated, which are numbered by that, those given to
`rx_handle` and those freed. -/
structure State where
  pc : Pc
  skbRx : Option ℕ
  rxContinueCnt : BitVec 8
  allocated : ℕ
  handed : List ℕ
  freed : List ℕ
deriving DecidableEq

/-- What the functions that it calls return. -/
inductive Act
  | readCtrlFunc (ctrlReg : Option (BitVec 16))
  /-- no memory, or an skb, and whether its `data` is not `NULL` -/
  | getSkb (data : Option Bool)
  | readDataFunc (data : Option (ℕ → UInt8))
  | rxHandle (v : ℤ)

namespace State

def start : State := ⟨.rxCheck, none, 0, 0, [], []⟩

/-- `err`. -/
def err (s : State) : State := { s with freed := s.freed ++ s.skbRx.toList, pc := .ret (-1) }

/-- `rx_continue`, up to `atbm_get_skb`. -/
def rxContinue (s : State) (ctrlReg : BitVec 16) : State :=
  if readLen ctrlReg = 0 then { s with pc := .ret s.rxContinueCnt.toNat }
  else if readLen ctrlReg < wsmHdrLen ∨ effectiveBufSize < readLen ctrlReg then s.err
  else { s with pc := .getSkb (readLen ctrlReg + 2) }

def step (s : State) : Act → Option State
  | .readCtrlFunc r =>
    match s.pc, r with
    | .rxCheck, none => some s.err
    | .rxCheck, some ctrlReg => some (s.rxContinue ctrlReg)
    | _, _ => none
  | .getSkb r =>
    match s.pc, r with
    | .getSkb _, none => some { s with pc := .bug }
    | .getSkb readLen, some data =>
      let s := { s with skbRx := some s.allocated, allocated := s.allocated + 1 }
      some (if data then { s with pc := .readData (allocLen readLen) } else s.err)
    | _, _ => none
  | .readDataFunc r =>
    match s.pc, r with
    | .readData _, none => some s.err
    | .readData allocLen, some data => some { s with
        pc := .rxHandle (piggyback data allocLen)
        rxContinueCnt := s.rxContinueCnt + 1 }
    | _, _ => none
  | .rxHandle v =>
    match s.pc with
    | .rxHandle ctrlReg =>
      let s := { s with handed := s.handed ++ s.skbRx.toList }
      some (if v ≠ 0 then { s with pc := .ret s.rxContinueCnt.toNat }
        else if readLen ctrlReg ≠ 0 then s.rxContinue ctrlReg
        else { s with pc := .rxCheck })
    | _ => none

/-- The skb that was allocated last, as long as it was neither given to `rx_handle` nor freed. -/
def held (s : State) : Option ℕ :=
  match s.pc with
  | .readData _ | .rxHandle _ => s.skbRx
  | _ => none

/-- **Each skb is in one place**: given to `rx_handle`, freed or still held. -/
def Accounted (s : State) : Prop :=
  (s.handed ++ s.freed ++ s.held.toList).Perm (List.range s.allocated)

instance (s : State) : Decidable s.Accounted := inferInstanceAs (Decidable (List.Perm _ _))

/-- After a frame the control register can be read and the length is valid. -/
def Clean (s : State) : Act → Prop
  | .readCtrlFunc r => s.handed = [] ∨ ∃ ctrlReg, r = some ctrlReg ∧ Valid ctrlReg
  | .rxHandle v => v = 0 → ∀ ctrlReg, s.pc = .rxHandle ctrlReg → Valid ctrlReg
  | _ => True

end State

/-- A call of the function. -/
def system : System State Act where
  init s := s = .start
  step := State.step

/-! ### What is kept -/

variable {s t : State} {a : Act}

/-- The skbs up to the last one were given to `rx_handle`, and `skb_rx` points to the last one. -/
structure Between (s : State) : Prop where
  handed : s.handed = List.range s.allocated
  freed : s.freed = []
  skbRx : s.skbRx = s.handed.getLast?

/-- There is one more, to which `skb_rx` points. -/
structure Holding (s : State) : Prop where
  allocated : s.allocated = s.handed.length + 1
  handed : s.handed = List.range s.handed.length
  freed : s.freed = []
  skbRx : s.skbRx = some s.handed.length

/-- **What holds where**. -/
def Inv (s : State) : Prop :=
  match s.pc with
  | .rxCheck | .getSkb _ => Between s
  | .readData _ | .rxHandle _ => Holding s
  | .ret _ | .bug => s.Accounted

theorem Between.congr (h : Between s) (hallocated : t.allocated = s.allocated)
    (hhanded : t.handed = s.handed) (hfreed : t.freed = s.freed) (hskb : t.skbRx = s.skbRx) :
    Between t where
  handed := by rw [hhanded, hallocated, h.handed]
  freed := by rw [hfreed, h.freed]
  skbRx := by rw [hskb, hhanded, h.skbRx]

theorem Holding.congr (h : Holding s) (hallocated : t.allocated = s.allocated)
    (hhanded : t.handed = s.handed) (hfreed : t.freed = s.freed) (hskb : t.skbRx = s.skbRx) :
    Holding t where
  allocated := by rw [hallocated, hhanded, h.allocated]
  handed := by rw [hhanded, ← h.handed]
  freed := by rw [hfreed, h.freed]
  skbRx := by rw [hskb, hhanded, h.skbRx]

theorem Between.accounted (h : Between s) (hheld : s.held = none) : s.Accounted := by
  unfold State.Accounted
  rw [hheld, h.freed, h.handed]
  simp

theorem Holding.range (h : Holding s) : s.handed ++ [s.handed.length] = List.range s.allocated := by
  rw [h.allocated, List.range_succ, ← h.handed]

theorem Holding.accounted (h : Holding s) (hheld : s.held = s.skbRx) : s.Accounted := by
  unfold State.Accounted
  rw [hheld, h.freed, h.skbRx, ← h.range]
  simp

theorem Inv.accounted (h : Inv s) : s.Accounted := by
  unfold Inv at h
  rcases hpc : s.pc with _ | n | n | ctrlReg | v | _
  · rw [hpc] at h
    exact Between.accounted h (by unfold State.held; rw [hpc])
  · rw [hpc] at h
    exact Between.accounted h (by unfold State.held; rw [hpc])
  · rw [hpc] at h
    exact Holding.accounted h (by unfold State.held; rw [hpc])
  · rw [hpc] at h
    exact Holding.accounted h (by unfold State.held; rw [hpc])
  · rw [hpc] at h
    exact h
  · rw [hpc] at h
    exact h

/-! ### The error exit -/

theorem Holding.err (h : Holding s) : s.err.Accounted := by
  show (s.handed ++ (s.freed ++ s.skbRx.toList) ++ []).Perm (List.range s.allocated)
  rw [h.freed, h.skbRx, ← h.range]
  simp

theorem Between.err (h : Between s) (hfirst : s.handed = []) : s.err.Accounted := by
  show (s.handed ++ (s.freed ++ s.skbRx.toList) ++ []).Perm (List.range s.allocated)
  rw [← h.handed, h.skbRx, h.freed, hfirst]
  exact List.Perm.refl _

/-- **After a frame it frees what was given away.** -/
theorem Between.err_twice (h : Between s) (hne : s.handed ≠ []) : ¬ s.err.Accounted := by
  intro hperm
  have hlen : (s.handed ++ (s.freed ++ s.skbRx.toList) ++ []).length =
      (List.range s.allocated).length := hperm.length_eq
  rw [← h.handed, h.skbRx, h.freed, List.getLast?_eq_some_getLast hne] at hlen
  simp at hlen

/-! ### Steps -/

theorem rxContinue_spec (h : Between s) {ctrlReg : BitVec 16} (hvalid : Valid ctrlReg) :
    Inv (s.rxContinue ctrlReg) := by
  unfold State.rxContinue
  split_ifs with hzero hinvalid
  · exact Between.accounted (h.congr rfl rfl rfl rfl) rfl
  · rcases hvalid with hv | ⟨hle, hge⟩
    · exact absurd hv hzero
    · omega
  · exact h.congr rfl rfl rfl rfl

theorem rxContinue_invalid (s : State) {ctrlReg : BitVec 16} (hinvalid : ¬ Valid ctrlReg) :
    s.rxContinue ctrlReg = s.err := by
  unfold Valid at hinvalid
  unfold State.rxContinue
  rw [if_neg (by omega), if_pos (by omega)]

theorem Holding.hand (h : Holding s) :
    Between { s with handed := s.handed ++ s.skbRx.toList } where
  handed := by
    show s.handed ++ s.skbRx.toList = List.range s.allocated
    rw [h.skbRx]
    exact h.range
  freed := h.freed
  skbRx := by
    show s.skbRx = (s.handed ++ s.skbRx.toList).getLast?
    rw [h.skbRx]
    simp

theorem err_stuck (s : State) (b : Act) : s.err.step b = none := by
  rcases b with r | r | r | v <;> rfl

theorem step_cases (ht : s.step a = some t) :
    (∃ r, a = .readCtrlFunc r ∧ s.pc = .rxCheck ∧ t = r.elim s.err s.rxContinue) ∨
    (∃ n, a = .getSkb none ∧ s.pc = .getSkb n ∧ t = { s with pc := .bug }) ∨
    (∃ n data, a = .getSkb (some data) ∧ s.pc = .getSkb n ∧
      ∃ u, u = { s with skbRx := some s.allocated, allocated := s.allocated + 1 } ∧
        t = if data then { u with pc := .readData (allocLen n) } else u.err) ∨
    (∃ n, a = .readDataFunc none ∧ s.pc = .readData n ∧ t = s.err) ∨
    (∃ n data, a = .readDataFunc (some data) ∧ s.pc = .readData n ∧
      t = { s with pc := .rxHandle (piggyback data n), rxContinueCnt := s.rxContinueCnt + 1 }) ∨
    ∃ v ctrlReg, a = .rxHandle v ∧ s.pc = .rxHandle ctrlReg ∧
      ∃ u, u = { s with handed := s.handed ++ s.skbRx.toList } ∧
        t = if v ≠ 0 then { u with pc := .ret u.rxContinueCnt.toNat }
          else if readLen ctrlReg ≠ 0 then u.rxContinue ctrlReg else { u with pc := .rxCheck } := by
  unfold State.step at ht
  split at ht
  · split at ht
    · next hpc => exact Or.inl ⟨none, rfl, hpc, (Option.some.inj ht).symm⟩
    · next ctrlReg hpc => exact Or.inl ⟨some ctrlReg, rfl, hpc, (Option.some.inj ht).symm⟩
    · cases ht
  · split at ht
    · next n hpc => exact Or.inr (Or.inl ⟨n, rfl, hpc, (Option.some.inj ht).symm⟩)
    · next n data hpc =>
      exact Or.inr (Or.inr (Or.inl ⟨n, data, rfl, hpc, _, rfl, (Option.some.inj ht).symm⟩))
    · cases ht
  · split at ht
    · next n hpc =>
      exact Or.inr (Or.inr (Or.inr (Or.inl ⟨n, rfl, hpc, (Option.some.inj ht).symm⟩)))
    · next n data hpc =>
      exact Or.inr (Or.inr (Or.inr (Or.inr (Or.inl
        ⟨n, data, rfl, hpc, (Option.some.inj ht).symm⟩))))
    · cases ht
  · split at ht
    · next v _ ctrlReg hpc =>
      exact Or.inr (Or.inr (Or.inr (Or.inr (Or.inr
        ⟨v, ctrlReg, rfl, hpc, _, rfl, (Option.some.inj ht).symm⟩))))
    · cases ht

/-- **A clean step keeps each skb in one place.** -/
theorem Inv.step (h : Inv s) (hclean : s.Clean a) (ht : s.step a = some t) : Inv t := by
  unfold Inv at h
  obtain ⟨r, rfl, hpc, rfl⟩ | ⟨n, rfl, hpc, rfl⟩ | ⟨n, data, rfl, hpc, u, hu, rfl⟩ |
    ⟨n, rfl, hpc, rfl⟩ | ⟨n, data, rfl, hpc, rfl⟩ | ⟨v, ctrlReg, rfl, hpc, u, hu, rfl⟩ :=
    step_cases ht
  · rw [hpc] at h
    rcases hclean with hfirst | ⟨ctrlReg, rfl, hvalid⟩
    · have herr : Inv s.err := Between.err h hfirst
      rcases r with _ | ctrlReg
      · exact herr
      · by_cases hvalid : Valid ctrlReg
        · exact rxContinue_spec h hvalid
        · show Inv (s.rxContinue ctrlReg)
          rw [rxContinue_invalid s hvalid]
          exact herr
    · exact rxContinue_spec h hvalid
  · rw [hpc] at h
    exact Between.accounted (h.congr rfl rfl rfl rfl) rfl
  · rw [hpc] at h
    have hbefore : Between s := h
    have hlen : s.handed.length = s.allocated := by
      rw [hbefore.handed, List.length_range]
    have hheld : Holding u := by
      subst hu
      refine ⟨by rw [hlen], ?_, hbefore.freed, by rw [hlen]⟩
      show s.handed = List.range s.handed.length
      rw [hlen]
      exact hbefore.handed
    split_ifs
    · exact hheld.congr rfl rfl rfl rfl
    · exact hheld.err
  · rw [hpc] at h
    exact Holding.err h
  · rw [hpc] at h
    exact Holding.congr h rfl rfl rfl rfl
  · rw [hpc] at h
    have hbetween : Between u := hu ▸ Holding.hand h
    split_ifs with hv hlen
    · exact Between.accounted (hbetween.congr rfl rfl rfl rfl) rfl
    · exact rxContinue_spec hbetween (hclean (not_not.mp hv) ctrlReg hpc)
    · exact hbetween.congr rfl rfl rfl rfl

/-- **Any other step frees an skb that was given away**, and ends the function. -/
theorem Inv.spoiled (h : Inv s) (hnot : ¬ s.Clean a) (ht : s.step a = some t) :
    ¬ t.Accounted ∧ ∀ b, t.step b = none := by
  unfold Inv at h
  obtain ⟨r, rfl, hpc, rfl⟩ | ⟨n, rfl, hpc, rfl⟩ | ⟨n, data, rfl, hpc, u, hu, rfl⟩ |
    ⟨n, rfl, hpc, rfl⟩ | ⟨n, data, rfl, hpc, rfl⟩ | ⟨v, ctrlReg, rfl, hpc, u, hu, rfl⟩ :=
    step_cases ht
  · rw [hpc] at h
    obtain ⟨hne, hinvalid⟩ := not_or.mp hnot
    have herr : r.elim s.err s.rxContinue = s.err := by
      rcases r with _ | ctrlReg
      · rfl
      · exact rxContinue_invalid s fun hvalid => hinvalid ⟨ctrlReg, rfl, hvalid⟩
    rw [herr]
    exact ⟨Between.err_twice h hne, err_stuck s⟩
  · exact absurd trivial hnot
  · exact absurd trivial hnot
  · exact absurd trivial hnot
  · exact absurd trivial hnot
  · rw [hpc] at h
    have hbetween : Between u := hu ▸ Holding.hand h
    have hv : v = 0 := by
      by_contra hv
      exact hnot fun hzero => absurd hzero hv
    have hinvalid : ¬ Valid ctrlReg := by
      intro hvalid
      refine hnot fun _ ctrlReg' hpc' => ?_
      obtain rfl := Pc.rxHandle.inj (hpc.symm.trans hpc')
      exact hvalid
    have hlen : readLen ctrlReg ≠ 0 := fun hzero => hinvalid (Or.inl hzero)
    have hne : u.handed ≠ [] := by
      subst hu
      show s.handed ++ s.skbRx.toList ≠ []
      rw [Holding.skbRx h]
      exact List.append_ne_nil_of_right_ne_nil _ (List.cons_ne_nil _ _)
    rw [if_neg (not_not.mpr hv), if_pos hlen, rxContinue_invalid u hinvalid]
    exact ⟨hbetween.err_twice hne, err_stuck u⟩

/-- **Each skb is given to `rx_handle` or freed, and not both**, exactly when after a frame no read
of the control register fails and no length is invalid. -/
theorem accounted_iff {as : List Act} (h : exec system .start as = some s) :
    s.Accounted ↔ Along system State.Clean .start as :=
  along_iff (I := Inv) (fun _ hi => hi.accounted) (fun _ _ _ hi hclean ht => hi.step hclean ht)
    (fun _ _ _ hi hnot ht => hi.spoiled hnot ht) ⟨rfl, rfl, rfl⟩ h

/-- One frame of 16 bytes, with no other one behind it. -/
def oneFrame : List Act :=
  [.readCtrlFunc (some 8), .getSkb (some true), .readDataFunc (some fun _ => 0), .rxHandle 0]

/-- A burst of two frames. -/
def twoFrames : List Act := oneFrame ++ oneFrame ++ [.readCtrlFunc (some 0)]

theorem accounted_iff_twoFrames :
    ∃ s, exec system .start twoFrames = some s ∧ s.pc = .ret 2 ∧ s.handed = [0, 1] ∧
      (s.Accounted ↔ Along system State.Clean .start twoFrames) := by
  have hrun : exec system .start twoFrames = some _ := rfl
  exact ⟨_, hrun, by decide, by decide, accounted_iff hrun⟩

/-- **A frame is freed that `rx_handle` has**: the read of the control register behind it fails. -/
theorem given_and_freed :
    ∃ s, exec system .start (oneFrame ++ [.readCtrlFunc none]) = some s ∧ s.pc = .ret (-1) ∧
      s.handed = [0] ∧ s.freed = [0] ∧ ¬ s.Accounted := by
  have hrun : exec system .start (oneFrame ++ [.readCtrlFunc none]) = some _ := rfl
  exact ⟨_, hrun, by decide, by decide, by decide, by decide⟩

end Atbm6441.Sdio.ReadData
