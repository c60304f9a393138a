import Atbm6441.Agg.Model
import Atbm6441.Lib.Slots
import Atbm6441.Os.Port
import Mathlib.Data.BitVec
import Mathlib.Data.List.Count

/-!
# The table of aggregation sessions

`ieee80211_process_addba_request`, `ieee80211_process_delba`, `ieee80211_ba_session_work` and
`ieee80211_sta_tear_down_BA_sessions`, each as one step under `ampdu_mlme.mtx`, with the memory that
they allocate and free, on the two ports. `sessions_accounted` : in every run that meets the condition
(`Handed`) each block of memory is held by the one session of its TID, waits for RCU with it, or was
freed once, and the sessions of the table are within their bounds.

Sessions are numbered in the order of their allocation.
-/

namespace Atbm6441.Agg.Addba

open Atbm6441.Lib Atbm6441.Os

/-! ### Memory -/

/-- What `ieee80211_process_addba_request` allocates for session `n`. -/
inductive Block
  | session (n : ℕ)
  | reorderBuf (n : ℕ)
  | reorderTime (n : ℕ)
deriving DecidableEq

/-- The session that a block was allocated for. -/
def Block.owner : Block → ℕ
  | session n | reorderBuf n | reorderTime n => n

/-- The blocks that were allocated and those that were freed. -/
structure Heap where
  allocated : List Block
  freed : List Block

/-- `atbm_kmalloc` and `atbm_kcalloc`. -/
def Heap.alloc (h : Heap) (b : Block) (ok : Bool) : Option Block × Heap :=
  if ok then (some b, { h with allocated := b :: h.allocated }) else (none, h)

/-- `atbm_kfree`. -/
def Heap.kfree (h : Heap) : Option Block → Heap
  | some b => { h with freed := b :: h.freed }
  | none => h

/-! ### Frames and sessions -/

/-- `IEEE80211_MAX_AMPDU_BUF`. -/
def ieee80211MaxAmpduBuf : BitVec 16 := 0x40

/-- An ADDBA request. -/
structure AddbaReq where
  dialogToken : BitVec 8
  capab : BitVec 16
  timeout : BitVec 16
  startSeqNum : BitVec 16

namespace AddbaReq

def baPolicy (r : AddbaReq) : BitVec 16 := (r.capab &&& 0x0002) >>> 1

def tid (r : AddbaReq) : ℕ := ((r.capab &&& 0x003C) >>> 2).toNat

def bufSize (r : AddbaReq) : BitVec 16 := (r.capab &&& 0xFFC0) >>> 6

def ssn (r : AddbaReq) : BitVec 16 := r.startSeqNum >>> 4

end AddbaReq

/-- `WLAN_STATUS_*`. -/
inductive Status
  | success
  | requestDeclined
  | invalidQosParam
deriving DecidableEq

/-- `struct tid_ampdu_rx`; `tid` is what its timers are given, and `slots` says which pointers of its
`reorder_buf` are not `NULL`. -/
structure TidAmpduRx where
  tid : ℕ
  dialogToken : BitVec 8
  ssn : BitVec 16
  headSeqNum : BitVec 16
  bufSize : BitVec 16
  timeout : BitVec 16
  storedMpduNum : ℕ
  reorderBuf : Option Block
  reorderTime : Option Block
  slots : ℕ → Bool

/-- A station: `tidRx` points to sessions, and `rcu` are those that `call_rcu` is to free. -/
structure State where
  tidRx : ℕ → Option ℕ
  expired : ℕ → Bool
  stopRequested : ℕ → Bool
  blockBa : Bool
  htCap : BitVec 16
  sess : ℕ → TidAmpduRx
  next : ℕ
  heap : Heap
  rcu : List ℕ

/-- Which allocations of a request succeed, and which pointers of `reorder_buf` are not `NULL` in the
memory for it. -/
structure Mem where
  session : Bool
  reorderBuf : Bool
  reorderTime : Bool
  found : ℕ → Bool

namespace State

/-- `___ieee80211_stop_rx_ba_session`. -/
def stopRxBaSession (s : State) (port : Port) (tid : ℕ) : State :=
  match s.tidRx tid with
  | none => s
  | some n =>
    { s with
      tidRx := Function.update s.tidRx tid none
      rcu := s.rcu ++ if port.callsRcu then [n] else [] }

/-- `ieee80211_free_tid_rx`. -/
def freeTidRx (s : State) (n : ℕ) : State :=
  { s with
    rcu := s.rcu.erase n
    heap := ((s.heap.kfree (s.sess n).reorderBuf).kfree (s.sess n).reorderTime).kfree
      (some (.session n)) }

/-- A session is allocated and published, or what was allocated for it is freed. -/
def setUp (s : State) (port : Port) (r : AddbaReq) (bufSize : BitVec 16) (mem : Mem) : Status × State :=
  match s.heap.alloc (.session s.next) mem.session with
  | (none, _) => (.requestDeclined, s)
  | (some p, heap) =>
    let (buf, heap) := heap.alloc (.reorderBuf s.next) mem.reorderBuf
    let (time, heap) := heap.alloc (.reorderTime s.next) mem.reorderTime
    if buf = none ∨ time = none then
      (.requestDeclined, { s with
        next := s.next + 1
        heap := ((heap.kfree buf).kfree time).kfree (some p) })
    else
      (.success, { s with
        next := s.next + 1
        heap := heap
        sess := Function.update s.sess s.next
          ⟨r.tid, r.dialogToken, r.ssn, r.ssn, bufSize, r.timeout, 0, buf, time, port.kcalloc false mem.found⟩
        tidRx := Function.update s.tidRx r.tid (some s.next) })

/-- `ieee80211_process_addba_request`. -/
def processAddbaRequest (s : State) (port : Port) (r : AddbaReq) (mem : Mem) : Status × State :=
  if s.blockBa then (.requestDeclined, s)
  else if (r.baPolicy ≠ 1 ∧ s.htCap &&& 0x0400 = 0) ∨ ieee80211MaxAmpduBuf < r.bufSize then
    (.invalidQosParam, s)
  else
    (s.stopRxBaSession port r.tid).setUp port r
      (if r.bufSize = 0 then ieee80211MaxAmpduBuf else r.bufSize) mem

/-- `ieee80211_process_delba`. -/
def processDelba (s : State) (port : Port) (params : BitVec 16) : State :=
  if (params &&& 0x0800) >>> 11 = 1 then
    s.stopRxBaSession port ((params &&& 0xF000) >>> 12).toNat
  else s

/-- `test_and_clear_bit` on `tid_rx_timer_expired`, when the bit is set. -/
def clearExpired (s : State) (tid : ℕ) : State :=
  { s with expired := Function.update s.expired tid false }

/-- `test_and_clear_bit` on `tid_rx_stop_requested`, when the bit is set. -/
def clearStopRequested (s : State) (tid : ℕ) : State :=
  { s with stopRequested := Function.update s.stopRequested tid false }

/-- One round of the loop of `ieee80211_ba_session_work`. -/
def workTid (s : State) (port : Port) (tid : ℕ) : State :=
  let s := if s.expired tid then (s.clearExpired tid).stopRxBaSession port tid else s
  if s.stopRequested tid then (s.clearStopRequested tid).stopRxBaSession port tid else s

/-- `ieee80211_ba_session_work`. -/
def baSessionWork (s : State) (port : Port) : State :=
  if s.blockBa then s else (List.range staTidNum).foldl (fun s tid => s.workTid port tid) s

/-- `ieee80211_sta_tear_down_BA_sessions`. -/
def tearDownBaSessions (s : State) (port : Port) : State :=
  (List.range staTidNum).foldl (fun s tid => s.stopRxBaSession port tid) s

end State

inductive Act
  | addba (r : AddbaReq) (mem : Mem)
  | delba (params : BitVec 16)
  | work
  | tearDown
  /-- RCU calls `ieee80211_free_tid_rx` for a session -/
  | rcu (n : ℕ)
  /-- a bit of `tid_rx_timer_expired` or of `tid_rx_stop_requested` is set -/
  | expire (tid : ℕ)
  | requestStop (tid : ℕ)
  /-- the flags and the capabilities of the station change -/
  | station (blockBa : Bool) (htCap : BitVec 16)
  /-- frames of session `n` are received -/
  | rx (n : ℕ) (headSeqNum : BitVec 16) (storedMpduNum : ℕ) (slots : ℕ → Bool)

def State.step (port : Port) (s : State) : Act → Option State
  | .addba r mem => some (s.processAddbaRequest port r mem).2
  | .delba params => some (s.processDelba port params)
  | .work => some (s.baSessionWork port)
  | .tearDown => some (s.tearDownBaSessions port)
  | .rcu n => if n ∈ s.rcu then some (s.freeTidRx n) else none
  | .expire tid => some { s with expired := Function.update s.expired tid true }
  | .requestStop tid => some { s with stopRequested := Function.update s.stopRequested tid true }
  | .station blockBa htCap => some { s with blockBa := blockBa, htCap := htCap }
  | .rx n headSeqNum storedMpduNum slots =>
    some { s with
      sess := Function.update s.sess n
        { s.sess n with headSeqNum := headSeqNum, storedMpduNum := storedMpduNum, slots := slots } }

/-- A station without sessions. -/
def start (htCap : BitVec 16) : State where
  tidRx _ := none
  expired _ := false
  stopRequested _ := false
  blockBa := false
  htCap := htCap
  sess _ := ⟨0, 0, 0, 0, 0, 0, 0, none, none, fun _ => false⟩
  next := 0
  heap := ⟨[], []⟩
  rcu := []

/-- Runs of a station from its creation on. -/
def system (port : Port) : System State Act where
  init s := ∃ htCap, s = start htCap
  step := State.step port

/-! ### What holds of the sessions -/

/-- How often a session is in the table or is to be freed by `call_rcu`. -/
def State.held (s : State) (n : ℕ) : ℕ := (occupied s.tidRx staTidNum).count n + s.rcu.count n

/-- The bounds of a session. -/
structure TidAmpduRx.Bounded (x : TidAmpduRx) : Prop where
  bufSize_pos : 1 ≤ x.bufSize.toNat
  bufSize_le : x.bufSize.toNat ≤ 64
  tid_lt : x.tid < 16
  ssn_lt : x.ssn.toNat < 4096

/-- A session before its first frame. -/
def TidAmpduRx.Fresh (x : TidAmpduRx) : Prop :=
  x.headSeqNum = x.ssn ∧ x.storedMpduNum = 0 ∧ ∀ i < x.bufSize.toNat, x.slots i = false

/-- **Every session is accounted for.** -/
structure Accounted (s : State) : Prop where
  /-- a block is held by its session, which is in the table once or was handed to `call_rcu` once,
  or it was freed once -/
  once : ∀ b ∈ s.heap.allocated, s.held b.owner + s.heap.freed.count b = 1
  /-- nothing else is freed -/
  wild : ∀ b ∈ s.heap.freed, b ∈ s.heap.allocated
  /-- a session is installed for its own TID, within its bounds -/
  installed : ∀ tid n, s.tidRx tid = some n →
    Block.session n ∈ s.heap.allocated ∧ (s.sess n).tid = tid ∧ (s.sess n).Bounded

/-- What a step does to the table: a session that is new is fresh, and a request that is rejected
for its parameters changes nothing. -/
structure StepOk (port : Port) (s : State) (a : Act) (t : State) : Prop where
  fresh : ∀ tid n, t.tidRx tid = some n → Block.session n ∉ s.heap.allocated → (t.sess n).Fresh
  rejected : ∀ r mem, a = .addba r mem → (s.processAddbaRequest port r mem).1 = .invalidQosParam → t = s

/-! ### The condition -/

/-- A request is not rejected. -/
def State.Accepts (s : State) (r : AddbaReq) : Prop :=
  s.blockBa = false ∧ ¬ ((r.baPolicy ≠ 1 ∧ s.htCap &&& 0x0400 = 0) ∨ ieee80211MaxAmpduBuf < r.bufSize)

/-- The TIDs whose sessions a step stops. -/
def State.Stops (s : State) : Act → ℕ → Prop
  | .addba r _, tid => s.Accepts r ∧ tid = r.tid
  | .delba params, tid =>
    (params &&& 0x0800) >>> 11 = 1 ∧ tid = ((params &&& 0xF000) >>> 12).toNat
  | .work, tid => s.blockBa = false ∧ (s.expired tid = true ∨ s.stopRequested tid = true)
  | .tearDown, tid => tid < staTidNum
  | .rcu _, _ | .expire _, _ | .requestStop _, _ | .station _ _, _ | .rx _ _ _ _, _ => False

/-- **The condition**: where `call_rcu` calls nothing no session is stopped, and for a session that is set
up `kcalloc` leaves the slots empty. -/
structure Handed (port : Port) (s : State) (a : Act) : Prop where
  stops : ∀ tid, s.Stops a tid → port.callsRcu = true ∨ s.tidRx tid = none
  empty : ∀ r mem, a = .addba r mem → s.Accepts r →
    mem.session = true ∧ mem.reorderBuf = true ∧ mem.reorderTime = true →
      ∀ i < (if r.bufSize = 0 then ieee80211MaxAmpduBuf else r.bufSize).toNat,
        port.kcalloc false mem.found i = false

/-! ### The invariant -/

/-- Session `n` has all of its memory. -/
structure State.Complete (s : State) (n : ℕ) : Prop where
  session : Block.session n ∈ s.heap.allocated
  reorderBuf : (s.sess n).reorderBuf = some (.reorderBuf n)
  reorderTime : (s.sess n).reorderTime = some (.reorderTime n)

structure Kept (s : State) : Prop where
  once : ∀ b ∈ s.heap.allocated, s.held b.owner + s.heap.freed.count b = 1
  wild : ∀ b ∈ s.heap.freed, b ∈ s.heap.allocated
  born : ∀ b ∈ s.heap.allocated, b.owner < s.next
  arrays : ∀ n, 0 < s.held n → s.Complete n ∧
    Block.reorderBuf n ∈ s.heap.allocated ∧ Block.reorderTime n ∈ s.heap.allocated
  table : ∀ tid n, s.tidRx tid = some n →
    tid < staTidNum ∧ (s.sess n).tid = tid ∧ (s.sess n).Bounded

variable {port : Port} {s t : State} {a : Act} {r : AddbaReq} {mem : Mem} {n tid : ℕ}

theorem bounded_fields (r : AddbaReq) (h : ¬ ieee80211MaxAmpduBuf < r.bufSize) (buf time slots) :
    TidAmpduRx.Bounded ⟨r.tid, r.dialogToken, r.ssn, r.ssn,
      if r.bufSize = 0 then ieee80211MaxAmpduBuf else r.bufSize, r.timeout, 0, buf, time, slots⟩ := by
  have htid : r.tid < 16 := by
    have hand : (r.capab &&& 0x003C).toNat ≤ 60 := Nat.and_le_right
    simp only [AddbaReq.tid, BitVec.toNat_ushiftRight, Nat.shiftRight_eq_div_pow]
    omega
  have hssn : r.ssn.toNat < 4096 := by
    have hlt := r.startSeqNum.isLt
    simp only [AddbaReq.ssn, BitVec.toNat_ushiftRight, Nat.shiftRight_eq_div_pow]
    omega
  have hle : r.bufSize.toNat ≤ 64 := by
    simpa [BitVec.lt_def, ieee80211MaxAmpduBuf] using h
  refine ⟨?_, ?_, htid, hssn⟩ <;> dsimp only
  · split_ifs with hzero
    · decide
    · have hne : r.bufSize.toNat ≠ 0 := fun h0 => hzero (BitVec.eq_of_toNat_eq h0)
      omega
  · split_ifs
    · decide
    · exact hle

theorem held_pos_of_tidRx (h : Kept s) (ht : s.tidRx tid = some n) : 0 < s.held n := by
  have hmem : n ∈ occupied s.tidRx staTidNum := (mem_occupied _).mpr ⟨tid, (h.table tid n ht).1, ht⟩
  have := List.count_pos_iff.mpr hmem
  unfold State.held
  omega

theorem Kept.accounted (h : Kept s) : Accounted s :=
  ⟨h.once, h.wild, fun tid n ht =>
    ⟨(h.arrays n (held_pos_of_tidRx h ht)).1.session, (h.table tid n ht).2⟩⟩

theorem kept_start (htCap : BitVec 16) : Kept (start htCap) := by
  have hheld : ∀ n, (start htCap).held n = 0 := by
    intro n
    rw [State.held, occupied_empty (start htCap).tidRx fun _ _ => rfl]
    rfl
  refine ⟨nofun, nofun, nofun, fun n hn => ?_, nofun⟩
  rw [hheld] at hn
  exact absurd hn (Nat.lt_irrefl 0)

namespace Kept

/-- **A session is stopped**: it goes from the table to RCU. -/
theorem stop (h : Kept s) (hrcu : port.callsRcu = true ∨ s.tidRx tid = none) :
    Kept (s.stopRxBaSession port tid) := by
  unfold State.stopRxBaSession
  rcases ht : s.tidRx tid with _ | n
  · exact h
  · rw [or_iff_left (by rw [ht]; exact Option.some_ne_none n)] at hrcu
    dsimp only
    rw [if_pos hrcu]
    have hperm := occupied_update_none s.tidRx (h.table tid n ht).1 ht
    have hheld : ∀ m, State.held { s with
        tidRx := Function.update s.tidRx tid none, rcu := s.rcu ++ [n] } m = s.held m := by
      intro m
      simp only [State.held, hperm.count_eq m, List.count_append, List.count_cons, List.count_nil]
      omega
    refine ⟨?_, h.wild, h.born, ?_, ?_⟩
    · intro b hb
      rw [hheld]
      exact h.once b hb
    · intro m hm
      rw [hheld] at hm
      exact ⟨⟨(h.arrays m hm).1.session, (h.arrays m hm).1.reorderBuf,
        (h.arrays m hm).1.reorderTime⟩, (h.arrays m hm).2⟩
    · intro tid' m hm
      change Function.update s.tidRx tid none tid' = some m at hm
      by_cases heq : tid' = tid
      · subst heq
        simp at hm
      · rw [Function.update_of_ne heq] at hm
        exact h.table tid' m hm

/-- **A session is freed** by RCU, with its memory. -/
theorem freeTidRx (h : Kept s) (hn : n ∈ s.rcu) : Kept (s.freeTidRx n) := by
  have hpos : 0 < s.held n := by
    have := List.count_pos_iff.mpr hn
    unfold State.held
    omega
  obtain ⟨hc, hbuf, htime⟩ := h.arrays n hpos
  have hheap : (s.freeTidRx n).heap.freed =
      .session n :: .reorderTime n :: .reorderBuf n :: s.heap.freed := by
    simp only [State.freeTidRx, hc.reorderBuf, hc.reorderTime, Heap.kfree]
  have halloc : (s.freeTidRx n).heap.allocated = s.heap.allocated := by
    simp only [State.freeTidRx, hc.reorderBuf, hc.reorderTime, Heap.kfree]
  have hheld : ∀ m, (s.freeTidRx n).held m + (if m = n then 1 else 0) = s.held m := by
    intro m
    have hcount := (List.perm_cons_erase hn).count_eq m
    rw [List.count_cons] at hcount
    simp only [State.held, State.freeTidRx, beq_iff_eq, @eq_comm _ n m] at hcount ⊢
    omega
  refine ⟨?_, ?_, ?_, ?_, h.table⟩
  · rw [halloc, hheap]
    intro b hb
    have honce := h.once b hb
    have hm := hheld b.owner
    have hfreed : (Block.session n :: .reorderTime n :: .reorderBuf n :: s.heap.freed).count b =
        s.heap.freed.count b + if b.owner = n then 1 else 0 := by
      by_cases hbn : b.owner = n
      · subst hbn
        rcases b with m | m | m <;> simp [Block.owner]
      · rw [if_neg hbn]
        rcases b with m | m | m <;> simp [Ne.symm (show m ≠ n from hbn)]
    omega
  · rw [halloc, hheap]
    intro b hb
    simp only [List.mem_cons] at hb
    rcases hb with rfl | rfl | rfl | hb
    · exact hc.session
    · exact htime
    · exact hbuf
    · exact h.wild b hb
  · rw [halloc]
    exact h.born
  · intro m hm
    rw [halloc]
    have hle := hheld m
    obtain ⟨hcm, harr⟩ := h.arrays m (by omega)
    exact ⟨⟨by rw [halloc]; exact hcm.session, hcm.reorderBuf, hcm.reorderTime⟩, harr⟩

theorem held_next (h : Kept s) : s.held s.next = 0 := by
  by_contra hne
  have := h.born _ (h.arrays s.next (Nat.pos_of_ne_zero hne)).1.session
  simp [Block.owner] at this

theorem next_fresh (h : Kept s) {b : Block} (hb : b.owner = s.next) :
    b ∉ s.heap.allocated ∧ s.heap.freed.count b = 0 := by
  have hnot : b ∉ s.heap.allocated := by
    intro hmem
    have := h.born b hmem
    omega
  exact ⟨hnot, List.count_eq_zero.mpr fun hmem => hnot (h.wild b hmem)⟩

/-- **What was allocated for a session is freed** when not all of it was. -/
theorem abandoned (h : Kept s) {bs bs' : List Block} (hbs : bs.Nodup) (hperm : bs'.Perm bs)
    (howner : ∀ b ∈ bs, b.owner = s.next) :
    Kept { s with
      next := s.next + 1
      heap := ⟨bs ++ s.heap.allocated, bs' ++ s.heap.freed⟩ } := by
  refine ⟨?_, ?_, ?_, ?_, h.table⟩ <;> dsimp only
  · intro b hb
    change s.held b.owner + _ = 1
    rw [List.count_append, hperm.count_eq]
    rcases List.mem_append.mp hb with hb | hb
    · rw [howner b hb, h.held_next, (h.next_fresh (howner b hb)).2, hbs.count, if_pos hb]
    · have hnot : b ∉ bs := fun hmem => (h.next_fresh (howner b hmem)).1 hb
      have := h.once b hb
      rw [List.count_eq_zero.mpr hnot]
      omega
  · intro b hb
    rcases List.mem_append.mp hb with hb | hb
    · exact List.mem_append_left _ (hperm.mem_iff.mp hb)
    · exact List.mem_append_right _ (h.wild b hb)
  · intro b hb
    rcases List.mem_append.mp hb with hb | hb
    · have := howner b hb
      omega
    · exact Nat.lt_succ_of_lt (h.born b hb)
  · intro n hn
    obtain ⟨hc, hbuf, htime⟩ := h.arrays n hn
    exact ⟨⟨List.mem_append_right _ hc.session, hc.reorderBuf, hc.reorderTime⟩,
      List.mem_append_right _ hbuf, List.mem_append_right _ htime⟩

theorem held_publish (s : State) (htid : tid < staTidNum) (hfree : s.tidRx tid = none) (x m : ℕ) :
    (occupied (Function.update s.tidRx tid (some x)) staTidNum).count m + s.rcu.count m =
      s.held m + if m = x then 1 else 0 := by
  have hcount := (occupied_update_some s.tidRx (x := x) htid hfree).count_eq m
  rw [List.count_cons] at hcount
  simp only [beq_iff_eq, @eq_comm _ x m] at hcount
  unfold State.held
  rw [hcount]
  omega

theorem table_publish (h : Kept s) {x : TidAmpduRx} (hx : x.Bounded) {n tid : ℕ}
    (hn : Function.update s.tidRx x.tid (some s.next) tid = some n) :
    tid < staTidNum ∧ (Function.update s.sess s.next x n).tid = tid ∧
      (Function.update s.sess s.next x n).Bounded := by
  by_cases htid : tid = x.tid
  · subst htid
    rw [Function.update_self, Option.some.injEq] at hn
    subst hn
    rw [Function.update_self]
    exact ⟨hx.tid_lt, rfl, hx⟩
  · rw [Function.update_of_ne htid] at hn
    have hne : n ≠ s.next := by
      rintro rfl
      have := held_pos_of_tidRx h hn
      rw [h.held_next] at this
      exact Nat.lt_irrefl 0 this
    rw [Function.update_of_ne hne]
    exact h.table tid n hn

/-- **A session is published** for a TID that has none. -/
theorem published (h : Kept s) {x : TidAmpduRx} (hfree : s.tidRx x.tid = none) (hx : x.Bounded)
    (hbuf : x.reorderBuf = some (.reorderBuf s.next))
    (htime : x.reorderTime = some (.reorderTime s.next)) :
    Kept { s with
      next := s.next + 1
      heap := ⟨[.reorderTime s.next, .reorderBuf s.next, .session s.next] ++ s.heap.allocated,
        s.heap.freed⟩
      sess := Function.update s.sess s.next x
      tidRx := Function.update s.tidRx x.tid (some s.next) } := by
  generalize ht : ({ s with
      next := s.next + 1
      heap := ⟨[.reorderTime s.next, .reorderBuf s.next, .session s.next] ++ s.heap.allocated,
        s.heap.freed⟩
      sess := Function.update s.sess s.next x
      tidRx := Function.update s.tidRx x.tid (some s.next) } : State) = t
  have hheld : ∀ m, t.held m = s.held m + if m = s.next then 1 else 0 := by
    intro m
    rw [← held_publish s hx.tid_lt hfree, ← ht]
    rfl
  have halloc : t.heap.allocated = [.reorderTime s.next, .reorderBuf s.next, .session s.next] ++
      s.heap.allocated := by rw [← ht]
  have hfreed : t.heap.freed = s.heap.freed := by rw [← ht]
  have hnew : ∀ b ∈ [Block.reorderTime s.next, .reorderBuf s.next, .session s.next],
      b.owner = s.next := by simp [Block.owner]
  refine ⟨?_, ?_, ?_, ?_, ?_⟩
  · rw [halloc, hfreed]
    intro b hb
    rw [hheld]
    rcases List.mem_append.mp hb with hb | hb
    · rw [hnew b hb, h.held_next, (h.next_fresh (hnew b hb)).2, if_pos rfl]
    · rw [if_neg (Nat.ne_of_lt (h.born b hb))]
      exact h.once b hb
  · rw [halloc, hfreed]
    exact fun b hb => List.mem_append_right _ (h.wild b hb)
  · rw [halloc]
    intro b hb
    have hnext : t.next = s.next + 1 := by rw [← ht]
    rw [hnext]
    rcases List.mem_append.mp hb with hb | hb
    · rw [hnew b hb]
      exact Nat.lt_succ_self _
    · exact Nat.lt_succ_of_lt (h.born b hb)
  · intro n hn
    rw [hheld] at hn
    rw [halloc]
    by_cases hnext : n = s.next
    · subst hnext
      have hsess : t.sess s.next = x := by
        rw [← ht]
        exact Function.update_self ..
      exact ⟨⟨by rw [halloc]; simp, by rw [hsess, hbuf], by rw [hsess, htime]⟩, by simp, by simp⟩
    · rw [if_neg hnext] at hn
      have hsess : t.sess n = s.sess n := by
        rw [← ht]
        exact Function.update_of_ne hnext _ _
      obtain ⟨hc, harr⟩ := h.arrays n hn
      refine ⟨⟨?_, by rw [hsess, hc.reorderBuf], by rw [hsess, hc.reorderTime]⟩,
        List.mem_append_right _ harr.1, List.mem_append_right _ harr.2⟩
      rw [halloc]
      exact List.mem_append_right _ hc.session
  · intro tid n hn
    rw [← ht] at hn ⊢
    exact h.table_publish hx hn

end Kept

/-! ### Steps -/

theorem Kept.congr (h : Kept s) (htidRx : t.tidRx = s.tidRx) (hrcu : t.rcu = s.rcu)
    (hheap : t.heap = s.heap) (hnext : t.next = s.next)
    (hsess : ∀ n, ∃ head stored slots, t.sess n =
      { s.sess n with headSeqNum := head, storedMpduNum := stored, slots := slots }) : Kept t := by
  have hheld : ∀ n, t.held n = s.held n := fun n => by rw [State.held, State.held, htidRx, hrcu]
  refine ⟨?_, ?_, ?_, ?_, ?_⟩
  · rw [hheap]
    intro b hb
    rw [hheld]
    exact h.once b hb
  · rw [hheap]
    exact h.wild
  · rw [hheap, hnext]
    exact h.born
  · intro n hn
    rw [hheld] at hn
    obtain ⟨hc, harr⟩ := h.arrays n hn
    obtain ⟨head, stored, slots, heq⟩ := hsess n
    rw [hheap]
    exact ⟨⟨by rw [hheap]; exact hc.session, by rw [heq]; exact hc.reorderBuf,
      by rw [heq]; exact hc.reorderTime⟩, harr⟩
  · rw [htidRx]
    intro tid n hn
    obtain ⟨hlt, htid, hb⟩ := h.table tid n hn
    obtain ⟨head, stored, slots, heq⟩ := hsess n
    rw [heq]
    exact ⟨hlt, htid, hb.bufSize_pos, hb.bufSize_le, hb.tid_lt, hb.ssn_lt⟩

theorem Kept.clearExpired (h : Kept s) (tid : ℕ) : Kept (s.clearExpired tid) :=
  h.congr rfl rfl rfl rfl fun _ => ⟨_, _, _, rfl⟩

theorem Kept.clearStopRequested (h : Kept s) (tid : ℕ) : Kept (s.clearStopRequested tid) :=
  h.congr rfl rfl rfl rfl fun _ => ⟨_, _, _, rfl⟩

/-- Where `call_rcu` calls nothing, no session is marked to be stopped. -/
def Unmarked (port : Port) (s : State) : Prop :=
  ∀ tid, s.expired tid = true ∨ s.stopRequested tid = true → port.callsRcu = true ∨ s.tidRx tid = none

theorem tidRx_stop_le (s : State) (port : Port) (tid tid' : ℕ) :
    (s.stopRxBaSession port tid).tidRx tid' = s.tidRx tid' ∨
      (s.stopRxBaSession port tid).tidRx tid' = none := by
  unfold State.stopRxBaSession
  rcases ht : s.tidRx tid with _ | n
  · exact Or.inl rfl
  · by_cases heq : tid' = tid
    · subst heq
      exact Or.inr (Function.update_self ..)
    · exact Or.inl (Function.update_of_ne heq ..)

theorem Unmarked.stop (h : Unmarked port s) (tid : ℕ) :
    Unmarked port (s.stopRxBaSession port tid) := by
  have hflags : (s.stopRxBaSession port tid).expired = s.expired ∧
      (s.stopRxBaSession port tid).stopRequested = s.stopRequested := by
    unfold State.stopRxBaSession
    cases s.tidRx tid <;> exact ⟨rfl, rfl⟩
  intro tid' hmark
  rw [hflags.1, hflags.2] at hmark
  rcases tidRx_stop_le s port tid tid' with heq | heq
  · rw [heq]
    exact h tid' hmark
  · exact Or.inr heq

theorem Unmarked.clearExpired (h : Unmarked port s) (tid : ℕ) :
    Unmarked port (s.clearExpired tid) := by
  intro tid' hmark
  refine h tid' (hmark.imp_left fun hexp => ?_)
  unfold State.clearExpired at hexp
  by_cases heq : tid' = tid
  · subst heq
    simp at hexp
  · simpa [Function.update_of_ne heq] using hexp

theorem Unmarked.clearStopRequested (h : Unmarked port s) (tid : ℕ) :
    Unmarked port (s.clearStopRequested tid) := by
  intro tid' hmark
  refine h tid' (hmark.imp_right fun hreq => ?_)
  unfold State.clearStopRequested at hreq
  by_cases heq : tid' = tid
  · subst heq
    simp at hreq
  · simpa [Function.update_of_ne heq] using hreq

theorem Kept.workTid (h : Kept s) (hun : Unmarked port s) (tid : ℕ) :
    Kept (s.workTid port tid) ∧ Unmarked port (s.workTid port tid) := by
  have hfirst : Kept (if s.expired tid then (s.clearExpired tid).stopRxBaSession port tid else s) ∧
      Unmarked port (if s.expired tid then (s.clearExpired tid).stopRxBaSession port tid else s) := by
    by_cases hexp : s.expired tid = true
    · rw [if_pos hexp]
      exact ⟨(h.clearExpired tid).stop (hun tid (Or.inl hexp)), (hun.clearExpired tid).stop tid⟩
    · rw [if_neg hexp]
      exact ⟨h, hun⟩
  unfold State.workTid
  generalize (if s.expired tid then (s.clearExpired tid).stopRxBaSession port tid else s) = s'
    at hfirst
  obtain ⟨h', hun'⟩ := hfirst
  dsimp only
  by_cases hreq : s'.stopRequested tid = true
  · rw [if_pos hreq]
    exact ⟨(h'.clearStopRequested tid).stop (hun' tid (Or.inr hreq)),
      (hun'.clearStopRequested tid).stop tid⟩
  · rw [if_neg hreq]
    exact ⟨h', hun'⟩

/-- **The outcomes of setting a session up**: nothing was allocated, or what was is freed, or the
session is published. -/
theorem setUp_cases (s : State) (port : Port) (r : AddbaReq) (bufSize : BitVec 16) (mem : Mem) :
    s.setUp port r bufSize mem = (.requestDeclined, s) ∨
    (∃ bs bs' : List Block, bs.Nodup ∧ bs'.Perm bs ∧ (∀ b ∈ bs, b.owner = s.next) ∧
      s.setUp port r bufSize mem = (.requestDeclined, { s with
        next := s.next + 1
        heap := ⟨bs ++ s.heap.allocated, bs' ++ s.heap.freed⟩ })) ∨
    (mem.session = true ∧ mem.reorderBuf = true ∧ mem.reorderTime = true) ∧
    s.setUp port r bufSize mem = (.success, { s with
      next := s.next + 1
      heap := ⟨[.reorderTime s.next, .reorderBuf s.next, .session s.next] ++ s.heap.allocated,
        s.heap.freed⟩
      sess := Function.update s.sess s.next
        ⟨r.tid, r.dialogToken, r.ssn, r.ssn, bufSize, r.timeout, 0, some (.reorderBuf s.next),
          some (.reorderTime s.next), port.kcalloc false mem.found⟩
      tidRx := Function.update s.tidRx r.tid (some s.next) }) := by
  obtain ⟨session, reorderBuf, reorderTime, found⟩ := mem
  cases session with
  | false => exact Or.inl rfl
  | true =>
    right
    cases reorderBuf with
    | true =>
      cases reorderTime with
      | true => exact Or.inr ⟨⟨rfl, rfl, rfl⟩, rfl⟩
      | false =>
        exact Or.inl ⟨[.reorderBuf s.next, .session s.next], [.session s.next, .reorderBuf s.next],
          by simp, .swap .., by simp [Block.owner], rfl⟩
    | false =>
      cases reorderTime with
      | true =>
        exact Or.inl ⟨[.reorderTime s.next, .session s.next],
          [.session s.next, .reorderTime s.next], by simp, .swap .., by simp [Block.owner], rfl⟩
      | false =>
        exact Or.inl ⟨[.session s.next], [.session s.next], by simp, .refl _,
          by simp [Block.owner], rfl⟩

theorem tidRx_stop (s : State) (port : Port) (tid : ℕ) :
    (s.stopRxBaSession port tid).tidRx tid = none := by
  unfold State.stopRxBaSession
  rcases ht : s.tidRx tid with _ | n
  · exact ht
  · exact Function.update_self ..

theorem Kept.setUp (h : Kept s) (hfree : s.tidRx r.tid = none)
    (hle : ¬ ieee80211MaxAmpduBuf < r.bufSize) (mem : Mem) :
    Kept (s.setUp port r (if r.bufSize = 0 then ieee80211MaxAmpduBuf else r.bufSize) mem).2 := by
  rcases setUp_cases s port r (if r.bufSize = 0 then ieee80211MaxAmpduBuf else r.bufSize) mem with
    heq | ⟨bs, bs', hbs, hperm, howner, heq⟩ | ⟨-, heq⟩
  · rw [heq]
    exact h
  · rw [heq]
    exact h.abandoned hbs hperm howner
  · rw [heq]
    have hb := bounded_fields r hle (some (.reorderBuf s.next)) (some (.reorderTime s.next))
      (port.kcalloc false mem.found)
    exact h.published hfree hb rfl rfl

theorem Kept.addba (h : Kept s) (r : AddbaReq) (mem : Mem)
    (hrcu : s.Accepts r → port.callsRcu = true ∨ s.tidRx r.tid = none) :
    Kept (s.processAddbaRequest port r mem).2 := by
  unfold State.processAddbaRequest
  by_cases hblock : s.blockBa = true
  · rw [if_pos hblock]
    exact h
  rw [if_neg hblock]
  by_cases hrej : (r.baPolicy ≠ 1 ∧ s.htCap &&& 0x0400 = 0) ∨ ieee80211MaxAmpduBuf < r.bufSize
  · rw [if_pos hrej]
    exact h
  · rw [if_neg hrej]
    have hacc : s.Accepts r := ⟨Bool.eq_false_iff.mpr hblock, hrej⟩
    exact (h.stop (hrcu hacc)).setUp (tidRx_stop s port r.tid) (fun hlt => hrej (Or.inr hlt)) mem

/-- **Every step that meets the condition keeps the invariant.** -/
theorem kept_step (h : Kept s) (hp : Handed port s a) (ht : s.step port a = some t) : Kept t := by
  cases a with
  | addba r mem =>
    cases ht
    exact h.addba r mem fun hacc => hp.stops r.tid ⟨hacc, rfl⟩
  | delba params =>
    cases ht
    unfold State.processDelba
    split_ifs with hinit
    · exact h.stop (hp.stops _ ⟨hinit, rfl⟩)
    · exact h
  | work =>
    cases ht
    unfold State.baSessionWork
    split_ifs with hblock
    · exact h
    · have hun : Unmarked port s := fun tid hmark =>
        hp.stops tid ⟨Bool.eq_false_iff.mpr hblock, hmark⟩
      exact (List.foldlRecOn (motive := fun s => Kept s ∧ Unmarked port s) _ _ ⟨h, hun⟩
        fun _ hk tid _ => hk.1.workTid hk.2 tid).1
  | tearDown =>
    cases ht
    refine (List.foldlRecOn (motive := fun s => Kept s ∧
      ∀ tid < staTidNum, port.callsRcu = true ∨ s.tidRx tid = none) _ _ ⟨h, hp.stops⟩
        fun s hk tid htid => ⟨hk.1.stop (hk.2 tid (List.mem_range.mp htid)), fun tid' h' => ?_⟩).1
    rcases tidRx_stop_le s port tid tid' with heq | heq
    · rw [heq]
      exact hk.2 tid' h'
    · exact Or.inr heq
  | rcu n =>
    rw [State.step, Option.ite_none_right_eq_some] at ht
    obtain ⟨hn, ht⟩ := ht
    cases ht
    exact h.freeTidRx hn
  | expire tid | requestStop tid | station blockBa htCap =>
    cases ht
    exact h.congr rfl rfl rfl rfl fun _ => ⟨_, _, _, rfl⟩
  | rx n head stored slots =>
    cases ht
    refine h.congr rfl rfl rfl rfl fun m => ?_
    by_cases hm : m = n
    · subst hm
      exact ⟨head, stored, slots, Function.update_self ..⟩
    · exact ⟨_, _, _, Function.update_of_ne hm _ _⟩

/-! ### What is installed -/

/-- No session of the second state is new. -/
def NoNew (s t : State) : Prop := ∀ tid n, t.tidRx tid = some n → s.tidRx tid = some n

theorem NoNew.rfl : NoNew s s := fun _ _ h => h

theorem NoNew.trans {u : State} (h : NoNew s t) (h' : NoNew t u) : NoNew s u :=
  fun tid n hn => h tid n (h' tid n hn)

theorem noNew_stop (s : State) (port : Port) (tid : ℕ) : NoNew s (s.stopRxBaSession port tid) := by
  intro tid' n hn
  rcases tidRx_stop_le s port tid tid' with heq | heq
  · rwa [heq] at hn
  · rw [heq] at hn
    cases hn

theorem noNew_workTid (s : State) (port : Port) (tid : ℕ) : NoNew s (s.workTid port tid) := by
  have hfirst : NoNew s
      (if s.expired tid then (s.clearExpired tid).stopRxBaSession port tid else s) := by
    split_ifs
    · exact noNew_stop (s.clearExpired tid) port tid
    · exact .rfl
  unfold State.workTid
  generalize (if s.expired tid then (s.clearExpired tid).stopRxBaSession port tid else s) = s'
    at hfirst
  dsimp only
  split_ifs
  · exact hfirst.trans (noNew_stop (s'.clearStopRequested tid) port tid)
  · exact hfirst

theorem addba_tidRx (s : State) (port : Port) (r : AddbaReq) (mem : Mem) :
    NoNew s (s.processAddbaRequest port r mem).2 ∨
      s.Accepts r ∧ (mem.session = true ∧ mem.reorderBuf = true ∧ mem.reorderTime = true) ∧
      ∀ tid n, (s.processAddbaRequest port r mem).2.tidRx tid = some n →
        s.tidRx tid = some n ∨
          ((∀ i < (if r.bufSize = 0 then ieee80211MaxAmpduBuf else r.bufSize).toNat,
            port.kcalloc false mem.found i = false) →
              ((s.processAddbaRequest port r mem).2.sess n).Fresh) := by
  unfold State.processAddbaRequest
  by_cases hblock : s.blockBa = true
  · rw [if_pos hblock]
    exact Or.inl .rfl
  rw [if_neg hblock]
  by_cases hrej : (r.baPolicy ≠ 1 ∧ s.htCap &&& 0x0400 = 0) ∨ ieee80211MaxAmpduBuf < r.bufSize
  · rw [if_pos hrej]
    exact Or.inl .rfl
  rw [if_neg hrej]
  have hacc : s.Accepts r := ⟨Bool.eq_false_iff.mpr hblock, hrej⟩
  have hstop := noNew_stop s port r.tid
  generalize s.stopRxBaSession port r.tid = s' at hstop
  rcases setUp_cases s' port r (if r.bufSize = 0 then ieee80211MaxAmpduBuf else r.bufSize) mem with
    heq | ⟨bs, bs', -, -, -, heq⟩ | ⟨hmem, heq⟩
  · rw [heq]
    exact Or.inl hstop
  · rw [heq]
    exact Or.inl hstop
  · rw [heq]
    refine Or.inr ⟨hacc, hmem, fun tid n hn => ?_⟩
    change Function.update s'.tidRx r.tid (some s'.next) tid = some n at hn
    by_cases htid : tid = r.tid
    · subst htid
      rw [Function.update_self, Option.some.injEq] at hn
      subst hn
      refine Or.inr fun hempty => ?_
      dsimp only
      rw [Function.update_self]
      exact ⟨rfl, rfl, hempty⟩
    · rw [Function.update_of_ne htid] at hn
      exact Or.inl (hstop tid n hn)

theorem addba_rejected (h : (s.processAddbaRequest port r mem).1 = .invalidQosParam) :
    (s.processAddbaRequest port r mem).2 = s := by
  unfold State.processAddbaRequest at h ⊢
  by_cases hblock : s.blockBa = true
  · rw [if_pos hblock]
  rw [if_neg hblock] at h ⊢
  by_cases hrej : (r.baPolicy ≠ 1 ∧ s.htCap &&& 0x0400 = 0) ∨ ieee80211MaxAmpduBuf < r.bufSize
  · rw [if_pos hrej]
  rw [if_neg hrej] at h
  exfalso
  rcases setUp_cases (s.stopRxBaSession port r.tid) port r
    (if r.bufSize = 0 then ieee80211MaxAmpduBuf else r.bufSize) mem with
    heq | ⟨bs, bs', -, -, -, heq⟩ | ⟨-, heq⟩
  all_goals
    rw [heq] at h
    cases h

/-- **A session is fresh when it is installed.** -/
theorem fresh_step (hp : Handed port s a) (ht : s.step port a = some t)
    (hn : t.tidRx tid = some n) :
    s.tidRx tid = some n ∨ (t.sess n).Fresh := by
  cases a with
  | addba r mem =>
    cases ht
    rcases addba_tidRx s port r mem with hno | ⟨hacc, hmem, hnew⟩
    · exact Or.inl (hno tid n hn)
    · exact (hnew tid n hn).imp_right fun hfresh => hfresh (hp.empty r mem rfl hacc hmem)
  | delba params =>
    cases ht
    unfold State.processDelba at hn
    split_ifs at hn
    · exact Or.inl (noNew_stop s port _ tid n hn)
    · exact Or.inl hn
  | work =>
    cases ht
    unfold State.baSessionWork at hn
    split_ifs at hn
    · exact Or.inl hn
    · have hno : NoNew s ((List.range staTidNum).foldl (fun s tid => s.workTid port tid) s) :=
        List.foldlRecOn _ _ .rfl fun _ hk i _ => hk.trans (noNew_workTid _ port i)
      exact Or.inl (hno tid n hn)
  | tearDown =>
    cases ht
    have hno : NoNew s (s.tearDownBaSessions port) :=
      List.foldlRecOn _ _ .rfl fun _ hk i _ => hk.trans (noNew_stop _ port i)
    exact Or.inl (hno tid n hn)
  | rcu m =>
    rw [State.step, Option.ite_none_right_eq_some] at ht
    obtain ⟨-, ht⟩ := ht
    cases ht
    exact Or.inl hn
  | expire | requestStop | station | rx =>
    cases ht
    exact Or.inl hn

/-- **Every session is accounted for**, in every run whose steps meet the condition; a session starts
fresh, and a request that is rejected for its parameters changes nothing. -/
theorem sessions_accounted (h : Reach (system port) (Handed port) s) :
    Accounted s ∧ ∀ a t, Handed port s a → s.step port a = some t → StepOk port s a t := by
  have hinv : Kept s := by
    refine Reach.inv ?_ ?_ h
    · rintro s ⟨htCap, rfl⟩
      exact kept_start htCap
    · intro s a t hI hp ht
      exact kept_step hI hp ht
  refine ⟨hinv.accounted, fun a t hp ht => ⟨fun tid n hn hnew => ?_, ?_⟩⟩
  · rcases fresh_step hp ht hn with hold | hfresh
    · exact absurd (hinv.accounted.installed tid n hold).1 hnew
    · exact hfresh
  · rintro r mem rfl hrej
    cases ht
    exact addba_rejected hrej

theorem handed_linux (s : State) (a : Act) : Handed .linux s a :=
  ⟨fun _ _ => Or.inl rfl, fun _ _ _ _ _ _ _ => rfl⟩

/-- All the memory that a request needs. -/
def plenty : Mem := ⟨true, true, true, fun _ => true⟩

/-- A request for TID 1, with 64 slots. -/
def anAddba : AddbaReq := ⟨1, 0x1006, 0, 0x0640⟩

/-- A session is replaced, the next request runs out of memory half-way, and RCU frees the first. -/
theorem sessions_accounted_replaced : ∃ s, Reach (system .linux) (Handed .linux) s ∧
    s.heap.allocated.length = 8 ∧ s.heap.freed.length = 5 ∧ s.rcu = [1] ∧ Accounted s ∧
    ∀ a t, Handed .linux s a → s.step .linux a = some t → StepOk .linux s a t := by
  let as : List Act := [.addba anAddba plenty, .rx 0 101 3 fun i => i < 4, .addba anAddba plenty,
    .addba anAddba { plenty with reorderTime := false }, .rcu 0]
  have hinit : (system .linux).init (start 0) := ⟨0, rfl⟩
  have hout : (exec (system .linux) (start 0) as).map (fun s =>
      (s.heap.allocated.length, s.heap.freed.length, s.rcu)) = some (8, 5, [1]) := by
    decide +kernel
  obtain ⟨s, hs, hout⟩ := Option.map_eq_some_iff.mp hout
  simp only [Prod.mk.injEq] at hout
  have hr : Reach (system .linux) (Handed .linux) s :=
    (Reach.of_exec (.init hinit) hs).mono fun s a _ => handed_linux s a
  exact ⟨s, hr, hout.1, hout.2.1, hout.2.2, sessions_accounted hr⟩

/-- **On the RTOS** a session that a DELBA stops is never freed, and a session may start with slots that
are not empty. -/
theorem session_leaked :
    (∃ s, Reach (system .rtos) (fun _ _ => True) s ∧ s.heap.allocated.length = 3 ∧
      s.heap.freed = [] ∧ s.held 0 = 0 ∧ ¬ Accounted s) ∧
    ∃ t, (start 0).step .rtos (.addba anAddba plenty) = some t ∧
      ¬ StepOk .rtos (start 0) (.addba anAddba plenty) t := by
  constructor
  · let as : List Act := [.addba anAddba plenty, .delba 0x1800]
    have hout : (exec (system .rtos) (start 0) as).map (fun s =>
        (s.heap.allocated, s.heap.freed, s.held 0)) =
          some ([.reorderTime 0, .reorderBuf 0, .session 0], [], 0) := by decide +kernel
    obtain ⟨s, hs, hout⟩ := Option.map_eq_some_iff.mp hout
    simp only [Prod.mk.injEq] at hout
    obtain ⟨halloc, hfreed, hheld⟩ := hout
    refine ⟨s, Reach.of_exec (.init ⟨0, rfl⟩) hs, by rw [halloc]; rfl, hfreed, hheld, fun hacc => ?_⟩
    have honce := hacc.once (.session 0) (by rw [halloc]; decide)
    rw [hfreed] at honce
    exact absurd (hheld.symm.trans honce) (by decide)
  · refine ⟨_, rfl, fun hok => ?_⟩
    have hfresh := hok.fresh 1 0 rfl (by decide)
    exact absurd (hfresh.2.2 1 (by decide)) (by decide +kernel)

end Atbm6441.Agg.Addba
