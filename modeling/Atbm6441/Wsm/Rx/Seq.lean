import Atbm6441.Wsm.Rx.Model

/-!
# The sequence numbers of received messages

The check of `wsm_rx_seq` in `atbm_rx_directly`, over a run of messages. The device numbers its
messages one after the other modulo eight, and messages may be lost on the way; an exception is
not checked and takes no number.

`log_chain` : the messages that pass the check are numbered one after the other.
`inSequence_iff` : none of the others is discarded exactly when the messages lost up to each come to
a multiple of eight, since a message that fails the check leaves `wsm_rx_seq` as it is.
`loss_discards` : after one loss the next seven messages are discarded.
-/

namespace Atbm6441.Wsm.Rx

open Atbm6441.Lib Atbm6441.Wsm.MultiRx

/-! ### The check -/

/-- `recv_cnt`, `rx_resync` and `wsm_rx_seq`. -/
structure SeqState where
  recvCnt : ℕ
  rxResync : Bool
  wsmRxSeq : ℕ
deriving DecidableEq

def SeqState.start : SeqState := ⟨0, true, 0⟩

/-- The state once four messages have come. -/
def SeqState.checked (wsmRxSeq : ℕ) : SeqState := ⟨4, false, wsmRxSeq⟩

def Host.withSeq (h : Host) (s : SeqState) : Host :=
  { h with recvCnt := s.recvCnt, rxResync := s.rxResync, wsmRxSeq := s.wsmRxSeq }

/-- What becomes of a message. It is processed when it passes the check, also where the release of
its buffer fails after that. -/
inductive Fate
  | unchecked
  | exception
  | discarded
  | processed
deriving DecidableEq

def fate (s : SeqState) (m : RxBuf) : Fate :=
  if s.recvCnt < 4 then .unchecked
  else if m.wsmId 0 = 0x0800 then .exception
  else if ¬ s.rxResync ∧ wsmSeq m ≠ s.wsmRxSeq then .discarded
  else .processed

/-- The state after a message. -/
def next (s : SeqState) (m : RxBuf) : SeqState :=
  match fate s m with
  | .unchecked => ⟨s.recvCnt + 1, false, (s.recvCnt + 1) &&& 7⟩
  | .exception | .discarded => s
  | .processed => ⟨s.recvCnt, false, (wsmSeq m + 1) &&& 7⟩

/-- **The value returned** tells what becomes of a message. -/
theorem atbmRxDirectly_ret (h : Host) (s : SeqState) (m : RxBuf) :
    match fate s m with
    | .unchecked => (atbmRxDirectly (h.withSeq s) m).ret = 0
    | .exception => (atbmRxDirectly (h.withSeq s) m).ret = -1
    | .discarded => (atbmRxDirectly (h.withSeq s) m).ret = -2
    | .processed => (atbmRxDirectly (h.withSeq s) m).ret ∈ ({0, -3, -4} : List ℤ) := by
  unfold fate atbmRxDirectly
  by_cases hcnt : s.recvCnt < 4
  · simp [Host.withSeq, hcnt]
  by_cases hexc : m.wsmId 0 = 0x0800
  · simp [Host.withSeq, hcnt, hexc]
  by_cases hseq : ¬ s.rxResync ∧ wsmSeq m ≠ s.wsmRxSeq
  · simp [Host.withSeq, hcnt, hexc, hseq]
  · rw [if_neg hcnt, if_neg hexc, if_neg hseq]
    show (if s.recvCnt < 4 then _ else _ : Parsed).ret ∈ _
    rw [if_neg hcnt, if_neg hexc]
    show (if ¬ s.rxResync ∧ wsmSeq m ≠ s.wsmRxSeq then _ else _ : Parsed).ret ∈ _
    rw [if_neg hseq]
    by_cases hrel : m.wsmId 0 &&& 0x0400 ≠ 0 ∧ (h.withSeq s).releaseTxBuffer < 0
    · rw [if_pos hrel]
      decide
    · rw [if_neg hrel]
      dsimp only
      split_ifs <;> decide

/-! ### Runs -/

/-- The messages of a run, each with what becomes of it. -/
def log : SeqState → List RxBuf → List (Fate × RxBuf)
  | _, [] => []
  | s, m :: ms => (fate s m, m) :: log (next s m) ms

/-- The numbers of the messages processed. -/
def processedSeqs (l : List (Fate × RxBuf)) : List ℕ :=
  l.filterMap fun x => if x.1 = .processed then some (wsmSeq x.2) else none

/-- **In sequence**: the messages processed are numbered one after the other modulo eight, and no
message is discarded. -/
structure InSequence (l : List (Fate × RxBuf)) : Prop where
  chain : (processedSeqs l).IsChain fun a b => b = (a + 1) % 8
  kept : .discarded ∉ l.map Prod.fst

/-- A message that is received, after some that were lost. -/
structure Arrival where
  lost : ℕ
  m : RxBuf

/-- The device numbers its messages from `n` on. -/
def Numbered : ℕ → List Arrival → Prop
  | _, [] => True
  | n, a :: as =>
    if a.m.wsmId 0 = 0x0800 then Numbered (n + a.lost) as
    else wsmSeq a.m = (n + a.lost) % 8 ∧ Numbered (n + a.lost + 1) as

/-- **In step**: at each message that is not an exception, `n` and the messages lost so far come to
four modulo eight. -/
def InStep : ℕ → List Arrival → Prop
  | _, [] => True
  | n, a :: as => (a.m.wsmId 0 ≠ 0x0800 → (n + a.lost) % 8 = 4) ∧ InStep (n + a.lost) as

instance : (n : ℕ) → (as : List Arrival) → Decidable (Numbered n as)
  | _, [] => .isTrue trivial
  | n, a :: as =>
    have := instDecidableNumbered (n + a.lost) as
    have := instDecidableNumbered (n + a.lost + 1) as
    inferInstanceAs (Decidable (if a.m.wsmId 0 = 0x0800 then Numbered (n + a.lost) as
      else wsmSeq a.m = (n + a.lost) % 8 ∧ Numbered (n + a.lost + 1) as))

/-! ### One message -/

variable {e n : ℕ} {m : RxBuf} {as : List Arrival}

theorem and_seven (x : ℕ) : x &&& 7 = x % 8 := Nat.and_two_pow_sub_one_eq_mod x 3

theorem fate_checked : fate (.checked e) m =
    if m.wsmId 0 = 0x0800 then .exception
    else if wsmSeq m ≠ e then .discarded else .processed := by
  unfold fate SeqState.checked
  simp

theorem log_exception (hm : m.wsmId 0 = 0x0800) (ms : List RxBuf) :
    log (.checked e) (m :: ms) = (.exception, m) :: log (.checked e) ms := by
  have hf : fate (.checked e) m = .exception := by rw [fate_checked, if_pos hm]
  simp only [log, next, hf]

theorem log_discarded (hm : m.wsmId 0 ≠ 0x0800) (hs : wsmSeq m ≠ e) (ms : List RxBuf) :
    log (.checked e) (m :: ms) = (.discarded, m) :: log (.checked e) ms := by
  have hf : fate (.checked e) m = .discarded := by rw [fate_checked, if_neg hm, if_pos hs]
  simp only [log, next, hf]

theorem log_processed (hm : m.wsmId 0 ≠ 0x0800) (hs : wsmSeq m = e) (ms : List RxBuf) :
    log (.checked e) (m :: ms) =
      (.processed, m) :: log (.checked ((wsmSeq m + 1) % 8)) ms := by
  have hf : fate (.checked e) m = .processed := by
    rw [fate_checked, if_neg hm, if_neg (not_not.mpr hs)]
  simp only [log, next, hf, and_seven]
  rfl

/-- The first four messages are not checked, whatever they are. -/
theorem log_start (ms : List RxBuf) :
    log .start ms =
      (ms.take 4).map (fun m => (.unchecked, m)) ++ log (.checked 4) (ms.drop 4) := by
  rcases ms with _ | ⟨m₀, _ | ⟨m₁, _ | ⟨m₂, _ | ⟨m₃, ms⟩⟩⟩⟩
  · rfl
  · rfl
  · rfl
  · rfl
  · simp [log, next, fate, SeqState.start, SeqState.checked]

/-! ### The numbers of the messages processed -/

theorem chain_of_checked {p : ℕ} (he : e = (p + 1) % 8) (ms : List RxBuf) :
    (p :: processedSeqs (log (.checked e) ms)).IsChain fun a b => b = (a + 1) % 8 := by
  induction ms generalizing p e with
  | nil => simp [log, processedSeqs]
  | cons m ms ih =>
    by_cases hm : m.wsmId 0 = 0x0800
    · rw [log_exception hm]
      exact ih he
    by_cases hs : wsmSeq m = e
    · have htail := ih (e := (wsmSeq m + 1) % 8) (p := wsmSeq m) rfl
      rw [log_processed hm hs]
      show (p :: wsmSeq m :: processedSeqs _).IsChain _
      exact List.isChain_cons_cons.mpr ⟨hs.trans he, htail⟩
    · rw [log_discarded hm hs]
      exact ih he

/-- **The messages processed are numbered one after the other**, whatever is received. -/
theorem log_chain (ms : List RxBuf) :
    (processedSeqs (log .start ms)).IsChain fun a b => b = (a + 1) % 8 := by
  have hfirst : processedSeqs ((ms.take 4).map fun m => (Fate.unchecked, m)) = [] := by
    simp only [processedSeqs, List.filterMap_map, List.filterMap_eq_nil_iff]
    exact fun m _ => rfl
  have hrest := chain_of_checked (p := 3) (e := 4) rfl (ms.drop 4)
  rw [log_start]
  unfold processedSeqs at hfirst hrest ⊢
  rw [List.filterMap_append, hfirst, List.nil_append]
  exact hrest.of_cons

/-! ### The messages discarded -/

theorem kept_iff {k : ℕ} (he : e = (4 + k) % 8) (has : Numbered (n + k) as) :
    .discarded ∉ (log (.checked e) (as.map Arrival.m)).map Prod.fst ↔ InStep n as := by
  induction as generalizing e n k with
  | nil => simp [log, InStep]
  | cons a as ih =>
    rw [Numbered] at has
    rw [InStep, List.map_cons]
    by_cases hm : a.m.wsmId 0 = 0x0800
    · rw [if_pos hm] at has
      have hrest := ih (n := n + a.lost) (k := k) he (by rwa [Nat.add_right_comm])
      rw [log_exception hm, List.map_cons, List.mem_cons, ← hrest]
      simp [hm]
    · rw [if_neg hm] at has
      obtain ⟨hseq, hnum⟩ := has
      by_cases hs : wsmSeq a.m = e
      · have hnum' : Numbered (n + a.lost + (k + 1)) as := by
          have hadd : n + a.lost + (k + 1) = n + k + a.lost + 1 := by omega
          rwa [hadd]
        have hrest := ih (e := (wsmSeq a.m + 1) % 8) (n := n + a.lost) (k := k + 1) (by omega) hnum'
        have hstep : (n + a.lost) % 8 = 4 := by omega
        rw [log_processed hm hs, List.map_cons, List.mem_cons, ← hrest]
        simp [hstep]
      · have hstep : (n + a.lost) % 8 ≠ 4 := by omega
        rw [log_discarded hm hs, List.map_cons, List.mem_cons]
        simp [hm, hstep]

/-- **No message is discarded exactly when the losses are multiples of eight**: when the messages
after the first four are numbered from `n` on, the run is in sequence if and only if at each of these
`n` and the number of the messages lost come to four modulo eight. -/
theorem inSequence_iff (has : Numbered n (as.drop 4)) :
    InSequence (log .start (as.map Arrival.m)) ↔ InStep n (as.drop 4) := by
  have hkept := kept_iff (e := 4) (k := 0) rfl has
  have hall : .discarded ∉ (log .start (as.map Arrival.m)).map Prod.fst ↔
      .discarded ∉ (log (.checked 4) ((as.drop 4).map Arrival.m)).map Prod.fst := by
    have hfirst : .discarded ∉
        (((as.map Arrival.m).take 4).map fun m => (Fate.unchecked, m)).map Prod.fst := by
      rw [List.map_map, List.mem_map]
      rintro ⟨m, -, hm⟩
      simp at hm
    rw [log_start, List.map_append, List.mem_append, List.map_drop, or_iff_right hfirst]
  constructor
  · intro h
    exact hkept.mp (hall.mp h.kept)
  · intro h
    exact ⟨log_chain _, hall.mpr (hkept.mpr h)⟩

/-! ### One loss -/

/-- A message numbered `n`. -/
def numbered (n : ℕ) : RxBuf := ⟨fun i => if i = 3 then UInt8.ofNat (32 * (n % 8)) else 0, 4⟩

/-- The first five messages come, then `lost` are lost, then `k` come. -/
def withLoss (lost k : ℕ) : List Arrival :=
  (List.range 5).map (fun i => ⟨0, numbered i⟩) ++
    (List.range k).map fun i => ⟨if i = 0 then lost else 0, numbered (5 + lost + i)⟩

theorem inSequence_iff_eight : InSequence (log .start ((withLoss 8 3).map Arrival.m)) ↔
    InStep 4 ((withLoss 8 3).drop 4) :=
  inSequence_iff (by decide +kernel)

/-- **One loss**: seven messages that come are discarded, and the eighth is processed. -/
theorem loss_discards : Numbered 4 ((withLoss 1 8).drop 4) ∧
    ((log .start ((withLoss 1 8).map Arrival.m)).map Prod.fst).drop 5 =
      List.replicate 7 .discarded ++ [.processed] ∧
    ¬ InSequence (log .start ((withLoss 1 8).map Arrival.m)) := by
  have hnum : Numbered 4 ((withLoss 1 8).drop 4) := by decide +kernel
  have hfates : ((log .start ((withLoss 1 8).map Arrival.m)).map Prod.fst).drop 5 =
      List.replicate 7 .discarded ++ [.processed] := by
    decide +kernel
  refine ⟨hnum, hfates, fun h => ?_⟩
  have hmem : Fate.discarded ∈ ((log .start ((withLoss 1 8).map Arrival.m)).map Prod.fst).drop 5 := by
    simp [hfates]
  exact h.kept (List.mem_of_mem_drop hmem)

end Atbm6441.Wsm.Rx
