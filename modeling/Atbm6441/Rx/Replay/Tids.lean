import Atbm6441.Rx.Replay.Run
import Atbm6441.Rx.Reorder.Model
import Mathlib.Data.List.Perm.Basic

/-!
# One replay counter for all TIDs

The reorder buffers of the TIDs release the frames of one sender in an order of their own
(`ReleaseOrder`), but all unicast QoS frames are checked against one counter.
`acceptsAll_iff_one_tid` : the frames of an association are accepted in every release order exactly
when all of them have one TID.
-/

namespace Atbm6441.Rx.Replay

open Atbm6441.Ieee80211 Atbm6441.Lib

/-- The TID of a frame. -/
def Frame.tid (f : Frame) : ℕ := qosCtlTid f.data

/-- **Genuine frames**, in the order in which they were sent: unicast QoS frames with increasing
packet numbers. -/
structure Genuine (tx : List Frame) : Prop where
  qos : ∀ f ∈ tx, isMulticastEtherAddr f.data = false ∧
    ieee80211IsDataQos (frameControl f.data) = true
  sorted : tx.Pairwise fun f g => be f.pn < be g.pn

/-- **A release order** of the frames: the frames of each TID stay in their order. -/
structure ReleaseOrder (tx rel : List Frame) : Prop where
  perm : rel.Perm tx
  tids : ∀ t, (rel.filter fun f => f.tid = t) = tx.filter fun f => f.tid = t

/-- The check accepts all of the frames. -/
def AcceptsAll : AtbmVif → List Frame → Prop
  | _, [] => True
  | vif, f :: fs => (ccmpTkipReplaycnt vif f.data f.isCcmp).1 = 0 ∧
    AcceptsAll (ccmpTkipReplaycnt vif f.data f.isCcmp).2 fs

/-- A station right after its association. -/
structure Associated (vif : AtbmVif) : Prop where
  type : vif.type = .station
  length : (vif.counter .ptk).pn.length = 6
  pnInit : (vif.counter .ptk).pnInit ≠ 0

section

variable {vif : AtbmVif} {tx rel : List Frame}

theorem Genuine.stream (h : Genuine tx) {f : Frame} (hf : f ∈ tx) : f.stream = .ptk := by
  obtain ⟨huni, hqos⟩ := h.qos f hf
  show streamOf f.data = .ptk
  unfold streamOf
  rw [huni, if_neg Bool.false_ne_true, if_pos hqos]

theorem Genuine.tail {f : Frame} (h : Genuine (f :: tx)) : Genuine tx :=
  ⟨fun g hg => h.qos g (List.mem_cons_of_mem _ hg), (List.pairwise_cons.mp h.sorted).2⟩

theorem store_counter (vif : AtbmVif) (s : Stream) (pn : List UInt8) :
    (vif.store s pn).counter s = ⟨pn, 0⟩ :=
  Function.update_self ..

theorem replaycnt_ptk {f : Frame} (hv : vif.type = .station)
    (hlen : (vif.counter .ptk).pn.length = 6) (hf : f.stream = .ptk) :
    ccmpTkipReplaycnt vif f.data f.isCcmp =
      if (vif.counter .ptk).pnInit = 0 then
        if be f.pn ≤ be (vif.counter .ptk).pn then (-1, vif)
        else if Jump f.pn (vif.counter .ptk).pn then (0, vif)
        else (0, vif.store .ptk f.pn)
      else (0, vif.store .ptk f.pn) := by
  have hs : streamOf f.data = .ptk := hf
  have := replaycnt_station hv (hs ▸ hlen) f.isCcmp
  rwa [hs] at this

/-! ### One TID -/

theorem acceptsAll_sorted : ∀ {tx : List Frame} {vif : AtbmVif}, Genuine tx →
    vif.type = .station → (vif.counter .ptk).pn.length = 6 →
    ((vif.counter .ptk).pnInit = 0 → ∀ f ∈ tx, be (vif.counter .ptk).pn < be f.pn) →
    AcceptsAll vif tx
  | [], _, _, _, _, _ => trivial
  | f :: fs, vif, htx, hv, hlen, habove => by
    have hlater := (List.pairwise_cons.mp htx.sorted).1
    have hstored : AcceptsAll (vif.store .ptk f.pn) fs := by
      refine acceptsAll_sorted htx.tail hv ?_ fun _ => ?_
      · rw [store_counter]
        rfl
      · rw [store_counter]
        exact hlater
    rw [AcceptsAll, replaycnt_ptk hv hlen (htx.stream List.mem_cons_self)]
    split_ifs with hinit hle hjump
    · have := habove hinit f List.mem_cons_self
      omega
    · exact ⟨rfl, acceptsAll_sorted htx.tail hv hlen fun hinit g hg =>
        habove hinit g (List.mem_cons_of_mem _ hg)⟩
    · exact ⟨rfl, hstored⟩
    · exact ⟨rfl, hstored⟩

theorem ReleaseOrder.eq_of_one_tid (h : ReleaseOrder tx rel)
    (hone : ∀ f ∈ tx, ∀ g ∈ tx, f.tid = g.tid) : rel = tx := by
  cases tx with
  | nil => exact h.perm.eq_nil
  | cons x l =>
    have htx : ∀ f ∈ x :: l, decide (f.tid = x.tid) = true :=
      fun f hf => decide_eq_true (hone f hf x List.mem_cons_self)
    have hrel : ∀ f ∈ rel, decide (f.tid = x.tid) = true :=
      fun f hf => htx f (h.perm.mem_iff.mp hf)
    have := h.tids x.tid
    rwa [List.filter_eq_self.mpr hrel, List.filter_eq_self.mpr htx] at this

/-! ### Several TIDs -/

theorem releaseOrder_overtake {x y : Frame} {a b : List Frame} (hy : y.tid ≠ x.tid)
    (ha : ∀ z ∈ a, z.tid = x.tid) :
    ReleaseOrder (x :: (a ++ y :: b)) (y :: x :: (a ++ b)) := by
  refine ⟨?_, fun t => ?_⟩
  · exact (List.Perm.swap x y (a ++ b)).trans (List.Perm.cons x List.perm_middle.symm)
  · by_cases ht : y.tid = t
    · have hx : ¬ x.tid = t := fun hx => hy (ht.trans hx.symm)
      have hnone : (a.filter fun f => decide (f.tid = t)) = [] :=
        List.filter_eq_nil_iff.mpr fun z hz => by
          rw [decide_eq_true_iff, ha z hz]
          exact hx
      simp [ht, hx, hnone]
    · simp [ht, List.filter_cons]

/-- A frame that is released behind one that was sent later is dropped when that one is the first
frame of the association. -/
theorem not_acceptsAll_overtake (hv : Associated vif) {x y : Frame} {l : List Frame}
    (hx : x.stream = .ptk) (hy : y.stream = .ptk) (hlt : be x.pn < be y.pn) :
    ¬ AcceptsAll vif (y :: x :: l) := by
  have hfirst := replaycnt_ptk hv.type hv.length hy
  rw [if_neg hv.pnInit] at hfirst
  have htype : (vif.store .ptk y.pn).type = .station := hv.type
  have hsecond := replaycnt_ptk htype (by rw [store_counter]; rfl) hx
  rw [store_counter, if_pos rfl, if_pos (Nat.le_of_lt hlt)] at hsecond
  rintro ⟨-, hacc, -⟩
  rw [hfirst, hsecond] at hacc
  exact absurd hacc (show (-1 : ℤ) ≠ 0 by decide)

/-- **The frames of an association are accepted in every release order exactly when they have one
TID**. -/
theorem acceptsAll_iff_one_tid (hv : Associated vif) (htx : Genuine tx) :
    (∀ rel, ReleaseOrder tx rel → AcceptsAll vif rel) ↔ ∀ f ∈ tx, ∀ g ∈ tx, f.tid = g.tid := by
  constructor
  · intro hall
    by_contra hne
    obtain ⟨x, l, rfl⟩ : ∃ x l, tx = x :: l := by
      refine List.exists_cons_of_ne_nil ?_
      rintro rfl
      exact hne (by simp)
    -- the first frame whose TID is not that of the first frame
    cases hfind : l.find? fun f => decide (f.tid ≠ x.tid) with
    | none =>
      have hx : ∀ f ∈ x :: l, f.tid = x.tid := by
        intro f hf
        rcases List.mem_cons.mp hf with rfl | hf
        · rfl
        · simpa using List.find?_eq_none.mp hfind f hf
      exact hne fun f hf g hg => (hx f hf).trans (hx g hg).symm
    | some y =>
      obtain ⟨hy, a, b, rfl, ha⟩ := List.find?_eq_some_iff_append.mp hfind
      have hyx : y.tid ≠ x.tid := of_decide_eq_true hy
      have hmem : y ∈ x :: (a ++ y :: b) := by simp
      have hlt : be x.pn < be y.pn :=
        (List.pairwise_cons.mp htx.sorted).1 y (by simp)
      exact not_acceptsAll_overtake hv (htx.stream List.mem_cons_self) (htx.stream hmem) hlt
        (hall _ (releaseOrder_overtake hyx fun z hz => by simpa using ha z hz))
  · intro hone rel hrel
    rw [hrel.eq_of_one_tid hone]
    exact acceptsAll_sorted htx hv.type hv.length fun hinit => absurd hinit hv.pnInit

end

/-! ### A frame held back -/

/-- A unicast QoS frame with a TID, a sequence number and a CCMP header. -/
def seqFrame (tid : UInt8) (sn pn : ℕ) : Frame where
  data := [0x88, 0x40] ++ List.replicate 20 0 ++ [UInt8.ofNat (sn * 16), UInt8.ofNat (sn / 16),
    tid, 0, UInt8.ofNat pn, 0, 0, 0x20, 0, 0, 0, 0]
  isCcmp := true

/-- Two frames on TID 0 and, between them, one on TID 5. -/
def twoTids : List Frame := [seqFrame 0 0 1, seqFrame 5 0 2, seqFrame 0 1 3]

theorem associated_vif : Associated associated.vif := ⟨rfl, rfl, by decide⟩

/-- What a session hands on when two frames arrive. -/
def handedOnTwo (t : Reorder.TidAmpduRx 32) (f g : Frame) : List (List UInt8) :=
  let m := Reorder.ieee80211StaManageReorderBuf Reorder.reorderTimeoutInit 10 t ⟨f.data⟩ []
  let m' := Reorder.ieee80211StaManageReorderBuf Reorder.reorderTimeoutInit 11 m.agg ⟨g.data⟩ []
  (m.handedOn ⟨f.data⟩ ++ m'.handedOn ⟨g.data⟩).map SkBuff.data

/-- **A frame held back on one TID is dropped**: when the first frame of TID 0 arrives last, its
session hands on both frames behind the frame of TID 5, in a release order, and the first of them
is dropped. -/
theorem dropped_heldBack :
    Genuine twoTids ∧
    handedOnTwo Reorder.freshSession (seqFrame 0 1 3) (seqFrame 0 0 1) =
      [(seqFrame 0 0 1).data, (seqFrame 0 1 3).data] ∧
    ReleaseOrder twoTids [seqFrame 5 0 2, seqFrame 0 0 1, seqFrame 0 1 3] ∧
    ¬ AcceptsAll associated.vif [seqFrame 5 0 2, seqFrame 0 0 1, seqFrame 0 1 3] := by
  refine ⟨⟨by decide, by decide⟩, by decide +kernel, ?_, ?_⟩
  · exact releaseOrder_overtake (a := []) (by decide) (by simp)
  · exact not_acceptsAll_overtake associated_vif (by decide) (by decide) (by decide)

/-- On one TID they are all accepted. -/
theorem acceptsAll_oneTid :
    AcceptsAll associated.vif [seqFrame 0 0 1, seqFrame 0 1 2, seqFrame 0 2 3] :=
  (acceptsAll_iff_one_tid associated_vif ⟨by decide, by decide⟩).mpr (by decide) _
    ⟨List.Perm.refl _, fun _ => rfl⟩

end Atbm6441.Rx.Replay
