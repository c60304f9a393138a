import Atbm6441.Lib.Runs
import Atbm6441.Rx.Reorder.Refine

/-!
# Runs of one RX aggregation session

A session is set up by an ADDBA request and then sees frames and expiries of its reorder timer,
at any times; frames of other sessions change the timeout that all sessions share. `Obs` is a
session together with what has happened to it so far: frames are written down with their
*position*, the sequence number unwrapped along the moves of the window. `reorder_in_order` says
what holds in every state a run without EAPOL frames reaches.
-/

namespace Atbm6441.Rx.Reorder

open Atbm6441.Ieee80211 Atbm6441.Lib

variable {w : ℕ}

/-! ### The session under observation -/

/-- A session, the position of its head, the frames received (the first of each position, unless
it was behind the head) and the frames handed on, with their positions. -/
structure Obs (w : ℕ) where
  tmo : ReorderTimeout
  agg : TidAmpduRx w
  pos : ℕ
  received : List (ℕ × SkBuff)
  handed : List (ℕ × SkBuff)

/-- What happens to a session: a frame arrives, the reorder timer expires, or a frame of another
session arrives. -/
inductive Ev (w : ℕ)
  | frame (skb : SkBuff) (now : BitVec w)
  | expiry (now : BitVec w)
  | other (skb : SkBuff)

namespace Obs

/-- The position of a frame that is not behind the head. -/
def position (s : Obs w) (skb : SkBuff) : ℕ := s.pos + seqSub (mpduSeqNum skb) s.agg.headSeqNum

/-- The frame is not behind the head, and the first at its position. -/
def isNew (s : Obs w) (skb : SkBuff) : Bool :=
  !seqLess (mpduSeqNum skb) s.agg.headSeqNum && !(s.received.map Prod.fst).contains (s.position skb)

/-- The session becomes `agg` and hands `frames` on. -/
def handOn (s : Obs w) (agg : TidAmpduRx w) (frames : List SkBuff) : Obs w :=
  { s with
    agg := agg
    pos := s.pos + seqSub agg.headSeqNum s.agg.headSeqNum
    handed := s.handed ++ frames.map fun f => (s.position f, f) }

def step (s : Obs w) : Ev w → Option (Obs w)
  | .frame skb now =>
    let tmo := updateTimeout s.tmo skb
    let m := ieee80211StaManageReorderBuf tmo now s.agg skb []
    some { s.handOn m.agg (m.handedOn skb) with
      tmo := tmo
      received := if s.isNew skb then s.received ++ [(s.position skb, skb)] else s.received }
  | .expiry now =>
    let r := ieee80211StaReorderRelease s.tmo now s.agg []
    some (s.handOn r.1 r.2)
  | .other skb => some { s with tmo := updateTimeout s.tmo skb }

end Obs

/-- A session whose buffer size divides 4096 and is at least 2, from its ADDBA request on. -/
def session (w : ℕ) : System (Obs w) (Ev w) where
  init s := (∃ now sta req, ieee80211ProcessAddbaRequest now sta req true = some s.agg) ∧
    s.agg.bufSize ∣ 0x1000 ∧ 2 ≤ s.agg.bufSize ∧ s.pos = 0 ∧ s.received = [] ∧ s.handed = []
  step := Obs.step

/-- The frames of the run are not EAPOL frames. -/
def nonEapol : Obs w → Ev w → Prop
  | _, .frame skb _ => ¬ isEapol skb
  | _, _ => True

instance : ∀ (s : Obs w) (ev : Ev w), Decidable (nonEapol s ev)
  | _, .frame skb _ => inferInstanceAs (Decidable (¬ isEapol skb))
  | _, .expiry _ => inferInstanceAs (Decidable True)
  | _, .other _ => inferInstanceAs (Decidable True)

/-- **The contract of the reorder buffer**. -/
structure InOrder (s : Obs w) : Prop where
  /-- A slot holds a frame of the window, at the slot of its sequence number. -/
  slots : ∀ i f, s.agg.reorderBuf i = some f → i < s.agg.bufSize ∧
    seqSub (mpduSeqNum f) s.agg.headSeqNum < s.agg.bufSize ∧
    seqSub (mpduSeqNum f) s.agg.ssn % s.agg.bufSize = i
  /-- Positions are unwrapped sequence numbers. -/
  head : s.agg.headSeqNum = (s.agg.ssn + s.pos) % 0x1000
  unwrapped : ∀ x ∈ s.handed, mpduSeqNum x.2 = (s.agg.ssn + x.1) % 0x1000
  /-- What is handed on lies beyond all that was handed on before, and behind the head. -/
  sorted : s.handed.Pairwise fun x y => x.1 < y.1
  behind : ∀ x ∈ s.handed, x.1 < s.pos
  /-- What was received has been handed on or is stored, and nothing else is. -/
  kept : ∀ x, x ∈ s.received ↔ x ∈ s.handed ∨
    (s.pos ≤ x.1 ∧ x.1 < s.pos + s.agg.bufSize ∧ s.agg.reorderBuf (x.1 % s.agg.bufSize) = some x.2)

/-! ### The invariant -/

/-- **The invariant of a run**: the session is a window whose head is at the observed position,
and what was received has been handed out or is held. -/
structure Follows (s : Obs w) (W : Window SkBuff) : Prop where
  refines : Refines s.agg W
  sized : Sized s.agg.bufSize s.agg.ssn
  pos : W.head = s.pos
  handed : Window.Handed s.handed W.head
  unwrapped : ∀ x ∈ s.handed, mpduSeqNum x.2 = (s.agg.ssn + x.1) % 0x1000
  kept : ∀ x, x ∈ s.received ↔ x ∈ s.handed ∨ W.held x.1 = some x.2

variable {s : Obs w} {W : Window SkBuff}

theorem follows_init (h : (session w).init s) : Follows s ⟨0, fun _ => none⟩ := by
  obtain ⟨⟨now, sta, req, hreq⟩, hd, h2, hpos, hrec, hhanded⟩ := h
  obtain ⟨-, hle, hssn, hhead, -, hempty⟩ := addba_spec hreq
  have hr : Refines s.agg ⟨0, fun _ => none⟩ :=
    ⟨by show _ = (s.agg.ssn + 0) % 0x1000; omega, fun _ _ _ => hempty _, fun _ _ => hempty _,
      nofun, nofun⟩
  refine ⟨hr, ⟨hd, h2, hle, hssn⟩, hpos.symm, ?_, ?_, ?_⟩
  · rw [hhanded]; exact Window.Handed.nil _
  · simp [hhanded]
  · simp [hrec, hhanded]

theorem Follows.position_eq (h : Follows s W) {x : ℕ × SkBuff} (hx : W.head ≤ x.1)
    (hx' : x.1 < W.head + 0x1000) (hseq : mpduSeqNum x.2 = (s.agg.ssn + x.1) % 0x1000) :
    (s.position x.2, x.2) = x := by
  obtain ⟨d, hd⟩ := Nat.exists_eq_add_of_le hx
  have : s.position x.2 = x.1 := by
    unfold Obs.position
    rw [hseq, h.refines.head, hd, seqSub_pos _ _ _ (by omega), h.pos]
  rw [this]

/-- **One step**: the session has moved its window by less than 4096 and hands out what `L` lists. -/
theorem Follows.handOn (h : Follows s W) {W' : Window SkBuff} {agg : TidAmpduRx w}
    {L received : List (ℕ × SkBuff)} {tmo : ReorderTimeout} (hr : Refines agg W')
    (hssn : agg.ssn = s.agg.ssn) (hsize : agg.bufSize = s.agg.bufSize)
    (hle : W.head ≤ W'.head) (hlt : W'.head < W.head + 0x1000)
    (hhanded : Window.Handed (s.handed ++ L) W'.head)
    (hL : ∀ x ∈ L, W.head ≤ x.1 ∧ mpduSeqNum x.2 = (s.agg.ssn + x.1) % 0x1000)
    (hkept : ∀ x, x ∈ received ↔ x ∈ s.handed ++ L ∨ W'.held x.1 = some x.2) :
    Follows { s.handOn agg (L.map Prod.snd) with tmo := tmo, received := received } W' := by
  have hmap : (L.map Prod.snd).map (fun f => (s.position f, f)) = L := by
    rw [List.map_map]
    refine (List.map_congr_left fun x hx => ?_).trans (List.map_id L)
    have := hhanded.before x (List.mem_append_right _ hx)
    exact h.position_eq (hL x hx).1 (by omega) (hL x hx).2
  have hpos : W'.head = s.pos + seqSub agg.headSeqNum s.agg.headSeqNum := by
    obtain ⟨d, hd⟩ := Nat.exists_eq_add_of_le hle
    rw [hr.head, h.refines.head, hssn, hd, seqSub_pos _ _ _ (by omega), h.pos]
  have hout : (s.handOn agg (L.map Prod.snd)).handed = s.handed ++ L :=
    congrArg (s.handed ++ ·) hmap
  refine ⟨hr, ?_, hpos, ?_, ?_, ?_⟩
  · show Sized agg.bufSize agg.ssn
    rw [hssn, hsize]
    exact h.sized
  · show Window.Handed (s.handOn agg (L.map Prod.snd)).handed W'.head
    rw [hout]
    exact hhanded
  · show ∀ x ∈ (s.handOn agg (L.map Prod.snd)).handed, mpduSeqNum x.2 = (agg.ssn + x.1) % 0x1000
    rw [hout, hssn]
    intro x hx
    rcases List.mem_append.mp hx with hx | hx
    · exact h.unwrapped x hx
    · exact (hL x hx).2
  · show ∀ x, x ∈ received ↔ x ∈ (s.handOn agg (L.map Prod.snd)).handed ∨ _
    rw [hout]
    exact hkept

/-- **A move of the window** that stores nothing. -/
theorem Follows.move (h : Follows s W) {k : ℕ} (hk : k < 0x1000) {agg : TidAmpduRx w}
    {out : List SkBuff} (hm : Moves s.agg W [] k (agg, out)) (tmo : ReorderTimeout) :
    Follows { s.handOn agg out with tmo := tmo } (W.advance k) := by
  obtain rfl : out = (W.front k).map Prod.snd := hm.out
  refine h.handOn hm.refines hm.ssn hm.size (Nat.le_add_right _ _)
    (by rw [Window.advance_head]; omega) (h.handed.advance k) (fun x hx => ?_) fun x => ?_
  · obtain ⟨hle, -, hheld⟩ := Window.mem_front.mp hx
    exact ⟨hle, h.refines.seq _ _ hheld⟩
  · show x ∈ s.received ↔ _
    rw [h.kept, h.refines.within.held_iff k, List.mem_append, or_assoc]

/-- **A frame is stored** at a free position after the window has moved by `n`, and the window
moves on by `k`. -/
theorem Follows.store (h : Follows s W) {n k p : ℕ} (hnk : n + k < 0x1000) {skb : SkBuff}
    (hp : W.head + n ≤ p) (hp' : p < W.head + n + s.agg.bufSize)
    (hseq : mpduSeqNum skb = (s.agg.ssn + p) % 0x1000) (hfree : (W.advance n).held p = none)
    {agg : TidAmpduRx w} {out : List SkBuff}
    (hm : Moves s.agg ((W.advance n).put p skb) ((W.front n).map Prod.snd) k (agg, out))
    (tmo : ReorderTimeout) :
    Follows { s.handOn agg out with tmo := tmo, received := s.received ++ [(p, skb)] }
      (((W.advance n).put p skb).advance k) := by
  have hwithin : ((W.advance n).put p skb).Within s.agg.bufSize :=
    (h.refines.within.advance n).put hp hp'
  have hput := Window.put_held_iff hfree skb
  obtain rfl : out = (W.front n ++ ((W.advance n).put p skb).front k).map Prod.snd := by
    rw [List.map_append]
    exact hm.out
  have hhanded : Window.Handed (s.handed ++ (W.front n ++ ((W.advance n).put p skb).front k))
      (((W.advance n).put p skb).advance k).head := by
    rw [← List.append_assoc]
    exact Window.Handed.advance (W := (W.advance n).put p skb) (h.handed.advance n) k
  refine h.handOn hm.refines hm.ssn hm.size ?_ ?_ hhanded (fun x hx => ?_) fun x => ?_
  · rw [Window.advance_head, Window.put_head, Window.advance_head]; omega
  · rw [Window.advance_head, Window.put_head, Window.advance_head]; omega
  · rcases List.mem_append.mp hx with hx | hx
    · obtain ⟨hle, -, hheld⟩ := Window.mem_front.mp hx
      exact ⟨hle, h.refines.seq _ _ hheld⟩
    · obtain ⟨hle, -, hheld⟩ := Window.mem_front.mp hx
      rw [Window.put_head, Window.advance_head] at hle
      rcases (hput x).mp hheld with rfl | hheld
      · exact ⟨by omega, hseq⟩
      · exact ⟨by omega, h.refines.seq _ _
          ((h.refines.within.held_iff n x).mpr (Or.inr hheld))⟩
  · rw [List.mem_append, List.mem_singleton, h.kept, h.refines.within.held_iff n,
      List.mem_append, List.mem_append]
    have := hwithin.held_iff k x
    rw [hput] at this
    tauto

theorem Follows.frame (h : Follows s W) {skb : SkBuff} (hE : ¬ isEapol skb) {now : BitVec w}
    {t : Obs w} (ht : s.step (.frame skb now) = some t) : ∃ W', Follows t W' := by
  have hN := h.sized.two_le
  have hN' := h.sized.le
  obtain rfl := Option.some.inj ht
  generalize he : seqSub (mpduSeqNum skb) s.agg.headSeqNum = e
  have hpos : s.position skb = W.head + e := by
    unfold Obs.position
    rw [he, h.pos]
  by_cases hstale : 0x800 < e
  · have hnew : s.isNew skb = false := by
      unfold Obs.isNew
      rw [(seqLess_iff _ _).mpr (by omega)]
      rfl
    rw [manage_stale [] _ now (by omega), hnew, if_neg Bool.false_ne_true]
    exact ⟨_, h.move (by omega) (h.refines.moves []) _⟩
  · have hseq : mpduSeqNum skb = (s.agg.ssn + (W.head + e)) % 0x1000 :=
      eq_of_seqSub (mpduSeqNum_lt skb) (by rw [← h.refines.head, he])
    have hst := stored_manage [] (updateTimeout s.tmo skb) now h.refines h.sized hE he (by omega)
    cases hheld : (W.advance (e + 1 - s.agg.bufSize)).held (W.head + e) with
    | some f =>
      have hold : (W.head + e, f) ∈ s.received := (h.kept _).mpr (Or.inr
        ((h.refines.within.held_iff _ (W.head + e, f)).mpr (Or.inr hheld)))
      have hnew : s.isNew skb = false := by
        unfold Obs.isNew
        rw [hpos, List.contains_iff_mem.mpr (List.mem_map_of_mem hold)]
        simp
      obtain ⟨-, hm⟩ := hst.dup (by rw [hheld]; rfl)
      rw [hnew, if_neg Bool.false_ne_true]
      refine ⟨_, h.move (k := e + 1 - s.agg.bufSize) (by omega) ⟨?_, ?_, hm.ssn, hm.size⟩ _⟩
      · rw [← Nat.add_zero (e + 1 - s.agg.bufSize), ← Window.advance_advance]
        exact hm.refines
      · rw [hm.out, Window.front_zero, List.map_nil, List.append_nil]
    | none =>
      have hfirst : W.head + e ∉ s.received.map Prod.fst := by
        intro hmem
        obtain ⟨x, hx, hxp⟩ := List.mem_map.mp hmem
        rcases (h.kept x).mp hx with hx | hx
        · have := h.handed.before x hx
          omega
        · have := (h.refines.within _ _ hx).2
          rw [hxp] at hx
          rw [Window.advance_held_of_le _ (by omega), hx] at hheld
          cases hheld
      have hnew : s.isNew skb = true := by
        unfold Obs.isNew
        rw [hpos, Bool.eq_false_iff.mpr fun hc => hfirst (List.contains_iff_mem.mp hc),
          Bool.eq_false_iff.mpr fun hl => hstale (he ▸ (seqLess_iff _ _).mp hl)]
        rfl
      obtain ⟨-, k, hk, hm⟩ := hst.fresh hheld
      rw [hnew, if_pos rfl, hpos]
      exact ⟨_, h.store (by omega) (by omega) (by omega) hseq hheld hm _⟩

theorem Follows.expiry (h : Follows s W) {now : BitVec w} {t : Obs w}
    (ht : s.step (.expiry now) = some t) : ∃ W', Follows t W' := by
  have hN' := h.sized.le
  obtain rfl := Option.some.inj ht
  obtain ⟨k, hk, hm⟩ := moves_reorderRelease [] s.tmo now h.refines h.sized
  exact ⟨_, h.move (by omega) hm s.tmo⟩

theorem Follows.other (h : Follows s W) {skb : SkBuff} {t : Obs w}
    (ht : s.step (.other skb) = some t) : ∃ W', Follows t W' := by
  obtain rfl := Option.some.inj ht
  exact ⟨W, h.refines, h.sized, h.pos, h.handed, h.unwrapped, h.kept⟩

/-- **The run lemma**: in every state reached the session is a window. -/
theorem follows_of_reach (h : Reach (session w) nonEapol s) : ∃ W, Follows s W :=
  h.inv (I := fun s => ∃ W, Follows s W) (fun _ hi => ⟨_, follows_init hi⟩)
    fun _ ev _ ⟨_, hW⟩ hp hst => match ev with
      | .frame _ _ => hW.frame hp hst
      | .expiry _ => hW.expiry hst
      | .other _ => hW.other hst

/-! ### The contract -/

/-- **The reorder buffer keeps its contract**: in every state that a run without EAPOL frames
reaches, the slots hold frames of the window, and what was received has been handed on in order
or is stored. -/
theorem reorder_in_order (h : Reach (session w) nonEapol s) : InOrder s := by
  obtain ⟨W, hW⟩ := follows_of_reach h
  refine ⟨fun i f hi => hW.refines.slots hW.sized hi, hW.pos ▸ hW.refines.head, hW.unwrapped, hW.handed.sorted,
    fun x hx => hW.pos ▸ hW.handed.before x hx, fun x => ?_⟩
  rw [hW.kept, ← hW.pos]
  refine or_congr_right ⟨fun hx => ?_, fun ⟨hle, hlt, hx⟩ => ?_⟩
  · obtain ⟨hle, hlt⟩ := hW.refines.within _ _ hx
    exact ⟨hle, hlt, by rw [hW.refines.held _ hle hlt, hx]⟩
  · rw [← hW.refines.held _ hle hlt, hx]

/-! ### A run across the wrap of the sequence numbers -/

/-- A session of 8 slots that starts at the last sequence number. -/
def lastSsn : Obs 32 where
  tmo := reorderTimeoutInit
  agg := (ieee80211ProcessAddbaRequest 0 ⟨false, 0⟩ ⟨0x0202, 0, 0xfff0⟩ true).get (by decide)
  pos := 0
  received := []
  handed := []

theorem lastSsn_init : (session 32).init lastSsn :=
  ⟨⟨0, ⟨false, 0⟩, ⟨0x0202, 0, 0xfff0⟩, (Option.some_get (by decide)).symm⟩, by decide,
    by decide, rfl, rfl, rfl⟩

/-- The second frame overtakes the first, comes twice, and the fourth waits for the third until
the timer expires. -/
def overtaking : List (Ev 32) :=
  [.frame (qosFrame 0) 10, .frame (qosFrame 0) 11, .frame (qosFrame 0xfff) 12,
    .frame (qosFrame 2) 20, .expiry 700, .frame (qosFrame 1) 701, .frame (qosFrame 3) 702]

theorem reorder_in_order_overtaking :
    ∃ s, Reach (session 32) nonEapol s ∧ s.handed.map Prod.fst = [0, 1, 3, 4] ∧ InOrder s := by
  have hrun : (execIf (session 32) nonEapol lastSsn overtaking).isSome := by decide +kernel
  obtain ⟨s, hs⟩ := Option.isSome_iff_exists.mp hrun
  have hr := Reach.of_execIf (.init lastSsn_init) hs
  have hout : (execIf (session 32) nonEapol lastSsn overtaking).map (·.handed.map Prod.fst) =
      some [0, 1, 3, 4] := by decide +kernel
  rw [hs] at hout
  exact ⟨s, hr, Option.some.inj hout, reorder_in_order hr⟩

end Atbm6441.Rx.Reorder
