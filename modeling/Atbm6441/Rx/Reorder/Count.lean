import Atbm6441.Lib.Slots
import Atbm6441.Lib.Runs
import Atbm6441.Rx.Reorder.Model

/-!
# No frame is lost or counted twice

`Counted t` says that `stored_mpdu_num` counts the occupied slots of the session `t`, for any buffer
size. Every function of the reorder buffer keeps it, and what it takes out of the slots it puts into
the list of released frames (`Conserves`). So at every point of the life of a session each frame
that arrived is handed on, dropped, stored in one slot, or freed at the teardown.
-/

namespace Atbm6441.Rx.Reorder

open Atbm6441.Ieee80211 Atbm6441.Lib

variable {w : ℕ}

/-- The frames in the slots. -/
def TidAmpduRx.stored (t : TidAmpduRx w) : List SkBuff := occupied t.reorderBuf t.bufSize

/-- **`stored_mpdu_num` counts the occupied slots**, and the head is a sequence number. -/
structure Counted (t : TidAmpduRx w) : Prop where
  size_pos : 0 < t.bufSize
  size_le : t.bufSize ≤ 0x40
  head : t.headSeqNum < 0x1000
  count : t.storedMpduNum = t.stored.length
  beyond : ∀ i, t.bufSize ≤ i → t.reorderBuf i = none

/-- From `t` with the released `frames` to `r`: the count stays right and no frame is lost. -/
structure Conserves (t : TidAmpduRx w) (frames : List SkBuff) (r : TidAmpduRx w × List SkBuff) :
    Prop where
  counted : Counted r.1
  size : r.1.bufSize = t.bufSize
  ssn : r.1.ssn = t.ssn
  perm : (t.stored ++ frames).Perm (r.1.stored ++ r.2)

variable {t : TidAmpduRx w} {frames : List SkBuff} {r : TidAmpduRx w × List SkBuff}

theorem seqInc_lt (sq : ℕ) : seqInc sq < 0x1000 := Nat.mod_lt _ (by decide)

theorem Counted.slot_lt (h : Counted t) (sq : ℕ) : slot t sq < t.bufSize :=
  Nat.mod_lt _ h.size_pos

theorem Counted.lt_size (h : Counted t) {i : ℕ} {f : SkBuff} (hi : t.reorderBuf i = some f) :
    i < t.bufSize := by
  by_contra hge
  rw [h.beyond i (Nat.le_of_not_lt hge)] at hi
  cases hi

theorem Counted.empty (h : Counted t) (h0 : t.storedMpduNum = 0) (i : ℕ) :
    t.reorderBuf i = none := by
  by_cases hi : i < t.bufSize
  · have hlen : t.stored.length = 0 := by rw [← h.count, h0]
    exact eq_none_of_occupied t.reorderBuf (List.length_eq_zero_iff.mp hlen) hi
  · exact h.beyond i (Nat.le_of_not_lt hi)

theorem Counted.exists_occupied (h : Counted t) (hne : t.storedMpduNum ≠ 0) :
    ∃ i < t.bufSize, (t.reorderBuf i).isSome := by
  have hlen : t.stored ≠ [] := fun he => hne (by rw [h.count, he]; rfl)
  obtain ⟨f, hf⟩ := List.exists_mem_of_ne_nil _ hlen
  obtain ⟨i, hi, hslot⟩ := (mem_occupied _).mp hf
  exact ⟨i, hi, by rw [hslot]; rfl⟩

theorem Counted.congr (h : Counted t) {t' : TidAmpduRx w} (hbuf : t'.reorderBuf = t.reorderBuf)
    (hsize : t'.bufSize = t.bufSize) (hcount : t'.storedMpduNum = t.storedMpduNum)
    (hhead : t'.headSeqNum < 0x1000) : Counted t' where
  size_pos := by rw [hsize]; exact h.size_pos
  size_le := by rw [hsize]; exact h.size_le
  head := hhead
  count := by rw [hcount, h.count, TidAmpduRx.stored, TidAmpduRx.stored, hbuf, hsize]
  beyond := by rw [hbuf, hsize]; exact h.beyond

theorem Conserves.refl (h : Counted t) : Conserves t frames (t, frames) := ⟨h, rfl, rfl, .refl _⟩

theorem Conserves.trans {r' : TidAmpduRx w × List SkBuff} (h : Conserves t frames r)
    (h' : Conserves r.1 r.2 r') : Conserves t frames r' :=
  ⟨h'.counted, h'.size.trans h.size, h'.ssn.trans h.ssn, h.perm.trans h'.perm⟩

theorem Conserves.congr (h : Conserves t frames r) {t' : TidAmpduRx w}
    (hbuf : t'.reorderBuf = r.1.reorderBuf) (hsize : t'.bufSize = r.1.bufSize)
    (hssn : t'.ssn = r.1.ssn) (hcount : t'.storedMpduNum = r.1.storedMpduNum)
    (hhead : t'.headSeqNum < 0x1000) : Conserves t frames (t', r.2) where
  counted := h.counted.congr hbuf hsize hcount hhead
  size := hsize.trans h.size
  ssn := hssn.trans h.ssn
  perm := by
    have hstored : t'.stored = r.1.stored := by
      rw [TidAmpduRx.stored, TidAmpduRx.stored, hbuf, hsize]
    rw [hstored]
    exact h.perm

/-! ### Releasing -/

theorem releaseFrame_head (i : ℕ) (frames : List SkBuff) :
    (ieee80211ReleaseReorderFrame t i frames).1.headSeqNum = seqInc t.headSeqNum ∧
      (ieee80211ReleaseReorderFrame t i frames).1.bufSize = t.bufSize := by
  unfold ieee80211ReleaseReorderFrame
  rcases t.reorderBuf i with _ | skb <;> exact ⟨rfl, rfl⟩

/-- **Releasing a slot**, occupied or not. -/
theorem conserves_releaseFrame (h : Counted t) (index : ℕ) (frames : List SkBuff) :
    Conserves t frames (ieee80211ReleaseReorderFrame t index frames) := by
  unfold ieee80211ReleaseReorderFrame
  rcases hf : t.reorderBuf index with _ | skb
  · exact (Conserves.refl h).congr rfl rfl rfl rfl (seqInc_lt _)
  · have hlt := h.lt_size hf
    have hperm := occupied_update_none t.reorderBuf hlt hf
    have hlen : t.stored.length = (occupied (Function.update t.reorderBuf index none)
        t.bufSize).length + 1 := by
      rw [TidAmpduRx.stored, hperm.length_eq, List.length_cons]
    have hle := length_occupied_le t.reorderBuf t.bufSize
    have hcount := h.count
    have hsize := h.size_le
    refine ⟨⟨h.size_pos, h.size_le, seqInc_lt _, ?_, fun i hi => ?_⟩, rfl, rfl, ?_⟩
    · show (t.storedMpduNum + 0xffff) % 0x10000 =
        (occupied (Function.update t.reorderBuf index none) t.bufSize).length
      rw [TidAmpduRx.stored] at hlen hcount
      omega
    · exact (Function.update_of_ne (by dsimp only at hi; omega) _ _).trans (h.beyond i hi)
    · show (t.stored ++ frames).Perm
        (occupied (Function.update t.reorderBuf index none) t.bufSize ++ (frames ++ [skb]))
      refine (hperm.append_right frames).trans ?_
      rw [List.cons_append, ← List.append_assoc]
      exact (List.perm_append_singleton skb _).symm

theorem length_stored_release (h : Counted t) {index : ℕ} (hsome : (t.reorderBuf index).isSome)
    (frames : List SkBuff) :
    t.stored.length = (ieee80211ReleaseReorderFrame t index frames).1.stored.length + 1 := by
  obtain ⟨skb, hskb⟩ := Option.isSome_iff_exists.mp hsome
  have hout : (ieee80211ReleaseReorderFrame t index frames).2 = frames ++ [skb] := by
    unfold ieee80211ReleaseReorderFrame
    rw [hskb]
  have hlen := (conserves_releaseFrame h index frames).perm.length_eq
  rw [hout, List.length_append, List.length_append, List.length_append,
    List.length_singleton] at hlen
  omega

theorem conserves_releaseFramesLoop (headSeqNum : ℕ) : ∀ (n : ℕ) {t : TidAmpduRx w}
    (frames : List SkBuff), Counted t →
    Conserves t frames (releaseFramesLoop headSeqNum n t frames)
  | 0, _, _, h => .refl h
  | n + 1, t, frames, h => by
    rw [releaseFramesLoop]
    split_ifs
    · have h1 := conserves_releaseFrame h (slot t t.headSeqNum) frames
      exact h1.trans (conserves_releaseFramesLoop headSeqNum n _ h1.counted)
    · exact .refl h

theorem conserves_inOrderLoop : ∀ (n : ℕ) {t : TidAmpduRx w} (frames : List SkBuff), Counted t →
    Conserves t frames (inOrderLoop n t frames)
  | 0, _, _, h => .refl h
  | n + 1, t, frames, h => by
    rw [inOrderLoop]
    split_ifs
    · have h1 := conserves_releaseFrame h (slot t t.headSeqNum) frames
      exact h1.trans (conserves_inOrderLoop n _ h1.counted)
    · exact .refl h

/-- **The scan for frames that have timed out** skips slots and releases others. -/
theorem conserves_timeoutScan (tmo : ReorderTimeout) (now : BitVec w) (index : ℕ) :
    ∀ (n : ℕ) {t : TidAmpduRx w} (j skipped : ℕ) (frames : List SkBuff), Counted t →
      Conserves t frames ((timeoutScan tmo now index n t j skipped frames).1,
        (timeoutScan tmo now index n t j skipped frames).2.1)
  | 0, _, _, _, _, h => .refl h
  | n + 1, t, j, skipped, frames, h => by
    rw [timeoutScan]
    split_ifs
    · exact .refl h
    · exact conserves_timeoutScan tmo now index n _ (skipped + 1) frames h
    · exact .refl h
    · have h1 : Conserves t frames ({ (ieee80211ReleaseReorderFrame t j frames).1 with
          headSeqNum := ((ieee80211ReleaseReorderFrame t j frames).1.headSeqNum + skipped) % 0x1000 },
          (ieee80211ReleaseReorderFrame t j frames).2) :=
        (conserves_releaseFrame h j frames).congr rfl rfl rfl rfl (Nat.mod_lt _ (by decide))
      exact h1.trans (conserves_timeoutScan tmo now index n _ 0 _ h1.counted)

theorem Conserves.setReleaseTimer (h : Conserves t frames r) (tmo : ReorderTimeout) (j : ℕ) :
    Conserves t frames (setReleaseTimer tmo r.1 j, r.2) :=
  h.congr rfl rfl rfl rfl h.counted.head

theorem Conserves.updateReleaseTimer (h : Conserves t frames r) (tmo : ReorderTimeout) :
    Conserves t frames (updateReleaseTimer tmo r.1, r.2) := by
  unfold Reorder.updateReleaseTimer
  split_ifs
  · exact h.setReleaseTimer tmo _
  · exact h.congr rfl rfl rfl rfl h.counted.head

/-- **`ieee80211_sta_reorder_release`** loses no frame. -/
theorem conserves_reorderRelease (tmo : ReorderTimeout) (now : BitVec w) (h : Counted t)
    (frames : List SkBuff) :
    Conserves t frames (ieee80211StaReorderRelease tmo now t frames) := by
  unfold ieee80211StaReorderRelease
  dsimp only
  split_ifs
  · have hscan := conserves_timeoutScan tmo now (slot t t.headSeqNum) t.bufSize
      ((slot t t.headSeqNum + 1) % t.bufSize) 1 frames h
    revert hscan
    generalize timeoutScan tmo now _ _ t _ 1 frames = r
    obtain ⟨t', frames', _ | j⟩ := r
    · exact fun hscan => hscan.updateReleaseTimer tmo
    · exact fun hscan => hscan.setReleaseTimer tmo j
  · exact (conserves_inOrderLoop t.bufSize frames h).updateReleaseTimer tmo

/-! ### A frame arrives -/

/-- A frame that arrives is handed on, freed or stored, and no other frame is lost. -/
structure Disposes (t : TidAmpduRx w) (frames : List SkBuff) (skb : SkBuff) (m : Managed w) :
    Prop where
  counted : Counted m.agg
  size : m.agg.bufSize = t.bufSize
  ssn : m.agg.ssn = t.ssn
  perm : (t.stored ++ frames ++ [skb]).Perm (m.agg.stored ++ m.handedOn skb ++ m.freed)

/-- **A frame is put into a free slot.** -/
theorem Counted.put (h : Counted t) {index : ℕ} (hfree : ¬ (t.reorderBuf index).isSome)
    (hlt : index < t.bufSize) (skb : SkBuff) (now : BitVec w) :
    Counted { t with
        reorderBuf := Function.update t.reorderBuf index (some skb)
        reorderTime := Function.update t.reorderTime index now
        storedMpduNum := (t.storedMpduNum + 1) % 0x10000 } ∧
      (occupied (Function.update t.reorderBuf index (some skb)) t.bufSize).Perm
        (skb :: t.stored) := by
  have hperm := occupied_update_some (x := skb) t.reorderBuf hlt
    (Option.not_isSome_iff_eq_none.mp hfree)
  have hle := length_occupied_le (Function.update t.reorderBuf index (some skb)) t.bufSize
  have hlen := hperm.length_eq
  have hcount := h.count
  have hsize := h.size_le
  rw [List.length_cons] at hlen
  rw [TidAmpduRx.stored] at hcount
  refine ⟨⟨h.size_pos, h.size_le, h.head, ?_, fun i hi => ?_⟩, hperm⟩
  · show (t.storedMpduNum + 1) % 0x10000 =
      (occupied (Function.update t.reorderBuf index (some skb)) t.bufSize).length
    omega
  · exact (Function.update_of_ne (by dsimp only at hi; omega) _ _).trans (h.beyond i hi)

theorem disposes_storeOrPass (tmo : ReorderTimeout) (now : BitVec w) (h : Counted t)
    (skb : SkBuff) (frames : List SkBuff) :
    Disposes t frames skb (storeOrPass tmo now t skb frames) := by
  have hpass : Disposes t frames skb
      ⟨false, { t with headSeqNum := seqInc t.headSeqNum }, frames, []⟩ := by
    refine ⟨h.congr rfl rfl rfl (seqInc_lt _), rfl, rfl, ?_⟩
    show (t.stored ++ frames ++ [skb]).Perm (t.stored ++ (frames ++ [skb]) ++ [])
    rw [List.append_nil, List.append_assoc]
  unfold storeOrPass
  dsimp only
  split_ifs with hdup
  · exact ⟨h, rfl, rfl, .refl _⟩
  · exact hpass
  · exact hpass
  · obtain ⟨hput, hperm⟩ := h.put hdup (h.slot_lt _) skb now
    have hrel := conserves_reorderRelease tmo now hput frames
    refine ⟨hrel.counted, hrel.size, hrel.ssn, ?_⟩
    rw [List.append_nil]
    refine List.Perm.trans ?_ hrel.perm
    refine (List.perm_append_singleton skb _).trans ?_
    rw [← List.cons_append]
    exact (hperm.append_right frames).symm

/-- **`ieee80211_sta_manage_reorder_buf`** loses no frame. -/
theorem disposes_manage (tmo : ReorderTimeout) (now : BitVec w) (h : Counted t) (skb : SkBuff)
    (frames : List SkBuff) :
    Disposes t frames skb (ieee80211StaManageReorderBuf tmo now t skb frames) := by
  unfold ieee80211StaManageReorderBuf
  split_ifs
  · exact ⟨h, rfl, rfl, .refl _⟩
  · exact disposes_storeOrPass tmo now h skb frames
  · have hm := conserves_releaseFramesLoop (seqInc (seqSub (mpduSeqNum skb) t.bufSize)) 0x1000
      frames h
    have hst := disposes_storeOrPass tmo now hm.counted skb
      (ieee80211ReleaseReorderFrames t (seqInc (seqSub (mpduSeqNum skb) t.bufSize)) frames).2
    exact ⟨hst.counted, hst.size.trans hm.size, hst.ssn.trans hm.ssn,
      (hm.perm.append_right [skb]).trans hst.perm⟩

/-! ### The life of a session -/

/-- A session until it is torn down, with the frames that arrived for it and where they went. -/
structure Life (w : ℕ) where
  tmo : ReorderTimeout
  agg : Option (TidAmpduRx w)
  arrived : List SkBuff
  handed : List SkBuff
  dropped : List SkBuff
  tornDown : List SkBuff

/-- What happens in the life of a session: a frame arrives, the reorder timer expires, a frame of
another session arrives, or the session is torn down (which frees what is stored, as on Linux). -/
inductive LifeEv (w : ℕ)
  | frame (skb : SkBuff) (now : BitVec w)
  | expiry (now : BitVec w)
  | other (skb : SkBuff)
  | teardown

namespace Life

/-- The frames in the slots. -/
def stored (s : Life w) : List SkBuff := (s.agg.map TidAmpduRx.stored).getD []

def step (s : Life w) : LifeEv w → Option (Life w)
  | .frame skb now => s.agg.map fun t =>
    let tmo := updateTimeout s.tmo skb
    let m := ieee80211StaManageReorderBuf tmo now t skb []
    { s with
      tmo := tmo
      agg := some m.agg
      arrived := s.arrived ++ [skb]
      handed := s.handed ++ m.handedOn skb
      dropped := s.dropped ++ m.freed }
  | .expiry now => s.agg.map fun t =>
    let r := ieee80211StaReorderRelease s.tmo now t []
    { s with agg := some r.1, handed := s.handed ++ r.2 }
  | .other skb => some { s with tmo := updateTimeout s.tmo skb }
  | .teardown => s.agg.map fun t =>
    { s with agg := none, tornDown := s.tornDown ++ ieee80211FreeTidRx t }

end Life

/-- The life of the session `t`. -/
def life (t : TidAmpduRx w) : System (Life w) (LifeEv w) where
  init s := s.agg = some t ∧ s.arrived = [] ∧ s.handed = [] ∧ s.dropped = [] ∧ s.tornDown = []
  step := Life.step

/-- **Where the frames are**: the count is the number of occupied slots, the head is a sequence
number, and every frame that arrived is in one place. -/
structure Conserved (s : Life w) : Prop where
  count : ∀ t, s.agg = some t →
    t.storedMpduNum = (List.range t.bufSize).countP fun i => (t.reorderBuf i).isSome
  beyond : ∀ t, s.agg = some t → ∀ i, t.bufSize ≤ i → t.reorderBuf i = none
  head : ∀ t, s.agg = some t → t.headSeqNum < 0x1000
  places : s.arrived.Perm (s.handed ++ s.dropped ++ s.stored ++ s.tornDown)
  alive : ∀ t, s.agg = some t → s.tornDown = []

/-- **The invariant of a life**: the session counts its slots, and no frame is lost. -/
structure Counts (t₀ : TidAmpduRx w) (s : Life w) : Prop where
  counted : ∀ t, s.agg = some t → Counted t ∧ t.bufSize = t₀.bufSize ∧ t.ssn = t₀.ssn
  places : s.arrived.Perm (s.handed ++ s.dropped ++ s.stored ++ s.tornDown)
  alive : ∀ t, s.agg = some t → s.tornDown = []

section

variable {t₀ : TidAmpduRx w} {s s' : Life w}

theorem stored_of_agg (h : s.agg = some t) : s.stored = t.stored := by
  rw [Life.stored, h]
  rfl

theorem counted_addba {now : BitVec w} {sta : AddbaSta} {req : AddbaReq}
    (h : ieee80211ProcessAddbaRequest now sta req true = some t₀) : Counted t₀ := by
  obtain ⟨hpos, hle, hssn, hhead, hcount, hempty⟩ := addba_spec h
  refine ⟨hpos, hle, hhead ▸ hssn, ?_, fun i _ => hempty i⟩
  rw [hcount, TidAmpduRx.stored, occupied_empty _ fun i _ => hempty i]
  rfl

theorem counts_init (h₀ : Counted t₀) (hempty : ∀ i, t₀.reorderBuf i = none)
    (h : (life t₀).init s) : Counts t₀ s := by
  obtain ⟨hagg, harr, hhand, hdrop, htorn⟩ := h
  refine ⟨fun t ht => ?_, ?_, fun _ _ => htorn⟩
  · obtain rfl := Option.some.inj (hagg.symm.trans ht)
    exact ⟨h₀, rfl, rfl⟩
  · rw [stored_of_agg hagg, TidAmpduRx.stored, occupied_empty _ fun i _ => hempty i, harr, hhand,
      hdrop, htorn]
    exact .refl _

theorem perm_places {a h d s p o f n : List SkBuff} (hplaces : a.Perm (h ++ d ++ s))
    (hperm : (s ++ p).Perm (n ++ o ++ f)) : (a ++ p).Perm (h ++ o ++ (d ++ f) ++ n) := by
  rw [List.perm_iff_count] at hplaces hperm ⊢
  intro x
  have hx := hplaces x
  have hx' := hperm x
  simp only [List.count_append] at hx hx' ⊢
  omega

/-- **Each event** keeps the invariant. -/
theorem counts_step (h : Counts t₀ s) {ev : LifeEv w} (hs : s.step ev = some s') :
    Counts t₀ s' := by
  have hplaces := h.places
  match ev with
  | .frame skb now =>
    obtain ⟨t, ht, rfl⟩ := Option.map_eq_some_iff.mp hs
    obtain ⟨hc, hsize, hssn⟩ := h.counted t ht
    have hm := disposes_manage (updateTimeout s.tmo skb) now hc skb []
    revert hm
    dsimp only
    generalize ieee80211StaManageReorderBuf (updateTimeout s.tmo skb) now t skb [] = m
    intro hm
    have htorn := h.alive t ht
    rw [stored_of_agg ht, htorn, List.append_nil] at hplaces
    have hperm := hm.perm
    rw [List.append_nil] at hperm
    refine ⟨fun t' ht' => ?_, ?_, fun _ _ => htorn⟩
    · obtain rfl := Option.some.inj ht'
      exact ⟨hm.counted, hm.size.trans hsize, hm.ssn.trans hssn⟩
    · show (s.arrived ++ [skb]).Perm (s.handed ++ m.handedOn skb ++ (s.dropped ++ m.freed) ++
        m.agg.stored ++ s.tornDown)
      rw [htorn, List.append_nil]
      exact perm_places hplaces hperm
  | .expiry now =>
    obtain ⟨t, ht, rfl⟩ := Option.map_eq_some_iff.mp hs
    obtain ⟨hc, hsize, hssn⟩ := h.counted t ht
    have hm := conserves_reorderRelease s.tmo now hc []
    revert hm
    dsimp only
    generalize ieee80211StaReorderRelease s.tmo now t [] = r
    intro hm
    have htorn := h.alive t ht
    rw [stored_of_agg ht, htorn, List.append_nil] at hplaces
    have hperm := hm.perm
    rw [List.append_nil] at hperm
    refine ⟨fun t' ht' => ?_, ?_, fun _ _ => htorn⟩
    · obtain rfl := Option.some.inj ht'
      exact ⟨hm.counted, hm.size.trans hsize, hm.ssn.trans hssn⟩
    · show s.arrived.Perm (s.handed ++ r.2 ++ s.dropped ++ r.1.stored ++ s.tornDown)
      have hmoved := perm_places (p := []) (f := []) hplaces (by simpa using hperm)
      simpa [htorn] using hmoved
  | .other skb =>
    obtain rfl := Option.some.inj hs
    exact ⟨h.counted, h.places, h.alive⟩
  | .teardown =>
    obtain ⟨t, ht, rfl⟩ := Option.map_eq_some_iff.mp hs
    have htorn := h.alive t ht
    rw [stored_of_agg ht, htorn, List.append_nil] at hplaces
    refine ⟨nofun, ?_, nofun⟩
    show s.arrived.Perm (s.handed ++ s.dropped ++ [] ++ (s.tornDown ++ t.stored))
    rw [htorn, List.append_nil, List.nil_append]
    exact hplaces

theorem counts_of_reach {now : BitVec w} {sta : AddbaSta} {req : AddbaReq}
    (h : ieee80211ProcessAddbaRequest now sta req true = some t₀)
    (hs : Reach (life t₀) (fun _ _ => True) s) : Counts t₀ s :=
  hs.inv (I := Counts t₀) (fun _ hi => counts_init (counted_addba h) (addba_spec h).2.2.2.2.2 hi)
    fun _ _ _ hc _ hst => counts_step hc hst

theorem Counts.conserved (h : Counts t₀ s) : Conserved s := by
  refine ⟨fun t ht => ?_, fun t ht => (h.counted t ht).1.beyond,
    fun t ht => (h.counted t ht).1.head, h.places, h.alive⟩
  rw [(h.counted t ht).1.count, TidAmpduRx.stored, length_occupied]

end

/-! ### The bounds of the loops -/

/-- The window moves up to its new head, whatever the bound. -/
theorem releaseFramesLoop_more (target m : ℕ) : ∀ (n : ℕ) {t : TidAmpduRx w} (frames : List SkBuff),
    t.headSeqNum < 0x1000 → target < 0x1000 →
    (seqLess t.headSeqNum target → seqSub target t.headSeqNum ≤ n) →
    releaseFramesLoop target (n + m) t frames = releaseFramesLoop target n t frames
  | 0, t, frames, hh, ht, hn => by
    have hnot : ¬ seqLess t.headSeqNum target := fun hless => by
      have h0 := hn hless
      unfold seqLess at hless
      rw [decide_eq_true_iff] at hless
      unfold seqSub at h0 hless
      omega
    rw [Nat.zero_add]
    rcases m with _ | m
    · rfl
    · rw [releaseFramesLoop, releaseFramesLoop, if_neg hnot]
  | n + 1, t, frames, hh, ht, hn => by
    rw [Nat.succ_add, releaseFramesLoop, releaseFramesLoop]
    split_ifs with hless
    · have hhead := (releaseFrame_head (t := t) (slot t t.headSeqNum) frames).1
      refine releaseFramesLoop_more target m n _ (by rw [hhead]; exact seqInc_lt _) ht fun _ => ?_
      have h0 := hn hless
      unfold seqLess at hless
      rw [decide_eq_true_iff] at hless
      rw [hhead]
      unfold seqSub seqInc at *
      omega
    · rfl

/-- Releasing in order ends at an empty slot, whatever the bound. -/
theorem inOrderLoop_more (m : ℕ) : ∀ (n : ℕ) {t : TidAmpduRx w} (frames : List SkBuff),
    Counted t → t.stored.length ≤ n → inOrderLoop (n + m) t frames = inOrderLoop n t frames
  | 0, t, frames, h, hn => by
    have hnone : ¬ (t.reorderBuf (slot t t.headSeqNum)).isSome := by
      rw [h.empty (h.count.trans (Nat.le_zero.mp hn))]
      exact Bool.false_ne_true
    rw [Nat.zero_add]
    rcases m with _ | m
    · rfl
    · rw [inOrderLoop, inOrderLoop, if_neg hnone]
  | n + 1, t, frames, h, hn => by
    rw [Nat.succ_add, inOrderLoop, inOrderLoop]
    split_ifs with hsome
    · have hlen := length_stored_release h hsome frames
      exact inOrderLoop_more m n _ (conserves_releaseFrame h _ frames).counted (by omega)
    · rfl

/-- Going round the slots from `j` on, `i` is reached after at most `n` steps. -/
def Ahead (N j i n : ℕ) : Prop := j < N ∧ i < N ∧ (j ≤ i → i ≤ j + n) ∧ (i < j → i + N ≤ j + n)

theorem Ahead.round {N j i : ℕ} (hj : j < N) (hi : i < N) : Ahead N j i N :=
  ⟨hj, hi, by omega, by omega⟩

theorem Ahead.zero {N j i : ℕ} (h : Ahead N j i 0) : j = i := by
  obtain ⟨hj, hi, h1, h2⟩ := h
  omega

theorem Ahead.next {N j i n : ℕ} (h : Ahead N j i (n + 1)) (hne : j ≠ i) :
    Ahead N ((j + 1) % N) i n := by
  obtain ⟨hj, hi, h1, h2⟩ := h
  rcases Nat.lt_or_ge (j + 1) N with hlt | hge
  · rw [Nat.mod_eq_of_lt hlt]
    exact ⟨hlt, hi, by omega, by omega⟩
  · obtain rfl : N = j + 1 := by omega
    rw [Nat.mod_self]
    exact ⟨by omega, hi, by omega, by omega⟩

/-- The scan ends when it is back at the slot of the head, whatever the bound. -/
theorem timeoutScan_more (tmo : ReorderTimeout) (now : BitVec w) (index m : ℕ) :
    ∀ (n : ℕ) {t : TidAmpduRx w} {j : ℕ} (skipped : ℕ) (frames : List SkBuff),
      Ahead t.bufSize j index n →
      timeoutScan tmo now index (n + m) t j skipped frames =
        timeoutScan tmo now index n t j skipped frames
  | 0, t, j, skipped, frames, h => by
    rw [Nat.zero_add]
    rcases m with _ | m
    · rfl
    · rw [timeoutScan, timeoutScan, if_pos h.zero]
  | n + 1, t, j, skipped, frames, h => by
    rw [Nat.succ_add, timeoutScan, timeoutScan]
    split_ifs with hj
    · rfl
    · exact timeoutScan_more tmo now index m n _ _ (h.next hj)
    · rfl
    · refine timeoutScan_more tmo now index m n _ _ ?_
      show Ahead (ieee80211ReleaseReorderFrame t j frames).1.bufSize _ _ _
      rw [(releaseFrame_head j frames).2]
      exact h.next hj

theorem firstStored_more {index i m : ℕ} (hi : (t.reorderBuf i).isSome) : ∀ (n : ℕ) {j : ℕ},
    Ahead t.bufSize j i n → firstStored t index (n + m) j = firstStored t index n j
  | 0, j, h => by
    rw [Nat.zero_add]
    rcases m with _ | m
    · rfl
    · rw [firstStored, firstStored, h.zero, if_pos hi, ite_self]
  | n + 1, j, h => by
    rw [Nat.succ_add, firstStored, firstStored]
    split_ifs with hj hsome
    · rfl
    · rfl
    · exact firstStored_more hi n (h.next fun he => hsome (he ▸ hi))

/-- **The bounds never end the loops** of a session that counts its slots, whatever its buffer size:
larger bounds change nothing. -/
theorem loops_more (tmo : ReorderTimeout) (now : BitVec w) (h : Counted t) (m : ℕ)
    (frames : List SkBuff) :
    (∀ target < 0x1000, releaseFramesLoop target (0x1000 + m) t frames =
      releaseFramesLoop target 0x1000 t frames) ∧
    inOrderLoop (t.bufSize + m) t frames = inOrderLoop t.bufSize t frames ∧
    (∀ index < t.bufSize, timeoutScan tmo now index (t.bufSize + m) t ((index + 1) % t.bufSize) 1
        frames = timeoutScan tmo now index t.bufSize t ((index + 1) % t.bufSize) 1 frames) ∧
    (t.storedMpduNum ≠ 0 → ∀ index < t.bufSize,
      firstStored t index (t.bufSize + m) index = firstStored t index t.bufSize index) := by
  refine ⟨fun target ht => ?_, ?_, fun index hi => ?_, fun hne index hi => ?_⟩
  · refine releaseFramesLoop_more target m _ frames h.head ht fun _ => ?_
    unfold seqSub
    omega
  · exact inOrderLoop_more m _ frames h (length_occupied_le _ _)
  · exact timeoutScan_more tmo now index m _ _ _ (Ahead.round (Nat.mod_lt _ h.size_pos) hi)
  · obtain ⟨i, hi', hsome⟩ := h.exists_occupied hne
    exact firstStored_more hsome _ (Ahead.round hi hi')

end Atbm6441.Rx.Reorder
