import Atbm6441.Os.Skb.Queue
import Mathlib.Data.Fintype.Card

/-!
# The rings stand for lists

* `Refines` : the links of the queues are rings of the buffers in the lists, the counters are their
  lengths, and the buffers that have been dequeued have null links;
* `step_refines` : every operation keeps that, and has the result of that on lists;
* `run_refines` : so does every sequence of operations.
-/

namespace Atbm6441.Os.Skb

open Atbm6441.Lib

universe u

variable {κ : Type u}

/-- The links of the lists as rings. -/
def Queues.rings (a : Queues κ) : κ → Option (List (Ptr κ)) :=
  fun q => (a.list q).map (List.map .skb)

/-- **The rings stand for the lists.** -/
structure Refines (s : State κ) (a : Queues κ) : Prop where
  rings : Rings s.next s.prev .head a.rings
  qlen : ∀ q l, a.list q = some l → s.qlen q = BitVec.ofNat 32 l.length
  unlinked : ∀ b, a.out b = true → s.next (.skb b) = .null ∧ s.prev (.skb b) = .null
  free : ∀ b, a.out b = true → a.Free b

variable {s t : State κ} {a : Queues κ} {q : κ} {l l' : List SkBuff} {b : SkBuff}

theorem Refines.ring (h : Refines s a) (hq : a.list q = some l) :
    Ring s.next s.prev (.head q) (l.map .skb) :=
  h.rings.ring q _ (by rw [Queues.rings, hq, Option.map_some])

/-- A node of another queue. -/
def Queues.Elsewhere (a : Queues κ) (q : κ) (x : Ptr κ) : Prop :=
  ∃ j l, j ≠ q ∧ a.list j = some l ∧ x ∈ Ptr.head j :: l.map .skb

theorem Refines.ne_of_elsewhere (h : Refines s a) (hq : a.list q = some l) {x y : Ptr κ}
    (hx : a.Elsewhere q x) (hy : y ∈ Ptr.head q :: l.map .skb) : x ≠ y := by
  rintro rfl
  obtain ⟨j, l', hj, hl', hx⟩ := hx
  refine h.rings.disjoint j q _ _ hj ?_ ?_ x hx hy
  · rw [Queues.rings, hl', Option.map_some]
  · rw [Queues.rings, hq, Option.map_some]

theorem skb_mem_iff : Ptr.skb b ∈ (Ptr.head q : Ptr κ) :: l.map .skb ↔ b ∈ l := by
  simp

theorem Queues.Free.ne (hb : a.Free b) {x : Ptr κ} (hx : a.Elsewhere q x) : x ≠ .skb b := by
  rintro rfl
  obtain ⟨j, l', -, hl', hx⟩ := hx
  exact hb j l' hl' (skb_mem_iff.mp hx)

theorem Queues.Free.not_mem (hb : a.Free b) (hq : a.list q = some l) :
    (Ptr.skb b : Ptr κ) ∉ Ptr.head q :: l.map .skb := fun hmem => hb q l hq (skb_mem_iff.mp hmem)

theorem Queues.Free.ne_of_mem (hb : a.Free b) (hq : a.list q = some l) {y : Ptr κ}
    (hy : y ∈ Ptr.head q :: l.map .skb) : Ptr.skb b ≠ y := fun heq => hb.not_mem hq (heq ▸ hy)

theorem Queues.Elsewhere.ne_head {x : Ptr κ} (hx : a.Elsewhere q x) : x ≠ .head q := by
  rintro rfl
  obtain ⟨j, l, hj, -, hmem⟩ := hx
  rcases List.mem_cons.mp hmem with heq | hmem
  · exact hj (Ptr.head.inj heq).symm
  · simp at hmem

theorem Refines.forget_out (h : Refines s a) {out : SkBuff → Bool}
    (hout : ∀ c, out c = true → a.out c = true) : Refines s ⟨a.list, out⟩ :=
  ⟨h.rings, h.qlen, fun c hc => h.unlinked c (hout c hc), fun c hc => h.free c (hout c hc)⟩

/-- Before anything is initialised, whatever is in the memory. -/
theorem refines_none (s : State κ) : Refines s Queues.none where
  rings := ⟨fun _ _ h => (by cases h), fun _ _ _ _ _ h => (by cases h)⟩
  qlen _ _ h := by cases h
  unlinked _ h := by cases h
  free _ h := by cases h

/-- More buffers than there are. -/
def manyBuffers : ℕ := 536870912

theorem length_le (hl : l.Nodup) : l.length ≤ manyBuffers := by
  have hinj : Function.Injective fun b : SkBuff =>
      (⟨b.addr.toNat / 8, by have := b.addr.toNat_lt; unfold manyBuffers; omega⟩ :
        Fin manyBuffers) := by
    intro b c h
    have hdiv : b.addr.toNat / 8 = c.addr.toNat / 8 := congrArg Fin.val h
    have hb := b.aligned
    have hc := c.aligned
    have haddr : b.addr = c.addr := UInt32.toNat_inj.mp (by omega)
    cases b
    cases c
    subst haddr
    rfl
  have hcard := (hl.map hinj).length_le_card
  rwa [List.length_map, Fintype.card_fin] at hcard

theorem Refines.length_le (h : Refines s a) (hq : a.list q = some l) : l.length ≤ manyBuffers :=
  Skb.length_le (List.nodup_cons.mp (h.ring hq).1).2.of_map

/-- **The counter is the length**, as an `int`. -/
theorem Refines.qlen_toInt (h : Refines s a) (hq : a.list q = some l) :
    (s.qlen q).toInt = l.length := by
  have hle := h.length_le hq
  unfold manyBuffers at hle
  have hnat : (BitVec.ofNat 32 l.length).toNat = l.length := by
    rw [BitVec.toNat_ofNat]
    omega
  rw [h.qlen q l hq, BitVec.toInt_eq_toNat_of_lt (by omega), hnat]

variable [DecidableEq κ]

/-- **One queue changes**, and the others stay. -/
theorem Refines.update (h : Refines s a) {out : SkBuff → Bool}
    (hring : Ring t.next t.prev (.head q) (l'.map .skb))
    (hlen : t.qlen q = BitVec.ofNat 32 l'.length)
    (hsame : ∀ x, a.Elsewhere q x → (t.next x = s.next x ∧ t.prev x = s.prev x) ∧
      x ∉ Ptr.head q :: l'.map .skb)
    (hqlen : ∀ j, j ≠ q → t.qlen j = s.qlen j)
    (hout : ∀ b, out b = true → (t.next (.skb b) = .null ∧ t.prev (.skb b) = .null) ∧ b ∉ l' ∧
      ∀ j l, j ≠ q → a.list j = some l → b ∉ l) :
    Refines t ⟨Function.update a.list q (some l'), out⟩ := by
  have hother : ∀ {j l}, j ≠ q → Function.update a.list q (some l') j = some l →
      a.list j = some l := fun hj h => by rwa [Function.update_of_ne hj] at h
  constructor
  · have hrings : (Queues.mk (Function.update a.list q (some l')) out).rings =
        Function.update a.rings q (some (l'.map Ptr.skb)) := by
      funext j
      by_cases hj : j = q
      · subst hj
        unfold Queues.rings
        dsimp only
        rw [Function.update_self, Function.update_self, Option.map_some]
      · unfold Queues.rings
        dsimp only
        rw [Function.update_of_ne hj, Function.update_of_ne hj]
    rw [hrings]
    refine h.rings.update hring fun j xs hj hxs x hx => ?_
    obtain ⟨l, hl, rfl⟩ := Option.map_eq_some_iff.mp hxs
    exact hsame x ⟨j, l, hj, hl, hx⟩
  · intro j l hl
    by_cases hj : j = q
    · subst hj
      dsimp only at hl
      rw [Function.update_self] at hl
      obtain rfl := Option.some.inj hl
      exact hlen
    · rw [hqlen j hj]
      exact h.qlen j l (hother hj hl)
  · exact fun b hb => (hout b hb).1
  · intro b hb j l hl
    by_cases hj : j = q
    · subst hj
      dsimp only at hl
      rw [Function.update_self] at hl
      obtain rfl := Option.some.inj hl
      exact (hout b hb).2.1
    · exact (hout b hb).2.2 j l hj (hother hj hl)

/-! ### Queueing -/

/-- **A buffer is queued** behind a node of the queue. -/
theorem Refines.insert (h : Refines s a) (hq : a.list q = some l) (hb : a.Free b) {p : Ptr κ}
    (hp : p ∈ Ptr.head q :: l.map .skb)
    (hring : Ring (insertNext s.next p (s.next p) (.skb b))
      (insertPrev s.prev p (s.next p) (.skb b)) (.head q) (l'.map .skb))
    (hlen : l'.length = l.length + 1) (hmem : ∀ c ∈ l', c = b ∨ c ∈ l) :
    Refines (skbInsert (.skb b) p (s.next p) q s)
      ⟨Function.update a.list q (some l'), Function.update a.out b false⟩ := by
  have hn := ((h.ring hq).next_mem hp).1
  refine h.update hring ?_ (fun x hx => ⟨?_, ?_⟩) (fun j hj => Function.update_of_ne hj _ _) ?_
  · show Function.update s.qlen q (s.qlen q + 1) q = _
    rw [Function.update_self, h.qlen q l hq, hlen, BitVec.ofNat_add]
    rfl
  · exact insert_frame _ _ (h.ne_of_elsewhere hq hx hp) (h.ne_of_elsewhere hq hx hn) (hb.ne hx)
  · intro hmem'
    rcases List.mem_cons.mp hmem' with heq | hmem'
    · exact hx.ne_head heq
    · obtain ⟨c, hc, rfl⟩ := List.mem_map.mp hmem'
      rcases hmem c hc with rfl | hc
      · exact hb.ne hx rfl
      · exact h.ne_of_elsewhere hq hx (List.mem_cons_of_mem _ (List.mem_map_of_mem hc)) rfl
  · intro c hc
    have hcb : c ≠ b := by
      rintro rfl
      rw [Function.update_self] at hc
      cases hc
    rw [Function.update_of_ne hcb] at hc
    have hfree := h.free c hc
    have hnot := hfree.not_mem hq
    have hframe := insert_frame s.next s.prev
      (fun heq : Ptr.skb c = p => hnot (heq ▸ hp)) (fun heq => hnot (heq ▸ hn))
      fun heq => hcb (Ptr.skb.inj heq)
    obtain ⟨hnull, hnull'⟩ := h.unlinked c hc
    refine ⟨⟨hframe.1.trans hnull, hframe.2.trans hnull'⟩, fun hmem' => ?_,
      fun j xs _ hj => hfree j xs hj⟩
    exact (hmem c hmem').elim hcb (hfree q l hq)

theorem put_eq (hq : a.list q = some l) (f : List SkBuff → List SkBuff) :
    a.put q b f = ⟨Function.update a.list q (some (f l)), Function.update a.out b false⟩ := by
  rw [Queues.put, hq, Option.map_some]

theorem Refines.queueHead (h : Refines s a) (hq : a.list q = some l) (hb : a.Free b) :
    Refines (skbQueueHead q (.skb b) s) (a.put q b (b :: ·)) := by
  rw [put_eq hq]
  refine h.insert hq hb List.mem_cons_self ((h.ring hq).insertFirst (hb.not_mem hq)) rfl ?_
  exact fun c hc => List.mem_cons.mp hc

theorem Refines.queueTail (h : Refines s a) (hq : a.list q = some l) (hb : a.Free b) :
    Refines (skbQueueTail q (.skb b) s) (a.put q b (· ++ [b])) := by
  obtain ⟨hmem, hnext⟩ := (h.ring hq).2.prev_mem
  have hlast := (h.ring hq).insertLast (hb.not_mem hq)
  rw [put_eq hq]
  unfold skbQueueTail skbQueueBefore
  have hinsert : Refines _ ⟨Function.update a.list q (some (l ++ [b])), _⟩ :=
    h.insert hq hb hmem ?_ ?_ ?_
  · rwa [hnext] at hinsert
  · rw [hnext, List.map_append]
    exact hlast
  · rw [List.length_append, List.length_singleton]
  · intro c hc
    rcases List.mem_append.mp hc with hc | hc
    · exact .inr hc
    · exact .inl (List.mem_singleton.mp hc)

theorem behind_none : behind none b l = b :: l := by
  cases l <;> rfl

theorem behind_some {c : SkBuff} (hc : c ∉ l) :
    behind (some c) b (l ++ c :: l') = l ++ c :: b :: l' := by
  induction l with
  | nil =>
    rw [List.nil_append, behind]
    exact if_pos rfl
  | cons d l ih =>
    obtain ⟨hdc, hc⟩ := not_or.mp (mt List.mem_cons.mpr hc)
    rw [List.cons_append, behind]
    exact (if_neg (Ne.symm hdc)).trans (congrArg (d :: ·) (ih hc))

theorem Refines.queueAfter (h : Refines s a) (hq : a.list q = some l) (hb : a.Free b)
    {prev : Option SkBuff} (hprev : ∀ c, prev = some c → c ∈ l) :
    Refines (skbQueueAfter q (place q prev) (.skb b) s) (a.put q b (behind prev b)) := by
  rcases prev with _ | c
  · have hhead := h.queueHead hq hb
    rw [put_eq hq] at hhead ⊢
    rw [behind_none]
    exact hhead
  · obtain ⟨l₁, l₂, rfl⟩ := List.append_of_mem (hprev c rfl)
    have hring := h.ring hq
    have hnodup := (List.nodup_cons.mp hring.1).2.of_map
    have hc : c ∉ l₁ := fun hmem =>
      (List.nodup_append.mp hnodup).2.2 c hmem c List.mem_cons_self rfl
    rw [put_eq hq, behind_some hc]
    rw [List.map_append, List.map_cons] at hring
    have hafter := hring.insertAfter (a := .skb b) ?_
    · refine h.insert hq hb ?_ ?_ ?_ ?_
      · simp [place]
      · rw [List.map_append, List.map_cons, List.map_cons]
        exact hafter
      · simp only [List.length_append, List.length_cons]
        omega
      · intro d hd
        simp only [List.mem_append, List.mem_cons] at hd ⊢
        tauto
    · have hnot := hb.not_mem hq
      rwa [List.map_append, List.map_cons] at hnot

/-! ### Taking out -/

theorem peek_nil (h : Refines s a) (hq : a.list q = some []) : skbPeek q s = .null :=
  if_pos (h.ring hq).2.1

theorem peek_cons (h : Refines s a) (hq : a.list q = some (b :: l)) : skbPeek q s = .skb b := by
  have hnext : s.next (.head q) = .skb b := (h.ring hq).2.1
  unfold skbPeek
  rw [hnext]
  exact if_neg fun heq => by cases heq

theorem dequeue_nil (h : Refines s a) (hq : a.list q = some []) : skbDequeue q s = (.null, s) := by
  unfold skbDequeue
  rw [peek_nil h hq]
  exact if_neg fun hne => hne rfl

theorem dequeue_cons (h : Refines s a) (hq : a.list q = some (b :: l)) :
    skbDequeue q s = (.skb b, skbUnlink (.skb b) q s) := by
  unfold skbDequeue
  rw [peek_cons h hq]
  exact if_pos fun heq => by cases heq

/-- **The first buffer is taken out**, and has null links. -/
theorem Refines.unlink (h : Refines s a) (hq : a.list q = some (b :: l)) :
    Refines (skbUnlink (.skb b) q s)
      ⟨Function.update a.list q (some l), Function.update a.out b true⟩ := by
  have hring := h.ring hq
  have hlinks := hring.2
  obtain ⟨hfirst, hback, hrest⟩ := hlinks
  have hbmem : Ptr.skb b ∈ Ptr.head q :: (b :: l).map .skb := by simp
  have hpmem : s.prev (.skb b) ∈ Ptr.head q :: (b :: l).map .skb := by
    rw [hback]
    exact List.mem_cons_self
  have hnmem := (hring.next_mem hbmem).1
  have hnodup := hring.nodup_end
  obtain ⟨hbl, -⟩ := List.nodup_cons.mp hnodup
  have hb : b ∉ l := fun hmem => hbl (List.mem_append_left _ (List.mem_map_of_mem hmem))
  refine h.update (hring.dropFirst .null) ?_ (fun x hx => ⟨?_, ?_⟩)
    (fun j hj => Function.update_of_ne hj _ _) ?_
  · show Function.update s.qlen q (s.qlen q - 1) q = _
    rw [Function.update_self, h.qlen q _ hq, List.length_cons, BitVec.ofNat_add]
    exact BitVec.add_sub_cancel _ _
  · exact drop_frame _ _ _ (h.ne_of_elsewhere hq hx hbmem) (h.ne_of_elsewhere hq hx hpmem)
      (h.ne_of_elsewhere hq hx hnmem)
  · intro hmem
    refine h.ne_of_elsewhere hq hx (y := x) ?_ rfl
    rcases List.mem_cons.mp hmem with heq | hmem
    · exact heq ▸ List.mem_cons_self
    · exact List.mem_cons_of_mem _ (List.mem_cons_of_mem _ hmem)
  · intro c hc
    by_cases hcb : c = b
    · subst hcb
      refine ⟨⟨?_, ?_⟩, hb, fun j xs hj hxs hmem => ?_⟩
      · have hne : (Ptr.skb c : Ptr κ) ≠ s.prev (.skb c) := by
          rw [hback]
          exact fun heq => by cases heq
        exact (Function.update_of_ne hne _ _).trans (Function.update_self _ _ _)
      · have hne : Ptr.skb c ≠ s.next (.skb c) := fun heq => hbl (heq ▸ hrest.first_mem)
        exact (Function.update_of_ne hne _ _).trans (Function.update_self _ _ _)
      · exact h.ne_of_elsewhere hq ⟨j, xs, hj, hxs, skb_mem_iff.mpr hmem⟩ hbmem rfl
    · rw [Function.update_of_ne hcb] at hc
      have hfree := h.free c hc
      have hnot := hfree.not_mem hq
      have hframe := drop_frame s.next s.prev .null
        (fun heq : Ptr.skb c = .skb b => hcb (Ptr.skb.inj heq)) (fun heq => hnot (heq ▸ hpmem))
        fun heq => hnot (heq ▸ hnmem)
      obtain ⟨hnull, hnull'⟩ := h.unlinked c hc
      exact ⟨⟨hframe.1.trans hnull, hframe.2.trans hnull'⟩,
        fun hmem => hfree q _ hq (List.mem_cons_of_mem b hmem), fun j xs _ hj => hfree j xs hj⟩

/-- **The loop that purges a queue** ends when it is empty, and frees its buffers in order. -/
theorem Refines.purge (h : Refines s a) (hq : a.list q = some l) {fuel : ℕ}
    (hfuel : l.length < fuel) :
    ∃ t, skbQueuePurge q fuel s = some (l.map .skb, t) ∧
      Refines t { a with list := Function.update a.list q (some []) } := by
  induction l generalizing s a fuel with
  | nil =>
    cases fuel with
    | zero => exact absurd hfuel (Nat.not_lt_zero _)
    | succ fuel =>
      refine ⟨s, ?_, ?_⟩
      · rw [skbQueuePurge, dequeue_nil h hq]
        exact if_neg fun hne => hne rfl
      · rwa [← hq, Function.update_eq_self]
  | cons b l ih =>
    cases fuel with
    | zero => exact absurd hfuel (Nat.not_lt_zero _)
    | succ fuel =>
      obtain ⟨t, ht, href⟩ := ih (h.unlink hq) (Function.update_self _ _ _)
        (Nat.lt_of_succ_lt_succ hfuel)
      refine ⟨t, ?_, ?_⟩
      · rw [skbQueuePurge, dequeue_cons h hq]
        refine (if_pos fun heq => by cases heq).trans ?_
        rw [ht]
        rfl
      · rw [Function.update_idem] at href
        refine href.forget_out fun c hc => ?_
        by_cases hcb : c = b
        · rw [hcb]
          exact Function.update_self _ _ _
        · exact (Function.update_of_ne hcb _ _).trans hc

/-! ### Initialising and splicing -/

/-- **A queue is initialised**, whatever is in it. -/
theorem Refines.init (h : Refines s a) (q : κ) :
    Refines (skbQueueHeadInit q s) { a with list := Function.update a.list q (some []) } := by
  have hframe : ∀ x : Ptr κ, x ≠ .head q → (skbQueueHeadInit q s).next x = s.next x ∧
      (skbQueueHeadInit q s).prev x = s.prev x := fun x hx =>
    ⟨Function.update_of_ne hx _ _, Function.update_of_ne hx _ _⟩
  refine h.update ⟨List.nodup_singleton _, Function.update_self _ _ _, Function.update_self _ _ _⟩
    (Function.update_self _ _ _) (fun x hx => ⟨hframe x hx.ne_head, ?_⟩)
    (fun j hj => Function.update_of_ne hj _ _) fun b hb => ?_
  · exact fun hmem => hx.ne_head (List.mem_singleton.mp hmem)
  · obtain ⟨hnext, hprev⟩ := hframe (.skb b) fun heq => by cases heq
    obtain ⟨hnull, hnull'⟩ := h.unlinked b hb
    exact ⟨⟨hnext.trans hnull, hprev.trans hnull'⟩, List.not_mem_nil,
      fun j l _ hj => h.free b hb j l hj⟩

theorem Refines.forget (h : Refines s a) (q : κ) :
    Refines s { a with list := Function.update a.list q none } := by
  have hother : ∀ {j l}, Function.update a.list q none j = some l → a.list j = some l := by
    intro j l hl
    by_cases hj : j = q
    · subst hj
      rw [Function.update_self] at hl
      cases hl
    · rwa [Function.update_of_ne hj] at hl
  constructor
  · have hrings : (Queues.mk (Function.update a.list q none) a.out).rings =
        Function.update a.rings q none := by
      funext j
      unfold Queues.rings
      dsimp only
      by_cases hj : j = q
      · subst hj
        rw [Function.update_self, Function.update_self]
        rfl
      · rw [Function.update_of_ne hj, Function.update_of_ne hj]
    rw [hrings]
    exact h.rings.remove fun _ _ _ _ _ _ => ⟨rfl, rfl⟩
  · exact fun j l hl => h.qlen j l (hother hl)
  · exact h.unlinked
  · exact fun b hb j l hl => h.free b hb j l (hother hl)

theorem splice_elsewhere (h : Refines s a) {r : κ} (hq : a.list q = some l) {p n : Ptr κ}
    (hp : p ∈ Ptr.head r :: l'.map .skb)
    (hn : n ∈ Ptr.head r :: l'.map .skb) {x : Ptr κ}
    (hxq : ∀ y ∈ Ptr.head q :: l.map .skb, x ≠ y) (hxr : ∀ y ∈ Ptr.head r :: l'.map .skb, x ≠ y) :
    (skbQueueSplice q p n s).next x = s.next x ∧ (skbQueueSplice q p n s).prev x = s.prev x :=
  splice_frame _ _ (hxr p hp) (hxr n hn) (hxq _ ((h.ring hq).next_mem List.mem_cons_self).1)
    (hxq _ (h.ring hq).2.prev_mem.1)

/-- **The buffers of one queue go to another**, and the first is empty. -/
theorem Refines.splice_ne (h : Refines s a) {r : κ} (hqr : q ≠ r) (hq : a.list q = some l)
    (hr : a.list r = some l') {p n : Ptr κ} (hp : p ∈ Ptr.head r :: l'.map .skb)
    (hn : n ∈ Ptr.head r :: l'.map .skb) {m : List SkBuff}
    (hring : Ring (skbQueueSplice q p n s).next (skbQueueSplice q p n s).prev (.head r)
      (m.map .skb))
    (hlen : m.length = l'.length + l.length) (hmem : ∀ c ∈ m, c ∈ l ∨ c ∈ l') :
    Refines (skbQueueHeadInit q (addQlen q r (skbQueueSplice q p n s))) (a.splice q r m) := by
  have hforget := h.forget q
  have hspliced : Refines (addQlen q r (skbQueueSplice q p n s))
      ⟨Function.update (Function.update a.list q none) r (some m), a.out⟩ := by
    refine hforget.update hring ?_ ?_ (fun j hj => Function.update_of_ne hj _ _) fun b hb => ?_
    · show Function.update s.qlen r (s.qlen r + s.qlen q) r = _
      rw [Function.update_self, h.qlen r l' hr, h.qlen q l hq, hlen, BitVec.ofNat_add]
    · rintro x ⟨j, xs, hjr, hj, hx⟩
      have hj : Function.update a.list q none j = some xs := hj
      have hjq : j ≠ q := by
        rintro rfl
        rw [Function.update_self] at hj
        cases hj
      rw [Function.update_of_ne hjq] at hj
      have hxq := fun y => h.ne_of_elsewhere (y := y) hq ⟨j, xs, hjq, hj, hx⟩
      have hxr := fun y => h.ne_of_elsewhere (y := y) hr ⟨j, xs, hjr, hj, hx⟩
      refine ⟨splice_elsewhere h hq hp hn hxq hxr, fun hmem' => ?_⟩
      rcases List.mem_cons.mp hmem' with heq | hmem'
      · exact hxr _ List.mem_cons_self heq
      · obtain ⟨c, hc, rfl⟩ := List.mem_map.mp hmem'
        rcases hmem c hc with hc | hc
        · exact hxq _ (List.mem_cons_of_mem _ (List.mem_map_of_mem hc)) rfl
        · exact hxr _ (List.mem_cons_of_mem _ (List.mem_map_of_mem hc)) rfl
    · have hfree := h.free b hb
      obtain ⟨hnext, hprev⟩ := splice_elsewhere h hq hp hn
        (fun y hy => hfree.ne_of_mem hq hy) fun y hy => hfree.ne_of_mem hr hy
      obtain ⟨hnull, hnull'⟩ := h.unlinked b hb
      refine ⟨⟨hnext.trans hnull, hprev.trans hnull'⟩, fun hc => ?_,
        fun j xs _ hj => hforget.free b hb j xs hj⟩
      exact (hmem b hc).elim (hfree q l hq) (hfree r l' hr)
  have hinit := hspliced.init q
  rw [Function.update_comm hqr, Function.update_idem] at hinit
  exact hinit

theorem Refines.splice_self (h : Refines s a) (hq : a.list q = some l) {p n : Ptr κ}
    (hp : p ∈ Ptr.head q :: l.map .skb) (hn : n ∈ Ptr.head q :: l.map .skb) (m : List SkBuff) :
    Refines (skbQueueHeadInit q (addQlen q q (skbQueueSplice q p n s))) (a.splice q q m) := by
  unfold Queues.splice
  rw [Function.update_idem]
  have hframe : ∀ x : Ptr κ, (∀ y ∈ Ptr.head q :: l.map .skb, x ≠ y) →
      (skbQueueHeadInit q (addQlen q q (skbQueueSplice q p n s))).next x = s.next x ∧
      (skbQueueHeadInit q (addQlen q q (skbQueueSplice q p n s))).prev x = s.prev x := by
    intro x hx
    obtain ⟨hnext, hprev⟩ := splice_elsewhere h hq hp hn hx hx
    have hne := hx _ List.mem_cons_self
    exact ⟨(Function.update_of_ne hne _ _).trans hnext, (Function.update_of_ne hne _ _).trans hprev⟩
  refine h.update ⟨List.nodup_singleton _, Function.update_self _ _ _, Function.update_self _ _ _⟩
    (Function.update_self _ _ _)
    (fun x hx => ⟨hframe x fun y hy => h.ne_of_elsewhere hq hx hy, ?_⟩) ?_ fun b hb => ?_
  · exact fun hmem => hx.ne_head (List.mem_singleton.mp hmem)
  · exact fun j hj => (Function.update_of_ne hj _ _).trans (Function.update_of_ne hj _ _)
  · have hfree := h.free b hb
    obtain ⟨hnext, hprev⟩ := hframe (.skb b) fun y hy => hfree.ne_of_mem hq hy
    obtain ⟨hnull, hnull'⟩ := h.unlinked b hb
    exact ⟨⟨hnext.trans hnull, hprev.trans hnull'⟩, List.not_mem_nil,
      fun j xs _ hj => hfree j xs hj⟩

/-- **Either splice**, from the ring that the new links are to be. -/
theorem Refines.splice (h : Refines s a) {r : κ} (hq : a.list q = some l)
    (hr : a.list r = some l') {p n : Ptr κ} (hp : p ∈ Ptr.head r :: l'.map .skb)
    (hn : n ∈ Ptr.head r :: l'.map .skb) {m : List SkBuff}
    (hring : l.map .skb ≠ ([] : List (Ptr κ)) → (∀ x ∈ l.map .skb, x ∉ Ptr.head r :: l'.map .skb) →
      Ring (skbQueueSplice q p n s).next (skbQueueSplice q p n s).prev (.head r) (m.map .skb))
    (hlen : m.length = l'.length + l.length) (hmem : ∀ c ∈ m, c ∈ l ∨ c ∈ l')
    (hnil : l = [] → m = l') :
    Refines (if s.next (.head q) = .head q then s
      else skbQueueHeadInit q (addQlen q r (skbQueueSplice q p n s))) (a.splice q r m) := by
  by_cases hl : l = []
  · -- nothing is done
    subst hl
    rw [if_pos (h.ring hq).2.1, hnil rfl]
    unfold Queues.splice
    rw [← hr, Function.update_eq_self, ← hq, Function.update_eq_self]
    exact h
  have hne : l.map .skb ≠ ([] : List (Ptr κ)) := mt List.map_eq_nil_iff.mp hl
  have hfirst := (h.ring hq).2.first_mem_of_ne hne
  have hhead : s.next (.head q) ≠ .head q := fun heq =>
    (List.nodup_cons.mp (h.ring hq).1).1 (by rwa [heq] at hfirst)
  rw [if_neg hhead]
  by_cases hqr : q = r
  · subst hqr
    obtain rfl := Option.some.inj (hq.symm.trans hr)
    exact h.splice_self hq hp hn m
  · refine h.splice_ne hqr hq hr hp hn (hring hne fun x hx hx' => ?_) hlen hmem
    exact h.ne_of_elsewhere hr ⟨q, l, hqr, hq, List.mem_cons_of_mem _ hx⟩ hx' rfl

theorem Refines.spliceInit (h : Refines s a) {r : κ} (hq : a.list q = some l)
    (hr : a.list r = some l') :
    Refines (skbQueueSpliceInit q r s) (a.splice q r (l ++ l')) := by
  refine h.splice hq hr List.mem_cons_self ((h.ring hr).next_mem List.mem_cons_self).1
    (fun hne hdisj => ?_) ?_ (fun c hc => List.mem_append.mp hc)
    fun hl => by rw [hl, List.nil_append]
  · rw [List.map_append]
    exact (h.ring hr).spliceFirst (h.ring hq) hne hdisj
  · rw [List.length_append, Nat.add_comm]

theorem Refines.spliceTailInit (h : Refines s a) {r : κ} (hq : a.list q = some l)
    (hr : a.list r = some l') :
    Refines (skbQueueSpliceTailInit q r s) (a.splice q r (l' ++ l)) := by
  refine h.splice hq hr (h.ring hr).2.prev_mem.1 List.mem_cons_self (fun hne hdisj => ?_)
    (List.length_append ..) (fun c hc => (List.mem_append.mp hc).symm)
    fun hl => by rw [hl, List.append_nil]
  rw [List.map_append]
  exact (h.ring hr).spliceLast (h.ring hq) hne hdisj

/-! ### Runs -/

/-- **Every operation** that keeps the contract has the result of that on lists, and the rings stand
for the lists again. -/
theorem step_refines (h : Refines s a) {op : Op κ} (hop : a.Allows op) {fuel : ℕ}
    (hfuel : manyBuffers < fuel) :
    ∃ t, s.step fuel op = some ((a.step op).1, t) ∧ Refines t (a.step op).2 := by
  cases op with
  | init q => exact ⟨_, rfl, h.init q⟩
  | queueHead q b =>
    obtain ⟨l, hl⟩ := Option.ne_none_iff_exists'.mp hop.1
    exact ⟨_, rfl, h.queueHead hl hop.2⟩
  | queueTail q b =>
    obtain ⟨l, hl⟩ := Option.ne_none_iff_exists'.mp hop.1
    exact ⟨_, rfl, h.queueTail hl hop.2⟩
  | queueAfter q prev b =>
    obtain ⟨l, hl⟩ := Option.ne_none_iff_exists'.mp hop.1
    exact ⟨_, rfl, h.queueAfter hl hop.2.1 fun c hc => hop.2.2 c l hc hl⟩
  | dequeue q =>
    obtain ⟨l, hl⟩ := Option.ne_none_iff_exists'.mp hop
    cases l with
    | nil =>
      refine ⟨s, ?_, ?_⟩
      · simp only [State.step, Queues.step, dequeue_nil h hl, hl, Option.getD_some]
      · simp only [Queues.step, hl, Option.getD_some]
        exact h
    | cons b l =>
      refine ⟨skbUnlink (.skb b) q s, ?_, ?_⟩
      · simp only [State.step, Queues.step, dequeue_cons h hl, hl, Option.getD_some]
      · simp only [Queues.step, hl, Option.getD_some]
        exact h.unlink hl
  | peek q =>
    obtain ⟨l, hl⟩ := Option.ne_none_iff_exists'.mp hop
    cases l with
    | nil =>
      refine ⟨s, ?_, ?_⟩
      · simp only [State.step, Queues.step, peek_nil h hl, hl, Option.getD_some]
      · simp only [Queues.step, hl, Option.getD_some]
        exact h
    | cons b l =>
      refine ⟨s, ?_, ?_⟩
      · simp only [State.step, Queues.step, peek_cons h hl, hl, Option.getD_some]
      · simp only [Queues.step, hl, Option.getD_some]
        exact h
  | spliceInit q r =>
    obtain ⟨l, hl⟩ := Option.ne_none_iff_exists'.mp hop.1
    obtain ⟨l', hl'⟩ := Option.ne_none_iff_exists'.mp hop.2
    refine ⟨_, rfl, ?_⟩
    have hsplice := h.spliceInit hl hl'
    simp only [Queues.step, hl, hl', Option.getD_some]
    exact hsplice
  | spliceTailInit q r =>
    obtain ⟨l, hl⟩ := Option.ne_none_iff_exists'.mp hop.1
    obtain ⟨l', hl'⟩ := Option.ne_none_iff_exists'.mp hop.2
    refine ⟨_, rfl, ?_⟩
    have hsplice := h.spliceTailInit hl hl'
    simp only [Queues.step, hl, hl', Option.getD_some]
    exact hsplice
  | purge q =>
    obtain ⟨l, hl⟩ := Option.ne_none_iff_exists'.mp hop
    obtain ⟨t, ht, href⟩ := h.purge hl (Nat.lt_of_le_of_lt (h.length_le hl) hfuel)
    refine ⟨t, ?_, href⟩
    simp only [Queues.step, hl, Option.getD_some]
    exact ht

theorem run_refines (h : Refines s a) {ops : List (Op κ)} (hops : a.AllowsAll ops) {fuel : ℕ}
    (hfuel : manyBuffers < fuel) :
    ∃ t, s.run fuel ops = some ((a.run ops).1, t) ∧ Refines t (a.run ops).2 := by
  induction ops generalizing s a with
  | nil => exact ⟨s, rfl, h⟩
  | cons op ops ih =>
    obtain ⟨hop, hops⟩ := hops
    obtain ⟨u, hu, href⟩ := step_refines h hop hfuel
    obtain ⟨t, ht, href'⟩ := ih href hops
    refine ⟨t, ?_, href'⟩
    rw [State.run, hu, Option.bind_some, ht]
    rfl

/-- **The queues refine lists**: a sequence of operations that keeps the contract ends, returns what
the operations on lists return, and leaves rings that stand for the lists: their links lead through
the buffers in order, and back; the counters are the lengths; and the buffers that have been
dequeued have null links. -/
theorem queues_refine (s : State κ) (ops : List (Op κ)) (hops : Queues.none.AllowsAll ops)
    {fuel : ℕ} (hfuel : manyBuffers < fuel) :
    ∃ t, s.run fuel ops = some ((Queues.none.run ops).1, t) ∧
      (∀ q l, (Queues.none.run ops).2.list q = some l →
        Ring t.next t.prev (.head q) (l.map .skb) ∧ (t.qlen q).toInt = l.length ∧
          ∀ x ∈ Ptr.head q :: l.map .skb, t.prev (t.next x) = x ∧ t.next (t.prev x) = x) ∧
      ∀ b, (Queues.none.run ops).2.out b = true →
        t.next (.skb b) = .null ∧ t.prev (.skb b) = .null := by
  obtain ⟨t, ht, href⟩ := run_refines (refines_none s) hops hfuel
  exact ⟨t, ht, fun q l hl => ⟨href.ring hl, href.qlen_toInt hl,
    fun x hx => (href.ring hl).inverse hx⟩, href.unlinked⟩

/-! ### A run -/

def bufA : SkBuff := ⟨0x1000, by decide⟩

def bufB : SkBuff := ⟨0x2000, by decide⟩

/-- Two queues; a buffer is queued behind another, they go to the other queue, and one is dequeued.
-/
def twoQueues : List (Op Bool) :=
  [.init false, .init true, .queueTail false bufA, .queueAfter false (some bufA) bufB,
    .spliceTailInit false true, .dequeue true]

theorem twoQueues_allowed : (Queues.none : Queues Bool).AllowsAll twoQueues := by
  refine ⟨trivial, trivial, ⟨Option.some_ne_none _, ?_⟩, ⟨Option.some_ne_none _, ?_, ?_⟩,
    ⟨Option.some_ne_none _, Option.some_ne_none _⟩, Option.some_ne_none _, trivial⟩
  · rintro (_ | _) l h <;> obtain rfl := Option.some.inj h <;> exact List.not_mem_nil
  · rintro (_ | _) l h <;> obtain rfl := Option.some.inj h
    · decide
    · exact List.not_mem_nil
  · rintro c l hc h
    obtain rfl := Option.some.inj hc
    obtain rfl := Option.some.inj h
    exact List.mem_singleton_self _

theorem queues_refine_two :
    ∃ t, State.run (manyBuffers + 1) ⟨fun _ => .null, fun _ => .null, fun _ => 0⟩ twoQueues =
        some ([[], [], [], [], [], [.skb bufA]], t) ∧
      Ring t.next t.prev (.head true) [.skb bufB] ∧ t.next (.skb bufA) = .null := by
  obtain ⟨t, ht, hrings, hout⟩ := queues_refine ⟨fun _ => .null, fun _ => .null, fun _ => 0⟩
    twoQueues twoQueues_allowed (Nat.lt_succ_self manyBuffers)
  exact ⟨t, ht, (hrings true [bufB] rfl).1, (hout bufA rfl).1⟩

end Atbm6441.Os.Skb
