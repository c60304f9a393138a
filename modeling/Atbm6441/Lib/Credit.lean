import Mathlib.Data.List.Basic
import Mathlib.Data.List.Pairwise
import Mathlib.Tactic.Common

/-!
# Credit-based flow control

A sender may have `cap` messages outstanding. The receiver announces, from time to time, how many
messages it has consumed; the sender reads the announcements in order, may skip some, and may take
up the last one it has read (`refresh`) at any time. With unbounded counters the sender never has
more than `cap` messages outstanding (`Credit.Ok.outstanding_le`): every operation keeps `Ok`.
-/

namespace Atbm6441.Lib

/-- The counters of a sender and its receiver. -/
structure Credit where
  /-- How many messages may be outstanding. -/
  cap : ℕ
  /-- The consumption that the sender has taken up. -/
  granted : ℕ
  /-- The consumption that the sender has read last. -/
  seen : ℕ
  /-- The announcements on their way. -/
  pending : List ℕ
  sent : ℕ
  delivered : ℕ
  consumed : ℕ

namespace Credit

variable (c : Credit)

/-- The messages that may still be sent. -/
def free : ℕ := c.cap + c.granted - c.sent

def refresh : Credit := { c with granted := c.seen }

def send : Credit := { c with sent := c.sent + 1 }

def deliver (n : ℕ) : Credit := { c with delivered := c.delivered + n }

def consume : Credit := { c with consumed := c.consumed + 1 }

def announce : Credit := { c with pending := c.pending ++ [c.consumed] }

def read (k : ℕ) (ks : List ℕ) : Credit := { c with seen := k, pending := ks }

def skip (ks : List ℕ) : Credit := { c with pending := ks }

/-- **The invariant**: announcements come in order and are true, and what has been sent is covered
by what has been taken up. -/
structure Ok : Prop where
  granted_le : c.granted ≤ c.seen
  sorted : (c.seen :: c.pending ++ [c.consumed]).Pairwise (· ≤ ·)
  consumed_le : c.consumed ≤ c.delivered
  delivered_le : c.delivered ≤ c.sent
  sent_le : c.sent ≤ c.cap + c.granted

variable {c}

theorem ok_start (cap : ℕ) : Ok ⟨cap, 0, 0, [], 0, 0, 0⟩ :=
  ⟨Nat.le_refl 0, by simp, Nat.le_refl 0, Nat.le_refl 0, Nat.zero_le _⟩

namespace Ok

theorem seen_le (h : c.Ok) : c.seen ≤ c.consumed :=
  (List.pairwise_cons.mp h.sorted).1 _ (List.mem_append_right _ (List.mem_singleton.mpr rfl))

theorem refresh (h : c.Ok) : c.refresh.Ok :=
  ⟨Nat.le_refl _, h.sorted, h.consumed_le, h.delivered_le,
    Nat.le_trans h.sent_le (Nat.add_le_add_left h.granted_le _)⟩

theorem send (h : c.Ok) (hfree : 0 < c.free) : c.send.Ok :=
  ⟨h.granted_le, h.sorted, h.consumed_le, Nat.le_succ_of_le h.delivered_le, by
    unfold free at hfree
    show c.sent + 1 ≤ c.cap + c.granted
    omega⟩

theorem deliver (h : c.Ok) {n : ℕ} (hn : c.delivered + n ≤ c.sent) : (c.deliver n).Ok :=
  ⟨h.granted_le, h.sorted, Nat.le_trans h.consumed_le (Nat.le_add_right _ _), hn, h.sent_le⟩

theorem consume (h : c.Ok) (hc : c.consumed < c.delivered) : c.consume.Ok := by
  refine ⟨h.granted_le, ?_, hc, h.delivered_le, h.sent_le⟩
  have hs := List.pairwise_append.mp h.sorted
  refine List.pairwise_append.mpr ⟨hs.1, List.pairwise_singleton _ _, fun a ha b hb => ?_⟩
  have := hs.2.2 a ha c.consumed (List.mem_singleton.mpr rfl)
  rw [List.mem_singleton.mp hb]
  exact Nat.le_succ_of_le this

theorem announce (h : c.Ok) : c.announce.Ok := by
  refine ⟨h.granted_le, ?_, h.consumed_le, h.delivered_le, h.sent_le⟩
  show (c.seen :: (c.pending ++ [c.consumed]) ++ [c.consumed]).Pairwise (· ≤ ·)
  refine List.pairwise_append.mpr ⟨h.sorted, List.pairwise_singleton _ _, fun a ha b hb => ?_⟩
  rw [List.mem_singleton.mp hb]
  rcases List.mem_append.mp (show a ∈ c.seen :: c.pending ++ [c.consumed] from ha) with ha' | ha'
  · exact (List.pairwise_append.mp h.sorted).2.2 a ha' _ (List.mem_singleton.mpr rfl)
  · exact Nat.le_of_eq (List.mem_singleton.mp ha')

theorem read (h : c.Ok) {k : ℕ} {ks : List ℕ} (hp : c.pending = k :: ks) : (c.read k ks).Ok := by
  have hs := h.sorted
  rw [hp] at hs
  obtain ⟨hle, hs⟩ := List.pairwise_cons.mp hs
  have hk : c.seen ≤ k := hle k (List.mem_append_left _ List.mem_cons_self)
  exact ⟨Nat.le_trans h.granted_le hk, hs, h.consumed_le, h.delivered_le, h.sent_le⟩

theorem skip (h : c.Ok) {k : ℕ} {ks : List ℕ} (hp : c.pending = k :: ks) : (c.skip ks).Ok := by
  have hs := h.sorted
  rw [hp] at hs
  obtain ⟨hle, hs⟩ := List.pairwise_cons.mp hs
  refine ⟨h.granted_le, List.pairwise_cons.mpr ⟨fun a ha => hle a ?_, (List.pairwise_cons.mp hs).2⟩,
    h.consumed_le, h.delivered_le, h.sent_le⟩
  exact List.mem_cons_of_mem k ha

/-- **Never more than `cap` messages are outstanding**. -/
theorem outstanding_le (h : c.Ok) : c.sent ≤ c.consumed + c.cap := by
  have := h.sent_le
  have := h.granted_le
  have := h.seen_le
  omega

/-- What may still be sent and what is outstanding fit in `cap`. -/
theorem free_add_le (h : c.Ok) : c.free + (c.sent - c.consumed) ≤ c.cap := by
  have := h.sent_le
  have := h.granted_le
  have := h.seen_le
  have := h.consumed_le
  have := h.delivered_le
  unfold free
  omega

end Ok

end Credit

end Atbm6441.Lib
