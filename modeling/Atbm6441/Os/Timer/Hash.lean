import Atbm6441.Os.Timer.Model

/-!
# The hash table of the timers

`Wf tab L` : the chain of each index leads through the timers of a list, and no timer is in two of
them. A timer is put in and taken out (`Wf.add`, `Wf.delBytimer`), and a handle is looked up
(`Wf.get`).
-/

namespace Atbm6441.Os.Timer

open Atbm6441.Lib

universe u

variable {T : Type u} {tab : Hash T} {L : ℕ → List T} {t : T} {handle : ℕ}

namespace Hash

/-- **The chains** lead through the timers of the lists. -/
structure Wf (tab : Hash T) (L : ℕ → List T) : Prop where
  chain : ∀ i, Chain tab.hnext (tab.head i) (L i)
  once : ∀ i j t, t ∈ L i → t ∈ L j → i = j
  length : ∀ i, (L i).length ≤ tab.adds

/-- **A handle is looked up** in the list of its index. -/
theorem Wf.get (h : Wf tab L) (hander : T → ℕ) (handle : ℕ) :
    tab.get hander handle = some ((L (timerHash handle)).find? fun t => hander t = handle) :=
  (h.chain _).find_eq _ (h.length _)

variable [DecidableEq T]

omit [DecidableEq T] in
theorem mem_update {x : T} {i k : ℕ} :
    x ∈ Function.update L k (t :: L k) i ↔ x = t ∧ i = k ∨ x ∈ L i := by
  by_cases hi : i = k
  · rw [hi, Function.update_self, List.mem_cons]
    simp
  · rw [Function.update_of_ne hi]
    simp [hi]

/-- **A timer is put in.** -/
theorem Wf.add (h : Wf tab L) (ht : ∀ i, t ∉ L i) (handle : ℕ) :
    Wf (tab.add t handle)
      (Function.update L (timerHash handle) (t :: L (timerHash handle))) := by
  refine ⟨fun i => ?_, fun i j x hi hj => ?_, fun i => ?_⟩
  · show Chain (Function.update tab.hnext t (tab.head (timerHash handle)))
      (Function.update tab.head (timerHash handle) (some t) i) _
    by_cases hi : i = timerHash handle
    · rw [hi, Function.update_self, Function.update_self]
      exact (h.chain _).push (ht _)
    · rw [Function.update_of_ne hi, Function.update_of_ne hi]
      exact (h.chain i).update (ht i) _
  · rcases mem_update.mp hi with ⟨rfl, hik⟩ | hiL <;> rcases mem_update.mp hj with ⟨hx, hjk⟩ | hjL
    · rw [hik, hjk]
    · exact absurd hjL (ht j)
    · exact absurd (hx ▸ hiL) (ht i)
    · exact h.once i j x hiL hjL
  · show _ ≤ tab.adds + 1
    have hle := h.length i
    by_cases hi : i = timerHash handle
    · subst hi
      rw [Function.update_self, List.length_cons]
      omega
    · rw [Function.update_of_ne hi]
      omega

theorem Wf.write (h : Wf tab L) (ht : ∀ i, t ∉ L i) (q : Option T) :
    Wf { tab with hnext := Function.update tab.hnext t q } L :=
  ⟨fun i => (h.chain i).update (ht i) q, h.once, h.length⟩

/-- The chains without a timer, after a change of links. -/
theorem Wf.erase (h : Wf tab L) {tab' : Hash T}
    (hchain : ∀ i, Chain tab'.hnext (tab'.head i) ((L i).erase t)) (hadds : tab'.adds = tab.adds) :
    Wf tab' fun i => (L i).erase t := by
  refine ⟨hchain, fun i j x hi hj => ?_, fun i => ?_⟩
  · exact h.once i j x (List.mem_of_mem_erase hi) (List.mem_of_mem_erase hj)
  · have hle := h.length i
    have hle' := List.length_erase_le (a := t) (l := L i)
    rw [hadds]
    omega

theorem Wf.delBytimer_head (h : Wf tab L) (hother : ∀ i, i ≠ timerHash handle → t ∉ L i)
    (hhead : tab.head (timerHash handle) = some t) :
    ∃ tab', tab.delBytimer t handle = some tab' ∧ Wf tab' fun i => (L i).erase t := by
  have hchain := h.chain (timerHash handle)
  rw [hhead] at hchain
  refine ⟨{ tab with head := Function.update tab.head (timerHash handle) (tab.hnext t) }, ?_,
    h.erase (fun i => ?_) rfl⟩
  · simp only [Hash.delBytimer, hhead, if_true]
  · show Chain tab.hnext (Function.update tab.head _ (tab.hnext t) i) _
    by_cases hi : i = timerHash handle
    · rw [hi, Function.update_self]
      exact hchain.remove_head
    · rw [Function.update_of_ne hi, List.erase_of_not_mem (hother i hi)]
      exact h.chain i

theorem Wf.delBytimer_mem (h : Wf tab L) (hother : ∀ i, i ≠ timerHash handle → t ∉ L i) {p : T}
    (hhead : tab.head (timerHash handle) = some p) (hpt : p ≠ t) (hmem : t ∈ L (timerHash handle)) :
    ∃ tab', tab.delBytimer t handle = some tab' ∧ Wf tab' fun i => (L i).erase t := by
  have hchain := h.chain (timerHash handle)
  rw [hhead] at hchain
  have hloop := hchain.find_eq (isBefore tab.hnext t) (h.length (timerHash handle))
  obtain ⟨q, hfind, hq, hqL, hqt, hdel⟩ := hchain.remove_after hmem hpt
  rw [hfind] at hloop
  refine ⟨{ tab with hnext :=
      Function.update (Function.update tab.hnext q (tab.hnext t)) t none }, ?_,
    h.erase (fun i => ?_) rfl⟩
  · simp only [Hash.delBytimer, hhead, if_neg hpt, hloop, Option.map_some]
    rw [if_pos (by simp [hq])]
  · show Chain _ (tab.head i) _
    by_cases hi : i = timerHash handle
    · rw [hi, hhead]
      exact hdel.update (fun hin => (hchain.nodup.mem_erase_iff.mp hin).1 rfl) _
    · rw [List.erase_of_not_mem (hother i hi)]
      exact ((h.chain i).update (fun hin => hi (h.once i _ q hin hqL)) _).update (hother i hi) _

theorem Wf.delBytimer_not_mem (h : Wf tab L) (hnot : ∀ i, t ∉ L i) :
    ∃ tab', tab.delBytimer t handle = some tab' ∧ Wf tab' fun i => (L i).erase t := by
  have hchain := h.chain (timerHash handle)
  have herase : ∀ i, (L i).erase t = L i := fun i => List.erase_of_not_mem (hnot i)
  rcases hhead : tab.head (timerHash handle) with _ | p <;> rw [hhead] at hchain
  · refine ⟨tab, by simp only [Hash.delBytimer, hhead], h.erase (fun i => ?_) rfl⟩
    rw [herase]
    exact h.chain i
  have hloop := hchain.find_eq (isBefore tab.hnext t) (h.length (timerHash handle))
  have hpt : p ≠ t := fun heq => by
    obtain ⟨l, hl, -⟩ := hchain.exists_cons
    exact hnot (timerHash handle) (by rw [hl, heq]; exact List.mem_cons_self)
  have hlast : ∀ q, (L (timerHash handle)).find? (isBefore tab.hnext t) = some q →
      tab.hnext q = none := fun q hq => by
    have hbefore := List.find?_some hq
    rw [isBefore, decide_eq_true_eq] at hbefore
    exact hbefore.resolve_right fun hnext =>
      hnot _ (hchain.next_mem (List.mem_of_find?_eq_some hq) hnext)
  refine ⟨{ tab with hnext := Function.update tab.hnext t none }, ?_,
    h.erase (fun i => ?_) rfl⟩
  · simp only [Hash.delBytimer, hhead, if_neg hpt, hloop, Option.map_some]
    rcases hfind : (L (timerHash handle)).find? (isBefore tab.hnext t) with _ | q
    · rfl
    · dsimp only
      rw [if_neg (not_not.mpr (hlast q hfind))]
  · rw [herase]
    exact (h.chain i).update (hnot i) _

/-- **A timer is taken out**, if it is in at all. -/
theorem Wf.delBytimer (h : Wf tab L) (handle : ℕ) (ht : ∀ i, t ∈ L i → i = timerHash handle) :
    ∃ tab', tab.delBytimer t handle = some tab' ∧ Wf tab' fun i => (L i).erase t := by
  have hother : ∀ i, i ≠ timerHash handle → t ∉ L i := fun i hi hmem => hi (ht i hmem)
  by_cases hmem : t ∈ L (timerHash handle)
  swap
  · exact h.delBytimer_not_mem fun i hin => hmem (ht i hin ▸ hin)
  rcases hhead : tab.head (timerHash handle) with _ | p
  · have hchain := h.chain (timerHash handle)
    rw [hhead] at hchain
    rw [hchain.eq_nil] at hmem
    cases hmem
  · by_cases hpt : p = t
    · exact h.delBytimer_head hother (hpt ▸ hhead)
    · exact h.delBytimer_mem hother hhead hpt hmem

end Hash

end Atbm6441.Os.Timer
