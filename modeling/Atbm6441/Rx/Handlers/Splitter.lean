import Atbm6441.Rx.Handlers.Access
import Mathlib.Computability.StateTransition

/-!
# What the A-MSDU splitter reads

The loop of `atbm_ieee80211_amsdu_to_8023s` one round at a time, with the bytes it reads: the header
of a subframe before it tests how many bytes remain, and 8 bytes for the LLC header whatever the
length of the subframe. Behind the end of the frame lies memory of any content.

* `split_run` : the loop ends on every byte string, with the result of `amsduTo8023sLoop`;
* `readsInside_iff` : the byte strings on which it reads inside the frame only.
-/

namespace Atbm6441.Rx.Handlers

open Atbm6441.Ieee80211 Atbm6441.Ether StateTransition

/-! ### The loop -/

/-- A read of `need` bytes where `left` bytes are left. -/
structure Read where
  need : ℕ
  left : ℕ

def Read.Inside (r : Read) : Prop := r.need ≤ r.left

/-- The loop with `n` copies made and the buffer `skb`, or the value that the function returns. -/
inductive Splitter
  | loop (n : ℕ) (skb : List UInt8) (reads : List Read)
  | out (ret : ℤ) (reads : List Read)

/-- **A round of the loop**; `mem` is what lies in memory behind the frame. -/
def Splitter.step (alloc : ℕ → Bool) (mem : List UInt8) : Splitter → Option Splitter
  | .out _ _ => none
  | .loop n skb reads =>
    let eth := skb ++ mem
    let remaining := skb.length
    let reads := reads ++ [⟨14, remaining⟩]
    if remaining < subframeLen eth then some (.out (-1) reads)
    else if etherAddrAt eth 0 ≠ rfc1042Header then some (.out (-1) reads)
    else if remaining ≤ subframeLen eth + padding eth then
      some (.out 0 (reads ++ [⟨8, remaining - 14⟩]))
    else if ¬ alloc n then some (.out (-1) reads)
    else
      -- the payload is copied, and the LLC header read in the copy
      some (.loop (n + 1) (skb.drop (subframeLen eth + padding eth))
        (reads ++ [⟨be16At eth 12, remaining - 14⟩, ⟨8, be16At eth 12⟩]))

/-- **The loop ends, and reads inside the frame only.** -/
def ReadsInside (alloc : ℕ → Bool) (mem d : List UInt8) : Prop :=
  ∃ ret reads, Splitter.out ret reads ∈ eval (Splitter.step alloc mem) (.loop 0 d []) ∧
    ∀ r ∈ reads, r.Inside

/-- **The byte strings that are safe to split**, with `n` copies made: subframes to the RFC1042
header with at least 8 bytes, and then a complete header of a subframe that is refused, a copy that
cannot be made, or a last subframe with 8 bytes behind its header. -/
inductive Framed (alloc : ℕ → Bool) : ℕ → List UInt8 → Prop
  | refused {n : ℕ} {d : List UInt8} (header : 14 ≤ d.length)
      (bad : d.length < subframeLen d ∨ etherAddrAt d 0 ≠ rfc1042Header) : Framed alloc n d
  | last {n : ℕ} {d : List UInt8} (llc : 14 + 8 ≤ d.length) (fits : subframeLen d ≤ d.length)
      (rest : d.length ≤ subframeLen d + padding d) : Framed alloc n d
  | uncopied {n : ℕ} {d : List UInt8} (rest : subframeLen d + padding d < d.length)
      (failed : alloc n = false) : Framed alloc n d
  | more {n : ℕ} {d : List UInt8} (llc : 8 ≤ be16At d 12)
      (rest : subframeLen d + padding d < d.length)
      (next : Framed alloc (n + 1) (d.drop (subframeLen d + padding d))) : Framed alloc n d

/-! ### A round -/

variable {alloc : ℕ → Bool} {mem d : List UInt8} {n : ℕ} {reads : List Read}

theorem le_subframeLen (d : List UInt8) : 14 ≤ subframeLen d := Nat.le_add_right 14 _

theorem header_append (h : 14 ≤ d.length) (mem : List UInt8) :
    be16At (d ++ mem) 12 = be16At d 12 ∧ etherAddrAt (d ++ mem) 0 = etherAddrAt d 0 ∧
      subframeLen (d ++ mem) = subframeLen d ∧ padding (d ++ mem) = padding d := by
  have hat : ∀ i < 14, (d ++ mem).getD i 0 = d.getD i 0 := fun i hi => by
    rw [List.getD_eq_getElem?_getD, List.getElem?_append_left (by omega),
      ← List.getD_eq_getElem?_getD]
  have hlen : be16At (d ++ mem) 12 = be16At d 12 := by
    unfold be16At byteAt
    rw [hat 12 (by omega), hat 13 (by omega)]
  have hsub : subframeLen (d ++ mem) = subframeLen d := by
    unfold subframeLen
    rw [hlen]
  refine ⟨hlen, List.map_congr_left fun i hi => hat (0 + i) ?_, hsub, ?_⟩
  · have := List.mem_range.mp hi
    omega
  · unfold padding
    rw [hsub]

/-- What a run from `skb` on does: it ends, its result is that of `amsduTo8023sLoop`, and what it
reads is inside exactly if the bytes are safe to split. -/
def Runs (alloc : ℕ → Bool) (mem : List UInt8) (n : ℕ) (d : List UInt8) : Prop :=
  ∀ reads, ∃ ret new, Splitter.out ret (reads ++ new) ∈
      eval (Splitter.step alloc mem) (.loop n d reads) ∧
    (ret = 0 ↔ ∃ l, amsduTo8023sLoop alloc n d = some l) ∧
    ((∀ r ∈ new, r.Inside) ↔ Framed alloc n d)

theorem eval_out {s : Splitter} {ret : ℤ} {new : List Read}
    (h : s.step alloc mem = some (.out ret new)) :
    Splitter.out ret new ∈ eval (Splitter.step alloc mem) s :=
  mem_eval.mpr ⟨.single h, rfl⟩

theorem Runs.of_out (ret : ℤ) (new : List Read)
    (h : ∀ reads, Splitter.step alloc mem (.loop n d reads) = some (.out ret (reads ++ new)))
    (hret : ret = 0 ↔ ∃ l, amsduTo8023sLoop alloc n d = some l)
    (hin : (∀ r ∈ new, r.Inside) ↔ Framed alloc n d) : Runs alloc mem n d :=
  fun reads => ⟨ret, new, eval_out (h reads), hret, hin⟩

theorem step_short (h : d.length < 14) : Splitter.step alloc mem (.loop n d reads) =
    some (.out (-1) (reads ++ [⟨14, d.length⟩])) :=
  if_pos (Nat.lt_of_lt_of_le h (le_subframeLen _))

theorem runs_short (h : d.length < 14) : Runs alloc mem n d := by
  have hmin := le_subframeLen d
  refine Runs.of_out (-1) [⟨14, d.length⟩] (fun reads => step_short h) ?_ ?_
  · rw [amsduTo8023sLoop, if_pos (Nat.lt_of_lt_of_le h hmin)]
    exact iff_of_false (by decide) (by simp)
  · refine iff_of_false (fun hin => ?_) fun hframed => ?_
    · have := hin _ (List.mem_singleton_self _)
      unfold Read.Inside at this
      dsimp only at this
      omega
    · cases hframed <;> omega

theorem runs_refused (h : 14 ≤ d.length)
    (hbad : d.length < subframeLen d ∨ etherAddrAt d 0 ≠ rfc1042Header) : Runs alloc mem n d := by
  obtain ⟨-, hdst, hsub, hpad⟩ := header_append h mem
  refine Runs.of_out (-1) [⟨14, d.length⟩] (fun reads => ?_) ?_ ?_
  · simp only [Splitter.step, hdst, hsub, hpad]
    by_cases hlen : d.length < subframeLen d
    · rw [if_pos hlen]
    · rw [if_neg hlen, if_pos (hbad.resolve_left hlen)]
  · rw [amsduTo8023sLoop]
    refine iff_of_false (by decide) ?_
    rcases hbad with hbad | hbad
    · rw [if_pos hbad]
      simp
    · rw [if_pos hbad, ite_self]
      simp
  · refine iff_of_true (fun r hr => ?_) (.refused h hbad)
    obtain rfl := List.mem_singleton.mp hr
    exact h

section Accepted

variable (hfits : ¬ d.length < subframeLen d) (hdst : ¬ etherAddrAt d 0 ≠ rfc1042Header)
include hfits hdst

theorem runs_last (hrest : d.length ≤ subframeLen d + padding d) : Runs alloc mem n d := by
  have hmin := le_subframeLen d
  obtain ⟨-, hdst', hsub, hpad⟩ := header_append (d := d) (by omega) mem
  refine Runs.of_out 0 [⟨14, d.length⟩, ⟨8, d.length - 14⟩] (fun reads => ?_) ?_ ?_
  · simp only [Splitter.step, hdst', hsub, hpad]
    rw [if_neg hfits, if_neg hdst, if_pos hrest, List.append_assoc]
    rfl
  · rw [amsduTo8023sLoop, if_neg hfits, if_neg hdst, if_pos hrest]
    exact iff_of_true rfl ⟨_, rfl⟩
  · constructor
    · intro hin
      have hllc := hin ⟨8, d.length - 14⟩ (by simp)
      unfold Read.Inside at hllc
      dsimp only at hllc
      exact .last (by omega) (by omega) hrest
    · intro hframed
      have hllc : 14 + 8 ≤ d.length := by
        rcases hframed with ⟨-, hbad⟩ | ⟨hllc, -, -⟩ | ⟨hmore, -⟩ | ⟨-, hmore, -⟩
        · exact absurd (hbad.resolve_left hfits) hdst
        · exact hllc
        · omega
        · omega
      intro r hr
      simp only [List.mem_cons, List.not_mem_nil, or_false] at hr
      rcases hr with rfl | rfl
      · show 14 ≤ d.length
        omega
      · show 8 ≤ d.length - 14
        omega

variable (hrest : ¬ d.length ≤ subframeLen d + padding d)
include hrest

theorem runs_uncopied (hcopy : ¬ alloc n = true) : Runs alloc mem n d := by
  have hmin := le_subframeLen d
  obtain ⟨-, hdst', hsub, hpad⟩ := header_append (d := d) (by omega) mem
  refine Runs.of_out (-1) [⟨14, d.length⟩] (fun reads => ?_) ?_ ?_
  · simp only [Splitter.step, hdst', hsub, hpad]
    rw [if_neg hfits, if_neg hdst, if_neg hrest, if_pos hcopy]
  · rw [amsduTo8023sLoop, if_neg hfits, if_neg hdst, if_neg hrest, if_pos hcopy]
    exact iff_of_false (by decide) (by simp)
  · refine iff_of_true (fun r hr => ?_)
      (.uncopied (Nat.lt_of_not_le hrest) (Bool.not_eq_true _ ▸ hcopy))
    obtain rfl := List.mem_singleton.mp hr
    show 14 ≤ d.length
    omega

theorem runs_more (hcopy : alloc n = true)
    (hnext : Runs alloc mem (n + 1) (d.drop (subframeLen d + padding d))) :
    Runs alloc mem n d := by
  have hmin := le_subframeLen d
  have hlen : subframeLen d = 14 + be16At d 12 := rfl
  obtain ⟨hbe, hdst', hsub, hpad⟩ := header_append (d := d) (by omega) mem
  intro reads
  obtain ⟨ret, new, hrun, hret, hin⟩ := hnext
    (reads ++ [⟨14, d.length⟩] ++ [⟨be16At d 12, d.length - 14⟩, ⟨8, be16At d 12⟩])
  have hloop : amsduTo8023sLoop alloc n d =
      (amsduTo8023sLoop alloc (n + 1) (d.drop (subframeLen d + padding d))).map fun l =>
        (.copy n, subframeTo8023 d ((d.drop 14).take (be16At d 12))) :: l := by
    rw [amsduTo8023sLoop, if_neg hfits, if_neg hdst, if_neg hrest, if_neg (not_not.mpr hcopy)]
  refine ⟨ret, [⟨14, d.length⟩] ++ ([⟨be16At d 12, d.length - 14⟩, ⟨8, be16At d 12⟩] ++ new),
    ?_, ?_, ?_⟩
  · have hstep : Splitter.step alloc mem (.loop n d reads) =
        some (.loop (n + 1) (d.drop (subframeLen d + padding d)) (reads ++ [⟨14, d.length⟩] ++
          [⟨be16At d 12, d.length - 14⟩, ⟨8, be16At d 12⟩])) := by
      simp only [Splitter.step, hbe, hdst', hsub, hpad]
      rw [if_neg hfits, if_neg hdst, if_neg hrest, if_neg (not_not.mpr hcopy)]
    rw [reaches_eval (.single (Option.mem_def.mpr hstep))]
    simpa only [List.append_assoc] using hrun
  · rw [hret, hloop]
    constructor
    · rintro ⟨l, hl⟩
      exact ⟨_, by rw [hl, Option.map_some]⟩
    · rintro ⟨l, hl⟩
      obtain ⟨l', hl', -⟩ := Option.map_eq_some_iff.mp hl
      exact ⟨l', hl'⟩
  · constructor
    · intro hall
      have hllc := hall ⟨8, be16At d 12⟩ (by simp)
      exact .more hllc (Nat.lt_of_not_le hrest)
        (hin.mp fun r hr => hall r (List.mem_append_right _ (List.mem_append_right _ hr)))
    · intro hframed
      have hmore : 8 ≤ be16At d 12 ∧
          Framed alloc (n + 1) (d.drop (subframeLen d + padding d)) := by
        rcases hframed with ⟨-, hbad⟩ | ⟨-, -, hlast⟩ | ⟨-, hfail⟩ | ⟨hllc, -, hnext⟩
        · exact absurd (hbad.resolve_left hfits) hdst
        · exact absurd hlast hrest
        · rw [hcopy] at hfail
          cases hfail
        · exact ⟨hllc, hnext⟩
      intro r hr
      simp only [List.mem_append, List.mem_cons, List.not_mem_nil, or_false] at hr
      rcases hr with rfl | (rfl | rfl) | hr
      · show 14 ≤ d.length
        omega
      · show be16At d 12 ≤ d.length - 14
        omega
      · exact hmore.1
      · exact hin.mpr hmore.2 r hr

end Accepted

/-- **Every run ends**, by induction on the length of the buffer. -/
theorem split_run (alloc : ℕ → Bool) (mem : List UInt8) (n : ℕ) (d : List UInt8) :
    Runs alloc mem n d := by
  by_cases hheader : d.length < 14
  · exact runs_short hheader
  by_cases hbad : d.length < subframeLen d ∨ etherAddrAt d 0 ≠ rfc1042Header
  · exact runs_refused (Nat.le_of_not_lt hheader) hbad
  obtain ⟨hfits, hdst⟩ := not_or.mp hbad
  by_cases hrest : d.length ≤ subframeLen d + padding d
  · exact runs_last hfits hdst hrest
  by_cases hcopy : alloc n = true
  · exact runs_more hfits hdst hrest hcopy (split_run alloc mem (n + 1) _)
  · exact runs_uncopied hfits hdst hrest hcopy
termination_by d.length
decreasing_by
  simp only [List.length_drop]
  have hmin := le_subframeLen d
  omega

/-- **The loop ends, and reads inside the frame only**, exactly on the byte strings that are safe to
split. -/
theorem readsInside_iff (alloc : ℕ → Bool) (mem d : List UInt8) :
    ReadsInside alloc mem d ↔ Framed alloc 0 d := by
  obtain ⟨ret, new, hrun, -, hin⟩ := split_run alloc mem 0 d []
  rw [← hin]
  constructor
  · rintro ⟨ret', reads', hrun', hall⟩
    have heq := Part.mem_unique hrun hrun'
    rw [List.nil_append, Splitter.out.injEq] at heq
    obtain ⟨-, rfl⟩ := heq
    exact hall
  · intro hall
    rw [List.nil_append] at hrun
    exact ⟨ret, new, hrun, hall⟩

/-- **A frame of 3 bytes**: the loop reads a header of 14 bytes. -/
theorem splitter_overread : Splitter.out (-1) [⟨14, 3⟩] ∈
    eval (Splitter.step (fun _ => true) []) (.loop 0 [1, 2, 3] []) ∧
    ¬ ReadsInside (fun _ => true) [] [1, 2, 3] := by
  have hrun : Splitter.out (-1) [⟨14, 3⟩] ∈
      eval (Splitter.step (fun _ => true) []) (.loop 0 [1, 2, 3] []) :=
    eval_out (step_short (by decide))
  refine ⟨hrun, ?_⟩
  rintro ⟨ret, reads, hrun', hall⟩
  have heq := Part.mem_unique hrun hrun'
  rw [Splitter.out.injEq] at heq
  obtain ⟨-, rfl⟩ := heq
  have := hall _ (List.mem_singleton_self _)
  revert this
  unfold Read.Inside
  decide

end Atbm6441.Rx.Handlers
