import Atbm6441.Os.Timer.Steps
import Mathlib.Data.List.Count

/-!
# The start flag, the hash table and the handle

The callback does not clear `bTimerStart`, so that a timer that has expired is stopped by its old
handle.

* `right_iff` : as long as that handle is not in use again, and no armed timer is initialised, the
  flags are right exactly when no timer has expired since it was started;
* `flags_right` : so they are in runs in which no timer expires;
* `expired_stops_other` : in other runs a timer stops the handle of another.
-/

namespace Atbm6441.Os.Timer

open Atbm6441.Lib Hash

universe u v

variable {T : Type u} {F : Type v} [DecidableEq T]

/-! ### What the flag says -/

/-- **The flags are right**: a timer whose flag is set is in the table once, and no other is in. -/
def Right (s : State T F) : Prop :=
  ∃ L : ℕ → List T, (∀ i < 8, Chain s.tab.hnext (s.tab.head i) (L i)) ∧
    ∀ t, ((List.range 8).flatMap L).count t = if (s.timer t).bTimerStart then 1 else 0

/-- **A timer is stopped by its own handle**: no other timer runs by the handle of a timer whose
flag is set. -/
def OwnHandle (s : State T F) : Prop := ∀ t, StopsOwn s t

variable {s s' : Sys T F} {os os' : State T F} {L : ℕ → List T} {t : T} {handle : ℕ}

/-! ### The flags -/

omit [DecidableEq T] in
theorem timerHash_lt (handle : ℕ) : timerHash handle < 8 :=
  Nat.lt_of_le_of_lt Nat.and_le_right (by omega)

theorem Inv.count_eq (h : Inv s L) (t : T) [Decidable (Armed s.os t)] :
    ((List.range 8).flatMap L).count t = if Armed s.os t then 1 else 0 := by
  have hnodup : ((List.range 8).flatMap L).Nodup := by
    refine List.nodup_flatMap.mpr ⟨fun i _ => (h.tab.chain i).nodup, ?_⟩
    refine List.nodup_range.imp fun {i j} hij x hi hj => ?_
    exact hij (h.tab.once i j x hi hj)
  have hmem : t ∈ (List.range 8).flatMap L ↔ Armed s.os t := by
    rw [List.mem_flatMap]
    constructor
    · rintro ⟨i, -, hi⟩
      exact ((h.mem i t).mp hi).1
    · intro harmed
      exact ⟨_, List.mem_range.mpr (timerHash_lt _), (h.mem _ t).mpr ⟨harmed, rfl⟩⟩
  rw [hnodup.count]
  by_cases ht : Armed s.os t
  · rw [if_pos ht, if_pos (hmem.mpr ht)]
  · rw [if_neg ht, if_neg fun hin => ht (hmem.mp hin)]

/-- **The flags are right exactly when** each timer whose flag is set is armed. -/
theorem Inv.right_iff (h : Inv s L) :
    Right s.os ↔ ∀ t, (s.os.timer t).bTimerStart = true → Armed s.os t := by
  classical
  constructor
  · rintro ⟨L', hchain, hcount⟩ t ht
    have hsame : (List.range 8).flatMap L' = (List.range 8).flatMap L :=
      List.flatMap_congr fun i hi => (hchain i (List.mem_range.mp hi)).unique (h.tab.chain i)
    have hone := hcount t
    rw [if_pos ht, hsame, h.count_eq] at hone
    by_contra hno
    rw [if_neg hno] at hone
    omega
  · intro harmed
    refine ⟨L, fun i _ => h.tab.chain i, fun t => ?_⟩
    rw [h.count_eq]
    by_cases ht : (s.os.timer t).bTimerStart = true
    · rw [if_pos ht, if_pos (harmed t ht)]
    · rw [if_neg ht, if_neg fun hon => ht hon.1]

omit [DecidableEq T] in
theorem ownHandle (h : ∀ t, (os.timer t).bTimerStart = true → Armed os t) : OwnHandle os := by
  intro t ht n hn
  obtain ⟨-, n', hn', hown⟩ := h t ht
  rw [hn] at hn'
  exact Option.some.inj hn' ▸ hown

theorem inv_reach (h : Reach (system T F) Sound s) : ∃ L, Inv s L := by
  induction h with
  | init hs => exact ⟨_, inv_fresh hs⟩
  | step _ hsound hs ih =>
    obtain ⟨L, hinv⟩ := ih
    exact inv_step hinv hsound hs

/-- **In runs of sound steps** the flags and the handles are right exactly when each timer whose
flag is set is still armed: it has not expired since it was started. -/
theorem right_iff (h : Reach (system T F) Sound s) :
    (Right s.os ∧ OwnHandle s.os) ↔ ∀ t, (s.os.timer t).bTimerStart = true → Armed s.os t := by
  obtain ⟨L, hinv⟩ := inv_reach h
  rw [hinv.right_iff]
  exact ⟨fun hboth => hboth.1, fun harmed => ⟨harmed, ownHandle harmed⟩⟩

/-! ### Runs in which no timer expires -/

/-- No timer expires, and none whose flag is set is initialised. -/
def NoneExpires (s : Sys T F) : Act T F → Prop
  | .expire _ => False
  | .init t => (s.os.timer t).bTimerStart = false
  | _ => True

/-- **A step in which no timer expires** keeps the flags exact. -/
theorem exact_step (h : Inv s L) (hexact : Exact s) {a : Act T F} (ha : NoneExpires s a)
    (ht : s.step a = some s') : (∃ L', Inv s' L') ∧ Exact s' := by
  cases a with
  | set t f d =>
    refine ⟨inv_step (a := .set t f d) h trivial ht, ?_⟩
    obtain rfl := Option.some.inj ht
    refine hexact.of_fields rfl (fun x => ?_) (fun x => ?_) rfl
    · exact flag_update s.os t { s.os.timer t with function := some f, data := d } rfl x
    · exact hander_update s.os t { s.os.timer t with function := some f, data := d } rfl x
  | init t =>
    have ha : (s.os.timer t).bTimerStart = false := ha
    have hno : ¬ Armed s.os t := fun harmed => by
      rw [harmed.1] at ha
      cases ha
    refine ⟨inv_step (a := .init t) h hno ht, ?_⟩
    obtain ⟨-, ht⟩ := Option.ite_none_right_eq_some.mp ht
    obtain rfl := Option.some.inj ht
    exact hexact.rewrite rfl none
  | mod t timeAfter handle =>
    obtain ⟨hinv, hkeep⟩ := h.mod (fun hon => ownHandle hexact.2 t hon) ht
    exact ⟨hinv, hkeep hexact⟩
  | added =>
    exact ⟨h.added (fun hne => absurd hexact.1 hne) ht, h.added_exact hexact ht⟩
  | finish =>
    refine ⟨inv_step (a := .finish) h trivial ht, ?_⟩
    obtain ⟨-, ht⟩ := Option.ite_none_right_eq_some.mp ht
    obtain rfl := Option.some.inj ht
    exact hexact.of_fields hexact.1.symm (fun _ => rfl) (fun _ => rfl) rfl
  | del t =>
    obtain ⟨hinv, hkeep⟩ := h.del (fun hon => ownHandle hexact.2 t hon) ht
    exact ⟨hinv, hkeep hexact⟩
  | expire handle => exact ha.elim

theorem exact_reach (h : Reach (system T F) NoneExpires s) : (∃ L, Inv s L) ∧ Exact s := by
  induction h with
  | init hs =>
    refine ⟨⟨_, inv_fresh hs⟩, hs.2.2.2.2.1, fun t ht => ?_⟩
    rw [hs.1] at ht
    cases ht
  | step _ ha hs ih =>
    obtain ⟨⟨L, hinv⟩, hexact⟩ := ih
    exact exact_step hinv hexact ha hs

theorem timerOutFunc_fields (ht : os.timerOutFunc handle = some os') :
    os'.timer = os.timer ∧ os'.native = os.native := by
  unfold State.timerOutFunc at ht
  split at ht
  · cases ht
  · obtain rfl := Option.some.inj ht
    split <;> exact ⟨rfl, rfl⟩
  · next x _ =>
    obtain ⟨tab, -, rfl⟩ := Option.map_eq_some_iff.mp ht
    obtain ⟨htimer, -, hnative, -⟩ := call_eq (os.writeTab tab) x
    exact ⟨htimer, hnative⟩

/-- **A timer that expires** keeps its flag. -/
theorem Inv.expire_breaks (h : Inv s L) (hstarting : s.starting = none)
    (ht : s.step (.expire handle) = some s') : ¬ Right s'.os := by
  obtain ⟨os', hos, rfl⟩ := Option.map_eq_some_iff.mp ht
  have hsound : Sound s (.expire handle) := fun t hst => by
    rw [hstarting] at hst
    cases hst
  obtain ⟨L', hinv⟩ := h.expire hsound hos
  obtain ⟨hrun, hos⟩ := Option.ite_none_right_eq_some.mp hos
  obtain ⟨n, hn⟩ := Option.isSome_iff_exists.mp hrun
  obtain ⟨hhandle, hon | hst⟩ := h.owner handle n hn
  swap
  · rw [hstarting] at hst
    cases hst
  obtain ⟨htimer, hnative⟩ := timerOutFunc_fields hos
  intro hright
  obtain ⟨-, n', hn', -⟩ := hinv.right_iff.mp hright n.owner (by rw [htimer]; exact hon)
  have hander : os'.hander n.owner = handle := by
    unfold State.hander
    rw [htimer]
    exact hhandle
  have hgone : os'.native handle = none := by
    rw [hnative]
    show Function.update s.os.native handle none handle = none
    rw [Function.update_self]
  rw [hander, hgone] at hn'
  cases hn'

/-- **A timer that is initialised** while it is armed stays in the table. -/
theorem Inv.init_breaks (h : Inv s L) (harmed : Armed s.os t) (ht : s.step (.init t) = some s') :
    ¬ Right s'.os := by
  obtain ⟨-, ht⟩ := Option.ite_none_right_eq_some.mp ht
  obtain rfl := Option.some.inj ht
  rintro ⟨L', hchain, hcount⟩
  have hin := (h.mem _ t).mpr ⟨harmed, rfl⟩
  generalize hi : timerHash (s.os.hander t) = i at hin
  have hlt : i < 8 := hi ▸ timerHash_lt _
  have hchain' : Chain (Function.update s.os.tab.hnext t none) (s.os.tab.head i) (L' i) :=
    hchain i hlt
  have hflag : ((s.os.atbmInitTimer t).timer t).bTimerStart = false := by
    show (Function.update s.os.timer t _ t).bTimerStart = false
    rw [Function.update_self]
  have hnot : t ∉ L' i := fun hmem => by
    have hzero := hcount t
    rw [hflag] at hzero
    refine List.count_eq_zero.mp hzero ?_
    exact List.mem_flatMap.mpr ⟨i, List.mem_range.mpr hlt, hmem⟩
  -- the chain without its link would be the chain from before
  have hback := hchain'.update hnot (s.os.tab.hnext t)
  rw [Function.update_idem, Function.update_eq_self] at hback
  exact hnot (hback.unique (h.tab.chain i) ▸ hin)

/-- **The flag, the table and the handle agree in every state of a run in which no timer expires**,
and no longer after the first step of another kind, if no timer is being started. -/
theorem flags_right (h : Reach (system T F) NoneExpires s) : (Right s.os ∧ OwnHandle s.os) ∧
    ∀ a s', ¬ NoneExpires s a → s.starting = none → s.step a = some s' → ¬ Right s'.os := by
  obtain ⟨⟨L, hinv⟩, hexact⟩ := exact_reach h
  refine ⟨⟨hinv.right_iff.mpr hexact.2, ownHandle hexact.2⟩, fun a s' ha hstarting hs => ?_⟩
  cases a with
  | init t =>
    have ha : ¬ (s.os.timer t).bTimerStart = false := ha
    exact hinv.init_breaks (hexact.2 t (by simpa using ha)) hs
  | expire handle => exact hinv.expire_breaks hstarting hs
  | _ => exact absurd trivial ha

/-! ### Two timers with one handle -/

/-- Timers that have not been started. -/
def idle : Sys ℕ Unit :=
  ⟨⟨fun _ => .zero, ⟨fun _ => none, fun _ => none, 0⟩, fun _ => none, false, noId, []⟩, none, 0⟩

theorem fresh_idle : idle.Fresh :=
  ⟨fun _ => rfl, fun _ => rfl, fun _ => rfl, rfl, rfl, rfl, rfl⟩

instance : ∀ (s : Sys T F) (a : Act T F), Decidable (NoneExpires s a)
  | _, .expire _ => instDecidableFalse
  | s, .init t => inferInstanceAs (Decidable ((s.os.timer t).bTimerStart = false))
  | _, .set .. | _, .mod .. | _, .added | _, .finish | _, .del _ => instDecidableTrue

/-- Two timers in one chain, of which one is deleted and started again. -/
def restart : List (Act ℕ Unit) :=
  [.mod 0 10 5, .added, .mod 1 10 13, .added, .del 0, .mod 0 20 5, .added]

theorem flags_right_restart : ∃ s, execIf (system ℕ Unit) NoneExpires idle restart = some s ∧
    (Right s.os ∧ OwnHandle s.os) ∧ (s.os.timer 0).bTimerStart = true := by
  obtain ⟨s, hs⟩ := Option.isSome_iff_exists.mp
    (show (execIf (system ℕ Unit) NoneExpires idle restart).isSome = true from rfl)
  exact ⟨s, hs, (flags_right ((Reach.init fresh_idle).of_execIf hs)).1,
    eq_of_map hs (fun s => (s.os.timer 0).bTimerStart) rfl⟩

/-- The first timer expires, and the second is started by its handle. -/
def reused : List (Act ℕ Unit) := [.mod 0 10 5, .added, .expire 5, .mod 1 10 5, .added]

theorem other_chains : ∀ i < 8, i ≠ 5 →
    (exec (system ℕ Unit) idle reused).map (fun s => s.os.tab.head i) = some none := by
  decide

/-- **A timer that has expired stops another**: its flag is set and it is not in the table, its
handle is that of the other timer, and to delete it stops the other. -/
theorem expired_stops_other : ∃ s s', exec (system ℕ Unit) idle reused = some s ∧
    s.step (.del 0) = some s' ∧ ¬ Right s.os ∧ ¬ OwnHandle s.os ∧
    (s.os.native 5).map Native.owner = some 1 ∧
    s'.os.native 5 = none ∧ (s'.os.timer 1).bTimerStart = true := by
  obtain ⟨s, hs⟩ := Option.isSome_iff_exists.mp
    (show (exec (system ℕ Unit) idle reused).isSome = true from rfl)
  obtain ⟨s', hs'⟩ := Option.isSome_iff_exists.mp
    (show ((exec (system ℕ Unit) idle reused).bind (Sys.step · (.del 0))).isSome = true from rfl)
  have hthen : s.step (.del 0) = some s' := by rwa [hs] at hs'
  have hflag : (s.os.timer 0).bTimerStart = true :=
    eq_of_map hs (fun s => (s.os.timer 0).bTimerStart) rfl
  have hander : s.os.hander 0 = 5 := eq_of_map hs (fun s => s.os.hander 0) rfl
  have howner : (s.os.native 5).map Native.owner = some 1 :=
    eq_of_map hs (fun s => (s.os.native 5).map Native.owner) rfl
  refine ⟨s, s', hs, hthen, ?_, fun hown => ?_, howner, ?_, ?_⟩
  · rintro ⟨L, hchain, hcount⟩
    have hhead : s.os.tab.head 5 = some 1 := eq_of_map hs (fun s => s.os.tab.head 5) rfl
    have hnext : s.os.tab.hnext 1 = none := eq_of_map hs (fun s => s.os.tab.hnext 1) rfl
    have hnone : ∀ i < 8, i ≠ 5 → s.os.tab.head i = none := fun i hi hne =>
      eq_of_map hs (fun s => s.os.tab.head i) (other_chains i hi hne)
    refine absurd (hcount 0) ?_
    rw [hflag, List.count_eq_zero.mpr]
    · simp
    · intro hmem
      obtain ⟨i, hi, hmem⟩ := List.mem_flatMap.mp hmem
      have hlt := List.mem_range.mp hi
      have hc := hchain i hlt
      by_cases hi5 : i = 5
      · subst hi5
        rw [hhead] at hc
        obtain ⟨l, hl, hc⟩ := hc.exists_cons
        rw [hnext] at hc
        rw [hl, hc.eq_nil] at hmem
        simp at hmem
      · rw [hnone i hlt hi5] at hc
        rw [hc.eq_nil] at hmem
        cases hmem
  · obtain ⟨n, hn, hone⟩ := Option.map_eq_some_iff.mp howner
    have hzero := hown 0 hflag n (hander ▸ hn)
    omega
  · exact eq_of_map hs' (fun s => s.os.native 5) rfl
  · exact eq_of_map hs' (fun s => (s.os.timer 1).bTimerStart) rfl

end Atbm6441.Os.Timer
