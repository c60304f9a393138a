import Atbm6441.Os.Timer.Steps

/-!
# The timers beside those of Linux

The same events for the timers of the port and for timers as Linux has them: `init_timer` and
`del_timer` keep the function, and `mod_timer` calls nothing, but lets the timer expire when
`jiffies` has come from its present value to `expires`. Time is counted in ticks, of which `jiffies`
holds the last 32 bits.

* `refines_linux` : in runs of steps that meet `Meets`, the same timers are pending, until the same
  tick, for the same functions, and the same functions have been called; a step that does not meet
  it ends this, if it is not a timer that expires;
* `timers_differ` : a function is lost to `atbm_init_timer` and to `atbm_del_timer`, and is called
  from `atbm_mod_timer`, also when `jiffies` wraps around.
-/

namespace Atbm6441.Os.Timer

open Atbm6441.Lib Hash

universe u v

variable {T : Type u} {F : Type v}

/-! ### Timers of Linux -/

/-- A timer of Linux: its function and argument, and the tick at which it expires if it is
pending. -/
structure LinuxTimer (F : Type v) where
  function : Option F
  data : ℕ
  due : Option ℕ

/-- The timers, and the calls of functions so far. -/
structure Linux (T : Type u) (F : Type v) where
  timer : T → LinuxTimer F
  calls : List (F × ℕ)

namespace Linux

variable [DecidableEq T] (l : Linux T F)

def write (t : T) (x : LinuxTimer F) : Linux T F := { l with timer := Function.update l.timer t x }

def set (t : T) (f : F) (d : ℕ) : Linux T F :=
  l.write t { l.timer t with function := some f, data := d }

/-- `init_timer`, and `del_timer`. -/
def stop (t : T) : Linux T F := l.write t { l.timer t with due := none }

/-- `mod_timer`. -/
def mod (t : T) (due : ℕ) : Linux T F := l.write t { l.timer t with due := some due }

/-- The timer expires, if it is time. -/
def expire (t : T) (now : ℕ) : Linux T F :=
  match (l.timer t).due with
  | none => l
  | some due =>
    if due ≤ now then
      { l.stop t with
        calls := l.calls ++ ((l.timer t).function.map fun f => (f, (l.timer t).data)).toList }
    else l

end Linux

/-! ### Both -/

/-- The timers of the port, and those of Linux; the time, and when the timers of the system were
started. -/
structure Timed (T : Type u) (F : Type v) where
  sys : Sys T F
  linux : Linux T F
  now : ℕ
  since : ℕ → ℕ

inductive Event (T : Type u) (F : Type v)
  | set (t : T) (f : F) (d : ℕ)
  | init (t : T)
  | mod (t : T) (expires : BitVec 32) (handle : ℕ)
  | added
  | finish
  | del (t : T)
  | expire (handle : ℕ)
  | tick

/-- `time_after` of `atbm_mod_timer`. -/
def timeAfter (jiffies expires : BitVec 32) : ℕ :=
  if jiffies < expires then (expires - jiffies).toNat else 0

def Timed.jiffies (s : Timed T F) : BitVec 32 := BitVec.ofNat 32 s.now

variable [DecidableEq T]

def Timed.step (s : Timed T F) : Event T F → Option (Timed T F)
  | .set t f d =>
    (s.sys.step (.set t f d)).map fun sys => { s with sys := sys, linux := s.linux.set t f d }
  | .init t => (s.sys.step (.init t)).map fun sys => { s with sys := sys, linux := s.linux.stop t }
  | .mod t expires handle =>
    (s.sys.step (.mod t (timeAfter s.jiffies expires) handle)).map fun sys =>
      { s with
        sys := sys
        linux := s.linux.mod t (s.now + (expires - s.jiffies).toNat)
        since := Function.update s.since handle s.now }
  | .added => (s.sys.step .added).map fun sys => { s with sys := sys }
  | .finish => (s.sys.step .finish).map fun sys => { s with sys := sys }
  | .del t => (s.sys.step (.del t)).map fun sys => { s with sys := sys, linux := s.linux.stop t }
  | .expire handle =>
    match s.sys.os.native handle with
    | none => none
    | some n =>
      if s.since handle * 1000 + n.time ≤ s.now * 1000 then
        (s.sys.step (.expire handle)).map fun sys =>
          { s with sys := sys, linux := s.linux.expire n.owner s.now }
      else none
  | .tick => some { s with now := s.now + 1 }

/-- No timer has been started, and the same functions have been called. -/
def Timed.Fresh (s : Timed T F) : Prop :=
  s.sys.Fresh ∧ (∀ t, (s.linux.timer t).due = none) ∧ s.sys.os.calls = s.linux.calls

def timed (T : Type u) (F : Type v) [DecidableEq T] : System (Timed T F) (Event T F) where
  init := Timed.Fresh
  step := Timed.step

/-! ### Agreement -/

/-- The timer of the system for a timer expires at a time, in `us`. -/
def Due (os : State T F) (since : ℕ → ℕ) (t : T) (us : ℕ) : Prop :=
  ∃ n, os.native (os.hander t) = some n ∧ n.owner = t ∧ us = since (os.hander t) * 1000 + n.time

def SameFunc (os : State T F) (l : Linux T F) (t : T) : Prop :=
  (os.timer t).function = (l.timer t).function ∧ (os.timer t).data = (l.timer t).data

/-- A timer is pending for Linux as for the port: until the same tick, for the same function. -/
def AgreeOn (os : State T F) (since : ℕ → ℕ) (l : Linux T F) (t : T) : Prop :=
  (∀ us, Due os since t us ↔ ∃ tick, (l.timer t).due = some tick ∧ us = tick * 1000) ∧
    (Owns os t → SameFunc os l t)

/-- **The port does what Linux does**: the same timers are pending, and the same functions have been
called. -/
def Agree (s : Timed T F) : Prop :=
  (∀ t, AgreeOn s.sys.os s.since s.linux t) ∧ s.sys.os.calls = s.linux.calls

/-- **What a step has to meet**: a timer that is initialised is not pending; one that is stopped has
its handle for itself; one that is started still has the function and the argument that have been
set, and `expires` is ahead of `jiffies` as a number, by less than `2 ^ 32` microseconds; and a
timer does not expire while it is being started. -/
def Meets (s : Timed T F) : Event T F → Prop
  | .init t => ¬ Owns s.sys.os t
  | .mod t expires _ => StopsOwn s.sys.os t ∧ SameFunc s.sys.os s.linux t ∧ s.jiffies < expires ∧
      (expires - s.jiffies).toNat * 1000 < 2 ^ 32
  | .del t => StopsOwn s.sys.os t
  | .expire handle => ∀ t, s.sys.starting = some t → s.sys.os.hander t ≠ handle
  | .set .. | .added | .finish | .tick => True

variable {s s' : Timed T F} {os os' : State T F} {l : Linux T F} {L : ℕ → List T} {t x : T}
  {handle : ℕ} {since : ℕ → ℕ}

theorem initMs_eq_iff {n : ℕ} : initMs n = n * 1000 ↔ n * 1000 < 2 ^ 32 := by
  have hlt : initMs n < 2 ^ 32 := by
    unfold initMs
    dsimp only
    by_cases hv : n * 1000 % 2 ^ 32 % 5 = 0
    · rw [if_pos hv]
      exact Nat.mod_lt _ (by omega)
    · rw [if_neg hv]
      exact Nat.mod_lt _ (by omega)
  constructor
  · intro h
    rwa [h] at hlt
  · intro h
    unfold initMs
    rw [Nat.mod_eq_of_lt h]
    dsimp only
    rw [if_pos (by omega)]

/-! ### One timer -/

omit [DecidableEq T] in
theorem Due.owns {us : ℕ} (h : Due os since t us) : Owns os t := by
  obtain ⟨n, hn, hown, -⟩ := h
  exact ⟨n, hn, hown⟩

omit [DecidableEq T] in
theorem Owns.due (h : Owns os t) (since : ℕ → ℕ) : ∃ us, Due os since t us := by
  obtain ⟨n, hn, hown⟩ := h
  exact ⟨_, n, hn, hown, rfl⟩

omit [DecidableEq T] in
theorem due_congr {us : ℕ} (hnative : os'.native = os.native)
    (hander : os'.hander t = os.hander t) : Due os' since t us ↔ Due os since t us := by
  unfold Due
  rw [hnative, hander]

omit [DecidableEq T] in
/-- `AgreeOn` looks at these fields only. -/
theorem agreeOn_congr {since' : ℕ → ℕ} {l' : Linux T F}
    (hdue : ∀ us, Due os' since' t us ↔ Due os since t us)
    (hfunc : (os'.timer t).function = (os.timer t).function)
    (hdata : (os'.timer t).data = (os.timer t).data) (hl : l'.timer t = l.timer t) :
    AgreeOn os' since' l' t ↔ AgreeOn os since l t := by
  have howns : Owns os' t ↔ Owns os t :=
    ⟨fun h => ((hdue _).mp (h.due since').choose_spec).owns,
      fun h => ((hdue _).mpr (h.due since).choose_spec).owns⟩
  unfold AgreeOn SameFunc
  simp only [hdue, howns, hfunc, hdata, hl]

omit [DecidableEq T] in
theorem agreeOn_of_not_owns (h : ¬ Owns os t) : AgreeOn os since l t ↔ (l.timer t).due = none := by
  constructor
  · rintro ⟨hdue, -⟩
    rcases hl : (l.timer t).due with _ | tick
    · rfl
    · exact absurd ((hdue _).mpr ⟨tick, hl, rfl⟩).owns h
  · intro hl
    refine ⟨fun us => iff_of_false (fun hus => h hus.owns) ?_, fun howns => absurd howns h⟩
    rintro ⟨tick, htick, -⟩
    rw [hl] at htick
    cases htick

omit [DecidableEq T] in
theorem agreeOn_of_due {us tick : ℕ} (h : ∀ us', Due os since t us' ↔ us' = us)
    (hl : (l.timer t).due = some tick) :
    AgreeOn os since l t ↔ us = tick * 1000 ∧ SameFunc os l t := by
  have howns : Owns os t := ((h us).mpr rfl).owns
  unfold AgreeOn
  simp only [h, hl, Option.some.injEq, exists_eq_left', howns, true_implies]
  constructor
  · rintro ⟨hus, hsame⟩
    exact ⟨(hus us).mp rfl, hsame⟩
  · rintro ⟨rfl, hsame⟩
    exact ⟨fun us => Iff.rfl, hsame⟩

/-! ### `_cancel_timer` -/

theorem func_update (os : State T F) (t : T) (y : AtbmTimerList F)
    (hfunc : y.function = (os.timer t).function) (hdata : y.data = (os.timer t).data) (x : T) :
    (Function.update os.timer t y x).function = (os.timer x).function ∧
      (Function.update os.timer t y x).data = (os.timer x).data := by
  by_cases hx : x = t
  · rw [hx, Function.update_self]
    exact ⟨hfunc, hdata⟩
  · rw [Function.update_of_ne hx]
    exact ⟨rfl, rfl⟩

theorem cancelTimer_func (h : os.cancelTimer t = some os') (x : T) :
    os'.hander x = os.hander x ∧ (os'.timer x).function = (os.timer x).function ∧
      (os'.timer x).data = (os.timer x).data := by
  refine ⟨cancelTimer_hander h x, ?_⟩
  rw [(cancelTimer_some h).1]
  exact func_update os t (stopped (os.timer t)) rfl rfl x

theorem cancelTimer_due (h : os.cancelTimer t = some os') (hown : StopsOwn os t) (hx : x ≠ t)
    (us : ℕ) : Due os' since x us ↔ Due os since x us := by
  unfold Due
  rw [(cancelTimer_func h x).1]
  constructor
  · rintro ⟨n, hn, rfl, hus⟩
    exact ⟨n, (cancelTimer_native h hown hx).mp hn, rfl, hus⟩
  · rintro ⟨n, hn, rfl, hus⟩
    exact ⟨n, (cancelTimer_native h hown hx).mpr hn, rfl, hus⟩

theorem cancelTimer_agreeOn (h : os.cancelTimer t = some os') (hown : StopsOwn os t) (hx : x ≠ t) :
    AgreeOn os' since l x ↔ AgreeOn os since l x := by
  obtain ⟨-, hfunc, hdata⟩ := cancelTimer_func h x
  exact agreeOn_congr (cancelTimer_due h hown hx) hfunc hdata rfl

/-- **Another timer is stopped** by a handle that is in use for it. -/
theorem cancelTimer_stops (h : os.cancelTimer t = some os') (hown : ¬ StopsOwn os t) :
    ∃ n, os.native (os.hander t) = some n ∧ n.owner ≠ t ∧ os'.native (os.hander t) = none := by
  unfold StopsOwn at hown
  push Not at hown
  obtain ⟨hon, n, hn, hne⟩ := hown
  refine ⟨n, hn, hne, ?_⟩
  rw [(cancelTimer_some h).2.1, if_pos hon, Function.update_self]

/-! ### The start -/

variable {after now us : ℕ}

theorem vtimerStart_due_other (hx : x ≠ t) (hfree : os.native handle = none) :
    Due (os.vtimerStart t after handle) (Function.update since handle now) x us ↔
      Due os since x us := by
  have hander : (os.vtimerStart t after handle).hander x = os.hander x :=
    congrArg AtbmTimerList.timerHander (Function.update_of_ne hx _ _)
  unfold Due
  rw [hander]
  show (∃ n, Function.update os.native handle _ (os.hander x) = some n ∧ _) ↔ _
  by_cases hk : os.hander x = handle
  · rw [hk, Function.update_self, hfree]
    refine iff_of_false ?_ fun ⟨n, hn, _⟩ => nomatch hn
    rintro ⟨n, hn, hown, -⟩
    obtain rfl := Option.some.inj hn
    exact hx hown.symm
  · rw [Function.update_of_ne hk, Function.update_of_ne hk]

theorem vtimerStart_due_self :
    Due (os.vtimerStart t after handle) (Function.update since handle now) t us ↔
      us = now * 1000 + initMs after := by
  have hander : (os.vtimerStart t after handle).hander t = handle :=
    congrArg AtbmTimerList.timerHander (Function.update_self t _ os.timer)
  unfold Due
  rw [hander, Function.update_self]
  show (∃ n, Function.update os.native handle (some ⟨t, initMs after⟩) handle = some n ∧ _) ↔ _
  rw [Function.update_self]
  constructor
  · rintro ⟨n, hn, -, hus⟩
    obtain rfl := Option.some.inj hn
    exact hus
  · intro hus
    exact ⟨_, rfl, rfl, hus⟩

theorem vtimerStart_func (hx : x ≠ t) :
    (os.vtimerStart t after handle).timer x = os.timer x := Function.update_of_ne hx _ _

theorem start_agreeOn_other (hx : x ≠ t) (hfree : os.native handle = none) {due : ℕ} :
    AgreeOn (os.vtimerStart t after handle) (Function.update since handle now) (l.mod t due) x ↔
      AgreeOn os since l x := by
  have hsame : (os.vtimerStart t after handle).timer x = os.timer x := vtimerStart_func hx
  exact agreeOn_congr (fun us => vtimerStart_due_other hx hfree)
    (congrArg AtbmTimerList.function hsame) (congrArg AtbmTimerList.data hsame)
    (Function.update_of_ne hx _ _)

/-- **A timer that is started** agrees when the time fits in 32 bits and the function is right. -/
theorem start_agreeOn_self :
    AgreeOn (os.vtimerStart t after handle) (Function.update since handle now)
      (l.mod t (now + after)) t ↔ after * 1000 < 2 ^ 32 ∧ SameFunc os l t := by
  have hself : (l.mod t (now + after)).timer t =
      { l.timer t with due := some (now + after) } := by
    show Function.update l.timer t _ t = _
    rw [Function.update_self]
  have hsame : SameFunc (os.vtimerStart t after handle) (l.mod t (now + after)) t ↔
      SameFunc os l t := by
    unfold SameFunc
    rw [hself]
    show (Function.update os.timer t { os.timer t with timerHander := handle } t).function = _ ∧
      (Function.update os.timer t { os.timer t with timerHander := handle } t).data = _ ↔ _
    rw [Function.update_self]
  rw [agreeOn_of_due (fun us => vtimerStart_due_self) (congrArg LinuxTimer.due hself), hsame,
    Nat.add_mul, Nat.add_left_cancel_iff, initMs_eq_iff]

/-! ### `atbm_mod_timer` and `atbm_del_timer` -/

variable {s s' : Timed T F} {expires : BitVec 32}

/-- **A step that stops the timer of another** ends the agreement. -/
theorem Inv.not_agree (h : Inv s.sys L) (hag : Agree s) (hc : s.sys.os.cancelTimer t = some os)
    (hown : ¬ StopsOwn s.sys.os t)
    (hnative : ∀ k, s.sys.os.native k ≠ none → os.native k = none → s'.sys.os.native k = none)
    (hander : ∀ x, x ≠ t → s'.sys.os.hander x = os.hander x)
    (hlinux : ∀ x, x ≠ t → s'.linux.timer x = s.linux.timer x) : ¬ Agree s' := by
  intro hag'
  obtain ⟨n, hn, hne, hgone⟩ := cancelTimer_stops hc hown
  obtain ⟨hhandle, -⟩ := h.owner _ n hn
  have hbefore : Owns s.sys.os n.owner := ⟨n, by rw [hhandle, hn], rfl⟩
  have hafter : ¬ Owns s'.sys.os n.owner := by
    rintro ⟨n', hn', -⟩
    have hnone := hnative (s.sys.os.hander t) (by rw [hn]; simp) hgone
    rw [hander _ hne, (cancelTimer_func hc _).1, hhandle, hnone] at hn'
    cases hn'
  have hnone := (agreeOn_of_not_owns hafter).mp (hag'.1 n.owner)
  rw [hlinux _ hne] at hnone
  obtain ⟨us, hus⟩ := hbefore.due s.since
  obtain ⟨tick, htick, -⟩ := ((hag.1 n.owner).1 us).mp hus
  rw [hnone] at htick
  cases htick

/-- `Agree` when all timers but one agree. -/
theorem agree_iff (hother : ∀ x, x ≠ t → AgreeOn s.sys.os s.since s.linux x)
    (hcalls : s.sys.os.calls = s.linux.calls) :
    Agree s ↔ AgreeOn s.sys.os s.since s.linux t := by
  refine ⟨fun hag => hag.1 t, fun ht => ⟨fun x => ?_, hcalls⟩⟩
  by_cases hx : x = t
  · exact hx ▸ ht
  · exact hother x hx

omit [DecidableEq T] in
theorem timeAfter_ne_zero {jiffies : BitVec 32} (h : jiffies < expires) :
    (expires - jiffies).toNat ≠ 0 := by
  bv_omega

theorem start_rest (os : State T F) (t : T) (after handle : ℕ) :
    (∀ k, k ≠ handle →
      (if after = 0 then os.call t else os.vtimerStart t after handle).native k = os.native k) ∧
    ∀ x, x ≠ t →
      (if after = 0 then os.call t else os.vtimerStart t after handle).timer x = os.timer x := by
  by_cases hafter : after = 0
  · obtain ⟨htimer, -, hnative, -⟩ := call_eq os t
    rw [if_pos hafter, htimer, hnative]
    exact ⟨fun _ _ => rfl, fun _ _ => rfl⟩
  · rw [if_neg hafter]
    exact ⟨fun k hk => Function.update_of_ne hk _ _, fun x hx => vtimerStart_func hx⟩

/-- **`atbm_mod_timer`** does what `mod_timer` does exactly when it meets its condition. -/
theorem Inv.mod_agree (h : Inv s.sys L) (hag : Agree s)
    (hs : s.step (.mod t expires handle) = some s') :
    Agree s' ↔ Meets s (.mod t expires handle) := by
  obtain ⟨sys, hsys, rfl⟩ := Option.map_eq_some_iff.mp hs
  obtain ⟨⟨hstarting, hfree, -⟩, hsys⟩ := Option.ite_none_right_eq_some.mp hsys
  have hstarting := Option.isNone_iff_eq_none.mp hstarting
  have hfree := Option.isNone_iff_eq_none.mp hfree
  obtain ⟨os', hmod, rfl⟩ := Option.map_eq_some_iff.mp hsys
  obtain ⟨os, hcancel, rfl⟩ := Option.map_eq_some_iff.mp hmod
  have hfree' := cancelTimer_none hcancel hfree
  obtain ⟨-, -, hcalls, -⟩ := cancelTimer_some hcancel
  by_cases hown : StopsOwn s.sys.os t
  swap
  · obtain ⟨hnative, htimer⟩ := start_rest os t (timeAfter s.jiffies expires) handle
    refine iff_of_false (h.not_agree hag hcancel hown (fun k hk hgone => ?_) (fun x hx => ?_)
      fun x hx => Function.update_of_ne hx _ _) fun hm => hown hm.1
    · have hne : k ≠ handle := fun heq => hk (heq ▸ hfree)
      exact (hnative k hne).trans hgone
    · exact congrArg AtbmTimerList.timerHander (htimer x hx)
  by_cases hj : s.jiffies < expires
  · -- the timer is started
    have hafter : timeAfter s.jiffies expires = (expires - s.jiffies).toNat := if_pos hj
    have hne := timeAfter_ne_zero hj
    have hsame : SameFunc os s.linux t ↔ SameFunc s.sys.os s.linux t := by
      obtain ⟨-, hfunc, hdata⟩ := cancelTimer_func hcancel t
      unfold SameFunc
      rw [hfunc, hdata]
    rw [hafter, if_neg hne, if_neg hne]
    rw [agree_iff (t := t) (fun x hx => ?_) (hcalls.trans hag.2), start_agreeOn_self, hsame]
    · constructor
      · rintro ⟨hlt, hfun⟩
        exact ⟨hown, hfun, hj, hlt⟩
      · rintro ⟨-, hfun, -, hlt⟩
        exact ⟨hlt, hfun⟩
    · exact (start_agreeOn_other hx (cancelTimer_none hcancel hfree)).mpr
        ((cancelTimer_agreeOn hcancel hown hx).mpr (hag.1 x))
  · -- its function is called
    have hafter : timeAfter s.jiffies expires = 0 := if_neg hj
    rw [hafter, if_pos rfl, if_pos rfl]
    refine iff_of_false (fun hag' => ?_) fun hm => hj hm.2.2.1
    have hno : ¬ Owns (os.call t) t := by
      rintro ⟨n, hn, howner⟩
      rw [(call_eq os t).2.2.1] at hn
      exact h.cancelTimer_owner hstarting hcancel hn howner
    have hnone : (Function.update s.linux.timer t _ t).due = none :=
      (agreeOn_of_not_owns hno).mp (hag'.1 t)
    rw [Function.update_self] at hnone
    cases hnone

/-- **`atbm_del_timer`** does what `del_timer` does exactly when it meets its condition. -/
theorem Inv.del_agree (h : Inv s.sys L) (hag : Agree s) (hs : s.step (.del t) = some s') :
    Agree s' ↔ Meets s (.del t) := by
  obtain ⟨sys, hsys, rfl⟩ := Option.map_eq_some_iff.mp hs
  obtain ⟨hstarting, hsys⟩ := Option.ite_none_right_eq_some.mp hsys
  have hstarting := Option.isNone_iff_eq_none.mp hstarting
  obtain ⟨os', hdel, rfl⟩ := Option.map_eq_some_iff.mp hsys
  obtain ⟨os, hcancel, rfl⟩ := Option.map_eq_some_iff.mp hdel
  have hlinux : ∀ x, x ≠ t → (s.linux.stop t).timer x = s.linux.timer x := fun x hx =>
    Function.update_of_ne hx _ _
  have hother : ∀ x, x ≠ t → (os.write t .zero).timer x = os.timer x := fun x hx =>
    Function.update_of_ne hx _ _
  obtain ⟨-, -, hcalls, -⟩ := cancelTimer_some hcancel
  constructor
  · intro hag'
    by_contra hown
    refine h.not_agree hag hcancel hown (fun k _ hgone => hgone) (fun x hx => ?_) hlinux hag'
    exact congrArg AtbmTimerList.timerHander (hother x hx)
  · intro hown
    have hown : StopsOwn s.sys.os t := hown
    rw [agree_iff (t := t) (fun x hx => ?_) (hcalls.trans hag.2), agreeOn_of_not_owns]
    · show (Function.update s.linux.timer t _ t).due = none
      rw [Function.update_self]
    · rintro ⟨n, hn, howner⟩
      exact h.cancelTimer_owner hstarting hcancel hn howner
    · have hsame : (os.write t .zero).timer x = os.timer x := hother x hx
      refine Iff.mpr (agreeOn_congr (fun us => ?_) (congrArg AtbmTimerList.function hsame)
        (congrArg AtbmTimerList.data hsame) (hlinux x hx))
          ((cancelTimer_agreeOn hcancel hown hx).mpr (hag.1 x))
      exact due_congr rfl (congrArg AtbmTimerList.timerHander hsame)

/-! ### The other steps -/

theorem set_agree (hag : Agree s) {f : F} {d : ℕ} (hs : s.step (.set t f d) = some s') :
    Agree s' := by
  obtain rfl := Option.some.inj hs
  have hother : ∀ x, x ≠ t → (s.sys.os.write t
      { s.sys.os.timer t with function := some f, data := d }).timer x = s.sys.os.timer x :=
    fun x hx => Function.update_of_ne hx _ _
  have hdue : ∀ x us, Due (s.sys.os.write t
      { s.sys.os.timer t with function := some f, data := d }) s.since x us ↔
        Due s.sys.os s.since x us := fun x us => due_congr rfl
    (hander_update s.sys.os t { s.sys.os.timer t with function := some f, data := d } rfl x)
  refine Iff.mpr (agree_iff (t := t) (fun x hx => ?_) hag.2) ⟨fun us => ?_, fun _ => ?_⟩
  · exact (agreeOn_congr (hdue x) (congrArg AtbmTimerList.function (hother x hx))
      (congrArg AtbmTimerList.data (hother x hx)) (Function.update_of_ne hx _ _)).mpr (hag.1 x)
  · have hsame : ((s.linux.set t f d).timer t).due = (s.linux.timer t).due := by
      show (Function.update s.linux.timer t _ t).due = _
      rw [Function.update_self]
    show Due _ s.since t us ↔ ∃ tick, ((s.linux.set t f d).timer t).due = some tick ∧ _
    rw [hsame]
    exact (hdue t us).trans ((hag.1 t).1 us)
  · unfold SameFunc
    show (Function.update s.sys.os.timer t _ t).function =
      (Function.update s.linux.timer t _ t).function ∧ (Function.update s.sys.os.timer t _ t).data =
        (Function.update s.linux.timer t _ t).data
    rw [Function.update_self, Function.update_self]
    exact ⟨rfl, rfl⟩

/-- **`atbm_init_timer`** does what `init_timer` does exactly when the timer is not pending. -/
theorem init_agree (hag : Agree s) (hs : s.step (.init t) = some s') :
    Agree s' ↔ Meets s (.init t) := by
  obtain ⟨sys, hsys, rfl⟩ := Option.map_eq_some_iff.mp hs
  obtain ⟨-, hsys⟩ := Option.ite_none_right_eq_some.mp hsys
  obtain rfl := Option.some.inj hsys
  have hlinux : ∀ x, x ≠ t → (s.linux.stop t).timer x = s.linux.timer x := fun x hx =>
    Function.update_of_ne hx _ _
  have hother : ∀ x, x ≠ t → (s.sys.os.atbmInitTimer t).timer x = s.sys.os.timer x := fun x hx =>
    Function.update_of_ne hx _ _
  have hander : ∀ x, (s.sys.os.atbmInitTimer t).hander x = s.sys.os.hander x :=
    hander_update s.sys.os t
      { s.sys.os.timer t with function := none, data := 0, bTimerStart := false } rfl
  have hdue : ∀ x us, Due (s.sys.os.atbmInitTimer t) s.since x us ↔ Due s.sys.os s.since x us :=
    fun x us => due_congr rfl (hander x)
  have hnone : ((s.linux.stop t).timer t).due = none := by
    show (Function.update s.linux.timer t _ t).due = none
    rw [Function.update_self]
  refine Iff.trans (agree_iff (t := t) (fun x hx => ?_) hag.2) ?_
  · exact (agreeOn_congr (hdue x) (congrArg AtbmTimerList.function (hother x hx))
      (congrArg AtbmTimerList.data (hother x hx)) (hlinux x hx)).mpr (hag.1 x)
  · constructor
    · intro hon howns
      obtain ⟨us, hus⟩ := howns.due s.since
      obtain ⟨tick, htick, -⟩ := (hon.1 us).mp ((hdue t us).mpr hus)
      rw [hnone] at htick
      cases htick
    · intro hno
      refine (agreeOn_of_not_owns fun howns => hno ?_).mpr hnone
      obtain ⟨us, hus⟩ := howns.due s.since
      exact ((hdue t us).mp hus).owns

omit [DecidableEq T] in
theorem Agree.of_fields (hag : Agree s) (hnative : s'.sys.os.native = s.sys.os.native)
    (hander : ∀ x, s'.sys.os.hander x = s.sys.os.hander x)
    (hfunc : ∀ x, (s'.sys.os.timer x).function = (s.sys.os.timer x).function ∧
      (s'.sys.os.timer x).data = (s.sys.os.timer x).data)
    (hcalls : s'.sys.os.calls = s.sys.os.calls) (hlinux : s'.linux = s.linux)
    (hsince : s'.since = s.since) : Agree s' := by
  refine ⟨fun x => ?_, by rw [hcalls, hlinux, hag.2]⟩
  rw [hsince, hlinux]
  exact (agreeOn_congr (fun us => due_congr hnative (hander x)) (hfunc x).1 (hfunc x).2 rfl).mpr
    (hag.1 x)

/-- **A timer is put into the table.** -/
theorem added_agree (hag : Agree s) (hcur : s.sys.os.curTimeoutId = noId)
    (hs : s.step .added = some s') : s'.sys.os.curTimeoutId = noId ∧ Agree s' := by
  obtain ⟨sys, hsys, rfl⟩ := Option.map_eq_some_iff.mp hs
  unfold Sys.step at hsys
  rcases hstarting : s.sys.starting with _ | t <;> rw [hstarting] at hsys
  · cases hsys
  obtain ⟨os, hmod, rfl⟩ := Option.map_eq_some_iff.mp hsys
  have hmod : (if s.sys.os.curTimeoutId ≠ noId then _
      else some { s.sys.os.modAdd t with setStartTimer := false }) = some os := hmod
  rw [if_neg (not_not.mpr hcur)] at hmod
  obtain rfl := Option.some.inj hmod
  refine ⟨hcur, hag.of_fields rfl (fun x => ?_) (fun x => ?_) rfl rfl rfl⟩
  · exact hander_update s.sys.os t { s.sys.os.timer t with bTimerStart := true } rfl x
  · exact func_update s.sys.os t { s.sys.os.timer t with bTimerStart := true } rfl rfl x

omit [DecidableEq T] in
theorem call_calls (os : State T F) (t : T) : (os.call t).calls =
    os.calls ++ ((os.timer t).function.map fun f => (f, (os.timer t).data)).toList := by
  unfold State.call
  rcases (os.timer t).function with _ | f
  · exact (List.append_nil _).symm
  · rfl

omit [DecidableEq T] in
theorem expire_due (os : State T F) (tab : Hash T) (t x : T) (us : ℕ) :
    Due (((os.writeNative handle none).writeTab tab).call t) since x us ↔
      os.hander x ≠ handle ∧ Due os since x us := by
  obtain ⟨htimer, -, hnative, -⟩ := call_eq ((os.writeNative handle none).writeTab tab) t
  unfold Due State.hander
  rw [htimer, hnative]
  constructor
  · rintro ⟨n, hn, hown, hus⟩
    obtain ⟨hk, hn⟩ := native_stop.mp hn
    exact ⟨hk, n, hn, hown, hus⟩
  · rintro ⟨hk, n, hn, hown, hus⟩
    exact ⟨n, native_stop.mpr ⟨hk, hn⟩, hown, hus⟩

theorem Linux.expire_eq {tick : ℕ} (h : (l.timer t).due = some tick) (hle : tick ≤ now) :
    l.expire t now = { l.stop t with
      calls := l.calls ++ ((l.timer t).function.map fun f => (f, (l.timer t).data)).toList } := by
  unfold Linux.expire
  rw [h]
  exact if_pos hle

/-- **A timer expires** for the port and for Linux, and its function is called. -/
theorem Inv.expire_agree (h : Inv s.sys L) (hag : Agree s) (hm : Meets s (.expire handle))
    (hs : s.step (.expire handle) = some s') :
    s'.sys.os.curTimeoutId = s.sys.os.curTimeoutId ∧ Agree s' := by
  unfold Timed.step at hs
  rcases hn : s.sys.os.native handle with _ | n <;> simp only [hn] at hs
  · cases hs
  obtain ⟨htime, hs⟩ := Option.ite_none_right_eq_some.mp hs
  obtain ⟨sys, hsys, rfl⟩ := Option.map_eq_some_iff.mp hs
  obtain ⟨os, hos, rfl⟩ := Option.map_eq_some_iff.mp hsys
  obtain ⟨hhandle, hor⟩ := h.owner handle n hn
  have hon := hor.resolve_right fun hstarting => hm _ hstarting hhandle
  obtain ⟨tab, hexpire, -⟩ := h.expire_some hn hon
  obtain rfl := Option.some.inj (hos.symm.trans hexpire)
  obtain ⟨htimer, -, -, -, hcur⟩ :=
    call_eq ((s.sys.os.writeNative handle none).writeTab tab) n.owner
  refine ⟨hcur, ?_⟩
  -- it is time for Linux too
  have howns : Owns s.sys.os n.owner := ⟨n, by rw [hhandle, hn], rfl⟩
  obtain ⟨hdue, hsame⟩ := hag.1 n.owner
  obtain ⟨tick, htick, hus⟩ := (hdue _).mp ⟨n, by rw [hhandle, hn], rfl, rfl⟩
  have hle : tick ≤ s.now := by
    rw [hhandle] at hus
    omega
  rw [Linux.expire_eq htick hle]
  refine Iff.mpr (agree_iff (t := n.owner) (fun x hx => ?_) ?_) ?_
  · refine (agreeOn_congr (fun us => ?_) (congrArg (fun f => (f x).function) htimer)
      (congrArg (fun f => (f x).data) htimer) (Function.update_of_ne hx _ _)).mpr (hag.1 x)
    refine (expire_due s.sys.os tab n.owner x us).trans (and_iff_right_of_imp fun hus => ?_)
    exact (h.ne_owner_iff hn hus.owns).mp hx
  · obtain ⟨hfunc, hdata⟩ := hsame howns
    refine (call_calls _ _).trans ?_
    show s.sys.os.calls ++ ((s.sys.os.timer n.owner).function.map
      fun f => (f, (s.sys.os.timer n.owner).data)).toList = _
    rw [hag.2, hfunc, hdata]
  · refine (agreeOn_of_not_owns fun howns' => ?_).mpr ?_
    · obtain ⟨us, hus'⟩ := howns'.due s.since
      exact ((expire_due s.sys.os tab n.owner n.owner us).mp hus').1 hhandle
    · show (Function.update s.linux.timer n.owner _ n.owner).due = none
      rw [Function.update_self]

/-! ### Runs -/

theorem mod_cur {s s' : Sys T F} (hs : s.step (.mod t after handle) = some s') :
    s'.os.curTimeoutId = s.os.curTimeoutId := by
  obtain ⟨-, hs⟩ := Option.ite_none_right_eq_some.mp hs
  obtain ⟨os', hmod, rfl⟩ := Option.map_eq_some_iff.mp hs
  obtain ⟨os, hcancel, rfl⟩ := Option.map_eq_some_iff.mp hmod
  obtain ⟨-, -, -, hcur⟩ := cancelTimer_some hcancel
  refine Eq.trans ?_ hcur
  by_cases hafter : after = 0
  · rw [if_pos hafter]
    exact (call_eq os t).2.2.2.2
  · rw [if_neg hafter]
    rfl

theorem del_cur {s s' : Sys T F} (hs : s.step (.del t) = some s') :
    s'.os.curTimeoutId = s.os.curTimeoutId := by
  obtain ⟨-, hs⟩ := Option.ite_none_right_eq_some.mp hs
  obtain ⟨os', hdel, rfl⟩ := Option.map_eq_some_iff.mp hs
  obtain ⟨os, hcancel, rfl⟩ := Option.map_eq_some_iff.mp hdel
  exact (cancelTimer_some hcancel).2.2.2

/-- **A step that meets its condition** keeps the agreement. -/
theorem agree_step (hinv : Inv s.sys L) (hcur : s.sys.os.curTimeoutId = noId) (hag : Agree s)
    {a : Event T F} (hm : Meets s a) (hs : s.step a = some s') :
    (∃ L', Inv s'.sys L') ∧ s'.sys.os.curTimeoutId = noId ∧ Agree s' := by
  cases a with
  | set t f d =>
    have hag' := set_agree hag hs
    obtain rfl := Option.some.inj hs
    exact ⟨inv_step (a := .set t f d) hinv trivial rfl, hcur, hag'⟩
  | init t =>
    have hag' := (init_agree hag hs).mpr hm
    obtain ⟨sys, hsys, rfl⟩ := Option.map_eq_some_iff.mp hs
    refine ⟨inv_step (a := .init t) hinv (fun harmed => hm harmed.2) hsys, ?_, hag'⟩
    obtain ⟨-, hsys⟩ := Option.ite_none_right_eq_some.mp hsys
    obtain rfl := Option.some.inj hsys
    exact hcur
  | mod t expires handle =>
    have hag' := (hinv.mod_agree hag hs).mpr hm
    obtain ⟨sys, hsys, rfl⟩ := Option.map_eq_some_iff.mp hs
    exact ⟨(hinv.mod hm.1 hsys).1, (mod_cur hsys).trans hcur, hag'⟩
  | added =>
    obtain ⟨hcur', hag'⟩ := added_agree hag hcur hs
    obtain ⟨sys, hsys, rfl⟩ := Option.map_eq_some_iff.mp hs
    exact ⟨hinv.added (fun hne => absurd hcur hne) hsys, hcur', hag'⟩
  | finish =>
    obtain ⟨sys, hsys, rfl⟩ := Option.map_eq_some_iff.mp hs
    refine ⟨inv_step (a := .finish) hinv trivial hsys, ?_⟩
    obtain ⟨-, hsys⟩ := Option.ite_none_right_eq_some.mp hsys
    obtain rfl := Option.some.inj hsys
    exact ⟨rfl, hag.of_fields rfl (fun _ => rfl) (fun _ => ⟨rfl, rfl⟩) rfl rfl rfl⟩
  | del t =>
    have hag' := (hinv.del_agree hag hs).mpr hm
    obtain ⟨sys, hsys, rfl⟩ := Option.map_eq_some_iff.mp hs
    exact ⟨(hinv.del hm hsys).1, (del_cur hsys).trans hcur, hag'⟩
  | expire handle =>
    obtain ⟨hcur', hag'⟩ := hinv.expire_agree hag hm hs
    refine ⟨?_, hcur'.trans hcur, hag'⟩
    unfold Timed.step at hs
    rcases hn : s.sys.os.native handle with _ | n <;> simp only [hn] at hs
    · cases hs
    obtain ⟨-, hs⟩ := Option.ite_none_right_eq_some.mp hs
    obtain ⟨sys, hsys, rfl⟩ := Option.map_eq_some_iff.mp hs
    exact inv_step (a := .expire handle) hinv (fun _ _ _ => hcur) hsys
  | tick =>
    obtain rfl := Option.some.inj hs
    exact ⟨⟨L, hinv⟩, hcur, hag⟩

omit [DecidableEq T] in
theorem agree_fresh (h : s.Fresh) : Agree s := by
  obtain ⟨⟨-, -, hnative, -⟩, hdue, hcalls⟩ := h
  refine ⟨fun t => (agreeOn_of_not_owns ?_).mpr (hdue t), hcalls⟩
  rintro ⟨n, hn, -⟩
  rw [hnative] at hn
  cases hn

theorem agree_reach (h : Reach (timed T F) Meets s) :
    (∃ L, Inv s.sys L) ∧ s.sys.os.curTimeoutId = noId ∧ Agree s := by
  induction h with
  | init hs => exact ⟨⟨_, inv_fresh hs.1⟩, hs.1.2.2.2.2.1, agree_fresh hs⟩
  | step _ hm hs ih =>
    obtain ⟨⟨L, hinv⟩, hcur, hag⟩ := ih
    exact agree_step hinv hcur hag hm hs

/-- **The timers of the port refine those of Linux** in runs of steps that meet their conditions:
the same timers are pending until the same tick, for the same functions, and the same functions have
been called. A step that does not meet its condition ends this, if no timer expires in it. -/
theorem refines_linux (h : Reach (timed T F) Meets s) : Agree s ∧
    ∀ a s', (∀ handle, a ≠ .expire handle) → s.step a = some s' → (Agree s' ↔ Meets s a) := by
  obtain ⟨⟨L, hinv⟩, hcur, hag⟩ := agree_reach h
  refine ⟨hag, fun a s' ha hs => ?_⟩
  by_cases hm : Meets s a
  · exact iff_of_true (agree_step hinv hcur hag hm hs).2.2 hm
  refine iff_of_false (fun hag' => hm ?_) hm
  cases a with
  | init t => exact (init_agree hag hs).mp hag'
  | mod t expires handle => exact (hinv.mod_agree hag hs).mp hag'
  | del t => exact (hinv.del_agree hag hs).mp hag'
  | expire handle => exact absurd rfl (ha handle)
  | _ => trivial

/-! ### Runs of one timer -/

/-- A timer that has not been started, at a time. -/
def off (now : ℕ) : Timed Unit ℕ where
  sys := ⟨⟨fun _ => .zero, ⟨fun _ => none, fun _ => none, 0⟩, fun _ => none, false, noId, []⟩,
    none, 0⟩
  linux := ⟨fun _ => ⟨none, 0, none⟩, []⟩
  now := now
  since := fun _ => 0

theorem fresh_off (now : ℕ) : (off now).Fresh :=
  ⟨⟨fun _ => rfl, fun _ => rfl, fun _ => rfl, rfl, rfl, rfl, rfl⟩, fun _ => rfl, rfl⟩

instance (os : State T F) (t : T) : Decidable (Owns os t) :=
  inferInstanceAs (Decidable (∃ n, n ∈ os.native (os.hander t) ∧ n.owner = t))

instance (os : State T F) (t : T) : Decidable (StopsOwn os t) :=
  inferInstanceAs (Decidable ((os.timer t).bTimerStart = true →
    ∀ n, n ∈ os.native (os.hander t) → n.owner = t))

instance [DecidableEq F] (os : State T F) (l : Linux T F) (t : T) : Decidable (SameFunc os l t) :=
  inferInstanceAs (Decidable (_ ∧ _))

instance [DecidableEq F] : ∀ (s : Timed T F) (a : Event T F), Decidable (Meets s a)
  | s, .init t => inferInstanceAs (Decidable (¬ Owns s.sys.os t))
  | s, .mod t expires _ => inferInstanceAs (Decidable (StopsOwn s.sys.os t ∧
      SameFunc s.sys.os s.linux t ∧ s.jiffies < expires ∧
        (expires - s.jiffies).toNat * 1000 < 2 ^ 32))
  | s, .del t => inferInstanceAs (Decidable (StopsOwn s.sys.os t))
  | s, .expire handle =>
    inferInstanceAs (Decidable (∀ t, t ∈ s.sys.starting → s.sys.os.hander t ≠ handle))
  | _, .set .. | _, .added | _, .finish | _, .tick => instDecidableTrue

/-- A timer is started, expires, and is started again. -/
def again : List (Event Unit ℕ) :=
  [.init (), .set () 7 3, .mod () 2 5, .added, .tick, .tick, .expire 5, .mod () 4 5, .added]

theorem refines_linux_again : ∃ s, execIf (timed Unit ℕ) Meets (off 0) again = some s ∧
    Agree s ∧ s.linux.calls = [(7, 3)] := by
  obtain ⟨s, hs⟩ := Option.isSome_iff_exists.mp
    (show (execIf (timed Unit ℕ) Meets (off 0) again).isSome = true by decide)
  exact ⟨s, hs, (refines_linux ((Reach.init (fresh_off 0)).of_execIf hs)).1,
    eq_of_map hs (fun s => s.linux.calls) (by decide)⟩

/-- The function is set before the timer is initialised. -/
def session : List (Event Unit ℕ) :=
  [.set () 7 3, .init (), .mod () 2 5, .added, .tick, .tick, .expire 5]

/-- The timer is deleted and started again. -/
def reorder : List (Event Unit ℕ) :=
  [.init (), .set () 7 3, .mod () 2 5, .added, .del (), .mod () 2 6, .added, .tick, .tick,
    .expire 6]

/-- The timer is started. -/
def started (expires : BitVec 32) : List (Event Unit ℕ) :=
  [.init (), .set () 7 3, .mod () expires 5]

/-- A run after which the port has called some functions, and Linux others. -/
def Differ (now : ℕ) (run : List (Event Unit ℕ)) (calls linuxCalls : List (ℕ × ℕ)) : Prop :=
  ∃ s, exec (timed Unit ℕ) (off now) run = some s ∧
    s.sys.os.calls = calls ∧ s.linux.calls = linuxCalls ∧ ¬ Agree s

theorem differ_of_map {now : ℕ} {run : List (Event Unit ℕ)} {c c' : List (ℕ × ℕ)}
    (h : (exec (timed Unit ℕ) (off now) run).map (fun s => (s.sys.os.calls, s.linux.calls)) =
      some (c, c')) (hne : c ≠ c') : Differ now run c c' := by
  obtain ⟨s, hs, hcalls⟩ := Option.map_eq_some_iff.mp h
  obtain ⟨rfl, rfl⟩ := Prod.mk.inj hcalls
  exact ⟨s, hs, rfl, rfl, fun hag => hne hag.2⟩

/-- **The timers of the port are not those of Linux**: a function that has been set is lost when the
timer is initialised and when it is deleted, and it is called from `atbm_mod_timer` when `jiffies`
is to wrap around before it comes to `expires`, and when it has come to it. -/
theorem timers_differ : Differ 0 session [] [(7, 3)] ∧ Differ 0 reorder [] [(7, 3)] ∧
    Differ (2 ^ 32 - 1) (started 1) [(7, 3)] [] ∧ Differ 9 (started 9) [(7, 3)] [] :=
  ⟨differ_of_map (by decide) (by decide), differ_of_map (by decide) (by decide),
    differ_of_map (by decide) (by decide), differ_of_map (by decide) (by decide)⟩

end Atbm6441.Os.Timer
