import Atbm6441.Os.Timer.Hash

/-!
# Steps of the timers

Any number of timers that are initialised, started, deleted, and expire. `atbm_mod_timer` is two
steps, since the system's timer can expire before it has been put into the table; the function that
it calls in this case may do all that comes until its end. A timer is stopped by its handle, which
it keeps when it expires; as long as this is not the handle of another timer, the table holds the
timers that are armed (`Inv`, `inv_step`).
-/

namespace Atbm6441.Os.Timer

open Atbm6441.Lib Hash

universe u v

variable {T : Type u} {F : Type v}

/-! ### Runs -/

/-- The timers, the one for which `drv_vtimer_start` has returned and which is to be put into the
table, and the calls of `atbm_mod_timer` that are in the function of a timer that has expired. -/
structure Sys (T : Type u) (F : Type v) where
  os : State T F
  starting : Option T
  inFunc : ℕ

inductive Act (T : Type u) (F : Type v)
  /-- a caller sets the function and its argument -/
  | set (t : T) (f : F) (d : ℕ)
  | init (t : T)
  /-- `atbm_mod_timer`, for which `drv_vtimer_start` returns a handle that is not in use -/
  | mod (t : T) (timeAfter handle : ℕ)
  /-- ... it puts the timer in -/
  | added
  /-- ... it ends after the function of a timer that has expired already -/
  | finish
  | del (t : T)
  /-- a timer of the system expires -/
  | expire (handle : ℕ)

variable [DecidableEq T]

def Sys.step (s : Sys T F) : Act T F → Option (Sys T F)
  | .set t f d =>
    some { s with os := s.os.write t { s.os.timer t with function := some f, data := d } }
  | .init t => if s.starting.isNone then some { s with os := s.os.atbmInitTimer t } else none
  | .mod t timeAfter handle =>
    if s.starting.isNone ∧ (s.os.native handle).isNone ∧ handle ≠ noId then
      (s.os.modStart t timeAfter handle).map fun os =>
        { s with os := os, starting := if timeAfter = 0 then none else some t }
    else none
  | .added =>
    match s.starting with
    | none => none
    | some t =>
      (s.os.modAdd t).modExpired.map fun os =>
        ⟨os, none, if s.os.curTimeoutId ≠ noId then s.inFunc + 1 else s.inFunc⟩
  | .finish =>
    if s.starting.isNone ∧ 0 < s.inFunc then some ⟨s.os.modFinish, none, s.inFunc - 1⟩ else none
  | .del t =>
    if s.starting.isNone then (s.os.atbmDelTimer t).map fun os => { s with os := os } else none
  | .expire handle => (s.os.expire handle).map fun os => { s with os := os }

/-- No timer has been started. -/
def Sys.Fresh (s : Sys T F) : Prop :=
  (∀ t, (s.os.timer t).bTimerStart = false) ∧ (∀ i, s.os.tab.head i = none) ∧
    (∀ handle, s.os.native handle = none) ∧ s.os.setStartTimer = false ∧
    s.os.curTimeoutId = noId ∧ s.starting = none ∧ s.inFunc = 0

def system (T : Type u) (F : Type v) [DecidableEq T] : System (Sys T F) (Act T F) where
  init := Sys.Fresh
  step := Sys.step

/-! ### Armed timers -/

/-- A timer of the system runs for the timer, by its handle. -/
def Owns (s : State T F) (t : T) : Prop := ∃ n, s.native (s.hander t) = some n ∧ n.owner = t

/-- A timer is armed. -/
def Armed (s : State T F) (t : T) : Prop := (s.timer t).bTimerStart = true ∧ Owns s t

/-- The handle by which a timer is stopped is not in use for another. -/
def StopsOwn (s : State T F) (t : T) : Prop :=
  (s.timer t).bTimerStart = true → ∀ n, s.native (s.hander t) = some n → n.owner = t

/-- **Sound steps**: no armed timer is initialised; a timer is not stopped by a handle that is in
use for another; when `cur_timeout_id` is looked up it is not in use; and it is free when the timer
that is being started expires. -/
def Sound (s : Sys T F) : Act T F → Prop
  | .init t => ¬ Armed s.os t
  | .mod t _ _ | .del t => StopsOwn s.os t
  | .added => s.os.curTimeoutId ≠ noId → s.os.native s.os.curTimeoutId = none
  | .expire handle =>
    ∀ t, s.starting = some t → s.os.hander t = handle → s.os.curTimeoutId = noId
  | .set .. | .finish => True

/-! ### The invariant -/

/-- The table holds the armed timers; each running timer of the system is that of an armed timer, or
of the one that is being started, which has its own or has left its handle in `cur_timeout_id`. -/
structure Inv (s : Sys T F) (L : ℕ → List T) : Prop where
  tab : s.os.tab.Wf L
  mem : ∀ i t, t ∈ L i ↔ Armed s.os t ∧ i = timerHash (s.os.hander t)
  owner : ∀ handle n, s.os.native handle = some n → s.os.hander n.owner = handle ∧
    ((s.os.timer n.owner).bTimerStart = true ∨ s.starting = some n.owner)
  starting : ∀ t, s.starting = some t → (s.os.timer t).bTimerStart = false ∧
    s.os.hander t ≠ noId ∧ s.os.setStartTimer = true ∧
    (Owns s.os t ∨ s.os.native (s.os.hander t) = none ∧ s.os.curTimeoutId = s.os.hander t)

variable {s s' : Sys T F} {os os' : State T F} {L : ℕ → List T} {t : T} {handle : ℕ}

omit [DecidableEq T] in
theorem inv_fresh (h : s.Fresh) : Inv s fun _ => [] := by
  obtain ⟨hflag, hhead, hnative, -, -, hstarting, -⟩ := h
  refine ⟨⟨fun i => ?_, fun i j t hi => ?_, fun i => Nat.zero_le _⟩, fun i t => ?_,
    fun k n hk => ?_, fun t ht => ?_⟩
  · rw [hhead]
    exact .nil
  · cases hi
  · constructor
    · intro hi
      cases hi
    · rintro ⟨⟨hstart, -⟩, -⟩
      rw [hflag] at hstart
      cases hstart
  · rw [hnative] at hk
    cases hk
  · rw [hstarting] at ht
    cases ht

omit [DecidableEq T] in
theorem call_eq (os : State T F) (t : T) : (os.call t).timer = os.timer ∧
    (os.call t).tab = os.tab ∧ (os.call t).native = os.native ∧
    (os.call t).setStartTimer = os.setStartTimer ∧ (os.call t).curTimeoutId = os.curTimeoutId := by
  unfold State.call
  split <;> exact ⟨rfl, rfl, rfl, rfl, rfl⟩

omit [DecidableEq T] in
theorem Inv.call (h : Inv s L) (t : T) : Inv { s with os := s.os.call t } L := by
  obtain ⟨htimer, htab, hnative, hset, hcur⟩ := call_eq s.os t
  obtain ⟨h1, h2, h3, h4⟩ := h
  constructor
  all_goals
    simp only [Armed, Owns, State.hander, htimer, htab, hnative, hset, hcur] at h1 h2 h3 h4 ⊢
    assumption

/-- Each timer whose flag is set is armed, and no handle has been left. -/
def Exact (s : Sys T F) : Prop :=
  s.os.curTimeoutId = noId ∧ ∀ t, (s.os.timer t).bTimerStart = true → Armed s.os t

/-! ### The callback -/

omit [DecidableEq T] in
theorem find_unique {l : List T} {p : T → Bool} (ht : t ∈ l) (hp : p t = true)
    (huniq : ∀ x ∈ l, p x = true → x = t) : l.find? p = some t := by
  rcases hfind : l.find? p with _ | x
  · exact absurd hp (List.find?_eq_none.mp hfind t ht)
  · rw [huniq x (List.mem_of_find?_eq_some hfind) (List.find?_some hfind)]

theorem timerOutFunc_none (htab : os.tab.Wf L) (handle : ℕ)
    (hno : ∀ x ∈ L (timerHash handle), os.hander x ≠ handle) : os.timerOutFunc handle =
      some (if os.setStartTimer ∧ os.curTimeoutId = noId then { os with curTimeoutId := handle }
        else os) := by
  have hfind : (L (timerHash handle)).find? (fun x => os.hander x = handle) = none :=
    List.find?_eq_none.mpr fun x hx => by simpa using hno x hx
  simp only [State.timerOutFunc, htab.get, hfind]

theorem timerOutFunc_some (htab : os.tab.Wf L) (ht : t ∈ L (timerHash handle))
    (hhandle : os.hander t = handle)
    (huniq : ∀ x ∈ L (timerHash handle), os.hander x = handle → x = t) :
    ∃ tab, os.timerOutFunc handle = some ((os.writeTab tab).call t) ∧
      tab.Wf fun i => (L i).erase t := by
  have hfind : (L (timerHash handle)).find? (fun x => os.hander x = handle) = some t :=
    find_unique ht (by simpa using hhandle) fun x hx hp => huniq x hx (by simpa using hp)
  obtain ⟨tab, hdel, hwf⟩ := htab.delBytimer (t := t) handle
    fun i hi => htab.once i _ t hi ht
  refine ⟨tab, ?_, hwf⟩
  simp only [State.timerOutFunc, htab.get, hfind, hhandle, hdel, Option.map_some]

omit [DecidableEq T] in
theorem Owns.unique {x : T} (h : Owns os t) (h' : Owns os x) (heq : os.hander x = os.hander t) :
    x = t := by
  obtain ⟨n, hn, rfl⟩ := h
  obtain ⟨n', hn', rfl⟩ := h'
  rw [heq, hn] at hn'
  rw [Option.some.inj hn']

omit [DecidableEq T] in
theorem Inv.hander_ne (h : Inv s L) (hfree : s.os.native handle = none) {i : ℕ} {x : T}
    (hx : x ∈ L i) : s.os.hander x ≠ handle := by
  obtain ⟨⟨-, n, hn, -⟩, -⟩ := (h.mem i x).mp hx
  rintro rfl
  rw [hfree] at hn
  cases hn

/-- **The timer of the system of an armed timer expires**: the timer leaves the table, and its
function is called. -/
theorem Inv.expire_some (h : Inv s L) {n : Native T} (hn : s.os.native handle = some n)
    (hon : (s.os.timer n.owner).bTimerStart = true) : ∃ tab,
    s.os.expire handle = some (((s.os.writeNative handle none).writeTab tab).call n.owner) ∧
      tab.Wf fun i => (L i).erase n.owner := by
  obtain ⟨hhandle, -⟩ := h.owner handle n hn
  have howns : Owns s.os n.owner := ⟨n, by rw [hhandle, hn], rfl⟩
  have hin : n.owner ∈ L (timerHash handle) := (h.mem _ _).mpr ⟨⟨hon, howns⟩, by rw [hhandle]⟩
  have hwf : (s.os.writeNative handle none).tab.Wf L := h.tab
  obtain ⟨tab, hout, hwf'⟩ := timerOutFunc_some hwf hin hhandle fun x hx hxh =>
    howns.unique ((h.mem _ x).mp hx).1.2 (by rw [hhandle, ← hxh]; rfl)
  refine ⟨tab, ?_, hwf'⟩
  unfold State.expire
  rw [if_pos (by rw [hn]; rfl), hout]

omit [DecidableEq T] in
theorem native_stop {k : ℕ} {n : Native T} :
    (os.writeNative handle none).native k = some n ↔ k ≠ handle ∧ os.native k = some n := by
  show Function.update os.native handle none k = some n ↔ _
  by_cases hk : k = handle
  · rw [hk, Function.update_self]
    simp
  · rw [Function.update_of_ne hk]
    simp [hk]

omit [DecidableEq T] in
/-- The timers that still have a timer of the system when one is gone. -/
theorem owns_stop {x : T} :
    Owns (os.writeNative handle none) x ↔ os.hander x ≠ handle ∧ Owns os x := by
  constructor
  · rintro ⟨n, hn, hown⟩
    obtain ⟨hk, hn⟩ := native_stop.mp hn
    exact ⟨hk, n, hn, hown⟩
  · rintro ⟨hk, n, hn, hown⟩
    exact ⟨n, native_stop.mpr ⟨hk, hn⟩, hown⟩

omit [DecidableEq T] in
theorem Inv.ne_owner_iff (h : Inv s L) {n : Native T} (hn : s.os.native handle = some n) {x : T}
    (hx : Owns s.os x) : x ≠ n.owner ↔ s.os.hander x ≠ handle := by
  obtain ⟨hhandle, -⟩ := h.owner handle n hn
  constructor
  · intro hne heq
    exact hne (Owns.unique ⟨n, by rw [hhandle, hn], rfl⟩ hx (by rw [heq, hhandle]))
  · rintro hne rfl
    exact hne hhandle

theorem Inv.expire_armed (h : Inv s L) {n : Native T} (hn : s.os.native handle = some n)
    (hon : (s.os.timer n.owner).bTimerStart = true) {tab : Hash T}
    (hwf : tab.Wf fun i => (L i).erase n.owner) :
    Inv { s with os := (s.os.writeNative handle none).writeTab tab }
      fun i => (L i).erase n.owner := by
  refine ⟨hwf, fun i x => ?_, fun k m hm => ?_, fun x hx => ?_⟩
  · rw [(h.tab.chain i).nodup.mem_erase_iff, h.mem i x]
    show _ ↔ ((s.os.timer x).bTimerStart = true ∧ Owns (s.os.writeNative handle none) x) ∧
      i = timerHash (s.os.hander x)
    rw [owns_stop]
    constructor
    · rintro ⟨hne, ⟨hxon, hx⟩, hi⟩
      exact ⟨⟨hxon, (h.ne_owner_iff hn hx).mp hne, hx⟩, hi⟩
    · rintro ⟨⟨hxon, hne, hx⟩, hi⟩
      exact ⟨(h.ne_owner_iff hn hx).mpr hne, ⟨hxon, hx⟩, hi⟩
  · exact h.owner k m (native_stop.mp hm).2
  · obtain ⟨hoff, hid, hset, hor⟩ := h.starting x hx
    refine ⟨hoff, hid, hset, ?_⟩
    rcases hor with howns | ⟨hgone, hleft⟩
    · refine Or.inl (owns_stop.mpr ⟨(h.ne_owner_iff hn howns).mp fun heq => ?_, howns⟩)
      rw [heq, hon] at hoff
      cases hoff
    · refine Or.inr ⟨?_, hleft⟩
      show Function.update s.os.native handle none (s.os.hander x) = none
      by_cases hk : s.os.hander x = handle
      · rw [hk, Function.update_self]
      · rw [Function.update_of_ne hk]
        exact hgone

omit [DecidableEq T] in
theorem Inv.expire_starting (h : Inv s L) {n : Native T} (hn : s.os.native handle = some n)
    (hstarting : s.starting = some n.owner) :
    Inv { s with os := { s.os.writeNative handle none with curTimeoutId := handle } } L := by
  obtain ⟨hhandle, -⟩ := h.owner handle n hn
  obtain ⟨hoff, hid, hset, -⟩ := h.starting n.owner hstarting
  refine ⟨h.tab, fun i x => ?_, fun k m hm => ?_, fun x hx => ?_⟩
  · rw [h.mem i x]
    show _ ↔ ((s.os.timer x).bTimerStart = true ∧ Owns (s.os.writeNative handle none) x) ∧
      i = timerHash (s.os.hander x)
    rw [owns_stop]
    constructor
    · rintro ⟨⟨hxon, hx⟩, hi⟩
      refine ⟨⟨hxon, (h.ne_owner_iff hn hx).mp fun heq => ?_, hx⟩, hi⟩
      rw [← heq, hxon] at hoff
      cases hoff
    · rintro ⟨⟨hxon, -, hx⟩, hi⟩
      exact ⟨⟨hxon, hx⟩, hi⟩
  · exact h.owner k m (native_stop.mp hm).2
  · obtain rfl : n.owner = x := Option.some.inj (hstarting.symm.trans hx)
    refine ⟨hoff, hid, hset, Or.inr ⟨?_, hhandle.symm⟩⟩
    show Function.update s.os.native handle none (s.os.hander n.owner) = none
    rw [hhandle, Function.update_self]

/-- **A timer of the system expires**: it was that of an armed timer, which leaves the table, or of
the one that is being started, which leaves its handle. -/
theorem Inv.expire (h : Inv s L) (hsound : Sound s (.expire handle))
    (ht : s.os.expire handle = some os') : ∃ L', Inv { s with os := os' } L' := by
  obtain ⟨hrun, hout⟩ := Option.ite_none_right_eq_some.mp ht
  obtain ⟨n, hn⟩ := Option.isSome_iff_exists.mp hrun
  obtain ⟨hhandle, hon | hstarting⟩ := h.owner handle n hn
  · obtain ⟨tab, hos, hwf⟩ := h.expire_some hn hon
    obtain rfl := Option.some.inj (ht.symm.trans hos)
    exact ⟨_, (h.expire_armed hn hon hwf).call n.owner⟩
  · obtain ⟨hoff, -, hset, -⟩ := h.starting n.owner hstarting
    have hwf : (s.os.writeNative handle none).tab.Wf L := h.tab
    have hnone := timerOutFunc_none hwf handle fun x hx hxh => by
      obtain ⟨⟨hxon, hx⟩, -⟩ := (h.mem _ x).mp hx
      have heq : x = n.owner := by_contra fun hne => (h.ne_owner_iff hn hx).mp hne hxh
      rw [heq, hoff] at hxon
      cases hxon
    rw [hout, if_pos ⟨hset, hsound n.owner hstarting hhandle⟩] at hnone
    obtain rfl := Option.some.inj hnone
    exact ⟨L, h.expire_starting hn hstarting⟩

/-! ### The operations -/

/-- The timer after `_cancel_timer`. -/
def stopped (x : AtbmTimerList F) : AtbmTimerList F := { x with bTimerStart := false }

theorem update_stopped (hoff : (os.timer t).bTimerStart = false) :
    Function.update os.timer t (stopped (os.timer t)) = os.timer := by
  have hsame : stopped (os.timer t) = os.timer t := by
    unfold stopped
    rw [← hoff]
  rw [hsame, Function.update_eq_self]

theorem hander_update (os : State T F) (t : T) (x : AtbmTimerList F)
    (hx : x.timerHander = os.hander t) (y : T) :
    (Function.update os.timer t x y).timerHander = os.hander y := by
  by_cases hy : y = t
  · rw [hy, Function.update_self, hx]
  · rw [Function.update_of_ne hy]
    rfl

theorem flag_update (os : State T F) (t : T) (x : AtbmTimerList F)
    (hx : x.bTimerStart = (os.timer t).bTimerStart) (y : T) :
    (Function.update os.timer t x y).bTimerStart = (os.timer y).bTimerStart := by
  by_cases hy : y = t
  · rw [hy, Function.update_self, hx]
  · rw [Function.update_of_ne hy]

theorem cancelTimer_some (h : os.cancelTimer t = some os') :
    os'.timer = Function.update os.timer t (stopped (os.timer t)) ∧
      (os'.native = if (os.timer t).bTimerStart then
        Function.update os.native (os.hander t) none else os.native) ∧
      os'.calls = os.calls ∧ os'.curTimeoutId = os.curTimeoutId := by
  unfold State.cancelTimer at h
  by_cases hon : (os.timer t).bTimerStart = true
  · rw [if_pos hon] at h
    obtain ⟨tab, -, rfl⟩ := Option.map_eq_some_iff.mp h
    exact ⟨rfl, (if_pos hon).symm, rfl, rfl⟩
  · rw [if_neg hon] at h
    obtain rfl := Option.some.inj h
    exact ⟨(update_stopped (by simpa using hon)).symm, (if_neg hon).symm, rfl, rfl⟩

theorem cancelTimer_hander (h : os.cancelTimer t = some os') (x : T) :
    os'.hander x = os.hander x := by
  unfold State.hander
  rw [(cancelTimer_some h).1]
  exact hander_update os t (stopped (os.timer t)) rfl x

theorem cancelTimer_none (h : os.cancelTimer t = some os') {k : ℕ} (hk : os.native k = none) :
    os'.native k = none := by
  rw [(cancelTimer_some h).2.1]
  split
  · by_cases hkt : k = os.hander t
    · rw [hkt, Function.update_self]
    · rw [Function.update_of_ne hkt, hk]
  · exact hk

theorem cancelTimer_native (h : os.cancelTimer t = some os') (hown : StopsOwn os t) {n : Native T}
    (hne : n.owner ≠ t) {k : ℕ} : os'.native k = some n ↔ os.native k = some n := by
  obtain ⟨-, hnative, -⟩ := cancelTimer_some h
  rw [hnative]
  by_cases hon : (os.timer t).bTimerStart = true
  swap
  · rw [if_neg hon]
  rw [if_pos hon]
  by_cases hk : k = os.hander t
  · rw [hk, Function.update_self]
    exact iff_of_false nofun fun hn => hne (hown hon n hn)
  · rw [Function.update_of_ne hk]

theorem Inv.cancelTimer_owner (h : Inv s L) (hstarting : s.starting = none)
    (hc : s.os.cancelTimer t = some os) {k : ℕ} {n : Native T} (hn : os.native k = some n) :
    n.owner ≠ t := by
  rintro rfl
  obtain ⟨-, hnative, -⟩ := cancelTimer_some hc
  rw [hnative] at hn
  by_cases hon : (s.os.timer n.owner).bTimerStart = true
  · rw [if_pos hon] at hn
    by_cases hk : k = s.os.hander n.owner
    · rw [hk, Function.update_self] at hn
      cases hn
    · rw [Function.update_of_ne hk] at hn
      exact hk (h.owner k n hn).1.symm
  · rw [if_neg hon] at hn
    obtain ⟨-, hor⟩ := h.owner k n hn
    rw [hstarting] at hor
    exact hor.elim hon nofun

theorem cancelTimer_armed (h : os.cancelTimer t = some os') (hown : StopsOwn os t) (x : T) :
    Armed os' x ↔ x ≠ t ∧ Armed os x := by
  obtain ⟨htimer, -⟩ := cancelTimer_some h
  by_cases hx : x = t
  · refine iff_of_false (fun harmed => ?_) fun hne => hne.1 hx
    have hon := harmed.1
    rw [htimer, hx, Function.update_self] at hon
    cases hon
  · rw [and_iff_right hx]
    unfold Armed Owns
    rw [cancelTimer_hander h, htimer, Function.update_of_ne hx]
    refine and_congr_right fun _ => exists_congr fun n => and_congr_left fun hown' => ?_
    exact cancelTimer_native h hown fun heq => hx (hown'.symm.trans heq)

theorem Inv.cancel_wf (h : Inv s L) (t : T) :
    ∃ os, s.os.cancelTimer t = some os ∧ os.tab.Wf fun i => (L i).erase t := by
  unfold State.cancelTimer
  by_cases hon : (s.os.timer t).bTimerStart = true
  · obtain ⟨tab, hdel, hwf⟩ := h.tab.delBytimer (t := t) (s.os.hander t)
      fun i hi => ((h.mem i t).mp hi).2
    rw [if_pos hon, hdel, Option.map_some]
    exact ⟨_, rfl, hwf⟩
  · have herase : (fun i => (L i).erase t) = L := by
      funext i
      exact List.erase_of_not_mem fun hi => hon ((h.mem i t).mp hi).1.1
    rw [if_neg hon, herase]
    exact ⟨s.os, rfl, h.tab⟩

/-- **A timer is stopped**, and the others stay as they are. -/
theorem Inv.cancel (h : Inv s L) (hstarting : s.starting = none) (hown : StopsOwn s.os t)
    (hc : s.os.cancelTimer t = some os) : Inv { s with os := os } fun i => (L i).erase t := by
  obtain ⟨os', hc', hwf⟩ := h.cancel_wf t
  obtain rfl := Option.some.inj (hc.symm.trans hc')
  refine ⟨hwf, fun i x => ?_, fun k n hn => ?_, fun x hx => ?_⟩
  · rw [(h.tab.chain i).nodup.mem_erase_iff, h.mem i x]
    show _ ↔ Armed os x ∧ i = timerHash (os.hander x)
    rw [cancelTimer_armed hc hown, cancelTimer_hander hc, and_assoc]
  · have hne := h.cancelTimer_owner hstarting hc hn
    obtain ⟨hhandle, hor⟩ := h.owner k n ((cancelTimer_native hc hown hne).mp hn)
    show os.hander n.owner = k ∧ ((os.timer n.owner).bTimerStart = true ∨ _)
    rw [cancelTimer_hander hc, (cancelTimer_some hc).1, Function.update_of_ne hne]
    exact ⟨hhandle, hor⟩
  · have hx : s.starting = some x := hx
    rw [hstarting] at hx
    cases hx

omit [DecidableEq T] in
/-- `Inv` looks at these fields only. -/
theorem Inv.of_fields (h : Inv s L) (htab : s'.os.tab = s.os.tab)
    (hflag : ∀ x, (s'.os.timer x).bTimerStart = (s.os.timer x).bTimerStart)
    (hander : ∀ x, s'.os.hander x = s.os.hander x) (hnative : s'.os.native = s.os.native)
    (hstarting : s'.starting = s.starting) (hset : s.starting ≠ none →
      s'.os.setStartTimer = s.os.setStartTimer ∧ s'.os.curTimeoutId = s.os.curTimeoutId) :
    Inv s' L := by
  have hsame : ∀ x, Owns s'.os x ↔ Owns s.os x := fun x => by
    unfold Owns
    rw [hander, hnative]
  refine ⟨htab ▸ h.tab, fun i x => ?_, fun k n hn => ?_, fun x hx => ?_⟩
  · unfold Armed
    rw [hflag, hander, hsame]
    exact h.mem i x
  · rw [hander, hflag, hstarting]
    exact h.owner k n (hnative ▸ hn)
  · rw [hstarting] at hx
    obtain ⟨hset, hcur⟩ := hset (by rw [hx]; simp)
    rw [hander, hflag, hsame, hnative, hset, hcur]
    exact h.starting x hx

omit [DecidableEq T] in
theorem Inv.owner_ne (h : Inv s L) (hstarting : s.starting = none) (hno : ¬ Armed s.os t) {k : ℕ}
    {n : Native T} (hn : s.os.native k = some n) : n.owner ≠ t := by
  rintro rfl
  obtain ⟨rfl, hon | hstart⟩ := h.owner k n hn
  · exact hno ⟨hon, n, hn, rfl⟩
  · rw [hstarting] at hstart
    cases hstart

/-- **A timer is written** that is not armed, and its link. -/
theorem Inv.rewrite (h : Inv s L) (hstarting : s.starting = none) (hno : ¬ Armed s.os t)
    {x : AtbmTimerList F} (hx : x.bTimerStart = false) (q : Option T) :
    Inv { s with
      os := (s.os.write t x).writeTab
        { s.os.tab with hnext := Function.update s.os.tab.hnext t q } } L := by
  have hnot : ∀ i, t ∉ L i := fun i hi => hno ((h.mem i t).mp hi).1
  have hother : ∀ y, y ≠ t → (s.os.write t x).timer y = s.os.timer y := fun y hy =>
    Function.update_of_ne hy _ _
  have hself : ((s.os.write t x).timer t).bTimerStart = false := by
    show (Function.update s.os.timer t x t).bTimerStart = false
    rw [Function.update_self, hx]
  refine ⟨h.tab.write hnot q, fun i y => ?_, fun k n hn => ?_, fun y hy => ?_⟩
  · by_cases hy : y = t
    · rw [hy]
      refine iff_of_false (hnot i) fun harmed => ?_
      have hon : ((s.os.write t x).timer t).bTimerStart = true := harmed.1.1
      rw [hself] at hon
      cases hon
    · show _ ↔ (((s.os.write t x).timer y).bTimerStart = true ∧
        ∃ n, s.os.native ((s.os.write t x).timer y).timerHander = some n ∧ n.owner = y) ∧
          i = timerHash ((s.os.write t x).timer y).timerHander
      rw [hother y hy]
      exact h.mem i y
  · have hn : s.os.native k = some n := hn
    have hne := h.owner_ne hstarting hno hn
    show ((s.os.write t x).timer n.owner).timerHander = k ∧
      (((s.os.write t x).timer n.owner).bTimerStart = true ∨ _)
    rw [hother _ hne]
    exact h.owner k n hn
  · have hy : s.starting = some y := hy
    rw [hstarting] at hy
    cases hy

theorem owns_vtimerStart {x : T} (hx : x ≠ t) (hfree : os.native handle = none) (timeAfter : ℕ) :
    Owns (os.vtimerStart t timeAfter handle) x ↔ Owns os x := by
  have hander : (os.vtimerStart t timeAfter handle).hander x = os.hander x :=
    congrArg AtbmTimerList.timerHander (Function.update_of_ne hx _ _)
  unfold Owns
  rw [hander]
  show (∃ n, Function.update os.native handle _ (os.hander x) = some n ∧ n.owner = x) ↔ _
  by_cases hk : os.hander x = handle
  · rw [hk, Function.update_self, hfree]
    refine iff_of_false ?_ nofun
    rintro ⟨n, hn, hown⟩
    obtain rfl := Option.some.inj hn
    exact hx hown.symm
  · rw [Function.update_of_ne hk]

/-- **A timer is started** by a handle that is not in use. -/
theorem Inv.start (h : Inv s L) (hstarting : s.starting = none)
    (hoff : (s.os.timer t).bTimerStart = false) (hfree : s.os.native handle = none)
    (hid : handle ≠ noId) (timeAfter : ℕ) :
    Inv { s with os := s.os.vtimerStart t timeAfter handle, starting := some t } L := by
  generalize hos : s.os.vtimerStart t timeAfter handle = os
  have htimer : os.timer =
      Function.update s.os.timer t { s.os.timer t with timerHander := handle } := by rw [← hos]; rfl
  have hnative : os.native = Function.update s.os.native handle (some ⟨t, initMs timeAfter⟩) := by
    rw [← hos]; rfl
  have htab : os.tab = s.os.tab := by rw [← hos]; rfl
  have hset : os.setStartTimer = true := by rw [← hos]; rfl
  have hself : os.hander t = handle := by
    unfold State.hander
    rw [htimer, Function.update_self]
  have hother : ∀ x, x ≠ t → os.timer x = s.os.timer x := fun x hx => by
    rw [htimer, Function.update_of_ne hx]
  have hflag : (os.timer t).bTimerStart = false := by
    rw [htimer, Function.update_self]
    exact hoff
  have hno : ¬ Armed s.os t := fun harmed => by
    rw [harmed.1] at hoff
    cases hoff
  refine ⟨htab ▸ h.tab, fun i x => ?_, fun k n hn => ?_, fun x hx => ?_⟩
  · show _ ↔ ((os.timer x).bTimerStart = true ∧ Owns os x) ∧ i = timerHash (os.hander x)
    by_cases hx : x = t
    · rw [hx, hflag]
      exact iff_of_false (fun hi => hno ((h.mem i t).mp hi).1) fun harmed => nomatch harmed.1.1
    · have howns : Owns os x ↔ Owns s.os x := hos ▸ owns_vtimerStart hx hfree timeAfter
      rw [howns, State.hander, hother x hx]
      exact h.mem i x
  · have hn : os.native k = some n := hn
    rw [hnative] at hn
    show os.hander n.owner = k ∧ ((os.timer n.owner).bTimerStart = true ∨ some t = some n.owner)
    by_cases hk : k = handle
    · rw [hk, Function.update_self] at hn
      obtain rfl := Option.some.inj hn
      exact ⟨hk ▸ hself, Or.inr rfl⟩
    · rw [Function.update_of_ne hk] at hn
      rw [State.hander, hother _ (h.owner_ne hstarting hno hn)]
      obtain ⟨hhandle, hon | hstart⟩ := h.owner k n hn
      · exact ⟨hhandle, Or.inl hon⟩
      · rw [hstarting] at hstart
        cases hstart
  · obtain rfl : t = x := Option.some.inj hx
    show (os.timer t).bTimerStart = false ∧ os.hander t ≠ noId ∧ os.setStartTimer = true ∧
      (Owns os t ∨ _)
    rw [hself]
    refine ⟨hflag, hid, hset, Or.inl ⟨⟨t, initMs timeAfter⟩, ?_, rfl⟩⟩
    rw [hself, hnative, Function.update_self]

/-- **The timer that is being started is put in**, with its flag. -/
theorem Inv.put (h : Inv s L) (hstarting : s.starting = some t) (howns : Owns s.os t)
    (hs' : s'.starting = none) (htab : s'.os.tab = (s.os.modAdd t).tab)
    (htimer : s'.os.timer = (s.os.modAdd t).timer) (hnative : s'.os.native = s.os.native) :
    Inv s' (Function.update L (timerHash (s.os.hander t))
      (t :: L (timerHash (s.os.hander t)))) := by
  obtain ⟨hoff, -⟩ := h.starting t hstarting
  have hnot : ∀ i, t ∉ L i := fun i hi => by
    rw [((h.mem i t).mp hi).1.1] at hoff
    cases hoff
  have htimer' : s'.os.timer =
      Function.update s.os.timer t { s.os.timer t with bTimerStart := true } := htimer
  have hander : ∀ x, s'.os.hander x = s.os.hander x := fun x => by
    unfold State.hander
    rw [htimer']
    exact hander_update s.os t { s.os.timer t with bTimerStart := true } rfl x
  have howns' : ∀ x, Owns s'.os x ↔ Owns s.os x := fun x => by
    unfold Owns
    rw [hander, hnative]
  have hself : (s'.os.timer t).bTimerStart = true := by rw [htimer', Function.update_self]
  have hother : ∀ x, x ≠ t → s'.os.timer x = s.os.timer x := fun x hx => by
    rw [htimer', Function.update_of_ne hx]
  refine ⟨htab ▸ h.tab.add hnot (s.os.hander t), fun i x => ?_, fun k n hn => ?_, fun x hx => ?_⟩
  · rw [mem_update, Armed, howns', hander]
    by_cases hx : x = t
    · rw [hx, hself]
      simp [howns, hnot]
    · rw [hother x hx]
      simp only [hx, false_and, false_or]
      exact h.mem i x
  · obtain ⟨hhandle, hor⟩ := h.owner k n (hnative ▸ hn)
    rw [hander]
    refine ⟨hhandle, Or.inl ?_⟩
    by_cases hx : n.owner = t
    · rw [hx, hself]
    · rw [hother _ hx]
      refine hor.resolve_right fun hstart => hx ?_
      rw [hstarting] at hstart
      exact (Option.some.inj hstart).symm
  · rw [hs'] at hx
    cases hx

/-- **The timer that is being started and has expired** is put in, and taken out again. -/
theorem Inv.putExpired (h : Inv s L) (hstarting : s.starting = some t)
    (hgone : s.os.native (s.os.hander t) = none)
    (ht : (s.os.modAdd t).timerOutFunc (s.os.hander t) = some os)
    (hs' : s' = ⟨os, none, s'.inFunc⟩) : ∃ L', Inv s' L' := by
  obtain ⟨hoff, -⟩ := h.starting t hstarting
  have hnot : ∀ i, t ∉ L i := fun i hi => by
    rw [((h.mem i t).mp hi).1.1] at hoff
    cases hoff
  have hander : ∀ x, (s.os.modAdd t).hander x = s.os.hander x := fun x =>
    hander_update s.os t { s.os.timer t with bTimerStart := true } rfl x
  have hother : ∀ x, x ≠ t → (s.os.modAdd t).timer x = s.os.timer x := fun x hx =>
    Function.update_of_ne hx _ _
  have hwf : (s.os.modAdd t).tab.Wf _ := h.tab.add hnot (s.os.hander t)
  obtain ⟨tab, hout, hwf'⟩ := timerOutFunc_some hwf (mem_update.mpr (Or.inl ⟨rfl, rfl⟩)) (hander t)
    fun x hx hxt => by
      rcases mem_update.mp hx with ⟨hx, -⟩ | hx
      · exact hx
      · exact absurd ((hander x).symm.trans hxt) (h.hander_ne hgone hx)
  rw [ht] at hout
  obtain rfl := Option.some.inj hout
  rw [hs']
  refine ⟨_, Inv.call (s := ⟨(s.os.modAdd t).writeTab tab, none, s'.inFunc⟩)
    ⟨hwf', fun i x => ?_, fun k n hn => ?_, fun x hx => nomatch hx⟩ t⟩
  · rw [(hwf.chain i).nodup.mem_erase_iff, mem_update]
    show _ ↔ (((s.os.modAdd t).timer x).bTimerStart = true ∧
      ∃ n, s.os.native ((s.os.modAdd t).hander x) = some n ∧ n.owner = x) ∧
        i = timerHash ((s.os.modAdd t).hander x)
    rw [hander]
    by_cases hx : x = t
    · rw [hx, hgone]
      simp
    · rw [hother x hx]
      simp only [hx, ne_eq, not_false_eq_true, true_and, false_and, false_or]
      exact h.mem i x
  · have hn : s.os.native k = some n := hn
    obtain ⟨hhandle, hor⟩ := h.owner k n hn
    have hne : n.owner ≠ t := fun heq => by
      rw [← heq, hhandle, hn] at hgone
      cases hgone
    show (s.os.modAdd t).hander n.owner = k ∧
      (((s.os.modAdd t).timer n.owner).bTimerStart = true ∨ _)
    rw [hander, hother _ hne]
    refine ⟨hhandle, Or.inl (hor.resolve_right fun hstart => hne ?_)⟩
    rw [hstarting] at hstart
    exact (Option.some.inj hstart).symm

/-- **The end of `atbm_mod_timer`.** -/
theorem Inv.added (h : Inv s L) (hsound : Sound s .added) (ht : s.step .added = some s') :
    ∃ L', Inv s' L' := by
  unfold Sys.step at ht
  rcases hstarting : s.starting with _ | t <;> rw [hstarting] at ht
  · cases ht
  obtain ⟨os, hmod, rfl⟩ := Option.map_eq_some_iff.mp ht
  obtain ⟨hoff, hid, hset, hor⟩ := h.starting t hstarting
  by_cases hcur : s.os.curTimeoutId = noId
  · have hmod : (if s.os.curTimeoutId ≠ noId then _
        else some { s.os.modAdd t with setStartTimer := false }) = some os := hmod
    rw [if_neg (not_not.mpr hcur)] at hmod
    obtain rfl := Option.some.inj hmod
    exact ⟨_, h.put hstarting (hor.resolve_right fun hgone => hid (hgone.2 ▸ hcur)) rfl rfl rfl rfl⟩
  have hfree := hsound hcur
  have hmod : (if s.os.curTimeoutId ≠ noId then
      (s.os.modAdd t).timerOutFunc s.os.curTimeoutId else _) = some os := hmod
  rw [if_pos hcur] at hmod
  rcases hor with howns | ⟨hgone, hleft⟩
  · -- the handle that is looked up is that of no timer
    have hput : Inv ⟨s.os.modAdd t, none, s.inFunc⟩ _ := h.put hstarting howns rfl rfl rfl rfl
    have hout := timerOutFunc_none hput.tab s.os.curTimeoutId
      fun x hx => hput.hander_ne hfree hx
    rw [hmod] at hout
    have hnot : ¬ ((s.os.modAdd t).setStartTimer = true ∧
        (s.os.modAdd t).curTimeoutId = noId) := fun hboth => hcur hboth.2
    rw [if_neg hnot] at hout
    obtain rfl := Option.some.inj hout
    exact ⟨_, hput.of_fields rfl (fun _ => rfl) (fun _ => rfl) rfl rfl fun hne => absurd rfl hne⟩
  · rw [hleft] at hmod
    exact h.putExpired hstarting hgone hmod rfl

/-! ### Runs of sound steps -/

theorem Exact.of_other (h : Exact s) (t : T) (hcur : s'.os.curTimeoutId = s.os.curTimeoutId)
    (hother : ∀ x, x ≠ t → (s'.os.timer x).bTimerStart = (s.os.timer x).bTimerStart ∧
      (Armed s.os x → Armed s'.os x))
    (hself : (s'.os.timer t).bTimerStart = true → Armed s'.os t) : Exact s' := by
  refine ⟨hcur.trans h.1, fun x hx => ?_⟩
  by_cases hxt : x = t
  · exact hxt ▸ hself (hxt ▸ hx)
  · obtain ⟨hflag, harmed⟩ := hother x hxt
    exact harmed (h.2 x (hflag ▸ hx))

omit [DecidableEq T] in
/-- `Exact` looks at these fields only. -/
theorem Exact.of_fields (h : Exact s) (hcur : s'.os.curTimeoutId = s.os.curTimeoutId)
    (hflag : ∀ x, (s'.os.timer x).bTimerStart = (s.os.timer x).bTimerStart)
    (hander : ∀ x, s'.os.hander x = s.os.hander x) (hnative : s'.os.native = s.os.native) :
    Exact s' := by
  refine ⟨hcur.trans h.1, fun x hx => ⟨hx, ?_⟩⟩
  unfold Owns
  rw [hander, hnative]
  exact (h.2 x (hflag x ▸ hx)).2

/-- **`atbm_mod_timer`** up to the start. -/
theorem Inv.mod (h : Inv s L) {timeAfter : ℕ} (hsound : Sound s (.mod t timeAfter handle))
    (ht : s.step (.mod t timeAfter handle) = some s') :
    (∃ L', Inv s' L') ∧ (Exact s → Exact s') := by
  obtain ⟨⟨hstarting, hfree, hid⟩, ht⟩ := Option.ite_none_right_eq_some.mp ht
  have hstarting := Option.isNone_iff_eq_none.mp hstarting
  have hfree := Option.isNone_iff_eq_none.mp hfree
  obtain ⟨os', hmod, rfl⟩ := Option.map_eq_some_iff.mp ht
  obtain ⟨os, hcancel, rfl⟩ := Option.map_eq_some_iff.mp hmod
  have hinv := h.cancel hstarting hsound hcancel
  obtain ⟨htimer, -, -, hcur⟩ := cancelTimer_some hcancel
  have hkeep : ∀ x, x ≠ t → Armed s.os x → Armed os x := fun x hx harmed =>
    (cancelTimer_armed hcancel hsound x).mpr ⟨hx, harmed⟩
  have hflag : ∀ x, x ≠ t → (os.timer x).bTimerStart = (s.os.timer x).bTimerStart := fun x hx => by
    rw [htimer, Function.update_of_ne hx]
  have hoff : (os.timer t).bTimerStart = false := by
    rw [htimer, Function.update_self]
    rfl
  by_cases hafter : timeAfter = 0
  · -- the function is called
    rw [if_pos hafter, if_pos hafter]
    have hnone : Inv { s with os := os, starting := none } _ :=
      hinv.of_fields rfl (fun _ => rfl) (fun _ => rfl) rfl hstarting.symm
        fun hne => absurd hstarting hne
    obtain ⟨htimer', -, hnative', -, hcur'⟩ := call_eq os t
    have harmed : ∀ x, Armed (os.call t) x ↔ Armed os x := fun x => by
      unfold Armed Owns State.hander
      rw [htimer', hnative']
    refine ⟨⟨_, hnone.call t⟩, fun hexact =>
      hexact.of_other t (hcur'.trans hcur) (fun x hx => ?_) ?_⟩
    · show ((os.call t).timer x).bTimerStart = _ ∧ (_ → Armed (os.call t) x)
      rw [htimer', harmed]
      exact ⟨hflag x hx, hkeep x hx⟩
    · show ((os.call t).timer t).bTimerStart = true → _
      rw [htimer', hoff]
      exact nofun
  · rw [if_neg hafter, if_neg hafter]
    have hfree' := cancelTimer_none hcancel hfree
    refine ⟨⟨_, hinv.start hstarting hoff hfree' hid timeAfter⟩, fun hexact =>
      hexact.of_other t hcur (fun x hx => ?_) fun hon => ?_⟩
    · have hsame : (os.vtimerStart t timeAfter handle).timer x = os.timer x :=
        Function.update_of_ne hx _ _
      show ((os.vtimerStart t timeAfter handle).timer x).bTimerStart = _ ∧
        (_ → Armed (os.vtimerStart t timeAfter handle) x)
      unfold Armed
      rw [hsame, owns_vtimerStart hx hfree' timeAfter]
      exact ⟨hflag x hx, hkeep x hx⟩
    · have hon : (Function.update os.timer t { os.timer t with timerHander := handle }
        t).bTimerStart = true := hon
      rw [Function.update_self] at hon
      exact nomatch hoff.symm.trans hon

/-- **A timer that is written** leaves the others as they are. -/
theorem Exact.rewrite (h : Exact s) {x : AtbmTimerList F} (hx : x.bTimerStart = false)
    (q : Option T) : Exact { s with
      os := (s.os.write t x).writeTab
        { s.os.tab with hnext := Function.update s.os.tab.hnext t q } } := by
  refine h.of_other t rfl (fun y hy => ?_) fun hon => ?_
  · have hsame : (s.os.write t x).timer y = s.os.timer y := Function.update_of_ne hy _ _
    show ((s.os.write t x).timer y).bTimerStart = _ ∧ (_ →
      ((s.os.write t x).timer y).bTimerStart = true ∧
        ∃ n, s.os.native ((s.os.write t x).timer y).timerHander = some n ∧ n.owner = y)
    rw [hsame]
    exact ⟨rfl, id⟩
  · have hon : (Function.update s.os.timer t x t).bTimerStart = true := hon
    rw [Function.update_self, hx] at hon
    cases hon

/-- **`atbm_del_timer`.** -/
theorem Inv.del (h : Inv s L) (hsound : Sound s (.del t)) (ht : s.step (.del t) = some s') :
    (∃ L', Inv s' L') ∧ (Exact s → Exact s') := by
  obtain ⟨hstarting, ht⟩ := Option.ite_none_right_eq_some.mp ht
  have hstarting := Option.isNone_iff_eq_none.mp hstarting
  obtain ⟨os', hdel, rfl⟩ := Option.map_eq_some_iff.mp ht
  obtain ⟨os, hcancel, rfl⟩ := Option.map_eq_some_iff.mp hdel
  have hinv := h.cancel hstarting hsound hcancel
  obtain ⟨htimer, -, -, hcur⟩ := cancelTimer_some hcancel
  have hoff : (os.timer t).bTimerStart = false := by
    rw [htimer, Function.update_self]
    rfl
  have hno : ¬ Armed os t := fun harmed => nomatch hoff.symm.trans harmed.1
  refine ⟨⟨_, hinv.rewrite hstarting hno rfl none⟩, fun hexact => ?_⟩
  have hexact' : Exact { s with os := os } := hexact.of_other t hcur (fun x hx => by
    show (os.timer x).bTimerStart = _ ∧ _
    rw [htimer, Function.update_of_ne hx]
    exact ⟨rfl, fun harmed => (cancelTimer_armed hcancel hsound x).mpr ⟨hx, harmed⟩⟩)
      fun hon => nomatch hoff.symm.trans hon
  exact hexact'.rewrite rfl none

theorem Inv.added_exact (h : Inv s L) (hexact : Exact s) (ht : s.step .added = some s') :
    Exact s' := by
  unfold Sys.step at ht
  rcases hstarting : s.starting with _ | t <;> rw [hstarting] at ht
  · cases ht
  obtain ⟨os, hmod, rfl⟩ := Option.map_eq_some_iff.mp ht
  obtain ⟨-, hid, -, hor⟩ := h.starting t hstarting
  have hmod : (if s.os.curTimeoutId ≠ noId then _
      else some { s.os.modAdd t with setStartTimer := false }) = some os := hmod
  rw [if_neg (not_not.mpr hexact.1)] at hmod
  obtain rfl := Option.some.inj hmod
  have hander : ∀ x, (s.os.modAdd t).hander x = s.os.hander x := fun x =>
    hander_update s.os t { s.os.timer t with bTimerStart := true } rfl x
  have howns : ∀ x, Owns s.os x → Owns (s.os.modAdd t) x := fun x hx => by
    unfold Owns at hx ⊢
    rw [hander]
    exact hx
  refine hexact.of_other t rfl (fun x hx => ?_) fun hon => ⟨hon, ?_⟩
  · have hsame : (s.os.modAdd t).timer x = s.os.timer x := Function.update_of_ne hx _ _
    show ((s.os.modAdd t).timer x).bTimerStart = _ ∧ (_ →
      ((s.os.modAdd t).timer x).bTimerStart = true ∧ Owns (s.os.modAdd t) x)
    rw [hsame]
    exact ⟨rfl, fun harmed => ⟨harmed.1, howns x harmed.2⟩⟩
  · exact howns t (hor.resolve_right fun hgone => hid (hgone.2 ▸ hexact.1))

/-- **A sound step** keeps the invariant. -/
theorem inv_step (h : Inv s L) {a : Act T F} (hsound : Sound s a) (ht : s.step a = some s') :
    ∃ L', Inv s' L' := by
  cases a with
  | set t f d =>
    obtain rfl := Option.some.inj ht
    refine ⟨L, h.of_fields rfl (fun x => ?_) (fun x => ?_) rfl rfl fun _ => ⟨rfl, rfl⟩⟩
    · exact flag_update s.os t { s.os.timer t with function := some f, data := d } rfl x
    · exact hander_update s.os t { s.os.timer t with function := some f, data := d } rfl x
  | init t =>
    obtain ⟨hstarting, ht⟩ := Option.ite_none_right_eq_some.mp ht
    obtain rfl := Option.some.inj ht
    exact ⟨L, h.rewrite (Option.isNone_iff_eq_none.mp hstarting) hsound rfl none⟩
  | mod t timeAfter handle => exact (h.mod hsound ht).1
  | added => exact h.added hsound ht
  | finish =>
    obtain ⟨⟨hstarting, -⟩, ht⟩ := Option.ite_none_right_eq_some.mp ht
    obtain rfl := Option.some.inj ht
    have hstarting := Option.isNone_iff_eq_none.mp hstarting
    exact ⟨L, h.of_fields rfl (fun _ => rfl) (fun _ => rfl) rfl hstarting.symm
      fun hne => absurd hstarting hne⟩
  | del t => exact (h.del hsound ht).1
  | expire handle =>
    obtain ⟨os, hos, rfl⟩ := Option.map_eq_some_iff.mp ht
    exact h.expire hsound hos

end Atbm6441.Os.Timer
