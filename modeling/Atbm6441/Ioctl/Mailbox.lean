import Atbm6441.Lib.Runs
import Mathlib.Data.List.Basic
import Mathlib.Tactic.Common

/-!
# The mailbox for user space

The `atbm_ioctl_*_async` functions, `scan_complete_work` and `atbm_ioctl_read` of `atbm_ioctl.c`. The
events come from the event handler, one at a time, and from the scan work; any number of reads
may be under way. Each store to `status`, and the copy of a read, is one step.

`faithful` : the events reported are those posted up to the last, which is in the mailbox or has been
reported, in runs where an event is posted when the one before has been read and a read begins when
there is an event to read.
`phantom` and `overwritten` : in other runs an event is reported that has not happened, and one is
lost.
-/

namespace Atbm6441.Ioctl.Mailbox

open Atbm6441.Lib

/-! ### The mailbox -/

/-- What is posted, with the fields of `struct HostConnectEvent` as a type of their own. -/
inductive Event (ε : Type)
  | connect (event : ε)
  | disconnect
  | driver (insmod : UInt8)
  | scanComplete
  | wakeup (reason : UInt8)
  | disconn (reason : UInt8)
  | connErr (reason : UInt8)
deriving DecidableEq

/-- `struct status_async`. -/
structure Status (ε : Type) where
  isConnected : UInt8
  type : UInt8
  driverMode : UInt8
  event : ε
deriving DecidableEq

variable {ε : Type}

/-- `status.type` of an event. -/
def Event.type : Event ε → UInt8
  | .connect _ | .disconnect => 0
  | .driver _ => 1
  | .scanComplete => 2
  | .wakeup _ => 3
  | .disconn _ => 4
  | .connErr _ => 5

/-- `status.driver_mode` of an event that has one. -/
def Event.mode : Event ε → Option UInt8
  | .driver v | .wakeup v | .disconn v | .connErr v => some v
  | .connect _ | .disconnect | .scanComplete => none

/-- What a copy of the mailbox reports. -/
def Status.report (m : Status ε) : Option (Event ε) :=
  if m.type = 0 then some (if m.isConnected = 0 then .disconnect else .connect m.event)
  else if m.type = 1 then some (.driver m.driverMode)
  else if m.type = 2 then some .scanComplete
  else if m.type = 3 then some (.wakeup m.driverMode)
  else if m.type = 4 then some (.disconn m.driverMode)
  else if m.type = 5 then some (.connErr m.driverMode)
  else none

/-- `-1`, the invalid type that the mailbox starts with. -/
def invalidType : UInt8 := 255

/-- Where the event handler is in posting an event: the store to come. -/
inductive PostPc (ε : Type)
  | idle
  /-- `memcpy(&status.event, ...)` -/
  | event (e : ε)
  /-- `status.is_connected = 1` -/
  | connected (e : ε)
  /-- `status.is_connected = 0` -/
  | disconnected
  /-- `status.type` -/
  | type (e : Event ε)
  /-- `status.driver_mode` -/
  | mode (v : UInt8)
deriving DecidableEq

/-- The mailbox, the event handler and the number of reads that have copied and not reset. Of the
run: the events posted (from the store of their type on), the reports of the reads, and whether the
latest event has not been copied. -/
structure State (ε : Type) where
  status : Status ε
  pc : PostPc ε
  reads : ℕ
  posted : List (Event ε)
  reported : List (Event ε)
  unread : Bool
deriving DecidableEq

/-- `atbm_ioctl_add`. -/
def State.added (event : ε) : State ε := ⟨⟨0, invalidType, 0, event⟩, .idle, 0, [], [], false⟩

inductive Act (ε : Type)
  /-- the event handler calls the function for an event -/
  | call (e : Event ε)
  /-- the event handler stores a field -/
  | store
  /-- `scan_complete_work` stores the type -/
  | scan
  /-- a read copies the mailbox; or it fails -/
  | read (ok : Bool)
  /-- a read stores the type that it leaves -/
  | reset

/-- The first store of the function for an event. -/
def Event.first : Event ε → Option (PostPc ε)
  | .connect e => some (.event e)
  | .disconnect => some .disconnected
  | .scanComplete => none
  | e => some (.type e)

def State.store (s : State ε) : Option (State ε) :=
  match s.pc with
  | .idle => none
  | .event e => some { s with status := { s.status with event := e }, pc := .connected e }
  | .connected e =>
    some { s with status := { s.status with isConnected := 1 }, pc := .type (.connect e) }
  | .disconnected =>
    some { s with status := { s.status with isConnected := 0 }, pc := .type .disconnect }
  | .type e =>
    some { s with
      status := { s.status with type := e.type }
      pc := e.mode.elim .idle .mode
      posted := s.posted ++ [e]
      unread := true }
  | .mode v => some { s with status := { s.status with driverMode := v }, pc := .idle }

def State.step (s : State ε) : Act ε → Option (State ε)
  | .call e =>
    match s.pc with
    | .idle => e.first.map fun pc => { s with pc := pc }
    | _ => none
  | .store => s.store
  | .scan =>
    some { s with
      status := { s.status with type := 2 }
      posted := s.posted ++ [.scanComplete]
      unread := true }
  | .read false => some s
  | .read true =>
    some { s with
      reported := s.reported ++ s.status.report.toList
      unread := false
      reads := s.reads + 1 }
  | .reset =>
    if 0 < s.reads then
      some { s with status := { s.status with type := 2 }, reads := s.reads - 1 }
    else none

def system : System (State ε) (Act ε) where
  init s := ∃ event, s = .added event
  step := State.step

/-! ### The condition -/

/-- **A store is alone**: a type is stored when the latest event has been copied and no read is to
reset the type, and what an event of type 0 is reported from is not changed before it is copied. -/
def AloneStore (s : State ε) : PostPc ε → Prop
  | .event _ | .connected _ | .disconnected => ¬ (s.unread ∧ s.status.type = 0)
  | .type _ => ¬ s.unread ∧ s.reads = 0
  | .idle | .mode _ => True

/-- The copy of a read finds an event, or the invalid type. -/
def AloneRead (s : State ε) : PostPc ε → Prop
  | .mode _ => False
  | _ => s.unread ∨ s.status.type = invalidType

/-- **A step is alone**: the stores to the mailbox and the copies of the reads take turns. -/
def Alone (s : State ε) : Act ε → Prop
  | .store => AloneStore s s.pc
  | .scan => ¬ s.unread ∧ s.reads = 0
  | .read true => AloneRead s s.pc
  | _ => True

instance (s : State ε) : (pc : PostPc ε) → Decidable (AloneStore s pc)
  | .event _ | .connected _ | .disconnected =>
    inferInstanceAs (Decidable (¬ (s.unread ∧ s.status.type = 0)))
  | .type _ => inferInstanceAs (Decidable (¬ s.unread ∧ s.reads = 0))
  | .idle | .mode _ => .isTrue trivial

instance (s : State ε) : (pc : PostPc ε) → Decidable (AloneRead s pc)
  | .mode _ => .isFalse id
  | .idle | .event _ | .connected _ | .disconnected | .type _ =>
    inferInstanceAs (Decidable (s.unread ∨ s.status.type = invalidType))

instance (s : State ε) : (a : Act ε) → Decidable (Alone s a)
  | .store => inferInstanceAs (Decidable (AloneStore s s.pc))
  | .scan => inferInstanceAs (Decidable (¬ s.unread ∧ s.reads = 0))
  | .read true => inferInstanceAs (Decidable (AloneRead s s.pc))
  | .call _ | .read false | .reset => .isTrue trivial

/-! ### What a copy reports -/

/-- The mailbox is ready for the type of an event. -/
def Status.Ready (m : Status ε) : Event ε → Prop
  | .connect event => m.event = event ∧ m.isConnected = 1
  | .disconnect => m.isConnected = 0
  | _ => True

/-- The mailbox once `driver_mode` is stored, if it is still to come. -/
def Status.finish (m : Status ε) : PostPc ε → Status ε
  | .mode v => { m with driverMode := v }
  | _ => m

theorem Status.finish_of_ne {m : Status ε} {pc : PostPc ε} (h : ∀ v, pc ≠ .mode v) :
    m.finish pc = m := by
  rcases pc with _ | _ | _ | _ | _ | v
  case mode => exact absurd rfl (h v)
  all_goals rfl

/-- **A type that is stored is reported** with its event. -/
theorem report_type {m : Status ε} {e : Event ε} (h : m.Ready e) :
    (({ m with type := e.type } : Status ε).finish (e.mode.elim .idle .mode)).report = some e := by
  unfold Status.Ready at h
  rcases e with event | _ | v | _ | v | v | v
  case connect =>
    obtain ⟨rfl, hconn⟩ := h
    simp [Event.type, Event.mode, Status.finish, Status.report, hconn]
  case disconnect => simp [Event.type, Event.mode, Status.finish, Status.report, h]
  all_goals simp [Event.type, Event.mode, Status.finish, Status.report]

theorem report_invalid {m : Status ε} (h : m.type = invalidType) : m.report = none := by
  simp [Status.report, h, invalidType]

/-- Fields that only events of type 0 are reported from. -/
theorem report_congr {m m' : Status ε} (h0 : m.type ≠ 0) (htype : m'.type = m.type)
    (hmode : m'.driverMode = m.driverMode) : m'.report = m.report := by
  unfold Status.report
  rw [htype, hmode, if_neg h0, if_neg h0]

/-! ### The invariant -/

/-- At most the latest event has not been reported, and the mailbox holds it. -/
structure Inv (s : State ε) : Prop where
  event : ∀ e, s.pc = .connected e → s.status.event = e
  ready : ∀ e, s.pc = .type e → s.status.Ready e
  mode : ∀ v, s.pc = .mode v → s.unread = true
  read : s.unread = false → s.reported = s.posted
  unread : s.unread = true → s.reads = 0 ∧
    ∃ e, s.posted = s.reported ++ [e] ∧ (s.status.finish s.pc).report = some e

variable {s t : State ε}

theorem inv_added (event : ε) : Inv (.added event) :=
  ⟨by simp [State.added], by simp [State.added], by simp [State.added], fun _ => rfl,
    by simp [State.added]⟩

theorem Inv.before (h : Inv s) {m : Status ε} {pc : PostPc ε} (ha : ¬ (s.unread ∧ s.status.type = 0))
    (hpc : ∀ v, s.pc ≠ .mode v) (htype : m.type = s.status.type)
    (hmode : m.driverMode = s.status.driverMode) (hevent : ∀ e, pc = .connected e → m.event = e)
    (hready : ∀ e, pc = .type e → m.Ready e) (hpc' : ∀ v, pc ≠ .mode v) :
    Inv { s with status := m, pc := pc } := by
  have hfin : s.status.finish s.pc = s.status := Status.finish_of_ne hpc
  have hfin' : m.finish pc = m := Status.finish_of_ne hpc'
  refine ⟨hevent, hready, fun v hv => absurd hv (hpc' v), h.read, fun hu => ?_⟩
  obtain ⟨hreads, e, hposted, hrep⟩ := h.unread hu
  have h0 : s.status.type ≠ 0 := fun h0 => ha ⟨hu, h0⟩
  refine ⟨hreads, e, hposted, ?_⟩
  show (m.finish pc).report = some e
  rw [hfin', report_congr h0 htype hmode, ← hfin, hrep]

theorem Inv.call {e : Event ε} (h : Inv s) (ht : s.step (.call e) = some t) : Inv t := by
  rcases hpc : s.pc with _ | _ | _ | _ | _ | _ <;>
    simp only [State.step, hpc, Option.map_eq_some_iff, reduceCtorEq] at ht
  obtain ⟨pc, hfirst, rfl⟩ := ht
  have hu := h.unread
  rw [hpc] at hu
  unfold Event.first at hfirst
  rcases e with event | _ | v | _ | v | v | v <;>
    simp only [Option.some.injEq, reduceCtorEq] at hfirst
  all_goals
    rw [← hfirst]
    exact ⟨by simp, by simp [Status.Ready], by simp, h.read, hu⟩

theorem Inv.store (h : Inv s) (ha : Alone s .store) (ht : s.step .store = some t) : Inv t := by
  have hmodes := h.mode
  have hready := h.ready
  have hun := h.unread
  simp only [Alone] at ha
  simp only [State.step, State.store] at ht
  rcases hpc : s.pc with _ | e | e | _ | e | v <;>
    simp only [hpc, Option.some.injEq, reduceCtorEq] at ht ha
  case event =>
    rw [← ht]
    refine h.before ha (by simp [hpc]) rfl rfl ?_ (by simp) (by simp)
    rintro e' he
    simpa using he
  case connected =>
    have hevent := h.event e hpc
    rw [← ht]
    refine h.before ha (by simp [hpc]) rfl rfl (by simp) ?_ (by simp)
    rintro e' he
    rw [← PostPc.type.inj he]
    exact ⟨hevent, rfl⟩
  case disconnected =>
    rw [← ht]
    refine h.before ha (by simp [hpc]) rfl rfl (by simp) ?_ (by simp)
    rintro e' he
    rw [← PostPc.type.inj he]
    rfl
  case type =>
    -- the event is posted, and everything before has been reported
    obtain ⟨hu, hreads⟩ := ha
    have hread := h.read (Bool.eq_false_iff.mpr hu)
    rw [← ht]
    refine ⟨?_, ?_, fun _ _ => rfl, by simp, fun _ => ⟨hreads, e, ?_, report_type (hready e hpc)⟩⟩
    · rcases e.mode with _ | v <;> simp
    · rcases e.mode with _ | v <;> simp
    · rw [hread]
  case mode =>
    rw [← ht]
    refine ⟨by simp, by simp, by simp, h.read, fun hu => ?_⟩
    rw [hpc] at hun
    exact hun hu

theorem Inv.scan (h : Inv s) (ha : Alone s .scan) (ht : s.step .scan = some t) : Inv t := by
  obtain ⟨hu, hreads⟩ := ha
  have hread := h.read (Bool.eq_false_iff.mpr hu)
  rw [← Option.some.inj ht]
  refine ⟨h.event, fun e he => ?_, fun _ _ => rfl, by simp, fun _ => ⟨hreads, .scanComplete, ?_, ?_⟩⟩
  · have hr := h.ready e he
    rcases e with event | _ | v | _ | v | v | v <;> exact hr
  · rw [hread]
  · rcases hpc : s.pc with _ | e | e | _ | e | v
    case mode => exact absurd (h.mode v hpc) hu
    all_goals rfl

theorem Inv.copy (h : Inv s) (ha : Alone s (.read true)) (ht : s.step (.read true) = some t) :
    Inv t := by
  have hfin : s.status.finish s.pc = s.status ∧ (∀ v, s.pc ≠ .mode v) ∧
      (s.unread ∨ s.status.type = invalidType) := by
    simp only [Alone] at ha
    unfold AloneRead at ha
    rcases hpc : s.pc with _ | e | e | _ | e | v <;> simp only [hpc] at ha
    all_goals exact ⟨rfl, by simp, ha⟩
  obtain ⟨hfin, hpc, hfound⟩ := hfin
  rw [← Option.some.inj ht]
  refine ⟨h.event, h.ready, fun v hv => absurd hv (hpc v), fun _ => ?_, by simp⟩
  by_cases hu : s.unread = true
  · obtain ⟨-, e, hposted, hrep⟩ := h.unread hu
    rw [hfin] at hrep
    rw [hposted, hrep]
    rfl
  · rw [report_invalid (hfound.resolve_left hu), h.read (Bool.eq_false_iff.mpr hu)]
    simp

theorem Inv.reset (h : Inv s) (ht : s.step .reset = some t) : Inv t := by
  rw [State.step] at ht
  split_ifs at ht with hreads
  have hu : s.unread ≠ true := fun hu => by
    have h0 := (h.unread hu).1
    omega
  rw [← Option.some.inj ht]
  refine ⟨h.event, fun e he => ?_, h.mode, h.read, fun hu' => absurd hu' hu⟩
  have hr := h.ready e he
  rcases e with event | _ | v | _ | v | v | v <;> exact hr

theorem inv_step {a : Act ε} (h : Inv s) (ha : Alone s a) (ht : s.step a = some t) : Inv t := by
  rcases a with e | _ | _ | ok | _
  · exact h.call ht
  · exact h.store ha ht
  · exact h.scan ha ht
  · rcases ok with _ | _
    · rwa [← Option.some.inj ht]
    · exact h.copy ha ht
  · exact h.reset ht

/-- **Each event is reported once, in the order of posting, and none is lost**: all posted events have
been reported, or all but the latest, which a copy of the mailbox reports as soon as its fields are
stored. -/
theorem faithful (h : Reach system Alone s) :
    s.reported = s.posted ∨
      ∃ e, s.posted = s.reported ++ [e] ∧ (s.status.finish s.pc).report = some e := by
  have hinv : Inv s := by
    refine Reach.inv (fun s hs => ?_) (fun _ _ _ => inv_step) h
    obtain ⟨event, rfl⟩ := hs
    exact inv_added event
  by_cases hu : s.unread = true
  · exact .inr (hinv.unread hu).2
  · exact .inl (hinv.read (Bool.eq_false_iff.mpr hu))

/-! ### Runs -/

/-- A disconnect is posted, and read. -/
def disconnectRead : List (Act Unit) := [.call .disconnect, .store, .store, .read true, .reset]

theorem faithful_connect : ∃ s : State Unit, Reach system Alone s ∧ s.posted.length = 2 ∧
    (s.reported = s.posted ∨
      ∃ e, s.posted = s.reported ++ [e] ∧ (s.status.finish s.pc).report = some e) := by
  let as : List (Act Unit) := disconnectRead ++ [.call (.connect ()), .store, .store, .store]
  have hout : (execIf system Alone (.added ()) as).map (fun s => s.posted.length) = some 2 := by
    decide
  obtain ⟨s, hs, hlen⟩ := Option.map_eq_some_iff.mp hout
  have hr : Reach system Alone s := Reach.of_execIf (.init ⟨(), rfl⟩) hs
  exact ⟨s, hr, hlen, faithful hr⟩

/-- **A phantom event**: the second of two reads reports a completed scan, and there was none. -/
theorem phantom : ∃ s : State Unit, Reach system (fun _ _ => True) s ∧
    s.posted = [.disconnect] ∧ s.reported = [.disconnect, .scanComplete] := by
  have hout : (exec system (.added ()) (disconnectRead ++ [.read true])).map
      (fun s => (s.posted, s.reported)) = some ([.disconnect], [.disconnect, .scanComplete]) := by
    decide
  obtain ⟨s, hs, heq⟩ := Option.map_eq_some_iff.mp hout
  rw [Prod.mk.injEq] at heq
  exact ⟨s, Reach.of_exec (.init ⟨(), rfl⟩) hs, heq⟩

/-- **A lost event**: two events are posted before a read, and the first is not reported. -/
theorem overwritten : ∃ s : State Unit, Reach system (fun _ _ => True) s ∧ s.pc = .idle ∧
    s.posted = [.disconnect, .connErr 3] ∧ s.reported = [.connErr 3] := by
  let as : List (Act Unit) := [.call .disconnect, .store, .store, .call (.connErr 3), .store,
    .store, .read true]
  have hout : (exec system (.added ()) as).map (fun s => (s.pc, s.posted, s.reported)) =
      some (.idle, [.disconnect, .connErr 3], [.connErr 3]) := by
    decide
  obtain ⟨s, hs, heq⟩ := Option.map_eq_some_iff.mp hout
  simp only [Prod.mk.injEq] at heq
  exact ⟨s, Reach.of_exec (.init ⟨(), rfl⟩) hs, heq⟩

end Atbm6441.Ioctl.Mailbox
