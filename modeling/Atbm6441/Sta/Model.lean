import Atbm6441.Lib.Links
import Atbm6441.Lib.Runs
import Mathlib.Data.Int.Init

/-!
# The station table

`sta_info.c`: the stations of all interfaces, in the list `sta_list` and in the chains of `sta_hash`. A
station is a place in memory. The kernel's list is a list of places; the chains are links in the
stations, and a function that follows them visits no more stations than the list holds, and is
`none` if the chain goes on. Aggregation sessions, flags and locks are left out.
-/

namespace Atbm6441.Sta

open Atbm6441.Lib

/-- A MAC address. -/
abbrev Addr := Vector UInt8 6

/-- `STA_HASH`. -/
def Addr.hash (addr : Addr) : UInt8 := addr[5]

/-- `ENOENT`. -/
def enoent : ℤ := 2

/-- `EEXIST`. -/
def eexist : ℤ := 17

/-- The fields of `struct sta_info` that the table uses. -/
structure StaInfo where
  vif : ℕ
  addr : Addr
  hnext : Option ℕ
  dummy : Bool
  uploaded : Bool
  dead : Bool

/-- The table in `struct atbm_common`, the memory of the stations, and the stations that have been
freed, in order. -/
structure Table where
  sta : ℕ → StaInfo
  staHash : UInt8 → Option ℕ
  staList : List ℕ
  numSta : ℤ
  freed : List ℕ

namespace Table

def next (t : Table) (p : ℕ) : Option ℕ := (t.sta p).hnext

/-- A station is written. -/
def write (t : Table) (p : ℕ) (x : StaInfo) : Table := { t with sta := Function.update t.sta p x }

/-- A head of a chain is written. -/
def writeHash (t : Table) (k : UInt8) (p : Option ℕ) : Table :=
  { t with staHash := Function.update t.staHash k p }

/-- The comparison in `sta_info_get`. -/
def isSta (t : Table) (vif : ℕ) (addr : Addr) : ℕ → Bool :=
  fun p => (t.sta p).vif = vif ∧ (t.sta p).addr = addr

/-- `sta_info_get`, and `sta_info_get_rx`, which is the same. -/
def staInfoGet (t : Table) (vif : ℕ) (addr : Addr) : Option (Option ℕ) :=
  find t.next (t.isSta vif addr) t.staList.length (t.staHash addr.hash)

/-- `__sta_info_free`. -/
def staInfoFree (t : Table) (p : ℕ) : Table := { t with freed := t.freed ++ [p] }

/-- `sta_info_hash_add`. -/
def staInfoHashAdd (t : Table) (p : ℕ) : Table :=
  let k := (t.sta p).addr.hash
  (t.write p { t.sta p with hnext := t.staHash k }).writeHash k (some p)

/-- `sta_info_hash_del`. -/
def staInfoHashDel (t : Table) (p : ℕ) : Option (Table × ℤ) :=
  let k := (t.sta p).addr.hash
  match t.staHash k with
  | none => some (t, -enoent)
  | some s =>
    if s = p then some (t.writeHash k (t.next s), 0)
    else
      (find t.next (isBefore t.next p) t.staList.length (some s)).map fun o =>
        match o with
        | some s =>
          if t.next s ≠ none then (t.write s { t.sta s with hnext := t.next p }, 0)
          else (t, -enoent)
        | none => (t, -enoent)

/-- `sta_info_alloc`, for the place that `atbm_kzalloc` returns. -/
def staInfoAlloc (t : Table) (p : ℕ) (vif : ℕ) (addr : Addr) : Table :=
  t.write p ⟨vif, addr, none, false, false, false⟩

/-- `sta_info_finish_insert`. -/
def staInfoFinishInsert (t : Table) (p : ℕ) (async dummyReinsert : Bool) : Table :=
  let t :=
    if ¬ (t.sta p).dummy ∨ dummyReinsert then t.write p { t.sta p with uploaded := true } else t
  if ¬ dummyReinsert then
    let t := if ¬ async then { t with numSta := t.numSta + 1 }.staInfoHashAdd p else t
    { t with staList := p :: t.staList }
  else t.write p { t.sta p with dummy := false }

/-- `sta_info_insert_non_ibss`. -/
def staInfoInsertNonIbss (t : Table) (p : ℕ) : Option (Table × ℤ) :=
  (t.staInfoGet (t.sta p).vif (t.sta p).addr).map fun existSta =>
    match existSta with
    | some q =>
      if q = p ∧ (t.sta p).dummy then (t.staInfoFinishInsert p false true, 0) else (t, -eexist)
    | none => (t.staInfoFinishInsert p false false, 0)

/-- `sta_info_insert_rcu`, and `sta_info_insert`. -/
def staInfoInsert (t : Table) (p : ℕ) : Option (Table × ℤ) :=
  (t.staInfoInsertNonIbss p).map fun x =>
    if x.2 ≠ 0 then (x.1.staInfoFree p, x.2) else x

/-- `__sta_info_destroy`. -/
def staInfoDestroy (t : Table) : Option ℕ → Option (Table × ℤ)
  | none => some (t, -enoent)
  | some p =>
    (t.staInfoHashDel p).map fun x =>
      if x.2 ≠ 0 then x
      else
        let t := { x.1 with staList := x.1.staList.erase p }
        let t := t.write p { t.sta p with dead := true }
        ({ t with numSta := t.numSta - 1 }.staInfoFree p, 0)

/-- `sta_info_destroy_addr`. -/
def staInfoDestroyAddr (t : Table) (vif : ℕ) (addr : Addr) : Option (Table × ℤ) :=
  (t.staInfoGet vif addr).bind t.staInfoDestroy

/-- The loop of `sta_info_flush` over the entries of the list, of which the body takes out at most the
one it is at. -/
def flushLoop (priv : Option ℕ) : List ℕ → Table → Option Table
  | [], t => some t
  | p :: ps, t =>
    if priv = none ∨ priv = some (t.sta p).vif then
      (t.staInfoDestroy (some p)).bind fun x => flushLoop priv ps x.1
    else flushLoop priv ps t

/-- `sta_info_flush`, for an interface or for all. -/
def staInfoFlush (t : Table) (priv : Option ℕ) : Option Table := flushLoop priv t.staList t

end Table

/-! ### Runs -/

inductive Act
  /-- a station is allocated, at a place, and inserted -/
  | insert (p : ℕ) (vif : ℕ) (addr : Addr)
  | get (vif : ℕ) (addr : Addr)
  | destroy (p : ℕ)
  | destroyAddr (vif : ℕ) (addr : Addr)
  | flush (priv : Option ℕ)

/-- A station is allocated at a place that none of the table has, and a station that is destroyed is
one of the table. -/
def Table.step (t : Table) : Act → Option Table
  | .insert p vif addr =>
    if p ∈ t.staList then none else ((t.staInfoAlloc p vif addr).staInfoInsert p).map Prod.fst
  | .get vif addr => (t.staInfoGet vif addr).map fun _ => t
  | .destroy p => if p ∈ t.staList then (t.staInfoDestroy (some p)).map Prod.fst else none
  | .destroyAddr vif addr => (t.staInfoDestroyAddr vif addr).map Prod.fst
  | .flush priv => t.staInfoFlush priv

/-- `sta_info_init`: no stations, whatever the memory holds. -/
def Table.empty (sta : ℕ → StaInfo) : Table := ⟨sta, fun _ => none, [], 0, []⟩

def system : System Table Act where
  init t := ∃ sta, t = .empty sta
  step := Table.step

end Atbm6441.Sta
