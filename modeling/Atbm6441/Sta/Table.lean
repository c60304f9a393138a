import Atbm6441.Sta.Model
import Mathlib.Data.List.Perm.Subperm

/-!
# The stations in the list and in the chains

`Wf t` : each chain leads through the stations of the list with that hash, and no two stations have the
same interface and address. Every operation keeps it (`insert_spec`, `destroy_spec`, `flush_spec`).

`table_consistent` : after every sequence of operations the list and the chains hold the same stations,
`num_sta` is their number, a lookup finds exactly what is there, and an insertion that fails frees the
new station and changes nothing.
-/

namespace Atbm6441.Sta

open Atbm6441.Lib

namespace Table

/-- The interface and the address of a station. -/
def key (t : Table) (p : ℕ) : ℕ × Addr := ((t.sta p).vif, (t.sta p).addr)

/-- **The invariant**, with the stations of each chain. -/
structure Inv (t : Table) (c : UInt8 → List ℕ) : Prop where
  chain : ∀ k, Chain t.next (t.staHash k) (c k)
  mem : ∀ k p, p ∈ c k ↔ p ∈ t.staList ∧ (t.key p).2.hash = k
  nodup : t.staList.Nodup
  unique : ∀ p ∈ t.staList, ∀ q ∈ t.staList, t.key p = t.key q → p = q
  num : t.numSta = t.staList.length

/-- A table that is well formed. -/
def Wf (t : Table) : Prop := ∃ c, t.Inv c

variable {t t' : Table} {c : UInt8 → List ℕ} {p q : ℕ} {x : StaInfo}

theorem Wf.nodup (h : t.Wf) : t.staList.Nodup := by
  obtain ⟨c, h⟩ := h
  exact h.nodup

theorem Wf.eq_of_key (h : t.Wf) (hp : p ∈ t.staList) (hq : q ∈ t.staList)
    (hpq : t.key p = t.key q) : p = q := by
  obtain ⟨c, h⟩ := h
  exact h.unique p hp q hq hpq

/-! ### Writing a station -/

theorem next_write : (t.write p x).next = Function.update t.next p x.hnext := by
  funext q
  by_cases hq : q = p
  · subst hq
    simp [next, write]
  · simp [next, write, Function.update_of_ne hq]

theorem key_write_of_ne (hq : q ≠ p) : (t.write p x).key q = t.key q := by
  simp [key, write, Function.update_of_ne hq]

theorem key_write (hvif : x.vif = (t.sta p).vif) (haddr : x.addr = (t.sta p).addr) :
    (t.write p x).key = t.key := by
  funext q
  by_cases hq : q = p
  · subst hq
    simp [key, write, hvif, haddr]
  · exact key_write_of_ne hq

theorem Inv.not_mem (h : t.Inv c) (hp : p ∉ t.staList) (k : UInt8) : p ∉ c k :=
  fun hpk => hp ((h.mem k p).mp hpk).1

theorem Inv.length_le (h : t.Inv c) (k : UInt8) : (c k).length ≤ t.staList.length :=
  (List.subperm_of_subset (h.chain k).nodup fun p hp => ((h.mem k p).mp hp).1).length_le

theorem Inv.write_fresh (h : t.Inv c) (hp : p ∉ t.staList) : (t.write p x).Inv c := by
  have hkey : ∀ q ∈ t.staList, (t.write p x).key q = t.key q := fun q hq =>
    key_write_of_ne fun hqp => hp (hqp ▸ hq)
  refine ⟨fun k => ?_, fun k q => ?_, h.nodup, fun q hq r hr hqr => ?_, h.num⟩
  · rw [next_write]
    exact (h.chain k).update (h.not_mem hp k) _
  · rw [h.mem k q]
    exact and_congr_right fun hq => by rw [hkey q hq]
  · rw [hkey q hq, hkey r hr] at hqr
    exact h.unique q hq r hr hqr

theorem Inv.write_same (h : t.Inv c) (hnext : x.hnext = t.next p) (hvif : x.vif = (t.sta p).vif)
    (haddr : x.addr = (t.sta p).addr) : (t.write p x).Inv c := by
  have hkey := key_write hvif haddr
  refine ⟨fun k => ?_, fun k q => ?_, h.nodup, fun q hq r hr hqr => ?_, h.num⟩
  · rw [next_write, hnext, Function.update_eq_self]
    exact h.chain k
  · rw [hkey]
    exact h.mem k q
  · rw [hkey] at hqr
    exact h.unique q hq r hr hqr

/-! ### Lookups -/

theorem isSta_iff {vif : ℕ} {addr : Addr} : t.isSta vif addr p = true ↔ t.key p = (vif, addr) := by
  simp [isSta, key]

theorem Inv.get_eq (h : t.Inv c) (vif : ℕ) (addr : Addr) :
    t.staInfoGet vif addr = some ((c addr.hash).find? (t.isSta vif addr)) :=
  (h.chain addr.hash).find_eq _ (h.length_le addr.hash)

/-- **A lookup** ends, and finds a station exactly when it is there. -/
theorem get_spec (h : t.Wf) (vif : ℕ) (addr : Addr) : ∃ r, t.staInfoGet vif addr = some r ∧
    ∀ p, r = some p ↔ p ∈ t.staList ∧ t.key p = (vif, addr) := by
  obtain ⟨c, h⟩ := h
  refine ⟨_, h.get_eq vif addr, fun p => ⟨fun hp => ?_, fun ⟨hp, hkey⟩ => ?_⟩⟩
  · exact ⟨((h.mem _ p).mp (List.mem_of_find?_eq_some hp)).1, isSta_iff.mp (List.find?_some hp)⟩
  · have hmem : p ∈ c addr.hash := (h.mem _ p).mpr ⟨hp, by rw [hkey]⟩
    obtain ⟨q, hq⟩ := Option.isSome_iff_exists.mp
      (List.find?_isSome.mpr ⟨p, hmem, isSta_iff.mpr hkey⟩)
    have hqp : q = p := by
      refine h.unique q ((h.mem _ q).mp (List.mem_of_find?_eq_some hq)).1 p hp ?_
      rw [isSta_iff.mp (List.find?_some hq), hkey]
    rw [hq, hqp]

/-! ### Insertion -/

theorem Inv.hashAdd (h : t.Inv c) (hp : p ∉ t.staList)
    (hnew : ∀ q ∈ t.staList, t.key q ≠ t.key p) :
    Wf { t.staInfoHashAdd p with numSta := t.numSta + 1, staList := p :: t.staList } := by
  have hkey : (t.write p { t.sta p with hnext := t.staHash (t.sta p).addr.hash }).key = t.key :=
    key_write rfl rfl
  have hkey' : Table.key { t.staInfoHashAdd p with
      numSta := t.numSta + 1, staList := p :: t.staList } = t.key := hkey
  have hhash : (t.sta p).addr.hash = (t.key p).2.hash := rfl
  refine ⟨Function.update c (t.sta p).addr.hash (p :: c (t.sta p).addr.hash), fun k => ?_,
    fun k q => ?_, List.nodup_cons.mpr ⟨hp, h.nodup⟩, ?_, ?_⟩
  · show Chain (t.write p _).next (Function.update t.staHash (t.sta p).addr.hash (some p) k) _
    rw [next_write]
    by_cases hk : k = (t.sta p).addr.hash
    · rw [hk, Function.update_self, Function.update_self]
      exact (h.chain _).push (h.not_mem hp _)
    · rw [Function.update_of_ne hk, Function.update_of_ne hk]
      exact (h.chain k).update (h.not_mem hp k) _
  · rw [hkey']
    by_cases hk : k = (t.sta p).addr.hash
    · rw [hk, Function.update_self, List.mem_cons, List.mem_cons, h.mem, hhash]
      constructor
      · rintro (rfl | ⟨hq, hqk⟩)
        · exact ⟨.inl rfl, rfl⟩
        · exact ⟨.inr hq, hqk⟩
      · rintro ⟨rfl | hq, hqk⟩
        · exact .inl rfl
        · exact .inr ⟨hq, hqk⟩
    · rw [Function.update_of_ne hk, List.mem_cons, h.mem]
      constructor
      · rintro ⟨hq, hqk⟩
        exact ⟨.inr hq, hqk⟩
      · rintro ⟨rfl | hq, hqk⟩
        · exact absurd hqk.symm hk
        · exact ⟨hq, hqk⟩
  · rw [hkey']
    intro q hq r hr hqr
    rcases List.mem_cons.mp hq with hqp | hq <;> rcases List.mem_cons.mp hr with hrp | hr
    · rw [hqp, hrp]
    · exact absurd (hqr.symm.trans (congrArg t.key hqp)) (hnew r hr)
    · exact absurd (hqr.trans (congrArg t.key hrp)) (hnew q hq)
    · exact h.unique q hq r hr hqr
  · show t.numSta + 1 = ((p :: t.staList).length : ℤ)
    rw [h.num, List.length_cons]
    push_cast
    rfl

theorem key_hashAdd : (t.staInfoHashAdd p).key = t.key := by
  unfold staInfoHashAdd
  exact key_write rfl rfl

/-- **A new station is inserted.** -/
theorem finishInsert_spec (h : t.Wf) (hp : p ∉ t.staList)
    (hnew : ∀ q ∈ t.staList, t.key q ≠ t.key p) :
    (t.staInfoFinishInsert p false false).Wf ∧
      (t.staInfoFinishInsert p false false).staList = p :: t.staList ∧
      (t.staInfoFinishInsert p false false).key = t.key ∧
      (t.staInfoFinishInsert p false false).freed = t.freed := by
  -- `uploaded` is set or not
  have hup : ∃ u : Table, (if ¬ (t.sta p).dummy = true ∨ false = true
      then t.write p { t.sta p with uploaded := true } else t) = u ∧
      u.Wf ∧ u.staList = t.staList ∧ u.key = t.key ∧ u.freed = t.freed := by
    obtain ⟨c, h⟩ := h
    by_cases hd : ¬ (t.sta p).dummy = true ∨ false = true
    · exact ⟨_, if_pos hd, ⟨c, h.write_same rfl rfl rfl⟩, rfl, key_write rfl rfl, rfl⟩
    · exact ⟨_, if_neg hd, ⟨c, h⟩, rfl, rfl, rfl⟩
  obtain ⟨u, hu, ⟨c, huwf⟩, hlist, hkey, hfreed⟩ := hup
  unfold staInfoFinishInsert
  rw [hu, if_pos (by simp), if_pos (by simp), ← hkey, ← hfreed, ← hlist]
  refine ⟨huwf.hashAdd (by rwa [hlist]) ?_, rfl, key_hashAdd, rfl⟩
  rw [hlist, hkey]
  exact hnew

theorem insert_of_none (hget : t.staInfoGet (t.sta p).vif (t.sta p).addr = some none) :
    t.staInfoInsert p = some (t.staInfoFinishInsert p false false, 0) := by
  unfold staInfoInsert staInfoInsertNonIbss
  rw [hget]
  rfl

theorem insert_of_some (hget : t.staInfoGet (t.sta p).vif (t.sta p).addr = some (some q))
    (hqp : q ≠ p) : t.staInfoInsert p = some (t.staInfoFree p, -eexist) := by
  have hnon : t.staInfoInsertNonIbss p = some (t, -eexist) := by
    unfold staInfoInsertNonIbss
    rw [hget, Option.map_some]
    exact congrArg some (if_neg fun h => hqp h.1)
  unfold staInfoInsert
  rw [hnon, Option.map_some]
  exact congrArg some (if_pos (by simp [eexist]))

/-- **An insertion** of a station at a new place ends: it is there with its key, or there was one with
its key, nothing has changed, and it has been freed, once. -/
theorem insert_spec (h : t.Wf) (hp : p ∉ t.staList) (vif : ℕ) (addr : Addr) :
    ∃ t' ret, (t.staInfoAlloc p vif addr).staInfoInsert p = some (t', ret) ∧ t'.Wf ∧
      (∀ q ∈ t.staList, t'.key q = t.key q) ∧
      (ret = 0 ∧ (∀ q ∈ t.staList, t.key q ≠ (vif, addr)) ∧ t'.staList = p :: t.staList ∧
          t'.key p = (vif, addr) ∧ t'.freed = t.freed ∨
        ret = -eexist ∧ (∃ q ∈ t.staList, t.key q = (vif, addr)) ∧ t'.staList = t.staList ∧
          t'.freed = t.freed ++ [p]) := by
  obtain ⟨c, h⟩ := h
  have hwf : (t.staInfoAlloc p vif addr).Wf := ⟨c, h.write_fresh hp⟩
  have hkeyp : (t.staInfoAlloc p vif addr).key p = (vif, addr) := by
    simp [staInfoAlloc, key, write]
  have hkey : ∀ q ∈ t.staList, (t.staInfoAlloc p vif addr).key q = t.key q := fun q hq =>
    key_write_of_ne fun hqp => hp (hqp ▸ hq)
  have hsta : ((t.staInfoAlloc p vif addr).sta p).vif = vif ∧
      ((t.staInfoAlloc p vif addr).sta p).addr = addr := Prod.mk.inj hkeyp
  obtain ⟨r, hget, hr⟩ := get_spec hwf vif addr
  have hget' : (t.staInfoAlloc p vif addr).staInfoGet ((t.staInfoAlloc p vif addr).sta p).vif
      ((t.staInfoAlloc p vif addr).sta p).addr = some r := by
    rw [hsta.1, hsta.2, hget]
  rcases r with _ | q
  · have hnew : ∀ q ∈ t.staList, t.key q ≠ (vif, addr) := fun q hq hqk => by
      have hfound := (hr q).mpr ⟨hq, by rw [hkey q hq, hqk]⟩
      simp at hfound
    obtain ⟨hwf', hlist, hkey', hfreed⟩ := finishInsert_spec hwf hp fun q hq => by
      rw [hkey q hq, hkeyp]
      exact hnew q hq
    refine ⟨_, 0, insert_of_none hget', hwf', fun q hq => ?_, .inl ⟨rfl, hnew, hlist, ?_, hfreed⟩⟩
    · rw [hkey', hkey q hq]
    · rw [hkey', hkeyp]
  · obtain ⟨hq, hqk⟩ := (hr q).mp rfl
    refine ⟨_, -eexist, insert_of_some hget' fun hqp => hp (hqp ▸ hq), ⟨c, ?_⟩, hkey,
      .inr ⟨rfl, ⟨q, hq, ?_⟩, rfl, rfl⟩⟩
    · have hfree := h.write_fresh (x := ⟨vif, addr, none, false, false, false⟩) hp
      exact ⟨hfree.chain, hfree.mem, hfree.nodup, hfree.unique, hfree.num⟩
    · rw [← hkey q hq, hqk]

/-! ### Destruction -/

/-- **A station is taken out of its chain**, from the front or from the middle. -/
theorem Inv.hashDel (h : t.Inv c) (hp : p ∈ t.staList) : ∃ t', t.staInfoHashDel p = some (t', 0) ∧
    (∀ k, Chain t'.next (t'.staHash k) ((c k).erase p)) ∧ t'.key = t.key ∧
    t'.staList = t.staList ∧ t'.numSta = t.numSta ∧ t'.freed = t.freed := by
  have hmem : p ∈ c (t.sta p).addr.hash := (h.mem _ p).mpr ⟨hp, rfl⟩
  have hother : ∀ k, k ≠ (t.sta p).addr.hash → (c k).erase p = c k := fun k hk =>
    List.erase_of_not_mem fun hpk => hk ((h.mem k p).mp hpk).2.symm
  have hchain := h.chain (t.sta p).addr.hash
  rcases hs : t.staHash (t.sta p).addr.hash with _ | s
  · rw [hs] at hchain
    simp [hchain.eq_nil] at hmem
  · rw [hs] at hchain
    by_cases hsp : s = p
    · refine ⟨t.writeHash (t.sta p).addr.hash (t.next s), ?_, fun k => ?_, rfl, rfl, rfl, rfl⟩
      · simp only [staInfoHashDel, hs]
        rw [if_pos hsp]
      show Chain t.next (Function.update t.staHash (t.sta p).addr.hash (t.next s) k) _
      by_cases hk : k = (t.sta p).addr.hash
      · rw [hk, Function.update_self, ← hsp]
        rw [← hsp] at hchain
        exact hchain.remove_head
      · rw [Function.update_of_ne hk, hother k hk]
        exact h.chain k
    · obtain ⟨r, hfind, hr, hrc, hrp, hdel⟩ := hchain.remove_after hmem hsp
      have hloop := hchain.find_eq (isBefore t.next p) (h.length_le _)
      rw [hfind] at hloop
      refine ⟨t.write r { t.sta r with hnext := t.next p }, ?_, fun k => ?_, key_write rfl rfl, rfl,
        rfl, rfl⟩
      · simp only [staInfoHashDel, hs]
        rw [if_neg hsp, hloop, Option.map_some]
        show some (if t.next r ≠ none then _ else _) = _
        rw [if_pos (by simp [hr])]
      · rw [next_write]
        show Chain (Function.update t.next r (t.next p)) (t.staHash k) _
        by_cases hk : k = (t.sta p).addr.hash
        · rw [hk, hs]
          exact hdel
        · rw [hother k hk]
          refine (h.chain k).update (fun hrk => hk ?_) _
          rw [← ((h.mem k r).mp hrk).2, ((h.mem _ r).mp hrc).2]

theorem destroy_of_hashDel (hdel : t.staInfoHashDel p = some (t', 0)) :
    t.staInfoDestroy (some p) = some (({ t' with
      staList := t'.staList.erase p, numSta := t'.numSta - 1 }.write p
        { t'.sta p with dead := true }).staInfoFree p, 0) := by
  show (t.staInfoHashDel p).map _ = _
  rw [hdel]
  rfl

/-- **A destruction** ends: the station is taken out, and it has been freed, once. -/
theorem destroy_spec (h : t.Wf) (hp : p ∈ t.staList) : ∃ t', t.staInfoDestroy (some p) = some (t', 0) ∧
    t'.Wf ∧ t'.key = t.key ∧ t'.staList = t.staList.erase p ∧ t'.freed = t.freed ++ [p] := by
  obtain ⟨c, h⟩ := h
  obtain ⟨u, hdel, hchain, hkey, hlist, hnum, hfreed⟩ := h.hashDel hp
  have hinv : Inv { u with staList := u.staList.erase p, numSta := u.numSta - 1 }
      (fun k => (c k).erase p) := by
    have hkey' : Table.key { u with staList := u.staList.erase p, numSta := u.numSta - 1 } = t.key :=
      hkey
    refine ⟨hchain, fun k q => ?_, ?_, ?_, ?_⟩
    · rw [hkey', hlist, (h.chain k).nodup.mem_erase_iff, h.nodup.mem_erase_iff, h.mem]
      exact and_assoc.symm
    · rw [hlist]
      exact h.nodup.erase p
    · rw [hkey', hlist]
      exact fun q hq r hr => h.unique q (List.mem_of_mem_erase hq) r (List.mem_of_mem_erase hr)
    · have hpos := List.length_pos_of_mem hp
      show u.numSta - 1 = ((u.staList.erase p).length : ℤ)
      rw [hnum, hlist, h.num, List.length_erase_of_mem hp]
      omega
  have hwf := hinv.write_same (p := p) (x := { u.sta p with dead := true }) rfl rfl rfl
  refine ⟨_, destroy_of_hashDel hdel,
    ⟨_, hwf.chain, hwf.mem, hwf.nodup, hwf.unique, hwf.num⟩, ?_, ?_, ?_⟩
  · rw [← hkey]
    exact key_write rfl rfl
  · rw [← hlist]
    rfl
  · rw [← hfreed]
    rfl

/-! ### A flush -/

/-- The stations that a flush takes out. -/
def flushed (t : Table) (priv : Option ℕ) (p : ℕ) : Prop := priv = none ∨ priv = some (t.key p).1

theorem flushLoop_spec (priv : Option ℕ) {ps : List ℕ} (h : t.Wf) (hps : ps.Nodup)
    (hmem : ∀ p ∈ ps, p ∈ t.staList) : ∃ t', flushLoop priv ps t = some t' ∧ t'.Wf ∧
      t'.key = t.key ∧ ∀ q, q ∈ t'.staList ↔ q ∈ t.staList ∧ ¬ (q ∈ ps ∧ t.flushed priv q) := by
  induction ps generalizing t with
  | nil => exact ⟨t, rfl, h, rfl, fun q => by simp⟩
  | cons p ps ih =>
    obtain ⟨hp, hps⟩ := List.nodup_cons.mp hps
    have hpt := hmem p List.mem_cons_self
    by_cases hf : t.flushed priv p
    · obtain ⟨u, hdel, hu, hkey, hlist, -⟩ := destroy_spec h hpt
      have hmem' : ∀ q ∈ ps, q ∈ u.staList := fun q hq => by
        rw [hlist, h.nodup.mem_erase_iff]
        exact ⟨fun hqp => hp (hqp ▸ hq), hmem q (List.mem_cons_of_mem _ hq)⟩
      obtain ⟨t', hloop, ht', hkey', hl⟩ := ih hu hps hmem'
      refine ⟨t', ?_, ht', hkey'.trans hkey, fun q => ?_⟩
      · rw [flushLoop, if_pos (show priv = none ∨ priv = some (t.sta p).vif from hf), hdel]
        exact hloop
      · have hfq : u.flushed priv q ↔ t.flushed priv q := by
          unfold flushed
          rw [hkey]
        rw [hl, hlist, h.nodup.mem_erase_iff, hfq, List.mem_cons]
        by_cases hqp : q = p
        · subst hqp
          simp [hf]
        · simp [hqp]
    · obtain ⟨t', hloop, ht', hkey', hl⟩ := ih h hps fun q hq => hmem q (List.mem_cons_of_mem _ hq)
      refine ⟨t', ?_, ht', hkey', fun q => ?_⟩
      · rw [flushLoop, if_neg (show ¬ (priv = none ∨ priv = some (t.sta p).vif) from hf)]
        exact hloop
      · rw [hl, List.mem_cons]
        by_cases hqp : q = p
        · subst hqp
          simp [hf]
        · simp [hqp]

/-- **A flush** ends: exactly the stations of the interface (or all) are taken out. -/
theorem flush_spec (h : t.Wf) (priv : Option ℕ) : ∃ t', t.staInfoFlush priv = some t' ∧ t'.Wf ∧
    t'.key = t.key ∧ ∀ q, q ∈ t'.staList ↔ q ∈ t.staList ∧ ¬ t.flushed priv q := by
  obtain ⟨t', hloop, ht', hkey, hl⟩ := flushLoop_spec priv h h.nodup fun p hp => hp
  refine ⟨t', hloop, ht', hkey, fun q => ?_⟩
  rw [hl]
  constructor
  · rintro ⟨hq, hnot⟩
    exact ⟨hq, fun hf => hnot ⟨hq, hf⟩⟩
  · rintro ⟨hq, hnot⟩
    exact ⟨hq, fun hf => hnot hf.2⟩

/-- **A destruction by address** ends: if the station is there, it is taken out, else nothing changes. -/
theorem destroyAddr_spec (h : t.Wf) (vif : ℕ) (addr : Addr) : ∃ t' ret,
    t.staInfoDestroyAddr vif addr = some (t', ret) ∧ t'.Wf ∧ t'.key = t.key ∧
      ∀ q, q ∈ t'.staList ↔ q ∈ t.staList ∧ t.key q ≠ (vif, addr) := by
  obtain ⟨r, hget, hr⟩ := get_spec h vif addr
  unfold staInfoDestroyAddr
  rw [hget, Option.bind_some]
  rcases r with _ | p
  · refine ⟨t, -enoent, rfl, h, rfl, fun q => ⟨fun hq => ⟨hq, fun hk => ?_⟩, And.left⟩⟩
    have hfound := (hr q).mpr ⟨hq, hk⟩
    simp at hfound
  · obtain ⟨hp, hpk⟩ := (hr p).mp rfl
    obtain ⟨t', hdel, ht', hkey, hlist, -⟩ := destroy_spec h hp
    refine ⟨t', 0, hdel, ht', hkey, fun q => ?_⟩
    rw [hlist, h.nodup.mem_erase_iff, and_comm]
    refine and_congr_right fun hq => not_congr ⟨fun hqp => hqp ▸ hpk, fun hk => ?_⟩
    exact h.eq_of_key hq hp (hk.trans hpk.symm)

/-! ### Every run -/

theorem wf_empty (sta : ℕ → StaInfo) : (empty sta).Wf :=
  ⟨fun _ => [], fun _ => .nil, fun _ _ => by simp [empty], List.nodup_nil,
    fun _ hp => absurd hp List.not_mem_nil, rfl⟩

/-- An operation that the caller may start. -/
def enabled (t : Table) : Act → Prop
  | .insert p _ _ => p ∉ t.staList
  | .destroy p => p ∈ t.staList
  | _ => True

/-- **Every operation** ends, and the table stays well formed. -/
theorem step_spec (h : t.Wf) {a : Act} (ha : t.enabled a) : ∃ t', t.step a = some t' ∧ t'.Wf := by
  rcases a with ⟨p, vif, addr⟩ | ⟨vif, addr⟩ | p | ⟨vif, addr⟩ | priv
  · obtain ⟨t', ret, hins, ht', -⟩ := insert_spec h ha vif addr
    refine ⟨t', ?_, ht'⟩
    show (if p ∈ t.staList then none else _) = _
    rw [if_neg ha, hins]
    rfl
  · obtain ⟨r, hget, -⟩ := get_spec h vif addr
    refine ⟨t, ?_, h⟩
    show (t.staInfoGet vif addr).map _ = _
    rw [hget]
    rfl
  · obtain ⟨t', hdel, ht', -⟩ := destroy_spec (p := p) h ha
    refine ⟨t', ?_, ht'⟩
    have hp : p ∈ t.staList := ha
    show (if p ∈ t.staList then _ else none) = _
    rw [if_pos hp, hdel]
    rfl
  · obtain ⟨t', ret, hdel, ht', -⟩ := destroyAddr_spec h vif addr
    refine ⟨t', ?_, ht'⟩
    show (t.staInfoDestroyAddr vif addr).map _ = _
    rw [hdel]
    rfl
  · obtain ⟨t', hflush, ht', -⟩ := flush_spec h priv
    exact ⟨t', hflush, ht'⟩

theorem enabled_of_step {a : Act} (hs : t.step a = some t') : t.enabled a := by
  rcases a with ⟨p, vif, addr⟩ | ⟨vif, addr⟩ | p | ⟨vif, addr⟩ | priv
  · exact (Option.ite_none_left_eq_some.mp hs).1
  · trivial
  · exact (Option.ite_none_right_eq_some.mp hs).1
  · trivial
  · trivial

theorem wf_of_reach (h : Reach system (fun _ _ => True) t) : t.Wf := by
  refine h.inv (I := Wf) ?_ fun s a s' hwf _ hs => ?_
  · rintro s ⟨sta, rfl⟩
    exact wf_empty sta
  · obtain ⟨u, hu, huwf⟩ := step_spec hwf (enabled_of_step hs)
    have heq : u = s' := Option.some.inj (hu.symm.trans hs)
    exact heq ▸ huwf

/-- The list and the chains hold the same stations, no two for the same interface and address,
`num_sta` is their number, and a lookup finds exactly what is there. -/
structure Consistent (t : Table) : Prop where
  chains : ∀ k, ∃ l, Chain t.next (t.staHash k) l ∧ l.Nodup ∧
    ∀ p, p ∈ l ↔ p ∈ t.staList ∧ (t.sta p).addr.hash = k
  nodup : t.staList.Nodup
  unique : ∀ p ∈ t.staList, ∀ q ∈ t.staList, t.key p = t.key q → p = q
  num : t.numSta = t.staList.length
  get : ∀ vif addr, ∃ r, t.staInfoGet vif addr = some r ∧
    ∀ p, r = some p ↔ p ∈ t.staList ∧ t.key p = (vif, addr)

theorem Wf.consistent (h : t.Wf) : t.Consistent := by
  have hget := get_spec h
  obtain ⟨c, h⟩ := h
  exact ⟨fun k => ⟨c k, h.chain k, (h.chain k).nodup, h.mem k⟩, h.nodup, h.unique, h.num, hget⟩

/-- **The table is consistent** after every sequence of operations, each of which ends. An insertion
adds the new station; or there is one with its key, the table keeps the same stations, and the new one
is freed, once. -/
theorem table_consistent (h : Reach system (fun _ _ => True) t) : t.Consistent ∧
    (∀ a, t.enabled a → ∃ t', t.step a = some t') ∧
    ∀ p vif addr, p ∉ t.staList → ∃ t' ret,
      (t.staInfoAlloc p vif addr).staInfoInsert p = some (t', ret) ∧ t'.Consistent ∧
      (∀ q ∈ t.staList, t'.key q = t.key q) ∧
      (ret = 0 ∧ (∀ q ∈ t.staList, t.key q ≠ (vif, addr)) ∧ t'.staList = p :: t.staList ∧
          t'.key p = (vif, addr) ∧ t'.freed = t.freed ∨
        ret ≠ 0 ∧ (∃ q ∈ t.staList, t.key q = (vif, addr)) ∧ t'.staList = t.staList ∧
          t'.freed = t.freed ++ [p]) := by
  have hwf := wf_of_reach h
  refine ⟨hwf.consistent, fun a ha => ?_, fun p vif addr hp => ?_⟩
  · obtain ⟨t', hs, -⟩ := step_spec hwf ha
    exact ⟨t', hs⟩
  · obtain ⟨t', ret, hins, ht', hkey, hret⟩ := insert_spec hwf hp vif addr
    refine ⟨t', ret, hins, ht'.consistent, hkey, hret.imp id ?_⟩
    rintro ⟨rfl, hrest⟩
    exact ⟨by decide, hrest⟩

/-- Three stations in one chain, the first and the third with one address on two interfaces; a second
insertion of the first fails; the second leaves. -/
theorem table_consistent_collision : ∃ t, Reach system (fun _ _ => True) t ∧ t.staList = [3, 1] ∧
    t.freed = [4, 2] ∧ t.Consistent := by
  let a : Addr := #v[2, 0, 0, 0, 0, 5]
  let b : Addr := #v[2, 0, 0, 0, 1, 5]
  let as : List Act := [.insert 1 0 a, .insert 2 0 b, .insert 3 1 a, .insert 4 0 a, .destroyAddr 0 b]
  have hout : (exec system (empty fun _ => ⟨0, a, none, false, false, false⟩) as).map
      (fun t => (t.staList, t.freed)) = some ([3, 1], [4, 2]) := by
    decide
  obtain ⟨t, ht, heq⟩ := Option.map_eq_some_iff.mp hout
  rw [Prod.mk.injEq] at heq
  have hr : Reach system (fun _ _ => True) t := Reach.of_exec (.init ⟨_, rfl⟩) ht
  exact ⟨t, hr, heq.1, heq.2, (table_consistent hr).1⟩

end Table

end Atbm6441.Sta
