import Atbm6441.Sta.Event

/-!
# The host's table and the firmware's list

The host acts on the first difference between two lists, and keeps the second. So one event is enough
for one difference of its kind only (`OneMore`); any other is forgotten.

* `checked_eq` : what the comparison finds, and when it stays in the arrays (`InRange`);
* `synced` : in every run each of whose handlings fetches the firmware's list and finds no other
  difference, the table and the list are the same when no event is left; a handling that finds
  another one leaves them different;
* `joined_twice` : two stations join before the first event is handled, and one is never added.
-/

namespace Atbm6441.Sta

open Atbm6441.Lib

/-- The addresses of a list, as far as the array goes. -/
def StaListReq.entries (l : StaListReq) : List Addr := l.info.toList.take l.staCnt.toNat

variable {vif : ℕ} {s s' : State} {a b list : StaListReq}

/-! ### The loops -/

theorem info_drop (l : StaListReq) {i : ℕ} (hi : i < 4) (n : ℕ) : ∃ m, l.info[i]? = some m ∧
    (l.info.toList.drop i).take (n + 1) = m :: (l.info.toList.drop (i + 1)).take n := by
  have hlen : i < l.info.toList.length := by
    rw [Vector.length_toList]
    exact hi
  refine ⟨l.info[i], Vector.getElem?_eq_getElem hi, ?_⟩
  rw [List.drop_eq_getElem_cons hlen, List.take_succ_cons, Vector.getElem_toList]
  rfl

theorem info_end (l : StaListReq) {i : ℕ} (hi : ¬ i < 4) : l.info[i]? = none :=
  Vector.getElem?_eq_none (Nat.le_of_not_lt hi)

theorem findMac_of_mem {l : StaListReq} {mac : Addr} {n i : ℕ}
    (h : mac ∈ (l.info.toList.drop i).take n) : ∃ j < i + n, findMac l mac n i = some j := by
  induction n generalizing i with
  | zero => simp at h
  | succ n ih =>
    by_cases hi : i < 4
    · obtain ⟨m, hm, hrest⟩ := info_drop l hi n
      rw [findMac, hm, Option.bind_some]
      by_cases hmac : m = mac
      · exact ⟨i, by omega, if_pos hmac⟩
      · rw [hrest] at h
        obtain ⟨j, hj, hfind⟩ := ih ((List.mem_cons.mp h).resolve_left (Ne.symm hmac))
        exact ⟨j, by omega, by rw [if_neg hmac, hfind]⟩
    · rw [List.drop_of_length_le (by rw [Vector.length_toList]; exact Nat.le_of_not_lt hi)] at h
      simp at h

theorem findMac_of_not_mem {l : StaListReq} {mac : Addr} {n i : ℕ} (hi : i ≤ 4)
    (h : mac ∉ (l.info.toList.drop i).take n) :
    findMac l mac n i = if i + n ≤ 4 then some (i + n) else none := by
  induction n generalizing i with
  | zero => rw [findMac, Nat.add_zero, if_pos hi]
  | succ n ih =>
    by_cases hlt : i < 4
    · obtain ⟨m, hm, hrest⟩ := info_drop l hlt n
      rw [hrest, List.mem_cons, not_or] at h
      rw [findMac, hm, Option.bind_some, if_neg (Ne.symm h.1), ih (by omega) h.2]
      have hsum : i + 1 + n = i + (n + 1) := by omega
      rw [hsum]
    · rw [findMac, info_end l hlt, if_neg (by omega)]
      rfl

theorem findMac_lt {l : StaListReq} {mac : Addr} (h : mac ∈ l.entries) :
    ∃ j < l.staCnt.toNat, findMac l mac l.staCnt.toNat 0 = some j := by
  have hfind : ∃ j < 0 + l.staCnt.toNat, findMac l mac l.staCnt.toNat 0 = some j :=
    findMac_of_mem h
  rwa [Nat.zero_add] at hfind

theorem findMac_end {l : StaListReq} {mac : Addr} (h : mac ∉ l.entries) :
    findMac l mac l.staCnt.toNat 0 =
      if l.staCnt.toNat ≤ 4 then some l.staCnt.toNat else none := by
  have hfind : findMac l mac l.staCnt.toNat 0 =
      if 0 + l.staCnt.toNat ≤ 4 then some (0 + l.staCnt.toNat) else none :=
    findMac_of_not_mem (Nat.zero_le 4) h
  rwa [Nat.zero_add] at hfind

/-- The comparison, when there is a new address and when there is none. -/
def checkedSpec (a b : StaListReq) : Option Addr → Option (Option Addr)
  | some mac => if b.staCnt.toNat ≤ 4 then some (some mac) else none
  | none => if a.staCnt.toNat ≤ 4 then some none else none

theorem firstNotIn_eq {n i : ℕ} (hi : i ≤ 4) (hn : i + n = a.staCnt.toNat) :
    firstNotIn a b n i = checkedSpec a b (firstNew ((a.info.toList.drop i).take n) b.entries) := by
  induction n generalizing i with
  | zero =>
    show some none = if a.staCnt.toNat ≤ 4 then some none else none
    rw [if_pos (by omega)]
  | succ n ih =>
    by_cases hlt : i < 4
    · obtain ⟨m, hm, hrest⟩ := info_drop a hlt n
      rw [firstNotIn, hm, Option.bind_some, hrest]
      by_cases hmem : m ∈ b.entries
      · obtain ⟨j, hj, hfind⟩ := findMac_lt hmem
        have hcnt : ¬ (b.staCnt = 0 ∨ j = b.staCnt.toNat) := by
          rintro (h0 | hj')
          · rw [h0] at hj
            exact absurd hj (Nat.not_lt_zero j)
          · omega
        rw [hfind, Option.bind_some, if_neg hcnt, ih (by omega) (by omega)]
        simp [firstNew, hmem]
      · have hnew : firstNew (m :: (a.info.toList.drop (i + 1)).take n) b.entries = some m := by
          simp [firstNew, hmem]
        rw [hnew, findMac_end hmem, checkedSpec]
        by_cases hcnt : b.staCnt.toNat ≤ 4
        · rw [if_pos hcnt, if_pos hcnt, Option.bind_some, if_pos (.inr rfl)]
        · rw [if_neg hcnt, if_neg hcnt]
          rfl
    · have hnil : a.info.toList.drop i = [] :=
        List.drop_of_length_le (by rw [Vector.length_toList]; exact Nat.le_of_not_lt hlt)
      rw [firstNotIn, info_end a hlt, hnil]
      show none = if a.staCnt.toNat ≤ 4 then some none else none
      rw [if_neg (by omega)]

/-- **What the comparison finds** is the first new address, unless it leaves an array. -/
theorem checked_eq (a b : StaListReq) : firstNotIn a b a.staCnt.toNat 0 =
    checkedSpec a b (firstNew a.entries b.entries) := by
  rw [firstNotIn_eq (by omega) (Nat.zero_add _)]
  rfl

/-- If all addresses of the first list are in the second, the count of the first is that of the array
at most, and else that of the second. -/
def InRange (a b : StaListReq) : Prop :=
  ((∀ m ∈ a.entries, m ∈ b.entries) → a.staCnt.toNat ≤ maxNumLinkAp) ∧
    ((∃ m ∈ a.entries, m ∉ b.entries) → b.staCnt.toNat ≤ maxNumLinkAp)

theorem inRange_iff (a b : StaListReq) :
    (firstNotIn a b a.staCnt.toNat 0).isSome = true ↔ InRange a b := by
  rw [checked_eq]
  rcases hnew : firstNew a.entries b.entries with _ | mac
  · have hsub := firstNew_eq_none.mp hnew
    have hspec : (checkedSpec a b none).isSome = true ↔ a.staCnt.toNat ≤ 4 := by simp [checkedSpec]
    rw [hspec]
    exact ⟨fun hcnt => ⟨fun _ => hcnt, fun ⟨m, hm, hmb⟩ => absurd (hsub m hm) hmb⟩,
      fun hrange => hrange.1 hsub⟩
  · obtain ⟨hmem, hmb⟩ := firstNew_mem hnew
    have hspec : (checkedSpec a b (some mac)).isSome = true ↔ b.staCnt.toNat ≤ 4 := by
      simp [checkedSpec]
    rw [hspec]
    exact ⟨fun hcnt => ⟨fun hsub => absurd (hsub mac hmem) hmb, fun _ => hcnt⟩,
      fun hrange => hrange.2 ⟨mac, hmem, hmb⟩⟩

/-! ### Handling an event -/

theorem has_of_list {t t' : Table} (hlist : t'.staList = t.staList)
    (hkey : ∀ p ∈ t.staList, t'.key p = t.key p) (addr : Addr) :
    t'.Has vif addr ↔ t.Has vif addr := by
  constructor
  · rintro ⟨p, hp, hk⟩
    rw [hlist] at hp
    exact ⟨p, hp, by rw [← hkey p hp, hk]⟩
  · rintro ⟨p, hp, hk⟩
    exact ⟨p, hlist ▸ hp, by rw [hkey p hp, hk]⟩

theorem insert_has (vif : ℕ) {t : Table} {p : ℕ} (h : t.Wf) (hp : p ∉ t.staList) (mac : Addr) : ∃ t' ret,
    (t.staInfoAlloc p vif mac).staInfoInsert p = some (t', ret) ∧ t'.Wf ∧
      ∀ addr, t'.Has vif addr ↔ t.Has vif addr ∨ mac = addr := by
  obtain ⟨t', ret, hins, ht', hkey, hret⟩ := Table.insert_spec h hp vif mac
  refine ⟨t', ret, hins, ht', fun addr => ?_⟩
  rcases hret with ⟨-, -, hlist, hkeyp, -⟩ | ⟨-, ⟨q, hq, hqk⟩, hlist, -⟩
  · constructor
    · rintro ⟨q, hq, hqk⟩
      rw [hlist] at hq
      rcases List.mem_cons.mp hq with rfl | hq
      · exact .inr (Prod.mk.inj (hkeyp.symm.trans hqk)).2
      · exact .inl ⟨q, hq, by rw [← hkey q hq, hqk]⟩
    · rintro (⟨q, hq, hqk⟩ | rfl)
      · exact ⟨q, hlist ▸ List.mem_cons_of_mem _ hq, by rw [hkey q hq, hqk]⟩
      · exact ⟨p, hlist ▸ List.mem_cons_self, hkeyp⟩
  · rw [has_of_list hlist hkey]
    exact ⟨.inl, fun h => h.elim id fun hmac => ⟨q, hq, hmac ▸ hqk⟩⟩

theorem destroy_has {t : Table} {p : ℕ} {mac : Addr} (h : t.Wf) (hp : p ∈ t.staList)
    (hpk : t.key p = (vif, mac)) : ∃ t', t.staInfoDestroy (some p) = some (t', 0) ∧ t'.Wf ∧
      ∀ addr, t'.Has vif addr ↔ t.Has vif addr ∧ mac ≠ addr := by
  obtain ⟨t', hdel, ht', hkey, hlist, -⟩ := Table.destroy_spec h hp
  refine ⟨t', hdel, ht', fun addr => ⟨?_, ?_⟩⟩
  · rintro ⟨q, hq, hqk⟩
    rw [hlist, h.nodup.mem_erase_iff] at hq
    rw [hkey] at hqk
    refine ⟨⟨q, hq.2, hqk⟩, ?_⟩
    rintro rfl
    exact hq.1 (h.eq_of_key hq.2 hp (hqk.trans hpk.symm))
  · rintro ⟨⟨q, hq, hqk⟩, hmac⟩
    refine ⟨q, ?_, by rw [hkey, hqk]⟩
    rw [hlist, h.nodup.mem_erase_iff]
    refine ⟨?_, hq⟩
    rintro rfl
    exact hmac (Prod.mk.inj (hpk.symm.trans hqk)).2

/-- **An add event** adds the first new address. -/
theorem addEvent_spec (vif : ℕ) {p : ℕ} (h : s.table.Wf) (hp : p ∉ s.table.staList)
    (hold : s.staListOld.staCnt.toNat ≤ 4) (hlist : list.staCnt.toNat ≤ 4) : ∃ t c,
    atbmStaAddEvent vif (some list) (some p) s =
        some { s with staListOld := list, table := t, connectSuccess := c } ∧ t.Wf ∧
      ∀ addr, t.Has vif addr ↔
        s.table.Has vif addr ∨ firstNew list.entries s.staListOld.entries = some addr := by
  have hcheck : atbmGetCheckedSta s.staListOld list true =
      checkedSpec list s.staListOld (firstNew list.entries s.staListOld.entries) := checked_eq _ _
  simp only [atbmStaAddEvent]
  rcases hnew : firstNew list.entries s.staListOld.entries with _ | mac
  · rw [hnew, checkedSpec, if_pos hlist] at hcheck
    refine ⟨s.table, s.connectSuccess, ?_, h, fun addr => by simp⟩
    rw [hcheck]
    rfl
  · rw [hnew, checkedSpec, if_pos hold] at hcheck
    obtain ⟨t, ret, hins, ht, hhas⟩ := insert_has vif h hp mac
    have hhas' : ∀ addr, t.Has vif addr ↔ s.table.Has vif addr ∨ some mac = some addr :=
      fun addr => by rw [hhas, Option.some.injEq]
    rw [hcheck, Option.bind_some]
    simp only [hins, Option.map_some]
    by_cases hret : ret ≠ 0
    · exact ⟨t, s.connectSuccess, by rw [if_pos hret], ht, hhas'⟩
    · exact ⟨t, _, by rw [if_neg hret], ht, hhas'⟩

/-- **A loss event** takes out the first missing address. -/
theorem lossEvent_spec (vif : ℕ) (h : s.table.Wf) (hold : s.staListOld.staCnt.toNat ≤ 4)
    (hlist : list.staCnt.toNat ≤ 4) : ∃ t c,
    atbmStaLossEvent vif (some list) s =
        some { s with staListOld := list, table := t, connectSuccess := c } ∧ t.Wf ∧
      ∀ addr, t.Has vif addr ↔
        s.table.Has vif addr ∧ firstNew s.staListOld.entries list.entries ≠ some addr := by
  have hcheck : atbmGetCheckedSta s.staListOld list false =
      checkedSpec s.staListOld list (firstNew s.staListOld.entries list.entries) := checked_eq _ _
  simp only [atbmStaLossEvent]
  rcases hnew : firstNew s.staListOld.entries list.entries with _ | mac
  · rw [hnew, checkedSpec, if_pos hold] at hcheck
    refine ⟨s.table, s.connectSuccess, ?_, h, fun addr => by simp⟩
    rw [hcheck]
    rfl
  · rw [hnew, checkedSpec, if_pos hlist] at hcheck
    obtain ⟨r, hget, hr⟩ := Table.get_spec h vif mac
    rw [hcheck, Option.bind_some]
    simp only [hget, Option.bind_some]
    rcases r with _ | p
    · refine ⟨s.table, s.connectSuccess, rfl, h, fun addr => ?_⟩
      rw [Ne, Option.some.injEq]
      refine ⟨fun hhas => ⟨hhas, ?_⟩, And.left⟩
      rintro rfl
      obtain ⟨q, hq, hqk⟩ := hhas
      have hfound := (hr q).mpr ⟨hq, hqk⟩
      simp at hfound
    · obtain ⟨hp, hpk⟩ := (hr p).mp rfl
      obtain ⟨t, hdel, ht, hhas⟩ := destroy_has h hp hpk
      refine ⟨t, if list.staCnt = 0 then false else s.connectSuccess, ?_, ht, fun addr => ?_⟩
      · show (s.table.staInfoDestroy (some p)).map _ = _
        rw [hdel]
        rfl
      · rw [hhas, Ne, Ne, Option.some.injEq]

/-! ### Every run -/

/-- A reply that is the firmware's list. -/
def StaListReq.Lists (list : StaListReq) (fw : List Addr) : Prop :=
  list.staCnt.toNat ≤ maxNumLinkAp ∧ list.entries.Perm fw

/-- The difference between the fetched list and the old one is one station, at most, of the kind of the
event. -/
def State.Matches (s : State) (list : StaListReq) : Prop :=
  match s.eventQueue.head? with
  | some .staAdd => OneMore list.entries s.staListOld.entries
  | some .staLoss => OneMore s.staListOld.entries list.entries
  | none => True

/-- The host gets the firmware's list, and memory. -/
def Truthful (s : State) : Step → Prop
  | .handle (some list) place => list.Lists s.fw ∧ place.isSome = true
  | .handle none _ => False
  | .join _ => True
  | .leave _ => True

/-- **The condition**: at each handling, no other difference. -/
def Orderly (s : State) : Step → Prop
  | .handle (some list) place => (list.Lists s.fw ∧ place.isSome = true) ∧ s.Matches list
  | .handle none _ => False
  | .join _ => True
  | .leave _ => True

instance (l : StaListReq) (fw : List Addr) : Decidable (l.Lists fw) :=
  inferInstanceAs (Decidable (_ ∧ _))

instance (s : State) (l : StaListReq) : Decidable (s.Matches l) :=
  match h : s.eventQueue.head? with
  | some .staAdd => decidable_of_iff (OneMore l.entries s.staListOld.entries) (by simp [State.Matches, h])
  | some .staLoss => decidable_of_iff (OneMore s.staListOld.entries l.entries) (by simp [State.Matches, h])
  | none => .isTrue (by simp [State.Matches, h])

instance (s : State) : ∀ x, Decidable (Truthful s x)
  | .handle (some list) place => inferInstanceAs (Decidable (list.Lists s.fw ∧ place.isSome = true))
  | .handle none _ => .isFalse id
  | .join _ => .isTrue trivial
  | .leave _ => .isTrue trivial

instance (s : State) : ∀ x, Decidable (Orderly s x)
  | .handle (some list) place =>
    inferInstanceAs (Decidable ((list.Lists s.fw ∧ place.isSome = true) ∧ s.Matches list))
  | .handle none _ => .isFalse id
  | .join _ => .isTrue trivial
  | .leave _ => .isTrue trivial

/-- **The invariant**: the table holds the stations of the old list. -/
structure Inv (vif : ℕ) (s : State) : Prop where
  wf : s.table.Wf
  cnt : s.staListOld.staCnt.toNat ≤ 4
  nodup : s.staListOld.entries.Nodup
  fw : s.fw.Nodup
  table : ∀ addr, s.table.Has vif addr ↔ addr ∈ s.staListOld.entries
  rest : s.eventQueue = [] → ∀ addr, addr ∈ s.staListOld.entries ↔ addr ∈ s.fw

/-- **One handling** leaves the table and the list the same if and only if there is no other
difference. -/
theorem Inv.handle_spec (hinv : Inv vif s) {p : ℕ} (hl : list.Lists s.fw)
    (hp : p ∉ s.table.staList) (hq : s.eventQueue ≠ []) : ∃ s',
    s.step vif (.handle (some list) (some p)) = some s' ∧ s'.table.Wf ∧ s'.staListOld = list ∧
      s'.fw = s.fw ∧ ((∀ addr, s'.table.Has vif addr ↔ addr ∈ s'.fw) ↔ s.Matches list) := by
  obtain ⟨hcnt, hperm⟩ := hl
  have hmem : ∀ addr, addr ∈ s.fw ↔ addr ∈ list.entries := fun addr => hperm.mem_iff.symm
  have hnodup : list.entries.Nodup := hperm.nodup_iff.mpr hinv.fw
  have hplace : ∀ q ∈ some p, q ∉ s.table.staList := fun q hq => by
    rw [Option.mem_some_iff] at hq
    exact hq ▸ hp
  simp only [State.step, State.handle, State.Matches]
  rw [if_pos hplace]
  rcases hqueue : s.eventQueue with _ | ⟨e | e, q⟩
  · exact absurd hqueue hq
  · obtain ⟨t, c, hs, ht, hhas⟩ := addEvent_spec vif (s := { s with eventQueue := q })
      hinv.wf hp hinv.cnt hcnt
    refine ⟨_, hs, ht, rfl, rfl, ?_⟩
    show (∀ addr, t.Has vif addr ↔ addr ∈ s.fw) ↔ OneMore list.entries s.staListOld.entries
    rw [oneMore_iff_add hnodup]
    refine forall_congr' fun addr => ?_
    rw [hhas, hmem]
    show (s.table.Has vif addr ∨ _ ↔ _) ↔ _
    rw [hinv.table]
  · obtain ⟨t, c, hs, ht, hhas⟩ := lossEvent_spec vif (s := { s with eventQueue := q })
      hinv.wf hinv.cnt hcnt
    refine ⟨_, hs, ht, rfl, rfl, ?_⟩
    show (∀ addr, t.Has vif addr ↔ addr ∈ s.fw) ↔ OneMore s.staListOld.entries list.entries
    rw [oneMore_iff_remove hinv.nodup]
    refine forall_congr' fun addr => ?_
    rw [hhas, hmem]
    show (s.table.Has vif addr ∧ _ ↔ _) ↔ _
    rw [hinv.table]

/-- **Every step** that meets the condition keeps it. -/
theorem Inv.step (hinv : Inv vif s) {x : Step} (hx : Orderly s x) (hs : s.step vif x = some s') :
    Inv vif s' := by
  rcases x with addr | addr | ⟨_ | list, place⟩
  · obtain ⟨hnew, hs⟩ := Option.ite_none_left_eq_some.mp hs
    rw [← Option.some.inj hs]
    have hnodup : (s.fw ++ [addr]).Nodup :=
      List.nodup_append_comm.mpr (List.nodup_cons.mpr ⟨hnew, hinv.fw⟩)
    exact ⟨hinv.wf, hinv.cnt, hinv.nodup, hnodup, hinv.table, fun hq => by simp at hq⟩
  · obtain ⟨hmem, hs⟩ := Option.ite_none_right_eq_some.mp hs
    rw [← Option.some.inj hs]
    exact ⟨hinv.wf, hinv.cnt, hinv.nodup, hinv.fw.erase addr, hinv.table, fun hq => by simp at hq⟩
  · exact hx.elim
  · obtain ⟨⟨hl, hsome⟩, hmatch⟩ := hx
    obtain ⟨p, rfl⟩ := Option.isSome_iff_exists.mp hsome
    have hp : p ∉ s.table.staList := (Option.ite_none_right_eq_some.mp hs).1 p rfl
    have hq : s.eventQueue ≠ [] := fun hq => by
      have hhandle := (Option.ite_none_right_eq_some.mp hs).2
      rw [State.handle, hq] at hhandle
      cases hhandle
    obtain ⟨u, hu, hwf, hold, hfw, hiff⟩ := hinv.handle_spec hl hp hq
    obtain rfl : u = s' := Option.some.inj (hu.symm.trans hs)
    have hmem : ∀ addr, addr ∈ list.entries ↔ addr ∈ s.fw := fun addr => hl.2.mem_iff
    refine ⟨hwf, ?_, ?_, ?_, fun addr => ?_, fun _ addr => ?_⟩
    · rw [hold]
      exact hl.1
    · rw [hold]
      exact hl.2.nodup_iff.mpr hinv.fw
    · rw [hfw]
      exact hinv.fw
    · rw [hiff.mpr hmatch addr, hfw, hold, hmem]
    · rw [hold, hfw, hmem]

theorem inv_start {t : Table} (ht : t.Wf) (hhas : ∀ addr, ¬ t.Has vif addr) :
    Inv vif (.start t) := by
  have hcnt : (0 : UInt8).toNat ≤ 4 := by decide
  exact ⟨ht, hcnt, List.nodup_nil, List.nodup_nil,
    fun addr => iff_of_false (hhas addr) List.not_mem_nil, fun _ _ => Iff.rfl⟩

theorem inv_of_reach (h : Reach (staSystem vif) Orderly s) : Inv vif s := by
  refine h.inv (I := Inv vif) ?_ fun _ _ _ hinv hx hs => hinv.step hx hs
  rintro _ ⟨t, ht, hhas, rfl⟩
  exact inv_start (Table.wf_of_reach ht) hhas

/-- **The table and the firmware's list** are the same when no event is left, in every run that meets the
condition; a handling that does not meet it, and only that, leaves them different. The comparison, of
any two lists, stays in the arrays if and only if they are in range. -/
theorem synced (h : Reach (staSystem vif) Orderly s) :
    (s.eventQueue = [] → ∀ addr, s.table.Has vif addr ↔ addr ∈ s.fw) ∧
    (∀ list p, list.Lists s.fw → p ∉ s.table.staList → s.eventQueue ≠ [] → ∃ s',
      s.step vif (.handle (some list) (some p)) = some s' ∧
      ((∀ addr, s'.table.Has vif addr ↔ addr ∈ s'.fw) ↔ s.Matches list)) ∧
    ∀ old list,
      ((atbmGetCheckedSta old list true).isSome = true ↔ InRange list old) ∧
      ((atbmGetCheckedSta old list false).isSome = true ↔ InRange old list) := by
  have hinv := inv_of_reach h
  refine ⟨fun hq addr => ?_, fun list p hl hp hq => ?_, fun old list => ⟨?_, ?_⟩⟩
  · rw [hinv.table, hinv.rest hq]
  · obtain ⟨s', hs, -, -, -, hiff⟩ := hinv.handle_spec hl hp hq
    exact ⟨s', hs, hiff⟩
  · exact inRange_iff list old
  · exact inRange_iff old list

/-! ### Runs on two stations -/

def macA : Addr := #v[2, 0, 0, 0, 0, 1]

def macB : Addr := #v[2, 0, 0, 0, 0, 2]

/-- The reply that lists two stations, or the first of them, or none. -/
def replyAB (n : UInt8) : StaListReq := ⟨n, #v[macA, macB, .replicate 6 0, .replicate 6 0]⟩

/-- No station at all. -/
def noStations : Table := .empty fun _ => ⟨0, .replicate 6 0, none, false, false, false⟩

theorem init_noStations : (staSystem 0).init (.start noStations) := by
  refine ⟨noStations, .init ⟨_, rfl⟩, ?_, rfl⟩
  rintro addr ⟨p, hp, -⟩
  cases hp

/-- Two stations join, each before the first event of the other, and the first leaves. -/
theorem synced_two : ∃ s, Reach (staSystem 0) Orderly s ∧ s.fw = [macB] ∧
    s.table.staList = [2] ∧ ∀ addr, s.table.Has 0 addr ↔ addr ∈ s.fw := by
  let xs : List Step := [.join macA, .handle (some (replyAB 1)) (some 1), .join macB,
    .handle (some (replyAB 2)) (some 2), .leave macA,
    .handle (some ⟨1, .replicate _ macB⟩) (some 3)]
  have hout : (execIf (staSystem 0) Orderly (.start noStations) xs).map
      (fun s => (s.fw, s.table.staList, s.eventQueue)) = some ([macB], [2], []) := by
    decide
  obtain ⟨s, hs, heq⟩ := Option.map_eq_some_iff.mp hout
  simp only [Prod.mk.injEq] at heq
  have hr : Reach (staSystem 0) Orderly s := Reach.of_execIf (.init init_noStations) hs
  exact ⟨s, hr, heq.1, heq.2.1, (synced hr).1 heq.2.2⟩

/-- **A station is never added**: two join before the first event is handled. And a reply that counts
five stations makes the next comparison read behind the array. -/
theorem joined_twice : (∃ s, Reach (staSystem 0) Truthful s ∧ s.eventQueue = [] ∧
      macB ∈ s.fw ∧ ¬ s.table.Has 0 macB) ∧
    ∃ s, Reach (staSystem 0) (fun _ _ => True) s ∧ s.eventQueue = [.staAdd] ∧
      atbmGetCheckedSta s.staListOld ⟨1, .replicate _ macB⟩ true = none := by
  constructor
  · let xs : List Step := [.join macA, .join macB, .handle (some (replyAB 2)) (some 1),
      .handle (some (replyAB 2)) (some 2)]
    have hout : (execIf (staSystem 0) Truthful (.start noStations) xs).map
        (fun s => (s.eventQueue, s.fw, s.table.staList.map s.table.key)) =
          some ([], [macA, macB], [(0, macA)]) := by
      decide
    obtain ⟨s, hs, heq⟩ := Option.map_eq_some_iff.mp hout
    simp only [Prod.mk.injEq] at heq
    have hr : Reach (staSystem 0) Truthful s := Reach.of_execIf (.init init_noStations) hs
    refine ⟨s, hr, heq.1, by rw [heq.2.1]; decide, ?_⟩
    rintro ⟨p, hp, hk⟩
    have hmem := List.mem_map_of_mem (f := s.table.key) hp
    rw [hk, heq.2.2] at hmem
    exact absurd hmem (by decide)
  · let xs : List Step := [.join macA, .handle (some ⟨5, .replicate _ macA⟩) (some 1), .join macB]
    have hout : (exec (staSystem 0) (.start noStations) xs).map (fun s => (s.eventQueue,
        decide (atbmGetCheckedSta s.staListOld ⟨1, .replicate _ macB⟩ true = none))) =
          some ([.staAdd], true) := by
      decide
    obtain ⟨s, hs, heq⟩ := Option.map_eq_some_iff.mp hout
    rw [Prod.mk.injEq] at heq
    exact ⟨s, Reach.of_exec (.init init_noStations) hs, heq.1, of_decide_eq_true heq.2⟩

end Atbm6441.Sta
