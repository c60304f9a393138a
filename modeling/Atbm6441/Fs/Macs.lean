import Atbm6441.Fs.Text
import Mathlib.Data.List.Forall2

/-!
# MAC addresses of a command

`atbm_module_config_macs`, which is called for each value of `bssid=`: an address in text is read
into the next element of an array, which grows by one. The first element is zeroed, the others are
not: digits are shifted into whatever is there. `configMacs_spec` : a text is accepted exactly if it
is six pairs of digits with colons between them, and the six bytes become the next element;
`configAll_spec` is about all values of a command.
-/

namespace Atbm6441.Fs.Macs

/-- `:`. -/
def COLON : UInt8 := 58

/-- `ATBM_MAX_SCAN_MAC_FILTER`. -/
def MAX_SCAN_MAC_FILTER : ℕ := 8

/-- `mac` of a `struct ieee80211_internal_mac`. -/
abbrev Mac := Vector UInt8 6

/-- `atbm_accsii_to_hex`. -/
def accsiiToHex (pos : UInt8) : Option UInt8 :=
  if 48 ≤ pos ∧ pos ≤ 57 then some (pos - 48)
  else if 97 ≤ pos ∧ pos ≤ 102 then some (pos - 97 + 0x0a)
  else if 65 ≤ pos ∧ pos ≤ 70 then some (pos - 65 + 0x0a)
  else none

/-- `struct atbm_conf_macs`: the array, which is empty for `NULL`, and how many of its elements are
in use. -/
structure ConfMacs where
  mac : List Mac
  n_macs : ℕ
  n_macs_le : n_macs ≤ mac.length
  n_macs_max : n_macs ≤ MAX_SCAN_MAC_FILTER

/-- The addresses stored. -/
def ConfMacs.stored (macs : ConfMacs) : List Mac := macs.mac.take macs.n_macs

/-- What the loop changes. -/
structure Scan where
  mac : Mac
  mac_begin : ℕ
  mac_len : ℕ

/-- The loop, and whether it has come to the end of the text. -/
def scan : List UInt8 → Scan → Bool × Scan
  | [], s => (true, s)
  | c :: posl, s =>
    if c = COLON then scan posl { s with mac_len := s.mac_len + 1, mac_begin := 0 }
    else if h : s.mac_len < 6 then
      if 1 < s.mac_begin then (false, s)
      else
        match accsiiToHex c with
        | none => (false, s)
        | some hex =>
          scan posl { s with
            mac := s.mac.set s.mac_len (s.mac[s.mac_len] * 16 + hex)
            mac_begin := s.mac_begin + 1 }
    else (false, s)

/-- `krealloc` to a number of elements, on Linux, for which alone `module_fs.c` is built; those that were
not there are whatever they are. -/
def krealloc (old : List Mac) (n : ℕ) (fresh : ℕ → Mac) : List Mac :=
  (List.range n).map fun i => old[i]?.getD (fresh i)

/-- The new array, if there is memory for it. -/
def ConfMacs.grow (macs : ConfMacs) (alloc : Option (ℕ → Mac)) :
    Option { new_mac : List Mac // macs.n_macs < new_mac.length } :=
  alloc.map fun fresh =>
    if h : macs.n_macs ≠ 0 ∧ macs.mac ≠ [] then
      ⟨krealloc macs.mac (macs.n_macs + 1) fresh, by simp [krealloc]⟩
    else
      ⟨[Vector.replicate 6 0], by
        have hle := macs.n_macs_le
        by_cases hzero : macs.n_macs = 0
        · simp [hzero]
        · have hnil : macs.mac = [] := not_not.mp fun hne => h ⟨hzero, hne⟩
          rw [hnil] at hle
          exact absurd (Nat.le_zero.mp hle) hzero⟩

/-- `atbm_module_config_macs`, of the text between the two pointers. -/
def configMacs (alloc : Option (ℕ → Mac)) (macs : ConfMacs) (pos : List UInt8) : Bool × ConfMacs :=
  if pos.length ≠ 17 then (false, macs)
  else if hmax : MAX_SCAN_MAC_FILTER ≤ macs.n_macs then (false, macs)
  else
    match macs.grow alloc with
    | none => (false, macs)
    | some ⟨new_mac, hlen⟩ =>
      let x := scan pos ⟨new_mac[macs.n_macs], 0, 0⟩
      let mac := new_mac.set macs.n_macs x.2.mac
      have hset : mac.length = new_mac.length := List.length_set
      if x.1 = false then (false, ⟨mac, macs.n_macs, by omega, macs.n_macs_max⟩)
      else if x.2.mac_len ≠ 5 then (false, ⟨mac, macs.n_macs, by omega, macs.n_macs_max⟩)
      else (true, ⟨mac, macs.n_macs + 1, by omega, by omega⟩)

/-! ### What is wanted -/

/-- The digits, in ASCII. -/
def lower : List UInt8 := [48, 49, 50, 51, 52, 53, 54, 55, 56, 57, 97, 98, 99, 100, 101, 102]

/-- The digits with capital letters. -/
def upper : List UInt8 := [48, 49, 50, 51, 52, 53, 54, 55, 56, 57, 65, 66, 67, 68, 69, 70]

/-- The value of a hexadecimal digit. -/
def hexVal (c : UInt8) : Option UInt8 :=
  ((lower.idxOf? c).or (upper.idxOf? c)).map UInt8.ofNat

/-- **The bytes that a text denotes**: pairs of hexadecimal digits, with colons between them. -/
inductive Denotes : List UInt8 → List UInt8 → Prop
  | pair {a b x y : UInt8} : hexVal a = some x → hexVal b = some y → Denotes [a, b] [x * 16 + y]
  | cons {a b x y : UInt8} {pos bytes : List UInt8} : hexVal a = some x → hexVal b = some y →
      Denotes pos bytes → Denotes (a :: b :: COLON :: pos) ((x * 16 + y) :: bytes)

/-! ### Digits -/

theorem accsiiToHex_eq (c : UInt8) : accsiiToHex c = hexVal c := by
  have hall : ∀ i : Fin 256, accsiiToHex (UInt8.ofNat i) = hexVal (UInt8.ofNat i) := by
    decide +kernel
  have hc := hall ⟨c.toNat, c.toNat_lt⟩
  rwa [UInt8.ofNat_toNat] at hc

theorem hexVal_colon : hexVal COLON = none := by decide

theorem ne_colon {c x : UInt8} (h : hexVal c = some x) : c ≠ COLON := by
  rintro rfl
  rw [hexVal_colon] at h
  cases h

/-- **Two digits shift out** what was there. -/
theorem shift_two (g x y : UInt8) : (g * 16 + x) * 16 + y = x * 16 + y := by
  apply UInt8.toNat_inj.mp
  simp only [UInt8.toNat_add, UInt8.toNat_mul]
  rw [show (16 : UInt8).toNat = 16 from rfl]
  omega

/-! ### The loop -/

variable {s t : Scan} {c x : UInt8} {pos bytes : List UInt8}

theorem scan_colon (pos : List UInt8) (s : Scan) :
    scan (COLON :: pos) s = scan pos { s with mac_len := s.mac_len + 1, mac_begin := 0 } := by
  rw [scan, if_pos rfl]

theorem scan_digit (hc : hexVal c = some x) (hlen : s.mac_len < 6) (hbegin : s.mac_begin ≤ 1)
    (pos : List UInt8) :
    scan (c :: pos) s = scan pos { s with
      mac := s.mac.set s.mac_len (s.mac[s.mac_len] * 16 + x)
      mac_begin := s.mac_begin + 1 } := by
  rw [scan, if_neg (ne_colon hc), dif_pos hlen, if_neg (by omega), accsiiToHex_eq, hc]

/-- **What is accepted** begins with a colon, or with a digit where there is room for one. -/
theorem scan_cons (h : scan (c :: pos) s = (true, t)) :
    (c = COLON ∧ scan pos { s with mac_len := s.mac_len + 1, mac_begin := 0 } = (true, t)) ∨
      ∃ x mac, hexVal c = some x ∧ s.mac_len < 6 ∧ s.mac_begin ≤ 1 ∧
        scan pos { s with mac := mac, mac_begin := s.mac_begin + 1 } = (true, t) := by
  by_cases hc : c = COLON
  · subst hc
    rw [scan_colon] at h
    exact .inl ⟨rfl, h⟩
  · rw [scan, if_neg hc] at h
    split_ifs at h with hlen hbegin
    · cases h
    · rw [accsiiToHex_eq] at h
      rcases hx : hexVal c with _ | x
      · rw [hx] at h
        cases h
      · rw [hx] at h
        exact .inr ⟨x, _, rfl, hlen, by omega, h⟩
    · cases h

/-- **How long a text can be**: two digits for a colon. -/
theorem length_of_scan (h : scan pos s = (true, t)) (hbegin : s.mac_begin ≤ 2) :
    pos.length + s.mac_begin + 3 * s.mac_len ≤ 3 * t.mac_len + 2 := by
  induction pos generalizing s with
  | nil =>
    obtain rfl : s = t := congrArg Prod.snd h
    rw [List.length_nil]
    omega
  | cons c pos ih =>
    rw [List.length_cons]
    rcases scan_cons h with ⟨-, h⟩ | ⟨x, mac, -, -, hle, h⟩
    · have hlen := ih h (Nat.zero_le 2)
      dsimp only at hlen
      omega
    · have hlen := ih h (Nat.succ_le_succ hle)
      dsimp only at hlen
      omega

/-- **A text of the full length** has a digit wherever there is room for one. -/
theorem digit_of_scan (h : scan pos s = (true, t)) (hbegin : s.mac_begin ≤ 1)
    (hlen : pos.length + s.mac_begin + 3 * s.mac_len = 3 * t.mac_len + 2) :
    ∃ c x mac pos', pos = c :: pos' ∧ hexVal c = some x ∧
      scan pos' { s with mac := mac, mac_begin := s.mac_begin + 1 } = (true, t) := by
  rcases pos with _ | ⟨c, pos⟩
  · obtain rfl : s = t := congrArg Prod.snd h
    rw [List.length_nil] at hlen
    omega
  · rw [List.length_cons] at hlen
    rcases scan_cons h with ⟨-, h⟩ | ⟨x, mac, hx, -, -, h⟩
    · have hle := length_of_scan h (Nat.zero_le 2)
      dsimp only at hle
      omega
    · exact ⟨c, x, mac, pos, rfl, hx, h⟩

/-- **What is accepted at the full length** is pairs of digits with colons between them. -/
theorem denotes_of_scan {n : ℕ} (h : scan pos s = (true, t)) (hbegin : s.mac_begin = 0)
    (hn : s.mac_len + n = t.mac_len) (hlen : pos.length = 3 * n + 2) :
    ∃ bytes, Denotes pos bytes := by
  induction n generalizing pos s with
  | zero =>
    obtain ⟨a, x, mac, pos, rfl, ha, h⟩ := digit_of_scan h (by omega) (by omega)
    obtain ⟨b, y, mac, pos, rfl, hb, h⟩ :=
      digit_of_scan h (Nat.succ_le_succ (by omega)) (by simp only [List.length_cons] at *; omega)
    obtain rfl : pos = [] :=
      List.length_eq_zero_iff.mp (by simp only [List.length_cons] at hlen; omega)
    exact ⟨_, .pair ha hb⟩
  | succ n ih =>
    obtain ⟨a, x, mac, pos, rfl, ha, h⟩ := digit_of_scan h (by omega) (by omega)
    obtain ⟨b, y, mac, pos, rfl, hb, h⟩ :=
      digit_of_scan h (Nat.succ_le_succ (by omega)) (by simp only [List.length_cons] at *; omega)
    rcases pos with _ | ⟨c, pos⟩
    · simp only [List.length_cons, List.length_nil] at hlen
      omega
    · rcases scan_cons h with ⟨rfl, hnext⟩ | ⟨x, mac, -, -, hle, -⟩
      · obtain ⟨bytes, hbytes⟩ := ih hnext rfl (by dsimp only; omega)
          (by simp only [List.length_cons] at hlen; omega)
        exact ⟨_, .cons ha hb hbytes⟩
      · dsimp only at hle
        omega

/-- **Two digits are stored** as a byte, whatever was there. -/
theorem scan_pair {a b x y : UInt8} (ha : hexVal a = some x) (hb : hexVal b = some y)
    (hbegin : s.mac_begin = 0) (hlen : s.mac_len < 6) (pos : List UInt8) :
    scan (a :: b :: pos) s =
      scan pos { s with mac := s.mac.set s.mac_len (x * 16 + y), mac_begin := 2 } := by
  refine (scan_digit ha hlen (by omega) _).trans ?_
  refine (scan_digit hb (by exact hlen) (by dsimp only; omega) pos).trans ?_
  dsimp only
  rw [Vector.set_set, Vector.getElem_set_self, shift_two, hbegin]

theorem take_set {α : Type} {l : List α} {n : ℕ} (hn : n < l.length) (v : α) :
    (l.set n v).take (n + 1) = l.take n ++ [v] := by
  rw [List.take_add_one, List.getElem?_set_self hn, List.take_set_of_le (Nat.le_refl n)]
  rfl

theorem take_toList_set (mac : Mac) {n : ℕ} (hn : n < 6) (v : UInt8) :
    (mac.set n v).toList.take (n + 1) = mac.toList.take n ++ [v] := by
  rw [Vector.toList_set, take_set (by rwa [Vector.length_toList])]

/-- **The bytes are stored** from where the loop is. -/
theorem scan_of_denotes (h : Denotes pos bytes) (hbegin : s.mac_begin = 0)
    (hlen : s.mac_len + bytes.length = 6) :
    ∃ t, scan pos s = (true, t) ∧ t.mac_len = 5 ∧
      t.mac.toList = s.mac.toList.take s.mac_len ++ bytes := by
  induction h generalizing s with
  | @pair a b x y ha hb =>
    rw [List.length_singleton] at hlen
    refine ⟨_, by rw [scan_pair ha hb hbegin (by omega)]; rfl, by dsimp only; omega, ?_⟩
    dsimp only
    rw [← take_toList_set s.mac (by omega), List.take_of_length_le (by simp; omega)]
  | @cons a b x y pos bytes ha hb _ ih =>
    rw [List.length_cons] at hlen
    have hlt : s.mac_len < 6 := by omega
    obtain ⟨t, ht, hlast, hmac⟩ :=
      ih (s := ⟨s.mac.set s.mac_len (x * 16 + y), 0, s.mac_len + 1⟩) rfl (by dsimp only; omega)
    refine ⟨t, ?_, hlast, ?_⟩
    · rw [scan_pair ha hb hbegin hlt, scan_colon]
      exact ht
    · rw [hmac]
      dsimp only
      rw [take_toList_set s.mac hlt, List.append_assoc, List.singleton_append]

/-! ### The function -/

theorem length_of_denotes (h : Denotes pos bytes) : pos.length + 1 = 3 * bytes.length := by
  induction h with
  | pair _ _ => rfl
  | cons _ _ _ ih =>
    simp only [List.length_cons]
    omega

/-- **The loop over 17 characters** from the beginning accepts exactly the texts that denote bytes.
-/
theorem scan_iff (mac : Mac) (hlen : pos.length = 17) :
    ((scan pos ⟨mac, 0, 0⟩).1 = true ∧ (scan pos ⟨mac, 0, 0⟩).2.mac_len = 5) ↔
      ∃ bytes, Denotes pos bytes := by
  constructor
  · rintro ⟨hend, hfive⟩
    exact denotes_of_scan (n := 5) (Prod.ext hend rfl) rfl (by rw [hfive]) hlen
  · rintro ⟨bytes, h⟩
    have hbytes := length_of_denotes h
    obtain ⟨t, ht, hfive, -⟩ := scan_of_denotes (s := ⟨mac, 0, 0⟩) h rfl (by dsimp only; omega)
    rw [ht]
    exact ⟨rfl, hfive⟩

variable {macs : ConfMacs} {alloc : Option (ℕ → Mac)}

theorem take_krealloc {old : List Mac} {n : ℕ} (h : n ≤ old.length) (fresh : ℕ → Mac) :
    (krealloc old (n + 1) fresh).take n = old.take n := by
  refine List.ext_getElem (by simp [krealloc, h]) fun i hi hi' => ?_
  have hold : i < old.length := by
    rw [List.length_take] at hi'
    omega
  simp [krealloc, List.getElem?_eq_getElem hold]

/-- **The new array** has the addresses that are stored. -/
theorem take_grow {new_mac : { new_mac : List Mac // macs.n_macs < new_mac.length }}
    (h : macs.grow alloc = some new_mac) : new_mac.1.take macs.n_macs = macs.stored := by
  obtain ⟨fresh, -, rfl⟩ := Option.map_eq_some_iff.mp h
  by_cases hold : macs.n_macs ≠ 0 ∧ macs.mac ≠ []
  · rw [dif_pos hold]
    exact take_krealloc macs.n_macs_le fresh
  · rw [dif_neg hold]
    have hzero : macs.n_macs = 0 := by
      by_contra hne
      have hnil : macs.mac = [] := not_not.mp fun h => hold ⟨hne, h⟩
      have hle := macs.n_macs_le
      rw [hnil] at hle
      exact hne (Nat.le_zero.mp hle)
    show List.take macs.n_macs [Vector.replicate 6 0] = List.take macs.n_macs macs.mac
    rw [hzero]
    rfl

theorem configMacs_of_not
    (h : ¬ (pos.length = 17 ∧ macs.n_macs < MAX_SCAN_MAC_FILTER ∧ alloc.isSome)) :
    configMacs alloc macs pos = (false, macs) := by
  unfold configMacs
  split_ifs with hlen hmax
  · rfl
  · rfl
  · rcases alloc with _ | fresh
    · rfl
    · exact absurd ⟨not_not.mp hlen, Nat.lt_of_not_le hmax, rfl⟩ h

/-- **With both** the loop decides, and the addresses before the new one stay what they are. -/
theorem configMacs_of_room (hlen : pos.length = 17) (hmax : macs.n_macs < MAX_SCAN_MAC_FILTER)
    (halloc : alloc.isSome) :
    ∃ mac macs',
      (((scan pos ⟨mac, 0, 0⟩).1 = true ∧ (scan pos ⟨mac, 0, 0⟩).2.mac_len = 5) ∧
          configMacs alloc macs pos = (true, macs') ∧
          macs'.stored = macs.stored ++ [(scan pos ⟨mac, 0, 0⟩).2.mac] ∨
        ¬ ((scan pos ⟨mac, 0, 0⟩).1 = true ∧ (scan pos ⟨mac, 0, 0⟩).2.mac_len = 5) ∧
          configMacs alloc macs pos = (false, macs') ∧ macs'.stored = macs.stored) := by
  obtain ⟨⟨new_mac, hnew⟩, hgrow⟩ : ∃ new_mac, macs.grow alloc = some new_mac := by
    obtain ⟨fresh, rfl⟩ := Option.isSome_iff_exists.mp halloc
    exact ⟨_, rfl⟩
  have hstored := take_grow hgrow
  have hsame : ∀ m : Mac, (new_mac.set macs.n_macs m).take macs.n_macs = macs.stored := by
    intro m
    rw [List.take_set_of_le (Nat.le_refl _)]
    exact hstored
  refine ⟨new_mac[macs.n_macs], (configMacs alloc macs pos).2, ?_⟩
  unfold configMacs
  rw [if_neg (not_not.mpr hlen), dif_neg (Nat.not_le.mpr hmax), hgrow]
  dsimp only
  by_cases hend : (scan pos ⟨new_mac[macs.n_macs], 0, 0⟩).1 = false
  · rw [if_pos hend]
    refine .inr ⟨fun h => ?_, rfl, hsame _⟩
    rw [hend] at h
    cases h.1
  rw [if_neg hend]
  by_cases hfive : (scan pos ⟨new_mac[macs.n_macs], 0, 0⟩).2.mac_len = 5
  · rw [if_neg (not_not.mpr hfive)]
    refine .inl ⟨⟨by simpa using hend, hfive⟩, rfl, ?_⟩
    rw [← hstored]
    exact take_set hnew _
  · rw [if_pos hfive]
    exact .inr ⟨fun h => hfive h.2, rfl, hsame _⟩

/-- **The function**: it accepts a text if there is room and memory and the text denotes six bytes,
and then these are the next address. The addresses before it stay what they are. -/
theorem configMacs_spec (alloc : Option (ℕ → Mac)) (macs : ConfMacs) (pos : List UInt8) :
    ((configMacs alloc macs pos).1 = true ↔
      macs.n_macs < MAX_SCAN_MAC_FILTER ∧ alloc.isSome ∧ ∃ m : Mac, Denotes pos m.toList) ∧
    (∀ m : Mac, (configMacs alloc macs pos).1 = true → Denotes pos m.toList →
      (configMacs alloc macs pos).2.stored = macs.stored ++ [m]) ∧
    ((configMacs alloc macs pos).1 = false →
      (configMacs alloc macs pos).2.stored = macs.stored) := by
  by_cases hroom : pos.length = 17 ∧ macs.n_macs < MAX_SCAN_MAC_FILTER ∧ alloc.isSome
  · obtain ⟨hlen, hmax, halloc⟩ := hroom
    obtain ⟨mac, macs', h⟩ := configMacs_of_room hlen hmax halloc
    have hdenotes : (∃ bytes, Denotes pos bytes) ↔ ∃ m : Mac, Denotes pos m.toList := by
      refine ⟨fun ⟨bytes, h⟩ => ?_, fun ⟨m, h⟩ => ⟨_, h⟩⟩
      have hbytes := length_of_denotes h
      exact ⟨⟨bytes.toArray, by simp; omega⟩, by simpa using h⟩
    have hiff := (scan_iff mac hlen).trans hdenotes
    rcases h with ⟨hscan, hret, hstored⟩ | ⟨hscan, hret, hstored⟩
    · rw [hret]
      refine ⟨iff_of_true rfl ⟨hmax, halloc, hiff.mp hscan⟩, fun m _ hm => ?_, fun h => by cases h⟩
      obtain ⟨t, ht, -, hmac⟩ := scan_of_denotes (s := ⟨mac, 0, 0⟩) hm rfl (by simp)
      rw [List.take_zero, List.nil_append] at hmac
      rw [hstored, ht, Vector.toList_inj.mp hmac]
    · rw [hret]
      refine ⟨⟨fun h => (by cases h), fun h => absurd (hiff.mpr h.2.2) hscan⟩,
        fun m h => (by cases h), fun _ => hstored⟩
  · rw [configMacs_of_not hroom]
    refine ⟨⟨fun h => (by cases h), fun ⟨hmax, halloc, m, hm⟩ => ?_⟩, fun m h => (by cases h),
      fun _ => rfl⟩
    have hbytes := length_of_denotes hm
    rw [Vector.length_toList] at hbytes
    exact absurd ⟨by omega, hmax, halloc⟩ hroom

/-! ### A command -/

/-- The calls for the values of a command, of which one that fails is the last. -/
def configAll : List (Option (ℕ → Mac) × List UInt8) → ConfMacs → Bool × ConfMacs
  | [], macs => (true, macs)
  | (alloc, pos) :: calls, macs =>
    let x := configMacs alloc macs pos
    if x.1 = false then x else configAll calls x.2

/-- A command begins with a record that is zeroed. -/
def ConfMacs.start : ConfMacs := ⟨[], 0, Nat.zero_le _, Nat.zero_le _⟩

/-- **The values of a command**: those that are accepted are the next addresses, in order, and
each is accepted if none fails. -/
theorem configAll_spec (calls : List (Option (ℕ → Mac) × List UInt8)) (macs : ConfMacs) :
    ∃ ms : List Mac, (configAll calls macs).2.stored = macs.stored ++ ms ∧
      List.Forall₂ (fun call m => Denotes call.2 m.toList) (calls.take ms.length) ms ∧
      ((configAll calls macs).1 = true ↔ ms.length = calls.length) := by
  induction calls generalizing macs with
  | nil => exact ⟨[], (List.append_nil _).symm, .nil, iff_of_true rfl rfl⟩
  | cons call calls ih =>
    obtain ⟨hiff, htrue, hfalse⟩ := configMacs_spec call.1 macs call.2
    rcases hret : (configMacs call.1 macs call.2).1 with _ | _
    · have hall : configAll (call :: calls) macs = configMacs call.1 macs call.2 := if_pos hret
      rw [hall, hret, hfalse hret]
      refine ⟨[], (List.append_nil _).symm, .nil, iff_of_false Bool.false_ne_true fun h => ?_⟩
      cases h
    · obtain ⟨-, -, m, hm⟩ := hiff.mp hret
      have hall : configAll (call :: calls) macs =
          configAll calls (configMacs call.1 macs call.2).2 :=
        if_neg (by simp [hret])
      obtain ⟨ms, hstored, hdenotes, hlast⟩ := ih (configMacs call.1 macs call.2).2
      rw [hall]
      refine ⟨m :: ms, ?_, .cons hm hdenotes, ?_⟩
      · rw [hstored, htrue m hret hm, List.append_assoc, List.singleton_append]
      · rw [hlast, List.length_cons, List.length_cons, Nat.add_right_cancel_iff]

/-- **Each text that denotes six bytes becomes the next address**, as long as there is room and
memory, and any other is rejected; the addresses before it stay what they are, and so a command has
stored those of its values, in order. -/
theorem macs_exact (alloc : Option (ℕ → Mac)) (macs : ConfMacs) (pos : List UInt8)
    (calls : List (Option (ℕ → Mac) × List UInt8)) :
    (((configMacs alloc macs pos).1 = true ↔
        macs.n_macs < MAX_SCAN_MAC_FILTER ∧ alloc.isSome ∧ ∃ m : Mac, Denotes pos m.toList) ∧
      (∀ m : Mac, (configMacs alloc macs pos).1 = true → Denotes pos m.toList →
        (configMacs alloc macs pos).2.stored = macs.stored ++ [m]) ∧
      ((configMacs alloc macs pos).1 = false →
        (configMacs alloc macs pos).2.stored = macs.stored)) ∧
    ∃ ms : List Mac, (configAll calls .start).2.stored = ms ∧
      List.Forall₂ (fun call m => Denotes call.2 m.toList) (calls.take ms.length) ms ∧
      ((configAll calls .start).1 = true ↔ ms.length = calls.length) :=
  ⟨configMacs_spec alloc macs pos, configAll_spec calls .start⟩

/-- Two addresses, where the memory behind the first is full of ones. -/
example :
    (configAll [(some fun _ => Vector.replicate 6 0, "00:1a:2B:3c:4D:5e".toUTF8.toList),
        (some fun _ => Vector.replicate 6 255, "a0:b1:c2:d3:e4:f5".toUTF8.toList)]
        .start).2.stored.map Vector.toList =
      [[0, 0x1a, 0x2b, 0x3c, 0x4d, 0x5e], [0xa0, 0xb1, 0xc2, 0xd3, 0xe4, 0xf5]] := by
  decide +kernel

end Atbm6441.Fs.Macs
