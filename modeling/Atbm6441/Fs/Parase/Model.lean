import Atbm6441.Fs.Text
import Atbm6441.Lib.Chains

/-!
# The parser of parameter lines

`atbm_string_parase`: a line of `key=value` strings is taken apart with a table of keys. The keys
and the built-in `echo=` are kept in a hash table with chains; each found key calls its function
with the place of its value, or of each of its values in brackets.

What the parser writes down of a string beside `found` (its place, length and number of values) is
not read by anyone. The hash function is a parameter. The loops of the source are run with fuel;
`none` is a loop that has not ended.
-/

namespace Atbm6441.Fs.Parase

open Atbm6441.Lib

/-- What the functions of the keys change: the `echo_enable` of the command, and what belongs to the
command that has called the parser. -/
structure StoreCmd (σ : Type) where
  echo_enable : Bool
  priv : σ
  deriving DecidableEq

/-- A `string_func`, from the bytes between its two pointers. -/
abbrev StringFunc (σ : Type) := List UInt8 → StoreCmd σ → Bool × StoreCmd σ

/-- `struct atbm_sting_s`. -/
structure StingS (σ : Type) where
  string : List UInt8
  found : Bool
  string_func : Option (StringFunc σ)

/-- `ATBM_STRING_MAX_LEN`. -/
def STRING_MAX_LEN : ℕ := 32

/-- `ATBM_STRING_HASHENTRIES`. -/
abbrev STRING_HASHENTRIES : ℕ := 16

def PARAML : UInt8 := 91

def PARAMR : UInt8 := 93

def PARAML_S : UInt8 := 60

def PARAMR_S : UInt8 := 62

/-- A left bracket of either kind. -/
def IsLeft (c : UInt8) : Prop := c = PARAML ∨ c = PARAML_S

/-- A right bracket of either kind. -/
def IsRight (c : UInt8) : Prop := c = PARAMR ∨ c = PARAMR_S

instance (c : UInt8) : Decidable (IsLeft c) := inferInstanceAs (Decidable (_ ∨ _))

instance (c : UInt8) : Decidable (IsRight c) := inferInstanceAs (Decidable (_ ∨ _))

/-- `atbm_string_invalid`. -/
def Invalid (c : UInt8) : Prop := c ≠ SPACE ∧ c ≠ LINEF ∧ c ≠ ENTER ∧ c ≠ TAIL

instance (c : UInt8) : Decidable (Invalid c) := inferInstanceAs (Decidable (_ ∧ _))

/-- A length that is passed as an `int`; there are no steps of a loop up to a negative one. -/
def intLen (n : ℕ) : ℕ := if n % 4294967296 < 2147483648 then n % 4294967296 else 0

/-- The bracket that closes one. -/
def nextPos (l : UInt8) : UInt8 := if l = PARAML then PARAMR else PARAMR_S

/-- The inner loop of `atbm_cmd_string_split`: what is in front of the bracket, and what is behind.
-/
def splitRight (next_pos : UInt8) : ℕ → List UInt8 → Option (List UInt8 × List UInt8)
  | len + 1, c :: pos =>
    if IsLeft c then none
    else if c ≠ next_pos then (splitRight next_pos len pos).map fun (v, r) => (c :: v, r)
    else some ([], pos)
  | _, _ => none

/-- `atbm_cmd_string_split`, when it returns more than 0: what is between the brackets, and what is
behind them. -/
def cmdStringSplit : ℕ → List UInt8 → Option (List UInt8 × List UInt8)
  | len + 1, c :: pos =>
    if IsRight c then none
    else if ¬ IsLeft c then cmdStringSplit len pos
    else splitRight (nextPos c) len pos
  | _, _ => none

section

variable {σ : Type}

/-- A call of a function that may be missing. -/
def call (f : Option (StringFunc σ)) (v : List UInt8) (s : StoreCmd σ) : Bool × StoreCmd σ :=
  match f with
  | none => (true, s)
  | some f => f v s

/-- The loop over values in brackets. It ends with the place behind them, or with none where the
parser returns false. -/
def brackets (f : Option (StringFunc σ)) :
    ℕ → List UInt8 → StoreCmd σ → Option (Option (List UInt8) × StoreCmd σ)
  | 0, _, _ => none
  | fuel + 1, pos_l, s =>
    if pos_l = [] then some (some [], s)
    else
      match cmdStringSplit (intLen pos_l.length) pos_l with
      | none => some (none, s)
      | some (v, pos_r) =>
        if v = [] then some (none, s)
        else
          match call f v s with
          | (false, s) => some (none, s)
          | (true, s) =>
            if IsLeft (pos_r.headD TAIL) then brackets f fuel pos_r s
            else if Invalid (pos_r.headD TAIL) then some (none, s)
            else some (some pos_r, s)

/-- The end of a value without brackets: a space; else the end of the line. -/
def valueEnd (tmp_pos : List UInt8) : ℕ :=
  match tmp_pos.idxOf? SPACE with
  | some i => i
  | none =>
    match tmp_pos.idxOf? ENTER with
    | some i => i
    | none => (tmp_pos.idxOf? LINEF).getD tmp_pos.length

/-- The value of a key. -/
def value (f : Option (StringFunc σ)) (fuel : ℕ) (tmp_pos : List UInt8) (s : StoreCmd σ) :
    Option (Option (List UInt8) × StoreCmd σ) :=
  if ¬ IsLeft (tmp_pos.headD TAIL) then
    match call f (tmp_pos.take (valueEnd tmp_pos)) s with
    | (false, s) => some (none, s)
    | (true, s) => some (some (tmp_pos.drop (valueEnd tmp_pos)), s)
  else brackets f fuel tmp_pos s

variable (hash : List UInt8 → Fin STRING_HASHENTRIES)

/-- `atbm_string_hash_head`. -/
abbrev Heads (σ : Type) := Chains (Fin STRING_HASHENTRIES) (StingS σ)

/-- The node of a string. -/
def Heads.find (t : Heads σ) (string : List UInt8) : Option (StingS σ) :=
  Chains.find hash StingS.string t string

/-- `found = true`. -/
def Heads.mark (t : Heads σ) (string : List UInt8) : Heads σ :=
  Chains.modify hash StingS.string t string fun n => { n with found := true }

/-- The loop of `atbm_string_parase` from `next_str` on, in a line of `string_len` bytes. -/
def nextStr (string_len : ℕ) :
    ℕ → List UInt8 → Heads σ → StoreCmd σ → Option (Bool × StoreCmd σ)
  | 0, _, _, _ => none
  | fuel + 1, pos, t, s =>
    match skipSpace pos with
    | none => some (pos.length ≠ string_len, s)
    | some pos =>
      if pos.headD TAIL = TAIL then some (pos.length ≠ string_len, s)
      else if pos.headD TAIL = LINEF ∨ pos.headD TAIL = ENTER then
        some (pos.length ≠ string_len, s)
      else
        match pos.idxOf? EQUAL with
        | none => some (false, s)
        | some i =>
          match t.find hash (pos.take (i + 1)) with
          | none => some (false, s)
          | some n =>
            if n.found then some (false, s)
            else
              match skipSpace (pos.drop (i + 1)) with
              | none => some (false, s)
              | some tmp_pos =>
                match value n.string_func fuel tmp_pos s with
                | none => none
                | some (none, s) => some (false, s)
                | some (some pos, s) =>
                  nextStr string_len fuel pos (t.mark hash n.string) s

/-- What `atbm_string_parase` has come to. -/
inductive Ret (σ : Type)
  /-- `BUG_ON` -/
  | bug
  | ret (res : Bool) (s : StoreCmd σ)

/-- What the insertion of the table has come to. -/
inductive Added (σ : Type)
  | bug
  /-- a string is already there -/
  | again
  | heads (t : Heads σ)

/-- The strings of the table, into the chains. -/
def addStrings : List (StingS σ) → Heads σ → Added σ
  | [], t => .heads t
  | n :: string_table, t =>
    if STRING_MAX_LEN < n.string.length then .bug
    else if (t.find hash n.string).isSome then .again
    else addStrings string_table (t.add hash StingS.string n)

/-- `CMD_ECHO_STR`, `echo=`. -/
def CMD_ECHO_STR : List UInt8 := [101, 99, 104, 111, 61]

/-- `ECHO_ENABLE`, `enable`. -/
def ECHO_ENABLE : List UInt8 := [101, 110, 97, 98, 108, 101]

/-- `ECHO_DISABLE`, `disable`. -/
def ECHO_DISABLE : List UInt8 := [100, 105, 115, 97, 98, 108, 101]

/-- `atbm_string_parase_echo`. -/
def paraseEcho : StringFunc σ := fun v s =>
  if v = [] then (false, s)
  else if v = ECHO_ENABLE then (true, { s with echo_enable := true })
  else if v = ECHO_DISABLE then (true, { s with echo_enable := false })
  else (false, s)

/-- `echo_str`. -/
def echoStr : StingS σ := ⟨CMD_ECHO_STR, false, some paraseEcho⟩

/-- `atbm_string_parase`. -/
def stringParase (fuel : ℕ) (string_table : List (StingS σ)) (string : List UInt8)
    (s : StoreCmd σ) : Option (Ret σ) :=
  match addStrings hash string_table (Chains.empty.add hash StingS.string echoStr) with
  | .bug => some .bug
  | .again => some (.ret false s)
  | .heads t =>
    if string = [] then some (.ret true s)
    else (nextStr hash string.length fuel string t s).map fun (res, s) => .ret res s

/-! ### The loops end -/

theorem splitRight_some {next_pos : UInt8} {len : ℕ} {pos v r : List UInt8}
    (h : splitRight next_pos len pos = some (v, r)) : pos = v ++ next_pos :: r := by
  induction len generalizing pos v with
  | zero => cases h
  | succ len ih =>
    rcases pos with _ | ⟨c, pos⟩
    · cases h
    · obtain ⟨-, h⟩ := Option.ite_none_left_eq_some.mp h
      by_cases hc : c = next_pos
      · subst hc
        rw [if_neg (not_not.mpr rfl)] at h
        obtain ⟨rfl, rfl⟩ := Prod.mk.inj (Option.some.inj h)
        rfl
      · rw [if_pos hc] at h
        obtain ⟨⟨v', r'⟩, hsplit, h⟩ := Option.map_eq_some_iff.mp h
        obtain ⟨rfl, rfl⟩ := Prod.mk.inj h
        rw [ih hsplit]
        rfl

theorem length_of_cmdStringSplit {len : ℕ} {pos v r : List UInt8}
    (h : cmdStringSplit len pos = some (v, r)) : r.length < pos.length := by
  induction len generalizing pos with
  | zero => cases h
  | succ len ih =>
    rcases pos with _ | ⟨c, pos⟩
    · cases h
    · obtain ⟨-, h⟩ := Option.ite_none_left_eq_some.mp h
      by_cases hc : IsLeft c
      · rw [if_neg (not_not.mpr hc)] at h
        rw [splitRight_some h, List.length_cons, List.length_append, List.length_cons]
        omega
      · rw [if_pos hc] at h
        have hlen := ih h
        rw [List.length_cons]
        omega

/-- **The loop over brackets ends**, and not before its start. -/
theorem brackets_ends (f : Option (StringFunc σ)) {fuel : ℕ} {pos : List UInt8}
    (hfuel : pos.length < fuel) (s : StoreCmd σ) :
    ∃ o s', brackets f fuel pos s = some (o, s') ∧ ∀ r, o = some r → r.length ≤ pos.length := by
  induction fuel generalizing pos s with
  | zero => omega
  | succ fuel ih =>
    unfold brackets
    by_cases hpos : pos = []
    · exact ⟨some [], s, if_pos hpos, fun r hr => by rw [← Option.some.inj hr]; exact Nat.zero_le _⟩
    rw [if_neg hpos]
    rcases hsplit : cmdStringSplit (intLen pos.length) pos with _ | ⟨v, r⟩
    · exact ⟨none, s, rfl, fun r hr => by cases hr⟩
    have hlen := length_of_cmdStringSplit hsplit
    dsimp only
    by_cases hv : v = []
    · exact ⟨none, s, if_pos hv, fun r hr => by cases hr⟩
    rw [if_neg hv]
    rcases call f v s with ⟨res, s'⟩
    rcases res with _ | _
    · exact ⟨none, s', rfl, fun r hr => by cases hr⟩
    dsimp only
    by_cases hleft : IsLeft (r.headD TAIL)
    · rw [if_pos hleft]
      obtain ⟨o, s'', hb, ho⟩ := ih (show r.length < fuel by omega) s'
      exact ⟨o, s'', hb, fun r' hr' => Nat.le_of_lt (Nat.lt_of_le_of_lt (ho r' hr') hlen)⟩
    · rw [if_neg hleft]
      by_cases hinv : Invalid (r.headD TAIL)
      · exact ⟨none, s', if_pos hinv, fun r hr => by cases hr⟩
      · refine ⟨some r, s', if_neg hinv, fun r' hr' => ?_⟩
        obtain rfl := Option.some.inj hr'
        omega

theorem value_ends (f : Option (StringFunc σ)) {fuel : ℕ} {tmp_pos : List UInt8}
    (hfuel : tmp_pos.length < fuel) (s : StoreCmd σ) :
    ∃ o s', value f fuel tmp_pos s = some (o, s') ∧
      ∀ r, o = some r → r.length ≤ tmp_pos.length := by
  unfold value
  by_cases hleft : IsLeft (tmp_pos.headD TAIL)
  · rw [if_neg (not_not.mpr hleft)]
    exact brackets_ends f hfuel s
  · rw [if_pos hleft]
    rcases call f (tmp_pos.take (valueEnd tmp_pos)) s with ⟨res, s'⟩
    rcases res with _ | _
    · exact ⟨none, s', rfl, fun r hr => by cases hr⟩
    · refine ⟨_, s', rfl, fun r hr => ?_⟩
      obtain rfl := Option.some.inj hr
      rw [List.length_drop]
      omega

/-- **The parser's loop ends**: with each string it has gone at least past an equals sign. -/
theorem nextStr_ends (string_len : ℕ) {fuel : ℕ} {pos : List UInt8} (hfuel : pos.length < fuel)
    (t : Heads σ) (s : StoreCmd σ) : (nextStr hash string_len fuel pos t s).isSome := by
  induction fuel generalizing pos t s with
  | zero => omega
  | succ fuel ih =>
    unfold nextStr
    rcases hskip : skipSpace pos with _ | pos'
    · rfl
    have hlen := length_of_skipSpace hskip
    dsimp only
    by_cases htail : pos'.headD TAIL = TAIL
    · rw [if_pos htail]
      rfl
    rw [if_neg htail]
    by_cases hline : pos'.headD TAIL = LINEF ∨ pos'.headD TAIL = ENTER
    · rw [if_pos hline]
      rfl
    rw [if_neg hline]
    rcases hequal : pos'.idxOf? EQUAL with _ | i
    · rfl
    dsimp only
    rcases t.find hash (pos'.take (i + 1)) with _ | n
    · rfl
    dsimp only
    by_cases hfound : n.found = true
    · rw [if_pos hfound]
      rfl
    rw [if_neg hfound]
    rcases hvalue : skipSpace (pos'.drop (i + 1)) with _ | tmp_pos
    · rfl
    have hi := lt_of_idxOf? hequal
    have htmp := length_of_skipSpace hvalue
    rw [List.length_drop] at htmp
    obtain ⟨o, s', hv, ho⟩ := value_ends n.string_func (show tmp_pos.length < fuel by omega) s
    dsimp only
    rw [hv]
    rcases o with _ | r
    · rfl
    · have hr := ho r rfl
      exact ih (by omega) _ _

/-- **The parser ends** on every line. -/
theorem stringParase_ends {fuel : ℕ} {string : List UInt8} (hfuel : string.length < fuel)
    (string_table : List (StingS σ)) (s : StoreCmd σ) :
    (stringParase hash fuel string_table string s).isSome := by
  unfold stringParase
  rcases addStrings hash string_table _ with _ | _ | t
  · rfl
  · rfl
  dsimp only
  by_cases hnil : string = []
  · rw [if_pos hnil]
    rfl
  · rw [if_neg hnil, Option.isSome_map]
    exact nextStr_ends hash _ hfuel t s

end

end Atbm6441.Fs.Parase
