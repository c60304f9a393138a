import Atbm6441.Fs.Parase.Model

/-!
# Parameter lines

A line is made of tokens, each a key and a value, with spaces between them and a line feed at the
end. `Table.run` is what is to be done with one: the function of each key is called with exactly its
values, as long as they return true. `Tame` are the lines the parser is made for.

`value_spec` : the parser reads a value as it is, calls the function, and goes on behind the value.
-/

namespace Atbm6441.Fs.Parase

open Atbm6441.Lib

/-! ### Lines -/

/-- A key, without its equals sign. -/
structure Key where
  name : List UInt8
  no_equal : EQUAL ∉ name
  no_space : SPACE ∉ name
  no_tail : TAIL ∉ name

def Key.bytes (k : Key) : List UInt8 := k.name ++ [EQUAL]

/-- The two kinds of brackets. -/
inductive Bracket
  | bra
  | ang
  deriving DecidableEq

def Bracket.left : Bracket → UInt8
  | bra => PARAML
  | ang => PARAML_S

def Bracket.right : Bracket → UInt8
  | bra => PARAMR
  | ang => PARAMR_S

/-- A value, or values in brackets. -/
inductive Value
  | plain (v : List UInt8)
  | bracketed (vs : List (Bracket × List UInt8))

/-- Values are not empty; a plain one has no space, line feed or bracket, and one in brackets none
that would open or close them. -/
def Value.Proper : Value → Prop
  | plain v => v ≠ [] ∧ ∀ c ∈ v, c ≠ SPACE ∧ c ≠ LINEF ∧ ¬ IsLeft c ∧ ¬ IsRight c
  | bracketed vs => vs ≠ [] ∧ ∀ b ∈ vs, b.2 ≠ [] ∧ ∀ c ∈ b.2, ¬ IsLeft c ∧ c ≠ b.1.right

instance : ∀ val : Value, Decidable val.Proper
  | .plain v => @instDecidableAnd _ _ inferInstance (List.decidableBAll _ v)
  | .bracketed vs =>
    @instDecidableAnd _ _ inferInstance
      (@List.decidableBAll _ _
        (fun b => @instDecidableAnd _ _ inferInstance (List.decidableBAll _ b.2)) vs)

/-- Values in brackets as they stand in a line. -/
def bracketBytes : List (Bracket × List UInt8) → List UInt8
  | [] => []
  | b :: vs => b.1.left :: (b.2 ++ b.1.right :: bracketBytes vs)

def Value.bytes : Value → List UInt8
  | plain v => v
  | bracketed vs => bracketBytes vs

/-- The values for which the key's function is called. -/
def Value.values : Value → List (List UInt8)
  | plain v => [v]
  | bracketed vs => vs.map Prod.snd

/-- A key and its value. -/
structure Token where
  key : Key
  value : Value
  proper : value.Proper

def Token.bytes (tok : Token) : List UInt8 := tok.key.bytes ++ tok.value.bytes

/-- What follows a token: spaces and a line feed, or spaces and the next token. -/
inductive Rest : List Token → List UInt8 → Prop
  | stop (m : ℕ) (nl : Bool) : Rest [] (List.replicate m SPACE ++ if nl then [LINEF] else [])
  | more (m : ℕ) (tok : Token) {toks : List Token} {rest : List UInt8} :
    Rest toks rest → Rest (tok :: toks) (List.replicate (m + 1) SPACE ++ (tok.bytes ++ rest))

/-- A line of tokens; there may be spaces in front of the first. -/
def Line (toks : List Token) (line : List UInt8) : Prop := Rest toks (SPACE :: line)

/-! ### What is to be done with them -/

section

variable {σ : Type}

/-- A table of different keys, none of which is the built-in one. -/
structure Table (σ : Type) where
  entries : List (Key × Option (StringFunc σ))
  nodup : (entries.map fun e => e.1.bytes).Nodup
  no_echo : CMD_ECHO_STR ∉ entries.map fun e => e.1.bytes

/-- The table as `ATBM_STRING_TABLE_INIT` makes it. -/
def Table.init (T : Table σ) : List (StingS σ) :=
  T.entries.map fun e => ⟨e.1.bytes, false, e.2⟩

/-- The string of a key, also of the built-in one. -/
def Table.find (T : Table σ) (k : List UInt8) : Option (StingS σ) :=
  (echoStr :: T.init).find? fun n => n.string = k

/-- The function of a key. -/
def Table.func (T : Table σ) (k : List UInt8) : Option (StringFunc σ) :=
  (T.find k).bind StingS.string_func

/-- A function is called with one value after the other, as long as it returns true. -/
def callAll (f : Option (StringFunc σ)) : List (List UInt8) → StoreCmd σ → Bool × StoreCmd σ
  | [], s => (true, s)
  | v :: vs, s => if (call f v s).1 then callAll f vs (call f v s).2 else (false, (call f v s).2)

/-- **Each key's function is called with exactly its values**, as long as they return true. -/
def Table.run (T : Table σ) : List Token → StoreCmd σ → Bool × StoreCmd σ
  | [], s => (true, s)
  | tok :: toks, s =>
    let o := callAll (T.func tok.key.bytes) tok.value.values s
    if o.1 then T.run toks o.2 else (false, o.2)

/-- All keys are known, and none is there twice. -/
def Table.Accepts (T : Table σ) (toks : List Token) : Prop :=
  (toks.map fun tok => tok.key.bytes).Nodup ∧ ∀ tok ∈ toks, (T.find tok.key.bytes).isSome

/-- **The lines that the parser is made for**: no string of the table is too long, no key begins
with a line feed or a carriage return, there is no carriage return in a plain value, a line without
tokens is empty, and its length is that of an `int`. -/
structure Tame (T : Table σ) (toks : List Token) (line : List UInt8) : Prop where
  short : ∀ e ∈ T.entries, e.1.bytes.length ≤ STRING_MAX_LEN
  first : ∀ tok ∈ toks, ∀ c ∈ tok.key.name.head?, c ≠ LINEF ∧ c ≠ ENTER
  enter : ∀ tok ∈ toks, ∀ v, tok.value = .plain v → ENTER ∉ v
  tokens : toks = [] → line = []
  len : line.length < 2147483648

/-! ### Values -/

/-- Where the parser goes on after calls. -/
def goOn (r : List UInt8) (o : Bool × StoreCmd σ) : Option (List UInt8) × StoreCmd σ :=
  (if o.1 then some r else none, o.2)

theorem intLen_of_lt {n : ℕ} (h : n < 2147483648) : intLen n = n := by
  unfold intLen
  rw [Nat.mod_eq_of_lt (by omega), if_pos h]

theorem splitRight_append {next_pos : UInt8} (hnext : ¬ IsLeft next_pos) {v : List UInt8}
    (hv : ∀ c ∈ v, ¬ IsLeft c ∧ c ≠ next_pos) {len : ℕ} (hlen : v.length < len) (r : List UInt8) :
    splitRight next_pos len (v ++ next_pos :: r) = some (v, r) := by
  induction v generalizing len with
  | nil =>
    obtain ⟨len, rfl⟩ := Nat.exists_eq_succ_of_ne_zero (Nat.ne_of_gt hlen)
    rw [List.nil_append, splitRight, if_neg hnext, if_neg (not_not.mpr rfl)]
  | cons c v ih =>
    obtain ⟨len, rfl⟩ := Nat.exists_eq_succ_of_ne_zero (Nat.ne_of_gt (Nat.zero_lt_of_lt hlen))
    obtain ⟨hleft, hne⟩ := hv c List.mem_cons_self
    rw [List.cons_append, splitRight, if_neg hleft, if_pos hne,
      ih (fun d hd => hv d (List.mem_cons_of_mem _ hd)) (Nat.lt_of_succ_lt_succ hlen)]
    rfl

/-- **A value in brackets** is found as it is. -/
theorem cmdStringSplit_bracket {b : Bracket × List UInt8}
    (hb : ∀ c ∈ b.2, ¬ IsLeft c ∧ c ≠ b.1.right) {len : ℕ} (hlen : b.2.length + 1 < len)
    (r : List UInt8) :
    cmdStringSplit len (b.1.left :: (b.2 ++ b.1.right :: r)) = some (b.2, r) := by
  obtain ⟨len, rfl⟩ := Nat.exists_eq_succ_of_ne_zero (Nat.ne_of_gt (Nat.zero_lt_of_lt hlen))
  have hleft : IsLeft b.1.left := by rcases b.1 <;> decide
  have hright : ¬ IsRight b.1.left := by rcases b.1 <;> decide
  have hnext : nextPos b.1.left = b.1.right := by rcases b.1 <;> decide
  have hclose : ¬ IsLeft b.1.right := by rcases b.1 <;> decide
  rw [cmdStringSplit, if_neg hright, if_neg (not_not.mpr hleft), hnext]
  exact splitRight_append hclose hb (Nat.lt_of_succ_lt_succ hlen) r

theorem isLeft_bracketBytes {vs : List (Bracket × List UInt8)} (hvs : vs ≠ []) (r : List UInt8) :
    IsLeft ((bracketBytes vs ++ r).headD TAIL) := by
  rcases vs with _ | ⟨b, vs⟩
  · exact absurd rfl hvs
  · show IsLeft b.1.left
    rcases b.1 <;> decide

theorem brackets_spec (f : Option (StringFunc σ)) {vs : List (Bracket × List UInt8)}
    (hvs : vs ≠ []) (hproper : ∀ b ∈ vs, b.2 ≠ [] ∧ ∀ c ∈ b.2, ¬ IsLeft c ∧ c ≠ b.1.right)
    {r : List UInt8} (hleft : ¬ IsLeft (r.headD TAIL)) (hvalid : ¬ Invalid (r.headD TAIL))
    {fuel : ℕ} (hfuel : (bracketBytes vs ++ r).length < fuel)
    (hlen : (bracketBytes vs ++ r).length < 2147483648) (s : StoreCmd σ) :
    brackets f fuel (bracketBytes vs ++ r) s = some (goOn r (callAll f (vs.map Prod.snd) s)) := by
  induction vs generalizing fuel s with
  | nil => exact absurd rfl hvs
  | cons b vs ih =>
    obtain ⟨fuel, rfl⟩ := Nat.exists_eq_succ_of_ne_zero (Nat.ne_of_gt (Nat.zero_lt_of_lt hfuel))
    obtain ⟨hnil, hb⟩ := hproper b List.mem_cons_self
    have hbytes : bracketBytes (b :: vs) ++ r =
        b.1.left :: (b.2 ++ b.1.right :: (bracketBytes vs ++ r)) := by
      rw [bracketBytes, List.cons_append, List.append_assoc, List.cons_append]
    rw [hbytes] at hfuel hlen ⊢
    have hlength : b.2.length + 1 + (bracketBytes vs ++ r).length <
        (b.1.left :: (b.2 ++ b.1.right :: (bracketBytes vs ++ r))).length := by
      simp only [List.length_cons, List.length_append]
      omega
    rw [brackets, if_neg (List.cons_ne_nil _ _), intLen_of_lt hlen,
      cmdStringSplit_bracket hb (by omega), List.map_cons, callAll]
    dsimp only
    rw [if_neg hnil]
    rcases call f b.2 s with ⟨res, s'⟩
    rcases res with _ | _
    · rfl
    dsimp only
    rw [if_pos rfl]
    rcases hcase : vs with _ | ⟨b', vs'⟩
    · rw [bracketBytes, List.nil_append, if_neg hleft, if_neg hvalid]
      rfl
    · rw [← hcase]
      have hne : vs ≠ [] := by rw [hcase]; exact List.cons_ne_nil _ _
      rw [if_pos (isLeft_bracketBytes hne r)]
      exact ih hne (fun c hc => hproper c (List.mem_cons_of_mem _ hc)) (by omega) (by omega) s'

theorem Rest.head {toks : List Token} {rest : List UInt8} (h : Rest toks rest) :
    rest = [] ∨ rest = [LINEF] ∨ ∃ r, rest = SPACE :: r := by
  rcases h with ⟨m, nl⟩ | ⟨m, tok, h⟩
  · rcases m with _ | m
    · rcases nl with _ | _
      · exact .inl rfl
      · exact .inr (.inl rfl)
    · exact .inr (.inr ⟨_, rfl⟩)
  · exact .inr (.inr ⟨_, rfl⟩)

/-- **A plain value** ends where what follows begins. -/
theorem valueEnd_plain {v r : List UInt8} (hspace : SPACE ∉ v) (henter : ENTER ∉ v)
    (hlinef : LINEF ∉ v) (hr : r = [] ∨ r = [LINEF] ∨ ∃ r', r = SPACE :: r') :
    valueEnd (v ++ r) = v.length := by
  unfold valueEnd
  rcases hr with rfl | rfl | ⟨r', rfl⟩
  · rw [List.append_nil, List.idxOf?_eq_none_iff.mpr hspace, List.idxOf?_eq_none_iff.mpr henter,
      List.idxOf?_eq_none_iff.mpr hlinef]
    rfl
  · have hspace' : SPACE ∉ v ++ [LINEF] := by simpa using ⟨hspace, by decide⟩
    have henter' : ENTER ∉ v ++ [LINEF] := by simpa using ⟨henter, by decide⟩
    rw [List.idxOf?_eq_none_iff.mpr hspace', List.idxOf?_eq_none_iff.mpr henter',
      idxOf?_append_cons hlinef]
    rfl
  · rw [idxOf?_append_cons hspace]

/-- **A value is read as it is**: the function is called with it, and the parser goes on behind. -/
theorem value_spec (f : Option (StringFunc σ)) {val : Value} (hproper : val.Proper)
    (henter : ∀ v, val = .plain v → ENTER ∉ v) {r : List UInt8}
    (hr : r = [] ∨ r = [LINEF] ∨ ∃ r', r = SPACE :: r') {fuel : ℕ}
    (hfuel : (val.bytes ++ r).length < fuel) (hlen : (val.bytes ++ r).length < 2147483648)
    (s : StoreCmd σ) :
    value f fuel (val.bytes ++ r) s = some (goOn r (callAll f val.values s)) := by
  unfold value
  cases val with
  | plain v =>
    obtain ⟨hnil, hv⟩ := hproper
    have hhead : ¬ IsLeft ((v ++ r).headD TAIL) := by
      obtain ⟨c, v, rfl⟩ := List.exists_cons_of_ne_nil hnil
      exact (hv c List.mem_cons_self).2.2.1
    have hend : valueEnd (v ++ r) = v.length :=
      valueEnd_plain (fun h => (hv _ h).1 rfl) (henter v rfl) (fun h => (hv _ h).2.1 rfl) hr
    show (if ¬ IsLeft ((v ++ r).headD TAIL) then _ else _) = some (goOn r (callAll f [v] s))
    rw [if_pos hhead, Value.bytes, hend, List.take_left, List.drop_left, callAll]
    rcases call f v s with ⟨res, s'⟩
    rcases res with _ | _ <;> rfl
  | bracketed vs =>
    obtain ⟨hnil, hvs⟩ := hproper
    have hleft : ¬ IsLeft (r.headD TAIL) ∧ ¬ Invalid (r.headD TAIL) := by
      rcases hr with rfl | rfl | ⟨r', rfl⟩
      · decide
      · decide
      · exact ⟨by show ¬ IsLeft SPACE; decide, by show ¬ Invalid SPACE; decide⟩
    show (if ¬ IsLeft ((bracketBytes vs ++ r).headD TAIL) then _ else _) = _
    rw [if_neg (not_not.mpr (isLeft_bracketBytes hnil r))]
    exact brackets_spec f hnil hvs hleft.1 hleft.2 hfuel hlen s

end

end Atbm6441.Fs.Parase
