import Atbm6441.Fs.Parase.Lines

/-!
# What the parser does with parameter lines

`stringParase_exact` : the parser calls the function of each key with exactly its values and returns
true as long as they do; for a key that is not in the table, or is there twice, it returns false;
and it ends on all lines. There are lines with which it does something else by design
(`stringParase_except`): the machine stops for a table with a long string, a carriage return is the
end of a line, and a line feed alone is refused.

The proof goes by the tokens: `nextStr_found` and `nextStr_not_found` are the two things that the
loop can do with one, while the chains stay those of the table, with the keys found so far
(`Marked`).
-/

namespace Atbm6441.Fs.Parase

open Atbm6441.Lib

section

variable {σ : Type}

/-! ### Tokens -/

theorem Token.head (tok : Token) (hfirst : ∀ c ∈ tok.key.name.head?, c ≠ LINEF ∧ c ≠ ENTER)
    (r : List UInt8) :
    ∃ c l, tok.bytes ++ r = c :: l ∧ c ≠ TAIL ∧ ¬ IsSpace c := by
  rcases hname : tok.key.name with _ | ⟨c, name⟩
  · refine ⟨EQUAL, tok.value.bytes ++ r, ?_, by decide, by decide⟩
    rw [Token.bytes, Key.bytes, hname]
    rfl
  · have hc : c ∈ tok.key.name := by rw [hname]; exact List.mem_cons_self
    obtain ⟨hlinef, henter⟩ := hfirst c (by rw [hname]; rfl)
    refine ⟨c, name ++ [EQUAL] ++ tok.value.bytes ++ r, ?_, ?_, ?_⟩
    · rw [Token.bytes, Key.bytes, hname]
      rfl
    · rintro rfl
      exact tok.key.no_tail hc
    · rintro (rfl | hc' | hc')
      · exact tok.key.no_space hc
      · exact hlinef hc'
      · exact henter hc'

theorem Token.headD (tok : Token) (hfirst : ∀ c ∈ tok.key.name.head?, c ≠ LINEF ∧ c ≠ ENTER)
    (r : List UInt8) :
    skipSpace (tok.bytes ++ r) = some (tok.bytes ++ r) ∧ (tok.bytes ++ r).headD TAIL ≠ TAIL ∧
      ¬ ((tok.bytes ++ r).headD TAIL = LINEF ∨ (tok.bytes ++ r).headD TAIL = ENTER) := by
  obtain ⟨c, l, hhead, htail, hspace⟩ := tok.head hfirst r
  rw [hhead]
  exact ⟨skipSpace_cons_of_not hspace l, htail, fun h => hspace (.inr h)⟩

theorem skipSpace_value {val : Value} (hproper : val.Proper)
    (henter : ∀ v, val = .plain v → ENTER ∉ v) (r : List UInt8) :
    skipSpace (val.bytes ++ r) = some (val.bytes ++ r) := by
  cases val with
  | plain v =>
    obtain ⟨hnil, hv⟩ := hproper
    have henter := henter v rfl
    obtain ⟨c, v, rfl⟩ := List.exists_cons_of_ne_nil hnil
    refine skipSpace_cons_of_not ?_ _
    rintro (hc | hc | hc)
    · exact (hv c List.mem_cons_self).1 hc
    · exact (hv c List.mem_cons_self).2.1 hc
    · exact henter (hc ▸ List.mem_cons_self)
  | bracketed vs =>
    obtain ⟨b, vs, rfl⟩ := List.exists_cons_of_ne_nil hproper.1
    refine skipSpace_cons_of_not ?_ _
    rcases b.1 <;> decide

/-- **The key of a token** ends at its first equals sign. -/
theorem Token.equal (tok : Token) (r : List UInt8) :
    (tok.bytes ++ r).idxOf? EQUAL = some tok.key.name.length ∧
      (tok.bytes ++ r).take (tok.key.name.length + 1) = tok.key.bytes ∧
      (tok.bytes ++ r).drop (tok.key.name.length + 1) = tok.value.bytes ++ r := by
  have hbytes : tok.bytes ++ r = tok.key.name ++ EQUAL :: (tok.value.bytes ++ r) := by
    rw [Token.bytes, Key.bytes]
    simp
  have hkey : tok.bytes ++ r = tok.key.bytes ++ (tok.value.bytes ++ r) := by
    rw [Token.bytes, List.append_assoc]
  have hlen : tok.key.name.length + 1 = tok.key.bytes.length := by
    rw [Key.bytes, List.length_append, List.length_singleton]
  refine ⟨?_, ?_, ?_⟩
  · rw [hbytes]
    exact idxOf?_append_cons tok.key.no_equal _
  · rw [hkey, hlen, List.take_left]
  · rw [hkey, hlen, List.drop_left]

/-- What the parser does with the tokens, when it has already found some keys. -/
def Table.parse (T : Table σ) : List (List UInt8) → List Token → StoreCmd σ → Bool × StoreCmd σ
  | _, [], s => (true, s)
  | seen, tok :: toks, s =>
    if (T.find tok.key.bytes).isSome ∧ tok.key.bytes ∉ seen then
      let o := callAll (T.func tok.key.bytes) tok.value.values s
      if o.1 then T.parse (tok.key.bytes :: seen) toks o.2 else (false, o.2)
    else (false, s)

theorem Table.parse_of_accepts {T : Table σ} {toks : List Token} {seen : List (List UInt8)}
    (h : T.Accepts toks) (hseen : ∀ tok ∈ toks, tok.key.bytes ∉ seen) (s : StoreCmd σ) :
    T.parse seen toks s = T.run toks s := by
  induction toks generalizing seen s with
  | nil => rfl
  | cons tok toks ih =>
    obtain ⟨hnodup, hknown⟩ := h
    obtain ⟨hnot, hnodup⟩ := List.nodup_cons.mp hnodup
    rw [parse, run, if_pos ⟨hknown tok List.mem_cons_self, hseen tok List.mem_cons_self⟩]
    dsimp only
    by_cases ho : (callAll (T.func tok.key.bytes) tok.value.values s).1 = true
    · rw [if_pos ho, if_pos ho]
      refine ih ⟨hnodup, fun t ht => hknown t (List.mem_cons_of_mem _ ht)⟩ (fun t ht hmem => ?_) _
      rcases List.mem_cons.mp hmem with heq | hmem
      · exact hnot (List.mem_map.mpr ⟨t, ht, heq⟩)
      · exact hseen t (List.mem_cons_of_mem _ ht) hmem
    · rw [if_neg ho, if_neg ho]

theorem Table.parse_of_not {T : Table σ} {toks : List Token} {seen : List (List UInt8)}
    (h : ¬ (T.Accepts toks ∧ ∀ tok ∈ toks, tok.key.bytes ∉ seen)) (s : StoreCmd σ) :
    (T.parse seen toks s).1 = false := by
  induction toks generalizing seen s with
  | nil => exact absurd ⟨⟨List.nodup_nil, by simp⟩, by simp⟩ h
  | cons tok toks ih =>
    rw [parse]
    by_cases hgood : (T.find tok.key.bytes).isSome = true ∧ tok.key.bytes ∉ seen
    · rw [if_pos hgood]
      dsimp only
      by_cases ho : (callAll (T.func tok.key.bytes) tok.value.values s).1 = true
      · rw [if_pos ho]
        refine ih (fun hall => h ?_) _
        obtain ⟨⟨hnodup, hknown⟩, hseen⟩ := hall
        refine ⟨⟨List.nodup_cons.mpr ⟨fun hmem => ?_, hnodup⟩, ?_⟩, ?_⟩
        · obtain ⟨t, ht, heq⟩ := List.mem_map.mp hmem
          refine hseen t ht ?_
          rw [show t.key.bytes = tok.key.bytes from heq]
          exact List.mem_cons_self
        · exact List.forall_mem_cons.mpr ⟨hgood.1, hknown⟩
        · exact List.forall_mem_cons.mpr
            ⟨hgood.2, fun t ht hmem => hseen t ht (List.mem_cons_of_mem _ hmem)⟩
      · rw [if_neg ho]
    · rw [if_neg hgood]

variable {hash : List UInt8 → Fin STRING_HASHENTRIES}

/-- **The chains hold the table**, and some of its keys have been found. -/
def Marked (hash : List UInt8 → Fin STRING_HASHENTRIES) (T : Table σ) (t : Heads σ)
    (seen : List (List UInt8)) : Prop :=
  ∀ k, t.find hash k = (T.find k).map fun n => { n with found := decide (k ∈ seen) }

theorem Table.string_of_find {T : Table σ} {k : List UInt8} {n : StingS σ}
    (h : T.find k = some n) : n.string = k := by
  simpa using List.find?_some h

theorem Marked.mark {T : Table σ} {t : Heads σ} {seen : List (List UInt8)}
    (h : Marked hash T t seen) (k : List UInt8) : Marked hash T (t.mark hash k) (k :: seen) := by
  intro k'
  have hfind : (t.mark hash k).find hash k' =
      if k' = k then (t.find hash k).map fun n => { n with found := true }
      else t.find hash k' :=
    Chains.find_modify (f := fun n : StingS σ => { n with found := true }) (fun _ => rfl) t k k'
  rw [hfind]
  by_cases hk : k' = k
  · subst hk
    rw [if_pos rfl, h k', Option.map_map]
    refine Option.map_congr fun n _ => ?_
    simp
  · rw [if_neg hk, h k']
    refine Option.map_congr fun n _ => ?_
    simp [hk]

/-- What the loop does after a value. -/
def goNext (hash : List UInt8 → Fin STRING_HASHENTRIES) (string_len fuel : ℕ) (t : Heads σ) :
    Option (List UInt8) × StoreCmd σ → Option (Bool × StoreCmd σ)
  | (none, s) => some (false, s)
  | (some pos, s) => nextStr hash string_len fuel pos t s

/-- **A key of the table** that has not been found before: its value is read. -/
theorem nextStr_found {T : Table σ} {t : Heads σ} {seen : List (List UInt8)}
    (ht : Marked hash T t seen) {tok : Token}
    (hfirst : ∀ c ∈ tok.key.name.head?, c ≠ LINEF ∧ c ≠ ENTER)
    (henter : ∀ v, tok.value = .plain v → ENTER ∉ v) {pos r : List UInt8}
    (hpos : skipSpace pos = some (tok.bytes ++ r)) {n : StingS σ}
    (hfind : T.find tok.key.bytes = some n) (hseen : tok.key.bytes ∉ seen) {string_len fuel : ℕ}
    {s : StoreCmd σ} {o : Option (List UInt8) × StoreCmd σ}
    (hvalue : value n.string_func fuel (tok.value.bytes ++ r) s = some o) :
    nextStr hash string_len (fuel + 1) pos t s =
      goNext hash string_len fuel (t.mark hash tok.key.bytes) o := by
  obtain ⟨-, htail, hline⟩ := tok.headD hfirst r
  obtain ⟨hequal, htake, hdrop⟩ := tok.equal r
  rw [nextStr, hpos]
  dsimp only
  rw [if_neg htail, if_neg hline, hequal]
  dsimp only
  rw [htake, hdrop, ht tok.key.bytes, hfind, Option.map_some]
  dsimp only
  rw [if_neg (by simpa using hseen), skipSpace_value tok.proper henter]
  dsimp only
  rw [hvalue, Table.string_of_find hfind]
  rcases o with ⟨_ | pos', s'⟩ <;> rfl

/-- **A key that is not in the table, or has been found before**: the parser returns false. -/
theorem nextStr_not_found {T : Table σ} {t : Heads σ} {seen : List (List UInt8)}
    (ht : Marked hash T t seen) {tok : Token}
    (hfirst : ∀ c ∈ tok.key.name.head?, c ≠ LINEF ∧ c ≠ ENTER) {pos r : List UInt8}
    (hpos : skipSpace pos = some (tok.bytes ++ r))
    (hnot : ¬ ((T.find tok.key.bytes).isSome ∧ tok.key.bytes ∉ seen)) (string_len fuel : ℕ)
    (s : StoreCmd σ) : nextStr hash string_len (fuel + 1) pos t s = some (false, s) := by
  obtain ⟨-, htail, hline⟩ := tok.headD hfirst r
  obtain ⟨hequal, htake, -⟩ := tok.equal r
  rw [nextStr, hpos]
  dsimp only
  rw [if_neg htail, if_neg hline, hequal]
  dsimp only
  rw [htake, ht tok.key.bytes]
  rcases hfind : T.find tok.key.bytes with _ | n
  · rfl
  · have hseen : tok.key.bytes ∈ seen := by
      by_contra hseen
      exact hnot ⟨by rw [hfind]; rfl, hseen⟩
    rw [Option.map_some]
    exact if_pos (by simpa using hseen)

/-- **A whole line**, or what is left of it. -/
theorem nextStr_rest {T : Table σ} {toks : List Token} {rest : List UInt8} (h : Rest toks rest)
    (hfirst : ∀ tok ∈ toks, ∀ c ∈ tok.key.name.head?, c ≠ LINEF ∧ c ≠ ENTER)
    (henter : ∀ tok ∈ toks, ∀ v, tok.value = .plain v → ENTER ∉ v) {t : Heads σ}
    {seen : List (List UInt8)} (ht : Marked hash T t seen) {pos : List UInt8}
    (hpos : skipSpace pos = skipSpace rest) {string_len fuel : ℕ}
    (hstop : toks = [] → pos.length < string_len) (hle : pos.length ≤ string_len)
    (hfuel : pos.length < fuel) (hlen : pos.length < 2147483648) (s : StoreCmd σ) :
    nextStr hash string_len fuel pos t s = some (T.parse seen toks s) := by
  obtain ⟨fuel, rfl⟩ := Nat.exists_eq_succ_of_ne_zero (Nat.ne_of_gt (Nat.zero_lt_of_lt hfuel))
  induction h generalizing pos fuel t seen s with
  | stop m nl =>
    have hall : ∀ c ∈ List.replicate m SPACE ++ (if nl then [LINEF] else []), IsSpace c := by
      intro c hc
      rcases List.mem_append.mp hc with hc | hc
      · exact .inl (List.eq_of_mem_replicate hc)
      · rcases nl with _ | _
        · cases hc
        · exact .inr (.inl (List.mem_singleton.mp hc))
    have hne := Nat.ne_of_lt (hstop rfl)
    rw [nextStr, hpos, skipSpace_all hall]
    show some (decide (pos.length ≠ string_len), s) = some (true, s)
    rw [decide_eq_true hne]
  | @more m tok toks rest hrest ih =>
    have hskip : skipSpace pos = some (tok.bytes ++ rest) := by
      have hall : ∀ c ∈ List.replicate (m + 1) SPACE, IsSpace c := fun c hc =>
        .inl (List.eq_of_mem_replicate hc)
      rw [hpos, skipSpace_append hall]
      exact (tok.headD (hfirst tok List.mem_cons_self) rest).1
    have hlength : rest.length < pos.length := by
      have hle := length_of_skipSpace hskip
      rw [Token.bytes, Key.bytes] at hle
      simp only [List.length_append, List.length_singleton] at hle
      omega
    have hskiplen := length_of_skipSpace hskip
    have hvlen : (tok.value.bytes ++ rest).length < (tok.bytes ++ rest).length := by
      rw [Token.bytes, Key.bytes]
      simp only [List.length_append, List.length_singleton]
      omega
    rw [Table.parse]
    by_cases hgood : (T.find tok.key.bytes).isSome = true ∧ tok.key.bytes ∉ seen
    · obtain ⟨n, hfind⟩ := Option.isSome_iff_exists.mp hgood.1
      have hvalue := value_spec n.string_func tok.proper (henter tok List.mem_cons_self)
        hrest.head (show (tok.value.bytes ++ rest).length < fuel by omega) (by omega) s
      have hfunc : T.func tok.key.bytes = n.string_func := by rw [Table.func, hfind]; rfl
      rw [if_pos hgood, hfunc, nextStr_found ht (hfirst tok List.mem_cons_self)
        (henter tok List.mem_cons_self) hskip hfind hgood.2 hvalue]
      unfold goOn
      dsimp only
      by_cases ho : (callAll n.string_func tok.value.values s).1 = true
      · rw [if_pos ho, if_pos ho]
        obtain ⟨fuel, rfl⟩ := Nat.exists_eq_succ_of_ne_zero (show fuel ≠ 0 by omega)
        exact ih (fun t ht => hfirst t (List.mem_cons_of_mem _ ht))
          (fun t ht => henter t (List.mem_cons_of_mem _ ht)) (ht.mark _) rfl
          (fun _ => Nat.lt_of_lt_of_le hlength hle) (by omega) (by omega) _ _ (by omega)
      · rw [if_neg ho, if_neg ho]
        rfl
    · rw [if_neg hgood]
      exact nextStr_not_found ht (hfirst tok List.mem_cons_self) hskip hgood _ _ _

/-! ### The table -/

/-- **Different strings that are not too long** are all put into the chains. -/
theorem addStrings_heads {l : List (StingS σ)} {t : Heads σ}
    (hshort : ∀ n ∈ l, n.string.length ≤ STRING_MAX_LEN) (hnodup : (l.map StingS.string).Nodup)
    (hnone : ∀ n ∈ l, t.find hash n.string = none) :
    addStrings hash l t = .heads (l.foldl (Chains.add hash StingS.string) t) := by
  induction l generalizing t with
  | nil => rfl
  | cons n l ih =>
    obtain ⟨hn, hnodup⟩ := List.nodup_cons.mp hnodup
    have hlen := hshort n List.mem_cons_self
    rw [addStrings, if_neg (by omega), hnone n List.mem_cons_self, if_neg (by simp),
      List.foldl_cons]
    refine ih (fun m hm => hshort m (List.mem_cons_of_mem _ hm)) hnodup fun m hm => ?_
    have hne : n.string ≠ m.string := fun h => hn (h ▸ List.mem_map_of_mem hm)
    exact (Chains.find_add t n m.string).trans
      ((if_neg hne).trans (hnone m (List.mem_cons_of_mem _ hm)))

variable (hash) in
/-- **The table is in the chains**, and nothing has been found. -/
theorem addStrings_init {T : Table σ}
    (hshort : ∀ e ∈ T.entries, e.1.bytes.length ≤ STRING_MAX_LEN) :
    ∃ t, addStrings hash T.init (Chains.empty.add hash StingS.string echoStr) = .heads t ∧
      Marked hash T t [] := by
  have hmap : T.init.map StingS.string = T.entries.map fun e => e.1.bytes := by
    rw [Table.init, List.map_map]
    rfl
  have hnodup : (T.init.map StingS.string).Nodup := hmap ▸ T.nodup
  have hecho : ∀ n ∈ T.init, n.string ≠ CMD_ECHO_STR := by
    intro n hn heq
    refine T.no_echo ?_
    rw [← hmap, ← heq]
    exact List.mem_map_of_mem hn
  refine ⟨_, addStrings_heads (fun n hn => ?_) hnodup (fun n hn => ?_), fun k => ?_⟩
  · obtain ⟨e, he, rfl⟩ := List.mem_map.mp hn
    exact hshort e he
  · exact (Chains.find_add _ _ _).trans (if_neg fun h => hecho n hn h.symm)
  · have hsame : ∀ n, T.find k = some n → n.found = false := by
      intro n hn
      rcases List.mem_cons.mp (List.mem_of_find?_eq_some hn) with rfl | hmem
      · rfl
      · obtain ⟨e, -, rfl⟩ := List.mem_map.mp hmem
        rfl
    have hid : (T.find k).map (fun n => { n with found := decide (k ∈ ([] : List (List UInt8))) }) =
        T.find k := by
      rcases hfind : T.find k with _ | n
      · rfl
      · have hn := hsame n hfind
        rcases n with ⟨string, found, f⟩
        obtain rfl : found = false := hn
        rfl
    rw [hid]
    refine (Chains.find_addAll T.init hnodup _ k).trans ?_
    rw [Chains.find_add, Chains.find_empty]
    by_cases hk : (echoStr : StingS σ).string = k
    · subst hk
      have hnone : (T.init.find? fun n => n.string = (echoStr : StingS σ).string) = none :=
        List.find?_eq_none.mpr fun n hn heq => hecho n hn (of_decide_eq_true heq)
      rw [hnone, if_pos rfl]
      exact (List.find?_cons_of_pos (by simp)).symm
    · rw [if_neg hk, Option.or_none, Table.find, List.find?_cons_of_neg]
      simpa using hk

theorem stringParase_parse {T : Table σ} {toks : List Token} {line : List UInt8}
    (h : Line toks line) (htame : Tame T toks line) {fuel : ℕ} (hfuel : line.length < fuel)
    (s : StoreCmd σ) :
    stringParase hash fuel T.init line s =
      some (.ret (T.parse [] toks s).1 (T.parse [] toks s).2) := by
  obtain ⟨t, hadd, ht⟩ := addStrings_init hash htame.short
  rw [stringParase, hadd]
  dsimp only
  rcases toks with _ | ⟨tok, toks⟩
  · rw [if_pos (htame.tokens rfl)]
    rfl
  · have hnil : line ≠ [] := by
      rintro rfl
      have hlen : ∀ l, Rest (tok :: toks) l → 1 < l.length := by
        rintro _ ⟨m, tok, hrest⟩
        rw [Token.bytes, Key.bytes]
        simp only [List.length_append, List.length_singleton, List.length_replicate]
        omega
      exact absurd (hlen _ h) (by simp)
    rw [if_neg hnil, nextStr_rest h htame.first htame.enter ht
      (skipSpace_cons_of_space (.inl rfl) line).symm (fun h => absurd h (List.cons_ne_nil _ _))
      (Nat.le_refl _) hfuel htame.len s]
    rfl

/-- **The parser is exact** on the lines it is made for: it calls each key's function with exactly
its values, in order, as long as they return true; it returns false if a key is not known or there
twice. And it ends on all lines, with all tables. -/
theorem stringParase_exact (hash : List UInt8 → Fin STRING_HASHENTRIES) {T : Table σ}
    {toks : List Token} {line : List UInt8} (h : Line toks line) (htame : Tame T toks line)
    {fuel : ℕ} (hfuel : line.length < fuel) (s : StoreCmd σ) :
    (T.Accepts toks →
      stringParase hash fuel T.init line s = some (.ret (T.run toks s).1 (T.run toks s).2)) ∧
    (¬ T.Accepts toks → ∃ s', stringParase hash fuel T.init line s = some (.ret false s')) ∧
    ∀ (string_table : List (StingS σ)) (string : List UInt8), string.length < fuel →
      (stringParase hash fuel string_table string s).isSome := by
  rw [stringParase_parse h htame hfuel s]
  refine ⟨fun hacc => ?_, fun hacc => ?_, fun string_table string hlen => ?_⟩
  · rw [Table.parse_of_accepts hacc fun _ _ => List.not_mem_nil]
  · refine ⟨(T.parse [] toks s).2, ?_⟩
    rw [Table.parse_of_not (fun hall => hacc hall.1) s]
  · exact stringParase_ends hash hlen string_table s

/-! ### Lines and tables -/

/-- The key `k=`. -/
def keyK : Key := ⟨[107], by decide, by decide, by decide⟩

/-- The key `l=`. -/
def keyL : Key := ⟨[108], by decide, by decide, by decide⟩

/-- Both write down the values they are called with. -/
def tableKL : Table (List (List UInt8)) where
  entries :=
    [(keyK, some fun v s => (true, { s with priv := s.priv ++ [v] })),
      (keyL, some fun v s => (true, { s with priv := s.priv ++ [v] }))]
  nodup := by decide
  no_echo := by decide

/-- `k=1 l=[2]<3>` and a line feed. -/
def tokensKL : List Token :=
  [⟨keyK, .plain [49], by decide⟩, ⟨keyL, .bracketed [(.bra, [50]), (.ang, [51])], by decide⟩]

theorem stringParase_exact_calls :
    stringParase (fun _ => 0) 15 tableKL.init
        [107, 61, 49, 32, 108, 61, 91, 50, 93, 60, 51, 62, 10] ⟨true, []⟩ =
      some (.ret true ⟨true, [[49], [50], [51]]⟩) := by
  have hline : Line tokensKL [107, 61, 49, 32, 108, 61, 91, 50, 93, 60, 51, 62, 10] :=
    .more 0 _ (.more 0 _ (.stop 0 true))
  have htame : Tame tableKL tokensKL [107, 61, 49, 32, 108, 61, 91, 50, 93, 60, 51, 62, 10] := by
    refine ⟨by decide, fun tok htok c hc => ?_, fun tok htok v hv => ?_, by decide, by decide⟩
    · rcases List.mem_cons.mp htok with rfl | htok
      · obtain rfl : (107 : UInt8) = c := Option.some.inj hc
        decide
      · obtain rfl := List.mem_singleton.mp htok
        obtain rfl : (108 : UInt8) = c := Option.some.inj hc
        decide
    · rcases List.mem_cons.mp htok with rfl | htok
      · obtain rfl := Value.plain.inj hv
        decide
      · obtain rfl := List.mem_singleton.mp htok
        cases hv
  exact (stringParase_exact (fun _ => 0) hline htame (by decide) ⟨true, []⟩).1
    ⟨by decide, by decide⟩

/-- A table of one key, whose function returns true. -/
def oneKey (k : Key) (hk : k.bytes ≠ CMD_ECHO_STR) : Table Unit where
  entries := [(k, some fun _ s => (true, s))]
  nodup := List.nodup_singleton _
  no_echo := fun h => hk (List.mem_singleton.mp h).symm

/-- **The parser does not return true**, although all keys are known and there once, and all
functions return true. -/
def Refused (T : Table Unit) (toks : List Token) (line : List UInt8) : Prop :=
  Line toks line ∧ T.Accepts toks ∧ T.run toks ⟨true, ()⟩ = (true, ⟨true, ()⟩) ∧
    stringParase (fun _ => 0) (line.length + 1) T.init line ⟨true, ()⟩ ≠
      some (.ret true ⟨true, ()⟩)

/-- A string of 33 bytes. -/
def longKey : Key := ⟨List.replicate 32 107, by decide, by decide, by decide⟩

/-- A key that begins with a carriage return. -/
def enterKey : Key := ⟨[13, 107], by decide, by decide, by decide⟩

theorem value_of_intLen_eq_zero {σ : Type} (f : Option (StringFunc σ)) {c : UInt8}
    (hc : IsLeft c) {l : List UInt8} (hlen : intLen (c :: l).length = 0) (fuel : ℕ)
    (s : StoreCmd σ) : value f (fuel + 1) (c :: l) s = some (none, s) := by
  have hsplit : cmdStringSplit 0 (c :: l) = none := rfl
  unfold value
  rw [List.headD_cons, if_neg (not_not.mpr hc), brackets, if_neg (List.cons_ne_nil _ _), hlen,
    hsplit]

theorem refused_long {v : List UInt8} (hlen : v.length = 2147483648) (hv : ∀ c ∈ v, c = 120) :
    ∃ toks line, Refused (oneKey keyK (by decide)) toks line ∧ 2147483648 ≤ line.length := by
  have hnil : v ≠ [] := by
    rintro rfl
    simp at hlen
  have hproper : (Value.bracketed [(.bra, v)]).Proper := by
    refine ⟨List.cons_ne_nil _ _, fun b hb => ?_⟩
    obtain rfl := List.mem_singleton.mp hb
    refine ⟨hnil, fun c hc => ?_⟩
    obtain rfl := hv c hc
    exact ⟨by decide, show (120 : UInt8) ≠ PARAMR by decide⟩
  have hline : (107 :: 61 :: 91 :: (v ++ [93])).length = 2147483652 := by
    simp only [List.length_cons, List.length_append, List.length_nil, hlen]
  have hint : intLen (91 :: (v ++ [93])).length = 0 := by
    simp only [List.length_cons, List.length_append, List.length_nil, hlen]
    rfl
  refine ⟨[⟨keyK, .bracketed [(.bra, v)], hproper⟩], 107 :: 61 :: 91 :: (v ++ [93]),
    ⟨?_, ⟨List.nodup_singleton _, ?_⟩, rfl, ?_⟩, by omega⟩
  · have hrest := Rest.more 0 ⟨keyK, .bracketed [(.bra, v)], hproper⟩ (.stop 0 false)
    simpa [Line, Token.bytes, Key.bytes, Value.bytes, bracketBytes, keyK, Bracket.left,
      Bracket.right, PARAML, PARAMR, EQUAL] using hrest
  · intro tok htok
    obtain rfl := List.mem_singleton.mp htok
    rfl
  · obtain ⟨t, hadd, ht⟩ := addStrings_init (fun _ => 0) (T := oneKey keyK (by decide)) (by decide)
    have hskip : skipSpace (107 :: 61 :: 91 :: (v ++ [93])) =
        some ((Token.mk keyK (.bracketed [(.bra, v)]) hproper).bytes ++ []) := by
      rw [List.append_nil]
      exact skipSpace_cons_of_not (by decide) _
    have hvalue : value (some fun _ s => (true, s)) 2147483652
        ((Token.mk keyK (.bracketed [(.bra, v)]) hproper).value.bytes ++ []) ⟨true, ()⟩ =
          some (none, ⟨true, ()⟩) := by
      rw [List.append_nil]
      exact value_of_intLen_eq_zero _ (.inl rfl) hint 2147483651 _
    have hfind : (oneKey keyK (by decide)).find keyK.bytes =
      some ⟨keyK.bytes, false, some fun _ s => (true, s)⟩ := rfl
    have hfirst : ∀ c ∈ keyK.name.head?, c ≠ LINEF ∧ c ≠ ENTER := by
      intro c hc
      obtain rfl : (107 : UInt8) = c := Option.some.inj hc
      decide
    have hnext : nextStr (fun _ => 0) 2147483652 (2147483652 + 1)
        (107 :: 61 :: 91 :: (v ++ [93])) t ⟨true, ()⟩ = some (false, ⟨true, ()⟩) :=
      nextStr_found ht hfirst (fun w hw => by cases hw) hskip hfind List.not_mem_nil hvalue
    rw [hline, stringParase, hadd]
    dsimp only
    rw [if_neg (List.cons_ne_nil _ _), hline, hnext]
    intro h
    cases h

/-- **By design**: the machine stops for a string that is too long; a carriage return ends a value,
and is skipped at its start and at that of a key; a line feed alone is refused, and so is a value in
brackets that is too long for an `int`. -/
theorem stringParase_except :
    Refused (oneKey longKey (by decide)) [⟨longKey, .plain [49], by decide⟩]
      (List.replicate 32 107 ++ [61, 49]) ∧
    Refused (oneKey keyK (by decide)) [⟨keyK, .plain [97, 13, 98], by decide⟩]
      [107, 61, 97, 13, 98] ∧
    Refused (oneKey enterKey (by decide)) [⟨enterKey, .plain [49], by decide⟩] [13, 107, 61, 49] ∧
    Refused (oneKey keyK (by decide)) [] [10] ∧
    ∃ toks line, Refused (oneKey keyK (by decide)) toks line ∧ 2147483648 ≤ line.length := by
  refine ⟨⟨.more 0 _ (.stop 0 false), ⟨by decide, by decide⟩, rfl, fun h => ?_⟩,
    ⟨.more 0 _ (.stop 0 false), ⟨by decide, by decide⟩, rfl, fun h => ?_⟩,
    ⟨.more 0 _ (.stop 0 false), ⟨by decide, by decide⟩, rfl, fun h => ?_⟩,
    ⟨.stop 1 true, ⟨by decide, by decide⟩, rfl, fun h => ?_⟩,
    refused_long List.length_replicate fun c hc => List.eq_of_mem_replicate hc⟩
  · cases h
  · cases h
  · cases h
  · cases h

end

end Atbm6441.Fs.Parase
