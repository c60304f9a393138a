import Mathlib.Data.Int.Notation
import Mathlib.Data.List.TakeWhile
import Atbm6441.Fs.Text
import Atbm6441.Lib.Chains

/-!
# Commands that are written to the command file

`atbm_module_decode_common_store`: the first word of what is written is searched in the table of the
commands, and the command is called with what is behind the word. A write has at most a page, so an
`int` has all its lengths. The echo of a command and the commands themselves are not here.

The searches for the end of the word begin at the buffer and not at the word, but go over as many
bytes as there are from the word on. So they are right if there is no space in front, and else if
they find the same end (`store_called_iff`); `store_lost` has two writes for which they do not.
-/

namespace Atbm6441.Fs.Store

open Atbm6441.Lib

/-- `cmd_code_buff`. -/
inductive CmdCode
  | help
  | example
  | disable_echo
  | enable_echo
  | ap_config
  deriving DecidableEq

/-- The labels, in ASCII. -/
def CmdCode.label : CmdCode → List UInt8
  | help => [104, 101, 108, 112]
  | .example => [101, 120, 97, 109, 112, 108, 101]
  | disable_echo => [100, 105, 115, 97, 98, 108, 101, 95, 101, 99, 104, 111]
  | enable_echo => [101, 110, 97, 98, 108, 101, 95, 101, 99, 104, 111]
  | ap_config => [97, 112, 95, 99, 111, 110, 102, 105, 103]

def cmdCodeBuff : List CmdCode := [.help, .example, .disable_echo, .enable_echo, .ap_config]

/-- `ATBM_CMD_MAX_STRING_LEN`. -/
def CMD_MAX_STRING_LEN : ℕ := 32

/-- `ATBM_CMD_HASHENTRIES`. -/
abbrev CMD_HASHENTRIES : ℕ := 16

variable (hash : List UInt8 → Fin CMD_HASHENTRIES)

/-- `atbm_cmd_hash_head`, after `atbm_module_cmd_init`. -/
def cmdHashHead : Chains (Fin CMD_HASHENTRIES) CmdCode :=
  cmdCodeBuff.foldl (Chains.add hash CmdCode.label) Chains.empty

/-- `atbm_hash_string_len`. -/
def hashStringLen (pos : List UInt8) : ℕ :=
  match pos.idxOf? SPACE with
  | none => pos.length
  | some i => if (pos.drop i).all fun c => c = SPACE then i else 0

/-- `atbm_store_cmd_find_cmd`. -/
def findCmd (pos : List UInt8) (pos_len : ℕ) : Option CmdCode :=
  if CMD_MAX_STRING_LEN < pos_len then none
  else if hashStringLen (pos.take pos_len) % 256 = 0 then none
  else
    Chains.find hash CmdCode.label (cmdHashHead hash)
      (pos.take (hashStringLen (pos.take pos_len) % 256))

/-- The three searches for the end of the command. -/
def codeEnd (l : List UInt8) : Option ℕ :=
  match l.idxOf? SPACE with
  | some i => some i
  | none =>
    match l.idxOf? ENTER with
    | some i => some i
    | none => l.idxOf? LINEF

/-- What the write has come to: the command that was called and its parameters, and what is
returned. -/
structure Stored where
  called : Option (CmdCode × Option (List UInt8))
  ret : ℤ

/-- `-EINVAL`, before a command is called. -/
def einval : Stored := ⟨none, -22⟩

/-- `code_len`, with the pointers as places in the buffer. -/
def codeLen (buf p : List UInt8) : Option ℕ → ℤ
  | some i => i - (buf.length - p.length)
  | none => p.length

/-- The parameters, of which `left_len` bytes are left. -/
def params (buf : List UInt8) (left_len : ℤ) : Option ℕ → Option (List UInt8)
  | some i => skipSpace ((buf.drop i).take left_len.toNat)
  | none => none

/-- `atbm_module_decode_common_store`. `show_buff` : which commands have a buffer for their output
or get one; `code_cmd` : what the commands return. -/
def decodeCommonStore (show_buff : CmdCode → Bool)
    (code_cmd : CmdCode → Option (List UInt8) → Bool) (buf : List UInt8) : Stored :=
  match skipSpace buf with
  | none => einval
  | some p =>
    let code_end := codeEnd (buf.take p.length)
    let code_len := codeLen buf p code_end
    if code_len ≤ 0 then einval
    else
      let left_len : ℤ := p.length - code_len
      if left_len < 0 then einval
      else
        match findCmd hash p code_len.toNat with
        | none => einval
        | some store_code =>
          if show_buff store_code = false then einval
          else
            let p := params buf left_len code_end
            if code_cmd store_code p then ⟨some (store_code, p), buf.length⟩
            else ⟨some (store_code, p), -22⟩

/-! ### What is wanted -/

/-- **The length of the first word**: up to the first space; if there is none, up to the end of the
line. -/
def wordLen (rest : List UInt8) : ℕ := (codeEnd rest).getD rest.length

/-- The command with a label. -/
def cmdOf (label : List UInt8) : Option CmdCode := cmdCodeBuff.find? fun c => c.label = label

/-- **What is to be called**: the command whose label is the first word, with what is behind the
spaces after the word. -/
def wanted (buf : List UInt8) : Option (CmdCode × Option (List UInt8)) :=
  (skipSpace buf).bind fun rest =>
    (cmdOf (rest.take (wordLen rest))).map fun c => (c, skipSpace (rest.drop (wordLen rest)))

/-- The space in front of the first word. -/
def lead (buf : List UInt8) : List UInt8 := buf.takeWhile fun c => IsSpace c

/-- The text from the first word on. -/
def text (buf : List UInt8) : List UInt8 := buf.dropWhile fun c => IsSpace c

/-- The part of the text that the searches see. -/
def seen (buf : List UInt8) : List UInt8 := (text buf).take ((text buf).length - (lead buf).length)

/-- The searches find the end of the first word. -/
def Found (buf : List UInt8) : Prop :=
  lead buf = [] ∨ SPACE ∉ lead buf ∧
    (SPACE ∈ seen buf ∨ SPACE ∉ text buf ∧ ENTER ∉ lead buf ∧ ENTER ∈ seen buf)

/-- The searches find a carriage return in the first word, and there is a label in front of it. -/
def Confused (buf : List UInt8) (c : CmdCode) : Prop :=
  SPACE ∉ lead buf ∧ ENTER ∉ lead buf ∧ SPACE ∈ text buf ∧ SPACE ∉ seen buf ∧
    ∃ j, (seen buf).idxOf? ENTER = some j ∧ cmdOf ((text buf).take j) = some c

/-- **The condition**: a command whose label is the first word has a buffer for its output, and the
searches find the end of its word; and they find no other command that has one. -/
def Right (show_buff : CmdCode → Bool) (buf : List UInt8) : Prop :=
  (∀ c, cmdOf ((text buf).take (wordLen (text buf))) = some c → show_buff c ∧ Found buf) ∧
    ∀ c, Confused buf c → show_buff c = false

/-! ### Searches -/

/-- **The three searches over space and text**: they end in the space, or with a space or a carriage
return of the text. -/
theorem codeEnd_append {a : List UInt8} (hnil : a ≠ []) (hall : ∀ c ∈ a, IsSpace c)
    (b : List UInt8) :
    (∃ i < a.length, codeEnd (a ++ b) = some i ∧
      ¬ (SPACE ∉ a ∧ (SPACE ∈ b ∨ ENTER ∉ a ∧ ENTER ∈ b))) ∨
    ∃ j, codeEnd (a ++ b) = some (j + a.length) ∧ SPACE ∉ a ∧
      (b.idxOf? SPACE = some j ∨ SPACE ∉ b ∧ ENTER ∉ a ∧ b.idxOf? ENTER = some j) := by
  unfold codeEnd
  by_cases hspace : SPACE ∈ a
  · obtain ⟨i, hi, hidx⟩ := idxOf?_append_of_mem hspace b
    rw [hidx]
    exact .inl ⟨i, hi, rfl, fun h => h.1 hspace⟩
  rw [idxOf?_append_of_not_mem hspace]
  rcases hb : b.idxOf? SPACE with _ | j
  · have hspaceb : SPACE ∉ b := List.idxOf?_eq_none_iff.mp hb
    rw [Option.map_none]
    dsimp only
    by_cases henter : ENTER ∈ a
    · obtain ⟨i, hi, hidx⟩ := idxOf?_append_of_mem henter b
      rw [hidx]
      exact .inl ⟨i, hi, rfl, fun h => h.2.elim hspaceb fun h => h.1 henter⟩
    rw [idxOf?_append_of_not_mem henter]
    rcases hb' : b.idxOf? ENTER with _ | j
    · have henterb : ENTER ∉ b := List.idxOf?_eq_none_iff.mp hb'
      -- what is left of the space is line feeds
      have hlinef : LINEF ∈ a := by
        obtain ⟨c, a, rfl⟩ := List.exists_cons_of_ne_nil hnil
        rcases hall c List.mem_cons_self with rfl | rfl | rfl
        · exact absurd List.mem_cons_self hspace
        · exact List.mem_cons_self
        · exact absurd List.mem_cons_self henter
      obtain ⟨i, hi, hidx⟩ := idxOf?_append_of_mem hlinef b
      rw [Option.map_none]
      dsimp only
      rw [hidx]
      exact .inl ⟨i, hi, rfl, fun h => h.2.elim hspaceb fun h => henterb h.2⟩
    · exact .inr ⟨j, rfl, hspace, .inr ⟨hspaceb, henter, rfl⟩⟩
  · exact .inr ⟨j, rfl, hspace, .inl rfl⟩

/-! ### Commands -/

theorem label_not_space (c : CmdCode) {x : UInt8} (hx : x ∈ c.label) : ¬ IsSpace x := by
  have hall : (c.label.all fun x => ¬ IsSpace x) = true := by rcases c <;> rfl
  simpa using List.all_eq_true.mp hall x hx

theorem length_label (c : CmdCode) : c.label.length ≤ CMD_MAX_STRING_LEN := by
  rcases c <;> decide

theorem label_of_cmdOf {l : List UInt8} {c : CmdCode} (h : cmdOf l = some c) : c.label = l := by
  simpa using List.find?_some h

theorem find_cmdHashHead (k : List UInt8) :
    Chains.find hash CmdCode.label (cmdHashHead hash) k = cmdOf k := by
  have hnodup : (cmdCodeBuff.map CmdCode.label).Nodup := by decide
  rw [cmdHashHead, Chains.find_addAll cmdCodeBuff hnodup, Chains.find_empty, Option.or_none]
  rfl

/-- **A word without spaces** is found if it is a label. -/
theorem findCmd_eq {p : List UInt8} {j : ℕ} (hj : 0 < j) (hle : j ≤ p.length)
    (hspace : SPACE ∉ p.take j) : findCmd hash p j = cmdOf (p.take j) := by
  have hlen : (p.take j).length = j := List.length_take_of_le hle
  unfold findCmd
  by_cases hlong : CMD_MAX_STRING_LEN < j
  · rw [if_pos hlong]
    rcases hcmd : cmdOf (p.take j) with _ | c
    · rfl
    · have hlabel := label_of_cmdOf hcmd
      have hshort := length_label c
      rw [hlabel, hlen] at hshort
      omega
  · have hstring : hashStringLen (p.take j) = j := by
      rw [hashStringLen, List.idxOf?_eq_none_iff.mpr hspace]
      exact hlen
    have hmod : j % 256 = j := Nat.mod_eq_of_lt (by unfold CMD_MAX_STRING_LEN at hlong; omega)
    rw [if_neg hlong, hstring, hmod, if_neg (by omega), find_cmdHashHead]

/-! ### The command that is called -/

/-- The call for a word of a length. -/
def dispatch (show_buff : CmdCode → Bool) (p : List UInt8) (j : ℕ) :
    Option (CmdCode × Option (List UInt8)) :=
  (cmdOf (p.take j)).bind fun c => if show_buff c then some (c, skipSpace (p.drop j)) else none

theorem lead_append_text (buf : List UInt8) : lead buf ++ text buf = buf :=
  List.takeWhile_append_dropWhile

theorem lead_space {buf : List UInt8} {c : UInt8} (hc : c ∈ lead buf) : IsSpace c := by
  simpa using List.mem_takeWhile_imp hc

theorem text_cons {buf : List UInt8} {c : UInt8} {l : List UInt8} (h : text buf = c :: l) :
    ¬ IsSpace c := by
  have hnil : buf.dropWhile (fun c => IsSpace c) ≠ [] := by
    rw [show buf.dropWhile (fun c => IsSpace c) = c :: l from h]
    exact List.cons_ne_nil _ _
  have hhead := List.head_dropWhile_not _ hnil
  simp only [show buf.dropWhile (fun c => IsSpace c) = c :: l from h, List.head_cons] at hhead
  simpa using hhead

/-- **What is skipped** is the space in front. -/
theorem skipSpace_eq (buf : List UInt8) :
    skipSpace buf = if text buf = [] then none else some (text buf) := by
  have hskip : skipSpace buf = skipSpace (text buf) := by
    conv_lhs => rw [← lead_append_text buf]
    exact skipSpace_append (fun c hc => lead_space hc) _
  rw [hskip]
  rcases htext : text buf with _ | ⟨c, l⟩
  · rfl
  · rw [if_neg (List.cons_ne_nil _ _)]
    exact skipSpace_cons_of_not (text_cons htext) l

variable {hash} {show_buff : CmdCode → Bool} {code_cmd : CmdCode → Option (List UInt8) → Bool}

theorem length_buf (buf : List UInt8) : buf.length = (lead buf).length + (text buf).length := by
  conv_lhs => rw [← lead_append_text buf]
  exact List.length_append

theorem called_of_lead {buf : List UInt8} (hnil : text buf ≠ []) {i : ℕ}
    (hend : codeEnd (buf.take (text buf).length) = some i) (hi : i ≤ (lead buf).length) :
    (decodeCommonStore hash show_buff code_cmd buf).called = none := by
  have hcode : codeLen buf (text buf) (some i) ≤ 0 := by
    rw [codeLen, length_buf buf]
    omega
  unfold decodeCommonStore
  rw [skipSpace_eq, if_neg hnil]
  dsimp only
  rw [hend, if_pos hcode]
  rfl

/-- **The searches have ended behind a word** without spaces. -/
theorem called_of_word {buf : List UInt8} {j : ℕ} (hj : 0 < j) (hle : j ≤ (text buf).length)
    (hspace : SPACE ∉ (text buf).take j)
    (hend : codeEnd (buf.take (text buf).length) = some (j + (lead buf).length) ∨
      codeEnd (buf.take (text buf).length) = none ∧ j = (text buf).length) :
    (decodeCommonStore hash show_buff code_cmd buf).called = dispatch show_buff (text buf) j := by
  have hlen := length_buf buf
  have hnil : text buf ≠ [] := by
    intro h
    rw [h] at hle
    exact absurd (Nat.lt_of_lt_of_le hj hle) (Nat.lt_irrefl 0)
  obtain ⟨hcode, hparams⟩ :
      codeLen buf (text buf) (codeEnd (buf.take (text buf).length)) = j ∧
        params buf ((text buf).length - (j : ℤ)) (codeEnd (buf.take (text buf).length)) =
          skipSpace ((text buf).drop j) := by
    rcases hend with hend | ⟨hend, rfl⟩
    · have hdrop : buf.drop (j + (lead buf).length) = (text buf).drop j := by
        have hdrop : (lead buf ++ text buf).drop (j + (lead buf).length) = (text buf).drop j := by
          rw [List.drop_append, List.drop_eq_nil_of_le (by omega), Nat.add_sub_cancel]
          rfl
        rwa [lead_append_text] at hdrop
      have hleft : ((text buf).length - (j : ℤ)).toNat = ((text buf).drop j).length := by
        rw [List.length_drop]
        omega
      rw [hend, codeLen, params, hdrop, hleft, List.take_length]
      exact ⟨by omega, rfl⟩
    · rw [hend, List.drop_length]
      exact ⟨rfl, rfl⟩
  unfold decodeCommonStore dispatch
  rw [skipSpace_eq, if_neg hnil]
  dsimp only
  rw [hcode, hparams, if_neg (by omega), if_neg (by omega), Int.toNat_natCast,
    findCmd_eq hash hj hle hspace]
  rcases cmdOf ((text buf).take j) with _ | c
  · rfl
  dsimp only
  rw [Option.bind_some]
  rcases show_buff c with _ | _
  · rfl
  · rw [if_neg Bool.true_eq_false.mp, if_pos rfl]
    rcases code_cmd c (skipSpace ((text buf).drop j)) with _ | _ <;> rfl

/-- The length is returned if and only if a command has been called and has returned true. -/
theorem ret_eq_length_iff (buf : List UInt8) :
    (decodeCommonStore hash show_buff code_cmd buf).ret = buf.length ↔
      ∃ c p, (decodeCommonStore hash show_buff code_cmd buf).called = some (c, p) ∧
        code_cmd c p = true := by
  unfold decodeCommonStore einval
  rcases skipSpace buf with _ | p
  · simp
  dsimp only
  split_ifs with hcode hleft
  · simp
  · simp
  rcases findCmd hash p _ with _ | c
  · simp
  dsimp only
  split_ifs with hshow hcmd
  · simp
  · simpa using hcmd
  · simp [hcmd]

/-! ### When it is the right one -/

theorem wanted_eq (buf : List UInt8) :
    wanted buf = (cmdOf ((text buf).take (wordLen (text buf)))).map fun c =>
      (c, skipSpace ((text buf).drop (wordLen (text buf)))) := by
  rw [wanted, skipSpace_eq]
  rcases htext : text buf with _ | ⟨c, l⟩
  · rfl
  · rfl

theorem idxOf?_text {buf : List UInt8} {c : UInt8} {j : ℕ} (h : (seen buf).idxOf? c = some j) :
    (text buf).idxOf? c = some j := by
  have hsplit := List.take_append_drop ((text buf).length - (lead buf).length) (text buf)
  rw [← hsplit, idxOf?_append]
  show ((seen buf).idxOf? c).or _ = _
  rw [h]
  rfl

theorem pos_of_idxOf? {buf : List UInt8} {c : UInt8} (hc : IsSpace c) {j : ℕ}
    (h : (text buf).idxOf? c = some j) : 0 < j := by
  rcases j with _ | j
  · obtain ⟨r, -, htext, -⟩ := idxOf?_some h
    exact absurd hc (text_cons htext)
  · exact Nat.succ_pos j

theorem wordLen_of_space {p : List UInt8} {j : ℕ} (h : p.idxOf? SPACE = some j) :
    wordLen p = j := by
  rw [wordLen, codeEnd, h]
  rfl

theorem wordLen_of_enter {p : List UInt8} {j : ℕ} (hspace : SPACE ∉ p)
    (h : p.idxOf? ENTER = some j) : wordLen p = j := by
  rw [wordLen, codeEnd, List.idxOf?_eq_none_iff.mpr hspace, h]
  rfl

theorem not_mem_take {p : List UInt8} (h : SPACE ∉ p) (j : ℕ) : SPACE ∉ p.take j :=
  fun hmem => h (List.mem_of_mem_take hmem)

theorem cmdOf_eq_none {l : List UInt8} (h : ENTER ∈ l) : cmdOf l = none := by
  rcases hcmd : cmdOf l with _ | c
  · rfl
  · refine absurd ?_ (label_not_space c (x := ENTER) ?_)
    · exact .inr (.inr rfl)
    · rw [label_of_cmdOf hcmd]
      exact h

theorem called_iff_of_found {buf : List UInt8}
    (hcalled : (decodeCommonStore hash show_buff code_cmd buf).called =
      dispatch show_buff (text buf) (wordLen (text buf)))
    (hfound : Found buf) (hnot : ∀ c, ¬ Confused buf c) :
    (decodeCommonStore hash show_buff code_cmd buf).called = wanted buf ↔ Right show_buff buf := by
  rw [hcalled, wanted_eq, dispatch]
  unfold Right
  rcases cmdOf ((text buf).take (wordLen (text buf))) with _ | c
  · exact ⟨fun _ => ⟨fun c hc => absurd hc (by simp), fun c hc => absurd hc (hnot c)⟩, fun _ => rfl⟩
  · rw [Option.bind_some, Option.map_some]
    constructor
    · intro h
      refine ⟨fun c' hc' => ?_, fun c hc => absurd hc (hnot c)⟩
      obtain rfl := Option.some.inj hc'
      by_cases hshow : show_buff c = true
      · exact ⟨hshow, hfound⟩
      · rw [if_neg hshow] at h
        cases h
    · intro h
      rw [if_pos (h.1 c rfl).1]

/-- **Without space in front** the searches find the end of the first word. -/
theorem called_of_lead_nil {buf : List UInt8} (hlead : lead buf = []) (hnil : text buf ≠ []) :
    (decodeCommonStore hash show_buff code_cmd buf).called =
      dispatch show_buff (text buf) (wordLen (text buf)) := by
  have hbuf : buf.take (text buf).length = text buf := by
    have happend := lead_append_text buf
    rw [hlead, List.nil_append] at happend
    rw [happend, List.take_length]
  have hpos : 0 < (text buf).length := List.length_pos_iff.mpr hnil
  rcases hspace : (text buf).idxOf? SPACE with _ | j
  · have hno : SPACE ∉ text buf := List.idxOf?_eq_none_iff.mp hspace
    rcases hend : codeEnd (text buf) with _ | j
    · have hword : wordLen (text buf) = (text buf).length := by rw [wordLen, hend]; rfl
      rw [hword]
      exact called_of_word hpos (Nat.le_refl _) (not_mem_take hno _)
        (.inr ⟨by rw [hbuf, hend], rfl⟩)
    · have hword : wordLen (text buf) = j := by rw [wordLen, hend]; rfl
      have hj : 0 < j ∧ j ≤ (text buf).length := by
        rw [codeEnd, hspace] at hend
        dsimp only at hend
        rcases henter : (text buf).idxOf? ENTER with _ | i
        · rw [henter] at hend
          exact ⟨pos_of_idxOf? (.inr (.inl rfl)) hend, Nat.le_of_lt (lt_of_idxOf? hend)⟩
        · rw [henter] at hend
          obtain rfl := Option.some.inj hend
          exact ⟨pos_of_idxOf? (.inr (.inr rfl)) henter, Nat.le_of_lt (lt_of_idxOf? henter)⟩
      rw [hword]
      refine called_of_word hj.1 hj.2 (not_mem_take hno _) (.inl ?_)
      rw [hbuf, hend, hlead]
      rfl
  · obtain ⟨r, hno, -, -⟩ := idxOf?_some hspace
    rw [wordLen_of_space hspace]
    refine called_of_word (pos_of_idxOf? (.inl rfl) hspace) (Nat.le_of_lt (lt_of_idxOf? hspace)) hno
      (.inl ?_)
    rw [hbuf, codeEnd, hspace, hlead]
    rfl

/-- **With space in front**: the searches end in it, or at a space or a carriage return of the part
of the text that they see. -/
theorem codeEnd_lead {buf : List UInt8} (hlead : lead buf ≠ []) (hnil : text buf ≠ []) :
    (∃ i ≤ (lead buf).length, codeEnd (buf.take (text buf).length) = some i ∧
      ¬ (SPACE ∉ lead buf ∧
        (SPACE ∈ seen buf ∨ ENTER ∉ lead buf ∧ ENTER ∈ seen buf))) ∨
    ∃ j, codeEnd (buf.take (text buf).length) = some (j + (lead buf).length) ∧
      SPACE ∉ lead buf ∧ ((seen buf).idxOf? SPACE = some j ∨
        SPACE ∉ seen buf ∧ ENTER ∉ lead buf ∧ (seen buf).idxOf? ENTER = some j) := by
  have hpos : 0 < (text buf).length := List.length_pos_iff.mpr hnil
  have htake : buf.take (text buf).length = (lead buf).take (text buf).length ++ seen buf := by
    conv_lhs => arg 2; rw [← lead_append_text buf]
    exact List.take_append
  rw [htake]
  by_cases hle : (lead buf).length ≤ (text buf).length
  · rw [List.take_of_length_le hle]
    rcases codeEnd_append hlead (fun c hc => lead_space hc) (seen buf) with ⟨i, hi, h⟩ | h
    · exact .inl ⟨i, Nat.le_of_lt hi, h⟩
    · exact .inr h
  · have hseen : seen buf = [] := by
      rw [seen, Nat.sub_eq_zero_of_le (by omega)]
      rfl
    have hne : (lead buf).take (text buf).length ≠ [] := by
      intro h
      rcases List.take_eq_nil_iff.mp h with h | h
      · omega
      · exact hlead h
    rcases codeEnd_append hne (fun c hc => lead_space (List.mem_of_mem_take hc)) (seen buf)
      with ⟨i, hi, hend, -⟩ | ⟨j, -, -, hj | ⟨-, -, hj⟩⟩
    · have hshort := List.length_take_le' (text buf).length (lead buf)
      refine .inl ⟨i, by omega, hend, ?_⟩
      rintro ⟨-, h | ⟨-, h⟩⟩
      · rw [hseen] at h
        cases h
      · rw [hseen] at h
        cases h
    · rw [hseen] at hj
      cases hj
    · rw [hseen] at hj
      cases hj

theorem called_iff_of_lead {buf : List UInt8} (hlead : lead buf ≠ [])
    (hcalled : (decodeCommonStore hash show_buff code_cmd buf).called = none)
    (hnot : ¬ (SPACE ∉ lead buf ∧ (SPACE ∈ seen buf ∨ ENTER ∉ lead buf ∧ ENTER ∈ seen buf))) :
    (decodeCommonStore hash show_buff code_cmd buf).called = wanted buf ↔ Right show_buff buf := by
  rw [hcalled, wanted_eq]
  constructor
  · intro h
    refine ⟨fun c hc => ?_, fun c hc => ?_⟩
    · rw [hc] at h
      cases h
    · obtain ⟨hs, he, -, -, j, hj, -⟩ := hc
      exact absurd ⟨hs, .inr ⟨he, List.isSome_idxOf?.mp (by rw [hj]; rfl)⟩⟩ hnot
  · rintro ⟨h, -⟩
    rcases hcmd : cmdOf ((text buf).take (wordLen (text buf))) with _ | c
    · rfl
    · rcases (h c hcmd).2 with h | ⟨hs, h | ⟨-, he, h⟩⟩
      · exact absurd h hlead
      · exact absurd ⟨hs, .inl h⟩ hnot
      · exact absurd ⟨hs, .inr ⟨he, h⟩⟩ hnot

/-- The searches have ended at a carriage return, and the first word goes up to a space behind it:
it is no label, and there is to be none in front of the carriage return. -/
theorem called_iff_of_enter {buf : List UInt8} {j : ℕ}
    (hcalled : (decodeCommonStore hash show_buff code_cmd buf).called =
      dispatch show_buff (text buf) j)
    (hspace : SPACE ∉ lead buf) (henter : ENTER ∉ lead buf) (hno : SPACE ∉ seen buf)
    (hj : (seen buf).idxOf? ENTER = some j) (hs : SPACE ∈ text buf) :
    (decodeCommonStore hash show_buff code_cmd buf).called = wanted buf ↔ Right show_buff buf := by
  have hlt : j < (text buf).length - (lead buf).length := by
    have hlt := lt_of_idxOf? hj
    rw [seen, List.length_take] at hlt
    omega
  have hword : cmdOf ((text buf).take (wordLen (text buf))) = none := by
    obtain ⟨i, hi⟩ := Option.isSome_iff_exists.mp (List.isSome_idxOf?.mpr hs)
    rw [wordLen_of_space hi]
    refine cmdOf_eq_none (mem_take_of_idxOf? (idxOf?_text hj) ?_)
    by_contra hle
    exact hno (mem_take_of_idxOf? hi (by omega))
  rw [hcalled, wanted_eq, hword, dispatch]
  constructor
  · intro h
    refine ⟨fun c hc => ?_, fun c hc => ?_⟩
    · rw [hword] at hc
      cases hc
    · obtain ⟨-, -, -, -, i, hi, hcmd⟩ := hc
      obtain rfl := Option.some.inj (hj.symm.trans hi)
      rw [hcmd, Option.bind_some] at h
      by_contra hshow
      rw [if_pos (by simpa using hshow)] at h
      cases h
  · rintro ⟨-, h⟩
    rcases hcmd : cmdOf ((text buf).take j) with _ | c
    · rfl
    · rw [Option.bind_some, h c ⟨hspace, henter, hs, hno, j, hj, hcmd⟩]
      rfl

/-- **A write calls the right command**, with exactly what is behind the spaces, if and only if the
condition holds. -/
theorem store_called_iff (hash : List UInt8 → Fin CMD_HASHENTRIES) (show_buff : CmdCode → Bool)
    (code_cmd : CmdCode → Option (List UInt8) → Bool) (buf : List UInt8) :
    (decodeCommonStore hash show_buff code_cmd buf).called = wanted buf ↔ Right show_buff buf := by
  by_cases hnil : text buf = []
  · -- nothing but space
    have hcmd : ∀ k, cmdOf ((text buf).take k) = none := by
      intro k
      rw [hnil, List.take_nil]
      rfl
    rw [decodeCommonStore, wanted, skipSpace_eq, if_pos hnil]
    refine ⟨fun _ => ⟨fun c hc => ?_, fun c hc => ?_⟩, fun _ => rfl⟩
    · rw [hcmd] at hc
      cases hc
    · obtain ⟨-, -, -, -, j, -, hj⟩ := hc
      rw [hcmd] at hj
      cases hj
  by_cases hlead : lead buf = []
  · have hseen : seen buf = text buf := by
      rw [seen, hlead, List.length_nil, Nat.sub_zero, List.take_length]
    refine called_iff_of_found (called_of_lead_nil hlead hnil) (.inl hlead) fun c hc => ?_
    obtain ⟨-, -, hspace, hno, -⟩ := hc
    exact hno (hseen ▸ hspace)
  rcases codeEnd_lead hlead hnil with ⟨i, hi, hend, hnot⟩ | ⟨j, hend, hspace, hj⟩
  · exact called_iff_of_lead hlead (called_of_lead hnil hend hi) hnot
  rcases hj with hj | ⟨hno, henter, hj⟩
  · -- at a space of the text, which is the first
    have htext := idxOf?_text hj
    have hmem : SPACE ∈ seen buf := List.isSome_idxOf?.mp (by rw [hj]; rfl)
    obtain ⟨r, hfirst, -, -⟩ := idxOf?_some htext
    refine called_iff_of_found ?_ (.inr ⟨hspace, .inl hmem⟩) fun c hc => hc.2.2.2.1 hmem
    rw [wordLen_of_space htext]
    exact called_of_word (pos_of_idxOf? (.inl rfl) htext) (Nat.le_of_lt (lt_of_idxOf? htext))
      hfirst (.inl hend)
  · -- at a carriage return, with no space in what is seen
    have htext := idxOf?_text hj
    have hmem : ENTER ∈ seen buf := List.isSome_idxOf?.mp (by rw [hj]; rfl)
    have htake : (text buf).take j = (seen buf).take j := by
      have hlt := lt_of_idxOf? hj
      rw [seen, List.length_take] at hlt
      rw [seen, List.take_take, Nat.min_eq_left (by omega)]
    have hcalled : (decodeCommonStore hash show_buff code_cmd buf).called =
        dispatch show_buff (text buf) j := by
      refine called_of_word (pos_of_idxOf? (.inr (.inr rfl)) htext)
        (Nat.le_of_lt (lt_of_idxOf? htext)) ?_ (.inl hend)
      rw [htake]
      exact not_mem_take hno j
    by_cases hs : SPACE ∈ text buf
    · exact called_iff_of_enter hcalled hspace henter hno hj hs
    · rw [← wordLen_of_enter hs htext] at hcalled
      exact called_iff_of_found hcalled (.inr ⟨hspace, .inr ⟨hs, henter, hmem⟩⟩)
        fun c hc => hs hc.2.2.1

/-- **One space in front**, and the searches end there: `help` is not found. And a line feed in
front makes them miss the last space of a first word that is no label, and find the carriage return
in it: `help` is called. -/
theorem store_lost :
    (decodeCommonStore (fun _ => 0) (fun _ => true) (fun _ _ => true)
        [32, 104, 101, 108, 112]).called = none ∧
      wanted [32, 104, 101, 108, 112] = some (.help, none) ∧
    (decodeCommonStore (fun _ => 0) (fun _ => true) (fun _ _ => true)
        [10, 104, 101, 108, 112, 13, 120, 32]).called = some (.help, some [120, 32]) ∧
      wanted [10, 104, 101, 108, 112, 13, 120, 32] = none := by
  decide

end Atbm6441.Fs.Store
