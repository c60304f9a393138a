import Atbm6441.Fs.Store
import Atbm6441.Lib.Runs

/-!
# The echo of commands

A command that has been written to the command file puts its output into a buffer of its own, and
waits in a list, the oldest first, until the file is read: `atbm_module_cmd_show` shows all waiting
commands at once. `num_echo` bounds how many wait, and -1 stands for no bound; a command that is one
too many makes the oldest go. Each show that returns bytes leaves a copy of them in a backup buffer,
for `atbm_sys_backup`.

What a command does is arbitrary here. All commands have `atbm_module_attr_default_show` as their
`show_cmd`, and `cmd_private` is `NULL` whenever a command has returned. A `NULL` that is written
through is a step that does not return.
-/

namespace Atbm6441.Fs.Echo

open Atbm6441.Lib Store

/-- `ATBM_SHOW_MSG_MAX_SIZE`, a page. -/
def SHOW_MSG_MAX_SIZE : ℕ := 4096

/-- `%`. -/
def PERCENT : UInt8 := 37

/-- What can be printed as it is, and as a format. -/
structure Text where
  bytes : List UInt8
  plain : ∀ c ∈ bytes, c ≠ TAIL ∧ c ≠ PERCENT

theorem plain_of_all {bytes : List UInt8}
    (h : (bytes.all fun c => c ≠ TAIL ∧ c ≠ PERCENT) = true) :
    ∀ c ∈ bytes, c ≠ TAIL ∧ c ≠ PERCENT := fun c hc =>
  of_decide_eq_true (List.all_eq_true.mp h c hc)

/-- `struct atbm_module_show` with a buffer, and the text in the buffer. -/
structure ModuleShow extends Text where
  overflow : Bool
  short : bytes.length < SHOW_MSG_MAX_SIZE

/-- `atbm_show_init`. -/
def ModuleShow.init : ModuleShow := ⟨⟨[], fun _ h => absurd h List.not_mem_nil⟩, false, by decide⟩

/-- `atbm_module_show_put`, where `show_count` is the length of the text unless there is an
overflow; `snprintf` leaves room for the NUL. -/
def ModuleShow.put (e : ModuleShow) (t : Text) : ModuleShow :=
  if e.overflow then e
  else
    { bytes := e.bytes ++ t.bytes.take (SHOW_MSG_MAX_SIZE - e.bytes.length - 1)
      plain := fun c hc => by
        rcases List.mem_append.mp hc with hc | hc
        · exact e.plain c hc
        · exact t.plain c (List.mem_of_mem_take hc)
      overflow := decide (SHOW_MSG_MAX_SIZE ≤ e.bytes.length + t.bytes.length)
      short := by
        have hshort := e.short
        rw [List.length_append, List.length_take]
        omega }

/-- `struct atbm_store_cmd_code`, with `echo` unless its buffer is `NULL`. -/
structure StoreCmdCode where
  echo_enable : Bool
  echo_ready : Bool
  echo : Option ModuleShow

/-- What a show has returned, and the backup after it. -/
structure Shown where
  ret : List UInt8
  backup_show : Option (List UInt8)
  backup_show_size : ℕ
deriving DecidableEq

/-- The commands, `atbm_cmd_echo_ready_list`, the variables of the module, and of the run the shows
that have returned bytes. -/
structure State where
  cmd : CmdCode → StoreCmdCode
  ready_list : List CmdCode
  ready_list_num : ℤ
  num_echo : ℤ
  enable_echo : Bool
  backup_show : Option (List UInt8)
  backup_show_size : ℕ
  shows : List Shown

/-- What a `code_cmd` does: the texts that it puts, what it sets, and what it returns. -/
structure Ran where
  puts : List Text
  echo_enable : Option Bool
  enable_echo : Option Bool
  num_echo : Option ℤ
  res : Bool

/-- The bytes of a scratch buffer. -/
abbrev Scratch := ℕ → UInt8

/-- `snprintf` of a text that fits: the text and a NUL; what is behind is not touched. -/
def snprintf (buf : Scratch) (t : List UInt8) : Scratch := fun i => (t ++ [TAIL])[i]?.getD (buf i)

/-- `atbm_module_attr_default_show`: the buffer and the length. -/
def attrDefaultShow (cmd : StoreCmdCode) (buf : Option Scratch) (sh : Bool) :
    Option (Option Scratch × ℕ) :=
  if sh then
    match buf, cmd.echo with
    | none, _ => some (none, 0)
    | some _, none => none
    | some buf, some echo => some (some (snprintf buf echo.bytes), echo.bytes.length)
  else some (buf, 0)

namespace State

/-- One command changes. -/
def modify (s : State) (c : CmdCode) (f : StoreCmdCode → StoreCmdCode) : State :=
  { s with cmd := fun d => if d = c then f (s.cmd d) else s.cmd d }

/-- `atbm_store_cmd_init_show`, when there is a buffer. -/
def initShow (s : State) (c : CmdCode) : State :=
  s.modify c fun x => { x with echo := some .init }

/-- `atbm_store_cmd_deinit_show`. -/
def deinitShow (s : State) (c : CmdCode) : State := s.modify c fun x => { x with echo := none }

/-- `atbm_store_cmd_echo_done`. -/
def echoDone (s : State) (c : CmdCode) : State :=
  let s :=
    if (s.cmd c).echo_ready = false then s
    else { s with ready_list := s.ready_list.erase c, ready_list_num := s.ready_list_num - 1 }
  s.modify c fun x => { x with echo_ready := false }

/-- `atbm_store_cmd_echo_ready`. -/
def echoReady (s : State) (c : CmdCode) : State :=
  if (s.cmd c).echo_ready = true then s
  else
    let s := s.modify c fun x => { x with echo_ready := true }
    let s :=
      if s.num_echo = -1 ∨ s.ready_list_num < s.num_echo then s
      else
        match s.ready_list with
        | [] => s
        | cmd_code :: _ => (s.echoDone cmd_code).deinitShow cmd_code
    { s with ready_list_num := s.ready_list_num + 1, ready_list := s.ready_list ++ [c] }

/-- `atbm_module_show_put` to the echo of a command. -/
def put (s : State) (c : CmdCode) (t : Text) : State :=
  s.modify c fun x => { x with echo := x.echo.map fun e => e.put t }

/-- A `code_cmd` is called, with `echo_enable` as `enable_echo` says. -/
def codeCmd (s : State) (c : CmdCode) (r : Ran) : State :=
  let s := s.modify c fun x => { x with echo_enable := r.echo_enable.getD s.enable_echo }
  let s :=
    { s with
      enable_echo := r.enable_echo.getD s.enable_echo
      num_echo := r.num_echo.getD s.num_echo }
  r.puts.foldl (fun s t => s.put c t) s

end State

/-- `[OK]` or `[ERR]` behind the label of a command. -/
def resultText (c : CmdCode) (res : Bool) : Text where
  bytes := c.label ++ if res then [91, 79, 75, 93, 10] else [91, 69, 82, 82, 93, 10]
  plain := plain_of_all (by rcases c <;> rcases res <;> rfl)

namespace State

/-- `atbm_module_decode_common_store` from `atbm_store_cmd_init_show` on. -/
def storeCmd (s : State) (c : CmdCode) (r : Ran) : State :=
  let s := (s.initShow c).codeCmd c r
  if r.res then
    if (s.cmd c).echo_enable then (s.put c (resultText c true)).echoReady c
    else (s.echoDone c).deinitShow c
  else
    let s := if (s.cmd c).echo_enable then s.put c (resultText c false) else s
    (s.echoDone c).deinitShow c

/-- `atbm_module_decode_common_store`, where `alloc` says whether there is memory. -/
def cmdStore (hash : List UInt8 → Fin CMD_HASHENTRIES) (s : State) (alloc : Bool)
    (ran : CmdCode → Option (List UInt8) → Ran) (buf : List UInt8) : State × ℤ :=
  let x := decodeCommonStore hash (fun c => (s.cmd c).echo.isSome || alloc)
    (fun c p => (ran c p).res) buf
  match x.called with
  | none => (s, x.ret)
  | some (c, p) => (s.storeCmd c (ran c p), x.ret)

/-- The loop of `atbm_module_cmd_show`, with the bytes in `buf`. -/
def showLoop : ℕ → State → Option Scratch → List UInt8 →
    Option (State × Option Scratch × List UInt8)
  | fuel, s, show_buff, buf =>
    match s.ready_list, fuel with
    | [], _ => some (s, show_buff, buf)
    | _ :: _, 0 => none
    | cmd_code :: _, fuel + 1 =>
      match attrDefaultShow (s.cmd cmd_code) show_buff show_buff.isSome with
      | none => none
      | some (show_buff, show_len) =>
        let buf :=
          match show_buff with
          | none => buf
          | some show_buff =>
            if show_len ≠ 0 ∧ buf.length + show_len < SHOW_MSG_MAX_SIZE then
              buf ++ (List.range show_len).map show_buff
            else buf
        showLoop fuel ((s.echoDone cmd_code).deinitShow cmd_code) show_buff buf

/-- The end of `atbm_module_cmd_show`: what is copied to the backup. -/
def backup (s : State) (show_buff : Scratch) (buf : List UInt8) : Option (State × List UInt8) :=
  let len := min buf.length SHOW_MSG_MAX_SIZE
  s.backup_show.map fun _ =>
    ({ s with
      backup_show := some ((List.range len).map show_buff ++
        List.replicate (SHOW_MSG_MAX_SIZE - len) 0)
      backup_show_size := len }, buf.take len)

/-- `atbm_module_cmd_show`, and the bytes that it returns. -/
def cmdShow (s : State) (alloc : Bool) : Option (State × List UInt8) :=
  (s.showLoop s.ready_list.length (if alloc then some fun _ => 0 else none) []).bind fun x =>
    match x with
    | (s, none, buf) => some (s, buf)
    | (s, some show_buff, buf) => if buf = [] then some (s, buf) else s.backup show_buff buf

/-- What is remembered of a show. -/
def record (x : State × List UInt8) : State :=
  if x.2 = [] then x.1
  else { x.1 with shows := x.1.shows ++ [⟨x.2, x.1.backup_show, x.1.backup_show_size⟩] }

/-- After `atbm_module_cmd_init`, with memory for the backup or without. -/
def start (backup : Bool) : State where
  cmd _ := ⟨false, false, none⟩
  ready_list := []
  ready_list_num := 0
  num_echo := -1
  enable_echo := true
  backup_show := if backup then some (List.replicate SHOW_MSG_MAX_SIZE 0) else none
  backup_show_size := 0
  shows := []

end State

/-- What is done with the command file. -/
inductive Act
  | cmdStore (alloc : Bool) (ran : CmdCode → Option (List UInt8) → Ran) (buf : List UInt8)
  | cmdShow (alloc : Bool)

/-- The command file. -/
def system (hash : List UInt8 → Fin CMD_HASHENTRIES) : System State Act where
  init s := ∃ backup, s = .start backup
  step s
    | .cmdStore alloc ran buf => some (s.cmdStore hash alloc ran buf).1
    | .cmdShow alloc => (s.cmdShow alloc).map State.record

end Atbm6441.Fs.Echo
