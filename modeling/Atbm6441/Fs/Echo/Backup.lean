import Atbm6441.Fs.Echo.Ready
import Atbm6441.Lib.Progress
import Mathlib.Data.List.Infix

/-!
# The backup of a show

A show sends the outputs of the waiting commands through one scratch buffer, each over the one
before, and copies the beginning of the scratch buffer to the backup, as many bytes as it returns.
`backup_iff` : the backup is what was returned exactly if only the last command has an output, or
its output is left out, and begins with those that are returned.
-/

namespace Atbm6441.Fs.Echo

open Atbm6441.Lib Store

/-- **The backup is what was returned**, and so is its size. -/
def Shown.Held (e : Shown) : Prop :=
  e.backup_show_size = e.ret.length ∧ e.backup_show.map (·.take e.backup_show_size) = some e.ret

instance (e : Shown) : Decidable e.Held := inferInstanceAs (Decidable (_ ∧ _))

/-- **The condition**: only the last command has an output; or its output does not fit behind the
others, and begins with what fits of these. -/
def LastOnly (outputs : List (List UInt8)) : Prop :=
  (∀ t ∈ outputs.dropLast, t = []) ∨
    SHOW_MSG_MAX_SIZE ≤ (joined [] outputs.dropLast).length + (outputs.getLastD []).length ∧
      joined [] outputs.dropLast <+: outputs.getLastD []

/-- The condition for a step. -/
def State.LastOnly (s : State) : Act → Prop
  | .cmdStore .. => True
  | .cmdShow alloc => alloc = true → Echo.LastOnly (outputs s)

/-! ### Outputs -/

variable {s t : State} {buf r out : List UInt8} {outs : List (List UInt8)}

theorem joined_append (buf : List UInt8) (outs : List (List UInt8)) (out : List UInt8) :
    joined buf (outs ++ [out]) =
      if (joined buf outs).length + out.length < SHOW_MSG_MAX_SIZE then joined buf outs ++ out
      else joined buf outs := by
  rw [joined, List.foldl_append]
  rfl

theorem isPrefix_joined (buf : List UInt8) (outs : List (List UInt8)) :
    buf <+: joined buf outs := by
  induction outs generalizing buf with
  | nil => exact List.prefix_rfl
  | cons out outs ih =>
    show buf <+: joined (if _ then buf ++ out else buf) outs
    split_ifs
    · exact (List.prefix_append buf out).trans (ih _)
    · exact ih buf

/-- Nothing is returned if and only if there is no output. -/
theorem joined_eq_nil (hshort : ∀ t ∈ outs, t.length < SHOW_MSG_MAX_SIZE) :
    joined [] outs = [] ↔ ∀ t ∈ outs, t = [] := by
  induction outs with
  | nil => exact iff_of_true rfl fun t ht => absurd ht List.not_mem_nil
  | cons out outs ih =>
    obtain ⟨hout, hshort⟩ := List.forall_mem_cons.mp hshort
    have hjoined : joined [] (out :: outs) = joined out outs := by
      show joined (if ([] : List UInt8).length + out.length < _ then [] ++ out else []) outs = _
      rw [List.length_nil, Nat.zero_add, if_pos hout, List.nil_append]
    rw [hjoined, List.forall_mem_cons]
    by_cases hnil : out = []
    · rw [hnil, ih hshort]
      exact (and_iff_right rfl).symm
    · refine iff_of_false (fun h => hnil ?_) fun h => hnil h.1
      exact List.prefix_nil.mp (h ▸ isPrefix_joined out outs)

theorem length_joined (hbuf : buf.length < SHOW_MSG_MAX_SIZE) (outs : List (List UInt8)) :
    (joined buf outs).length < SHOW_MSG_MAX_SIZE := by
  induction outs generalizing buf with
  | nil => exact hbuf
  | cons out outs ih =>
    show (joined (if _ then buf ++ out else buf) outs).length < _
    split_ifs with hlen
    · exact ih (by rwa [List.length_append])
    · exact ih hbuf

theorem mem_joined {c : UInt8} (h : c ∈ joined buf outs) : c ∈ buf ∨ ∃ t ∈ outs, c ∈ t := by
  induction outs generalizing buf with
  | nil => exact .inl h
  | cons out outs ih =>
    have h : c ∈ joined (if buf.length + out.length < SHOW_MSG_MAX_SIZE then buf ++ out else buf)
        outs := h
    have hbuf : ∀ b, c ∈ joined b outs → (∀ x ∈ b, x ∈ buf ∨ x ∈ out) →
        c ∈ buf ∨ ∃ t ∈ out :: outs, c ∈ t := by
      intro b hb hsub
      rcases ih hb with hc | ⟨t, ht, hc⟩
      · exact (hsub c hc).imp_right fun hc => ⟨out, List.mem_cons_self, hc⟩
      · exact .inr ⟨t, List.mem_cons_of_mem _ ht, hc⟩
    split_ifs at h
    · exact hbuf _ h fun x hx => List.mem_append.mp hx
    · exact hbuf _ h fun x hx => .inl hx

theorem output_short (s : State) (c : CmdCode) : (output s c).length < SHOW_MSG_MAX_SIZE := by
  unfold output
  rcases (s.cmd c).echo with _ | e
  · decide
  · exact e.short

theorem output_not_nul (s : State) (c : CmdCode) : TAIL ∉ output s c := by
  unfold output
  rcases (s.cmd c).echo with _ | e
  · exact List.not_mem_nil
  · exact fun h => (e.plain _ h).1 rfl

/-! ### The scratch buffer -/

/-- **The beginning of the scratch buffer** is some text if and only if the output that was written
last begins with it: there is a NUL behind that output. -/
theorem map_snprintf_eq_iff (b : Scratch) (hnul : TAIL ∉ r) :
    (List.range r.length).map (snprintf b out) = r ↔ r <+: out := by
  have htake : r.length ≤ out.length →
      (List.range r.length).map (snprintf b out) = out.take r.length := by
    intro hle
    refine List.ext_getElem (by simp [hle]) fun i hi hi' => ?_
    have hlt : i < out.length := by
      rw [List.length_map, List.length_range] at hi
      omega
    rw [List.getElem_map, List.getElem_range, snprintf, List.getElem?_append_left hlt,
      List.getElem?_eq_getElem hlt, List.getElem_take]
    rfl
  constructor
  · intro h
    by_cases hle : r.length ≤ out.length
    · rw [← h, htake hle]
      exact List.take_prefix _ _
    · -- the NUL would be a byte of the text
      have hlt : out.length < ((List.range r.length).map (snprintf b out)).length := by
        rw [List.length_map, List.length_range]
        omega
      have hzero : ((List.range r.length).map (snprintf b out))[out.length] = TAIL := by
        rw [List.getElem_map, List.getElem_range, snprintf,
          List.getElem?_append_right (Nat.le_refl _), Nat.sub_self]
        rfl
      have hmem : TAIL ∈ (List.range r.length).map (snprintf b out) :=
        hzero ▸ List.getElem_mem hlt
      rw [h] at hmem
      exact absurd hmem hnul
  · intro h
    rw [htake h.length_le]
    exact (List.prefix_iff_eq_take.mp h).symm

/-- **After all outputs** the scratch buffer begins with what is returned exactly if the condition
holds. -/
theorem scratch_iff (b : Scratch) (hshort : ∀ t ∈ outs, t.length < SHOW_MSG_MAX_SIZE)
    (hnul : ∀ t ∈ outs, TAIL ∉ t) :
    (List.range (joined [] outs).length).map (outs.foldl snprintf b) = joined [] outs ↔
      LastOnly outs := by
  induction outs using List.reverseRecOn with
  | nil => exact iff_of_true rfl (.inl fun t ht => absurd ht List.not_mem_nil)
  | append_singleton outs out _ =>
    have hbefore : joined [] outs = [] ↔ ∀ t ∈ outs, t = [] :=
      joined_eq_nil fun t ht => hshort t (List.mem_append_left _ ht)
    have hall : TAIL ∉ joined [] (outs ++ [out]) := by
      intro hmem
      rcases mem_joined hmem with h | ⟨t, ht, h⟩
      · exact absurd h List.not_mem_nil
      · exact hnul t ht h
    rw [List.foldl_append, List.foldl_cons, List.foldl_nil, map_snprintf_eq_iff _ hall, LastOnly,
      List.dropLast_concat, List.getLastD_concat, ← hbefore, joined_append]
    by_cases hfits : (joined [] outs).length + out.length < SHOW_MSG_MAX_SIZE
    · rw [if_pos hfits]
      constructor
      · intro h
        have hlen := h.length_le
        rw [List.length_append] at hlen
        exact .inl (List.length_eq_zero_iff.mp (by omega))
      · rintro (h | ⟨hle, -⟩)
        · rw [h]
          exact List.prefix_rfl
        · omega
    · rw [if_neg hfits]
      constructor
      · exact fun h => .inr ⟨by omega, h⟩
      · rintro (h | ⟨-, h⟩)
        · rw [h]
          exact List.nil_prefix
        · exact h

/-! ### Shows -/

variable {hash : List UInt8 → Fin CMD_HASHENTRIES} {a : Act}

theorem kept_puts (s : State) (c : CmdCode) (puts : List Text) :
    Kept s (puts.foldl (fun s t => s.put c t) s) := by
  induction puts generalizing s with
  | nil => exact .refl s
  | cons t puts ih => exact Kept.trans (t := s.put c t) ⟨rfl, rfl, rfl⟩ (ih _)

theorem kept_echoReady (s : State) (c : CmdCode) : Kept s (s.echoReady c) := by
  unfold State.echoReady
  dsimp only
  split_ifs
  · exact .refl s
  · exact ⟨rfl, rfl, rfl⟩
  · split
    · exact ⟨rfl, rfl, rfl⟩
    · next first rest _ =>
      have hdrop := kept_drop (s.modify c fun x => { x with echo_ready := true }) first
      exact ⟨hdrop.backup_show, hdrop.backup_show_size, hdrop.shows⟩

theorem kept_storeCmd (s : State) (c : CmdCode) (r : Ran) : Kept s (s.storeCmd c r) := by
  have hran : Kept s ((s.initShow c).codeCmd c r) := by
    unfold State.codeCmd
    dsimp only
    refine Kept.trans ?_ (kept_puts _ c r.puts)
    exact ⟨rfl, rfl, rfl⟩
  unfold State.storeCmd
  dsimp only
  split_ifs
  · refine Kept.trans ?_ (kept_echoReady _ c)
    exact hran.trans ⟨rfl, rfl, rfl⟩
  · exact hran.trans (kept_drop _ c)
  · refine Kept.trans ?_ (kept_drop _ c)
    exact hran.trans ⟨rfl, rfl, rfl⟩
  · exact hran.trans (kept_drop _ c)

theorem shows_cmdStore (s : State) (alloc : Bool) (ran : CmdCode → Option (List UInt8) → Ran)
    (buf : List UInt8) : (s.cmdStore hash alloc ran buf).1.shows = s.shows := by
  unfold State.cmdStore
  dsimp only
  split
  · rfl
  · exact (kept_storeCmd s _ _).shows

theorem held_backup {b : Scratch} {x : State × List UInt8}
    (hbuf : buf.length < SHOW_MSG_MAX_SIZE) (hx : s.backup b buf = some x) :
    x.2 = buf ∧ x.1.shows = s.shows ∧
      (Shown.Held ⟨x.2, x.1.backup_show, x.1.backup_show_size⟩ ↔
        (List.range buf.length).map b = buf) := by
  obtain ⟨old, -, rfl⟩ := Option.map_eq_some_iff.mp hx
  rw [Nat.min_eq_left hbuf.le, List.take_length]
  refine ⟨rfl, rfl, ?_⟩
  have htake : ((List.range buf.length).map b ++
      List.replicate (SHOW_MSG_MAX_SIZE - buf.length) 0).take buf.length =
        (List.range buf.length).map b := List.take_left' (by simp)
  rw [Shown.Held, Option.map_some, htake, Option.some.injEq]
  exact and_iff_right rfl

/-- **A show** that returns bytes leaves them in the backup exactly if the condition holds. -/
theorem held_record (h : Settled s) (ht : (s.cmdShow true).map State.record = some t) :
    (∀ e ∈ t.shows, e.Held) ↔ (∀ e ∈ s.shows, e.Held) ∧ LastOnly (outputs s) := by
  have hshort : ∀ t ∈ outputs s, t.length < SHOW_MSG_MAX_SIZE := by
    intro t ht
    obtain ⟨c, -, rfl⟩ := List.mem_map.mp ht
    exact output_short s c
  have hnul : ∀ t ∈ outputs s, TAIL ∉ t := by
    intro t ht
    obtain ⟨c, -, rfl⟩ := List.mem_map.mp ht
    exact output_not_nul s c
  obtain ⟨u, -, -, hkept, hu⟩ := cmdShow_true h
  obtain ⟨x, hx, rfl⟩ := Option.map_eq_some_iff.mp ht
  rw [hu] at hx
  by_cases hempty : joined [] (outputs s) = []
  · rw [if_pos hempty] at hx
    obtain rfl := Option.some.inj hx
    have hshows : (State.record (u, [])).shows = s.shows := hkept.shows
    rw [hshows]
    have hnone := (joined_eq_nil hshort).mp hempty
    exact (and_iff_left (.inl fun t ht => hnone t (List.mem_of_mem_dropLast ht))).symm
  · rw [if_neg hempty] at hx
    obtain ⟨hret, hshows, hheld⟩ := held_backup (length_joined (by decide) _) hx
    have hrecord : (State.record x).shows =
        s.shows ++ [⟨x.2, x.1.backup_show, x.1.backup_show_size⟩] := by
      rw [State.record, if_neg (by rw [hret]; exact hempty), ← hkept.shows, ← hshows]
    rw [hrecord, List.forall_mem_append, List.forall_mem_singleton, hheld,
      scratch_iff _ hshort hnul]

/-- **Each show that has returned bytes has left them in the backup**, exactly if the condition
holds of each show. -/
theorem backup_iff {b : Bool} {as : List Act} (h : exec (system hash) (.start b) as = some s) :
    (∀ e ∈ s.shows, e.Held) ↔ Along (system hash) State.LastOnly (.start b) as := by
  have hstep : ∀ s a t, Settled s → (system hash).step s a = some t →
      ((∀ e ∈ t.shows, e.Held) ↔ (∀ e ∈ s.shows, e.Held) ∧ s.LastOnly a) := by
    intro s a t hs ht
    rcases a with ⟨alloc, ran, buf⟩ | alloc
    · obtain rfl := Option.some.inj ht
      rw [shows_cmdStore]
      exact (and_iff_left trivial).symm
    · rcases alloc with _ | _
      · obtain ⟨u, hu, -, -, hkept⟩ := cmdShow_false hs
        obtain ⟨x, hx, rfl⟩ := Option.map_eq_some_iff.mp ht
        obtain rfl := Option.some.inj (hu.symm.trans hx)
        have hshows : (State.record (u, [])).shows = s.shows := hkept.shows
        rw [hshows]
        exact (and_iff_left fun hfalse => absurd hfalse Bool.false_ne_true).symm
      · rw [held_record hs ht]
        exact and_congr_right' ⟨fun hlast _ => hlast, fun hlast => hlast rfl⟩
  rw [along_iff_of_step (I := Settled) (G := fun s => ∀ e ∈ s.shows, e.Held)
    (fun _ _ _ hs ht => hs.step ht) hstep (.start b) h]
  exact and_iff_right fun e he => absurd he List.not_mem_nil

/-! ### Two commands -/

/-- `atbm_module_attr_example`: `atbm module cmd example` and an empty line. -/
def attrExample : Ran where
  puts :=
    [⟨[97, 116, 98, 109, 32, 109, 111, 100, 117, 108, 101, 32, 99, 109, 100, 32, 101, 120, 97, 109,
      112, 108, 101, 10], plain_of_all rfl⟩, ⟨[10], plain_of_all rfl⟩]
  echo_enable := none
  enable_echo := none
  num_echo := none
  res := true

/-- `atbm_module_attr_echo_disable` without parameters. -/
def attrEchoDisable : Ran where
  puts := []
  echo_enable := some true
  enable_echo := some false
  num_echo := none
  res := true

/-- `example` and `disable_echo` are written, each with a show of its own. -/
def shownApart : List Act :=
  [.cmdStore true (fun _ _ => attrExample) CmdCode.example.label, .cmdShow true,
    .cmdStore true (fun _ _ => attrEchoDisable) CmdCode.disable_echo.label, .cmdShow true]

/-- `example` and `disable_echo` are written, and shown together. -/
def twoOutputs : List Act :=
  [.cmdStore true (fun _ _ => attrExample) CmdCode.example.label,
    .cmdStore true (fun _ _ => attrEchoDisable) CmdCode.disable_echo.label, .cmdShow true]

theorem backup_iff_shownApart :
    ∃ s, exec (system fun _ => 0) (.start true) shownApart = some s ∧
      s.shows.map (fun e => e.ret.length) = [37, 17] ∧
      ((∀ e ∈ s.shows, e.Held) ↔
        Along (system fun _ => 0) State.LastOnly (.start true) shownApart) := by
  obtain ⟨s, hs⟩ : ∃ s, exec (system fun _ => 0) (.start true) shownApart = some s :=
    Option.isSome_iff_exists.mp (by decide +kernel)
  have hlen : (exec (system fun _ => 0) (.start true) shownApart).map
      (fun s => s.shows.map fun e => e.ret.length) = some [37, 17] := by decide +kernel
  exact ⟨s, hs, eq_of_map hs _ hlen, backup_iff hs⟩

/-- **The backup is not what was returned**: it begins with the output of the last command. -/
theorem backup_lost :
    ∃ s, exec (system fun _ => 0) (.start true) twoOutputs = some s ∧
      s.shows.map (fun e => (e.ret.take 4, e.backup_show.map (·.take 4))) =
        [([97, 116, 98, 109], some [100, 105, 115, 97])] ∧
      ¬ ∀ e ∈ s.shows, e.Held := by
  obtain ⟨s, hs⟩ : ∃ s, exec (system fun _ => 0) (.start true) twoOutputs = some s :=
    Option.isSome_iff_exists.mp (by decide +kernel)
  have hbytes : (exec (system fun _ => 0) (.start true) twoOutputs).map
      (fun s => s.shows.map fun e => (e.ret.take 4, e.backup_show.map (·.take 4))) =
        some [([97, 116, 98, 109], some [100, 105, 115, 97])] := by decide +kernel
  have hheld : (exec (system fun _ => 0) (.start true) twoOutputs).map
      (fun s => s.shows.all fun e => decide e.Held) = some false := by decide +kernel
  refine ⟨s, hs, eq_of_map hs _ hbytes, fun h => ?_⟩
  have htrue : s.shows.all (fun e => decide e.Held) = true :=
    List.all_eq_true.mpr fun e he => decide_eq_true (h e he)
  have hfalse : s.shows.all (fun e => decide e.Held) = false := eq_of_map hs _ hheld
  rw [htrue] at hfalse
  cases hfalse

end Atbm6441.Fs.Echo
