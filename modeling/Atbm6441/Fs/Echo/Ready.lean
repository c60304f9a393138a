import Atbm6441.Fs.Echo.Model

/-!
# The list of waiting commands

What the list, its counter and the flags of the commands have to do with each other, and that the
loop of a show ends. `echo_ready_exact` : `ready_list_num` is the length of the list, and a command
is in the list once if its flag is set, else not at all, after any stores and shows.
-/

namespace Atbm6441.Fs.Echo

open Atbm6441.Lib Store

variable {s t : State} {c d : CmdCode} {f : StoreCmdCode → StoreCmdCode} {p : CmdCode → Prop}

@[simp] theorem cmd_modify (s : State) (c : CmdCode) (f : StoreCmdCode → StoreCmdCode) :
    (s.modify c f).cmd c = f (s.cmd c) := if_pos rfl

theorem cmd_modify_of_ne (s : State) (f : StoreCmdCode → StoreCmdCode) (h : d ≠ c) :
    (s.modify c f).cmd d = s.cmd d := if_neg h

/-- **The invariant**, where a command may have its flag set before it is in the list. -/
structure Inv (s : State) (p : CmdCode → Prop) : Prop where
  nodup : s.ready_list.Nodup
  mem : ∀ d, d ∈ s.ready_list ↔ (s.cmd d).echo_ready = true ∧ ¬ p d
  num : s.ready_list_num = s.ready_list.length
  echo : ∀ d, (s.cmd d).echo_ready = true → (s.cmd d).echo.isSome

/-- No command is on its way into the list. -/
def Settled (s : State) : Prop := Inv s fun _ => False

theorem Inv.modify (h : Inv s p) (hready : ∀ x, (f x).echo_ready = x.echo_ready)
    (hecho : ∀ x, x.echo.isSome → (f x).echo.isSome) (c : CmdCode) : Inv (s.modify c f) p := by
  have hcmd : ∀ d, ((s.modify c f).cmd d).echo_ready = (s.cmd d).echo_ready := by
    intro d
    by_cases hd : d = c
    · rw [hd, cmd_modify, hready]
    · rw [cmd_modify_of_ne s f hd]
  refine ⟨h.nodup, fun d => ?_, h.num, fun d hd => ?_⟩
  · rw [hcmd]
    exact h.mem d
  · rw [hcmd] at hd
    by_cases hdc : d = c
    · rw [hdc, cmd_modify]
      exact hecho _ (hdc ▸ h.echo d hd)
    · rw [cmd_modify_of_ne s f hdc]
      exact h.echo d hd

theorem Inv.congr (h : Inv s p) (hcmd : t.cmd = s.cmd) (hlist : t.ready_list = s.ready_list)
    (hnum : t.ready_list_num = s.ready_list_num) : Inv t p where
  nodup := hlist ▸ h.nodup
  mem d := by rw [hlist, hcmd]; exact h.mem d
  num := by rw [hnum, hlist]; exact h.num
  echo d := by rw [hcmd]; exact h.echo d

/-! ### A command that goes -/

theorem cmd_echoDone (s : State) (c : CmdCode) :
    (s.echoDone c).cmd = (s.modify c fun x => { x with echo_ready := false }).cmd := by
  unfold State.echoDone
  split_ifs <;> rfl

theorem cmd_drop (s : State) (c d : CmdCode) :
    ((s.echoDone c).deinitShow c).cmd d =
      if d = c then { s.cmd d with echo_ready := false, echo := none } else s.cmd d := by
  have hdrop : ((s.echoDone c).deinitShow c).cmd d =
      if d = c then { (s.echoDone c).cmd d with echo := none } else (s.echoDone c).cmd d := rfl
  rw [hdrop, cmd_echoDone]
  by_cases hd : d = c
  · rw [if_pos hd, if_pos hd, hd, cmd_modify]
  · rw [if_neg hd, if_neg hd, cmd_modify_of_ne s _ hd]

theorem ready_list_drop (h : Inv s p) (hc : ¬ p c) :
    ((s.echoDone c).deinitShow c).ready_list = s.ready_list.erase c ∧
      ((s.echoDone c).deinitShow c).ready_list_num = (s.ready_list.erase c).length := by
  have hlist : ((s.echoDone c).deinitShow c).ready_list = (s.echoDone c).ready_list := rfl
  have hnum : ((s.echoDone c).deinitShow c).ready_list_num = (s.echoDone c).ready_list_num := rfl
  rw [hlist, hnum]
  unfold State.echoDone
  by_cases hready : (s.cmd c).echo_ready = false
  · have hnot : c ∉ s.ready_list := fun hmem => by
      rw [((h.mem c).mp hmem).1] at hready
      cases hready
    rw [if_pos hready, List.erase_of_not_mem hnot]
    exact ⟨rfl, h.num⟩
  · have hmem : c ∈ s.ready_list := (h.mem c).mpr ⟨by simpa using hready, hc⟩
    have hpos := List.length_pos_of_mem hmem
    rw [if_neg hready]
    refine ⟨rfl, ?_⟩
    show s.ready_list_num - 1 = _
    rw [List.length_erase_of_mem hmem, h.num]
    omega

/-- **A command goes**: it is not in the list any more, and its flag and its buffer are gone. -/
theorem Inv.drop (h : Inv s p) (hc : ¬ p c) : Inv ((s.echoDone c).deinitShow c) p := by
  obtain ⟨hlist, hnum⟩ := ready_list_drop h hc
  refine ⟨?_, fun d => ?_, ?_, fun d hd => ?_⟩
  · rw [hlist]
    exact h.nodup.erase c
  · rw [hlist, h.nodup.mem_erase_iff, cmd_drop, h.mem d]
    by_cases hd : d = c
    · rw [if_pos hd]
      exact iff_of_false (fun hmem => hmem.1 hd) fun hready => Bool.false_ne_true hready.1
    · rw [if_neg hd]
      exact and_iff_right hd
  · rw [hnum, hlist]
  · rw [cmd_drop] at hd ⊢
    by_cases hdc : d = c
    · rw [if_pos hdc] at hd
      cases hd
    · rw [if_neg hdc] at hd ⊢
      exact h.echo d hd

/-! ### A command that comes -/

theorem Settled.mark (h : Settled s) (hready : (s.cmd c).echo_ready = false)
    (hecho : (s.cmd c).echo.isSome) :
    Inv (s.modify c fun x => { x with echo_ready := true }) (· = c) := by
  refine ⟨h.nodup, fun d => ?_, h.num, fun d hd => ?_⟩
  · have hmem : d ∈ s.ready_list ↔ (s.cmd d).echo_ready = true := by
      rw [h.mem d, not_false_eq_true, and_true]
    show d ∈ s.ready_list ↔ _
    rw [hmem]
    by_cases hd : d = c
    · rw [hd, cmd_modify, hready]
      exact iff_of_false Bool.false_ne_true fun h => h.2 rfl
    · rw [cmd_modify_of_ne s _ hd]
      exact (and_iff_left hd).symm
  · by_cases hdc : d = c
    · rw [hdc, cmd_modify]
      exact hecho
    · rw [cmd_modify_of_ne s _ hdc] at hd ⊢
      exact h.echo d hd

theorem Inv.enlist (h : Inv s (· = c)) (hready : (s.cmd c).echo_ready = true) :
    Settled { s with
      ready_list_num := s.ready_list_num + 1
      ready_list := s.ready_list ++ [c] } := by
  have hnot : c ∉ s.ready_list := fun hmem => ((h.mem c).mp hmem).2 rfl
  refine ⟨?_, fun d => ?_, ?_, h.echo⟩
  · exact List.nodup_append.mpr ⟨h.nodup, List.nodup_singleton c, fun a ha b hb hab => by
      obtain rfl := List.mem_singleton.mp hb
      exact hnot (hab ▸ ha)⟩
  · show d ∈ s.ready_list ++ [c] ↔ (s.cmd d).echo_ready = true ∧ ¬ False
    rw [List.mem_append, List.mem_singleton, h.mem d, not_false_eq_true, and_true]
    by_cases hd : d = c
    · exact iff_of_true (.inr hd) (hd ▸ hready)
    · exact ⟨fun hor => hor.elim (fun h => h.1) fun h => absurd h hd, fun hd' => .inl ⟨hd', hd⟩⟩
  · show s.ready_list_num + 1 = ((s.ready_list ++ [c]).length : ℤ)
    rw [h.num, List.length_append, List.length_singleton]
    rfl

/-- **A command comes**: it is put behind the others, of which the first may have to go. -/
theorem Settled.echoReady (h : Settled s) (hecho : (s.cmd c).echo.isSome) :
    Settled (s.echoReady c) := by
  unfold State.echoReady
  by_cases hready : (s.cmd c).echo_ready = true
  · rw [if_pos hready]
    exact h
  rw [if_neg hready]
  dsimp only
  have hmark := h.mark (by simpa using hready) hecho
  have hcmd : ((s.modify c fun x => { x with echo_ready := true }).cmd c).echo_ready = true := by
    rw [cmd_modify]
  split_ifs with hnum
  · exact hmark.enlist hcmd
  · split
    · exact hmark.enlist hcmd
    · next first rest hlist =>
      -- the first is another one, as this one is not in the list yet
      have hne : first ≠ c := fun heq =>
        ((hmark.mem first).mp (hlist ▸ List.mem_cons_self)).2 heq
      refine (hmark.drop hne).enlist ?_
      rw [cmd_drop, if_neg (Ne.symm hne)]
      exact hcmd

/-! ### Stores -/

theorem Inv.put (h : Inv s p) (c : CmdCode) (t : Text) : Inv (s.put c t) p :=
  h.modify (f := fun x => { x with echo := x.echo.map fun e => e.put t }) (fun _ => rfl)
    (fun x hx => by simpa using hx) c

theorem echo_put (h : (s.cmd c).echo.isSome) (t : Text) : ((s.put c t).cmd c).echo.isSome := by
  rw [State.put, cmd_modify]
  simpa using h

theorem Inv.puts (h : Inv s p) (hecho : (s.cmd c).echo.isSome) (puts : List Text) :
    Inv (puts.foldl (fun s t => s.put c t) s) p ∧
      ((puts.foldl (fun s t => s.put c t) s).cmd c).echo.isSome := by
  induction puts generalizing s with
  | nil => exact ⟨h, hecho⟩
  | cons t puts ih => exact ih (h.put c t) (echo_put hecho t)

/-- **A command is called**, with a buffer. -/
theorem Inv.codeCmd (h : Inv s p) (c : CmdCode) (r : Ran) :
    Inv ((s.initShow c).codeCmd c r) p ∧ (((s.initShow c).codeCmd c r).cmd c).echo.isSome := by
  have hinit : Inv (s.initShow c) p :=
    h.modify (f := fun x => { x with echo := some .init }) (fun _ => rfl) (fun _ _ => rfl) c
  have hset := hinit.modify
    (f := fun x => { x with echo_enable := r.echo_enable.getD (s.initShow c).enable_echo })
    (fun _ => rfl) (fun _ hx => hx) c
  refine Inv.puts (hset.congr ?_ ?_ ?_) ?_ r.puts
  · rfl
  · rfl
  · rfl
  · dsimp only
    rw [cmd_modify, State.initShow, cmd_modify]
    rfl

/-- **A store.** -/
theorem Settled.storeCmd (h : Settled s) (c : CmdCode) (r : Ran) : Settled (s.storeCmd c r) := by
  obtain ⟨hran, hecho⟩ := h.codeCmd c r
  unfold State.storeCmd
  dsimp only
  split_ifs
  · exact Settled.echoReady (hran.put c _) (echo_put hecho _)
  · exact hran.drop not_false
  · exact (hran.put c _).drop not_false
  · exact hran.drop not_false

theorem Settled.cmdStore {hash : List UInt8 → Fin CMD_HASHENTRIES} (h : Settled s) (alloc : Bool)
    (ran : CmdCode → Option (List UInt8) → Ran) (buf : List UInt8) :
    Settled (s.cmdStore hash alloc ran buf).1 := by
  unfold State.cmdStore
  dsimp only
  split
  · exact h
  · exact h.storeCmd _ _

/-! ### Shows -/

/-- What the loop makes of the scratch buffer. -/
def scratchAfter : Option Scratch → List (List UInt8) → Option Scratch
  | none, _ => none
  | some b, outputs => some (outputs.foldl snprintf b)

/-- What fits of some outputs behind other bytes: an output is left out if it does not fit. -/
def joined (buf : List UInt8) (outputs : List (List UInt8)) : List UInt8 :=
  outputs.foldl
    (fun buf t => if buf.length + t.length < SHOW_MSG_MAX_SIZE then buf ++ t else buf) buf

/-- The output of a command. -/
def output (s : State) (c : CmdCode) : List UInt8 :=
  match (s.cmd c).echo with
  | none => []
  | some e => e.bytes

/-- **The outputs of the waiting commands**, in order. -/
def outputs (s : State) : List (List UInt8) := s.ready_list.map (output s)

theorem output_of_some {e : ModuleShow} (h : (s.cmd c).echo = some e) : output s c = e.bytes := by
  rw [output, h]

theorem map_snprintf (b : Scratch) (t : List UInt8) :
    (List.range t.length).map (snprintf b t) = t := by
  refine List.ext_getElem (by simp) fun i hi ht => ?_
  rw [List.getElem_map, List.getElem_range, snprintf, List.getElem?_append_left ht,
    List.getElem?_eq_getElem ht]
  rfl

/-- The rest of a state, which stores and shows of other commands leave as it is. -/
structure Kept (s t : State) : Prop where
  backup_show : t.backup_show = s.backup_show
  backup_show_size : t.backup_show_size = s.backup_show_size
  shows : t.shows = s.shows

theorem Kept.refl (s : State) : Kept s s := ⟨rfl, rfl, rfl⟩

theorem Kept.trans {u : State} (h : Kept s t) (h' : Kept t u) : Kept s u :=
  ⟨h'.backup_show.trans h.backup_show, h'.backup_show_size.trans h.backup_show_size,
    h'.shows.trans h.shows⟩

theorem kept_drop (s : State) (c : CmdCode) : Kept s ((s.echoDone c).deinitShow c) := by
  unfold State.echoDone
  split_ifs <;> exact ⟨rfl, rfl, rfl⟩

theorem outputs_drop (h : Settled s) {rest : List CmdCode} (hlist : s.ready_list = c :: rest) :
    ((s.echoDone c).deinitShow c).ready_list = rest ∧
      outputs s = output s c :: outputs ((s.echoDone c).deinitShow c) := by
  have hrest : ((s.echoDone c).deinitShow c).ready_list = rest := by
    rw [(ready_list_drop h not_false).1, hlist, List.erase_cons_head]
  refine ⟨hrest, ?_⟩
  rw [outputs, outputs, hrest, hlist, List.map_cons]
  refine congrArg _ (List.map_congr_left fun d hd => ?_)
  have hne : d ≠ c := by
    rintro rfl
    have hnodup := h.nodup
    rw [hlist] at hnodup
    exact (List.nodup_cons.mp hnodup).1 hd
  rw [output, output, cmd_drop, if_neg hne]

theorem showLoop_nil (hlist : s.ready_list = []) (fuel : ℕ) (show_buff : Option Scratch)
    (buf : List UInt8) : s.showLoop fuel show_buff buf = some (s, show_buff, buf) := by
  unfold State.showLoop
  rw [hlist]

/-- A round without a scratch buffer. -/
theorem showLoop_none {rest : List CmdCode} (hlist : s.ready_list = c :: rest) (fuel : ℕ)
    (buf : List UInt8) :
    s.showLoop (fuel + 1) none buf = ((s.echoDone c).deinitShow c).showLoop fuel none buf := by
  conv_lhs => unfold State.showLoop
  rw [hlist]
  rfl

/-- A round with one: an output without bytes makes no difference. -/
theorem showLoop_some {rest : List CmdCode} (hlist : s.ready_list = c :: rest)
    (hecho : (s.cmd c).echo.isSome) (fuel : ℕ) (b : Scratch) (buf : List UInt8) :
    s.showLoop (fuel + 1) (some b) buf = ((s.echoDone c).deinitShow c).showLoop fuel
      (some (snprintf b (output s c))) (joined buf [output s c]) := by
  obtain ⟨e, he⟩ := Option.isSome_iff_exists.mp hecho
  conv_lhs => unfold State.showLoop
  rw [hlist, output_of_some he]
  have hshow : attrDefaultShow (s.cmd c) (some b) (some b).isSome =
      some (some (snprintf b e.bytes), e.bytes.length) := by
    unfold attrDefaultShow
    rw [he]
    rfl
  dsimp only
  rw [hshow]
  dsimp only
  rw [map_snprintf]
  congr 1
  show _ = if buf.length + e.bytes.length < SHOW_MSG_MAX_SIZE then buf ++ e.bytes else buf
  by_cases hzero : e.bytes.length = 0
  · rw [if_neg fun h => h.1 hzero, List.length_eq_zero_iff.mp hzero, List.append_nil, ite_self]
  · simp only [ne_eq, hzero, not_false_eq_true, true_and]

/-- **The loop of a show** ends, with no command waiting: the outputs have gone through the scratch
buffer one after the other, and those that fit are returned. -/
theorem showLoop_eq (h : Settled s) {fuel : ℕ} (hfuel : s.ready_list.length ≤ fuel)
    (show_buff : Option Scratch) (buf : List UInt8) :
    ∃ t, s.showLoop fuel show_buff buf =
        some (t, scratchAfter show_buff (outputs s),
          if show_buff.isSome then joined buf (outputs s) else buf) ∧
      Settled t ∧ t.ready_list = [] ∧ Kept s t := by
  induction fuel generalizing s show_buff buf with
  | zero =>
    have hnil : s.ready_list = [] := List.length_eq_zero_iff.mp (Nat.le_zero.mp hfuel)
    refine ⟨s, ?_, h, hnil, .refl s⟩
    rw [showLoop_nil hnil, outputs, hnil]
    rcases show_buff with _ | b <;> rfl
  | succ fuel ih =>
    rcases hlist : s.ready_list with _ | ⟨c, rest⟩
    · refine ⟨s, ?_, h, hlist, .refl s⟩
      rw [showLoop_nil hlist, outputs, hlist]
      rcases show_buff with _ | b <;> rfl
    · obtain ⟨hrest, houtputs⟩ := outputs_drop h hlist
      have hready : (s.cmd c).echo_ready = true :=
        ((h.mem c).mp (hlist ▸ List.mem_cons_self)).1
      have hlen : ((s.echoDone c).deinitShow c).ready_list.length ≤ fuel := by
        rw [hlist, List.length_cons] at hfuel
        rw [hrest]
        omega
      have hih := ih (h.drop not_false) hlen
      rw [houtputs]
      rcases show_buff with _ | b
      · obtain ⟨t, ht, hsettled, hnil, hkept⟩ := hih none buf
        refine ⟨t, ?_, hsettled, hnil, (kept_drop s c).trans hkept⟩
        rw [showLoop_none hlist, ht]
        rfl
      · obtain ⟨t, ht, hsettled, hnil, hkept⟩ :=
          hih (some (snprintf b (output s c))) (joined buf [output s c])
        refine ⟨t, ?_, hsettled, hnil, (kept_drop s c).trans hkept⟩
        rw [showLoop_some hlist (h.echo c hready), ht]
        rfl

theorem cmdShow_false (h : Settled s) :
    ∃ t, s.cmdShow false = some (t, []) ∧ Settled t ∧ t.ready_list = [] ∧ Kept s t := by
  obtain ⟨t, ht, hsettled, hnil, hkept⟩ := showLoop_eq h (Nat.le_refl _) none []
  refine ⟨t, ?_, hsettled, hnil, hkept⟩
  unfold State.cmdShow
  rw [if_neg Bool.false_ne_true, ht]
  rfl

/-- **A show** returns the outputs that fit, and copies as many bytes of the scratch buffer. -/
theorem cmdShow_true (h : Settled s) :
    ∃ t, Settled t ∧ t.ready_list = [] ∧ Kept s t ∧
      s.cmdShow true =
        if joined [] (outputs s) = [] then some (t, [])
        else t.backup ((outputs s).foldl snprintf fun _ => 0) (joined [] (outputs s)) := by
  obtain ⟨t, ht, hsettled, hnil, hkept⟩ := showLoop_eq h (Nat.le_refl _) (some fun _ => 0) []
  refine ⟨t, hsettled, hnil, hkept, ?_⟩
  unfold State.cmdShow
  rw [if_pos rfl, ht]
  show (if joined [] (outputs s) = [] then some (t, joined [] (outputs s)) else _) = _
  by_cases hempty : joined [] (outputs s) = []
  · rw [if_pos hempty, if_pos hempty, hempty]
  · rw [if_neg hempty, if_neg hempty]
    rfl

/-- **A show returns** if there is a backup buffer, and leaves no command waiting. -/
theorem cmdShow_returns (h : Settled s) (hbackup : s.backup_show.isSome) (alloc : Bool) :
    ∃ t ret, s.cmdShow alloc = some (t, ret) ∧ t.ready_list = [] := by
  rcases alloc with _ | _
  · obtain ⟨t, ht, -, hnil, -⟩ := cmdShow_false h
    exact ⟨t, [], ht, hnil⟩
  · obtain ⟨t, -, hnil, hkept, ht⟩ := cmdShow_true h
    obtain ⟨b, hb⟩ := Option.isSome_iff_exists.mp hbackup
    rw [ht]
    split_ifs
    · exact ⟨t, [], rfl, hnil⟩
    · rw [State.backup, hkept.backup_show, hb]
      exact ⟨_, _, rfl, hnil⟩

theorem Settled.cmdShow (h : Settled s) {alloc : Bool} {ret : List UInt8}
    (ht : s.cmdShow alloc = some (t, ret)) : Settled t := by
  rcases alloc with _ | _
  · obtain ⟨u, hu, hsettled, -⟩ := cmdShow_false h
    obtain rfl : t = u := congrArg Prod.fst (Option.some.inj (ht.symm.trans hu))
    exact hsettled
  · obtain ⟨u, hsettled, -, -, hu⟩ := cmdShow_true h
    rw [hu] at ht
    split_ifs at ht
    · obtain rfl : u = t := congrArg Prod.fst (Option.some.inj ht)
      exact hsettled
    · obtain ⟨b, -, hb⟩ := Option.map_eq_some_iff.mp ht
      obtain rfl := congrArg Prod.fst hb
      exact hsettled.congr rfl rfl rfl

/-! ### Any run -/

variable {hash : List UInt8 → Fin CMD_HASHENTRIES} {a : Act}

theorem Settled.start (backup : Bool) : Settled (.start backup) :=
  ⟨List.nodup_nil, fun _ => iff_of_false List.not_mem_nil fun h => Bool.false_ne_true h.1, rfl,
    fun _ h => absurd h Bool.false_ne_true⟩

theorem Settled.record {ret : List UInt8} (h : Settled s) : Settled (State.record (s, ret)) := by
  unfold State.record
  split_ifs
  · exact h
  · exact h.congr rfl rfl rfl

/-- **What any step keeps.** -/
theorem Settled.step (h : Settled s) (ht : (system hash).step s a = some t) : Settled t := by
  rcases a with ⟨alloc, ran, buf⟩ | alloc
  · obtain rfl := Option.some.inj ht
    exact h.cmdStore alloc ran buf
  · obtain ⟨x, hx, rfl⟩ := Option.map_eq_some_iff.mp ht
    exact (h.cmdShow hx).record

/-- **The counter is the length of the list**, and a command is in the list once if its flag is set,
and not at all if it is not, after any stores and shows. -/
theorem echo_ready_exact (h : Reach (system hash) (fun _ _ => True) s) :
    s.ready_list_num = s.ready_list.length ∧
      ∀ c, s.ready_list.count c = if (s.cmd c).echo_ready then 1 else 0 := by
  have hinv : Settled s := h.inv
    (fun s ⟨backup, hs⟩ => hs ▸ Settled.start backup) fun _ _ _ hi _ ht => hi.step ht
  refine ⟨hinv.num, fun c => ?_⟩
  split_ifs with hready
  · exact List.count_eq_one_of_mem hinv.nodup ((hinv.mem c).mpr ⟨hready, not_false⟩)
  · exact List.count_eq_zero.mpr fun hmem => hready ((hinv.mem c).mp hmem).1

/-- `enable_echo`, which sets `num_echo` to 1, and then `example` twice. -/
def evicting : List Act :=
  [.cmdStore true (fun _ _ => ⟨[], some true, some true, some 1, true⟩) CmdCode.enable_echo.label,
    .cmdStore true (fun _ _ => ⟨[], none, none, none, true⟩) CmdCode.example.label,
    .cmdStore true (fun _ _ => ⟨[], none, none, none, true⟩) CmdCode.example.label]

theorem echo_ready_exact_evicting :
    ∃ s, exec (system fun _ => 0) (.start true) evicting = some s ∧ s.ready_list = [.example] ∧
      s.ready_list_num = s.ready_list.length ∧
      ∀ c, s.ready_list.count c = if (s.cmd c).echo_ready then 1 else 0 := by
  have hrun : exec (system fun _ => 0) (.start true) evicting = some _ := rfl
  exact ⟨_, hrun, by decide, echo_ready_exact (Reach.of_exec (.init ⟨true, rfl⟩) hrun)⟩

end Atbm6441.Fs.Echo
