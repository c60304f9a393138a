import Atbm6441.Lib.Progress
import Atbm6441.Rx.Handlers.Access

/-!
# Frames that are dropped as duplicates

`ieee80211_rx_h_check` drops a frame with its retry bit set whose sequence control is the last one
of its station in its queue index. `sta_info_alloc` sets 16 of the 17 last values to `0xffff`; the
value of the frames without QoS stays `0`. `justified_iff` : in a run of received frames every drop
is justified by an earlier frame exactly as long as no frame that is repeated, and the first one of
its station in its index, has the initial value for its sequence control.
-/

namespace Atbm6441.Rx.Handlers

open Atbm6441.Ieee80211 Atbm6441.Ether Atbm6441.Lib

/-! ### Stations and the frames they send -/

/-- `sta_info_alloc`, with the loop over the first `NUM_RX_DATA_QUEUES` entries. -/
def staInfoAlloc : StaInfo where
  assoc := false
  authorized := false
  enc := false
  keyType := .unset
  lastSeqCtrl i := if i < numRxDataQueues then 0xffff else 0

/-- What the check reads of a frame; `ta` is the address of the station. -/
structure Sent where
  ta : List UInt8
  seqnoIdx : ℕ
  seqCtrl : ℕ
  retry : Bool
  unicast : Bool
deriving DecidableEq

/-- What has happened: a station was allocated, or a frame came to the check. -/
inductive Entry
  | alloc (a : List UInt8)
  | frame (f : Sent) (dup : Bool)
deriving DecidableEq

/-- The stations of an interface by their addresses, and what has happened, the latest first. -/
structure Stations where
  sta : List UInt8 → Option StaInfo
  log : List Entry

/-- What can happen: stations come, go and change, and a frame is received. A frame without a
sequence control has the bytes `tail` behind it in its buffer. -/
inductive Label
  | alloc (a : List UInt8)
  | destroy (a : List UInt8)
  | change (a : List UInt8) (assoc authorized enc : Bool) (keyType : EncType)
  | rx (linearize : Bool) (status : ℕ) (d tail : List UInt8)

/-- A received frame, if it comes to `ieee80211_rx_h_check`. -/
def comesToCheck (vif : Vif) (linearize : Bool) (status : ℕ) (d tail : List UInt8) : Option Sent :=
  let fc := frameControl d
  match atbmRxCb status d with
  | none => none
  | some skb =>
    if ieee80211IsMgmt fc ∧ ¬ linearize ∨
        ¬ ieee80211IsMgmt fc ∧ d.length < ieee80211Hdrlen fc then none
    else
      let r := ieee80211ParseQos skb
      match prepareForHandlers vif { r.1 with raMatch := true } with
      | none => none
      | some _ =>
        some ⟨etherAddrAt d 10, r.2, seqCtrl (d ++ tail), ieee80211HasRetry fc,
          !isMulticastEtherAddr d⟩

/-- The branch of `ieee80211_rx_h_check` that drops a duplicate. -/
def droppedAsDuplicate (sta : Option StaInfo) (seqnoIdx : ℕ) (d : List UInt8) : Bool :=
  sta.any fun sta => !isMulticastEtherAddr d && ieee80211HasRetry (frameControl d) &&
    sta.lastSeqCtrl seqnoIdx == seqCtrl d

namespace Stations

/-- The station is as the check leaves it. -/
def check (s : Stations) (f : Sent) (d : List UInt8) : Stations where
  sta := Function.update s.sta f.ta (ieee80211RxHCheck (s.sta f.ta) f.seqnoIdx d).1
  log := .frame f (droppedAsDuplicate (s.sta f.ta) f.seqnoIdx d) :: s.log

def step (vif : Vif) (s : Stations) : Label → Option Stations
  | .alloc a =>
    if (s.sta a).isSome then some s
    else some ⟨Function.update s.sta a (some staInfoAlloc), .alloc a :: s.log⟩
  | .destroy a => some { s with sta := Function.update s.sta a none }
  | .change a assoc authorized enc keyType =>
    some { s with sta := Function.update s.sta a ((s.sta a).map fun sta =>
      ⟨assoc, authorized, enc, keyType, sta.lastSeqCtrl⟩) }
  | .rx linearize status d tail =>
    match comesToCheck vif linearize status d tail with
    | none => some s
    | some f => some (s.check f (d ++ tail))

/-- No station, and nothing has happened. -/
def empty : Stations := ⟨fun _ => none, []⟩

end Stations

/-- An interface and its stations. -/
def stations (vif : Vif) : System Stations Label where
  init s := s = .empty
  step := Stations.step vif

/-! ### Justified drops -/

/-- The same station has sent a frame with the same sequence control in the same index. -/
def SentBefore (f : Sent) (log : List Entry) : Prop :=
  ∃ g dup, Entry.frame g dup ∈ log ∧ g.ta = f.ta ∧ g.seqnoIdx = f.seqnoIdx ∧ g.seqCtrl = f.seqCtrl

/-- **Every frame that was dropped as a duplicate** had its retry bit set, and its station had sent
a frame with its sequence control in its index before. -/
def Justified : List Entry → Prop
  | [] => True
  | .frame f true :: log => f.retry = true ∧ SentBefore f log ∧ Justified log
  | _ :: log => Justified log

/-- No frame has been sent to an address of ours in the index since the station was allocated. -/
def Untouched (a : List UInt8) (i : ℕ) : List Entry → Prop
  | [] => True
  | .alloc b :: log => b = a ∨ Untouched a i log
  | .frame f _ :: log => ¬ (f.ta = a ∧ f.seqnoIdx = i ∧ f.unicast = true) ∧ Untouched a i log

/-- **The frame is taken for a duplicate of the initial value**: a station that is known repeats its
first frame in the index, and the sequence control is the one `sta_info_alloc` starts with. -/
structure RepeatsInitial (s : Stations) (f : Sent) : Prop where
  known : (s.sta f.ta).isSome = true
  unicast : f.unicast = true
  retry : f.retry = true
  first : Untouched f.ta f.seqnoIdx s.log
  initial : f.seqCtrl = if f.seqnoIdx < 16 then 0xffff else 0
  unsent : ¬ SentBefore f s.log

/-- The condition on a step. -/
def NotInitial (vif : Vif) (s : Stations) : Label → Prop
  | .rx linearize status d tail =>
    ∀ f, comesToCheck vif linearize status d tail = some f → ¬ RepeatsInitial s f
  | _ => True

/-! ### The check -/

section

variable {vif : Vif} {s t : Stations} {f : Sent} {sta : StaInfo} {linearize : Bool} {status : ℕ}
  {d tail : List UInt8}

/-- The check of a frame of a station: a duplicate is dropped and leaves no trace, and any other
frame to an address of ours sets the last value of its index. -/
theorem rxHCheck_sta (sta : StaInfo) (i : ℕ) (d : List UInt8) :
    (ieee80211RxHCheck (some sta) i d).1 =
      some { sta with lastSeqCtrl :=
        if isMulticastEtherAddr d ∨ droppedAsDuplicate (some sta) i d then sta.lastSeqCtrl
        else Function.update sta.lastSeqCtrl i (seqCtrl d) } ∧
      (droppedAsDuplicate (some sta) i d = true →
        (ieee80211RxHCheck (some sta) i d).2 = false) := by
  unfold ieee80211RxHCheck droppedAsDuplicate
  by_cases hmulti : isMulticastEtherAddr d = true
  · simp [hmulti]
  · by_cases hdup : ieee80211HasRetry (frameControl d) ∧ sta.lastSeqCtrl i = seqCtrl d
    · simp [hmulti, hdup]
    · simp [hmulti, hdup]

theorem byteAt_append {i : ℕ} (h : i < d.length) : byteAt (d ++ tail) i = byteAt d i := by
  unfold byteAt
  rw [List.getD_eq_getElem?_getD, List.getElem?_append_left h, ← List.getD_eq_getElem?_getD]

theorem comesToCheck_some (h : comesToCheck vif linearize status d tail = some f) :
    f.seqCtrl = seqCtrl (d ++ tail) ∧ f.retry = ieee80211HasRetry (frameControl (d ++ tail)) ∧
      f.unicast = !isMulticastEtherAddr (d ++ tail) := by
  have hlen : 16 ≤ d.length := by
    by_contra hshort
    unfold comesToCheck atbmRxCb at h
    rw [if_pos (Nat.not_le.mp hshort), ite_self] at h
    cases h
  have hfc : frameControl (d ++ tail) = frameControl d := by
    unfold frameControl le16At
    rw [byteAt_append (by omega), byteAt_append (by omega)]
  have hmulti : isMulticastEtherAddr (d ++ tail) = isMulticastEtherAddr d := by
    unfold isMulticastEtherAddr
    rw [byteAt_append (by omega)]
  rw [hfc, hmulti]
  unfold comesToCheck at h
  dsimp only at h
  rcases hcb : atbmRxCb status d with _ | skb
  · rw [hcb] at h
    cases h
  · rw [hcb] at h
    dsimp only at h
    split_ifs at h
    rcases hp : prepareForHandlers vif { (ieee80211ParseQos skb).1 with raMatch := true } with _ | _
    · rw [hp] at h
      cases h
    · rw [hp] at h
      obtain rfl := Option.some.inj h
      exact ⟨rfl, rfl, rfl⟩

theorem droppedAsDuplicate_iff (h : comesToCheck vif linearize status d tail = some f)
    {sta : Option StaInfo} :
    droppedAsDuplicate sta f.seqnoIdx (d ++ tail) = true ↔
      ∃ st, sta = some st ∧ f.unicast = true ∧ f.retry = true ∧
        st.lastSeqCtrl f.seqnoIdx = f.seqCtrl := by
  obtain ⟨hseq, hretry, huni⟩ := comesToCheck_some h
  unfold droppedAsDuplicate
  rw [hseq, hretry, huni]
  rcases sta with _ | st
  · simp
  · simp [and_assoc]

/-! ### The last values -/

/-- **The invariant** of a station: the last value of an index is the initial one if no frame has
touched it, and else that of a frame the station has sent. -/
structure Cached (s : Stations) : Prop where
  initial : ∀ a sta, s.sta a = some sta → ∀ i, Untouched a i s.log →
    sta.lastSeqCtrl i = if i < 16 then 0xffff else 0
  last : ∀ a sta, s.sta a = some sta → ∀ i, ¬ Untouched a i s.log →
    ∃ g dup, Entry.frame g dup ∈ s.log ∧ g.ta = a ∧ g.seqnoIdx = i ∧
      g.seqCtrl = sta.lastSeqCtrl i

theorem cached_empty : Cached .empty := ⟨nofun, nofun⟩

theorem Cached.kept (h : Cached s) {a : List UInt8} {sta sta' : StaInfo} {e : Entry} {i : ℕ}
    (hsta : s.sta a = some sta) (hlast : sta'.lastSeqCtrl i = sta.lastSeqCtrl i)
    (hun : Untouched a i (e :: s.log) ↔ Untouched a i s.log) :
    (Untouched a i (e :: s.log) → sta'.lastSeqCtrl i = if i < 16 then 0xffff else 0) ∧
    (¬ Untouched a i (e :: s.log) → ∃ g dup, Entry.frame g dup ∈ e :: s.log ∧ g.ta = a ∧
      g.seqnoIdx = i ∧ g.seqCtrl = sta'.lastSeqCtrl i) := by
  rw [hun, hlast]
  refine ⟨h.initial a sta hsta i, fun hno => ?_⟩
  obtain ⟨g, dup, hmem, hg⟩ := h.last a sta hsta i hno
  exact ⟨g, dup, List.mem_cons_of_mem _ hmem, hg⟩

theorem cached_alloc (h : Cached s) (a : List UInt8) :
    Cached ⟨Function.update s.sta a (some staInfoAlloc), .alloc a :: s.log⟩ := by
  have hboth : ∀ b sta, Function.update s.sta a (some staInfoAlloc) b = some sta → ∀ i,
      (Untouched b i (.alloc a :: s.log) → sta.lastSeqCtrl i = if i < 16 then 0xffff else 0) ∧
      (¬ Untouched b i (.alloc a :: s.log) → ∃ g dup, Entry.frame g dup ∈ .alloc a :: s.log ∧
        g.ta = b ∧ g.seqnoIdx = i ∧ g.seqCtrl = sta.lastSeqCtrl i) := by
    intro b sta hb i
    by_cases hab : b = a
    · subst hab
      rw [Function.update_self] at hb
      obtain rfl := Option.some.inj hb
      exact ⟨fun _ => rfl, fun hno => absurd (Or.inl rfl) hno⟩
    · rw [Function.update_of_ne hab] at hb
      exact h.kept hb rfl (or_iff_right fun hba => hab hba.symm)
  exact ⟨fun b sta hb i => (hboth b sta hb i).1, fun b sta hb i => (hboth b sta hb i).2⟩

/-- A station goes or changes, but not its last values. -/
theorem cached_update (h : Cached s) {a : List UInt8} {o : Option StaInfo}
    (ho : ∀ sta', o = some sta' → ∃ sta, s.sta a = some sta ∧ sta'.lastSeqCtrl = sta.lastSeqCtrl) :
    Cached { s with sta := Function.update s.sta a o } := by
  have hold : ∀ b sta', Function.update s.sta a o b = some sta' →
      ∃ sta, s.sta b = some sta ∧ sta'.lastSeqCtrl = sta.lastSeqCtrl := by
    intro b sta' hb
    by_cases hab : b = a
    · subst hab
      rw [Function.update_self] at hb
      exact ho sta' hb
    · rw [Function.update_of_ne hab] at hb
      exact ⟨sta', hb, rfl⟩
  constructor
  · intro b sta' hb i hun
    obtain ⟨sta, hs, hlast⟩ := hold b sta' hb
    rw [hlast]
    exact h.initial b sta hs i hun
  · intro b sta' hb i hun
    obtain ⟨sta, hs, hlast⟩ := hold b sta' hb
    rw [hlast]
    exact h.last b sta hs i hun

/-- **A frame comes to the check**: it sets the value of its index, or is dropped because it has
it. -/
theorem cached_check (h : Cached s) (hf : comesToCheck vif linearize status d tail = some f) :
    Cached (s.check f (d ++ tail)) := by
  obtain ⟨hseq, -, huni⟩ := comesToCheck_some hf
  generalize hdup : droppedAsDuplicate (s.sta f.ta) f.seqnoIdx (d ++ tail) = dup
  have hboth : ∀ b sta', (s.check f (d ++ tail)).sta b = some sta' → ∀ i,
      (Untouched b i (.frame f dup :: s.log) →
        sta'.lastSeqCtrl i = if i < 16 then 0xffff else 0) ∧
      (¬ Untouched b i (.frame f dup :: s.log) →
        ∃ g dup', Entry.frame g dup' ∈ .frame f dup :: s.log ∧
          g.ta = b ∧ g.seqnoIdx = i ∧ g.seqCtrl = sta'.lastSeqCtrl i) := by
    intro b sta' hb i
    by_cases hbf : b = f.ta
    swap
    · replace hb := (Function.update_of_ne hbf _ _).symm.trans hb
      exact h.kept hb rfl (and_iff_right fun hno => hbf hno.1.symm)
    subst hbf
    replace hb := (Function.update_self _ _ _).symm.trans hb
    rcases hsta : s.sta f.ta with _ | sta
    · rw [hsta] at hb
      cases hb
    rw [hsta, (rxHCheck_sta sta f.seqnoIdx (d ++ tail)).1, ← hsta, hdup] at hb
    obtain rfl := Option.some.inj hb
    by_cases htouch : f.seqnoIdx = i ∧ f.unicast = true
    · -- the frame touches the index: the value is its own in both cases
      obtain ⟨rfl, hu⟩ := htouch
      refine ⟨fun hun => absurd ⟨rfl, rfl, hu⟩ hun.1, fun _ => ?_⟩
      refine ⟨f, dup, List.mem_cons_self, rfl, rfl, ?_⟩
      have hmulti : ¬ isMulticastEtherAddr (d ++ tail) = true := by
        intro hm
        rw [huni, hm] at hu
        cases hu
      cases dup with
      | true =>
        rw [hsta] at hdup
        obtain ⟨st, hst, -, -, hlast⟩ := (droppedAsDuplicate_iff hf).mp hdup
        obtain rfl := Option.some.inj hst
        simp [hlast]
      | false => simp [hmulti, hseq]
    · have hkeep : ¬ (f.ta = f.ta ∧ f.seqnoIdx = i ∧ f.unicast = true) := fun hno => htouch hno.2
      refine h.kept hsta ?_ (and_iff_right hkeep)
      dsimp only
      by_cases hset : isMulticastEtherAddr (d ++ tail) = true ∨ dup = true
      · rw [if_pos hset]
      · have hu : f.unicast = true := by
          rw [huni]
          simpa using fun hm => hset (Or.inl hm)
        have hne : i ≠ f.seqnoIdx := fun hi => htouch ⟨hi.symm, hu⟩
        rw [if_neg hset, Function.update_of_ne hne]
  refine ⟨fun b sta hb i => ?_, fun b sta hb i => ?_⟩
  · have := (hboth b sta hb i).1
    rwa [← hdup] at this
  · have := (hboth b sta hb i).2
    rwa [← hdup] at this

theorem cached_step (h : Cached s) {a : Label} (hst : (stations vif).step s a = some t) :
    Cached t := by
  cases a with
  | alloc a =>
    replace hst : s.step vif (.alloc a) = some t := hst
    rw [Stations.step] at hst
    split_ifs at hst
    · exact Option.some.inj hst ▸ h
    · exact Option.some.inj hst ▸ cached_alloc h a
  | destroy a =>
    obtain rfl := Option.some.inj hst
    exact cached_update h nofun
  | change a assoc authorized enc keyType =>
    obtain rfl := Option.some.inj hst
    refine cached_update h fun sta' ho => ?_
    obtain ⟨sta, hsta, rfl⟩ := Option.map_eq_some_iff.mp ho
    exact ⟨sta, hsta, rfl⟩
  | rx linearize status d tail =>
    replace hst : s.step vif (.rx linearize status d tail) = some t := hst
    rw [Stations.step] at hst
    rcases hf : comesToCheck vif linearize status d tail with _ | f
    · rw [hf] at hst
      exact Option.some.inj hst ▸ h
    · rw [hf] at hst
      exact Option.some.inj hst ▸ cached_check h hf

/-! ### Runs -/

/-- **One frame**: it is dropped without an earlier frame exactly if it repeats the initial
value. -/
theorem justified_check (h : Cached s) (hf : comesToCheck vif linearize status d tail = some f) :
    Justified (s.check f (d ++ tail)).log ↔ Justified s.log ∧ ¬ RepeatsInitial s f := by
  rcases hdup : droppedAsDuplicate (s.sta f.ta) f.seqnoIdx (d ++ tail) with _ | _
  · rw [Stations.check, hdup]
    refine (and_iff_left fun hr => ?_).symm
    obtain ⟨sta, hsta⟩ := Option.isSome_iff_exists.mp hr.known
    have hval := h.initial f.ta sta hsta f.seqnoIdx hr.first
    rw [← hr.initial] at hval
    have := (droppedAsDuplicate_iff hf).mpr ⟨sta, hsta, hr.unicast, hr.retry, hval⟩
    rw [hdup] at this
    cases this
  · rw [Stations.check, hdup]
    obtain ⟨sta, hsta, huni, hretry, hval⟩ := (droppedAsDuplicate_iff hf).mp hdup
    show f.retry = true ∧ SentBefore f s.log ∧ Justified s.log ↔ _
    rw [and_iff_right hretry, And.comm]
    refine and_congr_right fun _ => ⟨fun hsent hr => hr.unsent hsent, fun hno => ?_⟩
    by_contra hunsent
    by_cases hun : Untouched f.ta f.seqnoIdx s.log
    · have hinit := h.initial f.ta sta hsta f.seqnoIdx hun
      rw [hval] at hinit
      exact hno ⟨by rw [hsta]; rfl, huni, hretry, hun, hinit, hunsent⟩
    · obtain ⟨g, dup, hmem, hta, hidx, hseq⟩ := h.last f.ta sta hsta f.seqnoIdx hun
      exact hunsent ⟨g, dup, hmem, hta, hidx, hseq.trans hval⟩

theorem justified_step (h : Cached s) {a : Label} (hst : (stations vif).step s a = some t) :
    Justified t.log ↔ Justified s.log ∧ NotInitial vif s a := by
  cases a with
  | alloc a =>
    replace hst : s.step vif (.alloc a) = some t := hst
    rw [Stations.step] at hst
    split_ifs at hst <;> obtain rfl := Option.some.inj hst <;> exact (and_iff_left trivial).symm
  | destroy a =>
    obtain rfl := Option.some.inj hst
    exact (and_iff_left trivial).symm
  | change a assoc authorized enc keyType =>
    obtain rfl := Option.some.inj hst
    exact (and_iff_left trivial).symm
  | rx linearize status d tail =>
    replace hst : s.step vif (.rx linearize status d tail) = some t := hst
    rw [Stations.step] at hst
    rcases hf : comesToCheck vif linearize status d tail with _ | f
    · rw [hf] at hst
      obtain rfl := Option.some.inj hst
      refine (and_iff_left fun g hg => ?_).symm
      rw [hf] at hg
      cases hg
    · rw [hf] at hst
      obtain rfl := Option.some.inj hst
      rw [justified_check h hf]
      refine and_congr_right fun _ => ⟨fun hno g hg => ?_, fun hall => hall f hf⟩
      rw [hf] at hg
      exact Option.some.inj hg ▸ hno

end

/-- **In every run of received frames** all drops as duplicates are justified exactly if no frame
repeats the initial value of its index. -/
theorem justified_iff (vif : Vif) {as : List Label} {t : Stations}
    (h : exec (stations vif) .empty as = some t) :
    Justified t.log ↔ Along (stations vif) (NotInitial vif) .empty as := by
  refine (along_iff_of_step (I := Cached) (G := fun s => Justified s.log)
    (fun s a u hs hu => cached_step hs hu) (fun s a u hs hu => justified_step hs hu)
    cached_empty h).trans (and_iff_right trivial)

/-! ### The first frame of a station -/

/-- A data frame without QoS to the AP, with its retry bit set; its sequence control is `n`. -/
def repeatedFrame (n : UInt8) : List UInt8 :=
  [0x08, 0x09, 0, 0, 2, 0, 0, 0, 0, 1, 2, 0, 0, 0, 0, 2, 2, 0, 0, 0, 0, 3, n, 0] ++
    [0xaa, 0xaa, 3, 0, 0, 0, 8, 0]

/-- The station associates, and repeats its first frame. -/
def firstRepeated (n : UInt8) : List Label :=
  [.alloc [2, 0, 0, 0, 0, 2], .change [2, 0, 0, 0, 0, 2] true true false .unset,
    .rx true 0 (repeatedFrame n) []]

theorem justified_iff_sixteen :
    ∃ t, exec (stations openAp) .empty (firstRepeated 16) = some t ∧ Justified t.log ∧
      Along (stations openAp) (NotInitial openAp) .empty (firstRepeated 16) := by
  have hrun : exec (stations openAp) .empty (firstRepeated 16) = some _ := rfl
  exact ⟨_, hrun, trivial, (justified_iff openAp hrun).mp trivial⟩

/-- **The first frame of a station is dropped as a duplicate**: its sequence control is `0`. -/
theorem first_dropped : ¬ ∀ (vif : Vif) (as : List Label) (t : Stations),
    exec (stations vif) .empty as = some t → Justified t.log := by
  intro h
  obtain ⟨-, ⟨g, dup, hmem, -⟩, -⟩ := h openAp (firstRepeated 0) _ rfl
  rcases List.mem_singleton.mp hmem

end Atbm6441.Rx.Handlers
