import Atbm6441.Rx.Handlers.Access

/-!
# The A-MSDU splitter on well-formed frames

An A-MSDU carries a list of subframes, each with a header like that of Ethernet. The splitter is to
refuse a frame with a subframe to the address that the RFC1042 header would be, and to split every
other; its test of the destination is the wrong way round.

* `loop_encodes`, `loop_refuses` : so the loop splits the frames whose subframes all go to that
  address, and no others; the padding of the last subframe stays in its Ethernet frame;
* `split_iff` : the lists of subframes on which the splitter does what it should.
-/

namespace Atbm6441.Rx.Handlers

open Atbm6441.Ieee80211 Atbm6441.Ether Atbm6441.Rx.Replay

/-! ### Subframes -/

/-- A subframe, with an LLC header in its payload and a length of 16 bits. -/
structure Subframe where
  dst : EtherAddr
  src : EtherAddr
  payload : List UInt8
  llc : 8 ≤ payload.length
  short : payload.length < 0x10000

namespace Subframe

variable (s : Subframe)

/-- The length field. -/
def len : List UInt8 := [UInt8.ofNat (s.payload.length / 256), UInt8.ofNat s.payload.length]

/-- The bytes of the subframe, without padding. -/
def bytes : List UInt8 := s.dst.bytes ++ s.src.bytes ++ s.len ++ s.payload

/-- The number of padding bytes up to a multiple of 4. -/
def pad : ℕ := (4 - (14 + s.payload.length) % 4) % 4

/-- **The Ethernet frame of the subframe**, with the encapsulation removed. -/
def ether : List UInt8 :=
  if isSnap s.payload then s.dst.bytes ++ s.src.bytes ++ s.payload.drop 6
  else s.dst.bytes ++ s.src.bytes ++ s.len ++ s.payload

/-- The destination is the RFC1042 header. -/
def ToRfc1042 : Prop := s.dst.bytes = rfc1042Header

instance : Decidable s.ToRfc1042 := inferInstanceAs (Decidable (s.dst.bytes = rfc1042Header))

end Subframe

/-- **The bytes encode the subframes**, with padding after all of them but the last, and `p` behind
the last: its padding, or nothing. -/
inductive Encodes (p : List UInt8) : List Subframe → List UInt8 → Prop
  | last {s : Subframe} (pad : p = [] ∨ p.length = s.pad) : Encodes p [s] (s.bytes ++ p)
  | more {s : Subframe} {L : List Subframe} {q d : List UInt8} (pad : q.length = s.pad)
      (rest : Encodes p L d) : Encodes p (s :: L) (s.bytes ++ (q ++ d))

namespace Subframe

variable (s : Subframe) (r : List UInt8)

theorem length_head : (s.dst.bytes ++ s.src.bytes).length = 12 := by
  rw [List.length_append, s.dst.length_bytes, s.src.length_bytes]

theorem length_bytes : s.bytes.length = 14 + s.payload.length := by
  unfold bytes len
  rw [List.length_append, List.length_append, length_head]
  rfl

theorem dst_append : etherAddrAt (s.bytes ++ r) 0 = s.dst.bytes := by
  unfold bytes
  simp only [List.append_assoc]
  exact etherAddrAt_append s.dst.length_bytes _

theorem type_append : be16At (s.bytes ++ r) 6 = be16At s.src.bytes 0 := by
  have hlen := s.src.length_bytes
  have hat : ∀ i < 6, (s.bytes ++ r).getD (6 + i) 0 = s.src.bytes.getD i 0 := fun i hi => by
    unfold bytes
    simp only [List.append_assoc]
    rw [List.getD_eq_getElem?_getD, List.getElem?_append_right (by rw [s.dst.length_bytes]; omega),
      s.dst.length_bytes, List.getElem?_append_left (by omega), ← List.getD_eq_getElem?_getD,
      Nat.add_sub_cancel_left]
  unfold be16At byteAt
  rw [hat 0 (by omega), hat 1 (by omega)]

theorem len_append : be16At (s.bytes ++ r) 12 = s.payload.length := by
  have hshort := s.short
  unfold bytes be16At
  rw [List.append_assoc, List.append_assoc, byteAt_append_right s.length_head _ 0,
    byteAt_append_right s.length_head _ 1]
  show (UInt8.ofNat (s.payload.length / 256)).toNat * 256 +
    (UInt8.ofNat s.payload.length).toNat = s.payload.length
  rw [UInt8.toNat_ofNat', UInt8.toNat_ofNat']
  omega

theorem subframeLen_append : subframeLen (s.bytes ++ r) = s.bytes.length := by
  rw [subframeLen, len_append, length_bytes]

theorem padding_append : padding (s.bytes ++ r) = s.pad := by
  rw [padding, subframeLen_append, length_bytes, pad]

theorem drop_append : (s.bytes ++ r).drop 14 = s.payload ++ r := by
  unfold bytes len
  rw [List.append_assoc, List.drop_left' (by rw [List.length_append, length_head]; rfl)]

theorem take_append : (s.bytes ++ r).take 12 = s.dst.bytes ++ s.src.bytes ∧
    (s.bytes ++ r).take 14 = s.dst.bytes ++ s.src.bytes ++ s.len := by
  unfold bytes
  constructor
  · rw [List.append_assoc, List.append_assoc, List.take_left' s.length_head]
  · rw [List.append_assoc, List.take_left' (by rw [List.length_append, length_head]; rfl)]

theorem isSnap_append : isSnap (s.payload ++ r) = isSnap s.payload := by
  have hllc := s.llc
  have hat : ∀ i < 8, (s.payload ++ r).getD i 0 = s.payload.getD i 0 := fun i hi => by
    rw [List.getD_eq_getElem?_getD, List.getElem?_append_left (by omega),
      ← List.getD_eq_getElem?_getD]
  have haddr : etherAddrAt (s.payload ++ r) 0 = etherAddrAt s.payload 0 :=
    List.map_congr_left fun i hi => hat (0 + i) (by have := List.mem_range.mp hi; omega)
  have htype : be16At (s.payload ++ r) 6 = be16At s.payload 6 := by
    unfold be16At byteAt
    rw [hat 6 (by omega), hat 7 (by omega)]
  unfold isSnap
  rw [haddr, htype]

theorem to8023_copy : subframeTo8023 (s.bytes ++ r) s.payload = s.ether := by
  unfold subframeTo8023 ether
  rw [(s.take_append r).1, (s.take_append r).2]

theorem to8023_last : subframeTo8023 (s.bytes ++ r) (s.payload ++ r) = s.ether ++ r := by
  have hllc := s.llc
  unfold subframeTo8023 ether
  rw [(s.take_append r).1, (s.take_append r).2, isSnap_append,
    List.drop_append_of_le_length (by omega)]
  split_ifs
  · simp only [List.append_assoc]
  · simp only [List.append_assoc]

end Subframe

/-! ### What the loop makes of them -/

variable {alloc : ℕ → Bool} {p d : List UInt8} {L : List Subframe}

/-- Bytes behind the last entry. -/
def withTail : List (List UInt8) → List UInt8 → List (List UInt8)
  | [], _ => []
  | [x], p => [x ++ p]
  | x :: y :: l, p => x :: withTail (y :: l) p

theorem loop_other {n : ℕ} (h : etherAddrAt d 0 ≠ rfc1042Header) :
    amsduTo8023sLoop alloc n d = none := by
  rw [amsduTo8023sLoop]
  split_ifs
  · rfl
  · rfl

theorem Encodes.pos (h : Encodes p L d) : 0 < d.length := by
  cases h with
  | last => rw [List.length_append, Subframe.length_bytes]; omega
  | more => rw [List.length_append, Subframe.length_bytes]; omega

theorem loop_last {s : Subframe} (hs : s.ToRfc1042) (hp : p = [] ∨ p.length = s.pad) (n : ℕ) :
    amsduTo8023sLoop alloc n (s.bytes ++ p) = some [(.skb, s.ether ++ p)] := by
  have hlen : (s.bytes ++ p).length = s.bytes.length + p.length := List.length_append
  have hle : p.length ≤ s.pad := by
    rcases hp with rfl | hp
    · exact Nat.zero_le _
    · exact Nat.le_of_eq hp
  have hdst : etherAddrAt (s.bytes ++ p) 0 = rfc1042Header := (s.dst_append p).trans hs
  rw [amsduTo8023sLoop, s.subframeLen_append, s.padding_append, if_neg (by omega),
    if_neg (not_not.mpr hdst), if_pos (by omega), s.drop_append, s.to8023_last]

theorem loop_more {s : Subframe} {q : List UInt8} (hs : s.ToRfc1042) (hq : q.length = s.pad)
    (hd : 0 < d.length) (n : ℕ) :
    amsduTo8023sLoop alloc n (s.bytes ++ (q ++ d)) =
      if alloc n then (amsduTo8023sLoop alloc (n + 1) d).map fun l => (.copy n, s.ether) :: l
      else none := by
  have hlen : (s.bytes ++ (q ++ d)).length = s.bytes.length + (s.pad + d.length) := by
    rw [List.length_append, List.length_append, hq]
  have hdst : etherAddrAt (s.bytes ++ (q ++ d)) 0 = rfc1042Header := (s.dst_append _).trans hs
  have hrest : (s.bytes ++ (q ++ d)).drop (s.bytes.length + s.pad) = d := by
    rw [← List.append_assoc, List.drop_left' (by rw [List.length_append, hq])]
  rw [amsduTo8023sLoop, s.subframeLen_append, s.padding_append, if_neg (by omega),
    if_neg (not_not.mpr hdst), if_neg (by omega), hrest, s.drop_append, s.len_append,
    List.take_left' rfl, s.to8023_copy]
  by_cases ha : alloc n = true
  · rw [if_neg (not_not.mpr ha), if_pos ha]
  · rw [if_pos ha, if_neg ha]

/-- **All subframes go to the RFC1042 header**: they are split, and the padding of the last
stays. -/
theorem loop_encodes (h : Encodes p L d) (hall : ∀ s ∈ L, s.ToRfc1042) (n : ℕ)
    (halloc : ∀ i, i + 1 < L.length → alloc (n + i)) :
    ∃ l, amsduTo8023sLoop alloc n d = some l ∧
      l.map Prod.snd = withTail (L.map Subframe.ether) p := by
  induction h generalizing n with
  | last hp => exact ⟨_, loop_last (hall _ (List.mem_singleton_self _)) hp n, rfl⟩
  | more hq rest ih =>
    rename_i s L q d
    obtain ⟨l, hl, hout⟩ := ih (fun s' hs' => hall s' (List.mem_cons_of_mem _ hs')) (n + 1)
      fun i hi => by
        rw [Nat.add_assoc, Nat.add_comm 1 i]
        exact halloc (i + 1) (by rw [List.length_cons]; omega)
    have hne : 0 < L.length := by cases rest <;> exact Nat.succ_pos _
    have ha : alloc n = true := halloc 0 (by rw [List.length_cons]; omega)
    rw [loop_more (hall s List.mem_cons_self) hq rest.pos, if_pos ha, hl]
    refine ⟨_, rfl, ?_⟩
    rw [List.map_cons, List.map_cons, hout]
    obtain ⟨s', L', rfl⟩ := List.exists_cons_of_length_pos hne
    rfl

/-- **Another destination** anywhere, or a copy that cannot be made: the frame is refused. -/
theorem loop_refuses (h : Encodes p L d) (n : ℕ)
    (hno : (∃ s ∈ L, ¬ s.ToRfc1042) ∨ ∃ i, i + 1 < L.length ∧ alloc (n + i) = false) :
    amsduTo8023sLoop alloc n d = none := by
  induction h generalizing n with
  | last hp =>
    rename_i s
    rcases hno with ⟨s', hs', hdst⟩ | ⟨i, hi, -⟩
    · obtain rfl := List.mem_singleton.mp hs'
      exact loop_other fun he => hdst ((s'.dst_append p).symm.trans he)
    · rw [List.length_singleton] at hi
      omega
  | more hq rest ih =>
    rename_i s L q d
    by_cases hs : s.ToRfc1042
    · rw [loop_more hs hq rest.pos]
      by_cases ha : alloc n = true
      · rw [if_pos ha, ih (n + 1) ?_]
        · rfl
        · rcases hno with ⟨s', hs', hdst⟩ | ⟨i, hi, hfail⟩
          · rcases List.mem_cons.mp hs' with rfl | hs'
            · exact absurd hs hdst
            · exact Or.inl ⟨s', hs', hdst⟩
          · rw [List.length_cons] at hi
            rcases i with _ | i
            · rw [Nat.add_zero, ha] at hfail
              cases hfail
            · exact Or.inr ⟨i, by omega, by rw [Nat.add_assoc, Nat.add_comm 1 i]; exact hfail⟩
      · rw [if_neg ha]
    · exact loop_other fun he => hs ((s.dst_append _).symm.trans he)

/-! ### The splitter -/

/-- `atbm_ieee80211_amsdu_to_8023s`, for both values of `has_80211_header`. -/
def atbmIeee80211AmsduTo8023s (env : RxEnv) (d : List UInt8) (addr : EtherAddr)
    (iftype : Nl80211Iftype) (has80211Header : Bool) : Option (List (Buf × List UInt8)) :=
  if has80211Header then amsduTo8023s env d addr iftype else amsduTo8023sLoop env.alloc 0 d

/-- The body of the A-MSDU: what is behind the 802.11 header. -/
def amsduBody (d : List UInt8) (has80211Header : Bool) : List UInt8 :=
  if has80211Header then d.drop (ieee80211Hdrlen (frameControl d)) else d

/-- **The splitter does what it should** with the subframes `L`: it splits them if none goes to the
RFC1042 header, and refuses the frame if one does. -/
structure SplitsRight (L : List Subframe) (r : Option (List (Buf × List UInt8))) : Prop where
  exact : (∀ s ∈ L, ¬ s.ToRfc1042) → r.map (List.map Prod.snd) = some (L.map Subframe.ether)
  refused : (∃ s ∈ L, s.ToRfc1042) → r = none

/-- The conversion of the whole frame takes the first 8 bytes of the body for an LLC header. -/
def LlcFirst (L : List Subframe) : Prop :=
  ∃ s ∈ L.head?, be16At s.src.bytes 0 ≠ ethPAarp ∧ be16At s.src.bytes 0 ≠ ethPIpx

theorem drop_llcTo8023 (dst src body : List UInt8) (hd : dst.length = 6) (hs : src.length = 6) :
    (llcTo8023 dst src body).drop 14 = if isSnap body then body.drop 8 else body := by
  have hlen : (dst ++ src).length = 12 := by rw [List.length_append, hd, hs]
  unfold llcTo8023
  split_ifs
  · rw [← List.drop_drop (i := 2) (j := 12), List.drop_left' hlen, List.drop_drop]
  · rw [List.append_assoc, ← List.append_assoc (dst ++ src), List.drop_left' (by
      rw [List.length_append, hlen]; rfl)]

theorem Encodes.cons (h : Encodes p L d) : ∃ s L' r, L = s :: L' ∧ d = s.bytes ++ r := by
  cases h with
  | last => exact ⟨_, _, _, rfl, rfl⟩
  | more => exact ⟨_, _, _, rfl, rfl⟩

/-- Behind the first 8 bytes of the body there is no subframe to the RFC1042 header: its last two
bytes would be the length of the first subframe. -/
theorem loop_drop (s : Subframe) (r : List UInt8) :
    amsduTo8023sLoop alloc 0 ((s.bytes ++ r).drop 8) = none := by
  refine loop_other fun hdst => ?_
  have hlen := s.len_append r
  have hllc := s.llc
  have hat : ∀ i < 6, (etherAddrAt ((s.bytes ++ r).drop 8) 0).getD i 0 =
      (s.bytes ++ r).getD (8 + i) 0 := fun i hi => by
    simp [etherAddrAt, List.getD_eq_getElem?_getD, hi]
  have h4 := hat 4 (by omega)
  have h5 := hat 5 (by omega)
  rw [hdst] at h4 h5
  unfold be16At byteAt at hlen
  rw [← h4, ← h5] at hlen
  have hzero : (0 : UInt8).toNat * 256 + (0 : UInt8).toNat = s.payload.length := hlen
  rw [UInt8.toNat_zero] at hzero
  omega

/-- **With an 802.11 header**, the body is split unless the conversion takes its first 8 bytes for
an LLC header; then the frame is refused. -/
theorem amsduTo8023s_eq (env : RxEnv) {addr : EtherAddr} {iftype : Nl80211Iftype}
    (hdr : (ieee80211DataTo8023 d addr iftype).isSome) {s : Subframe} {r : List UInt8}
    (hbody : amsduBody d true = s.bytes ++ r) : amsduTo8023s env d addr iftype =
      if isSnap (s.bytes ++ r) then none else amsduTo8023sLoop env.alloc 0 (s.bytes ++ r) := by
  obtain ⟨eth, heth⟩ := Option.isSome_iff_exists.mp hdr
  have hda : (ieee80211GetDA d).length = 6 := by
    unfold ieee80211GetDA
    split_ifs <;> exact length_etherAddrAt _ _
  have hsa : (ieee80211GetSA d).length = 6 := by
    unfold ieee80211GetSA
    split_ifs <;> exact length_etherAddrAt _ _
  have hllc : eth = llcTo8023 (ieee80211GetDA d) (ieee80211GetSA d) (s.bytes ++ r) := by
    rw [← hbody]
    unfold ieee80211DataTo8023 at heth
    dsimp only at heth
    split_ifs at heth
    exact (Option.some.inj heth).symm
  have hdrop : eth.drop 14 = if isSnap (s.bytes ++ r) then (s.bytes ++ r).drop 8
      else s.bytes ++ r := by
    rw [hllc, drop_llcTo8023 _ _ _ hda hsa]
  have hlen : ¬ eth.length < 14 := fun hlt => by
    have hnil := List.drop_eq_nil_of_le (Nat.le_of_lt hlt)
    have hbytes := s.length_bytes
    have hlong := s.llc
    rw [hdrop] at hnil
    split_ifs at hnil
    · have := congrArg List.length hnil
      rw [List.length_drop, List.length_append, List.length_nil] at this
      omega
    · have := congrArg List.length hnil
      rw [List.length_append, List.length_nil] at this
      omega
  unfold amsduTo8023s
  rw [heth]
  dsimp only
  rw [if_neg hlen, hdrop]
  split_ifs
  · exact loop_drop s r
  · rfl

theorem splitsRight_none : SplitsRight L none ↔ ∃ s ∈ L, s.ToRfc1042 := by
  constructor
  · intro h
    by_contra hno
    have hexact := h.exact fun s hs hdst => hno ⟨s, hs, hdst⟩
    cases hexact
  · exact fun h => ⟨fun hno => absurd h.choose_spec.2 (hno _ h.choose_spec.1), fun _ => rfl⟩

theorem splitsRight_loop (h : Encodes p L d) : SplitsRight L (amsduTo8023sLoop alloc 0 d) ↔
    (∃ s ∈ L, s.ToRfc1042) ∧
      ((∃ s ∈ L, ¬ s.ToRfc1042) ∨ ∃ i, i + 1 < L.length ∧ alloc i = false) := by
  by_cases hno : (∃ s ∈ L, ¬ s.ToRfc1042) ∨ ∃ i, i + 1 < L.length ∧ alloc i = false
  · rw [loop_refuses h 0 (by simpa only [Nat.zero_add] using hno), splitsRight_none]
    exact (and_iff_left hno).symm
  · obtain ⟨hother, hfail⟩ := not_or.mp hno
    have hall : ∀ s ∈ L, s.ToRfc1042 := fun s hs => by
      by_contra hdst
      exact hother ⟨s, hs, hdst⟩
    have halloc : ∀ i, i + 1 < L.length → alloc (0 + i) = true := fun i hi => by
      rw [Nat.zero_add]
      by_contra ha
      exact hfail ⟨i, hi, Bool.not_eq_true _ ▸ ha⟩
    obtain ⟨l, hl, -⟩ := loop_encodes h hall 0 halloc
    refine iff_of_false (fun hright => ?_) fun hcond => hno hcond.2
    obtain ⟨s, L', r, rfl, -⟩ := h.cons
    have hnone := hright.refused ⟨s, List.mem_cons_self, hall s List.mem_cons_self⟩
    rw [hl] at hnone
    cases hnone

/-- **The splitter does what it should** exactly if some subframe goes to the RFC1042 header and the
frame is refused for another reason: another subframe goes elsewhere, a copy cannot be made, or the
conversion has taken the first 8 bytes of the body for an LLC header. -/
theorem split_iff (env : RxEnv) {addr : EtherAddr} {iftype : Nl80211Iftype} (has80211Header : Bool)
    (hdr : has80211Header → (ieee80211DataTo8023 d addr iftype).isSome)
    (h : Encodes p L (amsduBody d has80211Header)) :
    SplitsRight L (atbmIeee80211AmsduTo8023s env d addr iftype has80211Header) ↔
      (∃ s ∈ L, s.ToRfc1042) ∧
        ((∃ s ∈ L, ¬ s.ToRfc1042) ∨ (∃ i, i + 1 < L.length ∧ env.alloc i = false) ∨
          has80211Header ∧ LlcFirst L) := by
  unfold atbmIeee80211AmsduTo8023s
  rcases has80211Header with _ | _
  · rw [if_neg Bool.false_ne_true, splitsRight_loop (show Encodes p L d from h)]
    simp
  · rw [if_pos rfl]
    obtain ⟨s, L', r, rfl, hbody⟩ := h.cons
    rw [amsduTo8023s_eq env (hdr rfl) hbody]
    have hdst := s.dst_append r
    have hfirst : LlcFirst (s :: L') ↔
        be16At s.src.bytes 0 ≠ ethPAarp ∧ be16At s.src.bytes 0 ≠ ethPIpx := by
      simp [LlcFirst]
    have hsnap : isSnap (s.bytes ++ r) = true ↔
        s.ToRfc1042 ∧ LlcFirst (s :: L') ∨ s.dst.bytes = bridgeTunnelHeader := by
      rw [hfirst]
      unfold isSnap
      rw [hdst, s.type_append r]
      simp [Subframe.ToRfc1042]
    by_cases hs : isSnap (s.bytes ++ r) = true
    · rw [if_pos hs, splitsRight_none]
      refine (and_iff_left ?_).symm
      rcases hsnap.mp hs with ⟨-, hllc⟩ | hbridge
      · exact Or.inr (Or.inr ⟨rfl, hllc⟩)
      · refine Or.inl ⟨s, List.mem_cons_self, fun hrfc => ?_⟩
        have hne : bridgeTunnelHeader ≠ rfc1042Header := by decide
        exact hne (hbridge.symm.trans hrfc)
    · rw [if_neg hs, splitsRight_loop (hbody ▸ h)]
      refine and_congr_right fun _ => ⟨fun hno => ?_, fun hno => ?_⟩
      · rcases hno with hother | hfail
        · exact Or.inl hother
        · exact Or.inr (Or.inl hfail)
      · rcases hno with hother | hfail | ⟨-, hllc⟩
        · exact Or.inl hother
        · exact Or.inr hfail
        · exact Or.inl ⟨s, List.mem_cons_self, fun hrfc => hs (hsnap.mpr (Or.inl ⟨hrfc, hllc⟩))⟩

/-! ### A plain subframe and one to the RFC1042 header -/

/-- An IPv4 packet without content. -/
def packet : List UInt8 := rfc1042Header ++ [8, 0]

theorem packet_llc : 8 ≤ packet.length := by decide

theorem packet_short : packet.length < 0x10000 := by decide

/-- It goes from one host to another. -/
def plain : Subframe :=
  ⟨⟨[2, 0, 0, 0, 0, 3], rfl⟩, ⟨[2, 0, 0, 0, 0, 2], rfl⟩, packet, packet_llc, packet_short⟩

/-- A subframe to the RFC1042 header, with the type of IPX in its source. -/
def toRfc1042 : Subframe :=
  ⟨⟨rfc1042Header, rfl⟩, ⟨[0x81, 0x37, 0, 0, 0, 2], rfl⟩, packet, packet_llc, packet_short⟩

/-- The two together. -/
theorem split_iff_mixed :
    SplitsRight [plain, toRfc1042] (atbmIeee80211AmsduTo8023s ⟨true, fun _ => true⟩
      (plain.bytes ++ ([0, 0] ++ (toRfc1042.bytes ++ []))) ⟨[2, 0, 0, 0, 0, 1], rfl⟩ .station
        false) :=
  (split_iff _ false nofun (.more (by decide) (.last (Or.inl rfl)))).mpr
    ⟨⟨toRfc1042, by simp, rfl⟩, Or.inl ⟨plain, by simp, by decide⟩⟩

/-- A data frame from the distribution system, with the body `b`. -/
def fromDs (b : List UInt8) : List UInt8 := [8, 2] ++ List.replicate 22 0 ++ b

/-- **A plain A-MSDU is refused and one to the RFC1042 header is split.** -/
theorem plain_refused : Encodes [] [plain] (amsduBody (fromDs plain.bytes) true) ∧
    ¬ plain.ToRfc1042 ∧ toRfc1042.ToRfc1042 ∧
    atbmIeee80211AmsduTo8023s ⟨true, fun _ => true⟩ (fromDs plain.bytes) ⟨[2, 0, 0, 0, 0, 1], rfl⟩
      .station true = none ∧
    atbmIeee80211AmsduTo8023s ⟨true, fun _ => true⟩ (fromDs toRfc1042.bytes)
      ⟨[2, 0, 0, 0, 0, 1], rfl⟩ .station true = some [(.skb, toRfc1042.ether)] ∧
    ¬ SplitsRight [plain] (atbmIeee80211AmsduTo8023s ⟨true, fun _ => true⟩ (fromDs plain.bytes)
      ⟨[2, 0, 0, 0, 0, 1], rfl⟩ .station true) := by
  have hplain : ¬ plain.ToRfc1042 := by decide
  have hbody : amsduBody (fromDs plain.bytes) true = plain.bytes ++ [] := by decide
  have hbody' : amsduBody (fromDs toRfc1042.bytes) true = toRfc1042.bytes ++ [] := by decide
  have hnone : atbmIeee80211AmsduTo8023s ⟨true, fun _ => true⟩ (fromDs plain.bytes)
      ⟨[2, 0, 0, 0, 0, 1], rfl⟩ .station true = none := by
    unfold atbmIeee80211AmsduTo8023s
    rw [if_pos rfl, amsduTo8023s_eq _ (by decide) hbody, if_neg (by decide)]
    exact loop_other (by decide)
  have hsome : atbmIeee80211AmsduTo8023s ⟨true, fun _ => true⟩ (fromDs toRfc1042.bytes)
      ⟨[2, 0, 0, 0, 0, 1], rfl⟩ .station true = some [(.skb, toRfc1042.ether)] := by
    unfold atbmIeee80211AmsduTo8023s
    rw [if_pos rfl, amsduTo8023s_eq _ (by decide) hbody', if_neg (by decide),
      loop_last (show toRfc1042.ToRfc1042 from rfl) (Or.inl rfl), List.append_nil]
  refine ⟨?_, hplain, rfl, hnone, hsome, fun hright => ?_⟩
  · rw [hbody]
    exact .last (Or.inl rfl)
  · have hexact := hright.exact fun s hs => by
      obtain rfl := List.mem_singleton.mp hs
      exact hplain
    rw [hnone] at hexact
    cases hexact

end Atbm6441.Rx.Handlers
