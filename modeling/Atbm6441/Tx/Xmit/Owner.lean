import Atbm6441.Tx.Xmit.Headroom

/-!
# Who owns the buffer

A caller that gets `NETDEV_TX_BUSY` submits its buffer again; in every other case the buffer is
given away. `owned_iff` : so it is, unless the reallocation for the headers fails, which is reported
as `NETDEV_TX_BUSY` with the Ethernet header pulled off, or `skb_padto` does, after which the buffer
is freed again.
-/

namespace Atbm6441.Tx.Xmit

open Atbm6441.Ether (ethertype skipHeaderBytes)

/-- The event gives a buffer away. -/
def Event.gives (b : Buffer) (e : Event) : Bool := e = .free b || e = .queue b

/-- Every buffer that the function owns is freed or queued once: the caller's, and its own clone. -/
def GivenOnce (log : List Event) : Prop :=
  ∀ b, b = .caller ∨ .cloned ∈ log → log.countP (Event.gives b) = 1

/-- **What the caller relies on.** -/
structure Rightly (skb : SkBuff) (r : XmitEnd) : Prop where
  busy : r.ret = .busy → r.caller = skb ∧ r.log = []
  ok : r.ret = .ok → GivenOnce r.log

/-- The allocations for a frame succeed: the one that makes room for its headers, and `skb_padto` if
`atbm_tx` accepts it. -/
def Allocated (vif : AtbmVif) (env : Env) (skb : SkBuff) (hdr : XmitHdr) : Prop :=
  (resized hdr (ethertype skb.bytes) skb.payload = true → env.expandHead.isSome = true) ∧
    ∀ addr, frameAddr hdr skb env = some addr →
      Accepts vif hdr.addr1 skb.queueMapping (frameRoom hdr skb) addr → env.padto = true

variable {vif : AtbmVif} {env : Env} {skb : SkBuff} {hdr : XmitHdr} {b : Buffer}

theorem frameAddr_eq_none : frameAddr hdr skb env = none ↔
    resized hdr (ethertype skb.bytes) skb.payload = true ∧ env.expandHead = none := by
  rw [frameAddr, Option.map_eq_none_iff, dataAfter]
  by_cases hres : resized hdr (ethertype skb.bytes) skb.payload = true
  · rw [if_pos hres, Option.map_eq_none_iff, and_iff_right hres]
  · rw [if_neg hres]
    exact iff_of_false (Option.some_ne_none _) fun h => hres h.1

theorem payload_ne (skb : SkBuff) : skb.payload ≠ skb := by
  intro h
  have hdata := congrArg SkBuff.data h
  have howned : skb.own.data = skb.data := by
    unfold SkBuff.own
    split_ifs <;> rfl
  have hpull : skb.payload.data = skb.own.data + skipHeaderBytes (ethertype skb.bytes) := rfl
  have hskip : 0 < skipHeaderBytes (ethertype skb.bytes) := by
    unfold skipHeaderBytes
    split_ifs <;> omega
  omega

theorem OwnEnd.allocated_iff {r : NetdevTx × SkBuff × List Event}
    (h : OwnEnd vif env hdr b skb r) :
    (r.1 = .busy ∧ r.2 = (skb.payload, []) ∧ ¬ Allocated vif env skb hdr) ∨
    (r.1 = .ok ∧ ((r.2.2 = [.free b] ∨ r.2.2 = [.queue b]) ∧ Allocated vif env skb hdr ∨
      r.2.2 = [.free b, .free b] ∧ ¬ Allocated vif env skb hdr)) := by
  cases h with
  | busy haddr =>
    refine Or.inl ⟨rfl, rfl, fun halloc => ?_⟩
    obtain ⟨hres, hnone⟩ := frameAddr_eq_none.mp haddr
    have hsome := halloc.1 hres
    rw [hnone] at hsome
    cases hsome
  | padded addr skb' haddr haccepts hfit =>
    have hexpand : resized hdr (ethertype skb.bytes) skb.payload = true →
        env.expandHead.isSome = true := fun hres => by
      rw [Option.isSome_iff_ne_none]
      intro hnone
      rw [frameAddr_eq_none.mpr ⟨hres, hnone⟩] at haddr
      cases haddr
    by_cases hpad : env.padto = true
    · rw [if_pos hpad]
      exact Or.inr ⟨rfl, Or.inl ⟨Or.inr rfl, hexpand, fun _ _ _ => hpad⟩⟩
    · rw [if_neg hpad]
      exact Or.inr ⟨rfl, Or.inr ⟨rfl, fun halloc => hpad (halloc.2 addr haddr haccepts)⟩⟩
  | dropped addr skb' haddr haccepts hfit =>
    refine Or.inr ⟨rfl, Or.inl ⟨Or.inl rfl, fun hres => ?_, fun addr' haddr' haccepts' => ?_⟩⟩
    · rw [Option.isSome_iff_ne_none]
      intro hnone
      rw [frameAddr_eq_none.mpr ⟨hres, hnone⟩] at haddr
      cases haddr
    · rw [haddr] at haddr'
      obtain rfl := Option.some.inj haddr'
      exact absurd haccepts' haccepts

/-! ### A call -/

theorem givenOnce_own {e : Event} (h : e = .free .caller ∨ e = .queue .caller) :
    GivenOnce [e] := by
  rintro b (rfl | hcloned)
  · rcases h with rfl | rfl <;> rfl
  · rcases h with rfl | rfl <;> cases List.mem_singleton.mp hcloned

theorem givenOnce_shared {e : Event} (h : e = .free .clone ∨ e = .queue .clone) :
    GivenOnce [.cloned, .free .caller, e] := by
  intro b _
  cases b <;> rcases h with rfl | rfl <;> rfl

theorem not_givenOnce (l : List Event) (h : b = .caller ∨ Event.cloned ∈ l) :
    ¬ GivenOnce (l ++ [.free b, .free b]) := by
  intro honce
  have hcount := honce b (h.imp_right (List.mem_append_left _))
  have htwo : [Event.free b, .free b].countP (Event.gives b) = 2 := by cases b <;> rfl
  rw [List.countP_append, htwo] at hcount
  omega

theorem rightly_ok {caller own : SkBuff} {log : List Event} :
    Rightly skb ⟨.ok, caller, own, log⟩ ↔ GivenOnce log :=
  ⟨fun h => h.ok rfl, fun h => ⟨nofun, fun _ => h⟩⟩

theorem OwnEnd.rightly_own {ret : NetdevTx} {own : SkBuff} {log : List Event}
    (h : OwnEnd vif env hdr .caller skb (ret, own, log)) :
    Rightly skb ⟨ret, own, own, log⟩ ↔ Allocated vif env skb hdr := by
  obtain ⟨hret, hrest, halloc⟩ | ⟨hret, ⟨hlog, halloc⟩ | ⟨hlog, halloc⟩⟩ := h.allocated_iff
  · refine iff_of_false (fun hright => ?_) halloc
    have hsame : own = skb := (hright.busy hret).1
    have hpulled : own = skb.payload := congrArg Prod.fst hrest
    exact payload_ne skb (hpulled.symm.trans hsame)
  · obtain rfl : ret = .ok := hret
    refine iff_of_true (rightly_ok.mpr ?_) halloc
    obtain rfl | rfl : log = _ ∨ log = _ := hlog
    · exact givenOnce_own (Or.inl rfl)
    · exact givenOnce_own (Or.inr rfl)
  · obtain rfl : ret = .ok := hret
    obtain rfl : log = [.free .caller, .free .caller] := hlog
    exact iff_of_false (fun h => not_givenOnce [] (Or.inl rfl) (rightly_ok.mp h)) halloc

theorem OwnEnd.rightly_shared {ret : NetdevTx} {own : SkBuff} {log : List Event}
    (h : OwnEnd vif env hdr .clone skb (ret, own, log)) :
    Rightly skb ⟨ret, skb, own, .cloned :: .free .caller :: log⟩ ↔ Allocated vif env skb hdr := by
  obtain ⟨hret, -, halloc⟩ | ⟨hret, ⟨hlog, halloc⟩ | ⟨hlog, halloc⟩⟩ := h.allocated_iff
  · refine iff_of_false (fun hright => ?_) halloc
    cases (hright.busy hret).2
  · obtain rfl : ret = .ok := hret
    refine iff_of_true (rightly_ok.mpr ?_) halloc
    obtain rfl | rfl : log = _ ∨ log = _ := hlog
    · exact givenOnce_shared (Or.inl rfl)
    · exact givenOnce_shared (Or.inr rfl)
  · obtain rfl : ret = .ok := hret
    obtain rfl : log = [.free .clone, .free .clone] := hlog
    refine iff_of_false (fun h => ?_) halloc
    exact not_givenOnce [.cloned, .free .caller] (Or.inr List.mem_cons_self) (rightly_ok.mp h)

/-- **A buffer is left alone or given away once** exactly when the allocations for its frame
succeed. -/
theorem owned_iff (vif : AtbmVif) (env : Env) (skb : SkBuff) :
    Rightly skb (atbmSubifStartXmit vif env skb) ↔
      ∀ hdr, Comes vif env skb hdr → Allocated vif env skb hdr := by
  have hpath := start_path vif env skb
  generalize atbmSubifStartXmit vif env skb = r at hpath ⊢
  cases hpath with
  | early h =>
    exact iff_of_true (rightly_ok.mpr (givenOnce_own (Or.inl rfl)))
      fun hdr hcomes => absurd hcomes (h hdr)
  | shared hdr h hshared ret own log hown =>
    rw [h.forall_iff]
    exact hown.rightly_shared
  | own hdr h hshared ret own log hown =>
    rw [h.forall_iff]
    exact hown.rightly_own

/-- **A buffer comes back without its Ethernet header**: there is no reallocation for one with 8
bytes of headroom. -/
theorem busy_pulled :
    (atbmSubifStartXmit openVif ⟨false, true, none, fun _ => 0, true⟩ (ipSkb 8)).ret = .busy ∧
      ¬ Rightly (ipSkb 8)
        (atbmSubifStartXmit openVif ⟨false, true, none, fun _ => 0, true⟩ (ipSkb 8)) := by
  have hbusy : (atbmSubifStartXmit openVif ⟨false, true, none, fun _ => 0, true⟩
      (ipSkb 8)).ret = .busy := by decide +kernel
  have hdata : (atbmSubifStartXmit openVif ⟨false, true, none, fun _ => 0, true⟩
      (ipSkb 8)).caller.data = 120 := by decide +kernel
  refine ⟨hbusy, fun h => ?_⟩
  rw [(h.busy hbusy).1] at hdata
  cases hdata

end Atbm6441.Tx.Xmit
