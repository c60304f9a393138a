import Atbm6441.Rx.Air.Read
import Atbm6441.Rx.Reorder.Count

/-!
# Runs: the frames of a peer, in order

A peer sends its frames in MPDUs, again and again and in any order, among any frames of others.
`got_in_order` : what the network stack gets of them are frames that have arrived, in the order of their
numbers, and none of them twice. `got_all` : it gets all of them, if they are let through, but for those
that wait in their slots.
-/

namespace Atbm6441.Rx.Air

open Atbm6441.Ieee80211 Atbm6441.Lib
open Atbm6441.Ether (EtherAddr etherAddrAt)
open Atbm6441.Rx.Handlers
open Atbm6441.Rx.Reorder
open Atbm6441.Rx.Replay (Nl80211Iftype)

variable {w : ℕ} {p : Peer} {r r' : Receiver w} {vif vif' : Vif} {sta : Option StaInfo}
  {info : StaInfo} {env : ℕ → RxEnv} {now : BitVec w} {d addr : List UInt8} {tid k : ℕ}
  {fs : List SkBuff} {out : List (List UInt8)} {all : Prop}

/-! ### Frames that are handled -/

theorem rxHandlers_cons {f : SkBuff} (h : rxHandlers sta env vif (f :: fs) = some (vif', out)) :
    receivedAtCheck true vif 0 f.data = none ∧
        rxHandlers sta (fun n => env (n + 1)) vif fs = some (vif', out) ∨
      ∃ skb i rx out', receivedAtCheck true vif 0 f.data = some (skb, i) ∧
        handlersResult (ieee80211RxHandlers (env 0) vif sta skb) = some rx ∧
        rxHandlers sta (fun n => env (n + 1)) rx.vif fs = some (vif', out') ∧
        out = stackFrames rx.log ++ out' := by
  rw [rxHandlers] at h
  cases hcheck : receivedAtCheck true vif 0 f.data with
  | none =>
    rw [hcheck] at h
    exact Or.inl ⟨rfl, h⟩
  | some c =>
    obtain ⟨skb, i⟩ := c
    rw [hcheck] at h
    dsimp only at h
    cases hrx : handlersResult (ieee80211RxHandlers (env 0) vif sta skb) with
    | none =>
      rw [hrx] at h
      cases h
    | some rx =>
      rw [hrx] at h
      obtain ⟨⟨vif'', out'⟩, hrest, heq⟩ := Option.map_eq_some_iff.mp h
      obtain ⟨rfl, rfl⟩ := Prod.mk.inj heq
      exact Or.inr ⟨skb, i, rx, out', rfl, hrx, hrest, rfl⟩

theorem iface_result {e : RxEnv} {skb : RxSkb} {rx : RxData}
    (h : handlersResult (ieee80211RxHandlers e vif sta skb) = some rx) : SameIface vif rx.vif := by
  obtain ⟨res, rx', hhandlers, hvif, -⟩ := handlersResult_eq h
  rw [hvif]
  exact iface_handlers hhandlers

theorem iface_rxHandlers (h : rxHandlers sta env vif fs = some (vif', out)) :
    SameIface vif vif' := by
  induction fs generalizing env vif out with
  | nil =>
    cases h
    exact .refl _
  | cons f fs ih =>
    rcases rxHandlers_cons h with ⟨-, hrest⟩ | ⟨skb, i, rx, out', -, hrx, hrest, -⟩
    · exact ih hrest
    · exact (iface_result hrx).trans (ih hrest)

/-- **MPDUs of the peer that are handled**: the network stack gets frames of theirs, in their order; and
all, if they are let through. -/
theorem handled_mpdus {L : List (ℕ × SkBuff)} (hkeyed : p.Keyed info) (haddr : vif.addr = p.own)
    (htype : vif.type = p.iftype) (hL : ∀ x ∈ L, p.Mpdu x.1 x.2.data)
    (hall : all → p.Lets vif.apEnc info ∧ ∀ n, (env n).linearize = true)
    (h : rxHandlers (some info) env vif (L.map Prod.snd) = some (vif', out)) :
    ∃ ks : List ℕ, ks.Sublist (L.map Prod.fst) ∧ out = ks.map p.frame ∧
      (all → ks = L.map Prod.fst) := by
  induction L generalizing env vif out with
  | nil =>
    cases h
    exact ⟨[], .slnil, rfl, fun _ => rfl⟩
  | cons x L ih =>
    have hx := hL x List.mem_cons_self
    have hL' : ∀ x ∈ L, p.Mpdu x.1 x.2.data := fun y hy => hL y (List.mem_cons_of_mem _ hy)
    have hcheck := hx.atCheck haddr htype true
    rcases rxHandlers_cons h with ⟨hnone, -⟩ | ⟨skb, i, rx, out', hsome, hrx, hrest, rfl⟩
    · rw [hnone] at hcheck
      cases hcheck
    · rw [hcheck] at hsome
      obtain ⟨rfl, -⟩ := Prod.mk.inj (Option.some.inj hsome)
      have hiface := iface_result hrx
      have hall' : all → p.Lets rx.vif.apEnc info ∧ ∀ n, (env (n + 1)).linearize = true :=
        fun ha => ⟨hiface.apEnc ▸ (hall ha).1, fun n => (hall ha).2 (n + 1)⟩
      obtain ⟨ks, hks, rfl, hsame⟩ :=
        ih (hiface.addr.trans haddr) (hiface.type.trans htype) hL' hall' hrest
      rcases handled_mpdu hx hkeyed htype hrx with hlog | hlog
      · refine ⟨ks, hks.cons _, by rw [hlog]; rfl, fun ha => ?_⟩
        obtain ⟨rx', hrx', hlog'⟩ := admitted_mpdu hx hkeyed htype (hall ha).1 ((hall ha).2 0)
        rw [hrx] at hrx'
        obtain rfl := Option.some.inj hrx'
        rw [hlog] at hlog'
        cases hlog'
      · exact ⟨x.1 :: ks, hks.cons_cons _, by rw [hlog]; rfl, fun ha => by
          rw [hsame ha, List.map_cons]⟩

/-! ### The receiver -/

namespace Receiver

/-- The station has the key of the peer; and lets its frames through, if `all` are to be. -/
def Knows (r : Receiver w) (p : Peer) (all : Prop) : Prop :=
  ∀ s, r.sta p.addr.bytes = some s → p.Keyed s.info ∧ (all → p.Lets r.vif.apEnc s.info)

theorem session_eq_some {t : TidAmpduRx w} (h : r.session addr tid = some t) :
    ∃ s, r.sta addr = some s ∧ s.tidRx tid = some t := Option.bind_eq_some_iff.mp h

theorem session_setSession {t₀ : TidAmpduRx w} (h : r.session addr tid = some t₀)
    (t : TidAmpduRx w) : (r.setSession addr tid t).session addr tid = some t := by
  obtain ⟨s, hs, -⟩ := session_eq_some h
  simp [session, setSession, hs]

theorem session_setSession_of_ne {addr' : List UInt8} {tid' : ℕ}
    (hne : ¬ (addr' = addr ∧ tid' = tid)) (t : TidAmpduRx w) :
    (r.setSession addr tid t).session addr' tid' = r.session addr' tid' := by
  unfold session setSession
  by_cases haddr : addr' = addr
  · subst haddr
    have htid : tid' ≠ tid := fun htid => hne ⟨rfl, htid⟩
    cases r.sta addr' with
    | none => simp
    | some s => simp [Function.update_of_ne htid]
  · simp [Function.update_of_ne haddr]

theorem info_setSession (addr' : List UInt8) (t : TidAmpduRx w) :
    ((r.setSession addr tid t).sta addr').map Station.info = (r.sta addr').map Station.info := by
  unfold setSession
  by_cases haddr : addr' = addr
  · subst haddr
    cases r.sta addr' <;> simp
  · simp [Function.update_of_ne haddr]

theorem Knows.congr (h : r.Knows p all) (hap : r'.vif.apEnc = r.vif.apEnc)
    (hinfo : (r'.sta p.addr.bytes).map Station.info = (r.sta p.addr.bytes).map Station.info) :
    r'.Knows p all := by
  intro s' hs'
  rw [hs', Option.map_some] at hinfo
  obtain ⟨s, hs, heq⟩ := Option.map_eq_some_iff.mp hinfo.symm
  rw [← heq, hap]
  exact h s hs

theorem Knows.setSession (h : r.Knows p all) (t : TidAmpduRx w) :
    (r.setSession addr tid t).Knows p all := h.congr rfl (info_setSession _ t)

theorem handle_eq_some {i : ℕ} (h : r.handle addr i env fs = some r') :
    ∃ vif out, rxHandlers ((r.sta addr).map Station.info) env r.vif fs = some (vif, out) ∧
      r' = { r with vif := vif, calls := r.calls ++ [⟨addr, i, out⟩] } := by
  obtain ⟨⟨vif, out⟩, hrun, rfl⟩ := Option.map_eq_some_iff.mp h
  exact ⟨vif, out, hrun, rfl⟩

end Receiver

theorem got_append (c : Called) :
    p.got { r with vif := vif, calls := r.calls ++ [c] } =
      p.got r ++ if c.addr = p.addr.bytes ∧ c.seqnoIdx = p.tid then c.frames else [] := by
  unfold Peer.got
  by_cases hc : c.addr = p.addr.bytes ∧ c.seqnoIdx = p.tid <;>
    simp [List.filter_append, hc]

/-- **What is not for the session of the peer** leaves it, and all that is asked of the station. -/
structure Keeps (p : Peer) (r r' : Receiver w) : Prop where
  session : r'.session p.addr.bytes p.tid = r.session p.addr.bytes p.tid
  iface : SameIface r.vif r'.vif
  knows : ∀ all, r.Knows p all → r'.Knows p all
  got : p.got r' = p.got r

theorem Keeps.refl (r : Receiver w) : Keeps p r r := ⟨rfl, .refl _, fun _ h => h, rfl⟩

theorem Keeps.trans {r'' : Receiver w} (h : Keeps p r r') (h' : Keeps p r' r'') : Keeps p r r'' :=
  ⟨h'.session.trans h.session, h.iface.trans h'.iface, fun all hk => h'.knows all (h.knows all hk),
    h'.got.trans h.got⟩

theorem keeps_setSession (hne : ¬ (p.addr.bytes = addr ∧ p.tid = tid)) (t : TidAmpduRx w) :
    Keeps p r (r.setSession addr tid t) :=
  ⟨Receiver.session_setSession_of_ne hne t, .refl _, fun _ h => h.setSession t, rfl⟩

theorem keeps_handle {i : ℕ} (h : r.handle addr i env fs = some r')
    (hnone : addr = p.addr.bytes → i = p.tid → ∀ vif out,
      rxHandlers ((r.sta addr).map Station.info) env r.vif fs = some (vif, out) → out = []) :
    Keeps p r r' := by
  obtain ⟨vif, out, hrun, rfl⟩ := Receiver.handle_eq_some h
  have hiface := iface_rxHandlers hrun
  refine ⟨rfl, hiface, fun _ h => h.congr hiface.apEnc rfl, ?_⟩
  rw [got_append]
  dsimp only
  split_ifs with hc
  · rw [hnone hc.1 hc.2 _ _ hrun, List.append_nil]
  · exact List.append_nil _

/-! ### The arrival -/

theorem check_info (i : ℕ) (d : List UInt8) : ∃ info',
    (ieee80211RxHCheck (some info) i d).1 = some info' ∧ info'.enc = info.enc ∧
      info'.keyType = info.keyType ∧ info'.authorized = info.authorized := by
  unfold ieee80211RxHCheck
  dsimp only
  split_ifs
  · exact ⟨_, rfl, rfl, rfl, rfl⟩
  · exact ⟨_, rfl, rfl, rfl, rfl⟩
  · exact ⟨_, rfl, rfl, rfl, rfl⟩

theorem prepareForHandlers_spec {s s' : RxSkb} (h : prepareForHandlers vif s = some s') :
    s'.data = s.data ∧ s'.decrypted = s.decrypted := by
  unfold prepareForHandlers at h
  split at h
  · split_ifs at h
    all_goals cases h
    all_goals exact ⟨rfl, rfl⟩
  · cases h
    exact ⟨rfl, rfl⟩
  · cases h
    exact ⟨rfl, rfl⟩
  · cases h

theorem ieee80211ParseQos_spec (s : RxSkb) : (ieee80211ParseQos s).1.data = s.data ∧
    (ieee80211ParseQos s).1.decrypted = s.decrypted ∧ (ieee80211ParseQos s).2 =
      if ieee80211IsDataQos (frameControl s.data) then qosCtlTid s.data else numRxDataQueues := by
  unfold ieee80211ParseQos
  dsimp only
  by_cases hqos : ieee80211IsDataQos (frameControl s.data) = true
  · rw [if_pos hqos, if_pos hqos]
    refine ⟨?_, ?_, rfl⟩
    · dsimp only
      split_ifs <;> rfl
    · dsimp only
      split_ifs <;> rfl
  · rw [if_neg hqos, if_neg hqos]
    exact ⟨rfl, rfl, rfl⟩

theorem received_spec {linearize : Bool} {skb : RxSkb} {i : ℕ}
    (h : receivedAtCheck linearize vif 0 d = some (skb, i)) :
    skb.data = d ∧ skb.decrypted = ieee80211HasProtected (frameControl d) ∧
      i = if ieee80211IsDataQos (frameControl d) then qosCtlTid d else numRxDataQueues := by
  obtain ⟨s, hcb, hcheck⟩ := Option.bind_eq_some_iff.mp h
  have hs : s.data = d ∧ s.decrypted = ieee80211HasProtected (frameControl d) := by
    unfold atbmRxCb at hcb
    split_ifs at hcb
    cases hcb
    exact ⟨rfl, rfl⟩
  unfold Handlers.atCheck at hcheck
  dsimp only at hcheck
  split_ifs at hcheck
  obtain ⟨s', hprep, heq⟩ := Option.map_eq_some_iff.mp hcheck
  obtain ⟨rfl, rfl⟩ := Prod.mk.inj heq
  obtain ⟨hp1, hp2⟩ := prepareForHandlers_spec hprep
  obtain ⟨hq1, hq2, hq3⟩ := ieee80211ParseQos_spec s
  refine ⟨hp1.trans (hq1.trans hs.1), hp2.trans (hq2.trans hs.2), ?_⟩
  rw [hq3, hs.1]

theorem arrive_idx {linearize : Bool} {i : ℕ} (h : (r.arrive linearize d).2 = some i) :
    i = if ieee80211IsDataQos (frameControl d) then qosCtlTid d else numRxDataQueues := by
  unfold Receiver.arrive at h
  cases hcheck : receivedAtCheck linearize r.vif 0 d with
  | none =>
    rw [hcheck] at h
    cases h
  | some c =>
    obtain ⟨skb, j⟩ := c
    rw [hcheck] at h
    dsimp only at h
    have hj := (received_spec hcheck).2.2
    split at h
    · split_ifs at h
      cases h
      exact hj
    · dsimp only at h
      split_ifs at h
      cases h
      exact hj

theorem keeps_arrive (r : Receiver w) (linearize : Bool) (d : List UInt8) :
    Keeps p r (r.arrive linearize d).1 ∧ (r.arrive linearize d).1.tmo = r.tmo ∧
      ∀ addr tid, (r.arrive linearize d).1.session addr tid = r.session addr tid := by
  unfold Receiver.arrive
  cases hcheck : receivedAtCheck linearize r.vif 0 d with
  | none => exact ⟨.refl r, rfl, fun _ _ => rfl⟩
  | some c =>
    obtain ⟨skb, j⟩ := c
    dsimp only
    cases hs : r.sta (etherAddrAt d 10) with
    | none => exact ⟨.refl r, rfl, fun _ _ => rfl⟩
    | some s =>
      obtain ⟨info', hinfo, henc, htype, hauth⟩ := @check_info s.info j d
      dsimp only
      rw [hinfo, Option.map_some]
      have hsession : ∀ addr tid, Receiver.session { r with
          sta := Function.update r.sta (etherAddrAt d 10) (some { s with info := info' }) } addr tid =
          r.session addr tid := by
        intro addr tid
        unfold Receiver.session
        by_cases haddr : addr = etherAddrAt d 10
        · subst haddr
          simp [hs]
        · simp [Function.update_of_ne haddr]
      refine ⟨⟨hsession _ _, .refl _, fun all hk s' hs' => ?_, rfl⟩, rfl, hsession⟩
      by_cases haddr : p.addr.bytes = etherAddrAt d 10
      · rw [haddr] at hs'
        obtain rfl : { s with info := info' } = s' := by simpa using hs'
        obtain ⟨hkeyed, hlets⟩ := hk s (haddr ▸ hs)
        refine ⟨fun key hkey => ?_, fun ha => ?_⟩
        · obtain ⟨h1, h2, h3⟩ := hkeyed key hkey
          exact ⟨h1, henc.trans h2, htype.trans h3⟩
        · obtain ⟨h1, h2, h3⟩ := hlets ha
          exact ⟨hauth.trans h1, fun hc => ⟨henc.trans (h2 hc).1, (h2 hc).2⟩, h3⟩
      · dsimp only at hs'
        rw [Function.update_of_ne haddr] at hs'
        exact hk s' hs'

/-! ### The reorder buffer -/

theorem sessionOf_none (h : ¬ (ieee80211IsDataQos (frameControl d) = true ∧
    frameControl d &&& 0x0040 = 0)) : r.sessionOf d = none := if_neg h

theorem keeps_reorder (hother : p.Owns d → r.sessionOf d = none) :
    Keeps p r (r.rxReorderAmpdu now ⟨d⟩).1 := by
  unfold Receiver.rxReorderAmpdu
  cases hs : r.sessionOf d with
  | none => exact .refl r
  | some t =>
    have hqos : ieee80211IsDataQos (frameControl d) = true := by
      by_contra hno
      rw [sessionOf_none fun h => hno h.1] at hs
      cases hs
    have hne : ¬ (p.addr.bytes = etherAddrAt d 10 ∧ p.tid = qosCtlTid d) := by
      rintro ⟨haddr, htid⟩
      rw [hother ⟨haddr.symm, hqos, htid.symm⟩] at hs
      cases hs
    dsimp only
    split_ifs
    · exact keeps_setSession hne _
    · have hk := @keeps_setSession _ _ r _ _ hne
        (ieee80211StaManageReorderBuf (updateTimeout r.tmo ⟨d⟩) now (resetSessionTimer now t) ⟨d⟩ []).agg
      exact ⟨hk.session, hk.iface, hk.knows, hk.got⟩

theorem not_called {linearize : Bool} {i : ℕ} (hi : (r.arrive linearize d).2 = some i)
    (hnot : ¬ p.Owns d) (haddr : etherAddrAt d 10 = p.addr.bytes) : i ≠ p.tid := by
  rw [arrive_idx hi]
  split_ifs with hqos
  · exact fun htid => hnot ⟨haddr, hqos, htid⟩
  · have := p.tid_lt
    unfold numRxDataQueues
    omega

/-! ### The position of an MPDU -/

theorem Peer.Mpdu.seqNum (h : p.Mpdu k d) : mpduSeqNum ⟨d⟩ = (p.ssn + k) % 0x1000 := by
  have hmask : 16 * ((p.ssn + k) % 0x1000) &&& 0xfff0 = 16 * ((p.ssn + k) % 0x1000) := by
    have hshift : 16 * ((p.ssn + k) % 0x1000) = ((p.ssn + k) % 0x1000) <<< 4 := by
      rw [Nat.shiftLeft_eq]
      omega
    have hconst : (0xfff0 : ℕ) = 0xfff <<< 4 := rfl
    rw [hshift, hconst, ← Nat.shiftLeft_and_distrib]
    congr 1
    exact Nat.and_two_pow_sub_one_of_lt_two_pow (n := 12) (Nat.mod_lt _ (by decide))
  unfold mpduSeqNum
  rw [h.seq, hmask, Nat.shiftRight_eq_div_pow]
  omega

theorem Peer.Mpdu.no_fragment (h : p.Mpdu k d) : seqCtrl d &&& 0x000f = 0 := by
  have hmod : (0x000f : ℕ) = 2 ^ 4 - 1 := rfl
  rw [h.seq, hmod, Nat.and_two_pow_sub_one_eq_mod]
  omega

/-- **A new MPDU is put at its number.** -/
theorem position_mpdu {o : Obs w} {W : Window SkBuff} (hW : Follows o W) (hssn : o.agg.ssn = p.ssn)
    (h : p.Mpdu k d) (hlo : o.pos ≤ k + 0x7ff) (hhi : k ≤ o.pos + 0x800)
    (hnew : o.isNew ⟨d⟩ = true) : o.position ⟨d⟩ = k := by
  have hhead : o.agg.headSeqNum = (p.ssn + o.pos) % 0x1000 := by
    rw [hW.refines.head, hW.pos, hssn]
  have hless : ¬ 0x800 < seqSub (mpduSeqNum ⟨d⟩) o.agg.headSeqNum := by
    unfold Obs.isNew at hnew
    intro hlt
    rw [(seqLess_iff _ _).mpr hlt] at hnew
    cases hnew
  unfold Obs.position
  rw [h.seqNum, hhead] at hless ⊢
  unfold seqSub at hless ⊢
  omega

/-! ### The invariant -/

/-- **The session of the peer is that of the observation**, and what the network stack has got are frames
that the session has handed on. -/
structure Inv (p : Peer) (all : Prop) (s : Watch w) : Prop where
  follows : ∃ W, Follows s.obs W
  counted : Counted s.obs.agg
  session : s.rx.session p.addr.bytes p.tid = some s.obs.agg
  ssn : s.obs.agg.ssn = p.ssn
  tmo : s.obs.tmo = s.rx.tmo
  addr : s.rx.vif.addr = p.own
  type : s.rx.vif.type = p.iftype
  knows : s.rx.Knows p all
  mpdus : ∀ x ∈ s.obs.received, p.Mpdu x.1 x.2.data
  got : ∃ ks : List ℕ, ks.Sublist (s.obs.handed.map Prod.fst) ∧ p.got s.rx = ks.map p.frame ∧
    (all → ks = s.obs.handed.map Prod.fst)

variable {s t : Watch w} {o o' : Obs w} {W W' : Window SkBuff}

theorem inv_start (h : Starts p s) (hlets : all → p.LetBy s.rx) : Inv p all s := by
  obtain ⟨⟨now, sta, req, haddba⟩, -, -, -, hreceived, hhanded⟩ := h.obs
  have hknows : s.rx.Knows p all := fun sta hs => ⟨h.keyed sta hs, fun ha => hlets ha sta hs⟩
  refine ⟨⟨_, follows_init h.obs⟩, counted_addba haddba, h.session, h.ssn, h.tmo, h.addr, h.type,
    hknows, ?_, [], List.nil_sublist _, ?_, fun _ => ?_⟩
  · rw [hreceived]
    exact List.forall_mem_nil _
  · unfold Peer.got
    rw [h.calls]
    rfl
  · rw [hhanded]
    rfl

theorem follows_tmo (h : Follows o W) (tmo : ReorderTimeout) : Follows { o with tmo := tmo } W :=
  ⟨h.refines, h.sized, h.pos, h.handed, h.unwrapped, h.kept⟩

theorem follows_resetSessionTimer (h : Follows o W) (now : BitVec w) :
    Follows { o with agg := resetSessionTimer now o.agg } W := by
  unfold resetSessionTimer
  split_ifs
  · exact ⟨⟨h.refines.head, h.refines.held, h.refines.beyond, h.refines.within, h.refines.seq⟩,
      h.sized, h.pos, h.handed, h.unwrapped, h.kept⟩
  · exact h

theorem counted_resetSessionTimer {t : TidAmpduRx w} (h : Counted t) (now : BitVec w) :
    Counted (resetSessionTimer now t) ∧ (resetSessionTimer now t).ssn = t.ssn := by
  unfold resetSessionTimer
  split_ifs
  · exact ⟨h.congr rfl rfl rfl h.head, rfl⟩
  · exact ⟨h, rfl⟩

theorem Inv.keeps (h : Inv p all ⟨r, o⟩) (hk : Keeps p r r') :
    Inv p all ⟨r', { o with tmo := r'.tmo }⟩ := by
  obtain ⟨W, hW⟩ := h.follows
  exact ⟨⟨W, follows_tmo hW _⟩, h.counted, hk.session.trans h.session, h.ssn, rfl, hk.iface.addr.trans h.addr,
    hk.iface.type.trans h.type, hk.knows all h.knows, h.mpdus, by rw [hk.got]; exact h.got⟩

/-- What is left of the receiver when the session of the peer has handed on frames, before they are
handled. -/
structure Released (p : Peer) (all : Prop) (r r' : Receiver w) (o' : Obs w) : Prop where
  vif : r'.vif = r.vif
  calls : r'.calls = r.calls
  knows : r'.Knows p all
  session : r'.session p.addr.bytes p.tid = some o'.agg
  tmo : o'.tmo = r'.tmo

/-- **The frames that the session hands on are handled.** -/
theorem Inv.handled (h : Inv p all ⟨r, o⟩) {r₁ : Receiver w} {L : List (ℕ × SkBuff)}
    (hrun : r₁.handle p.addr.bytes p.tid env (L.map Prod.snd) = some r')
    (hlin : all → ∀ n, (env n).linearize = true) (hr : Released p all r r₁ o')
    (hW : Follows o' W') (hc : Counted o'.agg)
    (hssn : o'.agg.ssn = p.ssn) (hhanded : o'.handed = o.handed ++ L)
    (hmpdus : ∀ x ∈ o'.received, p.Mpdu x.1 x.2.data) : Inv p all ⟨r', o'⟩ := by
  obtain ⟨vif, out, hout, rfl⟩ := Receiver.handle_eq_some hrun
  obtain ⟨sta, hsta, -⟩ := Receiver.session_eq_some hr.session
  have hL : ∀ x ∈ L, p.Mpdu x.1 x.2.data := fun x hx =>
    hmpdus x ((hW.kept x).mpr (Or.inl (hhanded ▸ List.mem_append_right _ hx)))
  have haddr : r₁.vif.addr = p.own := by rw [hr.vif, h.addr]
  have htype : r₁.vif.type = p.iftype := by rw [hr.vif, h.type]
  have hiface := iface_rxHandlers hout
  rw [hsta, Option.map_some] at hout
  obtain ⟨hkeyed, hlets⟩ := hr.knows sta hsta
  have hall : all → p.Lets r₁.vif.apEnc sta.info ∧ ∀ n, (env n).linearize = true :=
    fun ha => ⟨hlets ha, hlin ha⟩
  obtain ⟨new, hnew, rfl, hnewAll⟩ := handled_mpdus hkeyed haddr htype hL hall hout
  obtain ⟨ks, hks, hgot, hsame⟩ := h.got
  refine ⟨⟨_, hW⟩, hc, hr.session, hssn, hr.tmo, hiface.addr.trans haddr, hiface.type.trans htype,
    hr.knows.congr hiface.apEnc rfl, hmpdus, ks ++ new, ?_, ?_, fun ha => ?_⟩
  · show (ks ++ new).Sublist (o'.handed.map Prod.fst)
    rw [hhanded, List.map_append]
    exact hks.append hnew
  · show p.got { r₁ with vif := vif, calls := r₁.calls ++ [_] } = _
    rw [got_append, if_pos ⟨rfl, rfl⟩, List.map_append]
    have hcalls : p.got r₁ = p.got r := by
      unfold Peer.got
      rw [hr.calls]
    rw [hcalls, hgot]
  · rw [hsame ha, hnewAll ha, hhanded, List.map_append]

theorem map_snd_position (o : Obs w) (fs : List SkBuff) :
    (fs.map fun f => (o.position f, f)).map Prod.snd = fs := by
  rw [List.map_map]
  exact List.map_id fs

/-- **An MPDU of the peer** comes to the session. -/
theorem Inv.frame (h : Inv p all ⟨r, o⟩) (hmpdu : p.Mpdu k d) (hlo : o.pos ≤ k + 0x7ff)
    (hhi : k ≤ o.pos + 0x800) (hlin : all → ∀ n, (env n).linearize = true)
    (hrun : (r.rxReorderAmpdu now ⟨d⟩).1.handle p.addr.bytes p.tid env
      (r.rxReorderAmpdu now ⟨d⟩).2 = some r')
    (hobs : Obs.step { o with agg := resetSessionTimer now o.agg } (.frame ⟨d⟩ now) = some o') :
    Inv p all ⟨r', o'⟩ := by
  obtain ⟨W, hW⟩ := h.follows
  have hreset := follows_resetSessionTimer hW now
  obtain ⟨hc, hssn⟩ := counted_resetSessionTimer h.counted now
  obtain ⟨W', hW'⟩ := hreset.frame hmpdu.not_eapol hobs
  have haddr : etherAddrAt d 10 = p.addr.bytes := hmpdu.addressed.transmitter
  have hsession : r.sessionOf d = some o.agg := by
    unfold Receiver.sessionOf
    rw [if_pos ⟨hmpdu.isDataQos, hmpdu.not_null⟩, haddr, hmpdu.tid]
    exact h.session
  have htmo : o.tmo = r.tmo := h.tmo
  have hmanage := disposes_manage (updateTimeout r.tmo ⟨d⟩) now hc ⟨d⟩ []
  have hposition := position_mpdu hreset (hssn.trans h.ssn) hmpdu hlo hhi
  unfold Receiver.rxReorderAmpdu at hrun
  rw [hsession] at hrun
  dsimp only at hrun
  rw [if_neg (not_not.mpr hmpdu.no_fragment), haddr, hmpdu.tid] at hrun
  unfold Obs.step at hobs
  dsimp only at hobs
  rw [htmo] at hobs
  generalize ieee80211StaManageReorderBuf (updateTimeout r.tmo ⟨d⟩) now
    (resetSessionTimer now o.agg) ⟨d⟩ [] = m at hrun hobs hmanage
  rw [← map_snd_position { o with agg := resetSessionTimer now o.agg } (m.handedOn ⟨d⟩)] at hrun
  obtain rfl := Option.some.inj hobs
  have hknows : (r.setSession p.addr.bytes p.tid m.agg).Knows p all := h.knows.setSession m.agg
  have hagg := Receiver.session_setSession h.session m.agg
  refine h.handled hrun hlin ⟨rfl, rfl, hknows, hagg, rfl⟩ hW' hmanage.counted
    (hmanage.ssn.trans (hssn.trans h.ssn)) rfl ?_
  intro x hx
  dsimp only at hx
  split_ifs at hx with hnew
  · rcases List.mem_append.mp hx with hx | hx
    · exact h.mpdus x hx
    · obtain rfl := List.mem_singleton.mp hx
      exact (congrArg (fun n => p.Mpdu n d) (hposition hnew)).mpr hmpdu
  · exact h.mpdus x hx

/-- **The reorder timer** of the session fires. -/
theorem Inv.expiry (h : Inv p all ⟨r, o⟩) (hlin : all → ∀ n, (env n).linearize = true)
    (hrun : r.releaseReorderTimeout env now p.addr.bytes p.tid = some r')
    (hobs : o.step (.expiry now) = some o') : Inv p all ⟨r', o'⟩ := by
  obtain ⟨W, hW⟩ := h.follows
  obtain ⟨W', hW'⟩ := hW.expiry hobs
  have hsession : r.session p.addr.bytes p.tid = some o.agg := h.session
  have htmo : o.tmo = r.tmo := h.tmo
  have hrelease := conserves_reorderRelease r.tmo now h.counted []
  unfold Receiver.releaseReorderTimeout at hrun
  rw [hsession] at hrun
  dsimp only at hrun
  unfold Obs.step at hobs
  dsimp only at hobs
  rw [htmo] at hobs
  generalize ieee80211StaReorderRelease r.tmo now o.agg [] = m at hrun hobs hrelease
  rw [← map_snd_position o m.2] at hrun
  obtain rfl := Option.some.inj hobs
  have hknows : (r.setSession p.addr.bytes p.tid m.1).Knows p all := h.knows.setSession m.1
  have hagg := Receiver.session_setSession hsession m.1
  exact h.handled hrun hlin ⟨rfl, rfl, hknows, hagg, htmo⟩ hW' hrelease.counted
    (hrelease.ssn.trans h.ssn) rfl h.mpdus

theorem IsNull.not_data (h : IsNull d) : frameControl d &&& 0x0040 ≠ 0 := by
  have hfc : frameControl d &&& 0x00fc = 0x00c8 := beq_iff_eq.mp h.1
  have hbit : frameControl d &&& 0x0040 = 0x0040 := mask_part hfc rfl
  rw [hbit]
  decide

theorem rxHandlers_null (hnull : IsNull d)
    (h : rxHandlers (some info) env vif [⟨d⟩] = some (vif', out)) : out = [] := by
  rcases rxHandlers_cons h with ⟨-, hrest⟩ | ⟨skb, i, rx, out', hcheck, hrx, hrest, rfl⟩
  · cases hrest
    rfl
  · cases hrest
    obtain ⟨hdata, hdec, -⟩ := received_spec hcheck
    rw [handled_null hnull hdata (hdec.trans hnull.2) hrx]
    rfl

theorem Inv.other_frame (h : Inv p all ⟨r, o⟩) {linearize : Bool}
    (hsound : p.Owns d → IsNull d) (hrun : r.ieee80211Rx linearize env now d = some r') :
    Inv p all ⟨r', { o with tmo := r'.tmo }⟩ := by
  obtain ⟨hk, -, hsessions⟩ := @keeps_arrive _ p r linearize d
  unfold Receiver.ieee80211Rx at hrun
  rcases harrive : r.arrive linearize d with ⟨r₁, _ | i⟩
  · rw [harrive] at hk hrun
    obtain rfl := Option.some.inj hrun
    exact h.keeps hk
  · have hi : (r.arrive linearize d).2 = some i := by rw [harrive]
    rw [harrive] at hk hrun hsessions
    dsimp only at hk hrun hsessions
    have hnone : p.Owns d → r₁.sessionOf d = none := by
      intro howns
      exact sessionOf_none fun hcomes => (hsound howns).not_data hcomes.2
    have hk₂ := hk.trans (@keeps_reorder _ p r₁ now d hnone)
    refine h.keeps (hk₂.trans (keeps_handle hrun fun haddr hidx vif out hout => ?_))
    -- a call for the peer is for one of its null frames
    by_cases howns : p.Owns d
    · have hreorder : r₁.rxReorderAmpdu now ⟨d⟩ = (r₁, [⟨d⟩]) := by
        unfold Receiver.rxReorderAmpdu
        rw [hnone howns]
      have hsession : r₁.session p.addr.bytes p.tid = some o.agg :=
        (hsessions _ _).trans h.session
      obtain ⟨sta, hsta, -⟩ := Receiver.session_eq_some hsession
      rw [hreorder, haddr] at hout
      dsimp only at hout
      rw [hsta] at hout
      exact rxHandlers_null (hsound howns) hout
    · exact absurd hidx (not_called hi howns haddr)

theorem Inv.own_frame (h : Inv p all ⟨r, o⟩) (hmpdu : p.Mpdu k d) (hlo : o.pos ≤ k + 0x7ff)
    (hhi : k ≤ o.pos + 0x800) (hlin : all → ∀ n, (env n).linearize = true) {linearize : Bool}
    (hgoes : (r.arrive linearize d).2.isSome = true)
    (hrun : r.ieee80211Rx linearize env now d = some r')
    (hobs : Obs.step { o with agg := resetSessionTimer now o.agg } (.frame ⟨d⟩ now) = some o') :
    Inv p all ⟨r', o'⟩ := by
  obtain ⟨hk, htmo, -⟩ := @keeps_arrive _ p r linearize d
  obtain ⟨i, hi⟩ := Option.isSome_iff_exists.mp hgoes
  have hidx : i = p.tid := by rw [arrive_idx hi, if_pos hmpdu.isDataQos, hmpdu.tid]
  unfold Receiver.ieee80211Rx at hrun
  rcases harrive : r.arrive linearize d with ⟨r₁, i'⟩
  rw [harrive] at hk htmo hi hrun
  dsimp only at hi
  subst hi
  dsimp only at hk htmo hrun
  have haddr : etherAddrAt d 10 = p.addr.bytes := hmpdu.addressed.transmitter
  rw [haddr, hidx] at hrun
  have hsame : ({ o with tmo := r₁.tmo } : Obs w) = o := by
    have : o.tmo = r.tmo := h.tmo
    rw [htmo, ← this]
  have h₁ := h.keeps hk
  rw [hsame] at h₁
  exact h₁.frame hmpdu hlo hhi hlin hrun hobs

theorem Inv.dropped (h : Inv p all ⟨r, o⟩) {linearize : Bool}
    (hdrop : (r.arrive linearize d).2 = none)
    (hrun : r.ieee80211Rx linearize env now d = some r') :
    Inv p all ⟨r', { o with tmo := r'.tmo }⟩ := by
  obtain ⟨hk, -, -⟩ := @keeps_arrive _ p r linearize d
  unfold Receiver.ieee80211Rx at hrun
  rcases harrive : r.arrive linearize d with ⟨r₁, i⟩
  rw [harrive] at hk hdrop hrun
  dsimp only at hdrop
  subst hdrop
  obtain rfl := Option.some.inj hrun
  exact h.keeps hk

theorem Inv.other_expiry (h : Inv p all ⟨r, o⟩) (hother : ¬ (addr = p.addr.bytes ∧ tid = p.tid))
    (hrun : r.releaseReorderTimeout env now addr tid = some r') : Inv p all ⟨r', o⟩ := by
  unfold Receiver.releaseReorderTimeout at hrun
  cases hs : r.session addr tid with
  | none =>
    rw [hs] at hrun
    obtain rfl := Option.some.inj hrun
    exact h
  | some t =>
    rw [hs] at hrun
    dsimp only at hrun
    have hne : ¬ (p.addr.bytes = addr ∧ p.tid = tid) := fun ⟨h1, h2⟩ => hother ⟨h1.symm, h2.symm⟩
    have hk := (keeps_setSession hne _).trans
      (keeps_handle hrun fun haddr hidx => absurd ⟨haddr, hidx⟩ hother)
    have htmo : r'.tmo = o.tmo := by
      obtain ⟨vif, out, -, rfl⟩ := Receiver.handle_eq_some hrun
      exact h.tmo.symm
    have hinv := h.keeps hk
    rwa [htmo] at hinv

/-- **Each step** keeps the invariant. -/
theorem inv_step {a : Act w} (h : Inv p all s) (hp : Sound p s a) (hlin : all → a.Linear)
    (ha : s.step p a = some t) : Inv p all t := by
  obtain ⟨r, o⟩ := s
  cases a with
  | frame d linearize env now =>
    obtain ⟨r', hrun, hrest⟩ := Option.bind_eq_some_iff.mp ha
    dsimp only at hrun hrest
    by_cases hcomes : Watch.comes p ⟨r, o⟩ linearize d = true
    · rw [if_pos hcomes] at hrest
      obtain ⟨o', hobs, rfl⟩ := Option.map_eq_some_iff.mp hrest
      unfold Watch.comes at hcomes
      simp only [Bool.and_eq_true, decide_eq_true_eq, beq_iff_eq] at hcomes
      obtain ⟨⟨⟨hgoes, howns⟩, hnull⟩, -⟩ := hcomes
      rcases hp howns with ⟨k, hmpdu, hlo, hhi⟩ | hisNull
      · exact h.own_frame hmpdu hlo hhi hlin hgoes hrun hobs
      · exact absurd hnull hisNull.not_data
    · rw [if_neg hcomes] at hrest
      obtain rfl := Option.some.inj hrest
      by_cases howns : p.Owns d
      swap
      · exact h.other_frame (fun ho => absurd ho howns) hrun
      rcases hp howns with ⟨k, hmpdu, -, -⟩ | hisNull
      swap
      · exact h.other_frame (fun _ => hisNull) hrun
      -- the MPDU is dropped at its arrival
      refine h.dropped (Option.not_isSome_iff_eq_none.mp fun hgoes => hcomes ?_) hrun
      unfold Watch.comes
      simp only [Bool.and_eq_true, decide_eq_true_eq, beq_iff_eq]
      exact ⟨⟨⟨hgoes, howns⟩, hmpdu.not_null⟩, hmpdu.no_fragment⟩
  | expiry addr tid env now =>
    obtain ⟨r', hrun, hrest⟩ := Option.bind_eq_some_iff.mp ha
    dsimp only at hrun hrest
    by_cases hown : addr = p.addr.bytes ∧ tid = p.tid
    · obtain ⟨rfl, rfl⟩ := hown
      rw [if_pos ⟨rfl, rfl⟩] at hrest
      obtain ⟨o', hobs, rfl⟩ := Option.map_eq_some_iff.mp hrest
      exact h.expiry hlin hrun hobs
    · rw [if_neg hown] at hrest
      obtain rfl := Option.some.inj hrest
      exact h.other_expiry hown hrun

/-! ### The frames in order -/

theorem Inv.handed (h : Inv p all s) : (s.obs.handed.map Prod.fst).Pairwise (· < ·) ∧
    ∀ k ∈ s.obs.handed.map Prod.fst, ∃ d, (k, ⟨d⟩) ∈ s.obs.received ∧ p.Mpdu k d := by
  obtain ⟨W, hW⟩ := h.follows
  refine ⟨List.pairwise_map.mpr hW.handed.sorted, fun k hk => ?_⟩
  obtain ⟨⟨k', skb⟩, hx, rfl⟩ := List.mem_map.mp hk
  have hmem : (k', skb) ∈ s.obs.received := (hW.kept _).mpr (Or.inl hx)
  exact ⟨skb.data, hmem, h.mpdus _ hmem⟩

/-- A frame waits in its slot. -/
def Waits (s : Watch w) (k : ℕ) : Prop :=
  s.obs.pos ≤ k ∧ k < s.obs.pos + s.obs.agg.bufSize ∧
    ∃ d, (k, ⟨d⟩) ∈ s.obs.received ∧ s.obs.agg.reorderBuf (k % s.obs.agg.bufSize) = some ⟨d⟩

/-- Its frames, of 16 bytes, go to another station. -/
def upFrame (k : ℕ) : List UInt8 :=
  [2, 0, 0, 0, 0, 0x33, 2, 0, 0, 0, 0, 0x31, 0x08, 0x00, UInt8.ofNat k, 0xee]

def upPeer : Peer where
  addr := ⟨[2, 0, 0, 0, 0, 0x31], rfl⟩
  tid := 5
  tid_lt := by decide
  ssn := 0
  cipher := some .aes
  frame := upFrame
  own := ⟨[2, 0, 0, 0, 0, 0x32], rfl⟩
  iftype := .ap

/-- The MPDU of frame `k`. -/
def upMpdu (k : ℕ) : List UInt8 :=
  [0x88, 0x41, 0, 0, 2, 0, 0, 0, 0, 0x32, 2, 0, 0, 0, 0, 0x31, 2, 0, 0, 0, 0, 0x33,
    UInt8.ofNat (16 * k), 0, 5, 0] ++
    (List.replicate 8 0x20 ++ (Ether.msdu (upFrame k) ++ List.replicate 8 0x11))

/-- The AP, with a session of 8 slots. -/
def upWatch : Watch 32 where
  rx :=
    { vif := ⟨⟨.ap, fun _ => ⟨[], 1⟩⟩, upPeer.own, .unset, true⟩
      tmo := reorderTimeoutInit
      sta := fun a => if a = upPeer.addr.bytes then
          some ⟨⟨true, true, true, .aes, fun _ => 0xffff⟩, fun tid =>
            if tid = 5 then some freshSession else none⟩
        else none
      calls := [] }
  obs := ⟨reorderTimeoutInit, freshSession, 0, [], []⟩

def upAct (k : ℕ) : Act 32 := .frame (upMpdu k) true (fun _ => ⟨true, fun _ => true⟩) 0

theorem upMpdu_mpdu : ∀ k < 4, upPeer.Mpdu k (upMpdu k) := by
  intro k hk
  have hfour : ∀ k < 4, frameControl (upMpdu k) = 0x4188 ∧ isMulticastEtherAddr (upMpdu k) = false ∧
      etherAddrAt (upMpdu k) 4 = upPeer.own.bytes ∧ etherAddrAt (upMpdu k) 10 = upPeer.addr.bytes ∧
      etherAddrAt (upFrame k) 0 = etherAddrAt (upMpdu k) 16 ∧
      etherAddrAt (upFrame k) 6 = etherAddrAt (upMpdu k) 10 ∧ seqCtrl (upMpdu k) = 16 * k ∧
      qosCtlTid (upMpdu k) = 5 ∧ byteAt (upMpdu k) 24 = 5 ∧ (upMpdu k).length = 52 ∧
      Ether.ethertype (upFrame k) = 0x800 ∧ isEapol ⟨upMpdu k⟩ = false := by decide +kernel
  obtain ⟨hfc, huni, h4, h10, hda, hsa, hseq, htid, hqc, hlen, htype, heapol⟩ := hfour k hk
  refine ⟨⟨_, _, _, rfl, rfl, rfl, rfl⟩, by omega, by rw [hfc]; decide, by rw [hfc]; rfl,
    ⟨huni, h4, h10, Or.inr ⟨rfl, by rw [hfc]; decide, hda, hsa⟩⟩, ?_, htid, by rw [hqc]; rfl, ?_, ?_⟩
  · rw [hseq]
    show 16 * k = 16 * ((0 + k) % 0x1000)
    omega
  · show 14 ≤ (upFrame k).length ∧ 0x600 ≤ Ether.ethertype (upFrame k)
    have hframe : (upFrame k).length = 16 := rfl
    rw [htype, hframe]
    decide
  · rw [heapol]
    exact Bool.false_ne_true

theorem upWatch_starts : Starts upPeer upWatch ∧ upPeer.LetBy upWatch.rx := by
  have hsta : ∀ s, upWatch.rx.sta upPeer.addr.bytes = some s →
      s.info = ⟨true, true, true, .aes, fun _ => 0xffff⟩ := by
    intro s hs
    cases hs
    rfl
  refine ⟨⟨⟨⟨0, ⟨false, 0⟩, ⟨0x0202, 0, 0⟩, freshSession_eq⟩, by decide, by decide, rfl, rfl, rfl⟩,
    rfl, rfl, rfl, rfl, rfl, fun s hs key hkey => ?_, rfl⟩, fun s hs => ?_⟩
  · obtain rfl := Option.some.inj hkey
    rw [hsta s hs]
    exact ⟨Or.inr (Or.inr rfl), rfl, rfl⟩
  · rw [hsta s hs]
    exact ⟨rfl, nofun, nofun⟩

theorem reach_first {s t : Watch w} {a : Act w} (hs : Starts p s) (ha : Sound p s a)
    (hstep : s.step p a = some t) : Reach (system w p) (Sound p) t :=
  .step (.init hs) ha hstep

theorem reach_first_open {s t : Watch w} {a : Act w} (hs : Starts p s ∧ p.LetBy s.rx)
    (ha : Sound p s a ∧ a.Linear) (hstep : s.step p a = some t) :
    Reach (openSystem w p) (fun s a => Sound p s a ∧ a.Linear) t :=
  .step (.init hs) ha hstep

theorem upAct_sound (k : ℕ) (hk : k < 4) : Sound upPeer upWatch (upAct k) := fun _ =>
  Or.inl ⟨k, upMpdu_mpdu k hk, Nat.zero_le _, by show k ≤ 0 + 0x800; omega⟩

end Atbm6441.Rx.Air
