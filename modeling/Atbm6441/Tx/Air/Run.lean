import Atbm6441.Tx.Air.Read

/-!
# Ethernet frames arrive

Whatever the bottom half does between the calls, and whatever commands come in between: the frames
that the receiver hears are Ethernet frames that were accepted, in their order and each once
(`delivered`). What is missing was in a transfer that was not written, or is still in the queue.
-/

namespace Atbm6441.Tx.Air

open Atbm6441.Lib Atbm6441.Wsm
open Atbm6441.Ieee80211 (byteAt)
open Atbm6441.Ether (TxVif)
open Atbm6441.Sdio.TxBh (Msg Bh Round Stop)
open Atbm6441.Tx.Xmit (SkBuff AtbmVif encrypts)

/-! ### What is offered -/

variable {p : Peer} {eth : TxVif} {sizeInpChBuf n : ℕ} {m : Msg} {l : List UInt8}

/-- What the receiver hears of a message. -/
def Peer.hearing (p : Peer) (m : Msg) : Option (List UInt8) := p.hears (m.bytes 0)

/-- A frame is heard alike with any number. -/
def Steady (p : Peer) (m : Msg) : Prop :=
  isTx m.id = true → ∀ n l, m.ReadAs n l → p.hears l = p.hearing m

theorem Carries.steady {f : List UInt8} (h : Carries p f m) (hlinear : ∃ data, m.body = .linear data) :
    p.hearing m = some f ∧ Steady p m := by
  obtain ⟨data, hbody⟩ := hlinear
  have hbytes : (m.bytes 0).length = m.len.toNat := by
    have hle := m.hdr_le
    unfold Msg.bytes Msg.pieces
    rw [hbody]
    dsimp only
    rw [List.flatten_singleton, List.length_append, Sdio.TxBh.length_hdr, length_slice]
    omega
  have hself : m.ReadAs 0 (m.bytes 0) :=
    @Sdio.TxBh.readAs_of m 0 _ (List.prefix_refl _) hbytes
  have hhear : p.hearing m = some f := h.hears 0 _ hself
  exact ⟨hhear, fun _ n l hread => (h.hears n l hread).trans hhear.symm⟩

/-- The messages with frames. -/
def txOnly (ms : List Msg) : List Msg := ms.filter fun m => isTx m.id

/-- The Ethernet frames that are accepted. -/
def accepted (os : List Offer) : List (List UInt8) := os.filterMap Offer.frame

/-- **One offer**: its message, if there is one, is heard as its frame, if it has one. -/
theorem offer_spec (hlink : Ether.Link eth p.iftype) (hsize : sizeInpChBuf ≤ 32768) {o : Offer}
    (ho : o.Sound p eth sizeInpChBuf) :
    (∀ m, o.msg = some m → m.txed = false ∧ m.len.toNat ≤ sizeInpChBuf ∧ Steady p m) ∧
      (txOnly o.msg.toList).map p.hearing = o.frame.toList.map some := by
  cases o with
  | noAck c =>
    have hno : isTx c.msg.id = false := c.not_tx
    refine ⟨?_, ?_⟩
    · rintro m ⟨rfl⟩
      refine ⟨rfl, ho, fun htx => ?_⟩
      rw [show isTx _ = _ from hno] at htx
      cases htx
    · simp [Offer.msg, Offer.frame, txOnly, hno]
  | xmit vif env skb =>
    have ha : Arrives p eth sizeInpChBuf vif env skb := ho
    rcases hq : (Xmit.atbmSubifStartXmit vif env skb).queued with _ | out
    · have hmsg : (Offer.xmit vif env skb).msg = none := by rw [Offer.msg, hq]; rfl
      have hframe : (Offer.xmit vif env skb).frame = none := by rw [Offer.frame, hq]; rfl
      rw [hmsg, hframe]
      exact ⟨fun m hm => (by cases hm), rfl⟩
    · have hlen := ha.len
      obtain ⟨hdr, hrefines⟩ := Xmit.refines_of_queued ha.head (by omega) ha.room hq
      obtain ⟨m, hm, hle, hcarries⟩ := carries_of_refines hlink ha hrefines
      have hmsg : (Offer.xmit vif env skb).msg = some m := by
        rw [Offer.msg, hq]
        exact hm
      have hframe : (Offer.xmit vif env skb).frame = some skb.bytes := by
        rw [Offer.frame, hq]
        rfl
      have hlinear : ∃ data, m.body = .linear data := by
        unfold msgOf at hm
        split_ifs at hm
        cases hm
        exact ⟨_, rfl⟩
      obtain ⟨hhear, hsteady⟩ := hcarries.steady hlinear
      rw [hmsg, hframe]
      refine ⟨?_, ?_⟩
      · rintro m' ⟨rfl⟩
        exact ⟨(msgOf_fields hm).2.2, hle, hsteady⟩
      · simp [txOnly, hcarries.tx, hhear]

theorem offered_spec (hlink : Ether.Link eth p.iftype) (hsize : sizeInpChBuf ≤ 32768)
    {os : List Offer} (hos : ∀ o ∈ os, o.Sound p eth sizeInpChBuf) :
    (∀ m ∈ queued os, m.txed = false ∧ m.len.toNat ≤ sizeInpChBuf ∧ Steady p m) ∧
      (txOnly (queued os)).map p.hearing = (accepted os).map some := by
  constructor
  · intro m hm
    obtain ⟨o, ho, hmsg⟩ := List.mem_filterMap.mp hm
    exact (offer_spec hlink hsize (hos o ho)).1 m hmsg
  · induction os with
    | nil => rfl
    | cons o os ih =>
      have hfirst := (offer_spec hlink hsize (hos o List.mem_cons_self)).2
      have hrest := ih fun o' ho' => hos o' (List.mem_cons_of_mem _ ho')
      have hq : queued (o :: os) = o.msg.toList ++ queued os := by
        rw [queued, List.filterMap_cons]
        cases o.msg <;> rfl
      have hf : accepted (o :: os) = o.frame.toList ++ accepted os := by
        rw [accepted, List.filterMap_cons]
        cases o.frame <;> rfl
      rw [hq, hf, txOnly, List.filter_append, List.map_append, List.map_append]
      exact congrArg₂ _ hfirst hrest

/-! ### The rounds of the loop -/

/-- How a round ends: without a message nothing is packed. -/
inductive RoundEnd (s : Bh) (r : Round) : Option Stop × Bh → Prop
  | bug (u : Bh) : RoundEnd s r (some .bug, u)
  | noSpace (u : Bh) (h : u.packed = s.packed) : RoundEnd s r (some .noSpace, u)
  | noMsg (u : Bh) (hmsg : r.msg = none) (h : u.packed = s.packed) : RoundEnd s r (some .noMsg, u)
  | packed (stop : Option Stop) (u : Bh) (m : Msg) (hmsg : r.msg = some m)
      (hstop : stop ≠ some .noSpace)
      (h : u.packed.map Sdio.TxBh.Packed.msg = s.packed.map Sdio.TxBh.Packed.msg ++ [m]) :
      RoundEnd s r (stop, u)

theorem round_end (s : Bh) (sizeInpChBuf : ℕ) (r : Round) :
    RoundEnd s r (s.round sizeInpChBuf r) := by
  rcases r with ⟨hwXmits, _ | m⟩
  · unfold Bh.round
    dsimp only
    split_ifs
    · exact .bug _
    · exact .noMsg _ rfl rfl
    · exact .noSpace _ rfl
  · unfold Bh.round Bh.pack
    dsimp only
    split_ifs
    · exact .bug _
    · exact .bug _
    · exact .packed _ _ m rfl (by simp) (by simp [Bh.copied, Bh.checked])
    · exact .packed _ _ m rfl (by simp) (by simp [Bh.copied, Bh.checked])
    · exact .packed _ _ m rfl (by simp) (by simp [Bh.copied, Bh.checked])
    · exact .noSpace _ rfl

/-- The messages that come from the queue. -/
def fromQueue (ms : List Msg) : List Msg := ms.filter fun m => !m.txed

theorem get_spec (cmd : Option Command) {queue : List Msg} (hq : ∀ m ∈ queue, m.txed = false) :
    fromQueue (wsmGetTx cmd queue).1.toList ++ (wsmGetTx cmd queue).2 = queue ∧
      ∀ m, (wsmGetTx cmd queue).1 = some m →
        m.txed = false ∧ m ∈ queue ∨
          ∃ c, cmd = some c ∧ m.txed = true ∧ m.len = c.msg.len ∧ m.id = c.msg.id := by
  cases cmd with
  | some c =>
    refine ⟨rfl, ?_⟩
    rintro m ⟨rfl⟩
    exact Or.inr ⟨c, rfl, rfl, rfl, rfl⟩
  | none =>
    cases queue with
    | nil => exact ⟨rfl, nofun⟩
    | cons m queue =>
      have hm := hq m List.mem_cons_self
      refine ⟨?_, ?_⟩
      · simp [wsmGetTx, fromQueue, hm]
      · rintro m' ⟨rfl⟩
        exact Or.inl ⟨hm, List.mem_cons_self⟩

theorem queued_append (os os' : List Offer) : queued (os ++ os') = queued os ++ queued os' :=
  List.filterMap_append

theorem txed_of_queued {os : List Offer} (hm : m ∈ queued os) : m.txed = false := by
  obtain ⟨o, -, hmsg⟩ := List.mem_filterMap.mp hm
  cases o with
  | noAck c =>
    obtain rfl := Option.some.inj hmsg
    rfl
  | xmit vif env skb =>
    obtain ⟨out, -, hm⟩ := Option.bind_eq_some_iff.mp hmsg
    exact (msgOf_fields hm).2.2

/-- A message that is fetched: it was in the queue, was offered, or is a command. -/
def Fetched (queue : List Msg) (ts : List Turn) (m : Msg) : Prop :=
  m.txed = false ∧ m ∈ queue ++ queued (ts.flatMap Turn.offers) ∨
    ∃ t ∈ ts, ∃ c, t.cmd = some c ∧ m.txed = true ∧ m.len = c.msg.len ∧ m.id = c.msg.id

theorem fetch_next {s u : Bh} {queue : List Msg} {t : Turn} (ts : List Turn)
    (h : s.round sizeInpChBuf ⟨t.hwXmits, (wsmGetTx t.cmd (queue ++ queued t.offers)).1⟩ =
      (none, u)) : fetch sizeInpChBuf s queue (t :: ts) =
    (⟨t.hwXmits, (wsmGetTx t.cmd (queue ++ queued t.offers)).1⟩ ::
        (fetch sizeInpChBuf u (wsmGetTx t.cmd (queue ++ queued t.offers)).2 ts).1,
      (fetch sizeInpChBuf u (wsmGetTx t.cmd (queue ++ queued t.offers)).2 ts).2) := by
  rw [fetch]
  dsimp only
  rw [h]

theorem fetch_stop {s u : Bh} {queue : List Msg} {t : Turn} (ts : List Turn) {stop : Stop}
    (h : s.round sizeInpChBuf ⟨t.hwXmits, (wsmGetTx t.cmd (queue ++ queued t.offers)).1⟩ =
      (some stop, u)) : fetch sizeInpChBuf s queue (t :: ts) =
    ([⟨t.hwXmits, (wsmGetTx t.cmd (queue ++ queued t.offers)).1⟩],
      (if stop = .noSpace then queue ++ queued t.offers
        else (wsmGetTx t.cmd (queue ++ queued t.offers)).2) ++ queued (ts.flatMap Turn.offers)) := by
  rw [fetch]
  dsimp only
  rw [h]
  cases stop <;> rfl

/-- **The rounds** take the queue from its front: what is packed, without the commands, and the queue
behind it are the queue before and what was offered. -/
theorem fetch_spec {s : Bh} {queue : List Msg} {ts : List Turn}
    (hq : ∀ m ∈ queue, m.txed = false) :
    (∀ r ∈ (fetch sizeInpChBuf s queue ts).1, ∀ m, r.msg = some m → Fetched queue ts m) ∧
    ∀ stop u, s.loop sizeInpChBuf (fetch sizeInpChBuf s queue ts).1 = (some stop, u) →
      stop ≠ .bug → ∃ new, u.packed.map Sdio.TxBh.Packed.msg =
        s.packed.map Sdio.TxBh.Packed.msg ++ new ∧
        fromQueue new ++ (fetch sizeInpChBuf s queue ts).2 =
          queue ++ queued (ts.flatMap Turn.offers) := by
  induction ts generalizing s queue with
  | nil =>
    refine ⟨nofun, fun stop u h => ?_⟩
    cases h
  | cons t ts ih =>
    have hq' : ∀ m ∈ queue ++ queued t.offers, m.txed = false := by
      intro m hm
      rcases List.mem_append.mp hm with hm | hm
      · exact hq m hm
      · exact txed_of_queued hm
    have hoffers : queue ++ queued ((t :: ts).flatMap Turn.offers) =
        queue ++ queued t.offers ++ queued (ts.flatMap Turn.offers) := by
      rw [List.flatMap_cons, queued_append, List.append_assoc]
    obtain ⟨hget, hmem⟩ := get_spec t.cmd hq'
    have hfirst : ∀ m, (wsmGetTx t.cmd (queue ++ queued t.offers)).1 = some m →
        Fetched queue (t :: ts) m := by
      intro m hm
      rcases hmem m hm with ⟨htxed, hin⟩ | ⟨c, hc⟩
      · exact Or.inl ⟨htxed, by rw [hoffers]; exact List.mem_append_left _ hin⟩
      · exact Or.inr ⟨t, List.mem_cons_self, c, hc⟩
    have hend := round_end s sizeInpChBuf
      ⟨t.hwXmits, (wsmGetTx t.cmd (queue ++ queued t.offers)).1⟩
    rcases hround : s.round sizeInpChBuf
      ⟨t.hwXmits, (wsmGetTx t.cmd (queue ++ queued t.offers)).1⟩ with ⟨_ | stop, u⟩
    · rw [hround] at hend
      obtain ⟨m, hmsg, hpacked⟩ : ∃ m, (wsmGetTx t.cmd (queue ++ queued t.offers)).1 = some m ∧
          u.packed.map Sdio.TxBh.Packed.msg = s.packed.map Sdio.TxBh.Packed.msg ++ [m] := by
        cases hend with
        | packed _ _ m hmsg _ hpacked => exact ⟨m, hmsg, hpacked⟩
      have hrest : ∀ m ∈ (wsmGetTx t.cmd (queue ++ queued t.offers)).2, m.txed = false :=
        fun m hm => hq' m (by rw [← hget]; exact List.mem_append_right _ hm)
      obtain ⟨hfetched, hloop⟩ := ih (s := u) hrest
      rw [fetch_next ts hround, hoffers]
      constructor
      · intro r hr m' hm'
        rcases List.mem_cons.mp hr with rfl | hr
        · exact hfirst m' hm'
        · rcases hfetched r hr m' hm' with ⟨htxed, hin⟩ | ⟨t', ht', hc⟩
          · refine Or.inl ⟨htxed, ?_⟩
            rw [hoffers, ← hget, List.append_assoc]
            exact List.mem_append_right _ hin
          · exact Or.inr ⟨t', List.mem_cons_of_mem _ ht', hc⟩
      · intro stop v h hstop
        rw [Bh.loop, hround] at h
        obtain ⟨new, hnew, haccount⟩ := hloop stop v h hstop
        refine ⟨m :: new, ?_, ?_⟩
        · rw [hnew, hpacked, List.append_assoc]
          rfl
        · have hsplit : fromQueue (m :: new) = fromQueue [m] ++ fromQueue new :=
            List.filter_append [m] new
          rw [hmsg] at hget
          rw [hsplit, List.append_assoc, haccount, ← List.append_assoc]
          exact congrArg (· ++ _) hget
    · rw [hround] at hend
      rw [fetch_stop ts hround, hoffers]
      refine ⟨?_, fun stop' v h hstop => ?_⟩
      · intro r hr m hm
        rw [List.mem_singleton.mp hr] at hm
        exact hfirst m hm
      · rw [Bh.loop, hround] at h
        cases h
        cases hend with
        | bug => exact absurd rfl hstop
        | noSpace _ hpacked => exact ⟨[], by rw [hpacked, List.append_nil], rfl⟩
        | noMsg _ hmsg hpacked =>
          refine ⟨[], by rw [hpacked, List.append_nil], ?_⟩
          dsimp only at hmsg
          rw [hmsg] at hget
          exact congrArg (· ++ _) hget
        | packed _ _ m hmsg hne hpacked =>
          refine ⟨[m], hpacked, ?_⟩
          dsimp only at hmsg
          rw [hmsg] at hget
          rw [if_neg fun h => hne (congrArg some h), ← List.append_assoc]
          exact congrArg (· ++ _) hget

/-! ### The passes -/

theorem pass_packed {s t : Bh} {q : Sdio.TxBh.Pass} {w : Option (List UInt8)} {msgs : List Msg}
    (h : s.pass sizeInpChBuf q = some (w, msgs, t)) :
    ∃ stop u, s.xmitContinue.loop sizeInpChBuf q.rounds = (some stop, u) ∧ stop ≠ .bug ∧
      msgs = u.packed.map Sdio.TxBh.Packed.msg := by
  unfold Bh.pass at h
  rcases hloop : s.xmitContinue.loop sizeInpChBuf q.rounds with ⟨_ | stop, u⟩
  · rw [hloop] at h
    cases h
  rw [hloop] at h
  have hstop : stop ≠ .bug := by
    rintro rfl
    cases h
  refine ⟨stop, u, rfl, hstop, ?_⟩
  cases stop with
  | bug => exact absurd rfl hstop
  | noSpace | noMsg | txed | full =>
    dsimp only at h
    split_ifs at h
    · cases h
      rfl
    · rcases hw : u.write q.tries with ⟨_ | _, v⟩ <;> rw [hw] at h <;> cases h <;> rfl

/-- The messages of all batches. -/
def packed (l : List (Option (List UInt8) × List Msg)) : List Msg := l.flatMap Prod.snd

/-- **A run** is one of the bottom half alone, over messages that were offered and commands. -/
theorem run_spec (hlink : Ether.Link eth p.iftype) (hsize : sizeInpChBuf ≤ 32768) {s : Bh}
    {queue rest : List Msg} {ps : List Pass} {l : List (Option (List UInt8) × List Msg)}
    (hq : ∀ m ∈ queue, m.txed = false ∧ m.len.toNat ≤ sizeInpChBuf)
    (hps : ∀ q ∈ ps, q.Sound p eth sizeInpChBuf)
    (h : run sizeInpChBuf s queue ps = some (l, rest)) :
    ∃ qs : List Sdio.TxBh.Pass, (∀ q ∈ qs, q.Fits sizeInpChBuf) ∧ s.run sizeInpChBuf qs = l ∧
      (∀ m ∈ packed l, m.txed = true → isTx m.id = false) ∧
      fromQueue (packed l) ++ rest = queue ++ queued (ps.flatMap Pass.offers) := by
  induction ps generalizing s queue l with
  | nil =>
    cases h
    exact ⟨[], nofun, rfl, nofun, (List.append_nil _).symm⟩
  | cons q ps ih =>
    have hsound := hps q List.mem_cons_self
    obtain ⟨hfetched, hloop⟩ := @fetch_spec sizeInpChBuf s.xmitContinue queue q.turns
      fun m hm => (hq m hm).1
    rw [run] at h
    dsimp only at h
    rcases hpass : s.pass sizeInpChBuf ⟨(fetch sizeInpChBuf s.xmitContinue queue q.turns).1,
      q.tries⟩ with _ | ⟨w, msgs, t⟩
    · rw [hpass] at h
      cases h
    rw [hpass] at h
    obtain ⟨⟨l', rest'⟩, hrun, hl⟩ := Option.map_eq_some_iff.mp h
    cases hl
    obtain ⟨stop, u, hstop, hne, rfl⟩ := pass_packed hpass
    obtain ⟨new, hnew, haccount⟩ := hloop stop u hstop hne
    have hnil : s.xmitContinue.packed.map Sdio.TxBh.Packed.msg = [] := rfl
    rw [hnil, List.nil_append] at hnew
    have hoffered : ∀ m ∈ queue ++ queued (q.turns.flatMap Turn.offers),
        m.txed = false ∧ m.len.toNat ≤ sizeInpChBuf := by
      intro m hm
      rcases List.mem_append.mp hm with hm | hm
      · exact hq m hm
      · obtain ⟨htxed, hle, -⟩ := (offered_spec hlink hsize hsound.offers).1 m hm
        exact ⟨htxed, hle⟩
    have hbehind : ∀ m ∈ (fetch sizeInpChBuf s.xmitContinue queue q.turns).2,
        m.txed = false ∧ m.len.toNat ≤ sizeInpChBuf := fun m hm =>
      hoffered m (by rw [← haccount]; exact List.mem_append_right _ hm)
    obtain ⟨qs, hfits, hbh, htxed, hrest⟩ := ih hbehind
      (fun q' hq' => hps q' (List.mem_cons_of_mem _ hq')) hrun
    refine ⟨⟨(fetch sizeInpChBuf s.xmitContinue queue q.turns).1, q.tries⟩ :: qs,
      List.forall_mem_cons.mpr ⟨?_, hfits⟩, ?_, ?_, ?_⟩
    · intro r hr m hm
      rcases hfetched r hr m hm with ⟨-, hin⟩ | ⟨t', ht', c, hc, -, hlen, -⟩
      · exact (hoffered m hin).2
      · rw [hlen]
        exact hsound.cmds t' ht' c hc
    · rw [Sdio.TxBh.run_cons, hpass]
      dsimp only
      rw [hbh]
    · intro m hm htrue
      rcases List.mem_append.mp hm with hm | hm
      · have hgot := Sdio.TxBh.loop_packed s.xmitContinue sizeInpChBuf
          (fetch sizeInpChBuf s.xmitContinue queue q.turns).1
        rw [hstop, hnil, List.nil_append] at hgot
        obtain ⟨r, hr, hrm⟩ := List.mem_flatMap.mp (hgot.subset hm)
        rcases hfetched r hr m (Option.mem_toList.mp hrm) with ⟨hfalse, -⟩ | ⟨-, -, c, -, -, -, hid⟩
        · rw [hfalse] at htrue
          cases htrue
        · rw [hid]
          exact c.not_tx
      · exact htxed m hm htrue
    · have hsplit : fromQueue (packed ((w, u.packed.map Sdio.TxBh.Packed.msg) :: l')) =
          fromQueue new ++ fromQueue (packed l') := by
        rw [packed, List.flatMap_cons, hnew]
        exact List.filter_append _ _
      rw [hsplit, List.append_assoc, hrest, ← List.append_assoc, haccount, List.flatMap_cons,
        queued_append, List.append_assoc]
      rfl

/-! ### What arrives -/

/-- The batches that were written, and those that were not. -/
def written (l : List (Option (List UInt8) × List Msg)) : List Msg :=
  packed (l.filter fun b => b.1.isSome)

def notWritten (l : List (Option (List UInt8) × List Msg)) : List Msg :=
  packed (l.filter fun b => b.1.isNone)

theorem written_cons (b : Option (List UInt8) × List Msg)
    (l : List (Option (List UInt8) × List Msg)) :
    written (b :: l) = (if b.1.isSome then b.2 else []) ++ written l := by
  unfold written packed
  rw [List.filter_cons]
  split_ifs
  · exact List.flatMap_cons
  · rfl

theorem notWritten_cons (b : Option (List UInt8) × List Msg)
    (l : List (Option (List UInt8) × List Msg)) :
    notWritten (b :: l) = (if b.1.isNone then b.2 else []) ++ notWritten l := by
  unfold notWritten packed
  rw [List.filter_cons]
  split_ifs
  · exact List.flatMap_cons
  · rfl

theorem packed_cons (b : Option (List UInt8) × List Msg)
    (l : List (Option (List UInt8) × List Msg)) : packed (b :: l) = b.2 ++ packed l :=
  List.flatMap_cons

theorem map_snd_numbered (N k : ℕ) (ms : List Msg) : (numbered N k ms).map Prod.snd = ms := by
  induction ms generalizing k with
  | nil => rfl
  | cons m ms ih => rw [numbered, List.map_cons, ih]

theorem map_snd_arrivals (N k : ℕ) (l : List (Option (List UInt8) × List Msg)) :
    (arrivals N k (Sdio.TxBh.batches l)).map Prod.snd = written l := by
  induction l generalizing k with
  | nil => rfl
  | cons b l ih =>
    have hbatches : Sdio.TxBh.batches (b :: l) = ⟨b.1.isSome, b.2⟩ :: Sdio.TxBh.batches l := rfl
    rw [hbatches, arrivals, List.map_append, ih, written_cons]
    dsimp only
    split_ifs
    · rw [map_snd_numbered]
    · rfl

theorem isTx_rdId (h : m.ReadAs n l) : isTx (Sdio.TxBh.rdId l) = isTx m.id := by
  have hmask : ∀ x : BitVec 16, x &&& ~~~0xe000#16 &&& 0x3f = x &&& 0x3f := fun x => by
    rw [BitVec.and_assoc]
    rfl
  unfold isTx
  rw [← hmask, h.id, hmask]

/-- **What is heard** of messages that are read. -/
theorem heard_of_reads {ms : List (ℕ × Msg)} {ls : List (List UInt8)}
    (h : List.Forall₂ (fun (a : ℕ × Msg) l => a.2.ReadAs a.1 l) ms ls)
    (hsteady : ∀ a ∈ ms, Steady p a.2) :
    (ls.filter fun l => isTx (Sdio.TxBh.rdId l)).map p.hears =
      (txOnly (ms.map Prod.snd)).map p.hearing := by
  induction h with
  | nil => rfl
  | cons hread _ ih =>
    have hrest := ih fun a ha => hsteady a (List.mem_cons_of_mem _ ha)
    have hfirst := hsteady _ List.mem_cons_self
    rw [List.map_cons, txOnly, List.filter_cons, List.filter_cons, isTx_rdId hread]
    split_ifs with htx
    · rw [List.map_cons, List.map_cons, hrest, hfirst htx _ _ hread]
      rfl
    · exact hrest

variable {batches : List (Option (List UInt8) × List Msg)}

theorem written_sublist (l : List (Option (List UInt8) × List Msg)) :
    (written l).Sublist (packed l) := by
  induction l with
  | nil => exact .slnil
  | cons b l ih =>
    rw [written_cons, packed_cons]
    refine List.Sublist.append ?_ ih
    split_ifs
    · exact .refl _
    · exact List.nil_sublist _

theorem length_txOnly_packed (l : List (Option (List UInt8) × List Msg)) :
    (txOnly (packed l)).length = (txOnly (written l)).length + (txOnly (notWritten l)).length := by
  induction l with
  | nil => rfl
  | cons b l ih =>
    rw [packed_cons, written_cons, notWritten_cons]
    unfold txOnly at ih ⊢
    simp only [List.filter_append, List.length_append]
    cases b.1 <;> simp <;> omega

theorem written_eq {l : List (Option (List UInt8) × List Msg)}
    (h : ∀ b ∈ l, b.1 = none → b.2 = []) : written l = packed l := by
  induction l with
  | nil => rfl
  | cons b l ih =>
    rw [written_cons, packed_cons, ih fun b' hb' => h b' (List.mem_cons_of_mem _ hb')]
    split_ifs with hb
    · rfl
    · rw [h b List.mem_cons_self (Option.not_isSome_iff_eq_none.mp hb)]

theorem txOnly_fromQueue {ms : List Msg} (h : ∀ m ∈ ms, m.txed = true → isTx m.id = false) :
    txOnly (fromQueue ms) = txOnly ms := by
  rw [txOnly, fromQueue, List.filter_filter]
  refine List.filter_congr fun m hm => ?_
  cases htxed : m.txed with
  | false => rw [Bool.not_false, Bool.and_true]
  | true => rw [h m hm htxed, Bool.false_and]

/-- **Ethernet frames arrive**: the receiver hears frames that were accepted, in their order and each
no more than once; those that are missing were in transfers that were not written or are still in the
queue; and when every transfer is written, it hears all frames up to those in the queue. -/
theorem delivered (hlink : Ether.Link eth p.iftype) (s : Bh)
    (hbuff : s.xmitBuff.length = Sdio.TxBh.sdioTxMaxlen) (hseq : s.wsmTxSeq < 8)
    (hsize : 16 ≤ sizeInpChBuf ∧ sizeInpChBuf ≤ 32768) (ps : List Pass)
    (hps : ∀ q ∈ ps, q.Sound p eth sizeInpChBuf) {queue : List Msg}
    (h : run sizeInpChBuf s [] ps = some (batches, queue)) :
    (p.heard batches).Sublist ((accepted (ps.flatMap Pass.offers)).map some) ∧
      (p.heard batches).length + (txOnly (notWritten batches)).length + (txOnly queue).length =
        (accepted (ps.flatMap Pass.offers)).length ∧
      ((∀ b ∈ batches, b.1 = none → b.2 = []) →
        p.heard batches <+: (accepted (ps.flatMap Pass.offers)).map some) := by
  obtain ⟨qs, hfits, hrun, htxed, haccount⟩ := run_spec hlink hsize.2 (by simp) hps h
  rw [List.nil_append] at haccount
  have hsound : ∀ o ∈ ps.flatMap Pass.offers, o.Sound p eth sizeInpChBuf := by
    intro o ho
    obtain ⟨q, hq, ho⟩ := List.mem_flatMap.mp ho
    exact (hps q hq).offers o ho
  obtain ⟨hoffered, hgiven⟩ := offered_spec hlink hsize.2 hsound
  have hidle : Sdio.TxBh.Idle s.wsmTxSeq s := ⟨hbuff, (Nat.mod_eq_of_lt hseq).symm⟩
  have hread := (Sdio.TxBh.frames_run hsize.2 hidle hfits).1
  rw [hrun] at hread
  -- the frames of the batches are the first ones that were accepted
  have hframes : txOnly (packed batches) ++ txOnly queue = txOnly (queued (ps.flatMap Pass.offers)) := by
    rw [← haccount, txOnly, txOnly, txOnly, List.filter_append]
    exact congrArg (· ++ _) (txOnly_fromQueue htxed).symm
  have hsteady : ∀ a ∈ arrivals 8 s.wsmTxSeq (Sdio.TxBh.batches batches), Steady p a.2 := by
    intro a ha htx
    have hin : a.2 ∈ written batches := by
      rw [← map_snd_arrivals 8 s.wsmTxSeq]
      exact List.mem_map_of_mem ha
    have hmem : a.2 ∈ txOnly (packed batches) :=
      List.mem_filter.mpr ⟨(written_sublist batches).subset hin, htx⟩
    have hq : a.2 ∈ txOnly (queued (ps.flatMap Pass.offers)) := by
      rw [← hframes]
      exact List.mem_append_left _ hmem
    exact (hoffered a.2 (List.mem_filter.mp hq).1).2.2 htx
  have hheard : p.heard batches = (txOnly (written batches)).map p.hearing := by
    rw [← map_snd_arrivals 8 s.wsmTxSeq]
    exact heard_of_reads hread hsteady
  have hsub : (txOnly (written batches)).Sublist (txOnly (packed batches)) :=
    (written_sublist batches).filter _
  rw [hheard, ← hgiven, ← hframes, List.length_map, List.map_append]
  have hcount := congrArg List.length hgiven
  rw [← hframes, List.length_map, List.length_map, List.length_append, length_txOnly_packed] at hcount
  refine ⟨(hsub.map _).trans (List.sublist_append_left _ _), hcount, fun hall => ?_⟩
  rw [written_eq hall]
  exact List.prefix_append _ _

/-- The AP of a station under CCMP. -/
def ccmpPeer : Peer := ⟨Xmit.ccmpVif.keyFor, true, ⟨Xmit.apAddr, Xmit.length_apAddr⟩, .ap⟩

/-- An IP packet of one byte is sent. -/
def packet (x : UInt8) : Offer :=
  .xmit Xmit.ccmpVif ⟨false, true, none, fun _ => 0, true⟩
    { Xmit.ipSkb 64 with
      mem := writes (fun _ => 0) 164 (Xmit.apAddr ++ Xmit.apAddr ++ [0x08, 0x00, x]) }

/-- A command of eight bytes. -/
def shortCommand : Command := ⟨⟨0x0006, 8, by decide, .linear fun _ => 0, false⟩, by decide⟩

/-- Three passes: a packet and two commands; a packet that is not written; and a packet with a command
behind it, so that the last one stays in the queue. -/
def mixed : List Pass :=
  [⟨[⟨[packet 1, .noAck shortCommand], 8, none⟩, ⟨[], 8, none⟩, ⟨[], 8, some shortCommand⟩],
      fun _ => true⟩,
    ⟨[⟨[packet 2], 8, none⟩, ⟨[], 8, none⟩], fun _ => false⟩,
    ⟨[⟨[packet 3, packet 4], 8, none⟩, ⟨[], 8, some shortCommand⟩], fun i => i = 3⟩]

theorem sound_packet (x : UInt8) : (packet x).Sound ccmpPeer Xmit.ccmpVif.ether 1632 where
  same := rfl
  keys := rfl
  head := show (100 : ℕ) ≤ 164 by decide
  len := show 15 + 84 ≤ 1632 by decide
  type := by
    have hbytes := slice_writes (fun _ => 0) 164 (Xmit.apAddr ++ Xmit.apAddr ++ [0x08, 0x00, x])
    have htype : Ether.ethertype (Xmit.apAddr ++ Xmit.apAddr ++ [0x08, 0x00, x]) = 0x0800 := by
      simp [Ether.ethertype, Ether.be16At, byteAt, Xmit.apAddr]
    show 0x600 ≤ Ether.ethertype (slice _ 164 (Xmit.apAddr ++ Xmit.apAddr ++ [0x08, 0x00, x]).length)
    rw [hbytes, htype]
    decide
  room := by
    intro hdr _ hcramped
    have henc : encrypts (Xmit.ccmpVif.keyFor hdr.addr1).keyType = false := hcramped.2.1
    have hkey : Xmit.ccmpVif.keyFor hdr.addr1 = Xmit.ccmpKey := by
      show ((if hdr.addr1 = Xmit.apAddr then some _ else none : Option Xmit.StaInfo)).elim _ _ = _
      split_ifs <;> rfl
    rw [hkey] at henc
    cases henc
  source := fun h => by cases h.1

theorem sound_mixed : ∀ q ∈ mixed, q.Sound ccmpPeer Xmit.ccmpVif.ether 1632 := by
  have hcommand : (Offer.noAck shortCommand).Sound ccmpPeer Xmit.ccmpVif.ether 1632 :=
    show 8 ≤ 1632 by decide
  intro q hq
  simp only [mixed, List.mem_cons, List.not_mem_nil, or_false] at hq
  rcases hq with rfl | rfl | rfl
  all_goals
    constructor
    · simp [Pass.offers, sound_packet, hcommand]
    · simp [shortCommand]

theorem delivered_mixed : ∃ batches queue,
    run 1632 (Sdio.TxBh.start 8) [] mixed = some (batches, queue) ∧
      batches.map (fun b => (b.1.isSome, b.2.length)) = [(true, 3), (false, 1), (true, 2)] ∧
      (ccmpPeer.heard batches).Sublist ((accepted (mixed.flatMap Pass.offers)).map some) ∧
      (ccmpPeer.heard batches).length + (txOnly (notWritten batches)).length +
        (txOnly queue).length = (accepted (mixed.flatMap Pass.offers)).length ∧
      ((∀ b ∈ batches, b.1 = none → b.2 = []) →
        ccmpPeer.heard batches <+: (accepted (mixed.flatMap Pass.offers)).map some) := by
  have hout : (run 1632 (Sdio.TxBh.start 8) [] mixed).map (fun r => r.1.map fun b =>
      (b.1.isSome, b.2.length)) = some [(true, 3), (false, 1), (true, 2)] := by
    decide +kernel
  obtain ⟨⟨batches, queue⟩, hrun, hbatches⟩ := Option.map_eq_some_iff.mp hout
  have hlink : Ether.Link Xmit.ccmpVif.ether ccmpPeer.iftype := Or.inl ⟨rfl, rfl⟩
  exact ⟨batches, queue, hrun, hbatches, delivered hlink (Sdio.TxBh.start 8)
    List.length_replicate (by decide) (by decide) mixed sound_mixed hrun⟩

end Atbm6441.Tx.Air
