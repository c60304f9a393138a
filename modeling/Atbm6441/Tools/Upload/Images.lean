import Atbm6441.Tools.Upload.Model

/-!
# What arrives of the files

`uploads` : in every session of the tool the messages that arrive read as files that were to be sent,
each whole and in their order; and each file whose command has returned 0 is among them.
-/

namespace Atbm6441.Tools.Upload

open Atbm6441.Lib Atbm6441.Lib.Parts Atbm6441.Wsm.Buf Atbm6441.Ioctl.Dispatch

/-! ### The messages of a run -/

/-- The message of a command. -/
def message (c : Call) : List UInt8 :=
  leBytes 4 0 ++ (leBytes 2 (hdrTxLen + c.payload.length) ++ leBytes 2 c.hdrId.toNat) ++ c.payload

variable {b : WsmBuf} {c : Call} {e : Env}

theorem call_of_fits (h : Ready b maxWsmBufLen) (hc : Fits c) (hack : c.noAck = false) :
    ∃ r, b.call c e = some r ∧ Ready r.buf maxWsmBufLen ∧ r.msg = some (message c) := by
  obtain ⟨hd, h, hzero⟩ := h
  have hlen := hc.length
  obtain ⟨b', hput, h'⟩ := h.put_fits c.payload (e.krealloc 0) (by
    rw [List.length_nil, hdrTxLen, maxWsmBufLen]
    omega)
  obtain ⟨r, hsend, hready, hmsg⟩ := h'.send (c := c) (e := e) (by simp [hack])
  refine ⟨r, ?_, hready, ?_⟩
  · rw [WsmBuf.call, hc.puts, WsmBuf.puts, hput]
    exact hsend
  · rw [hmsg, hzero, h'.data, List.nil_append, message]

/-! ### The parts of a run -/

/-- An ioctl that sends a part. -/
def Tells (x : Request 32 × Bool) (p : Part Image UInt8) : Prop :=
  ∃ c e, x.1.calls = [(c, e)] ∧ Fits c ∧ c.noAck = false ∧ partOf (message c) = some p

/-- The parts that arrive. -/
def arrivals (log : Log) (ps : List (Part Image UInt8)) : List (Part Image UInt8) :=
  (log.zip ps).filterMap fun x => if x.1.2 then some x.2 else none

variable {log log' : Log} {ps ps' : List (Part Image UInt8)}

theorem arrivals_append (h : log.length = ps.length) :
    arrivals (log ++ log') (ps ++ ps') = arrivals log ps ++ arrivals log' ps' := by
  rw [arrivals, List.zip_append h, List.filterMap_append, arrivals, arrivals]

/-- **The messages that arrive** are the parts that arrive. -/
theorem partOf_wire (h : List.Forall₂ Tells log ps) (hb : Ready b maxWsmBufLen) :
    ((log.zip (b.transcript (log.flatMap fun r => r.1.calls))).filterMap
      fun x => if x.1.2 then x.2.2.bind Result.msg else none).filterMap partOf =
      arrivals log ps := by
  induction h generalizing b with
  | nil => rfl
  | @cons x p log ps hx _ ih =>
    obtain ⟨c, e, hcalls, hc, hack, hpart⟩ := hx
    obtain ⟨r, hcall, hr, hmsg⟩ := call_of_fits (e := e) hb hc hack
    have htrans : b.transcript (((x :: log).flatMap fun r => r.1.calls)) =
        (c, some r) :: r.buf.transcript (log.flatMap fun r => r.1.calls) := by
      rw [List.flatMap_cons, hcalls, List.singleton_append, WsmBuf.transcript, hcall]
    rw [htrans, List.zip_cons_cons, arrivals, List.zip_cons_cons]
    have hih := ih hr
    rw [arrivals] at hih
    cases hx : x.2 with
    | true =>
      rw [List.filterMap_cons_some (b := message c) (by simp [hx, hmsg]),
        List.filterMap_cons_some hpart, hih, List.filterMap_cons_some (b := p) (by simp [hx])]
    | false =>
      rw [List.filterMap_cons_none (by simp [hx]), hih, List.filterMap_cons_none (by simp [hx])]

/-! ### An ioctl -/

variable {K : Kernel} {req : List UInt8}

theorem narrow_addr (addr : BitVec 32) : narrow addr = addr :=
  (narrow_eq_iff addr).mpr addr.isLt

theorem partOf_message (f : SetFn) (req : List UInt8) :
    partOf (message (.set f req)) =
      if (Call.set f req).hdrId.toNat = 0x20 then some (updatePart req)
      else if (Call.set f req).hdrId.toNat = 0x39 then some (certPart req) else none := by
  have hpayload : (Call.set f req).payload = req := by simp [Call.payload, Call.puts]
  have hdrop : (message (.set f req)).drop hdrTxLen = req := by
    rw [message, List.drop_left' (by simp [hdrTxLen]), hpayload]
  have hid' : leNat (((message (.set f req)).drop 6).take 2) = (Call.set f req).hdrId.toNat := by
    rw [message, ← List.append_assoc, List.append_assoc (_ ++ _), List.drop_left' (by simp),
      List.take_left' (by simp), leNat_leBytes 2 (Call.hdrId _).isLt]
  rw [partOf, hdrop, hid']

theorem tells_ioctl {log : Log} {cmd : Code} (f : SetFn) (null : Bool) {p : Part Image UInt8}
    (hlen : req.length = 1036)
    (hcmd : ∀ (W : World 32) (stack : Vector UInt8 8), atbmUnlockedIoctl W stack cmd K.addr =
      putData W null K.addr 1036 (some ∘ Call.set f) id)
    (hpart : partOf (message (.set f req)) = some p) :
    ∃ x, (K.ioctl log cmd req).2 = log ++ [x] ∧ Tells x p ∧
      ((K.ioctl log cmd req).1 = 0 → x.2 = true) := by
  let s := K.site log.length
  let r : Request 32 := ⟨user s.world K.addr req, s.stack, cmd, K.addr, s.krealloc⟩
  have hcopy : (user s.world K.addr req).copyFromUser K.addr 1036 = some ⟨⟨req⟩, hlen⟩ := by
    show (if _ then _ else _ : Option _) = _
    rw [if_pos rfl, dif_pos hlen]
  have hout : r.outcome =
      ⟨r.world.wsm (.set f req), [.read K.addr 1036, .send (.set f req)]⟩ := by
    show atbmUnlockedIoctl _ _ cmd K.addr = _
    rw [hcmd, putData, if_neg fun h => K.addr_ne h.2, hcopy]
    rfl
  refine ⟨(r, r.outcome.ret = 0 || s.arrives), rfl, ⟨.set f req, r.env (.set f req), ?_, ?_, rfl,
    hpart⟩, fun hret => ?_⟩
  · show r.calls = _
    rw [Request.calls, hout]
    rfl
  · refine ⟨by simp [Call.payload, Call.puts], by simp [Call.payload, Call.puts, hlen], ?_⟩
    exact fun hack => (Bool.false_ne_true hack).elim
  · show (decide (r.outcome.ret = 0) || s.arrives) = true
    have hzero : r.outcome.ret = 0 := hret
    rw [decide_eq_true hzero, Bool.true_or]

theorem tells_updateFw (K : Kernel) (log : Log) (hlen : req.length = 1036) :
    ∃ x, (K.ioctl log .updateFw req).2 = log ++ [x] ∧ Tells x (updatePart req) ∧
      ((K.ioctl log .updateFw req).1 = 0 → x.2 = true) := by
  have hid : (Call.set .updateFw req).hdrId.toNat = 0x20 := by
    show (0x0020 ||| BitVec.ofInt 16 (if (0 : ℤ) = -1 then 0 else 0) <<< 6).toNat = 0x20
    decide
  refine tells_ioctl .updateFw true hlen (fun W stack => ?_) ?_
  · show putData W true (narrow K.addr) 1036 (some ∘ Call.set .updateFw) id = _
    rw [narrow_addr]
  · rw [partOf_message, if_pos hid]

theorem tells_customerCert (K : Kernel) (log : Log) (hlen : req.length = 1036) :
    ∃ x, (K.ioctl log .customerCert req).2 = log ++ [x] ∧ Tells x (certPart req) ∧
      ((K.ioctl log .customerCert req).1 = 0 → x.2 = true) := by
  have hid : (Call.set .customerCertSave req).hdrId.toNat = 0x39 := by
    show (0x0039 ||| BitVec.ofInt 16 (if (0 : ℤ) = -1 then 0 else 0) <<< 6).toNat = 0x39
    decide
  refine tells_ioctl .customerCertSave false hlen (fun W stack => rfl) ?_
  rw [partOf_message, if_neg (by rw [hid]; decide), if_pos hid]

/-! ### The structures -/

theorem length_bytes_update (u : UpdateInfo) : u.bytes.length = 1036 := by
  simp [UpdateInfo.bytes]

theorem length_bytes_cert (c : CertSaveReq) : c.bytes.length = 1036 := by
  simp [CertSaveReq.bytes]

theorem getD_append_add {l l' : List UInt8} {m : ℕ} (h : l.length = m) (i : ℕ) :
    (l ++ l').getD (m + i) 0 = l'.getD i 0 := by
  rw [List.getD_eq_getElem?_getD, List.getElem?_append_right (by omega), h,
    Nat.add_sub_cancel_left, List.getD_eq_getElem?_getD]

theorem updatePart_bytes {u : UpdateInfo} (hlen : u.len.toNat ≤ 1024) : updatePart u.bytes =
    { key := .firmware
      opens := u.start = 0 ∧ u.endFlag = 0
      data := if u.start = 0 then [] else u.data.toList.take u.len.toNat
      closes := u.endFlag ≠ 0 } := by
  have hnat : leNat ((u.bytes.drop 4).take 4) = u.len.toNat := by
    rw [UpdateInfo.bytes, List.append_assoc, List.append_assoc, List.drop_left' (by simp),
      List.take_left' (by simp), leNat_leBytes 4 u.len.isLt]
  have hbody : (u.bytes.drop 8).take u.len.toNat = u.data.toList.take u.len.toNat := by
    rw [UpdateInfo.bytes, List.append_assoc, List.drop_left' (by simp),
      List.take_append_of_le_length (by simpa using hlen)]
  have htail (i : ℕ) : u.bytes.getD (1032 + i) 0 = [u.start, u.endFlag, u.restart, 0].getD i 0 :=
    getD_append_add (by simp) i
  have hstart : u.bytes.getD 1032 0 = u.start := htail 0
  have hend : u.bytes.getD 1033 0 = u.endFlag := htail 1
  rw [updatePart, hnat, hbody, hstart, hend]

theorem certPart_bytes {c : CertSaveReq} (hlen : c.length.toNat ≤ 1024) : certPart c.bytes =
    { key := .cert c.certType.toNat
      opens := c.first ≠ 0
      data := c.data.toList.take c.length.toNat
      closes := c.remain = 0 } := by
  have htype : leNat ((c.bytes.drop 4).take 4) = c.certType.toNat := by
    rw [CertSaveReq.bytes, List.append_assoc, List.append_assoc, List.append_assoc,
      List.drop_left' (by simp), List.take_left' (by simp), leNat_leBytes 4 c.certType.isLt]
  have hnat : leNat ((c.bytes.drop 1032).take 2) = c.length.toNat := by
    rw [CertSaveReq.bytes, List.append_assoc, List.drop_left' (by simp),
      List.take_left' (by simp), leNat_leBytes 2 c.length.isLt]
  have hbody : (c.bytes.drop 8).take c.length.toNat = c.data.toList.take c.length.toNat := by
    rw [CertSaveReq.bytes, List.append_assoc, List.append_assoc, List.drop_left' (by simp),
      List.take_append_of_le_length (by simpa using hlen)]
  have htail (i : ℕ) : c.bytes.getD (1034 + i) 0 = [c.first, c.remain].getD i 0 :=
    getD_append_add (by simp) i
  have hfirst : c.bytes.getD 1034 0 = c.first := htail 0
  have hremain : c.bytes.getD 1035 0 = c.remain := htail 1
  rw [certPart, htype, hnat, hbody, hfirst, hremain]

theorem take_fread (data : Vector UInt8 1024) (bs : List UInt8) (h : bs.length ≤ 1024) :
    (fread data bs).toList.take bs.length = bs := by
  refine List.ext_getElem (by simp [h]) fun i hi hi' => ?_
  simp [fread, List.getD_eq_getElem?_getD, hi']

/-! ### A file -/

/-- From `log` on, the parts of `f` have been sent: all, or those up to an ioctl that has failed. -/
def Course (k : Image) (o : Bool) (f : List UInt8) (ok : Bool) (log log' : Log) : Prop :=
  ∃ seg ps full i, log' = log ++ seg ∧ List.Forall₂ Tells seg ps ∧ Carries k o f full ∧
    arrivals seg ps = full.take i ∧ (ok = true → full.length ≤ i)

variable {k : Image} {o ok : Bool} {data f : List UInt8} {x : Request 32 × Bool}

theorem course_nil : Course k o f false log log :=
  ⟨[], [], [⟨k, o, f, true⟩], 0, by simp, .nil, .last o f, rfl, nofun⟩

theorem course_last (hx : Tells x ⟨k, o, data, true⟩) (h : ok = true → x.2 = true) :
    Course k o data ok log (log ++ [x]) := by
  refine ⟨[x], [⟨k, o, data, true⟩], [⟨k, o, data, true⟩], if x.2 then 1 else 0, rfl,
    .cons hx .nil, .last o data, ?_, fun hok => by simp [h hok]⟩
  cases hx2 : x.2 <;> simp [arrivals, hx2]

theorem course_failed (hx : Tells x ⟨k, o, data, false⟩) :
    Course k o (data ++ f) false log (log ++ [x]) := by
  refine ⟨[x], [⟨k, o, data, false⟩], [⟨k, o, data, false⟩, ⟨k, false, f, true⟩],
    if x.2 then 1 else 0, rfl, .cons hx .nil, .cons o data (.last false f), ?_, nofun⟩
  cases hx2 : x.2 <;> simp [arrivals, hx2]

theorem Course.cons (h : Course k false f ok (log ++ [x]) log') (hx : Tells x ⟨k, o, data, false⟩)
    (hx2 : x.2 = true) : Course k o (data ++ f) ok log log' := by
  obtain ⟨seg, ps, full, i, rfl, htells, hcarries, harrivals, hok⟩ := h
  refine ⟨x :: seg, ⟨k, o, data, false⟩ :: ps, ⟨k, o, data, false⟩ :: full, i + 1, by simp,
    .cons hx htells, .cons o data hcarries, ?_, fun h => Nat.succ_le_succ (hok h)⟩
  rw [List.take_succ_cons, ← harrivals]
  simp [arrivals, hx2]

theorem take_split {file : List UInt8} {len readLen : ℕ} (h : readLen ≤ len) :
    file.take len = file.take readLen ++ (file.drop readLen).take (len - readLen) := by
  rw [← List.take_add, Nat.add_sub_cancel' h]

theorem read_full {file : File} {n : ℕ} (h : (file.read n).1.length = n) :
    (file.read n).1 = file.bytes.take n ∧ (file.read n).2.bytes = file.bytes.drop n := by
  have hmin : min n (file.reads 0) = n := by
    rw [File.read, List.length_take] at h
    omega
  rw [File.read, hmin]
  exact ⟨rfl, rfl⟩

/-- The structure with the next part of a certificate. -/
def certNext (req : CertSaveReq) (bs : List UInt8) (len : ℕ) : CertSaveReq :=
  { req with
    remain := if 1024 < len then 1 else 0
    data := fread req.data bs
    length := (min 1024 len : ℕ) }

theorem certLoop_eq {req : CertSaveReq} {file : File} {len : ℕ} (hlen : 0 < len) :
    certLoop K req file len log =
      let got := file.read (min 1024 len)
      if got.1.length ≠ min 1024 len then (false, log)
      else
        let e := K.ioctl log .customerCert (certNext req got.1 len).bytes
        if e.1 ≠ 0 then (false, e.2)
        else certLoop K { certNext req got.1 len with first := 0 } got.2 (len - min 1024 len)
          e.2 := by
  have hread : (if 1024 < len then 1024 else len) = min 1024 len := by
    split_ifs <;> omega
  rw [certLoop, if_neg (Nat.ne_of_gt hlen), hread]
  rfl

theorem certPart_next (req : CertSaveReq) {bs : List UInt8} {len : ℕ}
    (hbs : bs.length = min 1024 len) : certPart (certNext req bs len).bytes =
      ⟨.cert req.certType.toNat, req.first ≠ 0, bs, len ≤ 1024⟩ := by
  have hmax : min 1024 len ≤ 1024 := Nat.min_le_left ..
  have hnat : (certNext req bs len).length.toNat = min 1024 len := by
    show (BitVec.ofNat 16 (min 1024 len)).toNat = _
    rw [BitVec.toNat_ofNat, Nat.mod_eq_of_lt (by omega)]
  have hdata : (certNext req bs len).data.toList.take (min 1024 len) = bs := by
    rw [← hbs]
    exact take_fread req.data bs (by omega)
  have hremain : decide ((certNext req bs len).remain = 0) = decide (len ≤ 1024) := by
    show decide ((if 1024 < len then (1 : UInt8) else 0) = 0) = _
    split_ifs with h <;> simp <;> omega
  have htype : (certNext req bs len).certType = req.certType := by rw [certNext]
  have hfirst : (certNext req bs len).first = req.first := by rw [certNext]
  rw [certPart_bytes (by omega), hnat, hremain, hdata, htype, hfirst]

/-- The loop over a certificate: its parts are full but the last. -/
theorem certLoop_course (log : Log) (req : CertSaveReq) (file : File) {len : ℕ} (hlen : 0 < len) :
    Course (.cert req.certType.toNat) (req.first ≠ 0) (file.bytes.take len)
      (certLoop K req file len log).1 log (certLoop K req file len log).2 := by
  induction len using Nat.strong_induction_on generalizing req file log with
  | _ len ih =>
    rw [certLoop_eq hlen]
    dsimp only
    by_cases hshort : (file.read (min 1024 len)).1.length ≠ min 1024 len
    · rw [if_pos hshort]
      exact course_nil
    rw [if_neg hshort]
    have hgot := not_not.mp hshort
    obtain ⟨hbytes, hbehind⟩ := read_full hgot
    have hpart := certPart_next req hgot
    have htype : (certNext req (file.read (min 1024 len)).1 len).certType = req.certType := by
      rw [certNext]
    generalize certNext req (file.read (min 1024 len)).1 len = r at hpart htype ⊢
    rw [hbytes] at hpart
    rw [← htype] at hpart ⊢
    obtain ⟨x, hlog, htells, hret⟩ := tells_customerCert K log
      (length_bytes_cert r)
    rw [hpart] at htells
    have hrest := @ih (len - min 1024 len) (by omega) (log ++ [x]) { r with first := 0 }
      (file.read (min 1024 len)).2
    have hfirst : decide ((0 : UInt8) ≠ 0) = false := by decide
    dsimp only at hrest
    rw [hfirst, hbehind] at hrest
    generalize K.ioctl log .customerCert r.bytes = e at hlog hret
    obtain ⟨ret, log₁⟩ := e
    obtain rfl : log₁ = log ++ [x] := hlog
    dsimp only
    by_cases hlast : len ≤ 1024
    · rw [decide_eq_true hlast, Nat.min_eq_right hlast] at htells
      by_cases hzero : ret = 0
      · rw [if_neg (not_not.mpr hzero), Nat.min_eq_right hlast, Nat.sub_self, certLoop, if_pos rfl]
        exact course_last htells fun _ => hret hzero
      · rw [if_pos hzero]
        exact course_last htells nofun
    · rw [decide_eq_false hlast] at htells
      rw [take_split (Nat.min_le_right 1024 len)]
      by_cases hzero : ret = 0
      · rw [if_neg (not_not.mpr hzero)]
        exact (hrest (by omega)).cons htells (hret hzero)
      · rw [if_pos hzero]
        exact course_failed htells

/-- The structure with the next part of a firmware. -/
def updateNext (update : UpdateInfo) (bs : List UInt8) (n : ℕ) : UpdateInfo :=
  { update with data := fread update.data bs, len := (n : ℕ) }

theorem updateLoop_eq {update : UpdateInfo} {firstWrite : Bool} {file : File} {len : ℕ}
    (hlen : 0 < len) (hfirst : firstWrite = true → 512 ≤ len) :
    updateLoop K update firstWrite file len log =
      let got := file.read (min 512 len)
      if got.1.length ≠ min 512 len then (none, log)
      else
        let e := K.ioctl log .updateFw (updateNext update got.1 (min 512 len)).bytes
        if e.1 ≠ 0 then (none, e.2)
        else updateLoop K (updateNext update got.1 (min 512 len)) false got.2 (len - min 512 len)
          e.2 := by
  have hread : (if firstWrite then 512 else if 512 ≤ len then 512 else len) = min 512 len := by
    cases firstWrite with
    | true => exact (Nat.min_eq_left (hfirst rfl)).symm
    | false =>
      show (if 512 ≤ len then 512 else len) = _
      split_ifs <;> omega
  rw [updateLoop, if_neg (Nat.ne_of_gt hlen), hread]
  rfl

theorem updatePart_next {update : UpdateInfo} {bs : List UInt8} {n : ℕ} (hn : n ≤ 1024)
    (hbs : bs.length = n) (hstart : update.start = 1) (hend : update.endFlag = 0) :
    updatePart (updateNext update bs n).bytes = ⟨.firmware, false, bs, false⟩ := by
  have hnat : (updateNext update bs n).len.toNat = n := by
    show (BitVec.ofNat 32 n).toNat = _
    rw [BitVec.toNat_ofNat, Nat.mod_eq_of_lt (by omega)]
  have hdata : (updateNext update bs n).data.toList.take n = bs := by
    rw [← hbs]
    exact take_fread update.data bs (by omega)
  have hs : (updateNext update bs n).start = 1 := hstart
  have he : (updateNext update bs n).endFlag = 0 := hend
  rw [updatePart_bytes (by omega), hnat, hs, he, hdata]
  rfl

/-- What the loop of `update_fw_cmd` keeps of its structure. -/
structure Middle (update : UpdateInfo) : Prop where
  start : update.start = 1
  endFlag : update.endFlag = 0
  len : update.len.toNat ≤ 1024

theorem updateLoop_course {update : UpdateInfo} {firstWrite : Bool} (log : Log)
    (file : File) (len : ℕ)
    (hu : Middle update) (hfirst : firstWrite = true → 512 ≤ len) :
    match updateLoop K update firstWrite file len log with
    | (none, log') => Course .firmware false (file.bytes.take len) false log log'
    | (some u, log') => Middle u ∧ ∀ ok log'', Course .firmware false [] ok log' log'' →
        Course .firmware false (file.bytes.take len) ok log log'' := by
  induction len using Nat.strong_induction_on generalizing update firstWrite file log with
  | _ len ih =>
    rcases Nat.eq_zero_or_pos len with rfl | hlen
    · rw [updateLoop, if_pos rfl]
      exact ⟨hu, fun ok log'' h => h⟩
    rw [updateLoop_eq hlen hfirst]
    dsimp only
    by_cases hshort : (file.read (min 512 len)).1.length ≠ min 512 len
    · rw [if_pos hshort]
      exact course_nil
    rw [if_neg hshort]
    have hgot := not_not.mp hshort
    obtain ⟨hbytes, hbehind⟩ := read_full hgot
    have hmax : min 512 len ≤ 512 := Nat.min_le_left ..
    obtain ⟨x, hlog, htells, hret⟩ := tells_updateFw K log
      (length_bytes_update (updateNext update (file.read (min 512 len)).1 (min 512 len)))
    rw [updatePart_next (by omega) hgot hu.start hu.endFlag, hbytes] at htells
    have hu' : Middle (updateNext update (file.read (min 512 len)).1 (min 512 len)) := by
      refine ⟨hu.start, hu.endFlag, ?_⟩
      show (BitVec.ofNat 32 (min 512 len)).toNat ≤ 1024
      rw [BitVec.toNat_ofNat, Nat.mod_eq_of_lt (by omega)]
      omega
    have hrest := @ih (len - min 512 len) (by omega) _ false (log ++ [x])
      (file.read (min 512 len)).2 hu' nofun
    rw [hbehind] at hrest
    generalize K.ioctl log .updateFw
      (updateNext update (file.read (min 512 len)).1 (min 512 len)).bytes = e at hlog hret
    obtain ⟨ret, log₁⟩ := e
    obtain rfl : log₁ = log ++ [x] := hlog
    dsimp only
    rw [take_split (Nat.min_le_right 512 len)]
    by_cases hzero : ret = 0
    · rw [if_neg (not_not.mpr hzero)]
      split
      · next hloop =>
        rw [hloop] at hrest
        exact Course.cons hrest htells (hret hzero)
      · next hloop =>
        rw [hloop] at hrest
        exact ⟨hrest.1, fun ok log'' h => (hrest.2 ok log'' h).cons htells (hret hzero)⟩
    · rw [if_pos hzero]
      exact course_failed htells

/-! ### A command -/

/-- What a command is to send: the whole of a file, unless it is too small or too large. -/
def asked : ToolCmd → Option (Image × List UInt8)
  | .updateFw (path :: _) fopen => (fopen path).bind fun file =>
    if 512 < ftell file then some (.firmware, file.bytes) else none
  | .customerCert [type, path] fopen => (certType type).bind fun ty => (fopen path).bind fun file =>
    if 0 < ftell file ∧ ftell file ≤ 2048 then some (.cert ty.toNat, file.bytes) else none
  | .updateFw [] _ | .customerCert _ _ => none

/-- The structure of the message before the parts, and of the one behind them. -/
def updateStart : UpdateInfo := ⟨0, 0, .replicate 1024 0, 0, 0, 0⟩

def updateEnd (update : UpdateInfo) : UpdateInfo := { update with start := 0, endFlag := 1 }

theorem updateFile_eq (K : Kernel) (log : Log) {file : File} (h : 512 < ftell file) :
    updateFile K file log =
      let e := K.ioctl log .updateFw updateStart.bytes
      if e.1 ≠ 0 then ⟨-1, 0, e.2⟩
      else match updateLoop K { updateStart with start := 1 } true file (ftell file).toNat e.2 with
        | (none, log) => ⟨-1, 1, log⟩
        | (some update, log) =>
          let e := K.ioctl log .updateFw (updateEnd update).bytes
          if e.1 ≠ 0 then ⟨-1, 2, e.2⟩ else ⟨0, 1, e.2⟩ := by
  rw [updateFile, if_neg (not_le.mpr h)]
  rfl

theorem updateEnd_course {update : UpdateInfo} (hu : Middle update) :
    Course .firmware false [] (decide ((K.ioctl log .updateFw (updateEnd update).bytes).1 = 0)) log
      (K.ioctl log .updateFw (updateEnd update).bytes).2 := by
  obtain ⟨x, hlog, htells, hret⟩ := tells_updateFw K log
    (length_bytes_update (updateEnd update))
  have hpart : updatePart (updateEnd update).bytes = ⟨.firmware, false, [], true⟩ :=
    updatePart_bytes hu.len
  rw [hpart] at htells
  rw [hlog]
  exact course_last htells fun h => hret (of_decide_eq_true h)

theorem updateFile_course {file : File} (h : 512 < ftell file) :
    Course .firmware true file.bytes (decide ((updateFile K file log).ret = 0)) log
      (updateFile K file log).log := by
  obtain ⟨x, hlog, htells, hret⟩ := tells_updateFw K log
    (length_bytes_update updateStart)
  have hpart : updatePart updateStart.bytes = ⟨.firmware, true, [], false⟩ :=
    updatePart_bytes (Nat.zero_le _)
  rw [hpart] at htells
  have hloop := updateLoop_course (K := K) (log ++ [x]) file (ftell file).toNat
    (show Middle { updateStart with start := 1 } from ⟨rfl, rfl, Nat.zero_le _⟩)
    (fun _ : true = true => by omega)
  rw [take_ftell (by omega)] at hloop
  have hcmd := updateFile_eq K log h
  dsimp only at hcmd
  generalize K.ioctl log .updateFw updateStart.bytes = e at hlog hret hcmd
  obtain ⟨ret, log₁⟩ := e
  obtain rfl : log₁ = log ++ [x] := hlog
  by_cases hzero : ret = 0
  · rw [if_neg (not_not.mpr hzero)] at hcmd
    generalize updateLoop K _ true file (ftell file).toNat (log ++ [x]) = e at hloop hcmd
    match e with
    | (none, log₂) =>
      rw [hcmd]
      exact Course.cons hloop htells (hret hzero)
    | (some update, log₂) =>
      have hwhole := hloop.2 _ _ (updateEnd_course (K := K) hloop.1)
      dsimp only at hcmd
      by_cases hend : (K.ioctl log₂ .updateFw (updateEnd update).bytes).1 = 0
      · rw [if_neg (not_not.mpr hend)] at hcmd
        rw [decide_eq_true hend] at hwhole
        rw [hcmd]
        exact hwhole.cons htells (hret hzero)
      · rw [if_pos hend] at hcmd
        rw [decide_eq_false hend] at hwhole
        rw [hcmd]
        exact hwhole.cons htells (hret hzero)
  · rw [if_pos hzero] at hcmd
    rw [hcmd]
    exact course_failed htells

theorem saveCert_course (ty : BitVec 32) {file : File} (hempty : 0 < ftell file)
    (hlarge : ftell file ≤ 2048) :
    Course (.cert ty.toNat) true file.bytes (decide ((saveCert K ty file log).ret = 0)) log
      (saveCert K ty file log).log := by
  have hloop := certLoop_course (K := K) log ⟨0, ty, .replicate 1024 0, 0, 1, 0⟩ file
    (Int.pos_iff_toNat_pos.mp hempty)
  have hfirst : decide ((1 : UInt8) ≠ 0) = true := by decide
  dsimp only at hloop
  rw [hfirst, take_ftell hempty] at hloop
  rw [saveCert, if_neg (not_lt.mpr hlarge)]
  generalize certLoop K _ file (ftell file).toNat log = e at hloop ⊢
  obtain ⟨ok, log'⟩ := e
  cases ok <;> exact hloop

theorem saveCert_log {ty : BitVec 32} {file : File}
    (h : ¬ (0 < ftell file ∧ ftell file ≤ 2048)) : (saveCert K ty file log).log = log := by
  rw [saveCert]
  by_cases hlarge : 2048 < ftell file
  · rw [if_pos hlarge]
  · have hempty : (ftell file).toNat = 0 := by omega
    rw [if_neg hlarge, hempty, certLoop, if_pos rfl]

/-- What a command has done: nothing, or it is on the course of its file. -/
def OnCourse (log : Log) (e : Ended) : Option (Image × List UInt8) → Prop
  | none => e.log = log
  | some (k, f) => Course k true f (decide (e.ret = 0)) log e.log

theorem updateFwCmd_course (K : Kernel) (log : Log) (argv : List String)
    (fopen : String → Option File) :
    OnCourse log (updateFwCmd K argv fopen log) (asked (.updateFw argv fopen)) := by
  match argv with
  | [] => rfl
  | path :: _ =>
    rw [updateFwCmd, asked]
    cases hopen : fopen path with
    | none => rfl
    | some file =>
      rw [Option.bind_some]
      by_cases h : 512 < ftell file
      · rw [if_pos h]
        exact updateFile_course h
      · rw [if_neg h]
        show (updateFile K file log).log = log
        rw [updateFile, if_pos (not_lt.mp h)]

theorem customerCertSaveCmd_course (K : Kernel) (log : Log) (argv : List String)
    (fopen : String → Option File) :
    OnCourse log (customerCertSaveCmd K argv fopen log) (asked (.customerCert argv fopen)) := by
  match argv with
  | [type, path] =>
    rw [customerCertSaveCmd, asked]
    cases hty : certType type with
    | none => rfl
    | some ty =>
      cases hopen : fopen path with
      | none => rfl
      | some file =>
        rw [Option.bind_some, Option.bind_some]
        by_cases h : 0 < ftell file ∧ ftell file ≤ 2048
        · rw [if_pos h]
          exact saveCert_course ty h.1 h.2
        · rw [if_neg h]
          exact saveCert_log h
  | [] | [_] | _ :: _ :: _ :: _ => rfl

/-- **A command** sends what it is asked for, and nothing else. -/
theorem run_course (K : Kernel) (log : Log) (c : ToolCmd) : OnCourse log (c.run K log) (asked c) := by
  cases c with
  | updateFw argv fopen => exact updateFwCmd_course K log argv fopen
  | customerCert argv fopen => exact customerCertSaveCmd_course K log argv fopen

/-! ### A session -/

/-- The files of the commands that have returned 0. -/
def done (r : List (ToolCmd × ℤ)) : List (Image × List UInt8) :=
  (r.filter fun x => x.2 = 0).filterMap fun x => asked x.1

theorem done_cons (c : ToolCmd) (ret : ℤ) (r : List (ToolCmd × ℤ)) :
    done ((c, ret) :: r) = (if ret = 0 then (asked c).toList else []) ++ done r := by
  by_cases hret : ret = 0
  · rw [done, List.filter_cons_of_pos (by simpa using hret), if_pos hret]
    cases hc : asked c with
    | none => exact List.filterMap_cons_none hc
    | some f => exact List.filterMap_cons_some hc
  · rw [done, List.filter_cons_of_neg (by simpa using hret), if_neg hret]
    rfl

theorem session_transfers (K : Kernel) (log : Log) (cs : List ToolCmd) :
    ∃ seg ps, ∃ ts : List (Transfer Image UInt8), (session K log cs).2 = log ++ seg ∧
      List.Forall₂ Tells seg ps ∧ arrivals seg ps = ts.flatMap Transfer.arrived ∧
      ts.map (fun t => (t.key, t.whole)) = cs.filterMap asked ∧
      (done (session K log cs).1).Sublist
        ((ts.filter fun t => t.parts.length ≤ t.sent).map fun t => (t.key, t.whole)) := by
  induction cs generalizing log with
  | nil => exact ⟨[], [], [], by simp [session], .nil, rfl, rfl, .slnil⟩
  | cons c cs ih =>
    have hrun := run_course K log c
    obtain ⟨seg, ps, ts, hlog, htells, harrivals, hasked, hdone⟩ := ih (c.run K log).log
    have hsession : session K log (c :: cs) = ((c, (c.run K log).ret) ::
      (session K (c.run K log).log cs).1, (session K (c.run K log).log cs).2) := rfl
    rw [hsession]
    cases hc : asked c with
    | none =>
      rw [hc] at hrun
      refine ⟨seg, ps, ts, ?_, htells, harrivals, ?_, ?_⟩
      · rw [hlog, hrun]
      · rw [List.filterMap_cons_none hc, hasked]
      · rw [done_cons, hc]
        split_ifs <;> exact hdone
    | some kf =>
      obtain ⟨k, f⟩ := kf
      rw [hc] at hrun
      obtain ⟨seg₀, ps₀, full, i, hlog₀, htells₀, hcarries, harrivals₀, hok⟩ := hrun
      refine ⟨seg₀ ++ seg, ps₀ ++ ps, ⟨k, f, full, hcarries, i⟩ :: ts, ?_, ?_, ?_, ?_, ?_⟩
      · rw [hlog, hlog₀, List.append_assoc]
      · exact List.rel_append htells₀ htells
      · rw [arrivals_append htells₀.length_eq, harrivals₀, harrivals, List.flatMap_cons]
        rfl
      · rw [List.filterMap_cons_some hc, List.map_cons, hasked]
      · rw [done_cons, hc]
        by_cases hret : (c.run K log).ret = 0
        · rw [if_pos hret, List.filter_cons_of_pos]
          · exact hdone.cons_cons _
          · exact decide_eq_true (hok (decide_eq_true hret))
        · rw [if_neg hret, List.filter_cons]
          split_ifs
          · exact hdone.cons _
          · exact hdone

/-- **The messages that arrive** read as files that were to be sent, each whole and in their order;
and each file whose command has returned 0 is among them. -/
theorem uploads (K : Kernel) (fresh : ℕ → UInt8) (cs : List ToolCmd) :
    let r := session K [] cs
    let got := images none ((wire fresh r.2).filterMap partOf)
    (done r.1).Sublist got ∧ got.Sublist (cs.filterMap asked) := by
  obtain ⟨seg, ps, ts, hlog, htells, harrivals, hasked, hdone⟩ := session_transfers K [] cs
  have hgot : images none ((wire fresh (session K [] cs).2).filterMap partOf) =
      (ts.filter fun t => t.parts.length ≤ t.sent).map fun t => (t.key, t.whole) := by
    rw [hlog, List.nil_append, wire, partOf_wire htells (ready_init fresh), harrivals,
      images_transfers]
  dsimp only
  rw [hgot, ← hasked]
  exact ⟨hdone, (List.filter_sublist ..).map _⟩

end Atbm6441.Tools.Upload
