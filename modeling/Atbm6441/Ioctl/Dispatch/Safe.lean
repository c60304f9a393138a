import Atbm6441.Ioctl.Dispatch.Model

/-!
# What a request may do

* `own_buffer_iff` : which requests of a process can make the driver access memory elsewhere than
  where the process says: those whose argument goes through an `unsigned int`, when it does not fit;
* `sent_valid_iff` : every command that is sent has passed the tests of its kind, but a country code
  from 128 on where `char` is signed;
* `stack_unseen` : nothing of the stack of the driver reaches the process or the firmware;
* `ioctls_clean_iff` : in a run of requests every message is exactly the command of its request, as
  long as every IPC message gets its buffer.
-/

namespace Atbm6441.Ioctl.Dispatch

open Atbm6441.Lib Atbm6441.Wsm.Buf

variable {w n : ℕ} {W : World w} {stack : Vector UInt8 8} {null status : Bool} {data : BitVec w}
  {command : List UInt8 → Option Call} {err : ℤ → ℤ} {f : GetFn} {left : List UInt8}
  {part : List UInt8 → List UInt8}

/-! ### The kinds of requests -/

namespace Outcome

/-- The commands of a request. -/
def sent (o : Outcome w) : List Call :=
  o.log.filterMap fun e => match e with
    | .send c => some c
    | .read _ _ | .write _ _ => none

/-- The accesses of the memory of the process. -/
def accesses (o : Outcome w) : List (BitVec w) :=
  o.log.filterMap fun e => match e with
    | .send _ => none
    | .read addr _ | .write addr _ => some addr

end Outcome

theorem putData_cases (W : World w) (null : Bool) (data : BitVec w) (n : ℕ)
    (command : List UInt8 → Option Call) (err : ℤ → ℤ) :
    (null = true ∧ data = 0 ∧ putData W null data n command err = ⟨-1, []⟩) ∨
      ¬ (null = true ∧ data = 0) ∧
        (putData W null data n command err = ⟨-1, [.read data n]⟩ ∨
          ∃ req : Vector UInt8 n, ∃ c, W.copyFromUser data n = some req ∧
            command req.toList = some c ∧
            putData W null data n command err = ⟨err (W.wsm c), [.read data n, .send c]⟩) := by
  unfold putData
  by_cases hnull : null = true ∧ data = 0
  · exact .inl ⟨hnull.1, hnull.2, if_pos hnull⟩
  · rw [if_neg hnull]
    refine .inr ⟨hnull, ?_⟩
    rcases hcopy : W.copyFromUser data n with _ | req
    · exact .inl rfl
    · rcases hcmd : command req.toList with _ | c
      · exact .inl (by simp only [hcmd])
      · exact .inr ⟨req, c, rfl, hcmd, by simp only [hcmd]⟩

theorem forall_sent_putData {Q : Call → Prop}
    (h : ∀ req : List UInt8, req.length = n → ∀ c, command req = some c → Q c) :
    ∀ c ∈ (putData W null data n command err).sent, Q c := by
  intro c hc
  rcases putData_cases W null data n command err with
    ⟨-, -, heq⟩ | ⟨-, heq | ⟨req, c', -, hcmd, heq⟩⟩
  · rw [heq] at hc
    cases hc
  · rw [heq] at hc
    cases hc
  · rw [heq] at hc
    obtain rfl : c = c' := by simpa [Outcome.sent] using hc
    exact h req.toList (Vector.length_toList ..) c hcmd

theorem sent_putCommand (W : World w) (c : Option Call) : (putCommand W c).sent = c.toList := by
  cases c <;> rfl

theorem forall_sent_getData {Q : Call → Prop} (h : Q (.get f n)) :
    ∀ c ∈ (getData W null data f n left status part err).sent, Q c := by
  intro c hc
  unfold getData at hc
  dsimp only at hc
  split_ifs at hc <;> simp_all [Outcome.sent]

variable {P : Outcome w → Prop}

theorem connect_elim (hput : P (putData W true (narrow data) 108
    (fun join => some (.join (joinParameter join) 0)) minusOne)) (hnone : P ⟨-1, []⟩) :
    P (atbmWsmConnect W data) := by
  unfold atbmWsmConnect
  split_ifs <;> assumption

theorem apCfg_elim
    (hput : P (putData W true (narrow data) 112 (some ∘ .set .setApCfg ∘ apCfgReq) id))
    (hnone : P ⟨-1, []⟩) : P (atbmWsmSetApCfg W data) := by
  unfold atbmWsmSetApCfg
  split_ifs <;> assumption

theorem setScan_elim (hput : P (putCommand W (some (.set .setScan (zeros 4)))))
    (hnone : P ⟨0, []⟩) : P (atbmWsmSetScan W) := by
  unfold atbmWsmSetScan
  split_ifs <;> assumption

/-! ### What is sent is valid -/

/-- The size of the `struct wsm_*_req` of a command. -/
def reqSize : SetFn → ℕ
  | .setScan | .smartCfgStart | .smartCfgStop | .apTouchStop | .etfStopTx | .etfStopRx
  | .etfResetRx | .fwSleep | .clearWifiConfig => 4
  | .setWifimode | .setWifichannel | .setCountryId | .apTouchStart | .setAdaptive
  | .setListenItvl | .setDbgPrint | .autoReconnect | .setWakeupEvent => 8
  | .setPsmode | .connSwitch => 12
  | .etfStartTx | .etfSingleTone | .etfStartRx | .etfStartRxNoDrop | .checkAlive => 16
  | .setTcpFilter => 24
  | .setWakeupSsid | .clearWakeupSsid => 40
  | .addNetpatternInfo | .delNetpatternInfo | .addConnParamInfo | .delConnParamInfo => 84
  | .setApCfg => 112
  | .sendCustomerCmd => 136
  | .sendAtCmd => 260
  | .updateFw | .customerCertSave => 1036

/-- The size of the answer that a command asks for; none for those that no request sends. -/
def answerSize (cnfSize : ℕ) : GetFn → Option ℕ
  | .getConfig => some cnfSize
  | .getCountryId | .getTxRate | .getRssi | .connLose => some 8
  | .getEtfRxInfo => some 16
  | .getTcpFilter => some 24
  | .getStalist => some 32
  | .getTime => some 40
  | .getVer | .getSdkVer => some 132
  | .getApCfg | .getScanState => none

/-- The fields that the handlers test, or cut to their range; they pass the others on. -/
def InRange (f : SetFn) (l : List UInt8) : Prop :=
  match f with
  | .setApCfg => l.getD 11 0 ≤ 32
  | .setWifimode | .apTouchStart | .setDbgPrint => l.getD 4 0 ≤ 1
  | .setWifichannel => 1 ≤ l.getD 5 0 ∧ l.getD 5 0 ≤ 14
  | .setCountryId => l.getD 6 0 < 9
  | .setListenItvl => 1 ≤ l.getD 4 0 ∧ l.getD 4 0 ≤ 20
  | .checkAlive =>
    (l.drop 4).take 4 = leBytes 4 1212 ∧ 1 ≤ leNat ((l.drop 8).take 4) ∧
      2 ≤ leNat ((l.drop 12).take 4)
  | _ => True

/-- What the handlers see to: which commands there are, the size of each, the interface, and the ranges
of the fields that they test. -/
def Valid (cnfSize : ℕ) : Call → Prop
  | .set f l => l.length = reqSize f ∧ InRange f l
  | .get f n => answerSize cnfSize f = some n
  | .getScanInfo l => l.length = 1300
  | .join l ifId => l.length = 108 ∧ ifId = 0 ∧ l.getD 0 0 &&& 0x10 = 0 ∧ l.getD 7 0 ≤ 32
  | .sendIpcData l => l.length = 1024
  | .reset _ _ _ | .readShmem _ _ | .writeShmem _ _ | .configuration _ _ => False

variable {cnfSize : ℕ}

/-- A command with no field that is tested. -/
def Plain (f : SetFn) : Prop := ∀ l, InRange f l

theorem valid_plain {f : SetFn} (hf : Plain f) (hn : n = reqSize f) :
    ∀ req : List UInt8, req.length = n → ∀ c, (some ∘ Call.set f) req = some c →
      Valid cnfSize c := by
  intro req hlen c hc
  obtain rfl : Call.set f req = c := Option.some.inj hc
  exact ⟨hlen.trans hn, hf req⟩

theorem valid_command {c : Call} (h : Valid cnfSize c) :
    ∀ d ∈ (putCommand W (some c)).sent, Valid cnfSize d := by
  rw [sent_putCommand]
  simpa using h

theorem valid_get (h : answerSize cnfSize f = some n) :
    ∀ c ∈ (getData W null data f n left status part err).sent, Valid cnfSize c :=
  forall_sent_getData h

theorem length_joinParameter (l : List UInt8) : (joinParameter l).length = l.length := by
  unfold joinParameter
  dsimp only
  split_ifs <;> simp

theorem valid_join {l : List UInt8} (hlen : l.length = 108) :
    Valid cnfSize (.join (joinParameter l) 0) := by
  refine ⟨by rw [length_joinParameter, hlen], rfl, ?_, ?_⟩
  · have hflag (b : UInt8) : b &&& ~~~0x10 &&& 0x10 = 0 := by
      rw [UInt8.and_assoc, show ~~~(0x10 : UInt8) &&& 0x10 = 0 by decide, UInt8.and_zero]
    unfold joinParameter
    dsimp only
    split_ifs <;> simp [List.getD_eq_getElem?_getD, hlen, hflag]
  · unfold joinParameter
    dsimp only
    split_ifs with h
    · simp [List.getD_eq_getElem?_getD, hlen]
    · simpa using h

theorem valid_apCfg {l : List UInt8} (hlen : l.length = 112) :
    Valid cnfSize (.set .setApCfg (apCfgReq l)) := by
  unfold apCfgReq
  refine ⟨?_, ?_⟩
  · split_ifs <;> simp [hlen, reqSize]
  · show (if _ then _ else _ : List UInt8).getD 11 0 ≤ 32
    split_ifs with h
    · simp [List.getD_eq_getElem?_getD, hlen]
    · simpa using h

theorem valid_checkAlive {l : List UInt8} (hlen : l.length = 16) {c : Call}
    (hc : checkAliveReq l = some c) : Valid cnfSize c := by
  unfold checkAliveReq at hc
  split_ifs at hc with h
  obtain rfl := Option.some.inj hc
  have hhead : (l.take 4).length = 4 := by simp [hlen]
  refine ⟨by simp [hlen, reqSize], ?_, ?_, ?_⟩
  · rw [List.append_assoc, List.drop_append_of_le_length (by simp [hlen]),
      List.drop_of_length_le (by simp [hlen]), List.nil_append,
      List.take_append_of_le_length (by simp), List.take_of_length_le (by simp)]
  all_goals
    rw [List.drop_append, List.drop_of_length_le (by simp [hlen]), List.nil_append]
    simp [hlen]
    omega

theorem length_oneByte (m i : ℕ) (v : UInt8) : (oneByte m i v).length = m := by
  simp [oneByte, zeros]

theorem getD_oneByte {m i : ℕ} (h : i < m) (v : UInt8) : (oneByte m i v).getD i 0 = v := by
  simp [oneByte, zeros, List.getD_eq_getElem?_getD, h]

theorem charVal_eq (W : World w) (c : BitVec 8) :
    W.charVal c = if W.charSigned ∧ 128 ≤ c.toNat then (c.toNat : ℤ) - 256 else c.toNat := by
  have hlt := c.isLt
  unfold World.charVal
  cases W.charSigned with
  | false => simp
  | true =>
    rw [if_pos rfl, BitVec.toInt_eq_toNat_cond]
    split_ifs <;> simp_all
    all_goals omega

theorem toNat_charVal {c : BitVec 8} (h : 0 ≤ W.charVal c) : (c.toNat : ℤ) = W.charVal c := by
  have hlt := c.isLt
  rw [charVal_eq] at h ⊢
  split_ifs at h ⊢
  · omega
  · rfl

theorem sent_putChar {refused : ℤ → Bool} {f : SetFn} {i : ℕ} {v : BitVec 8} {c : Call}
    (hc : c ∈ (putChar W refused f i v).sent) :
    c = .set f (oneByte 8 i ⟨v⟩) ∧ refused (W.charVal v) = false := by
  unfold putChar at hc
  rw [sent_putCommand] at hc
  cases hr : refused (W.charVal v) with
  | true => simp [hr] at hc
  | false => exact ⟨by simpa [hr] using hc, rfl⟩

theorem valid_putChar {refused : ℤ → Bool} {f : SetFn} {i : ℕ} (v : BitVec 8)
    (h : ∀ m : ℤ, refused m = false → 0 ≤ m ∧
      ∀ b : UInt8, (b.toNat : ℤ) = m → Valid cnfSize (.set f (oneByte 8 i b))) :
    ∀ c ∈ (putChar W refused f i v).sent, Valid cnfSize c := by
  intro c hc
  obtain ⟨rfl, hr⟩ := sent_putChar hc
  obtain ⟨hle, hvalid⟩ := h _ hr
  exact hvalid ⟨v⟩ (toNat_charVal hle)

theorem valid_wifiMode (isAp : BitVec 8) :
    ∀ c ∈ (atbmWsmSetWifiMode W isAp).sent, Valid cnfSize c := by
  refine valid_putChar isAp fun m hm => ?_
  rw [decide_eq_false_iff_not] at hm
  refine ⟨by omega, fun b hb => ⟨length_oneByte .., ?_⟩⟩
  show (oneByte 8 4 b).getD 4 0 ≤ 1
  rw [getD_oneByte (by decide), UInt8.le_iff_toNat_le]
  show b.toNat ≤ 1
  omega

theorem valid_wifiChannel (channel : BitVec 8) :
    ∀ c ∈ (atbmWsmSetWifiChannel W channel).sent, Valid cnfSize c := by
  refine valid_putChar channel fun m hm => ?_
  rw [decide_eq_false_iff_not] at hm
  refine ⟨by omega, fun b hb => ⟨length_oneByte .., ?_⟩⟩
  show 1 ≤ (oneByte 8 5 b).getD 5 0 ∧ (oneByte 8 5 b).getD 5 0 ≤ 14
  rw [getD_oneByte (by decide), UInt8.le_iff_toNat_le, UInt8.le_iff_toNat_le]
  show 1 ≤ b.toNat ∧ b.toNat ≤ 14
  omega

theorem valid_listenItvl (interval : BitVec 8) :
    ∀ c ∈ (atbmWsmSetListenItvl W interval).sent, Valid cnfSize c := by
  refine valid_putChar interval fun m hm => ?_
  rw [decide_eq_false_iff_not] at hm
  refine ⟨by omega, fun b hb => ⟨length_oneByte .., ?_⟩⟩
  show 1 ≤ (oneByte 8 4 b).getD 4 0 ∧ (oneByte 8 4 b).getD 4 0 ≤ 20
  rw [getD_oneByte (by decide), UInt8.le_iff_toNat_le, UInt8.le_iff_toNat_le]
  show 1 ≤ b.toNat ∧ b.toNat ≤ 20
  omega

theorem valid_country_iff (country : BitVec 8) :
    (∀ c ∈ (atbmWsmSetCountry W country).sent, Valid cnfSize c) ↔
      ¬ (W.charSigned ∧ 128 ≤ country.toNat) := by
  have hlt := country.isLt
  have hval := charVal_eq W country
  have hvalid : Valid cnfSize (.set .setCountryId (oneByte 8 6 ⟨country⟩)) ↔
      country.toNat < 9 := by
    rw [Valid]
    show _ ∧ (oneByte 8 6 ⟨country⟩).getD 6 0 < 9 ↔ _
    rw [getD_oneByte (by decide), UInt8.lt_iff_toNat_lt]
    exact and_iff_right (length_oneByte ..)
  constructor
  · intro h hneg
    rw [if_pos hneg] at hval
    have hsent : Call.set .setCountryId (oneByte 8 6 ⟨country⟩) ∈
        (atbmWsmSetCountry W country).sent := by
      unfold atbmWsmSetCountry putChar
      rw [sent_putCommand, if_neg (by rw [decide_eq_true_iff]; omega)]
      exact List.mem_singleton.mpr rfl
    have := hvalid.mp (h _ hsent)
    omega
  · intro hneg c hc
    obtain ⟨rfl, hr⟩ := sent_putChar hc
    rw [if_neg hneg] at hval
    rw [decide_eq_false_iff_not] at hr
    exact hvalid.mpr (by omega)

theorem valid_empty (r : ℤ) : ∀ c ∈ (⟨r, []⟩ : Outcome w).sent, Valid cnfSize c := nofun

theorem valid_scanInfo (arg : BitVec w) :
    ∀ c ∈ (atbmWsmGetScanInfo W arg).sent, Valid cnfSize c := by
  intro c hc
  unfold atbmWsmGetScanInfo at hc
  dsimp only at hc
  split at hc
  · cases hc
  · split at hc
    · cases hc
    · next result _ =>
      have hsent : c = .getScanInfo result.toList := by
        split_ifs at hc <;> simpa [Outcome.sent] using hc
      rw [hsent]
      exact Vector.length_toList ..

/-- **Every other command** is valid. -/
theorem valid_of_ne {cmd : Code} (hcmd : cmd ≠ .setCountry) (arg : BitVec w) :
    ∀ c ∈ (atbmUnlockedIoctl W stack cmd arg).sent, Valid W.cnfSize c := by
  cases cmd
  case setCountry => exact absurd rfl hcmd
  case connect =>
    refine connect_elim (P := fun o => ∀ c ∈ o.sent, Valid W.cnfSize c) ?_ (valid_empty _)
    refine forall_sent_putData fun req hlen c hc => ?_
    obtain rfl := Option.some.inj hc
    exact valid_join hlen
  case apCfg =>
    refine apCfg_elim (P := fun o => ∀ c ∈ o.sent, Valid W.cnfSize c) ?_ (valid_empty _)
    refine forall_sent_putData fun req hlen c hc => ?_
    obtain rfl := Option.some.inj hc
    exact valid_apCfg hlen
  case scan =>
    exact setScan_elim (P := fun o => ∀ c ∈ o.sent, Valid W.cnfSize c)
      (valid_command ⟨rfl, trivial⟩) (valid_empty _)
  case scanInfo => exact valid_scanInfo arg
  case wifiMode => exact valid_wifiMode _
  case wifiChannel => exact valid_wifiChannel _
  case listenItvl => exact valid_listenItvl _
  case aptouchStart | fwDbgPrint =>
    refine valid_command ⟨length_oneByte .., ?_⟩
    show (oneByte 8 4 _).getD 4 0 ≤ 1
    rw [getD_oneByte (by decide)]
    split_ifs <;> decide
  case wkupEvent => exact valid_command ⟨by simp [zeros, reqSize], trivial⟩
  case ipcData =>
    refine forall_sent_putData fun req hlen c hc => ?_
    obtain rfl := Option.some.inj hc
    exact hlen
  case checkAlive => exact forall_sent_putData fun req hlen c hc => valid_checkAlive hlen hc
  case txEmpty | preRmmod | invalid => exact nofun
  -- the other requests: an answer, a command without data, or one with data of its own
  all_goals first
    | exact valid_get rfl
    | exact valid_command ⟨rfl, trivial⟩
    | exact forall_sent_putData (valid_plain (by exact fun _ => trivial) rfl)

/-- **What is sent is valid**, but for a country code that is negative as a `char`. -/
theorem sent_valid_iff (W : World w) (stack : Vector UInt8 8) (cmd : Code) (arg : BitVec w) :
    (∀ c ∈ (atbmUnlockedIoctl W stack cmd arg).sent, Valid W.cnfSize c) ↔
      ¬ (cmd = .setCountry ∧ W.charSigned = true ∧ 128 ≤ (arg.setWidth 8).toNat) := by
  by_cases hcmd : cmd = .setCountry
  · subst hcmd
    exact (valid_country_iff _).trans (by rw [and_iff_right rfl])
  · exact iff_of_true (valid_of_ne hcmd arg) fun h => hcmd h.1

/-! ### The memory of the process -/

/-- The argument goes through an `unsigned int`. -/
def Code.isNarrow : Code → Bool
  | .psSet | .connect | .status | .setFilter | .getFilter | .scanInfo | .apCfg | .getCountry
  | .getStalist | .etfStartTx | .etfSingletone | .etfStartRx | .adaptive | .version | .sdkVersion
  | .updateFw | .fwAtCmd | .etfStartRxNoDrop | .txRate | .ipcData | .rssi | .time | .etfRxInfo =>
    true
  | _ => false

/-- The argument is compared with `NULL`. -/
def Code.testsNull : Code → Bool
  | .status | .txRate | .rssi | .time | .etfRxInfo => false
  | cmd => cmd.isNarrow

/-- Where the driver accesses the memory of the process. -/
def Code.pointer (cmd : Code) (arg : BitVec w) : BitVec w :=
  if cmd.isNarrow then narrow arg else arg

theorem narrow_eq_iff (arg : BitVec w) : narrow arg = arg ↔ arg.toNat < 2 ^ 32 := by
  have hlt := arg.isLt
  have hle : arg.toNat % 2 ^ 32 % 2 ^ w = arg.toNat % 2 ^ 32 :=
    Nat.mod_eq_of_lt ((Nat.mod_le _ _).trans_lt hlt)
  rw [BitVec.toNat_eq.trans (by rw [narrow, BitVec.toNat_setWidth, BitVec.toNat_setWidth, hle])]
  constructor
  · intro h
    rw [← h]
    exact Nat.mod_lt _ (by decide)
  · exact Nat.mod_eq_of_lt

/-- An access is at the pointer, which has passed its test. -/
def AtPointer (null : Bool) (data : BitVec w) (o : Outcome w) : Prop :=
  ∀ a ∈ o.accesses, a = data ∧ ¬ (null = true ∧ data = 0)

theorem atPointer_putData : AtPointer null data (putData W null data n command err) := by
  intro a ha
  rcases putData_cases W null data n command err with
    ⟨-, -, heq⟩ | ⟨hnull, heq | ⟨req, c, -, -, heq⟩⟩
  · rw [heq] at ha
    cases ha
  · rw [heq] at ha
    exact ⟨by simpa [Outcome.accesses] using ha, hnull⟩
  · rw [heq] at ha
    exact ⟨by simpa [Outcome.accesses] using ha, hnull⟩

theorem atPointer_getData :
    AtPointer null data (getData W null data f n left status part err) := by
  intro a ha
  unfold getData at ha
  dsimp only at ha
  split_ifs at ha with hnull
  · cases ha
  · cases ha
  · cases ha
  all_goals exact ⟨by simpa [Outcome.accesses] using ha, hnull⟩

theorem atPointer_putCommand (c : Option Call) : AtPointer null data (putCommand W c) := by
  cases c <;> exact nofun

theorem atPointer_empty (r : ℤ) : AtPointer null data ⟨r, []⟩ := nofun

theorem atPointer_ioctl (cmd : Code) (arg : BitVec w) :
    AtPointer cmd.testsNull (cmd.pointer arg) (atbmUnlockedIoctl W stack cmd arg) := by
  cases cmd
  case connect => exact connect_elim atPointer_putData (atPointer_empty _)
  case apCfg => exact apCfg_elim atPointer_putData (atPointer_empty _)
  case scan => exact setScan_elim (atPointer_putCommand _) (atPointer_empty _)
  case scanInfo =>
    show AtPointer true (narrow arg) (atbmWsmGetScanInfo W arg)
    intro a ha
    unfold atbmWsmGetScanInfo at ha
    dsimp only at ha
    split at ha
    · cases ha
    · next hnull =>
      refine ⟨?_, fun h => hnull h.2⟩
      split at ha
      · simpa [Outcome.accesses] using ha
      · split_ifs at ha <;> simpa [Outcome.accesses] using ha
  case txEmpty =>
    intro a ha
    obtain rfl : a = arg := by
      simpa [Outcome.accesses, atbmUnlockedIoctl, atbmWsmIsTxBufferEmpty] using ha
    exact ⟨rfl, nofun⟩
  case preRmmod | invalid => exact atPointer_empty _
  all_goals first
    | exact atPointer_getData
    | exact atPointer_putData
    | exact atPointer_putCommand _

/-- Nothing of the process can be copied, and the firmware answers everything alike. -/
def unmapped (body : List UInt8) : World w where
  copyFromUser _ _ := none
  copyToUser _ _ := false
  answer _ := .confirm body
  charSigned := false
  vif := true
  scanState := false
  txFrameQueueEmpty := true
  cnfSize := 0

/-- A long answer, all zero. -/
structure IsZero (body : List UInt8) : Prop where
  length : 132 ≤ body.length
  take : ∀ m, m ≤ 132 → body.take m = zeros m

theorem isZero_zeros : IsZero (zeros 132) :=
  ⟨(List.length_replicate ..).ge, fun m hm => by
    rw [zeros, List.take_replicate, Nat.min_eq_left hm, zeros]⟩

variable {body : List UInt8}

theorem mem_accesses_putData (hnull : ¬ (null = true ∧ data = 0)) :
    data ∈ (putData (unmapped body) null data n command err).accesses := by
  unfold putData
  rw [if_neg hnull]
  exact List.mem_singleton.mpr rfl

theorem mem_accesses_getData (hbody : IsZero body) (hnull : ¬ (null = true ∧ data = 0))
    (hn : n ≤ 132) (hstatus : status = true → 4 ≤ n) :
    data ∈ (getData (unmapped body) null data f n left status part err).accesses := by
  have hret : confirm (.get f n) body = 0 := if_neg (Nat.not_lt.mpr (hn.trans hbody.length))
  have hwsm : (unmapped body : World w).wsm (.get f n) = 0 := hret
  have hfilled : (unmapped body : World w).filled (.get f n) n left = zeros n :=
    (if_pos hret).trans (hbody.take n hn)
  unfold getData
  rw [if_neg hnull]
  dsimp only
  rw [if_neg (not_not_intro hwsm), hfilled, if_neg]
  · simp [Outcome.accesses]
  · rintro ⟨hs, hne⟩
    have hfour : (zeros n).take 4 = zeros 4 := by
      rw [zeros, List.take_replicate, Nat.min_eq_left (hstatus hs), zeros]
    rw [hfour] at hne
    exact hne rfl

theorem mem_accesses_ioctl (hbody : IsZero body) {cmd : Code} {arg : BitVec w}
    (hcmd : cmd.isNarrow = true) (hnull : ¬ (cmd.testsNull = true ∧ narrow arg = 0)) :
    narrow arg ∈ (atbmUnlockedIoctl (unmapped body) stack cmd arg).accesses := by
  cases cmd
  case scanInfo =>
    show narrow arg ∈ (atbmWsmGetScanInfo (unmapped body) arg).accesses
    unfold atbmWsmGetScanInfo
    dsimp only
    rw [if_neg fun h => hnull ⟨rfl, h⟩]
    exact List.mem_singleton.mpr rfl
  case connect | apCfg =>
    show _ ∈ (if true = true then putData _ _ _ _ _ _ else _ : Outcome w).accesses
    rw [if_pos rfl]
    exact mem_accesses_putData hnull
  case status => exact mem_accesses_getData hbody hnull (Nat.zero_le _) nofun
  all_goals first
    | exact (Bool.false_ne_true hcmd).elim
    | show _ ∈ (putData _ _ _ _ _ _).accesses
      exact mem_accesses_putData hnull
    | refine mem_accesses_getData hbody hnull ?_ ?_ <;> decide

/-- **The driver accesses the memory of the process where it says**, unless the argument goes
through an `unsigned int` and does not fit. -/
theorem own_buffer_iff (cmd : Code) (arg : BitVec w) :
    (∀ (W : World w) (stack : Vector UInt8 8),
      ∀ a ∈ (atbmUnlockedIoctl W stack cmd arg).accesses, a = arg) ↔
      (cmd.isNarrow = true → arg.toNat < 2 ^ 32 ∨ cmd.testsNull = true ∧ narrow arg = 0) := by
  constructor
  · intro h hcmd
    by_cases hnull : cmd.testsNull = true ∧ narrow arg = 0
    · exact .inr hnull
    · exact .inl ((narrow_eq_iff arg).mp
        (h (unmapped (zeros 132)) (Vector.replicate 8 0) _
          (mem_accesses_ioctl isZero_zeros hcmd hnull)))
  · intro h W stack a ha
    obtain ⟨heq, hnull⟩ := atPointer_ioctl cmd arg a ha
    unfold Code.pointer at heq hnull
    split_ifs at heq hnull with hcmd
    · rcases h hcmd with hlt | hzero
      · rw [heq]
        exact (narrow_eq_iff arg).mpr hlt
      · exact absurd hzero hnull
    · exact heq

/-! ### What the process gets -/

/-- An event that copies a part of an answer of the firmware, to a command of the same request that
has succeeded. -/
def FromAnswer (W : World w) (log : List (Event w)) (bytes : List UInt8) : Prop :=
  ∃ c body i k, Event.send c ∈ log ∧ W.answer c = .confirm body ∧ confirm c body = 0 ∧
    i + k ≤ body.length ∧ bytes = (body.drop i).take k

/-- Every write of a request copies a part of an answer. -/
def OnlyAnswers (W : World w) (o : Outcome w) : Prop :=
  ∀ addr bytes, Event.write addr bytes ∈ o.log → FromAnswer W o.log bytes

theorem answer_of_wsm {c : Call} (h : W.wsm c = 0) :
    ∃ body, W.answer c = .confirm body ∧ confirm c body = 0 := by
  unfold World.wsm at h
  rcases hans : W.answer c with e | body
  · rw [hans] at h
    simp only at h
    omega
  · rw [hans] at h
    exact ⟨body, rfl, h⟩

theorem filled_of_answer {c : Call} {body : List UInt8} (hans : W.answer c = .confirm body)
    (h : confirm c body = 0) (m : ℕ) (left : List UInt8) : W.filled c m left = body.take m := by
  unfold World.filled
  rw [hans]
  exact if_pos h

theorem le_of_confirm_get {body : List UInt8} (h : confirm (.get f n) body = 0) :
    n ≤ body.length := by
  by_contra hlt
  have : confirm (.get f n) body = -22 := if_pos (Nat.lt_of_not_le hlt)
  omega

theorem onlyAnswers_getData (hpart : part = id ∨ ∃ i, i < n ∧ part = fun req => [req.getD i 0]) :
    OnlyAnswers W (getData W null data f n left status part err) := by
  intro addr bytes hmem
  unfold getData at hmem ⊢
  dsimp only at hmem ⊢
  split_ifs at hmem ⊢ with hnull hret hstatus
  · cases hmem
  · simp at hmem
  · simp at hmem
  all_goals
    obtain ⟨body, hans, hok⟩ := answer_of_wsm (not_not.mp hret)
    have hlen := le_of_confirm_get hok
    have hreq := filled_of_answer hans hok n left
    rw [hreq] at hmem ⊢
    obtain ⟨-, rfl⟩ : addr = data ∧ bytes = part (body.take n) := by simpa using hmem
    rcases hpart with rfl | ⟨i, hi, rfl⟩
    · exact ⟨_, body, 0, n, List.mem_cons_self, hans, hok, by omega, by simp⟩
    · refine ⟨_, body, i, 1, List.mem_cons_self, hans, hok, by omega, ?_⟩
      have hib : i < body.length := hi.trans_le hlen
      simp [List.getD_eq_getElem?_getD, hi, hib, List.take_one, List.head?_drop]

theorem onlyAnswers_putData : OnlyAnswers W (putData W null data n command err) := by
  intro addr bytes hmem
  rcases putData_cases W null data n command err with
    ⟨-, -, heq⟩ | ⟨-, heq | ⟨req, c, -, -, heq⟩⟩ <;> simp [heq] at hmem

theorem onlyAnswers_putCommand (c : Option Call) : OnlyAnswers W (putCommand W c) := by
  intro addr bytes hmem
  cases c <;> simp [putCommand] at hmem

theorem onlyAnswers_empty (r : ℤ) : OnlyAnswers W ⟨r, []⟩ := nofun

theorem onlyAnswers_scanInfo (arg : BitVec w) : OnlyAnswers W (atbmWsmGetScanInfo W arg) := by
  intro addr bytes hmem
  unfold atbmWsmGetScanInfo at hmem ⊢
  dsimp only at hmem ⊢
  split at hmem
  · cases hmem
  · next hnull =>
    rw [if_neg hnull]
    rcases hcopy : W.copyFromUser (narrow arg) 1300 with _ | result
    · simp [hcopy] at hmem
    · simp only [hcopy] at hmem ⊢
      split_ifs at hmem ⊢ with hret hstatus
      · simp at hmem
      · simp at hmem
      all_goals
        obtain ⟨body, hans, hok⟩ := answer_of_wsm (not_not.mp hret)
        have hlen : 1300 ≤ body.length := by
          by_contra hlt
          have hshort : confirm (.getScanInfo result.toList) body = -22 :=
            if_pos (by rw [Vector.length_toList]; exact Nat.lt_of_not_le hlt)
          omega
        have hreq := filled_of_answer hans hok 1300 result.toList
        rw [hreq] at hmem ⊢
        obtain ⟨-, rfl⟩ : addr = narrow arg ∧ bytes = body.take 1300 := by simpa using hmem
        exact ⟨_, body, 0, 1300, by simp, hans, hok, by omega, by simp⟩

/-- **What is copied to the process** comes out of answers of the firmware to the same request, but
for the state of the TX queue. -/
theorem onlyAnswers_ioctl {cmd : Code} (hcmd : cmd ≠ .txEmpty) (arg : BitVec w) :
    OnlyAnswers W (atbmUnlockedIoctl W stack cmd arg) := by
  cases cmd
  case txEmpty => exact absurd rfl hcmd
  case connect => exact connect_elim onlyAnswers_putData (onlyAnswers_empty _)
  case apCfg => exact apCfg_elim onlyAnswers_putData (onlyAnswers_empty _)
  case scan => exact setScan_elim (onlyAnswers_putCommand _) (onlyAnswers_empty _)
  case scanInfo => exact onlyAnswers_scanInfo arg
  case getCountry => exact onlyAnswers_getData (.inr ⟨6, by decide, rfl⟩)
  case preRmmod | invalid => exact onlyAnswers_empty _
  all_goals first
    | exact onlyAnswers_getData (.inl rfl)
    | exact onlyAnswers_putData
    | exact onlyAnswers_putCommand _

/-- The buffer of a request that succeeds is that of its answer, whatever was in it. -/
theorem getData_left (left left' : List UInt8) :
    getData W null data f n left status part err =
      getData W null data f n left' status part err := by
  unfold getData
  dsimp only
  by_cases hret : W.wsm (.get f n) = 0
  · obtain ⟨body, hans, hok⟩ := answer_of_wsm hret
    rw [filled_of_answer hans hok, filled_of_answer hans hok]
  · rw [if_pos hret, if_pos hret]

/-- **Nothing of the stack is seen**: no request depends on what is in a buffer that is not cleared,
and what a request copies to the process is a part of an answer to it. -/
theorem stack_unseen (W : World w) (stack : Vector UInt8 8) (cmd : Code) (arg : BitVec w) :
    (∀ stack', atbmUnlockedIoctl W stack' cmd arg = atbmUnlockedIoctl W stack cmd arg) ∧
      (OnlyAnswers W (atbmUnlockedIoctl W stack cmd arg) ∨ cmd = .txEmpty) := by
  refine ⟨fun stack' => ?_, ?_⟩
  · cases cmd
    case connLoseMap =>
      show atbmWsmConnLoseMap W arg stack' = atbmWsmConnLoseMap W arg stack
      exact getData_left _ _
    all_goals rfl
  · by_cases hcmd : cmd = .txEmpty
    · exact .inr hcmd
    · exact .inl (onlyAnswers_ioctl hcmd arg)

/-! ### Runs -/

/-- A request, with what `krealloc` would return as its command is built. -/
structure Request (w : ℕ) where
  world : World w
  stack : Vector UInt8 8
  cmd : Code
  arg : BitVec w
  krealloc : ℕ → Alloc

namespace Request

def outcome (r : Request w) : Outcome w := atbmUnlockedIoctl r.world r.stack r.cmd r.arg

/-- What the commands of a request meet. -/
def env (r : Request w) (c : Call) : Env :=
  ⟨r.krealloc, match r.world.answer c with | .fails _ => false | .confirm _ => true, r.world.wsm c⟩

def calls (r : Request w) : List (Call × Env) := r.outcome.sent.map fun c => (c, r.env c)

end Request

/-- A command that is put at once, and fits. -/
structure Fits (c : Call) : Prop where
  puts : c.puts = [c.payload]
  length : c.payload.length ≤ 1300
  noAck : c.noAck = true → c.payload ≠ []

theorem reqSize_le (f : SetFn) : reqSize f ≤ 1300 := by cases f <;> decide

theorem fits_of_valid {c : Call} (h : Valid cnfSize c) : Fits c := by
  cases c with
  | set f l =>
    have hlen : (Call.set f l).payload.length ≤ 1300 := by
      simpa [Call.payload, Call.puts, h.1] using reqSize_le f
    exact ⟨by simp [Call.payload, Call.puts], hlen, nofun⟩
  | get f m => exact ⟨by simp [Call.payload, Call.puts], by simp [Call.payload, Call.puts], nofun⟩
  | getScanInfo l =>
    have hlen : l.length = 1300 := h
    exact ⟨by simp [Call.payload, Call.puts], by simp [Call.payload, Call.puts, hlen], nofun⟩
  | join l ifId =>
    exact ⟨by simp [Call.payload, Call.puts], by simp [Call.payload, Call.puts, h.1], nofun⟩
  | sendIpcData l =>
    have hlen : l.length = 1024 := h
    refine ⟨by simp [Call.payload, Call.puts], by simp [Call.payload, Call.puts, hlen], ?_⟩
    intro _ hnil
    rw [Call.payload, Call.puts, List.flatten_cons, List.flatten_nil, List.append_nil] at hnil
    rw [hnil] at hlen
    cases hlen
  | reset _ _ _ => exact h.elim
  | readShmem _ _ => exact h.elim
  | writeShmem _ _ => exact h.elim
  | configuration _ _ => exact h.elim

theorem fits_ioctl (cmd : Code) (arg : BitVec w) :
    ∀ c ∈ (atbmUnlockedIoctl W stack cmd arg).sent, Fits c := by
  intro c hc
  by_cases hcmd : cmd = .setCountry
  · subst hcmd
    obtain ⟨rfl, -⟩ := sent_putChar hc
    exact ⟨by simp [Call.payload, Call.puts], by simp [Call.payload, Call.puts, length_oneByte],
      nofun⟩
  · exact fits_of_valid (valid_of_ne hcmd arg c hc)

theorem callServed_iff {c : Call} (h : Fits c) (e : Env) (size' : ℕ) :
    CallServed maxWsmBufLen c e size' ↔ size' = maxWsmBufLen ∧ (c.noAck = true → e.skb = true) := by
  have hlen := h.length
  have hle : hdrTxLen + ([] : List UInt8).length + c.payload.length ≤ maxWsmBufLen := by
    rw [List.length_nil, hdrTxLen, maxWsmBufLen]
    omega
  have hroom : Room maxWsmBufLen [] True c.puts e.krealloc size' ↔ size' = maxWsmBufLen := by
    rw [h.puts]
    simp only [Room, if_pos hle, and_true]
  rw [CallServed, hroom]
  refine and_congr_right fun _ => forall_congr' fun hn => or_iff_left (h.noAck hn)

theorem callsServed_iff {cs : List (Call × Env)} (h : ∀ ce ∈ cs, Fits ce.1) :
    Served maxWsmBufLen cs ↔ ∀ ce ∈ cs, ce.1.noAck = true → ce.2.skb = true := by
  induction cs with
  | nil => simp [Served]
  | cons ce cs ih =>
    obtain ⟨c, e⟩ := ce
    obtain ⟨hc, hcs⟩ := List.forall_mem_cons.mp h
    rw [Served, List.forall_mem_cons, ← ih hcs]
    constructor
    · rintro ⟨size', hserved, hrest⟩
      obtain ⟨rfl, hskb⟩ := (callServed_iff hc e size').mp hserved
      exact ⟨hskb, hrest⟩
    · rintro ⟨hskb, hrest⟩
      exact ⟨maxWsmBufLen, (callServed_iff hc e _).mpr ⟨rfl, hskb⟩, hrest⟩

/-- **A run of requests**: whatever `krealloc` would return, the buffer is reset after each request
and every message is exactly the command of its request, if and only if every IPC message gets its
buffer. -/
theorem ioctls_clean_iff (fresh : ℕ → UInt8) (rs : List (Request w)) :
    (∀ r ∈ (WsmBuf.init (some fresh)).transcript (rs.flatMap Request.calls), Clean r.1 r.2) ↔
      ∀ r ∈ rs, ∀ c ∈ r.outcome.sent, c.noAck = true →
        ∃ body, r.world.answer c = .confirm body := by
  have hfits : ∀ ce ∈ rs.flatMap Request.calls, Fits ce.1 := by
    intro ce hce
    obtain ⟨r, -, hr⟩ := List.mem_flatMap.mp hce
    obtain ⟨c, hc, rfl⟩ := List.mem_map.mp hr
    exact fits_ioctl r.cmd r.arg c hc
  rw [transcript_clean_iff_of_ready (ready_init fresh), callsServed_iff hfits, List.forall_mem_flatMap]
  refine forall₂_congr fun r _ => ?_
  rw [Request.calls, List.forall_mem_map]
  refine forall₂_congr fun c _ => forall_congr' fun _ => ?_
  unfold Request.env
  cases r.world.answer c with
  | fails e => exact iff_of_false Bool.false_ne_true nofun
  | confirm body => exact iff_of_true rfl ⟨body, rfl⟩

end Atbm6441.Ioctl.Dispatch
