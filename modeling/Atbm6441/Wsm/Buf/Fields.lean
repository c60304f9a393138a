import Atbm6441.Lib.Cursor
import Atbm6441.Wsm.Buf.Reserve

/-!
# Fields that are put and got

The macros `WSM_PUT8`, `WSM_PUT16`, `WSM_PUT32` and `WSM_PUT`, and `WSM_GET8`, `WSM_GET16`,
`WSM_GET32` and `WSM_GET`, on lists of fields. `puts_gets_law` : fields that were put are got back,
and a get fails exactly when fewer bytes remain than its type needs.
-/

namespace Atbm6441.Wsm.Buf

open Atbm6441.Lib

/-! ### Types and fields -/

inductive FieldType
  | u8
  | u16
  | u32
  | raw (n : ℕ)
deriving DecidableEq

/-- `sizeof(type)`, or the number of bytes. -/
def FieldType.size : FieldType → ℕ
  | u8 => 1
  | u16 => 2
  | u32 => 4
  | raw n => n

/-- A field of a message, or what a destination holds. -/
inductive Field
  | u8 (v : BitVec 8)
  | u16 (v : BitVec 16)
  | u32 (v : BitVec 32)
  | raw (bs : List UInt8)
deriving DecidableEq

namespace Field

def type : Field → FieldType
  | u8 _ => .u8
  | u16 _ => .u16
  | u32 _ => .u32
  | raw bs => .raw bs.length

/-- The bytes that are put: numbers in little-endian order. -/
def encode : Field → List UInt8
  | u8 v => leBytes 1 v.toNat
  | u16 v => leBytes 2 v.toNat
  | u32 v => leBytes 4 v.toNat
  | raw bs => bs

end Field

/-- What bytes of a type are got as. -/
def FieldType.decode : FieldType → List UInt8 → Field
  | u8, bs => .u8 (BitVec.ofNat 8 (leNat bs))
  | u16, bs => .u16 (BitVec.ofNat 16 (leNat bs))
  | u32, bs => .u32 (BitVec.ofNat 32 (leNat bs))
  | raw _, bs => .raw bs

namespace WsmBuf

/-- `n` bytes from `data` on. -/
def next (b : WsmBuf) (n : ℕ) : List UInt8 := ((b.mem.getD []).drop b.data).take n

/-- `WSM_GET` and `__WSM_GET`: whether there was no underflow, the buffer and the destination. -/
def get (b : WsmBuf) (ty : FieldType) (dst : Field) : Bool × WsmBuf × Field :=
  if b.size < b.data + ty.size then (false, b, dst)
  else (true, { b with data := b.data + ty.size }, ty.decode (b.next ty.size))

/-- One get after the other, up to the first underflow. -/
def gets (b : WsmBuf) : List (FieldType × Field) → Bool × WsmBuf × List Field
  | [] => (true, b, [])
  | (ty, dst) :: tys =>
    match b.get ty dst with
    | (true, b', dst') =>
      match b'.gets tys with
      | (ok, b'', dsts) => (ok, b'', dst' :: dsts)
    | (false, b', dst') => (false, b', dst' :: tys.map (·.2))

/-- The fields, one put after the other. -/
def putFields (b : WsmBuf) (fs : List Field) (alloc : ℕ → Alloc) : Built :=
  b.puts (fs.map Field.encode) alloc

/-- The bytes that remain. -/
def remaining (b : WsmBuf) : ℤ := b.size - b.data

end WsmBuf

/-- `wsm_generic_get_confirm`: its result, the buffer and the caller's buffer. -/
def wsmGenericGetConfirm (b : WsmBuf) (argBuf : List UInt8) (bufSize : ℕ) :
    ℤ × WsmBuf × Field :=
  match b.get (.raw bufSize) (.raw argBuf) with
  | (true, b', dst) => (0, b', dst)
  | (false, b', dst) => (-22, b', dst)

/-- The bytes that the types of a list need. -/
def need (tys : List (FieldType × Field)) : ℕ := (tys.map fun t => t.1.size).sum

/-! ### One field -/

variable {b : WsmBuf}

@[simp] theorem length_encode (f : Field) : f.encode.length = f.type.size := by
  cases f <;> simp [Field.encode, Field.type, FieldType.size]

/-- **What is encoded is decoded.** -/
theorem field_decode_encode (f : Field) : f.type.decode f.encode = f := by
  cases f with
  | u8 v =>
    rw [Field.encode, Field.type, FieldType.decode, leNat_leBytes 1 v.isLt, BitVec.ofNat_toNat]
    simp
  | u16 v =>
    rw [Field.encode, Field.type, FieldType.decode, leNat_leBytes 2 v.isLt, BitVec.ofNat_toNat]
    simp
  | u32 v =>
    rw [Field.encode, Field.type, FieldType.decode, leNat_leBytes 4 v.isLt, BitVec.ofNat_toNat]
    simp
  | raw bs => rfl

/-- **A get** fails exactly when fewer bytes remain than its type needs. -/
theorem get_spec (b : WsmBuf) (ty : FieldType) (dst : Field) :
    if b.remaining < ty.size then b.get ty dst = (false, b, dst)
    else b.get ty dst =
      (true, { b with data := b.data + ty.size }, ty.decode (b.next ty.size)) := by
  have hiff : b.remaining < ty.size ↔ b.size < b.data + ty.size := by
    unfold WsmBuf.remaining
    omega
  by_cases hlt : b.size < b.data + ty.size
  · rw [if_pos (hiff.mpr hlt)]
    exact if_pos hlt
  · rw [if_neg fun h => hlt (hiff.mp h)]
    exact if_neg hlt

/-! ### Lists of fields -/

/-- **Fields that fit are put** one behind the other. -/
theorem putFields_fits (fs : List Field) (alloc : ℕ → Alloc)
    (h : b.data + (fs.flatMap Field.encode).length ≤ b.size) :
    ∃ b', b.putFields fs alloc = .done b' ∧ b'.written = b.written ++ fs.flatMap Field.encode ∧
      b'.cap = b.cap ∧ b'.data = b.data + (fs.flatMap Field.encode).length := by
  induction fs generalizing b alloc with
  | nil => exact ⟨b, rfl, (List.append_nil _).symm, rfl, rfl⟩
  | cons f fs ih =>
    rw [List.flatMap_cons, List.length_append] at h
    have hfit : b.data + f.encode.length ≤ b.size := by omega
    obtain ⟨b₁, hwrite, hwritten, hcap, hdata⟩ := write_sound hfit
    have hput : b.put f.encode (alloc 0) = .done b₁ := by
      rw [WsmBuf.put, if_neg (Nat.not_lt.mpr hfit), hwrite]
    have hsize : b₁.size = b.size := by rw [← cap_getD, hcap, cap_getD]
    have hfit' : b₁.data + (fs.flatMap Field.encode).length ≤ b₁.size := by omega
    obtain ⟨b', hputs, hwritten', hcap', hdata'⟩ := ih (fun i => alloc (i + 1)) hfit'
    refine ⟨b', ?_, ?_, hcap'.trans hcap, ?_⟩
    · rw [WsmBuf.putFields, List.map_cons, WsmBuf.puts, hput]
      exact hputs
    · rw [hwritten', hwritten, List.flatMap_cons, List.append_assoc]
    · rw [hdata', hdata, List.flatMap_cons, List.length_append, Nat.add_assoc]

/-- **Fields that are there are got.** -/
theorem gets_encode (fs : List Field) {tys : List (FieldType × Field)} {rest : List UInt8}
    (htys : tys.map (·.1) = fs.map Field.type)
    (hmem : (b.mem.getD []).drop b.data = fs.flatMap Field.encode ++ rest)
    (hdata : b.data ≤ b.size) :
    b.gets tys = (true, { b with data := b.data + (fs.flatMap Field.encode).length }, fs) := by
  induction fs generalizing b tys with
  | nil =>
    obtain rfl : tys = [] := List.map_eq_nil_iff.mp htys
    rfl
  | cons f fs ih =>
    obtain ⟨⟨ty, dst⟩, tys, rfl⟩ := List.exists_cons_of_ne_nil (l := tys) (by
      rintro rfl
      cases htys)
    rw [List.map_cons, List.map_cons, List.cons.injEq] at htys
    obtain ⟨hty, htys⟩ := htys
    obtain rfl : ty = f.type := hty
    rw [List.flatMap_cons, List.append_assoc] at hmem
    have hlen : b.size = b.data + (f.encode ++ (fs.flatMap Field.encode ++ rest)).length := by
      rw [← hmem, List.length_drop]
      change b.size = b.data + (b.size - b.data)
      omega
    have hfit : ¬ b.size < b.data + f.type.size := by
      rw [List.length_append, length_encode] at hlen
      omega
    have hnext : b.next f.type.size = f.encode := by
      rw [WsmBuf.next, hmem, List.take_left' (length_encode f)]
    have hget : b.get f.type dst = (true, { b with data := b.data + f.type.size }, f) := by
      rw [WsmBuf.get, if_neg hfit, hnext, field_decode_encode]
    have hmem' : (b.mem.getD []).drop (b.data + f.type.size) =
        fs.flatMap Field.encode ++ rest := by
      rw [← List.drop_drop, hmem, List.drop_left' (length_encode f)]
    have hrest := ih (b := { b with data := b.data + f.type.size }) htys hmem' (Nat.not_lt.mp hfit)
    rw [WsmBuf.gets, hget]
    dsimp only
    rw [hrest, List.flatMap_cons, List.length_append, length_encode]
    simp [Nat.add_assoc]

/-- **Gets stop at the first that fails**: those before it have got their fields, and it and those
behind it leave the buffer and their destinations. -/
theorem gets_cases (b : WsmBuf) (tys : List (FieldType × Field)) :
    (b.gets tys).1 = true ∧ (b.gets tys).2.1 = { b with data := b.data + need tys } ∨
      ∃ pre ty dst post, tys = pre ++ (ty, dst) :: post ∧ (b.gets pre).1 = true ∧
        (b.gets pre).2.1.remaining < ty.size ∧
        b.gets tys = (false, (b.gets pre).2.1, (b.gets pre).2.2 ++ dst :: post.map (·.2)) := by
  induction tys generalizing b with
  | nil => exact Or.inl ⟨rfl, rfl⟩
  | cons t tys ih =>
    obtain ⟨ty, dst⟩ := t
    have hspec := get_spec b ty dst
    by_cases hrem : b.remaining < ty.size
    · rw [if_pos hrem] at hspec
      have hstop : b.gets ((ty, dst) :: tys) = (false, b, dst :: tys.map (·.2)) := by
        rw [WsmBuf.gets, hspec]
      exact Or.inr ⟨[], ty, dst, tys, rfl, rfl, hrem, hstop⟩
    · rw [if_neg hrem] at hspec
      have hcons : ∀ l, b.gets ((ty, dst) :: l) =
          (({ b with data := b.data + ty.size } : WsmBuf).gets l |>.1,
            ({ b with data := b.data + ty.size } : WsmBuf).gets l |>.2.1,
            ty.decode (b.next ty.size) ::
              (({ b with data := b.data + ty.size } : WsmBuf).gets l).2.2) := by
        intro l
        rw [WsmBuf.gets, hspec]
      rcases ih { b with data := b.data + ty.size } with ⟨hok, hbuf⟩ | hfail
      · left
        rw [hcons, hok, hbuf]
        refine ⟨rfl, ?_⟩
        simp [need, Nat.add_assoc]
      · obtain ⟨pre, ty', dst', post, rfl, hok, hlt, heq⟩ := hfail
        refine Or.inr ⟨(ty, dst) :: pre, ty', dst', post, rfl, ?_, ?_, ?_⟩
        · rw [hcons]
          exact hok
        · rw [hcons]
          exact hlt
        · rw [hcons, hcons, heq]
          rfl

/-- **What was put is got back**, and exactly its bytes are consumed. -/
theorem puts_gets (fs : List Field) (alloc : ℕ → Alloc) (tys : List (FieldType × Field))
    (htys : tys.map (·.1) = fs.map Field.type)
    (hfit : b.data + (fs.flatMap Field.encode).length ≤ b.size) :
    ∃ b', b.putFields fs alloc = .done b' ∧ b'.data = b.data + (fs.flatMap Field.encode).length ∧
      ({ b' with data := b.data } : WsmBuf).gets tys = (true, b', fs) := by
  obtain ⟨b', hput, hwritten, hcap, hdata⟩ := putFields_fits fs alloc hfit
  have hsize : b'.size = b.size := by rw [← cap_getD, hcap, cap_getD]
  have hle : b.data ≤ b.size := by omega
  have hold : b.written.length = b.data := List.length_take_of_le hle
  have hmem : (b'.mem.getD []).drop b.data =
      fs.flatMap Field.encode ++ (b'.mem.getD []).drop b'.data := by
    conv_lhs => rw [← List.take_append_drop b'.data (b'.mem.getD [])]
    change (b'.written ++ _).drop b.data = _
    rw [hwritten, List.append_assoc, List.drop_left' hold]
  have hgets := gets_encode (b := { b' with data := b.data }) fs htys hmem
    (show b.data ≤ b'.size by rw [hsize]; exact hle)
  refine ⟨b', hput, hdata, ?_⟩
  rw [hgets, ← hdata]

/-- **The law of the puts and gets**: fields that fit are got back as they were put; a get fails
exactly when fewer bytes remain than its type needs, and changes nothing then; and gets stop at the
first that fails. -/
theorem puts_gets_law (b : WsmBuf) :
    (∀ fs alloc (tys : List (FieldType × Field)), tys.map (·.1) = fs.map Field.type →
      b.data + (fs.flatMap Field.encode).length ≤ b.size →
      ∃ b', b.putFields fs alloc = .done b' ∧
        b'.data = b.data + (fs.flatMap Field.encode).length ∧
        ({ b' with data := b.data } : WsmBuf).gets tys = (true, b', fs)) ∧
    (∀ ty dst, ((b.get ty dst).1 = false ↔ b.remaining < ty.size) ∧
      ((b.get ty dst).1 = false → b.get ty dst = (false, b, dst))) ∧
    ∀ tys, (b.gets tys).1 = true ∧ (b.gets tys).2.1 = { b with data := b.data + need tys } ∨
      ∃ pre ty dst post, tys = pre ++ (ty, dst) :: post ∧ (b.gets pre).1 = true ∧
        (b.gets pre).2.1.remaining < ty.size ∧
        b.gets tys = (false, (b.gets pre).2.1, (b.gets pre).2.2 ++ dst :: post.map (·.2)) := by
  refine ⟨fun fs alloc tys htys hfit => puts_gets fs alloc tys htys hfit, fun ty dst => ?_,
    gets_cases b⟩
  have hspec := get_spec b ty dst
  by_cases hrem : b.remaining < ty.size
  · rw [if_pos hrem] at hspec
    simp [hspec, hrem]
  · rw [if_neg hrem] at hspec
    simp [hspec, hrem]

/-- A number and some bytes are put behind the header and got back. -/
theorem puts_gets_law_pair : ∃ b', (⟨some (List.replicate 16 0), 8⟩ : WsmBuf).putFields
    [.u16 0x1234, .raw [7, 8, 9]] (fun _ => none) = .done b' ∧
      ({ b' with data := 8 } : WsmBuf).gets [(.u16, .u16 0), (.raw 3, .raw [])] =
        (true, b', [.u16 0x1234, .raw [7, 8, 9]]) := by
  obtain ⟨b', hput, -, hget⟩ := (puts_gets_law ⟨some (List.replicate 16 0), 8⟩).1
    [.u16 0x1234, .raw [7, 8, 9]] (fun _ => none) [(.u16, .u16 0), (.raw 3, .raw [])] rfl
    (by decide)
  exact ⟨b', hput, hget⟩

theorem wsmGenericGetConfirm_spec (b : WsmBuf) (argBuf : List UInt8) (bufSize : ℕ) :
    wsmGenericGetConfirm b argBuf bufSize =
      if b.remaining < bufSize then (-22, b, .raw argBuf)
      else (0, { b with data := b.data + bufSize }, .raw (b.next bufSize)) := by
  have hspec := get_spec b (.raw bufSize) (.raw argBuf)
  rw [show (FieldType.raw bufSize).size = bufSize from rfl] at hspec
  unfold wsmGenericGetConfirm
  by_cases hrem : b.remaining < bufSize
  · rw [if_pos hrem] at hspec ⊢
    rw [hspec]
  · rw [if_neg hrem] at hspec ⊢
    rw [hspec]
    rfl

end Atbm6441.Wsm.Buf
