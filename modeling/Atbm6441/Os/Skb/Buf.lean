import Atbm6441.Lib.Runs
import Mathlib.Data.Int.Init

/-!
# Buffers of the RTOS port

`atbm_os_skbuf.c`: the allocation of a buffer, and the functions that move its pointers. Addresses
and lengths are numbers below 2^32; those that are kept as `unsigned short` are below 2^16.

The allocation is for the structure and the room, rounded up; but both pointers are rounded up from
the start of the allocation, and the length of the room apart from it, and cut to 16 bits. None of
the other functions tests its argument, and `skb_copy` copies the bytes behind `Head` and moves
`data` by the headroom from where it is after an allocation.

* `bufs_inside` : in runs whose steps meet the condition every buffer keeps its bytes inside its
  allocation, and a copy has the same bytes;
* `alloc_fits_iff` : with which allocations the buffer is inside after every put and push within the
  reported room;
* `copy_same_iff` : a copy has the same bytes if they all are 0;
* `bufs_overrun` : a put within the tailroom that leaves the allocation, a pull that wraps, a copy
  with other bytes.
-/

namespace Atbm6441.Os.SkbBuf

open Atbm6441.Lib

/-! ### Buffers -/

/-- Arithmetic of `unsigned int` and of pointers. -/
def u32 (x : ℕ) : ℕ := x % 4294967296

/-- Arithmetic of `unsigned short`. -/
def u16 (x : ℕ) : ℕ := x % 65536

/-- `ATBM_MEM_ALIGN`, `ATBM_MEM_ALIGN_SIZE`. -/
def memAlign (x : ℕ) : ℕ := u32 (x + 31) / 32 * 32

/-- `struct sk_buff` in its allocation of `size` bytes at `p`, and the memory of that. -/
structure SkBuff where
  p : ℕ
  size : ℕ
  Head : ℕ
  data : ℕ
  Tail : ℕ
  End : ℕ
  len : ℕ
  bufferLen : ℕ
  mem : ℕ → UInt8

/-- The size of the allocation for a length. -/
def allocSize (length : ℕ) : ℕ := memAlign (u32 (112 + 64 + 64 + length))

/-- `__atbm_pbuf_alloc`, when `atbm_kzalloc` returns `p`. -/
def pbufAlloc (p length : ℕ) : SkBuff where
  p := p
  size := allocSize length
  Head := memAlign (u32 (p + 112))
  data := memAlign (u32 (p + 112 + 64))
  Tail := memAlign (u32 (p + 112 + 64))
  End := u32 (memAlign (u32 (p + 112 + 64)) + allocSize length)
  len := 0
  bufferLen := u16 (memAlign (u32 (64 + 64 + length)))
  mem := fun _ => 0

variable (skb : SkBuff)

def SkBuff.put (len : ℕ) : SkBuff :=
  { skb with Tail := u32 (skb.Tail + len), len := u16 (skb.len + len) }

def SkBuff.push (len : ℕ) : SkBuff :=
  { skb with data := u32 (skb.data + 4294967296 - len), len := u16 (skb.len + len) }

def SkBuff.pull (len : ℕ) : SkBuff :=
  { skb with data := u32 (skb.data + len), len := u16 (skb.len + 4294967296 - len) }

def SkBuff.headroom : ℕ := u32 (skb.data + 4294967296 - skb.Head)

def SkBuff.tailroom : ℕ := u32 (skb.Head + skb.bufferLen + 4294967296 - skb.Tail)

def SkBuff.reserve (len : ℕ) : SkBuff :=
  { skb with data := u32 (skb.data + len), Tail := u32 (skb.data + len) }

def SkBuff.trim (len : ℕ) : SkBuff :=
  { skb with len := u16 len, Tail := u32 (skb.data + len) }

/-- The length that `skb_copy` allocates. -/
def SkBuff.copyLength : ℕ := u32 (skb.End + 4294967296 - skb.Head + skb.len)

/-- `skb_copy`, when `atbm_kzalloc` returns `p`. -/
def SkBuff.copy (p : ℕ) : SkBuff :=
  let n := ((pbufAlloc p skb.copyLength).reserve skb.headroom).put skb.len
  { n with
    mem := fun x =>
      if n.Head ≤ x ∧ x < n.Head + (skb.headroom + skb.len) then skb.mem (skb.Head + (x - n.Head))
      else n.mem x }

/-- The byte at a place of the data. -/
def SkBuff.byte (k : ℕ) : UInt8 := skb.mem (skb.data + k)

/-- The owner writes a byte of the data. -/
def SkBuff.write (k : ℕ) (v : UInt8) : SkBuff :=
  { skb with mem := Function.update skb.mem (skb.data + k) v }

/-! ### Runs -/

/-- The buffers by their numbers. -/
abbrev State := ℕ → Option SkBuff

inductive Act
  /-- a new buffer; the allocator has no memory, or returns an address -/
  | alloc (i : ℕ) (p : Option ℕ) (length : ℕ)
  | reserve (i len : ℕ)
  | put (i len : ℕ)
  | push (i len : ℕ)
  | pull (i len : ℕ)
  | trim (i len : ℕ)
  | copy (i j : ℕ) (p : Option ℕ)
  | write (i k : ℕ) (v : UInt8)

/-- A block of the allocator is not at 0, and ends before the memory does. -/
def IsBlock (p size : ℕ) : Prop := 0 < p ∧ p + size < 4294967296

instance (p size : ℕ) : Decidable (IsBlock p size) := inferInstanceAs (Decidable (_ ∧ _))

/-- A new buffer gets a number that is not in use. -/
def State.add (s : State) (i : ℕ) (p : Option ℕ) (new : ℕ → SkBuff) : Option State :=
  match p with
  | none => some s
  | some p =>
    if s i = none ∧ IsBlock p (new p).size then some (Function.update s i (some (new p))) else none

/-- A buffer changes, if the argument is an `unsigned int` and is allowed. -/
def State.change (s : State) (i : ℕ) (f : SkBuff → Option SkBuff) : Option State :=
  (s i).bind fun skb => (f skb).map fun skb => Function.update s i (some skb)

def State.step (s : State) : Act → Option State
  | .alloc i p length => if length < 4294967296 then s.add i p (pbufAlloc · length) else none
  | .reserve i len =>
    s.change i fun skb => if len < 4294967296 then some (skb.reserve len) else none
  | .put i len => s.change i fun skb => if len ≤ skb.tailroom then some (skb.put len) else none
  | .push i len => s.change i fun skb => if len ≤ skb.headroom then some (skb.push len) else none
  | .pull i len => s.change i fun skb => if len < 4294967296 then some (skb.pull len) else none
  | .trim i len => s.change i fun skb => if len < 4294967296 then some (skb.trim len) else none
  | .copy i j p => (s i).bind fun skb => s.add j p skb.copy
  | .write i k v => s.change i fun skb => if k < skb.len then some (skb.write k v) else none

/-- Puts and pushes stay within the reported room. -/
def bufSystem : System State Act where
  init s := s = fun _ => none
  step := State.step

/-! ### What is to hold -/

/-- **The data are inside the allocation.** -/
structure SkBuff.Inside : Prop where
  tail : skb.Tail = skb.data + skb.len
  start : skb.p ≤ skb.data
  stop : skb.Tail ≤ skb.p + skb.size

/-- Two buffers with the same bytes. -/
def SkBuff.Same (skb n : SkBuff) : Prop := n.len = skb.len ∧ ∀ k < skb.len, n.byte k = skb.byte k

/-- **What a step is to leave**: all data inside their allocations; a pull that is too long does not
make the length wrap; and a copy is the same. -/
structure StepGood (s : State) (a : Act) (t : State) : Prop where
  inside : ∀ i skb, t i = some skb → skb.Inside
  pull : ∀ i len skb n, a = .pull i len → s i = some skb → t i = some n → n.len ≤ skb.len
  copy : ∀ i j p skb n, a = .copy i j (some p) → s i = some skb → t j = some n → skb.Same n

/-- The pointers of a new buffer are in order, and its room is inside the allocation. -/
structure Fits (p length : ℕ) : Prop where
  head : p ≤ memAlign (u32 (p + 112))
  data : memAlign (u32 (p + 112)) ≤ memAlign (u32 (p + 112 + 64))
  tail : memAlign (u32 (p + 112 + 64)) ≤
    memAlign (u32 (p + 112)) + u16 (memAlign (u32 (64 + 64 + length)))
  room : memAlign (u32 (p + 112)) + u16 (memAlign (u32 (64 + 64 + length))) ≤
    p + allocSize length

/-- A copy at `p` has room for the headroom and the data. -/
structure SkBuff.CopyFits (p : ℕ) : Prop where
  fits : Fits p skb.copyLength
  room : 64 + skb.headroom + skb.len ≤ u16 (memAlign (u32 (64 + 64 + skb.copyLength)))

/-- **The condition**: the room of a new buffer fits; a reserve is for an empty buffer, and within
the tailroom, as a trim is; a pull is not longer than the data; and a buffer that is copied has only
zeros, and the copy has room for them and the headroom. -/
def Careful (s : State) : Act → Prop
  | .alloc _ (some p) length => Fits p length
  | .reserve i len => ∀ skb, s i = some skb → skb.len = 0 ∧ len ≤ skb.tailroom
  | .pull i len => ∀ skb, s i = some skb → len ≤ skb.len
  | .trim i len => ∀ skb, s i = some skb → len ≤ skb.len + skb.tailroom
  | .copy i _ (some p) => ∀ skb, s i = some skb → skb.CopyFits p ∧ ∀ k < skb.len, skb.byte k = 0
  | _ => True

/-! ### The invariant -/

/-- **The pointers are in order**, the data end where they should, and the room is inside the
allocation. -/
structure SkBuff.Inv : Prop where
  head : skb.p ≤ skb.Head
  data : skb.Head ≤ skb.data
  len : skb.Tail = skb.data + skb.len
  tail : skb.Tail ≤ skb.Head + skb.bufferLen
  room : skb.Head + skb.bufferLen ≤ skb.p + skb.size
  block : skb.p + skb.size < 4294967296
  short : skb.bufferLen < 65536

variable {skb : SkBuff}

theorem SkBuff.Inv.inside (h : skb.Inv) : skb.Inside :=
  ⟨h.len, Nat.le_trans h.head h.data, Nat.le_trans h.tail h.room⟩

theorem SkBuff.Inv.headroom (h : skb.Inv) : skb.headroom = skb.data - skb.Head := by
  obtain ⟨_, _, _, _, _, _, _⟩ := h
  unfold SkBuff.headroom u32
  omega

theorem SkBuff.Inv.tailroom (h : skb.Inv) :
    skb.tailroom = skb.Head + skb.bufferLen - skb.Tail := by
  obtain ⟨_, _, _, _, _, _, _⟩ := h
  unfold SkBuff.tailroom u32
  omega

theorem inv_pbufAlloc {p length : ℕ} (hfits : Fits p length)
    (hblock : IsBlock p (allocSize length)) : (pbufAlloc p length).Inv where
  head := hfits.head
  data := hfits.data
  len := rfl
  tail := hfits.tail
  room := hfits.room
  block := hblock.2
  short := Nat.mod_lt _ (by decide)

theorem pbufAlloc_data {p length : ℕ} (hfits : Fits p length)
    (hblock : IsBlock p (allocSize length)) :
    (pbufAlloc p length).data = (pbufAlloc p length).Head + 64 := by
  obtain ⟨hhead, hdata, -, -⟩ := hfits
  obtain ⟨-, hblock⟩ := hblock
  unfold pbufAlloc
  dsimp only
  unfold memAlign u32 at *
  omega

theorem SkBuff.Inv.put (h : skb.Inv) {n : ℕ} (hn : n ≤ skb.tailroom) : (skb.put n).Inv := by
  have hroom := h.tailroom
  obtain ⟨_, _, _, _, _, _, _⟩ := h
  unfold SkBuff.put u32 u16
  constructor <;> dsimp only <;> omega

theorem SkBuff.Inv.push (h : skb.Inv) {n : ℕ} (hn : n ≤ skb.headroom) : (skb.push n).Inv := by
  have hroom := h.headroom
  obtain ⟨_, _, _, _, _, _, _⟩ := h
  unfold SkBuff.push u32 u16
  constructor <;> dsimp only <;> omega

theorem SkBuff.Inv.pull (h : skb.Inv) {n : ℕ} (hn : n ≤ skb.len) : (skb.pull n).Inv := by
  obtain ⟨_, _, _, _, _, _, _⟩ := h
  unfold SkBuff.pull u32 u16
  constructor <;> dsimp only <;> omega

theorem SkBuff.Inv.reserve (h : skb.Inv) {n : ℕ} (hlen : skb.len = 0) (hn : n ≤ skb.tailroom) :
    (skb.reserve n).Inv := by
  have hroom := h.tailroom
  obtain ⟨_, _, _, _, _, _, _⟩ := h
  unfold SkBuff.reserve u32
  constructor <;> dsimp only <;> omega

theorem SkBuff.Inv.trim (h : skb.Inv) {n : ℕ} (hn : n ≤ skb.len + skb.tailroom) :
    (skb.trim n).Inv := by
  have hroom := h.tailroom
  obtain ⟨_, _, _, _, _, _, _⟩ := h
  unfold SkBuff.trim u32 u16
  constructor <;> dsimp only <;> omega

theorem memAlign_lt (x : ℕ) : memAlign x < 4294967296 := by
  unfold memAlign u32
  omega

/-- **With which allocations** a buffer stays inside, whatever is put or pushed within the room that
is reported. -/
theorem alloc_fits_iff {p length : ℕ} (hblock : IsBlock p (allocSize length)) :
    Fits p length ↔ (pbufAlloc p length).Inside ∧
      (∀ n ≤ (pbufAlloc p length).tailroom, ((pbufAlloc p length).put n).Inside) ∧
      ∀ n ≤ (pbufAlloc p length).headroom, ((pbufAlloc p length).push n).Inside := by
  constructor
  · intro hfits
    have hinv := inv_pbufAlloc hfits hblock
    exact ⟨hinv.inside, fun n hn => (hinv.put hn).inside, fun n hn => (hinv.push hn).inside⟩
  · rintro ⟨⟨-, hstart, hstop⟩, hput, hpush⟩
    obtain ⟨hpos, hblock⟩ := hblock
    have hHead : (pbufAlloc p length).Head < 4294967296 := memAlign_lt _
    have htail : (pbufAlloc p length).Tail = (pbufAlloc p length).data := rfl
    have hp : (pbufAlloc p length).p = p := rfl
    have hsize : (pbufAlloc p length).size = allocSize length := rfl
    have hshort : (pbufAlloc p length).bufferLen < 65536 := Nat.mod_lt _ (by decide)
    -- one byte more than is in front of the data
    have hfront : (pbufAlloc p length).headroom < (pbufAlloc p length).data - p + 1 := by
      by_contra hle
      have hdata := (hpush _ (Nat.not_lt.mp hle)).start
      unfold SkBuff.push u32 at hdata
      dsimp only at hdata
      omega
    -- one byte more than is behind it
    have hback : (pbufAlloc p length).tailroom <
        p + allocSize length - (pbufAlloc p length).data + 1 := by
      by_contra hle
      obtain ⟨hT, -, hS⟩ := hput _ (Nat.not_lt.mp hle)
      unfold SkBuff.put u32 at hT hS
      dsimp only at hT hS
      omega
    unfold SkBuff.headroom u32 at hfront
    unfold SkBuff.tailroom u32 at hback
    have hall : p ≤ (pbufAlloc p length).Head ∧
        (pbufAlloc p length).Head ≤ (pbufAlloc p length).data ∧
        (pbufAlloc p length).data ≤ (pbufAlloc p length).Head + (pbufAlloc p length).bufferLen ∧
        (pbufAlloc p length).Head + (pbufAlloc p length).bufferLen ≤ p + allocSize length := by
      omega
    exact ⟨hall.1, hall.2.1, hall.2.2.1, hall.2.2.2⟩

/-! ### Copies -/

theorem copy_pointers {p : ℕ} (h : skb.Inv) (hc : skb.CopyFits p)
    (hblock : IsBlock p (allocSize skb.copyLength)) :
    (skb.copy p).Inv ∧ (skb.copy p).data = (skb.copy p).Head + 64 + skb.headroom ∧
      (skb.copy p).len = skb.len := by
  have hnew := inv_pbufAlloc hc.fits hblock
  have htail := hnew.tailroom
  have hstart : (pbufAlloc p skb.copyLength).Tail = (pbufAlloc p skb.copyLength).data := rfl
  have hroom : skb.headroom + skb.len ≤ (pbufAlloc p skb.copyLength).tailroom := by
    have hlen : 64 + skb.headroom + skb.len ≤ (pbufAlloc p skb.copyLength).bufferLen := hc.room
    have hdata := pbufAlloc_data hc.fits hblock
    omega
  have hreserve := hnew.reserve rfl (Nat.le_trans (Nat.le_add_right _ skb.len) hroom)
  have hdata : ((pbufAlloc p skb.copyLength).reserve skb.headroom).data =
      (pbufAlloc p skb.copyLength).data + skb.headroom := by
    obtain ⟨_, _, _, _, _, _, _⟩ := hnew
    unfold SkBuff.reserve u32
    dsimp only
    omega
  have hput : (((pbufAlloc p skb.copyLength).reserve skb.headroom).put skb.len).Inv := by
    refine hreserve.put ?_
    rw [hreserve.tailroom]
    have hsame : ((pbufAlloc p skb.copyLength).reserve skb.headroom).Tail =
      ((pbufAlloc p skb.copyLength).reserve skb.headroom).data := rfl
    have hHead : ((pbufAlloc p skb.copyLength).reserve skb.headroom).Head +
      ((pbufAlloc p skb.copyLength).reserve skb.headroom).bufferLen =
      (pbufAlloc p skb.copyLength).Head + (pbufAlloc p skb.copyLength).bufferLen := rfl
    omega
  refine ⟨⟨hput.head, hput.data, hput.len, hput.tail, hput.room, hput.block, hput.short⟩, ?_, ?_⟩
  · show ((pbufAlloc p skb.copyLength).reserve skb.headroom).data =
      (pbufAlloc p skb.copyLength).Head + 64 + skb.headroom
    rw [hdata, pbufAlloc_data hc.fits hblock]
  · show u16 (0 + skb.len) = skb.len
    obtain ⟨_, _, _, _, _, _, _⟩ := h
    unfold u16
    omega

/-- **A byte of the copy** is that 64 bytes further on. -/
theorem copy_byte {p : ℕ} (h : skb.Inv) (hc : skb.CopyFits p)
    (hblock : IsBlock p (allocSize skb.copyLength)) (k : ℕ) :
    (skb.copy p).byte k = if 64 + k < skb.len then skb.byte (64 + k) else 0 := by
  obtain ⟨-, hdata, -⟩ := copy_pointers h hc hblock
  have hhead := h.headroom
  have hle := h.data
  unfold SkBuff.byte
  rw [hdata]
  by_cases hk : 64 + k < skb.len
  · rw [if_pos hk]
    have hin : (skb.copy p).Head ≤ (skb.copy p).Head + 64 + skb.headroom + k ∧
        (skb.copy p).Head + 64 + skb.headroom + k <
          (skb.copy p).Head + (skb.headroom + skb.len) := by omega
    have hfrom : skb.Head + ((skb.copy p).Head + 64 + skb.headroom + k - (skb.copy p).Head) =
        skb.data + (64 + k) := by omega
    exact (if_pos hin).trans (congrArg skb.mem hfrom)
  · rw [if_neg hk]
    refine if_neg fun hin => ?_
    have hlt : (skb.copy p).Head + 64 + skb.headroom + k <
      (skb.copy p).Head + (skb.headroom + skb.len) := hin.2
    omega

/-- **A copy has the same bytes** if and only if they all are 0. -/
theorem copy_same_iff {p : ℕ} (h : skb.Inv) (hc : skb.CopyFits p)
    (hblock : IsBlock p (allocSize skb.copyLength)) :
    skb.Same (skb.copy p) ↔ ∀ k < skb.len, skb.byte k = 0 := by
  have hbyte := copy_byte h hc hblock
  constructor
  · rintro ⟨-, hsame⟩
    -- from the end to the front
    have hall : ∀ d k, k < skb.len → skb.len ≤ k + d → skb.byte k = 0 := by
      intro d
      induction d with
      | zero => intro k hk hd; omega
      | succ d ih =>
        intro k hk hd
        rw [← hsame k hk, hbyte]
        by_cases hlt : 64 + k < skb.len
        · rw [if_pos hlt]
          exact ih (64 + k) hlt (by omega)
        · exact if_neg hlt
    exact fun k hk => hall skb.len k hk (by omega)
  · intro hzero
    refine ⟨(copy_pointers h hc hblock).2.2, fun k hk => ?_⟩
    rw [hbyte, hzero k hk]
    by_cases hlt : 64 + k < skb.len
    · rw [if_pos hlt, hzero _ hlt]
    · exact if_neg hlt

/-! ### Runs -/

/-- All buffers keep the invariant. -/
def State.Inv (s : State) : Prop := ∀ i skb, s i = some skb → skb.Inv

theorem State.Inv.update {s : State} (h : s.Inv) {i : ℕ} (hskb : skb.Inv) :
    State.Inv (Function.update s i (some skb)) := by
  intro j n hn
  by_cases hj : j = i
  · subst hj
    rw [Function.update_self] at hn
    obtain rfl := Option.some.inj hn
    exact hskb
  · rw [Function.update_of_ne hj] at hn
    exact h j n hn

theorem State.Inv.add {s t : State} (h : s.Inv) {i : ℕ} {p : Option ℕ} {new : ℕ → SkBuff}
    (ht : s.add i p new = some t)
    (hnew : ∀ q, p = some q → IsBlock q (new q).size → (new q).Inv) : t.Inv := by
  unfold State.add at ht
  cases p with
  | none =>
    obtain rfl := Option.some.inj ht
    exact h
  | some q =>
    obtain ⟨⟨-, hblock⟩, ht⟩ := Option.ite_none_right_eq_some.mp ht
    obtain rfl := Option.some.inj ht
    exact h.update (hnew q rfl hblock)

theorem State.Inv.change {s t : State} (h : s.Inv) {i : ℕ} {f : SkBuff → Option SkBuff}
    (ht : s.change i f = some t)
    (hf : ∀ skb n, s i = some skb → skb.Inv → f skb = some n → n.Inv) : t.Inv := by
  obtain ⟨skb, hskb, ht⟩ := Option.bind_eq_some_iff.mp ht
  obtain ⟨n, hn, rfl⟩ := Option.map_eq_some_iff.mp ht
  exact h.update (hf skb n hskb (h i skb hskb) hn)

/-- **Every step that meets the condition** keeps the invariant. -/
theorem inv_step {s t : State} {a : Act} (h : s.Inv) (hp : Careful s a) (hs : s.step a = some t) :
    t.Inv := by
  cases a with
  | alloc i p length =>
    obtain ⟨-, hs⟩ := Option.ite_none_right_eq_some.mp hs
    refine h.add hs fun q hq hblock => ?_
    subst hq
    exact inv_pbufAlloc hp hblock
  | reserve i len =>
    refine h.change hs fun skb n hskb hinv hn => ?_
    obtain ⟨-, hn⟩ := Option.ite_none_right_eq_some.mp hn
    obtain rfl := Option.some.inj hn
    exact hinv.reserve (hp skb hskb).1 (hp skb hskb).2
  | put i len =>
    refine h.change hs fun skb n _ hinv hn => ?_
    obtain ⟨hlen, hn⟩ := Option.ite_none_right_eq_some.mp hn
    obtain rfl := Option.some.inj hn
    exact hinv.put hlen
  | push i len =>
    refine h.change hs fun skb n _ hinv hn => ?_
    obtain ⟨hlen, hn⟩ := Option.ite_none_right_eq_some.mp hn
    obtain rfl := Option.some.inj hn
    exact hinv.push hlen
  | pull i len =>
    refine h.change hs fun skb n hskb hinv hn => ?_
    obtain ⟨-, hn⟩ := Option.ite_none_right_eq_some.mp hn
    obtain rfl := Option.some.inj hn
    exact hinv.pull (hp skb hskb)
  | trim i len =>
    refine h.change hs fun skb n hskb hinv hn => ?_
    obtain ⟨-, hn⟩ := Option.ite_none_right_eq_some.mp hn
    obtain rfl := Option.some.inj hn
    exact hinv.trim (hp skb hskb)
  | copy i j p =>
    obtain ⟨skb, hskb, hs⟩ := Option.bind_eq_some_iff.mp hs
    refine h.add hs fun q hq hblock => ?_
    subst hq
    exact (copy_pointers (h i skb hskb) (hp skb hskb).1 hblock).1
  | write i k v =>
    refine h.change hs fun skb n _ hinv hn => ?_
    obtain ⟨-, hn⟩ := Option.ite_none_right_eq_some.mp hn
    obtain rfl := Option.some.inj hn
    exact ⟨hinv.head, hinv.data, hinv.len, hinv.tail, hinv.room, hinv.block, hinv.short⟩

theorem inv_of_reach {s : State} (h : Reach bufSystem Careful s) : s.Inv :=
  h.inv (fun s hs i skb hi => by rw [show s = fun _ => none from hs] at hi; cases hi)
    fun _ _ _ hi hp hs => inv_step hi hp hs

/-- **Buffers stay inside their allocations**, a pull does not make a length wrap, and a copy has
the same bytes: after every step of a run whose steps meet the condition. -/
theorem bufs_inside {s t : State} {a : Act} (h : Reach bufSystem Careful s) (hp : Careful s a)
    (hs : bufSystem.step s a = some t) : StepGood s a t := by
  have hinv := inv_of_reach h
  refine ⟨fun i skb hi => (inv_step hinv hp hs i skb hi).inside, ?_, ?_⟩
  · rintro i len skb n rfl hi hn
    obtain ⟨skb', hi', hs⟩ := Option.bind_eq_some_iff.mp hs
    obtain rfl := Option.some.inj (hi.symm.trans hi')
    obtain ⟨n', hn', rfl⟩ := Option.map_eq_some_iff.mp hs
    obtain ⟨-, hn'⟩ := Option.ite_none_right_eq_some.mp hn'
    obtain rfl := Option.some.inj hn'
    rw [Function.update_self] at hn
    obtain rfl := Option.some.inj hn
    have hlen := hp skb hi
    obtain ⟨_, _, _, _, _, _, _⟩ := hinv i skb hi
    unfold SkBuff.pull u16
    dsimp only
    omega
  · rintro i j p skb n rfl hi hn
    obtain ⟨skb', hi', hs⟩ := Option.bind_eq_some_iff.mp hs
    obtain rfl := Option.some.inj (hi.symm.trans hi')
    obtain ⟨⟨-, hblock⟩, hs⟩ := Option.ite_none_right_eq_some.mp hs
    obtain rfl := Option.some.inj hs
    rw [Function.update_self] at hn
    obtain rfl := Option.some.inj hn
    obtain ⟨hc, hzero⟩ := hp skb hi
    exact (copy_same_iff (hinv i skb hi) hc hblock).mpr hzero

theorem step_put {s : State} {i n : ℕ} (hi : s i = some skb) (hn : n ≤ skb.tailroom) :
    bufSystem.step s (.put i n) = some (Function.update s i (some (skb.put n))) := by
  show (s i).bind _ = _
  rw [hi, Option.bind_some]
  show Option.map _ (if n ≤ skb.tailroom then some (skb.put n) else none) = _
  rw [if_pos hn, Option.map_some]

/-- A buffer of 96 bytes, after ten have been put. -/
def tenBytes : SkBuff := (pbufAlloc 4096 96).put 10

theorem reach_tenBytes :
    Reach bufSystem Careful (Function.update (fun _ => none) 0 (some tenBytes)) := by
  have hfits : Fits 4096 96 := ⟨by decide, by decide, by decide, by decide⟩
  have halloc : Reach bufSystem Careful
      (Function.update (fun _ => none) 0 (some (pbufAlloc 4096 96))) :=
    .step (a := .alloc 0 (some 4096) 96) (.init rfl) hfits rfl
  have hcare : Careful (Function.update (fun _ => none) 0 (some (pbufAlloc 4096 96))) (.put 0 10) :=
    trivial
  have hput := halloc.step hcare (step_put (Function.update_self _ _ _) (by decide))
  rwa [Function.update_idem] at hput

/-- Four of them are pulled. -/
theorem bufs_inside_pull :
    StepGood (Function.update (fun _ => none) 0 (some tenBytes)) (.pull 0 4)
      (Function.update (fun _ => none) 0 (some (tenBytes.pull 4))) := by
  refine bufs_inside reach_tenBytes (fun skb hskb => ?_) ?_
  · obtain rfl := Option.some.inj hskb
    decide
  · exact congrArg some (Function.update_idem _ _ _)

/-- **The room is not inside the allocation** for a length of 1 at an aligned address; a pull of an
empty buffer wraps; and a copy of ten bytes is not the same. -/
theorem bufs_overrun :
    (∃ s t, Reach bufSystem (fun _ _ => True) s ∧ bufSystem.step s (.put 0 96) = some t ∧
      ¬ StepGood s (.put 0 96) t) ∧
    (∃ s t, Reach bufSystem (fun _ _ => True) s ∧ bufSystem.step s (.pull 0 1) = some t ∧
      ¬ StepGood s (.pull 0 1) t) ∧
    ∃ s t, Reach bufSystem (fun _ _ => True) s ∧
      bufSystem.step s (.copy 0 1 (some 8192)) = some t ∧
        ¬ StepGood s (.copy 0 1 (some 8192)) t := by
  have hone : Reach bufSystem (fun _ _ => True)
      (Function.update (fun _ => none) 0 (some (pbufAlloc 4096 1))) :=
    .step (a := .alloc 0 (some 4096) 1) (.init rfl) trivial rfl
  have hten := reach_tenBytes.mono (Q := fun _ _ => True) fun _ _ _ => trivial
  have hbyte := hten.step (a := .write 0 0 7) trivial rfl
  refine ⟨⟨_, _, hone, step_put (Function.update_self _ _ _) (by decide), fun h => ?_⟩,
    ⟨_, _, hone, rfl, fun h => ?_⟩, ⟨_, _, hbyte, rfl, fun h => ?_⟩⟩
  · exact absurd (h.inside 0 _ (Function.update_self _ _ _)).stop (by decide)
  · exact absurd (h.pull 0 1 _ _ rfl rfl rfl) (by decide)
  · exact absurd ((h.copy 0 1 8192 _ _ rfl rfl rfl).2 0 (by decide)) (by decide)

end Atbm6441.Os.SkbBuf
