import Atbm6441.Lib.Rings

/-!
# The buffer queues of the RTOS port

`atbm_os_skbuf.c`: a queue is a ring of buffers with the head of the queue in it, which is taken for
a buffer, and a counter. The operations for any number of queues are compared with those on lists.

* `State.step`, `State.run` : the operations on the rings;
* `Queues.step`, `Queues.run` : those on the lists;
* `Queues.Allows` : what their callers are to keep.
-/

namespace Atbm6441.Os.Skb

open Atbm6441.Lib

universe u

/-! ### The rings -/

/-- The address of a `struct sk_buff`, which is aligned as its `cb` is. -/
structure SkBuff where
  addr : UInt32
  aligned : addr.toNat % 8 = 0
deriving DecidableEq

/-- A pointer that is taken for one to a buffer. -/
inductive Ptr (κ : Type u)
  | null
  /-- the head of a queue -/
  | head (list : κ)
  | skb (skb : SkBuff)
deriving DecidableEq

/-- The links of the buffers and of the heads, and the counters, which are of type `int`. -/
structure State (κ : Type u) where
  next : Ptr κ → Ptr κ
  prev : Ptr κ → Ptr κ
  qlen : κ → BitVec 32

variable {κ : Type u} [DecidableEq κ]

/-- `__skb_insert`. -/
def skbInsert (newsk prev next : Ptr κ) (list : κ) (s : State κ) : State κ where
  next := insertNext s.next prev next newsk
  prev := insertPrev s.prev prev next newsk
  qlen := Function.update s.qlen list (s.qlen list + 1)

/-- `__skb_queue_before`. -/
def skbQueueBefore (list : κ) (next newsk : Ptr κ) (s : State κ) : State κ :=
  skbInsert newsk (s.prev next) next list s

/-- `skb_queue_tail`. -/
def skbQueueTail (list : κ) (newsk : Ptr κ) (s : State κ) : State κ :=
  skbQueueBefore list (.head list) newsk s

/-- `__skb_queue_after`. -/
def skbQueueAfter (list : κ) (prev newsk : Ptr κ) (s : State κ) : State κ :=
  skbInsert newsk prev (s.next prev) list s

/-- `__skb_queue_head`. -/
def skbQueueHead (list : κ) (newsk : Ptr κ) (s : State κ) : State κ :=
  skbQueueAfter list (.head list) newsk s

/-- `__skb_unlink`. -/
def skbUnlink (skb : Ptr κ) (list : κ) (s : State κ) : State κ where
  next := dropNext s.next s.prev skb .null
  prev := dropPrev s.next s.prev skb .null
  qlen := Function.update s.qlen list (s.qlen list - 1)

/-- `skb_peek`. -/
def skbPeek (list : κ) (s : State κ) : Ptr κ :=
  if s.next (.head list) = .head list then .null else s.next (.head list)

/-- `skb_dequeue`. -/
def skbDequeue (list : κ) (s : State κ) : Ptr κ × State κ :=
  if skbPeek list s ≠ .null then (skbPeek list s, skbUnlink (skbPeek list s) list s)
  else (skbPeek list s, s)

/-- The loop of `skb_queue_purge`, with `fuel` rounds to go, and what it frees. -/
def skbQueuePurge (list : κ) : ℕ → State κ → Option (List (Ptr κ) × State κ)
  | 0, _ => none
  | fuel + 1, s =>
    if (skbDequeue list s).1 ≠ .null then
      (skbQueuePurge list fuel (skbDequeue list s).2).map fun x =>
        ((skbDequeue list s).1 :: x.1, x.2)
    else some ([], (skbDequeue list s).2)

/-- `skb_queue_head_init`. -/
def skbQueueHeadInit (list : κ) (s : State κ) : State κ where
  next := Function.update s.next (.head list) (.head list)
  prev := Function.update s.prev (.head list) (.head list)
  qlen := Function.update s.qlen list 0

/-- `__skb_queue_splice`. -/
def skbQueueSplice (list : κ) (prev next : Ptr κ) (s : State κ) : State κ where
  next := spliceNext s.next prev next (s.next (.head list)) (s.prev (.head list))
  prev := splicePrev s.prev prev next (s.next (.head list)) (s.prev (.head list))
  qlen := s.qlen

/-- `head->qlen += list->qlen`. -/
def addQlen (list head : κ) (s : State κ) : State κ :=
  { s with qlen := Function.update s.qlen head (s.qlen head + s.qlen list) }

/-- `skb_queue_splice_init`. -/
def skbQueueSpliceInit (list head : κ) (s : State κ) : State κ :=
  if s.next (.head list) = .head list then s
  else skbQueueHeadInit list
    (addQlen list head (skbQueueSplice list (.head head) (s.next (.head head)) s))

/-- `skb_queue_splice_tail_init`. -/
def skbQueueSpliceTailInit (list head : κ) (s : State κ) : State κ :=
  if s.next (.head list) = .head list then s
  else skbQueueHeadInit list
    (addQlen list head (skbQueueSplice list (s.prev (.head head)) (.head head) s))

/-! ### The operations -/

inductive Op (κ : Type u)
  | init (list : κ)
  | queueHead (list : κ) (skb : SkBuff)
  | queueTail (list : κ) (skb : SkBuff)
  /-- behind a buffer of the queue, or its head -/
  | queueAfter (list : κ) (prev : Option SkBuff) (skb : SkBuff)
  | dequeue (list : κ)
  | peek (list : κ)
  | spliceInit (list head : κ)
  | spliceTailInit (list head : κ)
  | purge (list : κ)

/-- The pointer to a buffer, or to the head. -/
def place (list : κ) : Option SkBuff → Ptr κ
  | none => .head list
  | some skb => .skb skb

/-- An operation, and the pointers that it returns or frees. -/
def State.step (fuel : ℕ) (s : State κ) : Op κ → Option (List (Ptr κ) × State κ)
  | .init list => some ([], skbQueueHeadInit list s)
  | .queueHead list skb => some ([], skbQueueHead list (.skb skb) s)
  | .queueTail list skb => some ([], skbQueueTail list (.skb skb) s)
  | .queueAfter list prev skb => some ([], skbQueueAfter list (place list prev) (.skb skb) s)
  | .dequeue list => some ([(skbDequeue list s).1], (skbDequeue list s).2)
  | .peek list => some ([skbPeek list s], s)
  | .spliceInit list head => some ([], skbQueueSpliceInit list head s)
  | .spliceTailInit list head => some ([], skbQueueSpliceTailInit list head s)
  | .purge list => skbQueuePurge list fuel s

/-- A sequence of operations, and what each returns. -/
def State.run (fuel : ℕ) : State κ → List (Op κ) → Option (List (List (Ptr κ)) × State κ)
  | s, [] => some ([], s)
  | s, op :: ops => (s.step fuel op).bind fun x =>
    (State.run fuel x.2 ops).map fun y => (x.1 :: y.1, y.2)

/-! ### Lists -/

/-- **What the queues are for**: the lists of the queues that are initialised, and the buffers that
have been dequeued and not queued since. -/
structure Queues (κ : Type u) where
  list : κ → Option (List SkBuff)
  out : SkBuff → Bool

/-- No queue is initialised. -/
def Queues.none : Queues κ := ⟨fun _ => Option.none, fun _ => false⟩

/-- A list with `skb` behind `prev`, or in front. -/
def behind (prev : Option SkBuff) (skb : SkBuff) : List SkBuff → List SkBuff
  | [] => [skb]
  | b :: l => match prev with
    | Option.none => skb :: b :: l
    | some c => if b = c then b :: skb :: l else b :: behind prev skb l

/-- A buffer is queued. -/
def Queues.put (a : Queues κ) (list : κ) (skb : SkBuff) (f : List SkBuff → List SkBuff) :
    Queues κ where
  list := Function.update a.list list ((a.list list).map f)
  out := Function.update a.out skb false

/-- The first queue takes the buffers of both in some order, and the second is empty then. -/
def Queues.splice (a : Queues κ) (list head : κ) (l : List SkBuff) : Queues κ :=
  { a with list := Function.update (Function.update a.list head (some l)) list (some []) }

/-- The operations on the lists. -/
def Queues.step (a : Queues κ) : Op κ → List (Ptr κ) × Queues κ
  | .init list => ([], { a with list := Function.update a.list list (some []) })
  | .queueHead list skb => ([], a.put list skb (skb :: ·))
  | .queueTail list skb => ([], a.put list skb (· ++ [skb]))
  | .queueAfter list prev skb => ([], a.put list skb (behind prev skb))
  | .dequeue list =>
    match (a.list list).getD [] with
    | [] => ([.null], a)
    | skb :: l =>
      ([.skb skb], ⟨Function.update a.list list (some l), Function.update a.out skb true⟩)
  | .peek list =>
    match (a.list list).getD [] with
    | [] => ([.null], a)
    | skb :: _ => ([.skb skb], a)
  | .spliceInit list head =>
    ([], a.splice list head ((a.list list).getD [] ++ (a.list head).getD []))
  | .spliceTailInit list head =>
    ([], a.splice list head ((a.list head).getD [] ++ (a.list list).getD []))
  | .purge list =>
    (((a.list list).getD []).map .skb, { a with list := Function.update a.list list (some []) })

def Queues.run : Queues κ → List (Op κ) → List (List (Ptr κ)) × Queues κ
  | a, [] => ([], a)
  | a, op :: ops =>
    ((a.step op).1 :: (Queues.run (a.step op).2 ops).1, (Queues.run (a.step op).2 ops).2)

/-- A buffer is in no queue. -/
def Queues.Free (a : Queues κ) (skb : SkBuff) : Prop := ∀ q l, a.list q = some l → skb ∉ l

/-- **The contract**: the queues are initialised, a buffer that is queued is in no queue, and what
it is put behind is in the queue. -/
def Queues.Allows (a : Queues κ) : Op κ → Prop
  | .init _ => True
  | .queueHead list skb | .queueTail list skb => a.list list ≠ Option.none ∧ a.Free skb
  | .queueAfter list prev skb =>
    a.list list ≠ Option.none ∧ a.Free skb ∧
      ∀ c l, prev = some c → a.list list = some l → c ∈ l
  | .dequeue list | .peek list | .purge list => a.list list ≠ Option.none
  | .spliceInit list head | .spliceTailInit list head =>
    a.list list ≠ Option.none ∧ a.list head ≠ Option.none

/-- Every operation of a sequence keeps the contract. -/
def Queues.AllowsAll : Queues κ → List (Op κ) → Prop
  | _, [] => True
  | a, op :: ops => a.Allows op ∧ Queues.AllowsAll (a.step op).2 ops

end Atbm6441.Os.Skb
