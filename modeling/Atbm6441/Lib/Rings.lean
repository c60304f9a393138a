import Atbm6441.Lib.Ring

/-!
# Edits of rings, and rings side by side

What a node that is put behind another, a node that is taken from the front, and the nodes of one
ring that are put into another do to the links; and rings of several heads that share no node.

* `Linked.insert`, `Linked.dropFirst`, `Linked.splice` : the three edits;
* `Ring.insertFirst`, `Ring.insertAfter`, `Ring.insertLast`, `Ring.dropFirst`, `Ring.spliceFirst`,
  `Ring.spliceLast` : what they make of a ring;
* `Rings.update`, `Rings.remove` : one of several rings changes.
-/

namespace Atbm6441.Lib

universe u v

variable {α : Type u} {next prev next' prev' : α → α} {h p q a c : α} {l l' xs : List α}

/-! ### Links -/

theorem Linked.restart (hl : Linked next prev p l q) (hfirst : next' a = next p)
    (hback : prev' (next p) = a) (hn : ∀ x ∈ l, next' x = next x)
    (hp : ∀ x ∈ (l ++ [q]).tail, prev' x = prev x) : Linked next' prev' a l q := by
  cases l with
  | nil =>
    obtain ⟨hnext, -⟩ := hl
    rw [hnext] at hfirst hback
    exact ⟨hfirst, hback⟩
  | cons b l =>
    obtain ⟨hnext, -, hl⟩ := hl
    rw [hnext] at hfirst hback
    exact ⟨hfirst, hback, hl.congr hn hp⟩

theorem Linked.first_mem (hl : Linked next prev p l q) : next p ∈ l ++ [q] :=
  (hl.next_mem List.mem_cons_self).1

theorem Linked.first_mem_of_ne (hl : Linked next prev p l q) (hne : l ≠ []) : next p ∈ l := by
  cases l with
  | nil => exact absurd rfl hne
  | cons b l => exact hl.1 ▸ List.mem_cons_self

theorem Linked.last_mem_of_ne (hl : Linked next prev p l q) (hne : l ≠ []) : prev q ∈ l := by
  obtain ⟨t, z, rfl⟩ := (List.eq_nil_or_concat l).resolve_left hne
  rw [List.concat_eq_append] at *
  obtain ⟨-, -, hz⟩ := Linked.append_iff.mp hl
  rw [hz]
  exact List.mem_append_right t (List.mem_singleton_self z)

theorem Linked.ne_first (hl : Linked next prev p l q) (hnodup : (l ++ [q]).Nodup) {x : α}
    (hx : x ∈ (l ++ [q]).tail) : x ≠ next p := by
  rintro rfl
  cases l with
  | nil => simp at hx
  | cons b l =>
    rw [hl.1] at hx
    exact (List.nodup_cons.mp hnodup).1 hx

/-! ### Rings -/

theorem Linked.behind (hl : Linked next prev h (l ++ p :: l') q) (hb : Linked next' prev' p xs q)
    (hn : ∀ x ∈ h :: l, next' x = next x) (hp : ∀ x ∈ l ++ [p], prev' x = prev x) :
    Linked next' prev' h (l ++ p :: xs) q :=
  Linked.append_iff.mpr ⟨(Linked.append_iff.mp hl).1.congr hn hp, hb⟩

theorem Ring.congr (hr : Ring next prev h l)
    (hsame : ∀ x ∈ h :: l, next' x = next x ∧ prev' x = prev x) : Ring next' prev' h l := by
  refine ⟨hr.1, hr.2.congr (fun x hx => (hsame x hx).1) fun x hx => (hsame x ?_).2⟩
  rcases List.mem_append.mp hx with hx | hx
  · exact List.mem_cons_of_mem h hx
  · exact List.mem_singleton.mp hx ▸ List.mem_cons_self

theorem Linked.next_prev (hl : Linked next prev p l q) {x : α} (hx : x ∈ l ++ [q]) :
    next (prev x) = x := by
  induction l generalizing p with
  | nil =>
    obtain rfl := List.mem_singleton.mp hx
    obtain ⟨hnext, hprev⟩ := hl
    rw [hprev, hnext]
  | cons a l ih =>
    obtain ⟨hnext, hprev, hl⟩ := hl
    rcases List.mem_cons.mp hx with rfl | hx
    · rw [hprev, hnext]
    · exact ih hl hx

/-- **The links lead back** along a ring. -/
theorem Ring.inverse (hr : Ring next prev h l) {x : α} (hx : x ∈ h :: l) :
    prev (next x) = x ∧ next (prev x) = x := by
  refine ⟨(hr.next_mem hx).2, hr.2.next_prev ?_⟩
  rcases List.mem_cons.mp hx with rfl | hx
  · exact List.mem_append_right _ (List.mem_singleton_self _)
  · exact List.mem_append_left _ hx

theorem Ring.nodup_end (hr : Ring next prev h l) : (l ++ [h]).Nodup :=
  List.nodup_append_comm.mp hr.1

theorem nodup_middle_iff : (h :: (l ++ a :: l')).Nodup ↔
    a ∉ h :: (l ++ l') ∧ (h :: (l ++ l')).Nodup := by
  rw [← List.cons_append, ← List.cons_append, List.nodup_middle, List.nodup_cons]

theorem Ring.split (hr : Ring next prev h (l ++ p :: l')) :
    Linked next prev p l' h ∧ p ∉ l' ∧ (l' ++ [h]).Nodup ∧ p ∉ h :: l ∧
      next p ∉ l ++ [p] := by
  obtain ⟨-, hback⟩ := Linked.append_iff.mp hr.2
  have hend : ((l ++ [p]) ++ (l' ++ [h])).Nodup := by
    have hend := hr.nodup_end
    rwa [List.append_assoc, List.cons_append, ← List.singleton_append, ← List.append_assoc] at hend
  obtain ⟨-, hn, hdisj⟩ := List.nodup_append.mp hend
  have hfront : p ∉ h :: l ++ l' :=
    (nodup_middle_iff.mp hr.1).1
  exact ⟨hback, fun hp => hfront (List.mem_append_right _ hp), hn,
    fun hp => hfront (List.mem_append_left _ hp), fun hmem => hdisj _ hmem _ hback.first_mem rfl⟩

/-! ### Rings side by side -/

variable {κ : Type v} {head : κ → α} {rings : κ → Option (List α)}

/-- **Rings of several heads**, where there is one, that share no node. -/
structure Rings (next prev : α → α) (head : κ → α) (rings : κ → Option (List α)) : Prop where
  ring : ∀ k xs, rings k = some xs → Ring next prev (head k) xs
  disjoint : ∀ j k xs ys, j ≠ k → rings j = some xs → rings k = some ys →
    ∀ x ∈ head j :: xs, x ∉ head k :: ys

variable [DecidableEq κ] {k : κ} {ys : List α}

/-- **One of several rings** becomes another. -/
theorem Rings.update (hr : Rings next prev head rings) (hring : Ring next' prev' (head k) ys)
    (hsame : ∀ j xs, j ≠ k → rings j = some xs → ∀ x ∈ head j :: xs,
      (next' x = next x ∧ prev' x = prev x) ∧ x ∉ head k :: ys) :
    Rings next' prev' head (Function.update rings k (some ys)) := by
  have hother : ∀ {j xs}, j ≠ k → Function.update rings k (some ys) j = some xs →
      rings j = some xs := fun hj h => by rwa [Function.update_of_ne hj] at h
  have hself : ∀ {xs}, Function.update rings k (some ys) k = some xs → ys = xs := fun h => by
    rw [Function.update_self] at h
    exact Option.some.inj h
  constructor
  · intro j xs hj
    by_cases hjk : j = k
    · subst hjk
      obtain rfl := hself hj
      exact hring
    · have hj := hother hjk hj
      exact (hr.ring j xs hj).congr fun x hx => (hsame j xs hjk hj x hx).1
  · intro i j xs zs hij hi hj x hx hx'
    by_cases hik : i = k
    · subst hik
      obtain rfl := hself hi
      exact (hsame j zs (Ne.symm hij) (hother (Ne.symm hij) hj) x hx').2 hx
    · have hi' := hother hik hi
      by_cases hjk : j = k
      · subst hjk
        obtain rfl := hself hj
        exact (hsame i xs hik hi' x hx).2 hx'
      · exact hr.disjoint i j xs zs hij hi' (hother hjk hj) x hx hx'

theorem Rings.remove (hr : Rings next prev head rings)
    (hsame : ∀ j xs, j ≠ k → rings j = some xs → ∀ x ∈ head j :: xs,
      next' x = next x ∧ prev' x = prev x) :
    Rings next' prev' head (Function.update rings k none) := by
  have hother : ∀ {j xs}, Function.update rings k none j = some xs →
      j ≠ k ∧ rings j = some xs := fun {j xs} h => by
    by_cases hj : j = k
    · subst hj
      rw [Function.update_self] at h
      cases h
    · rw [Function.update_of_ne hj] at h
      exact ⟨hj, h⟩
  constructor
  · intro j xs hj
    obtain ⟨hjk, hj⟩ := hother hj
    exact (hr.ring j xs hj).congr (hsame j xs hjk hj)
  · intro i j xs ys hij hi hj
    exact hr.disjoint i j xs ys hij (hother hi).2 (hother hj).2

/-! ### Edits -/

variable [DecidableEq α]

/-- The `next` links when `a` is put between `p` and `n`. -/
def insertNext (next : α → α) (p n a : α) : α → α := Function.update (Function.update next a n) p a

/-- The `prev` links when `a` is put between `p` and `n`. -/
def insertPrev (prev : α → α) (p n a : α) : α → α := Function.update (Function.update prev a p) n a

/-- **A node is put behind `p`.** -/
theorem Linked.insert (hl : Linked next prev p l q) (hp : p ∉ l) (hnodup : (l ++ [q]).Nodup)
    (ha : a ∉ p :: (l ++ [q])) :
    Linked (insertNext next p (next p) a) (insertPrev prev p (next p) a) p (a :: l) q := by
  have hap := List.ne_of_not_mem_cons ha
  have hal := List.not_mem_of_not_mem_cons ha
  have han : a ≠ next p := fun heq => hal (heq ▸ hl.first_mem)
  refine ⟨Function.update_self _ _ _, ?_, hl.restart ?_ (Function.update_self _ _ _) ?_ ?_⟩
  · rw [insertPrev, Function.update_of_ne han, Function.update_self]
  · rw [insertNext, Function.update_of_ne hap, Function.update_self]
  · intro x hx
    have hxp : x ≠ p := fun heq => hp (heq ▸ hx)
    have hxa : x ≠ a := fun heq => hal (heq ▸ List.mem_append_left [q] hx)
    rw [insertNext, Function.update_of_ne hxp, Function.update_of_ne hxa]
  · intro x hx
    have hxa : x ≠ a := fun heq => hal (heq ▸ List.mem_of_mem_tail hx)
    rw [insertPrev, Function.update_of_ne (hl.ne_first hnodup hx), Function.update_of_ne hxa]

theorem insert_frame (next prev : α → α) {n x : α} (hxp : x ≠ p) (hxn : x ≠ n) (hxa : x ≠ a) :
    insertNext next p n a x = next x ∧ insertPrev prev p n a x = prev x := by
  unfold insertNext insertPrev
  rw [Function.update_of_ne hxp, Function.update_of_ne hxa, Function.update_of_ne hxn,
    Function.update_of_ne hxa]
  exact ⟨rfl, rfl⟩

/-- The links when the first node `b` behind `p` is taken out, and gets the links `z`. -/
def dropNext (next prev : α → α) (b z : α) : α → α :=
  Function.update (Function.update next b z) (prev b) (next b)

def dropPrev (next prev : α → α) (b z : α) : α → α :=
  Function.update (Function.update prev b z) (next b) (prev b)

/-- **The first node is taken out.** -/
theorem Linked.dropFirst {b : α} (hl : Linked next prev p (b :: l) q) (hp : p ∉ b :: l)
    (hnodup : (b :: l ++ [q]).Nodup) (z : α) :
    Linked (dropNext next prev b z) (dropPrev next prev b z) p l q := by
  obtain ⟨-, hpb, hl⟩ := hl
  obtain ⟨hbl, hnodup⟩ := List.nodup_cons.mp hnodup
  refine hl.restart ?_ ?_ ?_ ?_
  · rw [dropNext, hpb, Function.update_self]
  · rw [dropPrev, hpb, Function.update_self]
  · intro x hx
    have hxp : x ≠ p := fun heq => hp (heq ▸ List.mem_cons_of_mem b hx)
    have hxb : x ≠ b := fun heq => hbl (heq ▸ List.mem_append_left [q] hx)
    rw [dropNext, hpb, Function.update_of_ne hxp, Function.update_of_ne hxb]
  · intro x hx
    have hxb : x ≠ b := fun heq => hbl (heq ▸ List.mem_of_mem_tail hx)
    rw [dropPrev, Function.update_of_ne (hl.ne_first hnodup hx), Function.update_of_ne hxb]

theorem drop_frame (next prev : α → α) (z : α) {b x : α} (hxb : x ≠ b) (hxp : x ≠ prev b)
    (hxn : x ≠ next b) :
    dropNext next prev b z x = next x ∧ dropPrev next prev b z x = prev x := by
  unfold dropNext dropPrev
  rw [Function.update_of_ne hxp, Function.update_of_ne hxb, Function.update_of_ne hxn,
    Function.update_of_ne hxb]
  exact ⟨rfl, rfl⟩

/-- The links when the nodes from `first` to `last` are put between `p` and `n`. -/
def spliceNext (next : α → α) (p n first last : α) : α → α :=
  Function.update (Function.update next p first) last n

def splicePrev (prev : α → α) (p n first last : α) : α → α :=
  Function.update (Function.update prev first p) n last

theorem splice_frame (next prev : α → α) {n first last x : α} (hxp : x ≠ p) (hxn : x ≠ n)
    (hxf : x ≠ first) (hxl : x ≠ last) :
    spliceNext next p n first last x = next x ∧ splicePrev prev p n first last x = prev x := by
  unfold spliceNext splicePrev
  rw [Function.update_of_ne hxl, Function.update_of_ne hxp, Function.update_of_ne hxn,
    Function.update_of_ne hxf]
  exact ⟨rfl, rfl⟩

/-- **The nodes of another ring are put behind `p`.** -/
theorem Linked.splice (hl : Linked next prev p l q) (hx : Linked next prev c xs c) (hne : xs ≠ [])
    (hp : p ∉ l) (hnodup : (l ++ [q]).Nodup) (hxs : (xs ++ [c]).Nodup)
    (hdisj : ∀ x ∈ xs, x ∉ p :: (l ++ [q])) :
    Linked (spliceNext next p (next p) (next c) (prev c))
      (splicePrev prev p (next p) (next c) (prev c)) p (xs ++ l) q := by
  obtain ⟨t, z, rfl⟩ := (List.eq_nil_or_concat xs).resolve_left hne
  rw [List.concat_eq_append] at *
  obtain ⟨hfront, hzc, hcz⟩ := Linked.append_iff.mp hx
  rw [hcz]
  have hz : z ∉ p :: (l ++ [q]) := hdisj z (List.mem_append_right t (List.mem_singleton_self z))
  have hpz : p ≠ z := fun heq => hz (heq ▸ List.mem_cons_self)
  have hcmem : next c ∈ t ++ [z] := hfront.first_mem
  have hcn : next c ≠ next p := fun heq =>
    hdisj _ hcmem (List.mem_cons_of_mem p (heq ▸ hl.first_mem))
  have htz : (t ++ [z]).Nodup := hxs.of_append_left
  rw [List.append_assoc]
  refine Linked.append_iff.mpr ⟨hfront.restart ?_ ?_ ?_ ?_, hl.restart ?_ ?_ ?_ ?_⟩
  · rw [spliceNext, Function.update_of_ne hpz, Function.update_self]
  · rw [splicePrev, Function.update_of_ne hcn, Function.update_self]
  · intro x hx
    have hxz : x ≠ z := fun heq =>
      (List.nodup_append.mp htz).2.2 x hx z (List.mem_singleton_self z) heq
    have hxp : x ≠ p := fun heq =>
      hdisj x (List.mem_append_left [z] hx) (heq ▸ List.mem_cons_self)
    rw [spliceNext, Function.update_of_ne hxz, Function.update_of_ne hxp]
  · intro x hx
    have hxn : x ≠ next p := fun heq =>
      hdisj x (List.mem_of_mem_tail hx) (List.mem_cons_of_mem p (heq ▸ hl.first_mem))
    rw [splicePrev, Function.update_of_ne hxn, Function.update_of_ne (hfront.ne_first htz hx)]
  · rw [spliceNext, Function.update_self]
  · rw [splicePrev, Function.update_self]
  · intro x hx
    have hxz : x ≠ z := fun heq =>
      hz (List.mem_cons_of_mem p (heq ▸ List.mem_append_left [q] hx))
    have hxp : x ≠ p := fun heq => hp (heq ▸ hx)
    rw [spliceNext, Function.update_of_ne hxz, Function.update_of_ne hxp]
  · intro x hx
    have hxc : x ≠ next c := fun heq =>
      hdisj _ hcmem (List.mem_cons_of_mem p (heq ▸ List.mem_of_mem_tail hx))
    rw [splicePrev, Function.update_of_ne (hl.ne_first hnodup hx), Function.update_of_ne hxc]

/-! ### What they make of a ring -/

/-- **A node is put in front.** -/
theorem Ring.insertFirst (hr : Ring next prev h l) (ha : a ∉ h :: l) :
    Ring (insertNext next h (next h) a) (insertPrev prev h (next h) a) h (a :: l) := by
  refine ⟨?_, hr.2.insert (List.nodup_cons.mp hr.1).1 hr.nodup_end ?_⟩
  · exact (nodup_middle_iff (l := [])).mpr ⟨ha, hr.1⟩
  · simp only [List.mem_cons, List.mem_append, List.not_mem_nil, or_false, not_or] at ha ⊢
    exact ⟨ha.1, ha.2, ha.1⟩

/-- **A node is put behind another.** -/
theorem Ring.insertAfter (hr : Ring next prev h (l ++ p :: l')) (ha : a ∉ h :: (l ++ p :: l')) :
    Ring (insertNext next p (next p) a) (insertPrev prev p (next p) a) h (l ++ p :: a :: l') := by
  obtain ⟨hback, hp, hnodup, hfront, hnext⟩ := hr.split
  have hmid : (h :: (l ++ [p] ++ a :: l')).Nodup :=
    nodup_middle_iff.mpr ⟨by simpa using ha, by simpa using hr.1⟩
  simp only [List.mem_cons, List.mem_append, not_or] at ha
  obtain ⟨hah, hal, hap, hal'⟩ := ha
  refine ⟨by simpa using hmid, hr.2.behind (hback.insert hp hnodup ?_) ?_ ?_⟩
  · simp only [List.mem_cons, List.mem_append, List.not_mem_nil, or_false, not_or]
    exact ⟨hap, hal', hah⟩
  · intro x hx
    have hxp : x ≠ p := fun heq => hfront (heq ▸ hx)
    have hxa : x ≠ a := by
      rintro rfl
      exact (List.mem_cons.mp hx).elim hah hal
    rw [insertNext, Function.update_of_ne hxp, Function.update_of_ne hxa]
  · intro x hx
    have hxn : x ≠ next p := fun heq => hnext (heq ▸ hx)
    have hxa : x ≠ a := by
      rintro rfl
      exact (List.mem_append.mp hx).elim hal fun hx => hap (List.mem_singleton.mp hx)
    rw [insertPrev, Function.update_of_ne hxn, Function.update_of_ne hxa]

/-- **A node is put at the end.** -/
theorem Ring.insertLast (hr : Ring next prev h l) (ha : a ∉ h :: l) :
    Ring (insertNext next (prev h) h a) (insertPrev prev (prev h) h a) h (l ++ [a]) := by
  rcases List.eq_nil_or_concat l with rfl | ⟨l, p, rfl⟩
  · have hlast : prev h = h := hr.2.2
    have hfirst := hr.insertFirst ha
    rw [hr.2.1] at hfirst
    rw [hlast]
    exact hfirst
  · rw [List.concat_eq_append] at *
    obtain ⟨⟨hph, hlast⟩, -⟩ := hr.split
    have hafter := hr.insertAfter ha
    rw [hph] at hafter
    rw [hlast, List.append_assoc]
    exact hafter

/-- **The first node is taken out.** -/
theorem Ring.dropFirst {b : α} (hr : Ring next prev h (b :: l)) (z : α) :
    Ring (dropNext next prev b z) (dropPrev next prev b z) h l :=
  ⟨((nodup_middle_iff (l := [])).mp hr.1).2,
    hr.2.dropFirst (List.nodup_cons.mp hr.1).1 hr.nodup_end z⟩

/-- **The nodes of another ring are put in front.** -/
theorem Ring.spliceFirst (hr : Ring next prev h l) (hx : Ring next prev c xs) (hne : xs ≠ [])
    (hdisj : ∀ x ∈ xs, x ∉ h :: l) :
    Ring (spliceNext next h (next h) (next c) (prev c))
      (splicePrev prev h (next h) (next c) (prev c)) h (xs ++ l) := by
  obtain ⟨hh, hnodup⟩ := List.nodup_cons.mp hr.1
  refine ⟨?_, hr.2.splice hx.2 hne hh hr.nodup_end hx.nodup_end fun x hmem hxl => ?_⟩
  · have hperm : (h :: l ++ xs).Perm (h :: (xs ++ l)) := List.perm_append_comm.cons h
    exact hperm.nodup_iff.mp (List.nodup_append.mpr ⟨hr.1, (List.nodup_cons.mp hx.1).2,
      fun x hxl y hy heq => hdisj y hy (heq ▸ hxl)⟩)
  · refine hdisj x hmem ?_
    simp only [List.mem_cons, List.mem_append, List.not_mem_nil, or_false] at hxl ⊢
    exact hxl.elim .inl fun h => h.symm

/-- **The nodes of another ring are put at the end.** -/
theorem Ring.spliceLast (hr : Ring next prev h l) (hx : Ring next prev c xs) (hne : xs ≠ [])
    (hdisj : ∀ x ∈ xs, x ∉ h :: l) :
    Ring (spliceNext next (prev h) h (next c) (prev c))
      (splicePrev prev (prev h) h (next c) (prev c)) h (l ++ xs) := by
  rcases List.eq_nil_or_concat l with rfl | ⟨l, p, rfl⟩
  · have hlast : prev h = h := hr.2.2
    have hfirst := hr.spliceFirst hx hne hdisj
    rw [hr.2.1, List.append_nil] at hfirst
    rw [hlast, List.nil_append]
    exact hfirst
  · rw [List.concat_eq_append] at *
    obtain ⟨hback, hp, hnodup, hfront, hnext⟩ := hr.split
    obtain ⟨hph, hlast⟩ := hback
    have hfirst := hx.2.first_mem_of_ne hne
    have hlastc := hx.2.last_mem_of_ne hne
    rw [hlast, List.append_assoc]
    have hdisj' : ∀ x ∈ xs, x ≠ h ∧ x ∉ l ∧ x ≠ p := fun x hx => by
      simpa using hdisj x hx
    refine ⟨?_, hr.2.behind ?_ ?_ ?_⟩
    · have happ := List.nodup_append.mpr ⟨hr.1, (List.nodup_cons.mp hx.1).2,
        fun x hxl y hy heq => hdisj y hy (heq ▸ hxl)⟩
      simpa using happ
    · have hsplice := Linked.splice (l := []) ⟨hph, hlast⟩ hx.2 hne hp hnodup hx.nodup_end ?_
      · rwa [hph, List.append_nil] at hsplice
      · intro x hx
        obtain ⟨hxh, -, hxp⟩ := hdisj' x hx
        simpa using ⟨hxp, hxh⟩
    · intro x hx
      have hxp : x ≠ p := fun heq => hfront (heq ▸ hx)
      have hxc : x ≠ prev c := by
        rintro rfl
        exact (List.mem_cons.mp hx).elim (hdisj' _ hlastc).1 (hdisj' _ hlastc).2.1
      rw [spliceNext, Function.update_of_ne hxc, Function.update_of_ne hxp]
    · intro x hx
      have hxh : x ≠ h := by
        rintro rfl
        exact hnext (hph ▸ hx)
      have hxc : x ≠ next c := by
        rintro rfl
        refine (List.mem_append.mp hx).elim (hdisj' _ hfirst).2.1 fun hx => ?_
        exact (hdisj' _ hfirst).2.2 (List.mem_singleton.mp hx)
      rw [splicePrev, Function.update_of_ne hxh, Function.update_of_ne hxc]

end Atbm6441.Lib
