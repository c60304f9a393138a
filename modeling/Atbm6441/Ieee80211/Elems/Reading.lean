import Atbm6441.Ieee80211.Elems.Model
import Atbm6441.Lib.Fold
import Mathlib.Data.List.Pairwise

/-!
# What the parser reads

The reference: the elements of the input one after the other, and for each field the last element
that belongs to it. `reads_iff` : the parser reads this, unless the last of the elements with a
secondary channel offset and the private ones is a secondary channel offset, whose case falls
through into the next one, or there are 256 quiet elements or more.
-/

namespace Atbm6441.Ieee80211.Elems

open Atbm6441.Ieee80211 Atbm6441.Lib

/-! ### The reference -/

/-- An information element, with the offset of its body. -/
structure Ie where
  id : ℕ
  pos : ℕ
  body : List UInt8
deriving DecidableEq

/-- **The elements of an input** from `pos` on: id, length and body, until fewer than two bytes are
left or an element is truncated. -/
def elements (pos : ℕ) (rest : List UInt8) : List Ie :=
  match rest with
  | id :: elen :: rest =>
    if rest.length < elen.toNat then []
    else ⟨id.toNat, pos + 2, rest.take elen.toNat⟩ ::
      elements (pos + 2 + elen.toNat) (rest.drop elen.toNat)
  | _ => []
termination_by rest.length
decreasing_by
  simp only [List.length_drop, List.length_cons]
  omega

/-- The field that elements with an id belong to, and the length they need. -/
def idField : ℕ → Option (Field × ℕ)
  | 0 => some (.ssid, 0)
  | 1 => some (.suppRates, 0)
  | 2 => some (.fhParams, 0)
  | 3 => some (.dsParams, 0)
  | 4 => some (.cfParams, 0)
  | 5 => some (.tim, 4)
  | 6 => some (.ibssParams, 0)
  | 7 => some (.countryElem, 0)
  | 16 => some (.challenge, 0)
  | 32 => some (.pwrConstrElem, 0)
  | 37 => some (.chSwitchElem, 0)
  | 40 => some (.quietElem, 0)
  | 42 => some (.erpInfo, 0)
  | 45 => some (.htCapElem, 26)
  | 48 => some (.rsn, 0)
  | 50 => some (.extSuppRates, 0)
  | 56 => some (.timeoutInt, 0)
  | 60 => some (.extendedChSwitchElem, 0)
  | 61 => some (.htInfoElem, 22)
  | 62 => some (.secondaryChElem, 0)
  | 113 => some (.meshConfig, 7)
  | 114 => some (.meshId, 0)
  | 117 => some (.peering, 0)
  | 126 => some (.rann, 21)
  | 130 => some (.preq, 0)
  | 131 => some (.prep, 0)
  | 132 => some (.perr, 0)
  | 233 => some (.atbmSpecial, 0)
  | _ => none

/-- The vendor's types: organisation, type, and subtype where there is one. -/
def vendorField (body : List UInt8) : Option Field :=
  if body.length < 4 then none
  else if be24 body = 0x0050f2 ∧ byteAt body 3 = 1 then some .wpa
  else if be24 body = 0x0050f2 ∧ byteAt body 3 = 4 then some .wpsIe
  else if be24 body = 0x506f9a ∧ byteAt body 3 = 9 then some .p2pIe
  else if be24 body = 0x506f9a ∧ byteAt body 3 = 10 then some .wfd
  else if be24 body = 0x0050f2 ∧ byteAt body 3 = 2 ∧ 5 ≤ body.length then
    if byteAt body 4 = 0 then some .wmmInfo
    else if byteAt body 4 = 1 then some .wmmParam
    else none
  else none

/-- The field an element belongs to. -/
def Ie.field (ie : Ie) : Option Field :=
  if ie.id = 221 then vendorField ie.body
  else (idField ie.id).bind fun r => if r.2 ≤ ie.body.length then some r.1 else none

/-- The element that belongs to a field: the last one, but the first quiet element. -/
def readingOf (f : Field) (l : List Ie) : Option Ie :=
  if f = .quietElem then (l.filter fun ie => ie.field = some f).head?
  else (l.filter fun ie => ie.field = some f).getLast?

/-- The fields with a length. -/
def Field.hasLen : Field → Bool
  | .hs20 | .htCapElem | .htInfoElem | .meshConfig | .rann => false
  | _ => true

/-- **The parser reads the input**: every pointer and length is that of the element of its field,
whose body lies inside the input, and the quiet elements are counted. -/
structure Reads (start : List UInt8) (elems : Ieee802Atbm11Elems) : Prop where
  ptr : ∀ f, elems.ptr f = (readingOf f (elements 0 start)).map Ie.pos
  len : ∀ f, f.hasLen = true →
    elems.len f = ((readingOf f (elements 0 start)).map fun ie => ie.body.length).getD 0
  quiet : elems.numOfQuietElem = ((elements 0 start).filter fun ie => ie.id = 40).length
  total : elems.totalLen = start.length
  inside : ∀ ie ∈ elements 0 start, ie.pos + ie.body.length ≤ start.length ∧
    (start.drop ie.pos).take ie.body.length = ie.body

/-! ### The walk -/

theorem elements_nil (pos : ℕ) : elements pos [] = [] := by
  unfold elements
  rfl

theorem elements_single (pos : ℕ) (a : UInt8) : elements pos [a] = [] := by
  unfold elements
  rfl

theorem elements_cons (pos : ℕ) (id elen : UInt8) (rest : List UInt8) :
    elements pos (id :: elen :: rest) =
      if rest.length < elen.toNat then []
      else ⟨id.toNat, pos + 2, rest.take elen.toNat⟩ ::
        elements (pos + 2 + elen.toNat) (rest.drop elen.toNat) := by
  conv_lhs => unfold elements

theorem elements_append {pos : ℕ} {id elen : UInt8} {body rest : List UInt8}
    (hlen : body.length = elen.toNat) :
    elements pos (id :: elen :: (body ++ rest)) =
      ⟨id.toNat, pos + 2, body⟩ :: elements (pos + 2 + body.length) rest := by
  have hno : ¬ (body ++ rest).length < elen.toNat := by
    rw [List.length_append]
    omega
  rw [elements_cons, if_neg hno, ← hlen, List.take_left, List.drop_left]

/-- There is no element left: fewer than two bytes, or an element that is truncated. -/
def NoElement (rest : List UInt8) : Prop :=
  ∀ id elen tail, rest = id :: elen :: tail → tail.length < elen.toNat

theorem elements_done (pos : ℕ) {rest : List UInt8} (h : NoElement rest) :
    elements pos rest = [] := by
  rcases rest with _ | ⟨id, _ | ⟨elen, rest⟩⟩
  · exact elements_nil pos
  · exact elements_single pos id
  · rw [elements_cons, if_pos (h id elen rest rfl)]

/-- **Induction over the elements**: there is none, or one in front of the rest. -/
theorem elements_induction {motive : ℕ → List UInt8 → Prop}
    (done : ∀ pos rest, NoElement rest → motive pos rest)
    (more : ∀ pos id (elen : UInt8) body rest, body.length = elen.toNat →
      motive (pos + 2 + body.length) rest → motive pos (id :: elen :: (body ++ rest)))
    (pos : ℕ) (rest : List UInt8) : motive pos rest := by
  induction hn : rest.length using Nat.strongRecOn generalizing pos rest with
  | ind n ih =>
    by_cases hno : NoElement rest
    · exact done pos rest hno
    · unfold NoElement at hno
      push Not at hno
      obtain ⟨id, elen, tail, rfl, hle⟩ := hno
      rw [List.length_cons, List.length_cons] at hn
      have htake : (tail.take elen.toNat).length = elen.toNat := by
        rw [List.length_take]
        omega
      have hdrop : (tail.drop elen.toNat).length < n := by
        rw [List.length_drop]
        omega
      have hmore := more pos id elen _ _ htake (ih _ hdrop _ _ rfl)
      rwa [List.take_append_drop] at hmore

theorem elements_inside (start : List UInt8) (pos : ℕ) (rest : List UInt8)
    (hrest : start.drop pos = rest) : ∀ ie ∈ elements pos rest,
      ie.pos + ie.body.length ≤ start.length ∧
        (start.drop ie.pos).take ie.body.length = ie.body := by
  induction pos, rest using elements_induction with
  | done pos rest hno =>
    rw [elements_done pos hno]
    exact List.forall_mem_nil _
  | more pos id elen body rest hbody ih =>
    have hfront : start.drop (pos + 2) = body ++ rest := by
      rw [← List.drop_drop, hrest]
      rfl
    have hback : start.drop (pos + 2 + body.length) = rest := by
      rw [← List.drop_drop, hfront, List.drop_left]
    have hlen := congrArg List.length hrest
    simp only [List.length_drop, List.length_cons, List.length_append] at hlen
    rw [elements_append hbody, List.forall_mem_cons]
    refine ⟨⟨?_, ?_⟩, ih hback⟩
    · dsimp only
      omega
    · dsimp only
      rw [hfront, List.take_left]

/-- The loop without an element. -/
theorem parseElemsLoop_done (env : CrcEnv) (pos : ℕ) {rest : List UInt8} (h : NoElement rest)
    (elems : Ieee802Atbm11Elems) (crc : ℕ) :
    parseElemsLoop env pos rest elems crc = (elems, crc) := by
  unfold parseElemsLoop
  rcases rest with _ | ⟨id, _ | ⟨elen, rest⟩⟩
  · rfl
  · rfl
  · exact if_pos (h id elen rest rfl)

theorem parseElemsLoop_append (env : CrcEnv) (pos : ℕ) (id : UInt8) {elen : UInt8}
    {body : List UInt8} (rest : List UInt8) (elems : Ieee802Atbm11Elems) (crc : ℕ)
    (hbody : body.length = elen.toNat) :
    parseElemsLoop env pos (id :: elen :: (body ++ rest)) elems crc =
      parseElemsLoop env (pos + 2 + body.length) rest (parseElem id.toNat (pos + 2) body elems)
        (env.step crc id.toNat (id :: elen :: body)) := by
  have hno : ¬ (body ++ rest).length < elen.toNat := by
    rw [List.length_append]
    omega
  conv_lhs => unfold parseElemsLoop
  dsimp only
  rw [if_neg hno, ← hbody, List.take_left, List.drop_left]

/-- **The loop goes over the elements.** -/
theorem parseElemsLoop_eq (env : CrcEnv) (pos : ℕ) (rest : List UInt8)
    (elems : Ieee802Atbm11Elems) (crc : ℕ) : (parseElemsLoop env pos rest elems crc).1 =
      (elements pos rest).foldl (fun e ie => parseElem ie.id ie.pos ie.body e) elems := by
  induction pos, rest using elements_induction generalizing elems crc with
  | done pos rest hno =>
    rw [elements_done pos hno, parseElemsLoop_done env pos hno]
    rfl
  | more pos id elen body rest hbody ih =>
    rw [elements_append hbody, parseElemsLoop_append env pos id rest elems crc hbody, ih]
    rfl

theorem elements_pairwise (pos : ℕ) (rest : List UInt8) :
    (elements pos rest).Pairwise (fun a b => a.pos < b.pos) ∧
      ∀ ie ∈ elements pos rest, pos < ie.pos := by
  induction pos, rest using elements_induction with
  | done pos rest hno =>
    rw [elements_done pos hno]
    exact ⟨.nil, List.forall_mem_nil _⟩
  | more pos id elen body rest hbody ih =>
    obtain ⟨hpair, hpos⟩ := ih
    rw [elements_append hbody, List.forall_mem_cons]
    refine ⟨List.pairwise_cons.mpr ⟨fun ie hie => ?_, hpair⟩, ?_, fun ie hie => ?_⟩
    · have := hpos ie hie
      dsimp only
      omega
    · dsimp only
      omega
    · have := hpos ie hie
      omega

/-! ### One element -/

/-- The field gets the body of the element. -/
def Ieee802Atbm11Elems.store (elems : Ieee802Atbm11Elems) (f : Field) (ie : Ie) :
    Ieee802Atbm11Elems :=
  if f.hasLen then elems.set f ie.pos ie.body.length else elems.setPtr f ie.pos

section

variable (ie : Ie) (elems : Ieee802Atbm11Elems)

/-- A pointer with its length, if it has one. -/
def Ieee802Atbm11Elems.cell (elems : Ieee802Atbm11Elems) (f : Field) : Option ℕ × ℕ :=
  (elems.ptr f, if f.hasLen then elems.len f else 0)

/-- What a field of the element is to be. -/
def Ie.cell (ie : Ie) (f : Field) : Option ℕ × ℕ :=
  (some ie.pos, if f.hasLen then ie.body.length else 0)

theorem cell_store (f g : Field) :
    (elems.store f ie).cell g = if f = g then ie.cell g else elems.cell g := by
  by_cases hfg : f = g
  · subst hfg
    rw [if_pos rfl]
    unfold Ieee802Atbm11Elems.store Ieee802Atbm11Elems.cell Ie.cell
    split_ifs with hf
    · exact Prod.ext (Function.update_self _ _ _) (Function.update_self _ _ _)
    · exact Prod.ext (Function.update_self _ _ _) rfl
  · have hgf : g ≠ f := fun h => hfg h.symm
    rw [if_neg hfg]
    unfold Ieee802Atbm11Elems.store Ieee802Atbm11Elems.cell
    split_ifs with hg hf
    · exact Prod.ext (Function.update_of_ne hgf _ _) (Function.update_of_ne hgf _ _)
    · exact Prod.ext (Function.update_of_ne hgf _ _) rfl
    · exact Prod.ext (Function.update_of_ne hgf _ _) rfl
    · exact Prod.ext (Function.update_of_ne hgf _ _) rfl

theorem quiet_store (f : Field) : (elems.store f ie).numOfQuietElem = elems.numOfQuietElem := by
  unfold Ieee802Atbm11Elems.store
  split_ifs <;> rfl

theorem total_store (f : Field) : (elems.store f ie).totalLen = elems.totalLen := by
  unfold Ieee802Atbm11Elems.store
  split_ifs <;> rfl

theorem parseVendorSpecific_eq (pos : ℕ) (body : List UInt8) :
    parseVendorSpecific pos body elems =
      (vendorField body).elim elems fun f => elems.set f pos body.length := by
  unfold parseVendorSpecific vendorField
  by_cases h4 : body.length < 4
  · rw [if_pos h4, if_pos h4, Option.elim_none]
  rw [if_neg h4, if_neg h4]
  by_cases hms : be24 body = 0x0050f2
  · have hwfa : ¬ be24 body = 0x506f9a := by omega
    simp only [hms, if_true, true_and, Nat.reduceEqDiff, false_and, if_false]
    by_cases h1 : byteAt body 3 = 1
    · rw [if_pos h1, if_pos h1, Option.elim_some]
    rw [if_neg h1, if_neg h1]
    by_cases h2 : byteAt body 3 = 2
    · have h44 : ¬ byteAt body 3 = 4 := by omega
      rw [if_pos h2, if_neg h44]
      by_cases h5 : body.length < 5
      · rw [if_pos h5, if_neg (fun h => by omega), Option.elim_none]
      have hwmm : byteAt body 3 = 2 ∧ 5 ≤ body.length := ⟨h2, by omega⟩
      rw [if_neg h5, if_pos hwmm]
      split_ifs <;> rfl
    · rw [if_neg h2]
      by_cases h44 : byteAt body 3 = 4
      · rw [if_pos h44, if_pos h44, Option.elim_some]
      · rw [if_neg h44, if_neg h44, if_neg (fun h => h2 h.1), Option.elim_none]
  · simp only [hms, if_false, false_and]
    by_cases hwfa : be24 body = 0x506f9a
    · simp only [hwfa, if_true, true_and]
      split_ifs <;> rfl
    · simp only [hwfa, if_false, false_and, Option.elim_none]

theorem vendorField_some {body : List UInt8} {f : Field} (h : vendorField body = some f) :
    f.hasLen = true ∧ f ≠ .quietElem ∧ f ≠ .atbmSpecial := by
  unfold vendorField at h
  split_ifs at h <;> cases h <;> exact ⟨rfl, nofun, nofun⟩

theorem parseElem_idField {id pos n : ℕ} {body : List UInt8} {f : Field} (h40 : id ≠ 40)
    (h62 : id ≠ 62) (h : idField id = some (f, n)) :
    parseElem id pos body elems =
      if n ≤ body.length then elems.store f ⟨id, pos, body⟩ else elems := by
  unfold idField at h
  split at h
  all_goals first
    | contradiction
    | (obtain ⟨rfl, rfl⟩ := Prod.mk.inj (Option.some.inj h)
       first
         | exact (if_pos (Nat.zero_le _)).symm
         | rfl)

theorem parseElem_unknown {id pos : ℕ} {body : List UInt8} (hv : id ≠ 221)
    (h : idField id = none) : parseElem id pos body elems = elems := by
  unfold parseElem
  dsimp only
  split <;> first | rfl | contradiction

/-- **The `switch`** stores an element in its field, apart from two cases. -/
theorem parseElem_eq (h40 : ie.id ≠ 40) (h62 : ie.id ≠ 62) :
    parseElem ie.id ie.pos ie.body elems = ie.field.elim elems fun f => elems.store f ie := by
  obtain ⟨id, pos, body⟩ := ie
  unfold Ie.field
  dsimp only at *
  by_cases hv : id = 221
  · subst hv
    have hcase : parseElem 221 pos body elems = parseVendorSpecific pos body elems := rfl
    rw [if_pos rfl, hcase, parseVendorSpecific_eq]
    rcases hf : vendorField body with _ | f
    · rfl
    · show _ = elems.store f _
      rw [Ieee802Atbm11Elems.store, if_pos (vendorField_some hf).1]
      rfl
  rw [if_neg hv]
  rcases hfield : idField id with _ | ⟨f, n⟩
  · exact parseElem_unknown elems hv hfield
  · rw [parseElem_idField elems h40 h62 hfield, Option.bind_some]
    split_ifs <;> rfl

theorem idField_eq {id : ℕ} {r : Field × ℕ} (h : idField id = some r)
    (hf : r.1 = .quietElem ∨ r.1 = .atbmSpecial) :
    id = if r.1 = .quietElem then 40 else 233 := by
  unfold idField at h
  split at h <;> cases h <;> first | rfl | (rcases hf with hf | hf <;> cases hf)

theorem field_eq_some {f : Field} (hf : f = .quietElem ∨ f = .atbmSpecial) :
    ie.field = some f ↔ ie.id = (if f = .quietElem then 40 else 233) := by
  obtain ⟨id, pos, body⟩ := ie
  constructor
  · intro h
    unfold Ie.field at h
    dsimp only at h
    split_ifs at h with hv
    · obtain ⟨-, h1, h2⟩ := vendorField_some h
      rcases hf with rfl | rfl
      · exact absurd rfl h1
      · exact absurd rfl h2
    · obtain ⟨r, hr, hlen⟩ := Option.bind_eq_some_iff.mp h
      split_ifs at hlen
      obtain rfl : r.1 = f := Option.some.inj hlen
      exact idField_eq hr hf
  · intro h
    dsimp only at h
    rcases hf with rfl | rfl
    · obtain rfl : id = 40 := h
      show (if 0 ≤ body.length then some Field.quietElem else none) = _
      exact if_pos (Nat.zero_le _)
    · obtain rfl : id = 233 := h
      show (if 0 ≤ body.length then some Field.atbmSpecial else none) = _
      exact if_pos (Nat.zero_le _)

/-- The element is stored in the field: it belongs there, or it falls through. -/
def stores (f : Field) (ie : Ie) : Bool :=
  ie.field = some f || ie.id = 62 && f = .atbmSpecial

theorem field_secondary (h62 : ie.id = 62) : ie.field = some .secondaryChElem := by
  obtain ⟨id, pos, body⟩ := ie
  obtain rfl : id = 62 := h62
  show (if 0 ≤ body.length then some Field.secondaryChElem else none) = _
  exact if_pos (Nat.zero_le _)

theorem field_quiet (h40 : ie.id = 40) : ie.field = some .quietElem :=
  (field_eq_some ie (Or.inl rfl)).mpr h40

theorem parseElem_secondary (h62 : ie.id = 62) :
    parseElem ie.id ie.pos ie.body elems =
      (elems.store .secondaryChElem ie).store .atbmSpecial ie := by
  rw [h62]
  rfl

theorem parseElem_quiet (h40 : ie.id = 40) :
    parseElem ie.id ie.pos ie.body elems =
      { if (elems.ptr .quietElem).isNone then elems.store .quietElem ie else elems with
        numOfQuietElem := (elems.numOfQuietElem + 1) % 256 } := by
  rw [h40]
  unfold parseElem
  dsimp only
  split_ifs <;> rfl

/-- **Overwritten fields.** -/
theorem cell_parseElem {f : Field} (hf : f ≠ .quietElem) :
    (parseElem ie.id ie.pos ie.body elems).cell f =
      if stores f ie then ie.cell f else elems.cell f := by
  by_cases h62 : ie.id = 62
  · rw [parseElem_secondary ie elems h62, cell_store, cell_store, stores, field_secondary ie h62,
      h62]
    by_cases h1 : Field.atbmSpecial = f
    · subst h1
      simp
    · by_cases h2 : Field.secondaryChElem = f
      · subst h2
        simp
      · have h1' : ¬ f = .atbmSpecial := fun h => h1 h.symm
        simp [h1, h2, h1']
  by_cases h40 : ie.id = 40
  · have hne : ¬ Field.quietElem = f := fun h => hf h.symm
    rw [parseElem_quiet ie elems h40, stores, field_quiet ie h40, h40]
    have hcell : ∀ (e : Ieee802Atbm11Elems) (n : ℕ),
        Ieee802Atbm11Elems.cell { e with numOfQuietElem := n } f = e.cell f := fun _ _ => rfl
    rw [hcell]
    split_ifs <;> simp_all [cell_store]
  rw [parseElem_eq ie elems h40 h62, stores]
  rcases hfield : ie.field with _ | g
  · simp [h62]
  · show (elems.store g ie).cell f = _
    rw [cell_store]
    simp [h62]

/-- **The first quiet element.** -/
theorem cell_quiet : (parseElem ie.id ie.pos ie.body elems).cell .quietElem =
    if decide (ie.id = 40) && (elems.cell .quietElem).1.isNone then ie.cell .quietElem
    else elems.cell .quietElem := by
  by_cases h40 : ie.id = 40
  · rw [parseElem_quiet ie elems h40]
    have hcell : ∀ (e : Ieee802Atbm11Elems) (n : ℕ),
        Ieee802Atbm11Elems.cell { e with numOfQuietElem := n } .quietElem = e.cell .quietElem :=
      fun _ _ => rfl
    rw [hcell, decide_eq_true h40, Bool.true_and]
    show Ieee802Atbm11Elems.cell (if (elems.ptr .quietElem).isNone then _ else _) _ =
      if (elems.ptr .quietElem).isNone then _ else _
    split_ifs
    · rw [cell_store, if_pos rfl]
    · rfl
  rw [decide_eq_false h40, Bool.false_and, if_neg Bool.false_ne_true]
  by_cases h62 : ie.id = 62
  · rw [parseElem_secondary ie elems h62, cell_store, cell_store]
    rfl
  rw [parseElem_eq ie elems h40 h62]
  rcases hfield : ie.field with _ | g
  · rfl
  · show (elems.store g ie).cell .quietElem = _
    have hne : g ≠ .quietElem := by
      rintro rfl
      exact h40 ((field_eq_some ie (Or.inl rfl)).mp hfield)
    rw [cell_store, if_neg hne]

/-- **The number of quiet elements.** -/
theorem quiet_parseElem : (parseElem ie.id ie.pos ie.body elems).numOfQuietElem =
    if decide (ie.id = 40) then (elems.numOfQuietElem + 1) % 256 else elems.numOfQuietElem := by
  by_cases h40 : ie.id = 40
  · rw [parseElem_quiet ie elems h40, if_pos (decide_eq_true h40)]
  rw [if_neg (by simpa using h40)]
  by_cases h62 : ie.id = 62
  · rw [parseElem_secondary ie elems h62, quiet_store, quiet_store]
  rw [parseElem_eq ie elems h40 h62]
  rcases ie.field with _ | g
  · rfl
  · exact quiet_store ie elems g

theorem total_parseElem : (parseElem ie.id ie.pos ie.body elems).totalLen = elems.totalLen := by
  by_cases h40 : ie.id = 40
  · rw [parseElem_quiet ie elems h40]
    dsimp only
    split_ifs
    · exact total_store ie elems _
    · rfl
  by_cases h62 : ie.id = 62
  · rw [parseElem_secondary ie elems h62, total_store, total_store]
  rw [parseElem_eq ie elems h40 h62]
  rcases ie.field with _ | g
  · rfl
  · exact total_store ie elems g

end

/-! ### The whole input -/

section

variable (env : CrcEnv) (start : List UInt8) (crc : ℕ)

theorem parseElemsCrc_eq : (parseElemsCrc env start crc).1 =
    (elements 0 start).foldl (fun e ie => parseElem ie.id ie.pos ie.body e) (.zero start.length) :=
  parseElemsLoop_eq env 0 start _ crc

theorem cell_zero (n : ℕ) (f : Field) : (Ieee802Atbm11Elems.zero n).cell f = (none, 0) :=
  Prod.ext rfl (ite_self _)

/-- **What the parser leaves in a field**: the last element that is stored in it. -/
theorem cell_parse {f : Field} (hf : f ≠ .quietElem) :
    (parseElemsCrc env start crc).1.cell f =
      (((elements 0 start).filter (stores f)).getLast?.map fun ie => ie.cell f).getD (none, 0) := by
  rw [parseElemsCrc_eq, ← cell_zero start.length f]
  exact foldl_last (g := fun e => e.cell f) (h := fun ie => ie.cell f) (p := stores f)
    (fun e ie => cell_parseElem ie e hf) _ _

theorem cell_parse_quiet : (parseElemsCrc env start crc).1.cell .quietElem =
    (((elements 0 start).filter fun ie => ie.id = 40).head?.map fun ie =>
      ie.cell .quietElem).getD (none, 0) := by
  rw [parseElemsCrc_eq]
  refine (@foldl_first _ _ _ (fun e (ie : Ie) => parseElem ie.id ie.pos ie.body e)
    (fun ie => decide (ie.id = 40)) (fun e => e.cell .quietElem) (fun ie => ie.cell .quietElem)
    (fun c => c.1.isNone) (fun e ie => cell_quiet ie e) (fun _ => rfl) _ _).trans ?_
  rw [cell_zero]
  rfl

theorem quiet_parse : (parseElemsCrc env start crc).1.numOfQuietElem =
    ((elements 0 start).filter fun ie => ie.id = 40).length % 256 := by
  rw [parseElemsCrc_eq]
  have hzero : (Ieee802Atbm11Elems.zero start.length).numOfQuietElem = 0 := rfl
  refine (foldl_count (g := fun e => e.numOfQuietElem) (p := fun ie : Ie => decide (ie.id = 40))
    (m := 256) (fun e ie => quiet_parseElem ie e) _ _ ?_).trans ?_
  · rw [hzero]
    omega
  · rw [hzero, Nat.zero_add]

theorem total_parse : (parseElemsCrc env start crc).1.totalLen = start.length := by
  rw [parseElemsCrc_eq]
  generalize elements 0 start = l
  generalize he : Ieee802Atbm11Elems.zero start.length = e
  have htotal : e.totalLen = start.length := by rw [← he]; rfl
  clear he
  induction l generalizing e with
  | nil => exact htotal
  | cons ie l ih =>
    rw [List.foldl_cons]
    exact ih _ ((total_parseElem ie e).trans htotal)

end

/-- The last of the elements with a secondary channel offset and the private ones is private. -/
def LastIsPrivate (l : List Ie) : Prop :=
  ∀ ie, (l.filter fun ie => ie.id = 62 || ie.id = 233).getLast? = some ie → ie.id = 233

theorem stores_special (ie : Ie) :
    stores .atbmSpecial ie = (decide (ie.id = 62) || decide (ie.id = 233)) := by
  have h := field_eq_some ie (f := .atbmSpecial) (Or.inr rfl)
  rw [if_neg (by decide)] at h
  rw [stores, Bool.or_comm]
  simp [h]

theorem reads_of_cell {e : Ieee802Atbm11Elems} {f : Field} {o : Option Ie}
    (h : e.cell f = (o.map fun ie => ie.cell f).getD (none, 0)) :
    e.ptr f = o.map Ie.pos ∧
      (f.hasLen = true → e.len f = (o.map fun ie => ie.body.length).getD 0) := by
  have hptr : e.ptr f = (e.cell f).1 := rfl
  have hlen : f.hasLen = true → e.len f = (e.cell f).2 := fun hf => (if_pos hf).symm
  rw [h] at hptr hlen
  rcases o with _ | ie
  · exact ⟨hptr, hlen⟩
  · exact ⟨hptr, fun hf => (hlen hf).trans (if_pos hf)⟩

section

variable (env : CrcEnv) (start : List UInt8) (crc : ℕ)

/-- **Every other field** holds its reading. -/
theorem cell_reading {f : Field} (hf : f ≠ .atbmSpecial) : (parseElemsCrc env start crc).1.cell f =
    ((readingOf f (elements 0 start)).map fun ie => ie.cell f).getD (none, 0) := by
  unfold readingOf
  by_cases hq : f = .quietElem
  · subst hq
    have hfilter : (fun ie : Ie => decide (ie.field = some .quietElem)) =
        fun ie => decide (ie.id = 40) :=
      funext fun ie => decide_eq_decide.mpr (field_eq_some ie (Or.inl rfl))
    rw [cell_parse_quiet, if_pos rfl, hfilter]
  · have hfilter : stores f = fun ie => decide (ie.field = some f) := by
      funext ie
      rw [stores, decide_eq_false hf, Bool.and_false, Bool.or_false]
    rw [cell_parse env start crc hq, if_neg hq, hfilter]

theorem reading_special {l : List Ie} (h : LastIsPrivate l) :
    readingOf .atbmSpecial l = (l.filter (stores .atbmSpecial)).getLast? := by
  have hstores : stores .atbmSpecial = fun ie => decide (ie.id = 62) || decide (ie.id = 233) :=
    funext stores_special
  have himp : ∀ ie : Ie, decide (ie.field = some .atbmSpecial) = true →
      stores .atbmSpecial ie = true := by
    intro ie hie
    rw [stores, hie]
    rfl
  rw [readingOf, if_neg (by decide)]
  rcases hlast : (l.filter (stores .atbmSpecial)).getLast? with _ | z
  · rw [List.getLast?_eq_none_iff, List.filter_eq_nil_iff] at hlast ⊢
    exact fun ie hie hfield => hlast ie hie (himp ie hfield)
  · have hz : z.id = 233 := h z (hstores ▸ hlast)
    refine getLast?_filter_of_imp himp hlast (decide_eq_true ?_)
    exact (field_eq_some z (Or.inr rfl)).mpr hz

theorem elements_pos_inj {a b : Ie} (ha : a ∈ elements 0 start) (hb : b ∈ elements 0 start)
    (hpos : a.pos = b.pos) : a = b := by
  by_contra hne
  have hpair : (elements 0 start).Pairwise (fun a b => a.pos ≠ b.pos) :=
    (elements_pairwise 0 start).1.imp fun h => Nat.ne_of_lt h
  have : Std.Symm fun a b : Ie => a.pos ≠ b.pos := ⟨fun _ _ h => h.symm⟩
  exact hpair.forall ha hb hne hpos

/-- The private field holds its reading only when the last element stored there is private. -/
theorem lastIsPrivate_of_ptr (h : (parseElemsCrc env start crc).1.ptr .atbmSpecial =
    (readingOf .atbmSpecial (elements 0 start)).map Ie.pos) :
    LastIsPrivate (elements 0 start) := by
  intro z hz
  have hstores : stores .atbmSpecial = fun ie => decide (ie.id = 62) || decide (ie.id = 233) :=
    funext stores_special
  have hcell := cell_parse env start crc (f := .atbmSpecial) (by decide)
  rw [hstores, hz] at hcell
  have hptr : (parseElemsCrc env start crc).1.ptr .atbmSpecial = some z.pos :=
    congrArg Prod.fst hcell
  rw [hptr] at h
  obtain ⟨w, hw, hpos⟩ := Option.map_eq_some_iff.mp h.symm
  rw [readingOf, if_neg (by decide)] at hw
  obtain ⟨hwl, hwf⟩ := List.mem_filter.mp (List.mem_of_getLast? hw)
  obtain ⟨hzl, -⟩ := List.mem_filter.mp (List.mem_of_getLast? hz)
  obtain rfl : w = z := elements_pos_inj start hwl hzl hpos
  exact (field_eq_some w (Or.inr rfl)).mp (of_decide_eq_true hwf)

theorem reads_of (hlast : LastIsPrivate (elements 0 start))
    (hquiet : ((elements 0 start).filter fun ie => ie.id = 40).length < 256) :
    Reads start (parseElemsCrc env start crc).1 := by
  have hcell : ∀ f, (parseElemsCrc env start crc).1.cell f =
      ((readingOf f (elements 0 start)).map fun ie => ie.cell f).getD (none, 0) := by
    intro f
    by_cases hf : f = .atbmSpecial
    · rw [hf, cell_parse env start crc (by decide), reading_special hlast]
    · exact cell_reading env start crc hf
  refine ⟨fun f => (reads_of_cell (hcell f)).1, fun f => (reads_of_cell (hcell f)).2, ?_,
    total_parse env start crc, elements_inside start 0 start rfl⟩
  rw [quiet_parse, Nat.mod_eq_of_lt hquiet]

/-- **The parser reads the input** exactly when no secondary channel offset falls through into the
private field behind the last private element, and the quiet elements fit in their counter. -/
theorem reads_iff : Reads start (parseElemsCrc env start crc).1 ↔
    LastIsPrivate (elements 0 start) ∧
      ((elements 0 start).filter fun ie => ie.id = 40).length < 256 := by
  constructor
  · intro h
    refine ⟨lastIsPrivate_of_ptr env start crc (h.ptr _), ?_⟩
    rw [← h.quiet, quiet_parse]
    exact Nat.mod_lt _ (by omega)
  · rintro ⟨hlast, hquiet⟩
    exact reads_of env start crc hlast hquiet

end

/-- A secondary channel offset alone. -/
def secondaryOnly : List UInt8 := [62, 1, 3]

theorem elements_secondaryOnly : elements 0 secondaryOnly = [⟨62, 2, [3]⟩] := by
  have happend : elements 0 ((62 : UInt8) :: 1 :: ([3] ++ [])) = _ := elements_append rfl
  rw [elements_nil] at happend
  exact happend

/-- **A field of another id**: the offset of a secondary channel lands in the private field. -/
theorem secondary_is_private :
    (parseElems secondaryOnly).ptr .atbmSpecial = some 2 ∧
      ¬ Reads secondaryOnly (parseElems secondaryOnly) := by
  have hptr : (parseElems secondaryOnly).ptr .atbmSpecial = some 2 := by
    rw [parseElems, parseElemsCrc_eq, elements_secondaryOnly]
    rfl
  refine ⟨hptr, fun h => ?_⟩
  have hread := h.ptr .atbmSpecial
  rw [hptr, elements_secondaryOnly] at hread
  exact absurd hread (by decide)

end Atbm6441.Ieee80211.Elems
