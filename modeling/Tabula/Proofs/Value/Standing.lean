import Mathlib.Data.String.Basic
import Tabula.Proofs.Row.Stable

/-!
Where values stand. Numbers and texts each have one line to stand on, and comparing asks which of
two stands further along one of them. Nulls stand nowhere, and so does what is not a number, so that
a value other than these is equal to just those that stand where it does.
-/

namespace Tabula

/-! ### Doubles that are not numbers -/

namespace Number

open Float.Model

theorem unpackExponent_toNat (b : BitVec 64) :
    (@UnpackedFloat.unpackExponent .binary64 b).toNat =
      b.toNat / twoTo 52 % twoTo 11 := by
  simp [UnpackedFloat.unpackExponent, Nat.shiftRight_eq_div_pow, twoTo]

theorem unpackMantissa_toNat (b : BitVec 64) :
    (@UnpackedFloat.unpackMantissa .binary64 b).toNat =
      b.toNat % twoTo 52 := by
  simp [UnpackedFloat.unpackMantissa, twoTo]

/-- The exponent field is full and the fraction is not empty. -/
theorem isNaN_unpack (b : BitVec 64) : (UnpackedFloat.unpack .binary64 b).isNaN = true ↔
    b.toNat / twoTo 52 % twoTo 11 = 2047 ∧ b.toNat % twoTo 52 ≠ 0 := by
  have hfull : @UnpackedFloat.unpackExponent .binary64 b = -1#11 ↔
      b.toNat / twoTo 52 % twoTo 11 = 2047 := by
    rw [BitVec.toNat_eq, unpackExponent_toNat]
    rfl
  have hempty : @UnpackedFloat.unpackMantissa .binary64 b = 0#52 ↔ b.toNat % twoTo 52 = 0 := by
    rw [BitVec.toNat_eq, unpackMantissa_toNat]
    rfl
  rw [← hfull, ne_eq, ← hempty]
  delta UnpackedFloat.unpack
  dsimp only
  -- the test is moved inward, to where the form of the double is known
  rw [apply_ite UnpackedFloat.isNaN, apply_ite UnpackedFloat.isNaN, apply_ite UnpackedFloat.isNaN,
    apply_dite UnpackedFloat.isNaN]
  show (if _ then if _ then false else true else if _ then if _ then false else false
    else false) = true ↔ _
  simp

theorem isNaN_iff (x : Float) : x.isNaN = true ↔
    x.toBits.toNat / twoTo 52 % twoTo 11 = 2047 ∧ x.toBits.toNat % twoTo 52 ≠ 0 :=
  isNaN_unpack x.toModel.toBits.toBitVec

theorem Parts.of_eq_nan_iff (x : Float) : Parts.of x = .nan ↔ x.isNaN = true := by
  rw [isNaN_iff]
  unfold Parts.of
  dsimp only
  split
  · rename_i hfield
    split <;> simp_all
  · rename_i hfield
    split <;> simp [hfield]

end Number

/-! ### Order of places -/

namespace Place

theorem lt_asymm {a b : Place} (h : a.lt b = true) : b.lt a = false := by
  have htotal := le_total a b
  simp only [le, h] at htotal
  simpa using htotal

theorem lt_negTrans {a b c : Place} (hab : a.lt b = false) (hbc : b.lt c = false) :
    a.lt c = false := by
  have hcb : c.le b = true := by simp [le, hbc]
  have hba : b.le a = true := by simp [le, hab]
  simpa [le] using le_trans hcb hba

theorem eq_of_not_lt {a b : Place} (hab : a.lt b = false) (hba : b.lt a = false) : a = b :=
  le_antisymm (by simp [le, hba]) (by simp [le, hab])

end Place

/-! ### Values by what they stand for -/

/-- A line and the place on it. -/
inductive Standing
  | number (p : Place)
  | text (s : String)
  deriving DecidableEq

/-- Whether one stands before another; numbers stand before texts. -/
def Standing.lt : Standing → Standing → Bool
  | number p, number q => p.lt q
  | number _, text _ => true
  | text _, number _ => false
  | text s, text t => s < t

namespace Standing

theorem lt_asymm {a b : Standing} (h : a.lt b = true) : b.lt a = false := by
  cases a <;> cases b <;> simp only [lt, decide_eq_true_eq, decide_eq_false_iff_not] at h ⊢
  · exact Place.lt_asymm h
  · cases h
  · exact String.lt_asymm h

theorem lt_negTrans {a b c : Standing} (hab : a.lt b = false) (hbc : b.lt c = false) :
    a.lt c = false := by
  cases a <;> cases b <;> cases c <;>
    simp_all only [lt, decide_eq_false_iff_not, Bool.true_eq_false, String.not_lt]
  · exact Place.lt_negTrans hab hbc
  · exact String.le_trans hbc hab

theorem eq_of_not_lt {a b : Standing} (hab : a.lt b = false) (hba : b.lt a = false) : a = b := by
  cases a <;> cases b <;>
    simp_all only [lt, decide_eq_false_iff_not, Bool.true_eq_false, String.not_lt]
  · exact congrArg number (Place.eq_of_not_lt hab hba)
  · exact congrArg text (String.le_antisymm hba hab)

theorem lt_irrefl (a : Standing) : a.lt a = false := by
  by_contra hne
  have htrue := (Bool.not_eq_false _).mp hne
  exact hne (lt_asymm htrue)

end Standing

namespace Value

/-- A value of one of the kinds that plans compute with. -/
def Supported (v : Value) : Prop := v.kind ≠ .list

instance (v : Value) : Decidable v.Supported := inferInstanceAs (Decidable (v.kind ≠ .list))

/-- A value that is equal to itself: not a list, and not a double that is no number. -/
structure Plain (v : Value) : Prop where
  supported : v.Supported
  notNaN : v.isNaN = false

instance (v : Value) : Decidable v.Plain :=
  decidable_of_iff (v.Supported ∧ v.isNaN = false) ⟨fun h => ⟨h.1, h.2⟩, fun h => ⟨h.1, h.2⟩⟩

/-- Where a value stands, if anywhere. -/
def standing? : Value → Option Standing
  | str s => some (.text s)
  | v => v.place?.map .number

/-- Two values that are null or can be ordered together. -/
def Comparable (v w : Value) : Prop := v = null ∨ w = null ∨ ∃ b, v.compare .lt w = .ok b

instance (v w : Value) : Decidable (v.Comparable w) :=
  decidable_of_iff (v.isNull = true ∨ w.isNull = true ∨ (v.compare .lt w).isOk = true) (by
    rw [isNull_eq_true, isNull_eq_true]
    unfold Comparable
    cases v.compare .lt w <;> simp [Except.isOk, Except.toBool])

theorem Supported.cases {v : Value} (h : v.Supported) :
    v = null ∨ (∃ s, v = str s) ∨ v.isNumeric = true := by
  cases v <;> simp_all [Supported, kind, isNumeric]

theorem standing?_of_isNumeric {v : Value} (h : v.isNumeric = true) :
    v.standing? = v.place?.map .number := by
  cases v <;> simp_all [standing?, isNumeric]

theorem Plain.place? {v : Value} (h : v.Plain) (hv : v.isNumeric = true) :
    ∃ p, v.place? = some p := by
  have hnan := h.notNaN
  cases v with
  | null => cases hv
  | bool b => exact ⟨_, rfl⟩
  | int n => exact ⟨_, rfl⟩
  | str s => cases hv
  | list i items => cases hv
  | float x =>
      have hparts : Number.Parts.of x ≠ .nan := by
        rw [ne_eq, Number.Parts.of_eq_nan_iff, Bool.not_eq_true]
        exact hnan
      rw [Value.place?.eq_def]
      dsimp only
      split
      · exact absurd ‹_› hparts
      · exact ⟨_, rfl⟩
      · exact ⟨_, rfl⟩
      · exact ⟨_, rfl⟩
      · exact ⟨_, rfl⟩

/-! ### Equality -/

theorem place?_of_not_isNumeric {v : Value} (h : v.isNumeric = false) : v.place? = none := by
  cases v <;> simp_all [isNumeric, Value.place?]

theorem same_of_isNumeric {v w : Value} (h : v.isNumeric = true ∨ w.isNumeric = true) :
    v.same w = match v.place?, w.place? with
      | some p, some q => p == q
      | _, _ => false := by
  cases v <;> cases w <;> first | rfl | simp_all [isNumeric]

/-- Values that are not lists and are numbers are equal if they stand at the same place. -/
theorem same_iff {v w : Value} (hv : v.Plain) (hw : w.Plain) :
    v.same w = true ↔ v.standing? = w.standing? := by
  rcases hv.supported.cases with rfl | ⟨s, rfl⟩ | hv'
  · rcases hw.supported.cases with rfl | ⟨t, rfl⟩ | hw'
    · simp [same]
    · simp [same, standing?, Value.place?]
    · obtain ⟨q, hq⟩ := hw.place? hw'
      rw [same_of_isNumeric (.inr hw'), standing?_of_isNumeric hw', hq]
      simp [standing?, Value.place?]
  · rcases hw.supported.cases with rfl | ⟨t, rfl⟩ | hw'
    · simp [same, standing?, Value.place?]
    · simp [same, standing?]
    · obtain ⟨q, hq⟩ := hw.place? hw'
      rw [same_of_isNumeric (.inr hw'), standing?_of_isNumeric hw', hq]
      simp [standing?, Value.place?]
  · obtain ⟨p, hp⟩ := hv.place? hv'
    rw [same_of_isNumeric (.inl hv'), standing?_of_isNumeric hv', hp]
    rcases hw.supported.cases with rfl | ⟨t, rfl⟩ | hw'
    · simp [standing?, Value.place?]
    · simp [standing?, Value.place?]
    · obtain ⟨q, hq⟩ := hw.place? hw'
      rw [standing?_of_isNumeric hw', hq]
      simp

theorem sameItems_iff {vs ws : List Value} (hvs : ∀ v ∈ vs, v.Plain) (hws : ∀ w ∈ ws, w.Plain) :
    sameItems vs ws = true ↔ vs.map standing? = ws.map standing? := by
  induction vs generalizing ws with
  | nil => cases ws <;> simp [sameItems]
  | cons v vs ih =>
      cases ws with
      | nil => simp [sameItems]
      | cons w ws =>
          rw [List.forall_mem_cons] at hvs hws
          simp only [sameItems, Bool.and_eq_true, List.map_cons, List.cons.injEq,
            same_iff hvs.1 hws.1, ih hvs.2 hws.2]

theorem Plain.standing?_eq_none {v : Value} (h : v.Plain) : v.standing? = none ↔ v = null := by
  rcases h.supported.cases with rfl | ⟨s, rfl⟩ | hv
  · simp [standing?, Value.place?]
  · simp [standing?]
  · obtain ⟨p, hp⟩ := h.place? hv
    rw [standing?_of_isNumeric hv, hp]
    have hne : v ≠ null := by
      rintro rfl
      cases hv
    simp [hne]

/-! ### Order -/

theorem compare_of_isNumeric (o : Order) {v w : Value} (hv : v.isNumeric = true)
    (hw : w.isNumeric = true) :
    v.compare o w = match v.place?, w.place? with
      | some p, some q => .ok (o.holds (p.lt q) (p == q))
      | _, _ => .ok false := by
  cases v <;> cases w <;> first | rfl | simp_all [isNumeric]

theorem comparable_of_isNumeric {v w : Value} (hv : v.isNumeric = true)
    (hw : w.isNumeric = true) : v.Comparable w := by
  refine .inr (.inr ?_)
  rw [compare_of_isNumeric .lt hv hw]
  split
  · exact ⟨_, rfl⟩
  · exact ⟨_, rfl⟩

/-- Values can be ordered together if both are numbers or both are texts. -/
theorem comparable_iff {v w : Value} (hv : v.Supported) (hw : w.Supported) :
    v.Comparable w ↔ v = null ∨ w = null ∨ v.isNumeric = w.isNumeric := by
  -- two numbers have too many forms to be gone through one by one
  by_cases hnumeric : v.isNumeric = true ∧ w.isNumeric = true
  · simp [comparable_of_isNumeric hnumeric.1 hnumeric.2, hnumeric.1, hnumeric.2]
  · unfold Comparable
    cases v <;> cases w <;> simp_all [isNumeric, compare, Supported, kind]

theorem comparable_comm {v w : Value} (hv : v.Supported) (hw : w.Supported) :
    v.Comparable w ↔ w.Comparable v := by
  rw [comparable_iff hv hw, comparable_iff hw hv, or_left_comm, eq_comm (a := v.isNumeric)]

theorem isBelow_of_compare {v w : Value} {b : Bool} (h : v.compare .lt w = .ok b) :
    v.isBelow w = b := by
  cases b <;> simp [isBelow, h]

/-- A value is below another one of its kind if it stands before it. -/
theorem isBelow_eq {v w : Value} {a b : Standing} (hv : v.Plain) (hw : w.Plain)
    (h : v.Comparable w) (ha : v.standing? = some a) (hb : w.standing? = some b) :
    v.isBelow w = a.lt b := by
  have hvne : v ≠ null := fun hn => by rw [hv.standing?_eq_none.2 hn] at ha; cases ha
  have hwne : w ≠ null := fun hn => by rw [hw.standing?_eq_none.2 hn] at hb; cases hb
  have hsame := ((comparable_iff hv.supported hw.supported).1 h).resolve_left hvne
    |>.resolve_left hwne
  rcases hv.supported.cases with hn | ⟨s, rfl⟩ | hv'
  · exact absurd hn hvne
  · rcases hw.supported.cases with hn | ⟨t, rfl⟩ | hw'
    · exact absurd hn hwne
    · cases ha
      cases hb
      exact isBelow_of_compare rfl
    · rw [hw'] at hsame
      cases hsame
  · have hw' : w.isNumeric = true := hsame ▸ hv'
    obtain ⟨p, hp⟩ := hv.place? hv'
    obtain ⟨q, hq⟩ := hw.place? hw'
    rw [standing?_of_isNumeric hv', hp] at ha
    rw [standing?_of_isNumeric hw', hq] at hb
    cases ha
    cases hb
    refine isBelow_of_compare ?_
    rw [compare_of_isNumeric .lt hv' hw', hp, hq]
    rfl

end Value

/-! ### Order under a term -/

/-- Whether one standing is before another under a term, what stands nowhere being last. -/
def OrderTerm.isAhead (t : OrderTerm) : Option Standing → Option Standing → Bool
  | none, _ => false
  | some _, none => true
  | some a, some b => if t.descending then b.lt a else a.lt b

theorem OrderTerm.strictWeak_isAhead (t : OrderTerm) : StrictWeak t.isAhead := by
  constructor
  · intro a b hab
    cases a <;> cases b <;> simp_all only [isAhead, Bool.false_eq_true]
    cases hdesc : t.descending <;> simp only [hdesc, Bool.false_eq_true, if_true, if_false] at hab ⊢
    · exact Standing.lt_asymm hab
    · exact Standing.lt_asymm hab
  · intro a b c hab hbc
    cases a <;> cases b <;> cases c <;> simp_all only [isAhead, Bool.true_eq_false]
    cases hdesc : t.descending <;>
      simp only [hdesc, Bool.false_eq_true, if_true, if_false] at hab hbc ⊢
    · exact Standing.lt_negTrans hab hbc
    · exact Standing.lt_negTrans hbc hab

theorem OrderTerm.eq_of_not_isAhead (t : OrderTerm) {a b : Option Standing}
    (hab : t.isAhead a b = false) (hba : t.isAhead b a = false) : a = b := by
  cases a <;> cases b <;> simp_all only [isAhead, Bool.true_eq_false]
  cases hdesc : t.descending <;>
    simp only [hdesc, Bool.false_eq_true, if_true, if_false] at hab hba
  · exact congrArg some (Standing.eq_of_not_lt hab hba)
  · exact congrArg some (Standing.eq_of_not_lt hba hab)

theorem OrderTerm.isBefore_eq (t : OrderTerm) {v w : Value} (hv : v.Plain) (hw : w.Plain)
    (h : v.Comparable w) : t.isBefore v w = t.isAhead v.standing? w.standing? := by
  cases ha : v.standing? with
  | none =>
      rw [hv.standing?_eq_none.1 ha]
      rfl
  | some a =>
      have hvne : v.isNull = false := by
        rw [Bool.eq_false_iff, ne_eq, Value.isNull_eq_true]
        exact fun hn => by rw [hv.standing?_eq_none.2 hn] at ha; cases ha
      cases hb : w.standing? with
      | none =>
          rw [hw.standing?_eq_none.1 hb, isBefore_null_right, hvne]
          rfl
      | some b =>
          have hwne : w.isNull = false := by
            rw [Bool.eq_false_iff, ne_eq, Value.isNull_eq_true]
            exact fun hn => by rw [hw.standing?_eq_none.2 hn] at hb; cases hb
          have h' := (Value.comparable_comm hv.supported hw.supported).1 h
          simp only [isBefore, hvne, hwne, isAhead, Value.isBelow_eq hv hw h ha hb,
            Value.isBelow_eq hw hv h' hb ha]

end Tabula
