import Tabula.Proofs.Result
import Tabula.Proofs.Value.Standing
import Tabula.Value.Operations

/-!
What operations end with. From values that plans compute with, every operation gives such a value
again or a fault that can be told as the cause of a failure; that two values have no order is not
among these, since only lists get as far as that.
-/

namespace Tabula

/-- A fault other than a missing order. -/
def OpFault.IsCause : OpFault → Prop
  | noOrder _ => False
  | _ => True

namespace Value

/-- The operation gives a value that plans compute with, or a fault that is a cause. -/
abbrev Sound (x : Except OpFault Value) : Prop := Ends OpFault.IsCause Supported x

@[simp] theorem supported_null : null.Supported := nofun

@[simp] theorem supported_bool (b : Bool) : (bool b).Supported := nofun

@[simp] theorem supported_int (n : Int) : (int n).Supported := nofun

@[simp] theorem supported_float (x : Float) : (float x).Supported := nofun

@[simp] theorem supported_str (s : String) : (str s).Supported := nofun

/-- A number that may be out of range. -/
theorem ends_elim {α β : Type} {E : OpFault → Prop} {Q : β → Prop} {fault : OpFault}
    {f : α → Except OpFault β} (hfault : E fault) (hf : ∀ a, Ends E Q (f a)) (o : Option α) :
    Ends E Q (o.elim (.error fault) f) := by
  cases o with
  | none => exact hfault
  | some a => exact hf a

theorem ends_toFloat (v : Value) : Ends OpFault.IsCause (fun _ => True) v.toFloat := by
  cases v with
  | int n => exact ends_elim (f := Except.ok) trivial (fun _ => trivial) (Number.ofInt? n)
  | float x => exact trivial
  | null => exact trivial
  | bool b => exact trivial
  | str s => exact trivial
  | list i items => exact trivial

theorem sound_exactArith (op : ArithOp) (a b : Int) : Sound (exactArith op a b) := by
  cases op with
  | add => exact supported_int _
  | sub => exact supported_int _
  | mul => exact supported_int _
  | div =>
      have hfault : (OpFault.range .quotientTooLarge).IsCause := trivial
      exact ends_elim (Q := Supported) (f := fun x => .ok (float x)) hfault supported_float
        (Number.ofDiv? a b)

theorem sound_arith (op : ArithOp) (a b : Value) : Sound (arith op a b) := by
  unfold arith
  split
  · exact supported_null
  · split
    · unfold numberArith
      split
      · exact supported_null
      · split
        · exact sound_exactArith op _ _
        · exact (ends_toFloat _).bind fun x _ =>
            (ends_toFloat _).bind fun y _ => .pure (supported_float _)
    · exact trivial

theorem isNumeric_eq_of_kind {a b : Value} (h : a.kind = b.kind) : a.isNumeric = b.isNumeric := by
  cases a <;> cases b <;> simp_all [kind, isNumeric]

/-- Values of one kind can be ordered in every sense, unless they are null or lists. -/
theorem compare_ok (o : Order) {a b : Value} (ha : a.Supported) (hn : a ≠ null)
    (h : a.kind = b.kind) : ∃ c, a.compare o b = .ok c := by
  rcases ha.cases with rfl | ⟨s, rfl⟩ | ha'
  · exact absurd rfl hn
  · obtain ⟨t, rfl⟩ : ∃ t, b = str t := by cases b <;> simp_all [kind]
    exact ⟨_, rfl⟩
  · rw [compare_of_isNumeric o ha' ((isNumeric_eq_of_kind h).symm.trans ha')]
    split
    · exact ⟨_, rfl⟩
    · exact ⟨_, rfl⟩

theorem ends_compareSame (op : CompareOp) {a b : Value} (ha : a.Supported) (hn : a ≠ null)
    (h : a.kind = b.kind) : Ends OpFault.IsCause (fun _ => True) (compareSame op a b) := by
  cases op with
  | eq => exact trivial
  | ne => exact trivial
  | order o =>
      obtain ⟨c, hc⟩ := compare_ok o ha hn h
      rw [compareSame, hc]
      exact trivial

theorem sound_comparison (op : CompareOp) {a b : Value} (ha : a.Supported) :
    Sound (comparison op a b) := by
  unfold comparison
  split
  · exact supported_null
  · rename_i hnull
    have hn : a ≠ null := by
      rintro rfl
      exact hnull rfl
    split
    · rename_i hkind
      exact (ends_compareSame op ha hn hkind).bind fun c _ =>
        .pure (supported_bool c)
    · exact trivial

theorem ends_truth (what : String) (v : Value) :
    Ends OpFault.IsCause (fun _ => True) (truth what v) := by
  cases v <;> exact trivial

theorem supported_ofTruth (t : Option Bool) : (ofTruth t).Supported := by
  cases t with
  | none => exact supported_null
  | some b => exact supported_bool b

theorem sound_negation (v : Value) : Sound v.negation :=
  (ends_truth "NOT" v).bind fun _ _ => .pure (supported_ofTruth _)

theorem sound_junction (op : Junction) (vs : List Value) : Sound (junction op vs) :=
  (ends_mapM fun v _ => ends_truth op.symbol v).bind fun _ _ => .pure (supported_ofTruth _)

theorem sound_unaryNumber (f : UnaryFn) (v : Value) : Sound (unaryNumber f v) := by
  have htoFloat (g : Float → Float) : Sound (do return float (g (← v.toFloat))) :=
    (ends_toFloat v).bind fun x _ => .pure (supported_float _)
  cases f with
  | abs =>
      cases v with
      | int n => exact supported_int _
      | _ => exact htoFloat Float.abs
  | sqrt =>
      unfold unaryNumber
      dsimp only
      split
      · exact trivial
      · exact htoFloat Float.sqrt
  | exp =>
      refine (ends_toFloat v).bind fun x _ => ?_
      dsimp only
      split
      · exact trivial
      · exact supported_float _
  | ln =>
      unfold unaryNumber
      dsimp only
      split
      · exact trivial
      · cases v with
        | int n => exact supported_float _
        | _ => exact htoFloat Float.log
  | lower => exact trivial
  | upper => exact trivial

theorem sound_unary (f : UnaryFn) (v : Value) : Sound (unary f v) := by
  unfold unary
  split
  · exact supported_null
  · exact supported_str _
  · exact supported_str _
  · split
    · exact sound_unaryNumber f v
    · exact trivial

theorem sound_roundNumber (v : Value) (places : Int) : Sound (roundNumber v places) := by
  unfold roundNumber
  split
  · exact supported_int _
  · refine (ends_toFloat _).bind fun x _ => ?_
    have hpower : Ends OpFault.IsCause (fun _ => True) (roundingPower places) := by
      refine (ends_toFloat _).bind fun y _ => ?_
      dsimp only
      split <;> exact trivial
    exact hpower.bind fun y _ => .pure (supported_float _)

theorem sound_round (v : Value) : Sound v.round := by
  unfold round
  split
  · exact supported_null
  · split
    · exact sound_roundNumber v 0
    · exact trivial

theorem sound_roundTo (v places : Value) : Sound (v.roundTo places) := by
  unfold roundTo
  split
  · exact supported_null
  · split
    · split
      · exact sound_roundNumber v _
      · exact trivial
    · exact trivial

theorem supported_coalesce {vs : List Value} (h : ∀ v ∈ vs, v.Supported) :
    (coalesce vs).Supported := by
  unfold coalesce
  cases hfind : vs.find? fun v => !v.isNull with
  | none => exact supported_null
  | some v => exact h v (List.mem_of_find?_eq_some hfind)

end Value

end Tabula
