import Tabula.Proofs.Expr.Telling
import Tabula.Proofs.Number.Shortest
import Tabula.Expr.Text

/-!
Numerals of doubles. The text of a double is a numeral with a point or an exponent: it is scanned as
one number, which is no integer and is read as the double.
-/

namespace Tabula

open Scan Number

/-! ### Numerals -/

/-- What a numeral is written with: the digits before and after its point, and the sign and the
digits of its exponent. -/
structure Numeral where
  whole : List Char
  fraction : List Char
  power : Option (Bool × List Char)

namespace Numeral

/-- The characters after the whole digits. -/
def fractionChars (n : Numeral) : List Char :=
  if n.fraction = [] then [] else '.' :: n.fraction

def powerChars (n : Numeral) : List Char :=
  match n.power with
  | none => []
  | some (negative, digits) => 'e' :: (if negative then '-' else '+') :: digits

def chars (n : Numeral) : List Char := n.whole ++ (n.fractionChars ++ n.powerChars)

/-- The exponent that is written out. -/
def exponent (n : Numeral) : Int :=
  match n.power with
  | none => 0
  | some (negative, digits) =>
      if negative then -(digitsFrom 0 digits : Int) else digitsFrom 0 digits

/-- The number that the numeral writes. -/
def decimal (n : Numeral) : Decimal :=
  ⟨digitsFrom 0 (n.whole ++ n.fraction), n.exponent - n.fraction.length⟩

/-- All of the characters are digits. -/
def IsDigits (cs : List Char) : Prop := ∀ c ∈ cs, c.isDigit = true

structure IsFormed (n : Numeral) : Prop where
  nonempty : n.whole ≠ []
  whole : IsDigits n.whole
  fraction : IsDigits n.fraction
  power : ∀ p ∈ n.power, p.2 ≠ [] ∧ IsDigits p.2

variable {n : Numeral}

/-! ### Scanning -/

theorem IsFormed.feed_whole (h : n.IsFormed) :
    (gap false).feed n.whole = ([], .number n.whole.reverse false 0) := by
  obtain ⟨c, cs, hcs⟩ := List.exists_cons_of_ne_nil h.nonempty
  have hdigits := h.whole
  rw [hcs, IsDigits, List.forall_mem_cons] at hdigits
  rw [hcs, Scan.feed, Scan.step, begin_digit hdigits.1]
  simp [feed_digits [c] false 0 hdigits.2]

theorem IsFormed.feed_fraction (h : n.IsFormed) (back : List Char) :
    ∃ point, (Scan.number back false 0).feed n.fractionChars =
      ([], .number (n.fractionChars.reverse ++ back) point 0) := by
  rw [fractionChars]
  split
  · exact ⟨false, rfl⟩
  · refine ⟨true, ?_⟩
    rw [Scan.feed]
    simp [Scan.step, feed_digits _ true 0 h.fraction]

theorem IsFormed.feed_power (h : n.IsFormed) (back : List Char) (point : Bool) :
    ∃ exponent, (Scan.number back point 0).feed n.powerChars =
      ([], .number (n.powerChars.reverse ++ back) point exponent) := by
  rw [powerChars]
  split
  · exact ⟨0, rfl⟩
  · next negative digits hpower =>
      obtain ⟨hne, hdigits⟩ := h.power _ hpower
      obtain ⟨c, cs, rfl⟩ := List.exists_cons_of_ne_nil hne
      rw [IsDigits, List.forall_mem_cons] at hdigits
      refine ⟨2, ?_⟩
      have hsign : ((if negative then '-' else '+') : Char) = '+' ∨
          ((if negative then '-' else '+') : Char) = '-' := by cases negative <;> simp
      generalize ((if negative then '-' else '+') : Char) = sign at hsign
      rcases hsign with rfl | rfl <;>
        simp [Scan.feed, Scan.step, hdigits.1, feed_digits _ _ _ hdigits.2]

/-- A numeral is one number. -/
theorem IsFormed.scans (h : n.IsFormed) :
    Scans n.chars [.token (.number (String.ofList n.chars))] := by
  obtain ⟨point, hfraction⟩ := h.feed_fraction n.whole.reverse
  obtain ⟨exponent, hpower⟩ := h.feed_power (n.fractionChars.reverse ++ n.whole.reverse) point
  have hfeed : (gap false).feed n.chars = ([], .number n.chars.reverse point exponent) := by
    simp [chars, Scan.feed_append, h.feed_whole, hfraction, hpower]
  have hscans := scans_number hfeed
  rwa [ofBack, List.reverse_reverse] at hscans

/-! ### Reading -/

theorem IsDigits.ne {cs : List Char} (h : IsDigits cs) {c d : Char} (hc : c ∈ cs)
    (hd : d.isDigit = false) : c ≠ d := by
  rintro rfl
  rw [h c hc] at hd
  cases hd

theorem IsDigits.not_exponentMark {cs : List Char} (h : IsDigits cs) :
    ∀ c ∈ cs, isExponentMark c = false := by
  intro c hc
  simp [isExponentMark, h.ne hc (d := 'e') (by decide), h.ne hc (d := 'E') (by decide)]

theorem someDigits?_of_isDigits {cs : List Char} (h : IsDigits cs) : someDigits? cs = some cs := by
  rw [someDigits?]
  split
  · next hempty => rw [List.isEmpty_iff.1 hempty]
  · next hne => exact plainDigits?_of_digits (by simpa using hne) h

/-- What stands before the exponent, and the exponent. -/
theorem IsFormed.split_power (h : n.IsFormed) :
    n.chars.takeWhile (fun c => !isExponentMark c) = n.whole ++ n.fractionChars ∧
      n.chars.dropWhile (fun c => !isExponentMark c) = n.powerChars := by
  have hbefore : ∀ c ∈ n.whole ++ n.fractionChars, (!isExponentMark c) = true := by
    rw [List.forall_mem_append]
    refine ⟨fun c hc => by rw [h.whole.not_exponentMark c hc]; rfl, fun c hc => ?_⟩
    rw [fractionChars] at hc
    split at hc
    · cases hc
    · rcases List.mem_cons.1 hc with rfl | hc
      · rfl
      · rw [h.fraction.not_exponentMark c hc]
        rfl
  have hafter : n.powerChars.takeWhile (fun c => !isExponentMark c) = [] ∧
      n.powerChars.dropWhile (fun c => !isExponentMark c) = n.powerChars := by
    rw [powerChars]
    split <;> simp [isExponentMark]
  rw [chars, ← List.append_assoc]
  constructor
  · rw [List.takeWhile_append_of_pos hbefore, hafter.1, List.append_nil]
  · rw [List.dropWhile_append_of_pos hbefore, hafter.2]

theorem IsFormed.split_point (h : n.IsFormed) :
    (n.whole ++ n.fractionChars).takeWhile (· ≠ '.') = n.whole ∧
      ((n.whole ++ n.fractionChars).dropWhile (· ≠ '.')).drop 1 = n.fraction := by
  have hbefore : ∀ c ∈ n.whole, decide (c ≠ '.') = true := fun c hc =>
    decide_eq_true (h.whole.ne hc (by decide))
  rw [List.takeWhile_append_of_pos hbefore, List.dropWhile_append_of_pos hbefore, fractionChars]
  split
  · next hempty => simp [hempty]
  · simp

theorem IsFormed.readExponent (h : n.IsFormed) :
    n.powerChars = [] ∧ n.exponent = 0 ∨
      ∃ c cs, n.powerChars = c :: cs ∧ readExponent? cs = some n.exponent := by
  obtain ⟨whole, fraction, power⟩ := n
  cases power with
  | none => exact .inl ⟨rfl, rfl⟩
  | some p =>
      obtain ⟨hne, hdigits⟩ := h.power p rfl
      refine .inr ⟨_, _, rfl, ?_⟩
      obtain ⟨_ | _, digits⟩ := p <;>
        simp [readExponent?, exponent, plainDigits?_of_digits hne hdigits]

/-- A numeral is read as the double that its number is read as. -/
theorem IsFormed.readUnsigned? (h : n.IsFormed) (negative : Bool) :
    readUnsigned? negative n.chars =
      some (ofDecimal negative n.decimal.digits n.decimal.exponent) := by
  obtain ⟨hmantissa, hpower⟩ := h.split_power
  obtain ⟨hwhole, hfraction⟩ := h.split_point
  have hne : (n.whole.isEmpty && n.fraction.isEmpty) = false := by simp [h.nonempty]
  rw [Number.readUnsigned?]
  simp only [hmantissa, hpower, hwhole, hfraction, someDigits?_of_isDigits h.whole,
    someDigits?_of_isDigits h.fraction, hne, Option.bind_eq_bind, Option.bind_some]
  rcases h.readExponent with ⟨hchars, hexponent⟩ | ⟨c, cs, hchars, hexponent⟩
  · simp [hchars, hexponent, decimal]
  · simp [hchars, hexponent, decimal]

/-- What goes on with something else than digits is no run of digits. -/
theorem plainDigits?_eq_none {cs rest : List Char} (h : IsDigits cs) {c : Char}
    (hc : c.isDigit = false) (hline : c ≠ '_') : plainDigits? (cs ++ c :: rest) = none := by
  induction cs with
  | nil =>
      rw [List.nil_append]
      unfold plainDigits?
      split <;> simp_all
  | cons d cs ih =>
      rw [IsDigits, List.forall_mem_cons] at h
      have hrest := ih h.2
      obtain ⟨b, tail, htail, hb⟩ : ∃ b tail, cs ++ c :: rest = b :: tail ∧ b ≠ '_' := by
        cases cs with
        | nil => exact ⟨c, rest, rfl, hline⟩
        | cons b cs =>
            exact ⟨b, cs ++ c :: rest, rfl, IsDigits.ne h.2 List.mem_cons_self (by decide)⟩
      rw [List.cons_append, htail]
      rw [htail] at hrest
      unfold plainDigits?
      split <;> simp_all

/-- A numeral with a point or an exponent is no integer. -/
theorem IsFormed.readNat? (h : n.IsFormed) (hmark : n.fraction ≠ [] ∨ n.power ≠ none) :
    readNat? n.chars = none := by
  obtain ⟨c, rest, hrest, hc, hline⟩ : ∃ c rest, n.fractionChars ++ n.powerChars = c :: rest ∧
      c.isDigit = false ∧ c ≠ '_' := by
    obtain ⟨whole, fraction, power⟩ := n
    by_cases hfraction : fraction = []
    · subst hfraction
      obtain ⟨p, rfl⟩ := Option.ne_none_iff_exists'.1 (hmark.resolve_left (· rfl))
      exact ⟨'e', _, rfl, by decide, by decide⟩
    · exact ⟨'.', fraction ++ _, by simp [fractionChars, hfraction]; rfl, by decide, by decide⟩
  rw [Number.readNat?, chars, hrest, plainDigits?_eq_none h.whole hc hline]
  rfl

end Numeral

/-! ### The layout of doubles -/

/-- The numeral of a decimal: positional or with an exponent, by the place of its point. -/
def Number.Decimal.numeral (d : Decimal) : Numeral :=
  let digits := Nat.toDigits 10 d.digits
  if -3 ≤ d.point ∧ d.point ≤ 16 then
    if d.point ≤ 0 then ⟨['0'], List.replicate (-d.point).toNat '0' ++ digits, none⟩
    else if digits.length ≤ d.point then
      ⟨digits ++ List.replicate (d.point - digits.length).toNat '0', ['0'], none⟩
    else ⟨digits.take d.point.toNat, digits.drop d.point.toNat, none⟩
  else
    let magnitude := Nat.toDigits 10 (d.point - 1).natAbs
    ⟨digits.take 1, digits.drop 1,
      some (decide (d.point - 1 < 0), List.replicate (2 - magnitude.length) '0' ++ magnitude)⟩

theorem toList_zeros (n : Nat) : (zeros n).toList = List.replicate n '0' := by simp [zeros]

theorem toList_toString (n : Nat) : (toString n).toList = Nat.toDigits 10 n := by
  rw [Nat.toString_eq_ofList_toDigits, String.toList_ofList]

theorem toList_positional (digits : String) (point : Int) :
    (positional digits point true).toList =
      if point ≤ 0 then ['0', '.'] ++ (List.replicate (-point).toNat '0' ++ digits.toList)
      else if digits.toList.length ≤ point then
        digits.toList ++ List.replicate (point - digits.toList.length).toNat '0' ++ ['.', '0']
      else digits.toList.take point.toNat ++ '.' :: digits.toList.drop point.toNat := by
  simp only [positional, String.length_toList]
  split
  · simp [toList_zeros]
  · split
    · simp [toList_zeros]
    · simp

theorem toList_scientific (digits : String) (exponent : Int) (mark : String) (width : Nat) :
    (scientific digits exponent mark width).toList =
      digits.toList.take 1 ++
        ((if digits.toList.drop 1 = [] then [] else '.' :: digits.toList.drop 1) ++
          (mark.toList ++ (if exponent < 0 then '-' else '+') ::
            (List.replicate (width - (Nat.toDigits 10 exponent.natAbs).length) '0' ++
              Nat.toDigits 10 exponent.natAbs))) := by
  rw [← toList_toString]
  simp only [scientific, String.length_toList]
  generalize toString exponent.natAbs = magnitude
  generalize digits.toList.drop 1 = rest
  cases rest <;> by_cases hsign : exponent < 0 <;> simp [hsign, toList_zeros]

/-- The text of a decimal is its numeral. -/
theorem toList_text (d : Decimal) : (Value.floatLayout.text d).toList = d.numeral.chars := by
  have htext : Value.floatLayout.text d =
      if -3 ≤ d.point ∧ d.point ≤ 16 then positional (toString d.digits) d.point true
      else scientific (toString d.digits) (d.point - 1) "e" 2 := rfl
  by_cases hplain : -3 ≤ d.point ∧ d.point ≤ 16
  · rw [htext, if_pos hplain, toList_positional, toList_toString]
    simp only [Decimal.numeral, if_pos hplain]
    split
    · simp [Numeral.chars, Numeral.fractionChars, Numeral.powerChars]
    · split
      · simp [Numeral.chars, Numeral.fractionChars, Numeral.powerChars]
      · next h =>
          have hne : (Nat.toDigits 10 d.digits).drop d.point.toNat ≠ [] := by
            rw [ne_eq, List.drop_eq_nil_iff]
            omega
          simp [Numeral.chars, Numeral.fractionChars, Numeral.powerChars, -List.drop_eq_nil_iff,
            hne]
  · rw [htext, if_neg hplain, toList_scientific, toList_toString]
    by_cases hsign : d.point - 1 < 0 <;>
      simp [Decimal.numeral, hplain, Numeral.chars, Numeral.fractionChars, Numeral.powerChars,
        hsign]

namespace Numeral

theorem isDigits_toDigits (n : Nat) : IsDigits (Nat.toDigits 10 n) := fun _ hc =>
  Nat.isDigit_of_mem_toDigits (by decide) (by decide) hc

theorem isDigits_zeros (n : Nat) : IsDigits (List.replicate n '0') := fun c hc => by
  rw [List.eq_of_mem_replicate hc]
  decide

theorem IsDigits.append {cs ds : List Char} (h : IsDigits cs) (h' : IsDigits ds) :
    IsDigits (cs ++ ds) := List.forall_mem_append.2 ⟨h, h'⟩

end Numeral

open Numeral in
theorem isFormed_numeral (d : Decimal) : d.numeral.IsFormed := by
  have hdigits := isDigits_toDigits d.digits
  have hne : Nat.toDigits 10 d.digits ≠ [] := Nat.toDigits_ne_nil
  have hzero : IsDigits ['0'] := isDigits_zeros 1
  simp only [Decimal.numeral]
  split
  · split
    · exact ⟨by simp, hzero, (isDigits_zeros _).append hdigits, by simp⟩
    · split
      · exact ⟨by simp [hne], hdigits.append (isDigits_zeros _), hzero, by simp⟩
      · refine ⟨?_, fun c hc => hdigits c (List.mem_of_mem_take hc),
          fun c hc => hdigits c (List.mem_of_mem_drop hc), by simp⟩
        rw [ne_eq, List.take_eq_nil_iff, not_or]
        exact ⟨by omega, hne⟩
  · refine ⟨?_, fun c hc => hdigits c (List.mem_of_mem_take hc),
      fun c hc => hdigits c (List.mem_of_mem_drop hc), fun p hp => ?_⟩
    · rw [ne_eq, List.take_eq_nil_iff, not_or]
      exact ⟨by decide, hne⟩
    · cases hp
      refine ⟨?_, (isDigits_zeros _).append (isDigits_toDigits _)⟩
      simp [Nat.toDigits_ne_nil]

/-- The numeral has a mark that integers do not have. -/
theorem marked_numeral (d : Decimal) : d.numeral.fraction ≠ [] ∨ d.numeral.power ≠ none := by
  have hne : Nat.toDigits 10 d.digits ≠ [] := Nat.toDigits_ne_nil
  simp only [Decimal.numeral]
  split
  · split
    · exact .inl (by simp [hne])
    · split
      · exact .inl (by simp)
      · refine .inl ?_
        rw [ne_eq, List.drop_eq_nil_iff]
        omega
  · exact .inr (by simp)

theorem digitsFrom_append (start : Nat) (cs ds : List Char) :
    digitsFrom start (cs ++ ds) = digitsFrom (digitsFrom start cs) ds := List.foldl_append

theorem digitsFrom_zeros (start n : Nat) :
    digitsFrom start (List.replicate n '0') = start * 10 ^ n := by
  induction n generalizing start with
  | zero => simp [digitsFrom]
  | succ n ih =>
      have hstep : digitsFrom start (List.replicate (n + 1) '0') =
          digitsFrom (10 * start) (List.replicate n '0') := rfl
      rw [hstep, ih, Nat.pow_succ]
      ring

theorem digitsFrom_toDigits (n : Nat) : digitsFrom 0 (Nat.toDigits 10 n) = n :=
  Nat.ofDigitChars_ten_toDigits

/-- The numeral writes the number, with zeros added where these stand before the point. -/
theorem decimal_numeral (d : Decimal) : d.numeral.decimal = d ∨
    ∃ k : Nat, d.exponent = k ∧ d.numeral.decimal = ⟨d.digits * 10 ^ (k + 1), -1⟩ := by
  have hpoint : d.point = (Nat.toDigits 10 d.digits).length + d.exponent := rfl
  have hleast : 1 ≤ (Nat.toDigits 10 d.digits).length :=
    List.length_pos_of_ne_nil Nat.toDigits_ne_nil
  have hsame {n : Nat} {exponent : Int} (hn : n = d.digits) (he : exponent = d.exponent) :
      (⟨n, exponent⟩ : Decimal) = d := by rw [hn, he]
  have hzeros (n : Nat) (cs : List Char) :
      digitsFrom 0 (List.replicate n '0' ++ cs) = digitsFrom 0 cs := by
    rw [digitsFrom_append, digitsFrom_zeros, Nat.zero_mul]
  simp only [Decimal.numeral]
  split
  · split
    · refine .inl (hsame ?_ ?_)
      · have hzero := hzeros 1 (List.replicate (-d.point).toNat '0' ++ Nat.toDigits 10 d.digits)
        exact hzero.trans ((hzeros _ _).trans (digitsFrom_toDigits _))
      · simp only [Numeral.exponent, List.length_append, List.length_replicate]
        omega
    · split
      · refine .inr ⟨(d.point - (Nat.toDigits 10 d.digits).length).toNat, by omega, ?_⟩
        generalize (d.point - (Nat.toDigits 10 d.digits).length).toNat = k
        have hone := digitsFrom_zeros (d.digits * 10 ^ k) 1
        rw [Nat.mul_assoc, ← Nat.pow_add] at hone
        simp only [Numeral.decimal, Numeral.exponent, digitsFrom_append, digitsFrom_toDigits,
          digitsFrom_zeros]
        rw [← hone]
        rfl
      · refine .inl (hsame ?_ ?_)
        · simp only [List.take_append_drop, digitsFrom_toDigits]
        · simp only [Numeral.exponent, List.length_drop]
          omega
  · refine .inl (hsame ?_ ?_)
    · simp only [List.take_append_drop, digitsFrom_toDigits]
    · simp only [Numeral.exponent, List.length_drop, hzeros, digitsFrom_toDigits,
        decide_eq_true_eq]
      split <;> omega

/-! ### Doubles -/

theorem Numeral.IsFormed.endsVisibly {n : Numeral} (h : n.IsFormed) : EndsVisibly n.chars := by
  obtain ⟨before, digits, hchars, hne, hdigits⟩ : ∃ before digits,
      n.chars = before ++ digits ∧ digits ≠ [] ∧ IsDigits digits := by
    obtain ⟨whole, fraction, _ | ⟨negative, digits⟩⟩ := n
    · by_cases hfraction : fraction = []
      · exact ⟨[], whole, by simp [chars, fractionChars, powerChars, hfraction], h.nonempty,
          h.whole⟩
      · exact ⟨whole ++ ['.'], fraction, by simp [chars, fractionChars, powerChars, hfraction],
          hfraction, h.fraction⟩
    · obtain ⟨hne, hdigits⟩ := h.power _ rfl
      exact ⟨whole ++ (fractionChars ⟨whole, fraction, some (negative, digits)⟩ ++
        ['e', if negative then '-' else '+']), digits, by simp [chars, powerChars], hne, hdigits⟩
  rw [hchars]
  exact (endsVisibly_of_digits hne hdigits).append before

/-- The text of a decimal is the numeral of a double that the decimal is read as. -/
theorem isNumeral_text {d : Decimal} {x : Float} (finite : x.isFinite = true)
    (hread : ofDecimal false d.numeral.decimal.digits d.numeral.decimal.exponent = x) :
    IsNumeral (Value.floatLayout.text d) (.float x finite) := by
  have hchars := toList_text d
  have hformed := isFormed_numeral d
  have htext : String.ofList d.numeral.chars = Value.floatLayout.text d := by
    rw [← hchars, String.ofList_toList]
  refine ⟨?_, ?_, ?_, fun text => ?_⟩
  · rw [hchars, ← htext]
    exact hformed.scans
  · obtain ⟨c, cs, hcs⟩ := List.exists_cons_of_ne_nil hformed.nonempty
    refine ⟨c, cs ++ (d.numeral.fractionChars ++ d.numeral.powerChars), ?_, ?_⟩
    · rw [hchars, Numeral.chars, hcs, List.cons_append]
    · exact hformed.whole c (by simp [hcs])
  · rw [hchars]
    exact hformed.endsVisibly
  · rw [Phrase.numeral, hchars, hformed.readNat? (marked_numeral d), hformed.readUnsigned?, hread]
    simp [Phrase.floatLiteral, finite]

/-- The shortest decimal of a double is read as the double. -/
theorem ofDecimal_shortest {m e : Nat} (h : IsParts m e) :
    ofDecimal false (shortest m e).numeral.decimal.digits
      (shortest m e).numeral.decimal.exponent = ofParts false m e := by
  obtain ⟨hrounds, hleast⟩ := h.roundsTo_shortest
  generalize shortest m e = d at hrounds hleast
  rcases decimal_numeral d with hsame | ⟨k, hk, hdecimal⟩
  · rw [hsame]
    exact hrounds.ofDecimal h hleast false
  · rw [hdecimal]
    refine RoundsTo.ofDecimal ?_ h (show -1000 ≤ (-1 : Int) by decide) false
    have hvalue : ((d.digits * 10 ^ (k + 1) : Nat) : ℚ) * 10 ^ (-1 : Int) = d.value := by
      rw [Decimal.value, hk, zpow_natCast, zpow_neg_one]
      push_cast
      field_simp
      ring
    rwa [hvalue]

/-- The digits of a double do not depend on its sign, and those of a magnitude are read as it. -/
theorem exists_shortest {magnitude : Nat} (h : magnitude < magnitudes) : ∃ m e,
    (∀ negative, Parts.of (ofMagnitude negative magnitude) = .finite negative m e) ∧
      ofDecimal false (shortest m e).numeral.decimal.digits
        (shortest m e).numeral.decimal.exponent = ofMagnitude false magnitude := by
  by_cases hzero : magnitude = 0
  · subst hzero
    refine ⟨0, 0, fun negative => ?_, ?_⟩
    · rw [Parts.of_ofMagnitude h]
      rfl
    · decide +kernel
  · obtain ⟨m, e, hparts, hof⟩ := exists_parts h hzero
    exact ⟨m, e, fun negative => (hof negative).2,
      (ofDecimal_shortest hparts).trans (hof false).1.symm⟩

/-- The text of a double tells it. -/
theorem Tells.float (x : Float) (finite : x.isFinite = true) :
    Tells Operand (Value.floatText x).toList (.literal (.float x finite)) := by
  obtain ⟨negative, magnitude, hlt, rfl⟩ := exists_ofMagnitude finite
  obtain ⟨m, e, hparts, hread⟩ := exists_shortest hlt
  have hnumeral := isNumeral_text (isFinite_ofMagnitude hlt) hread
  rw [Value.floatText, Layout.ofFloat, hparts negative]
  cases negative with
  | false => simpa using Tells.numeral hnumeral
  | true =>
      simp only [if_pos, String.toList_append]
      refine Tells.minus hnumeral fun text => ?_
      rw [Phrase.negative, neg_ofMagnitude hlt, Phrase.floatLiteral, dif_pos finite]
      rfl

end Tabula
