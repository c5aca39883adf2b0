import Mathlib.Algebra.Ring.Nat
import Tabula.Proofs.Text.Delimited

/-!
Quoted texts. A quote inside is escaped, an escape says by its letter how it goes on, and the digits
of a code point are as many as the letter asks for: so a quoted text shows where it ends, whatever
characters it holds and whatever follows it.
-/

namespace Tabula

open Text

/-! ### Code points -/

theorem digitChar_injective {m n : Nat} (hm : m < 16) (hn : n < 16)
    (h : m.digitChar = n.digitChar) : m = n := by
  have hall : ∀ m < 16, ∀ n < 16, m.digitChar = n.digitChar → m = n := by decide
  exact hall m hm n hn h

/-- A filled numeral ends with the last digit of its number. -/
theorem hexDigits_succ (width n : Nat) :
    hexDigits (width + 2) n = hexDigits (width + 1) (n / 16) ++ [(n % 16).digitChar] := by
  rcases Nat.lt_or_ge n 16 with hn | hn
  · have hzero : n / 16 = 0 := Nat.div_eq_of_lt hn
    have hone : List.replicate (width + 1) '0' = List.replicate width '0' ++ ['0'] :=
      List.replicate_succ'
    simp [hexDigits, hzero, Nat.mod_eq_of_lt hn, Nat.toDigits_of_lt_base hn, hone]
  · simp [hexDigits, Nat.toDigits_of_base_le (by decide : 1 < 16) hn]

theorem hexDigits_one {n : Nat} (hn : n < 16) : hexDigits 1 n = [n.digitChar] := by
  simp [hexDigits, Nat.toDigits_of_lt_base hn]

theorem length_hexDigits {width n : Nat} (hn : n < 16 ^ (width + 1)) :
    (hexDigits (width + 1) n).length = width + 1 := by
  have hlength := (Nat.length_toDigits_le_iff (by decide) (Nat.succ_pos width)).2 hn
  rw [hexDigits, List.length_append, List.length_replicate, Nat.sub_add_cancel hlength]

theorem hexDigits_injective {width m n : Nat} (hm : m < 16 ^ (width + 1))
    (hn : n < 16 ^ (width + 1)) (h : hexDigits (width + 1) m = hexDigits (width + 1) n) :
    m = n := by
  induction width generalizing m n with
  | zero =>
      rw [hexDigits_one hm, hexDigits_one hn, List.singleton_inj] at h
      exact digitChar_injective hm hn h
  | succ width ih =>
      rw [hexDigits_succ, hexDigits_succ] at h
      obtain ⟨hfirst, hlast⟩ := List.append_inj' h rfl
      rw [Nat.pow_succ, Nat.mul_comm] at hm hn
      have hdiv := ih (Nat.div_lt_of_lt_mul hm) (Nat.div_lt_of_lt_mul hn) hfirst
      have hmod := digitChar_injective (Nat.mod_lt m (by decide)) (Nat.mod_lt n (by decide))
        (List.singleton_inj.1 hlast)
      rw [← Nat.div_add_mod m 16, ← Nat.div_add_mod n 16, hdiv, hmod]

theorem hexDigits_append_inj {width m n : Nat} (hm : m < 16 ^ (width + 1))
    (hn : n < 16 ^ (width + 1)) {r s : List Char}
    (h : hexDigits (width + 1) m ++ r = hexDigits (width + 1) n ++ s) : m = n ∧ r = s := by
  obtain ⟨hsame, hrest⟩ :=
    List.append_inj h ((length_hexDigits hm).trans (length_hexDigits hn).symm)
  exact ⟨hexDigits_injective hm hn hsame, hrest⟩

theorem toNat_lt (c : Char) : c.toNat < 0x110000 := by
  have hvalid := c.valid
  simp only [UInt32.isValidChar, Nat.isValidChar] at hvalid
  have hnat : c.toNat = c.val.toNat := rfl
  omega

/-! ### Characters -/

/-- What follows the backslash where a character is escaped: a letter, and digits if the letter asks
for them. -/
inductive Escape (q c : Char) : Char → List Char → Prop
  | itself (h : c = q ∨ c = '\\') : Escape q c c []
  | control {letter : Char} (h : (letter, c) ∈ [('n', '\n'), ('r', '\r'), ('t', '\t')]) :
      Escape q c letter []
  | code {letter : Char} {width : Nat} (h : (letter, width) ∈ [('x', 1), ('u', 3), ('U', 7)])
      (hlt : c.toNat < 16 ^ (width + 1)) : Escape q c letter (hexDigits (width + 1) c.toNat)

/-- A character is written as it is, or by its escape. -/
theorem quotedChar_cases (q c : Char) : (c ≠ q ∧ c ≠ '\\' ∧ quotedChar q c = [c]) ∨
    ∃ letter digits, Escape q c letter digits ∧ quotedChar q c = '\\' :: letter :: digits := by
  have hlt := toNat_lt c
  unfold quotedChar
  split
  · exact .inr ⟨c, [], .itself ‹_›, rfl⟩
  · rename_i hself
    rw [not_or] at hself
    split
    · exact .inr ⟨'n', [], .control (by simp [*]), rfl⟩
    · split
      · exact .inr ⟨'r', [], .control (by simp [*]), rfl⟩
      · split
        · exact .inr ⟨'t', [], .control (by simp [*]), rfl⟩
        · split
          · unfold escapeCode
            split
            · exact .inr ⟨_, _, .code (by simp) ‹_›, rfl⟩
            · split
              · exact .inr ⟨_, _, .code (by simp) ‹_›, rfl⟩
              · exact .inr ⟨_, _, .code (by simp) (by omega), rfl⟩
          · exact .inl ⟨hself.1, hself.2, rfl⟩

section Quotes

variable {q c d : Char} {r s : List Char}

/-- The letter says how the escape goes on and what it stands for. -/
theorem Escape.append_inj (hq : q = '\'' ∨ q = '"') {letter : Char} {cs ds : List Char}
    (hc : Escape q c letter cs) (hd : Escape q d letter ds) (h : cs ++ r = ds ++ s) :
    c = d ∧ r = s := by
  have hitself {l : Char} {α : Type} {x : α} {table : List (Char × α)} (hl : l = q ∨ l = '\\')
      (hmem : (l, x) ∈ table) (hoff : ∀ e ∈ table, e.1 ∉ ['\'', '"', '\\']) : False := by
    refine hoff _ hmem ?_
    rcases hq with rfl | rfl <;> rcases hl with rfl | rfl <;> simp
  have hapart {l : Char} {x : Char} {n : Nat}
      (hx : (l, x) ∈ [('n', '\n'), ('r', '\r'), ('t', '\t')])
      (hn : (l, n) ∈ [('x', 1), ('u', 3), ('U', 7)]) : False := by
    simp only [List.mem_cons, Prod.mk.injEq, List.not_mem_nil, or_false] at hx hn
    rcases hx with ⟨rfl, -⟩ | ⟨rfl, -⟩ | ⟨rfl, -⟩ <;> simp at hn
  cases hc with
  | itself hself =>
      cases hd with
      | itself _ => exact ⟨rfl, h⟩
      | control hmem => exact (hitself hself hmem (by decide)).elim
      | code hmem _ => exact (hitself hself hmem (by decide)).elim
  | control hmem =>
      cases hd with
      | itself hself => exact (hitself hself hmem (by decide)).elim
      | control hmem' =>
          refine ⟨?_, h⟩
          simp only [List.mem_cons, Prod.mk.injEq, List.not_mem_nil, or_false] at hmem hmem'
          rcases hmem with ⟨rfl, rfl⟩ | ⟨rfl, rfl⟩ | ⟨rfl, rfl⟩ <;> simp_all
      | code hmem' _ => exact (hapart hmem hmem').elim
  | code hmem hlt =>
      cases hd with
      | itself hself => exact (hitself hself hmem (by decide)).elim
      | control hmem' => exact (hapart hmem' hmem).elim
      | @code _ width' hmem' hlt' =>
          rename_i width
          obtain rfl : width = width' := by
            simp only [List.mem_cons, Prod.mk.injEq, List.not_mem_nil, or_false] at hmem hmem'
            rcases hmem with ⟨rfl, rfl⟩ | ⟨rfl, rfl⟩ | ⟨rfl, rfl⟩ <;> simp_all
          obtain ⟨hcode, hrest⟩ := hexDigits_append_inj hlt hlt' h
          exact ⟨Char.toNat_inj.1 hcode, hrest⟩

theorem quotedChar_append_inj (hq : q = '\'' ∨ q = '"')
    (h : quotedChar q c ++ r = quotedChar q d ++ s) : c = d ∧ r = s := by
  rcases quotedChar_cases q c with ⟨_, hc, hplain⟩ | ⟨l, ds, hescape, heq⟩ <;>
    rcases quotedChar_cases q d with ⟨_, hd, hplain'⟩ | ⟨l', ds', hescape', heq'⟩
  · rw [hplain, hplain'] at h
    exact List.cons.inj h
  · rw [hplain, heq'] at h
    exact absurd (List.cons.inj h).1 hc
  · rw [heq, hplain'] at h
    exact absurd (List.cons.inj h).1.symm hd
  · rw [heq, heq', List.cons_append, List.cons_append, List.cons_append, List.cons_append,
      List.cons.injEq, List.cons.injEq] at h
    obtain ⟨-, rfl, h⟩ := h
    exact hescape.append_inj hq hescape' h

/-- No character inside looks like the quote at the end. -/
theorem quotedChar_ne_quote (hq : q = '\'' ∨ q = '"') : quotedChar q c ++ r ≠ q :: s := by
  intro h
  rcases quotedChar_cases q c with ⟨hc, -, hplain⟩ | ⟨l, ds, -, heq⟩
  · rw [hplain] at h
    exact hc (List.cons.inj h).1
  · rw [heq] at h
    have hfirst := (List.cons.inj h).1
    rcases hq with rfl | rfl <;> simp at hfirst

theorem quotedChars_append_inj (hq : q = '\'' ∨ q = '"') {cs ds : List Char}
    (h : cs.flatMap (quotedChar q) ++ q :: r = ds.flatMap (quotedChar q) ++ q :: s) :
    cs = ds ∧ r = s := by
  induction cs generalizing ds with
  | nil =>
      cases ds with
      | nil => exact ⟨rfl, (List.cons.inj h).2⟩
      | cons d ds =>
          rw [List.flatMap_cons, List.append_assoc] at h
          exact absurd h.symm (quotedChar_ne_quote hq)
  | cons c cs ih =>
      cases ds with
      | nil =>
          rw [List.flatMap_cons, List.append_assoc] at h
          exact absurd h (quotedChar_ne_quote hq)
      | cons d ds =>
          rw [List.flatMap_cons, List.flatMap_cons, List.append_assoc, List.append_assoc] at h
          obtain ⟨rfl, hrest⟩ := quotedChar_append_inj hq h
          obtain ⟨rfl, rfl⟩ := ih hrest
          exact ⟨rfl, rfl⟩

theorem quoteFor_cases (cs : List Char) : quoteFor cs = '\'' ∨ quoteFor cs = '"' := by
  unfold quoteFor
  split
  · exact .inr rfl
  · exact .inl rfl

/-- A quoted text ends at its closing quote, whatever stands inside and whatever follows. -/
theorem tellsApart_quoted (a b : String) :
    TellsApart Anything (fun s => (quoted s).toList) a b := by
  intro r s _ _ h
  simp only [quoted, String.toList_ofList, List.append_assoc, List.cons_append, List.cons.injEq]
    at h
  obtain ⟨hquote, h⟩ := h
  rw [hquote] at h
  obtain ⟨hsame, hrest⟩ := quotedChars_append_inj (quoteFor_cases b.toList) (by simpa using h)
  exact ⟨String.toList_inj.1 hsame, hrest⟩

end Quotes

end Tabula
