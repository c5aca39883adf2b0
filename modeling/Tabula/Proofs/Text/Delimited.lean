import Mathlib.Data.List.Basic
import Tabula.Text.Quoted

/-!
Texts that show where they end. A text cannot be taken for another one if what follows it never goes
on with it: an item of a list before a comma or a bracket, a quoted text before anything. Texts that
are put together from such parts are the same only if the parts are.
-/

namespace Tabula

section TellsApart

variable {α β : Type}

/-- With something after them that has `K`, the texts of two things are the same only if the things
are, and what follows is. -/
def TellsApart (K : List Char → Prop) (f : α → List Char) (a b : α) : Prop :=
  ∀ r s, K r → K s → f a ++ r = f b ++ s → a = b ∧ r = s

/-- The text begins with one of the characters. -/
def StartsIn (firsts : List Char) (cs : List Char) : Prop := ∃ c ∈ cs.head?, c ∈ firsts

/-- Anything may follow. -/
def Anything (_ : List Char) : Prop := True

@[simp] theorem startsIn_cons {firsts : List Char} {c : Char} {cs : List Char} :
    StartsIn firsts (c :: cs) ↔ c ∈ firsts := by simp [StartsIn]

theorem StartsIn.mono {firsts firsts' cs : List Char} (h : StartsIn firsts cs)
    (hsub : firsts ⊆ firsts') : StartsIn firsts' cs := by
  obtain ⟨c, hc, hmem⟩ := h
  exact ⟨c, hc, hsub hmem⟩

theorem TellsApart.mono {K K' : List Char → Prop} {f : α → List Char} {a b : α}
    (h : TellsApart K f a b) (hK : ∀ cs, K' cs → K cs) : TellsApart K' f a b :=
  fun r s hr hs => h r s (hK r hr) (hK s hs)

theorem TellsApart.refl (K : List Char → Prop) (f : α → List Char) (a : α) : TellsApart K f a a :=
  fun _ _ _ _ h => ⟨rfl, List.append_cancel_left h⟩

/-- A text ends before the first of the characters that it does not hold itself. -/
theorem append_inj_of_startsIn {stops cs ds r s : List Char} (hcs : ∀ c ∈ cs, c ∉ stops)
    (hds : ∀ c ∈ ds, c ∉ stops) (hr : StartsIn stops r) (hs : StartsIn stops s)
    (h : cs ++ r = ds ++ s) : cs = ds ∧ r = s := by
  induction cs generalizing ds with
  | nil =>
      cases ds with
      | nil => exact ⟨rfl, h⟩
      | cons d ds =>
          rw [List.nil_append] at h
          rw [h, List.cons_append, startsIn_cons] at hr
          exact absurd hr (hds d List.mem_cons_self)
  | cons c cs ih =>
      cases ds with
      | nil =>
          rw [List.nil_append] at h
          rw [← h, List.cons_append, startsIn_cons] at hs
          exact absurd hs (hcs c List.mem_cons_self)
      | cons d ds =>
          rw [List.forall_mem_cons] at hcs hds
          rw [List.cons_append, List.cons_append, List.cons.injEq] at h
          obtain ⟨rfl, rfl⟩ := ih hcs.2 hds.2 h.2
          exact ⟨by rw [h.1], rfl⟩

/-- Things with texts of their own, which hold none of the characters that follow. -/
theorem tellsApart_of_free {stops : List Char} {f : α → List Char} {a b : α}
    (ha : ∀ c ∈ f a, c ∉ stops) (hb : ∀ c ∈ f b, c ∉ stops) (hinj : f a = f b → a = b) :
    TellsApart (StartsIn stops) f a b := by
  intro r s hr hs h
  obtain ⟨hsame, hrest⟩ := append_inj_of_startsIn ha hb hr hs h
  exact ⟨hinj hsame, hrest⟩

/-! ### Lists -/

/-- Items each of which follows a mark. -/
def ledBy (mark : Char) (gap : List Char) (f : α → List Char) (items : List α) : List Char :=
  items.flatMap fun a => mark :: (gap ++ f a)

/-- Items with a comma and a space between them. -/
def commas (f : α → List Char) : List α → List Char
  | [] => []
  | a :: items => f a ++ ledBy ',' [' '] f items

theorem forall_mem_zip {R : α → α → Prop} {items others : List α}
    (h : ∀ a ∈ items, ∀ b ∈ others, R a b) : ∀ i ∈ items.zip others, R i.1 i.2 :=
  fun _ hi => h _ (List.of_mem_zip hi).1 _ (List.of_mem_zip hi).2

variable {f : α → List Char} {mark : Char} {gap closers : List Char} {items others : List α}

theorem startsIn_ledBy {r : List Char} (hr : StartsIn closers r) :
    StartsIn (mark :: closers) (ledBy mark gap f items ++ r) := by
  cases items with
  | nil => exact hr.mono (List.subset_cons_self _ _)
  | cons a items => simp [ledBy]

/-- The marks tell how many items there are, if each item is told from the other one at its
place. -/
theorem tellsApart_ledBy (hmark : mark ∉ closers)
    (hitem : ∀ i ∈ items.zip others, TellsApart (StartsIn (mark :: closers)) f i.1 i.2) :
    TellsApart (StartsIn closers) (ledBy mark gap f) items others := by
  intro r s hr hs h
  induction items generalizing others with
  | nil =>
      cases others with
      | nil => exact ⟨rfl, h⟩
      | cons b others =>
          have hstarts : StartsIn closers (ledBy mark gap f (b :: others) ++ s) := h ▸ hr
          exact absurd (startsIn_cons.1 hstarts) hmark
  | cons a items ih =>
      cases others with
      | nil =>
          have hstarts : StartsIn closers (ledBy mark gap f (a :: items) ++ r) := h ▸ hs
          exact absurd (startsIn_cons.1 hstarts) hmark
      | cons b others =>
          have hcons (a : α) (items : List α) (r : List Char) :
              ledBy mark gap f (a :: items) ++ r =
                mark :: (gap ++ (f a ++ (ledBy mark gap f items ++ r))) := by
            simp [ledBy]
          rw [hcons, hcons, List.cons.injEq, List.append_cancel_left_eq] at h
          rw [List.zip_cons_cons, List.forall_mem_cons] at hitem
          have hhead : TellsApart (StartsIn (mark :: closers)) f a b := hitem.1
          obtain ⟨rfl, hrest⟩ := hhead _ _ (startsIn_ledBy hr) (startsIn_ledBy hs) h.2
          obtain ⟨rfl, rfl⟩ := ih hitem.2 hrest
          exact ⟨rfl, rfl⟩

/-- The text begins with some character other than these. -/
def StartsOff (closers : List Char) (cs : List Char) : Prop := ∃ c ∈ cs.head?, c ∉ closers

theorem StartsOff.append {cs : List Char} (h : StartsOff closers cs) (ds : List Char) :
    StartsOff closers (cs ++ ds) := by
  obtain ⟨c, hc, hoff⟩ := h
  exact ⟨c, by rw [List.head?_append, Option.mem_def.1 hc]; rfl, hoff⟩

/-- Lists that have items. -/
theorem tellsApart_commas_cons {a b : α} (hcomma : ',' ∉ closers)
    (hitem : ∀ i ∈ (a :: items).zip (b :: others),
      TellsApart (StartsIn (',' :: closers)) f i.1 i.2) :
    TellsApart (StartsIn closers) (commas f) (a :: items) (b :: others) := by
  intro r s hr hs h
  rw [commas, commas, List.append_assoc, List.append_assoc] at h
  rw [List.zip_cons_cons, List.forall_mem_cons] at hitem
  have hhead : TellsApart (StartsIn (',' :: closers)) f a b := hitem.1
  obtain ⟨rfl, hrest⟩ := hhead _ _ (startsIn_ledBy hr) (startsIn_ledBy hs) h
  obtain ⟨rfl, rfl⟩ := tellsApart_ledBy hcomma hitem.2 r s hr hs hrest
  exact ⟨rfl, rfl⟩

/-- A list whose items do not begin as what follows the list does. -/
theorem tellsApart_commas (hcomma : ',' ∉ closers)
    (hfirst : ∀ a ∈ items ++ others, StartsOff closers (f a))
    (hitem : ∀ i ∈ items.zip others, TellsApart (StartsIn (',' :: closers)) f i.1 i.2) :
    TellsApart (StartsIn closers) (commas f) items others := by
  intro r s hr hs h
  rw [List.forall_mem_append] at hfirst
  have hempty {a : α} {rest r : List Char} (ha : StartsOff closers (f a))
      (hr : StartsIn closers r) : r ≠ f a ++ rest := by
    rintro rfl
    obtain ⟨c, hc, hoff⟩ := ha
    obtain ⟨d, hd, hon⟩ := hr
    rw [List.head?_append, Option.mem_def.1 hc, Option.some_or, Option.mem_def,
      Option.some.injEq] at hd
    exact hoff (hd ▸ hon)
  cases items with
  | nil =>
      cases others with
      | nil => exact ⟨rfl, h⟩
      | cons b others =>
          rw [commas, commas, List.nil_append, List.append_assoc] at h
          exact absurd h (hempty (hfirst.2 b List.mem_cons_self) hr)
  | cons a items =>
      cases others with
      | nil =>
          rw [commas, commas, List.nil_append, List.append_assoc] at h
          exact absurd h.symm (hempty (hfirst.1 a List.mem_cons_self) hs)
      | cons b others => exact tellsApart_commas_cons hcomma hitem r s hr hs h

/-- A list that ends with a closing character. -/
theorem commas_append_inj {closer : Char} {r s : List Char} (hcomma : closer ≠ ',')
    (hfirst : ∀ a ∈ items ++ others, StartsOff [closer] (f a))
    (hitem : ∀ i ∈ items.zip others, TellsApart (StartsIn [',', closer]) f i.1 i.2)
    (h : commas f items ++ closer :: r = commas f others ++ closer :: s) :
    items = others ∧ r = s := by
  have hclosers : ',' ∉ [closer] := by simpa using hcomma.symm
  obtain ⟨hsame, hrest⟩ := tellsApart_commas hclosers hfirst hitem (closer :: r) (closer :: s)
    (by simp) (by simp) h
  exact ⟨hsame, (List.cons.inj hrest).2⟩

theorem commas_map (g : β → α) (items : List β) :
    commas f (items.map g) = commas (fun b => f (g b)) items := by
  cases items <;> simp [commas, ledBy, List.flatMap_map]

/-- Texts with a separator between them are the first, and the others each after the separator. -/
theorem intercalate_cons (sep first : List Char) (rest : List (List Char)) :
    sep.intercalate (first :: rest) = first ++ rest.flatMap fun cs => sep ++ cs := by
  induction rest generalizing first with
  | nil => simp
  | cons cs rest ih => simp [List.intercalate_cons_cons, ih]

theorem toList_intercalate (items : List String) :
    (", ".intercalate items).toList = commas String.toList items := by
  rw [String.toList_intercalate]
  cases items with
  | nil => rfl
  | cons a items =>
      rw [List.map_cons, intercalate_cons]
      simp [commas, ledBy, List.flatMap_map]

end TellsApart

/-! ### Quotes -/

/-- The characters between quotes, every quote among them written twice. -/
def doubled (quote : Char) (cs : List Char) : List Char :=
  cs.flatMap fun c => if c = quote then [quote, quote] else [c]

theorem StartsIn.head?_ne {firsts cs : List Char} {quote : Char} (h : StartsIn firsts cs)
    (hquote : quote ∉ firsts) : cs.head? ≠ some quote := by
  obtain ⟨c, hc, hmem⟩ := h
  rw [Option.mem_def.1 hc]
  rintro ⟨⟩
  exact hquote hmem

/-- The quote at the end is the first one that no other quote follows. -/
theorem doubled_append_inj {quote : Char} {cs ds r s : List Char} (hr : r.head? ≠ some quote)
    (hs : s.head? ≠ some quote)
    (h : doubled quote cs ++ quote :: r = doubled quote ds ++ quote :: s) : cs = ds ∧ r = s := by
  have hcons (c : Char) (cs r : List Char) : doubled quote (c :: cs) ++ quote :: r =
      if c = quote then quote :: quote :: (doubled quote cs ++ quote :: r)
      else c :: (doubled quote cs ++ quote :: r) := by
    by_cases hc : c = quote <;> simp [doubled, hc]
  -- no more quotes begin what follows
  have hend {c : Char} {cs r s : List Char} (hr : r.head? ≠ some quote) :
      quote :: r ≠ doubled quote (c :: cs) ++ quote :: s := by
    rw [hcons]
    split
    · intro h
      rw [(List.cons.inj h).2] at hr
      exact hr rfl
    · rename_i hc
      exact fun h => hc (List.cons.inj h).1.symm
  induction cs generalizing ds with
  | nil =>
      cases ds with
      | nil => exact ⟨rfl, (List.cons.inj h).2⟩
      | cons d ds => exact absurd h (hend hr)
  | cons c cs ih =>
      cases ds with
      | nil => exact absurd h.symm (hend hs)
      | cons d ds =>
          rw [hcons, hcons] at h
          by_cases hc : c = quote <;> by_cases hd : d = quote
          · rw [if_pos hc, if_pos hd, List.cons.injEq, List.cons.injEq] at h
            obtain ⟨rfl, rfl⟩ := ih h.2.2
            exact ⟨by rw [hc, hd], rfl⟩
          · rw [if_pos hc, if_neg hd] at h
            exact absurd (List.cons.inj h).1.symm hd
          · rw [if_neg hc, if_pos hd] at h
            exact absurd (List.cons.inj h).1 hc
          · rw [if_neg hc, if_neg hd] at h
            rw [List.cons.injEq] at h
            obtain ⟨rfl, rfl⟩ := ih h.2
            exact ⟨by rw [h.1], rfl⟩

end Tabula
