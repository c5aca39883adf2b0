import Tabula.Text.Casing

/-!
Case below the 128 codes that every script shares: there a letter is mapped by the first run of the
table alone, and the two cases of a letter are those of the language.
-/

namespace Tabula.Text

/-- Whether only such characters stand in a text. -/
def isAscii (s : String) : Bool := s.toList.all (·.toNat < 128)

/-- The other runs of a table and the letters that grow begin later. -/
theorem mapCase_eq_of_lt {run : CaseRun} {runs : List CaseRun} {grown : List (Nat × List Nat)}
    {c : Char} (hruns : ∀ r ∈ runs, 128 ≤ r.first) (hgrown : ∀ p ∈ grown, 128 ≤ p.1)
    (hc : c.toNat < 128) : mapCase (run :: runs) grown c = mapCase [run] [] c := by
  have hlookup : grown.lookup c.toNat = none := by
    rw [List.lookup_eq_none_iff]
    intro p hp
    have := hgrown p hp
    simp only [bne_iff_ne, ne_eq]
    omega
  have hfind : runs.find? (·.covers c.toNat) = none := by
    rw [List.find?_eq_none]
    intro r hr hcovers
    have := hruns r hr
    simp only [CaseRun.covers, Bool.and_eq_true, decide_eq_true_eq] at hcovers
    omega
  simp [mapCase, hlookup, hfind, List.find?_cons]

theorem mapCase_upper {c : Char} (hc : c.toNat < 128) :
    mapCase upperRuns upperGrown c = [c.toUpper] := by
  have htable : ∀ code < 128,
      mapCase [⟨0x61, 0x7A, 1, -32⟩] [] (Char.ofNat code) = [(Char.ofNat code).toUpper] := by
    decide +kernel
  rw [upperRuns, mapCase_eq_of_lt (by decide +kernel) (by decide +kernel) hc]
  exact Char.ofNat_toNat c ▸ htable c.toNat hc

theorem mapCase_lower {c : Char} (hc : c.toNat < 128) :
    mapCase lowerRuns lowerGrown c = [c.toLower] := by
  have htable : ∀ code < 128,
      mapCase [⟨0x41, 0x5A, 1, 32⟩] [] (Char.ofNat code) = [(Char.ofNat code).toLower] := by
    decide +kernel
  rw [lowerRuns, mapCase_eq_of_lt (by decide +kernel) (by decide +kernel) hc]
  exact Char.ofNat_toNat c ▸ htable c.toNat hc

theorem flatMap_mapCase_of_lt {cs : List Char} (h : ∀ c ∈ cs, c.toNat < 128) :
    cs.flatMap (mapCase upperRuns upperGrown) = cs.map Char.toUpper := by
  induction cs with
  | nil => rfl
  | cons c cs ih =>
      rw [List.flatMap_cons, mapCase_upper (h c List.mem_cons_self),
        ih fun d hd => h d (List.mem_cons_of_mem c hd)]
      rfl

theorem upper_of_isAscii {s : String} (h : isAscii s = true) :
    upper s = String.ofList (s.toList.map Char.toUpper) := by
  rw [upper, flatMap_mapCase_of_lt (by simpa [isAscii] using h)]

theorem lowerFrom_of_lt {cs before : List Char} (h : ∀ c ∈ cs, c.toNat < 128) :
    lowerFrom before cs = cs.map Char.toLower := by
  induction cs generalizing before with
  | nil => rfl
  | cons c cs ih =>
      have hc : c.toNat < 128 := h c List.mem_cons_self
      have hsigma : c ≠ 'Σ' := by
        rintro rfl
        exact absurd hc (by decide)
      rw [lowerFrom, if_neg hsigma, mapCase_lower hc,
        ih fun d hd => h d (List.mem_cons_of_mem c hd)]
      rfl

theorem toUpper_lt {c : Char} (hc : c.toNat < 128) : c.toUpper.toNat < 128 := by
  have htable : ∀ code < 128, (Char.ofNat code).toUpper.toNat < 128 := by decide +kernel
  exact Char.ofNat_toNat c ▸ htable c.toNat hc

theorem lower_upper_of_isAscii {s : String} (h : isAscii s = true) :
    lower (upper s) = String.ofList (s.toList.map fun c => c.toUpper.toLower) := by
  have hs : ∀ c ∈ s.toList, c.toNat < 128 := by simpa [isAscii] using h
  have hupper : ∀ c ∈ s.toList.map Char.toUpper, c.toNat < 128 := by
    intro c hc
    obtain ⟨d, hd, rfl⟩ := List.mem_map.1 hc
    exact toUpper_lt (hs d hd)
  rw [upper_of_isAscii h, lower, String.toList_ofList, lowerFrom_of_lt hupper, List.map_map]
  rfl

end Tabula.Text
