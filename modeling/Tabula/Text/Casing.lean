import Tabula.Text.CaseTable

/-!
Lower and upper case of whole texts. A letter is mapped by the case table; a capital sigma becomes
the final form after a cased letter that no cased letter follows, marks between them passed over.
-/

namespace Tabula.Text

def CaseRun.covers (r : CaseRun) (code : Nat) : Bool :=
  r.first ≤ code && code ≤ r.last && (code - r.first) % r.step == 0

/-- The image of one letter: its grown form, else its run, else itself. -/
def mapCase (runs : List CaseRun) (grown : List (Nat × List Nat)) (c : Char) : List Char :=
  match grown.lookup c.toNat with
  | some codes => codes.map Char.ofNat
  | none =>
      match runs.find? (·.covers c.toNat) with
      | some r => [Char.ofNat (c.toNat + r.shift).toNat]
      | none => [c]

/-- Whether the nearest character that is not passed over is a cased letter. -/
def meetsCased (cs : List Char) : Bool :=
  match cs.dropWhile (covered passedOverRanges) with
  | [] => false
  | c :: _ => covered casedRanges c

/-- Lower case of a text, `before` being what stands to the left, nearest first. -/
def lowerFrom : List Char → List Char → List Char
  | _, [] => []
  | before, c :: rest =>
      let image :=
        if c = 'Σ' then (if meetsCased before && !meetsCased rest then ['ς'] else ['σ'])
        else mapCase lowerRuns lowerGrown c
      image ++ lowerFrom (c :: before) rest

def lower (s : String) : String := String.ofList (lowerFrom [] s.toList)

def upper (s : String) : String :=
  String.ofList (s.toList.flatMap (mapCase upperRuns upperGrown))

end Tabula.Text
