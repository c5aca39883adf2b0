/-!
Things under names, in an order. A name that is written twice keeps its first place and its last
thing.
-/

namespace Tabula.Entries

variable {α : Type}

/-- Replaces what stands under a name or adds it at the end. -/
def set (name : String) (a : α) : List (String × α) → List (String × α)
  | [] => [(name, a)]
  | (n, b) :: rest => if n = name then (n, a) :: rest else (n, b) :: set name a rest

/-- Entries, and in their place or after them those that win over them. -/
def update (entries winning : List (String × α)) : List (String × α) :=
  winning.foldl (fun es e => set e.1 e.2 es) entries

def ofList (entries : List (String × α)) : List (String × α) := update [] entries

theorem lookup_set_self (name : String) (a : α) (entries : List (String × α)) :
    (set name a entries).lookup name = some a := by
  induction entries with
  | nil => simp [set]
  | cons e rest ih =>
    obtain ⟨n, b⟩ := e
    by_cases h : n = name
    · simp [set, h]
    · have h' : (name == n) = false := by simpa using fun e => h e.symm
      simp [set, h, List.lookup_cons, h', ih]

theorem lookup_set_of_ne {name other : String} (a : α) (entries : List (String × α))
    (h : other ≠ name) : (set name a entries).lookup other = entries.lookup other := by
  induction entries with
  | nil => simp [set, h]
  | cons e rest ih =>
    obtain ⟨n, b⟩ := e
    by_cases hn : n = name
    · have h' : (other == name) = false := by simpa using h
      simp [set, hn, List.lookup_cons, h']
    · by_cases ho : other = n <;> simp [set, hn, List.lookup_cons, ho, ih]

theorem map_fst_set (name : String) (a : α) (entries : List (String × α)) :
    (set name a entries).map Prod.fst =
      if name ∈ entries.map Prod.fst then entries.map Prod.fst
      else entries.map Prod.fst ++ [name] := by
  induction entries with
  | nil => simp [set]
  | cons e rest ih =>
    by_cases h : e.1 = name
    · simp [set, h]
    · have h' : ¬name = e.1 := fun e => h e.symm
      by_cases hr : name ∈ rest.map Prod.fst <;> simp_all [set]

end Tabula.Entries
