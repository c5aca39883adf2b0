import Tabula.Provider

/-!
Histories of a provider. Calls are made one after the other, each on what those before it have left,
whether they succeeded or not.
-/

namespace Tabula

/-- A call that changes or reads a provider. -/
inductive ProviderCall
  | register (name : String) (source : Source) (temporary : Bool)
  | unregister (name : String)
  | read (ref : TableRef)

/-- What a call returns. -/
inductive ProviderAnswer
  | declared (ref : TableRef)
  | removed
  | table (t : Table)

namespace Provider

/-- How a call ends, and what it leaves. -/
def perform (p : Provider) : ProviderCall → Result ProviderAnswer × Provider
  | .register name source temporary =>
      let (r, p) := p.register name source temporary
      (r.map .declared, p)
  | .unregister name =>
      match p.unregister name with
      | .ok p => (.ok .removed, p)
      | .error e => (.error e, p)
  | .read ref => ((p.read ref).map .table, p)

/-- The outcomes of all calls. -/
def answers (p : Provider) : List ProviderCall → List (Result ProviderAnswer)
  | [] => []
  | c :: cs => (p.perform c).1 :: (p.perform c).2.answers cs

/-- What all calls leave. -/
def after (p : Provider) (calls : List ProviderCall) : Provider :=
  calls.foldl (fun p c => (p.perform c).2) p

/-- The calls that succeed where they are made. -/
def succeeding (p : Provider) : List ProviderCall → List ProviderCall
  | [] => []
  | c :: cs =>
      let rest := (p.perform c).2.succeeding cs
      if (p.perform c).1.isOk then c :: rest else rest

end Provider

end Tabula
