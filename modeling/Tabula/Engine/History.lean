import Tabula.Engine

/-!
Histories of an engine. Calls are made one after the other, each whatever came of those before it,
and what is observed of them adds up.
-/

namespace Tabula

/-- A call of an engine, with what it meets outside: `read` gives the tables of a provider or a
database, and `send` what a database answers to a statement. -/
inductive EngineCall
  | compile (p : Plan)
  | interpret (p : Plan) (source : Source)
  | run (p : Plan) (read : TableRef → Result Table)
  | executeRemote (p : Plan) (send : String → Result (List Row))

/-- What a call returns. -/
inductive EngineAnswer
  | statement (text : String)
  | table (t : Table)
  | rows (rows : List Row)

namespace Engine

def perform (e : Engine) : EngineCall → Observed EngineAnswer
  | .compile p => .statement <$> e.compile p
  | .interpret p source => .table <$> e.interpret p source
  | .run p read => .table <$> e.runFrom p read
  | .executeRemote p send => .rows <$> e.executeRemote p send

/-- The outcomes of all calls. -/
def performAll (e : Engine) : List EngineCall → StateM Observations (List (Result EngineAnswer))
  | [] => return []
  | c :: cs => do
      let outcome ← (e.perform c).run
      return outcome :: (← e.performAll cs)

/-- How a call ends where nothing was observed before it. -/
def outcome (e : Engine) (c : EngineCall) : Result EngineAnswer :=
  ((e.perform c).run.run (.start none)).1

/-- What has been observed after all calls. -/
def after (e : Engine) (calls : List EngineCall) (o : Observations) : Observations :=
  ((e.performAll calls).run o).2

end Engine

end Tabula
