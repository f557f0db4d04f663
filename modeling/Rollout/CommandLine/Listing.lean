import Rollout.Run.Orchestration
import Rollout.Table

/-!
# CommandLine/Listing — plans and reports as tables
-/

namespace Rollout.Listing

/-- What was created, in order. -/
def resources (r : Report) : Table where
  header := ["Component", "Address", "Transaction", "Block"]
  rows := r.resources.map fun resource =>
    [resource.name, resource.address.checksummed, resource.transaction.toHex, toString resource.block]

/-- What was assigned, in order. -/
def assignments (r : Report) : Table where
  header := ["Role", "Path", "Target", "Assigned", "Block"]
  rows := r.assignments.map fun a =>
    [a.role.toText, a.path.getD "-", a.target.checksummed, a.assigned.checksummed, toString a.block]

/-- The components of a plan in deployment order. -/
def components (p : Plan) : Table where
  header := ["#", "Component", "Contract", "Arguments", "Libraries"]
  rows := p.components.zipIdx.map fun (c, i) =>
    [toString i, c.name, c.contractName, String.intercalate ", " (c.args.map Argument.describe),
      String.intercalate ", " (c.libraries.map fun l => s!"{l.library} = @{l.component}")]

/-- The wiring steps of a plan. -/
def wiring (p : Plan) : Table where
  header := ["#", "Step"]
  rows := p.wiring.zipIdx.map fun (step, i) => [toString i, step.describe]

/-- A table on lines of its own. -/
def shown (t : Table) : String := t.render ++ "\n"

/-- The tables of a report; that of the assignments only if there are some. -/
def ofReport (r : Report) : String :=
  shown (resources r) ++ if r.assignments.isEmpty then "" else shown (assignments r)

/-- The tables of a plan; that of the wiring only if there is some. -/
def ofPlan (p : Plan) : String :=
  shown (components p) ++ if p.wiring.isEmpty then "" else shown (wiring p)

end Rollout.Listing
