/-
**Mission phases** (`shared/mission-phases.ts`, `shared/mission-state.ts`).

Main definitions:

* `Vertex.MissionPhase` — the nine phases of a search-and-rescue mission;
* `Vertex.VertexConnectivityMode` — how well the nodes of a mission are connected;
* `Vertex.validVertexNextPhases` — the phases that may follow a phase when committed through Vertex.

Main results:

* `Vertex.validVertexNextPhases_eq_nil_iff` — exactly the terminal phases have no successor;
* `Vertex.self_notMem_validVertexNextPhases` — no phase is its own successor.
-/
import Endendend.Foundation.Json

set_option relaxedAutoImplicit false
set_option autoImplicit false

namespace Vertex

open Js

/-- The phases of a mission. -/
inductive MissionPhase
  | init
  | discovery
  | search
  | triage
  | rescue
  | extraction
  | return
  | complete
  | aborted
  deriving DecidableEq

/-- The connectivity of a mission. -/
inductive VertexConnectivityMode
  | normal
  | degraded
  | partial_partition
  | blackout
  | recovery
  | resync
  deriving DecidableEq

namespace MissionPhase

/-- The text of a phase. -/
def text : MissionPhase → Str
  | init => "init"
  | discovery => "discovery"
  | search => "search"
  | triage => "triage"
  | rescue => "rescue"
  | extraction => "extraction"
  | «return» => "return"
  | complete => "complete"
  | aborted => "aborted"

end MissionPhase

open MissionPhase

/-- All phases. -/
def missionPhases : List MissionPhase :=
  [init, discovery, search, triage, rescue, extraction, «return», complete, aborted]

/-- The phases in which a mission is over. -/
def terminalPhases : List MissionPhase := [complete, aborted]

/-- The nominal pipeline. -/
def linear : List MissionPhase :=
  [init, discovery, search, triage, rescue, extraction, «return», complete]

/-- Each phase of the pipeline with the one after it. -/
def forward : List (MissionPhase × MissionPhase) := linear.zip linear.tail

/-- The next phase in the nominal pipeline. -/
def nominalNextPhase (p : MissionPhase) : Option MissionPhase := forward.lookup p

/-- The phases that may follow a phase when committed through Vertex; a search may be rolled back
by one step. -/
def validVertexNextPhases (p : MissionPhase) : List MissionPhase :=
  if p ∈ terminalPhases then []
  else
    let next := (nominalNextPhase p).toList
    let rollback := if p = search then [discovery] else []
    next ++ rollback ++ [aborted]

/-- The phase with a text. -/
def MissionPhase.ofText (s : Str) : Option MissionPhase :=
  missionPhases.find? fun p => p.text = s

theorem MissionPhase.ofText_text (p : MissionPhase) : ofText p.text = some p := by
  cases p <;> decide

/-- **Exactly the terminal phases have no successor.** -/
theorem validVertexNextPhases_eq_nil_iff {p : MissionPhase} :
    validVertexNextPhases p = [] ↔ p ∈ terminalPhases := by
  cases p <;> decide

/-- No phase is its own successor. -/
theorem self_notMem_validVertexNextPhases (p : MissionPhase) : p ∉ validVertexNextPhases p := by
  cases p <;> decide

end Vertex
