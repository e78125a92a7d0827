/-
**The consensus gateway** (`vertex/consensus-gateway.ts`).

Suggestions are local until a batch commits them.  A batch is sorted, and then appends its
suggestions one by one, waiting for each append before it reads the tail for the next.

Main definitions:

* `Vertex.VertexSuggestion`, `Vertex.suggestPhaseTransition` and the other suggestions;
* `Vertex.suggestionKey`, `Vertex.sortSuggestions` — the order of a batch;
* `Vertex.Batch`, `Vertex.commitVertexBatch`, `Vertex.Batch.takeTurn` — a batch under way.

Main results:

* `Vertex.toPhase_mem_of_suggestPhaseTransition` — a suggestion is made only for a phase that may
  follow the phase it was made from.
-/
import Endendend.Vertex.Replay

set_option relaxedAutoImplicit false
set_option autoImplicit false

namespace Vertex

open Js

/-! ### Suggestions -/

/-- A suggestion for the Vertex plane. -/
structure VertexSuggestion where
  missionId : Str
  actorId : Str
  eventType : MissionLedgerEventType
  payload : OrderedMap Str Json
  timestamp : Decimal

/-- The event a suggestion becomes. -/
def VertexSuggestion.toCore (s : VertexSuggestion) : EventCore where
  missionId := s.missionId
  actorId := s.actorId
  eventType := s.eventType
  plane := .vertex
  payload := s.payload
  timestamp := s.timestamp

/-- A phase transition, if the target phase may follow; `extraPayload` overrides the payload. -/
def suggestPhaseTransition (missionId actorId : Str) (fromPhase toPhase : MissionPhase)
    (nowMs : Decimal) (extraPayload : OrderedMap Str Json) : Except Str VertexSuggestion :=
  let allowed := validVertexNextPhases fromPhase
  if toPhase ∉ allowed then
    .error ("invalid_transition:" ++ fromPhase.text ++ "->" ++ toPhase.text)
  else
    .ok
      { missionId
        actorId
        eventType := .phaseTransition
        payload := (OrderedMap.ofList
          [(lit "fromPhase", Json.str fromPhase.text), (lit "toPhase", .str toPhase.text)]).assign
            extraPayload.entries
        timestamp := nowMs }

def suggestTargetDiscovery (missionId actorId targetId : Str) (nowMs : Decimal)
    (notes : Option Str) : VertexSuggestion where
  missionId := missionId
  actorId := actorId
  eventType := .targetDiscovered
  payload := .ofList [("targetId", .str targetId), ("notes", .str (notes.getD ""))]
  timestamp := nowMs

def suggestTaskAssignment (missionId actorId taskId nodeId taskType : Str) (nowMs : Decimal) :
    VertexSuggestion where
  missionId := missionId
  actorId := actorId
  eventType := .taskAssigned
  payload := .ofList
    [("taskId", .str taskId), ("nodeId", .str nodeId), ("taskType", .str taskType)]
  timestamp := nowMs

def suggestRecoveryCheckpoint (missionId actorId label : Str) (nowMs : Decimal)
    (extra : OrderedMap Str Json) : VertexSuggestion where
  missionId := missionId
  actorId := actorId
  eventType := .recoveryCheckpoint
  payload := (OrderedMap.ofList [(lit "label", Json.str label)]).assign extra.entries
  timestamp := nowMs

/-! ### The order of a batch -/

mutual

/-- The part of a value that `JSON.stringify` prints when it is given a list of keys: at every
depth the listed keys, in the order of the list. -/
def allowList (keys : List Str) : Json → Json
  | .arr xs => .arr (allowItems keys xs)
  | .obj fs =>
    let kept := allowFields keys fs
    .obj (keys.filterMap fun k => (kept.lookup k).map fun v => (k, v))
  | .null => .null
  | .bool b => .bool b
  | .num x => .num x
  | .str s => .str s

def allowItems (keys : List Str) : List Json → List Json
  | [] => []
  | x :: xs => allowList keys x :: allowItems keys xs

def allowFields (keys : List Str) : List (Str × Json) → List (Str × Json)
  | [] => []
  | (k, v) :: fs => (k, allowList keys v) :: allowFields keys fs

end

/-- `JSON.stringify(p, Object.keys(p).sort())`. -/
def stableOrderPayload (p : OrderedMap Str Json) : Str :=
  (allowList (p.keys.insertionSort (· ≤ ·)) (.obj p.entries)).stringify

/-- The separator of the sort key. -/
def nul : CodeUnit := codeUnit 0

/-- The key a batch is sorted by. -/
def suggestionKey (s : VertexSuggestion) : Str :=
  s.timestamp.toStr ++ nul :: (s.actorId ++ nul :: (s.eventType.text ++ nul ::
    stableOrderPayload s.payload))

/-- Deterministic Vertex ordering; suggestions with one key stay in the order they came. -/
def sortSuggestions (suggestions : List VertexSuggestion) : List VertexSuggestion :=
  suggestions.insertionSort fun a b => suggestionKey a ≤ suggestionKey b

/-! ### A batch under way -/

/-- A call of `commitVertexBatch`: the append it waits for and the suggestions after it. -/
structure Batch where
  pending : Option AppendMissionEventInput
  rest : List VertexSuggestion

/-- A batch that waits for nothing reads the tail and issues its next append. -/
def Batch.takeTurn (ledger : MissionLedger) (b : Batch) : Batch :=
  match b.pending, b.rest with
  | none, s :: rest => ⟨some (beginAppend ledger s.toCore), rest⟩
  | _, _ => b

/-- The call: the suggestions are sorted and the first append is issued. -/
def commitVertexBatch (ledger : MissionLedger) (suggestions : List VertexSuggestion) : Batch :=
  Batch.takeTurn ledger ⟨none, sortSuggestions suggestions⟩

/-! ### What a suggestion proposes -/

/-- **A suggestion is made only for a phase that may follow**, and unless its extra payload says
otherwise this is the phase it proposes. -/
theorem toPhase_mem_of_suggestPhaseTransition {missionId actorId : Str}
    {fromPhase toPhase : MissionPhase} {nowMs : Decimal} {extra : OrderedMap Str Json}
    {s : VertexSuggestion}
    (h : suggestPhaseTransition missionId actorId fromPhase toPhase nowMs extra = .ok s) :
    toPhase ∈ validVertexNextPhases fromPhase ∧
      (extra.get? "toPhase" = none → proposedPhase s.toCore = some toPhase) := by
  unfold suggestPhaseTransition at h
  by_cases hmem : toPhase ∈ validVertexNextPhases fromPhase
  · rw [if_neg (not_not.2 hmem)] at h
    refine ⟨hmem, fun hextra => ?_⟩
    obtain rfl := Except.ok.inj h
    have hget : OrderedMap.getList (lit "toPhase") extra.entries = none := hextra
    have hbase : (OrderedMap.ofList [(lit "fromPhase", Json.str fromPhase.text),
        (lit "toPhase", .str toPhase.text)]).get? (lit "toPhase") = some (.str toPhase.text) := rfl
    show asPhase _ = _
    rw [VertexSuggestion.toCore, OrderedMap.get?_assign _ _ extra.nodup, hget, Option.none_or,
      hbase]
    exact MissionPhase.ofText_text toPhase
  · rw [if_pos hmem] at h
    exact absurd h (by simp)

end Vertex
