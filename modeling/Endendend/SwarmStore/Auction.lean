/-
**Auctions.**

The bids for a task are collected in a register, and the winner is the first bid of the greatest
score in the order of the register.  A snapshot with a newer register replaces the list, with the
bids that only this node has received; and of two bidders with the greatest score the first to
arrive wins, which need not be the same one at another node.

Main definitions:

* `SwarmStore.scoreOf`, `SwarmStore.maybeCommit` — the choice of the winner;
* `SwarmStore.Auction`, `SwarmStore.auctionStep` — two nodes that receive bids and each other's
  snapshots;
* `SwarmStore.receivedBids` — the bids that a node has received in a run;
* `SwarmStore.KeepsBids` — a merge does not replace a list of bids by one that lacks some;
* `SwarmStore.Agreed` — both nodes have all bids, and pick the same winner.

Main results:

* `SwarmStore.scoreOf_congr`, `SwarmStore.bidderOf_congr` — a bid that was sent as JSON has the
  same score and bidder;
* `SwarmStore.maybeCommit_eq` — the winner, when only one bidder has the greatest score;
* `SwarmStore.auction_agrees` — **nodes that have received the same bids agree, if no merge of the
  run loses bids and only one bidder has the greatest score.**
-/
import Endendend.SwarmStore.SwarmStateStore
import Endendend.SwarmStore.MergeSnapshot
import Endendend.SwarmStore.Restart
import Endendend.Foundation.Runs
import Mathlib.Data.List.MinMax
import Mathlib.Logic.Function.Basic

set_option relaxedAutoImplicit false
set_option autoImplicit false

namespace SwarmStore

open Py (Dict)
open Js (Str Json OrderedMap lit)
open Js.Json (sortKeys)
open Runs

/-! ### Scores and winners -/

section Winner

/- `floatText` is `float` on strings, and `text` is `str` on values that are not strings. -/
variable (floatText : Str → Option ℚ) (text : Json → Str)

/-- `float(v)`, which raises on lists, objects and `None`. -/
def floatOf : Json → Option ℚ
  | .num x => some x.val
  | .bool b => some (if b then 1 else 0)
  | .str s => floatText s
  | _ => none

/-- The score of a bid: its own, or else that of the bid that it contains. -/
def scoreOf : Json → Option ℚ
  | .obj fields =>
    match OrderedMap.getList (lit "score") fields with
    | some score => floatOf floatText score
    | none =>
      match OrderedMap.getList (lit "bid") fields with
      | some (.obj bid) =>
        ((OrderedMap.getList (lit "score") bid).map (floatOf floatText)).getD (some 0)
      | _ => some 0
  | _ => none

/-- `str` of a value that may be missing, and is empty then. -/
def nameOf : Option Json → Str
  | none => []
  | some (.str name) => name
  | some v => text v

/-- The bidder that a bid names. -/
def bidderOf : Json → Str
  | .obj fields => nameOf text (OrderedMap.getList (lit "bidder_id") fields)
  | _ => []

/-- A winner that is named. -/
def winnerNamed (name : Str) : Option Str := if name = [] then none else some name

/-- The bidder to whom the task is committed, if there is one; `none` where a score cannot be
read. -/
def maybeCommit (s : SwarmStateStore) (taskId : Str) : Option (Option Str) :=
  let raw := bidsIn (s.registers.get? (bidsKey taskId))
  if raw = [] then some none
  else if raw.all fun bid => (scoreOf floatText bid).isSome then
    some ((raw.argmax fun bid => (scoreOf floatText bid).getD 0).bind fun best =>
      winnerNamed (bidderOf text best))
  else none

variable {floatText text}

/-! ### Bids that were sent as JSON -/

theorem getList_orderedInsert (k : Str) (p : Str × Json) (l : List (Str × Json)) :
    OrderedMap.getList k (l.orderedInsert Js.Json.KeyLe p) = OrderedMap.getList k (p :: l) := by
  induction l with
  | nil => rfl
  | cons q l ih =>
      rw [List.orderedInsert]
      split
      · rfl
      · next hle =>
          -- the field goes behind one with a smaller key, so the two keys are different
          have hne : q.1 ≠ p.1 := fun heq => hle (le_of_eq heq.symm)
          rw [OrderedMap.getList, ih, OrderedMap.getList, OrderedMap.getList, OrderedMap.getList]
          split
          · next hq => rw [if_neg fun hp => hne (hq.trans hp.symm)]
          · rfl

/-- Sorting does not change which field of a key is the first. -/
theorem getList_insertionSort (k : Str) (l : List (Str × Json)) :
    OrderedMap.getList k (l.insertionSort Js.Json.KeyLe) = OrderedMap.getList k l := by
  induction l with
  | nil => rfl
  | cons p l ih =>
      rw [List.insertionSort_cons, getList_orderedInsert, OrderedMap.getList, ih,
        OrderedMap.getList]

/-- The fields of an object with sorted keys. -/
theorem sortKeys_obj (fields : List (Str × Json)) :
    ∃ sorted, sortKeys (.obj fields) = .obj sorted ∧
      ∀ k, OrderedMap.getList k sorted = (OrderedMap.getList k fields).map sortKeys := by
  refine ⟨_, rfl, fun k => ?_⟩
  rw [getList_insertionSort, Js.Json.sortFields_eq_map]
  exact OrderedMap.getList_map (fun _ => sortKeys) k fields

theorem floatOf_sortKeys (v : Json) : floatOf floatText (sortKeys v) = floatOf floatText v := by
  cases v <;> rfl

/-- **Sorting the keys of a bid does not change its score.** -/
theorem scoreOf_sortKeys (v : Json) : scoreOf floatText (sortKeys v) = scoreOf floatText v := by
  cases v with
  | obj fields =>
      obtain ⟨sorted, hsorted, hget⟩ := sortKeys_obj fields
      rw [hsorted, scoreOf, scoreOf, hget, hget]
      cases OrderedMap.getList (lit "score") fields with
      | some score => exact floatOf_sortKeys score
      | none =>
          cases OrderedMap.getList (lit "bid") fields with
          | none => rfl
          | some bid =>
              cases bid with
              | obj inner =>
                  obtain ⟨sorted', hsorted', hget'⟩ := sortKeys_obj inner
                  simp only [Option.map_some, Option.map_none, hsorted', hget']
                  cases OrderedMap.getList (lit "score") inner with
                  | none => rfl
                  | some score => exact floatOf_sortKeys score
              | _ => rfl
  | _ => rfl

theorem scoreOf_congr {v w : Json} (h : sortKeys v = sortKeys w) :
    scoreOf floatText v = scoreOf floatText w := by
  rw [← scoreOf_sortKeys v, h, scoreOf_sortKeys]

/-- A bid names its bidder by a string, if at all. -/
def NamesBidder (payload : Dict) : Prop :=
  ∀ v ∈ payload.get? (lit "bidder_id"), ∃ bidderId, v = .str bidderId

/-- **Sorting the keys of a bid does not change its bidder.** -/
theorem bidderOf_congr {v : Json} {payload : Dict} (hname : NamesBidder payload)
    (h : sortKeys v = sortKeys payload.toJson) :
    bidderOf text v = bidderOf text payload.toJson := by
  obtain ⟨sorted, hsorted, hget⟩ := sortKeys_obj payload.entries
  rw [Dict.toJson, hsorted] at h
  cases v with
  | obj fields =>
      obtain ⟨sorted', hsorted', hget'⟩ := sortKeys_obj fields
      rw [hsorted'] at h
      obtain rfl := Json.obj.inj h
      have heq : (OrderedMap.getList (lit "bidder_id") fields).map sortKeys =
          (payload.get? (lit "bidder_id")).map sortKeys :=
        (hget' (lit "bidder_id")).symm.trans (hget (lit "bidder_id"))
      refine congrArg (nameOf text) ?_
      change _ = payload.get? (lit "bidder_id")
      cases hp : payload.get? (lit "bidder_id") with
      | none => exact Option.map_eq_none_iff.1 (heq.trans (congrArg _ hp))
      | some w =>
          obtain ⟨bidderId, rfl⟩ := hname w hp
          rw [hp, Option.map_some, Option.map_eq_some_iff] at heq
          obtain ⟨u, hu, hus⟩ := heq
          rw [hu]
          cases u <;> simp only [sortKeys, reduceCtorEq, Json.str.injEq] at hus
          rw [hus]
  | _ => simp only [sortKeys, reduceCtorEq] at h

variable (floatText text)

/-- A bid of the greatest score among some bids. -/
def TopBid (bids : List Dict) (b : Dict) : Prop :=
  b ∈ bids ∧ ∀ b' ∈ bids,
    (scoreOf floatText b'.toJson).getD 0 ≤ (scoreOf floatText b.toJson).getD 0

/-- Bids as they are published: with a score that is a number and a bidder that is a string. -/
def Published (bids : List Dict) : Prop :=
  ∀ b ∈ bids, (scoreOf floatText b.toJson).isSome ∧ NamesBidder b

/-- All bids of the greatest score are from one bidder. -/
def OneTopBidder (bids : List Dict) : Prop :=
  ∀ b b', TopBid floatText bids b → TopBid floatText bids b' →
    bidderOf text b.toJson = bidderOf text b'.toJson

variable {floatText text}

/-- Bids are the same if they are the same with sorted keys. -/
def SameBids (raw : List Json) (bids : List Dict) : Prop :=
  (∀ b ∈ bids, ∃ x ∈ raw, sortKeys x = sortKeys b.toJson) ∧
    ∀ x ∈ raw, ∃ b ∈ bids, sortKeys x = sortKeys b.toJson

/-- **The winner, when only one bidder has the greatest score.** -/
theorem maybeCommit_eq {s : SwarmStateStore} {taskId : Str} {bids : List Dict} {b : Dict}
    (hsame : SameBids (bidsIn (s.registers.get? (bidsKey taskId))) bids)
    (hpublished : Published floatText bids) (hone : OneTopBidder floatText text bids)
    (htop : TopBid floatText bids b) :
    maybeCommit floatText text s taskId = some (winnerNamed (bidderOf text b.toJson)) := by
  unfold maybeCommit
  generalize bidsIn (s.registers.get? (bidsKey taskId)) = raw at hsame
  obtain ⟨hall, hin⟩ := hsame
  have hne : raw ≠ [] := by
    obtain ⟨x, hx, -⟩ := hall b htop.1
    exact List.ne_nil_of_mem hx
  have hscores : raw.all (fun bid => (scoreOf floatText bid).isSome) = true := by
    refine List.all_eq_true.2 fun x hx => ?_
    obtain ⟨b', hb', hxb⟩ := hin x hx
    rw [scoreOf_congr hxb]
    exact (hpublished b' hb').1
  dsimp only
  rw [if_neg hne, if_pos hscores]
  cases hbest : raw.argmax fun bid => (scoreOf floatText bid).getD 0 with
  | none => exact absurd (List.argmax_eq_none.1 hbest) hne
  | some best =>
      obtain ⟨b₁, hb₁, hbest₁⟩ := hin best (List.argmax_mem hbest)
      have htop₁ : TopBid floatText bids b₁ := by
        refine ⟨hb₁, fun b₂ hb₂ => ?_⟩
        obtain ⟨x, hx, hxb⟩ := hall b₂ hb₂
        rw [← scoreOf_congr hxb, ← scoreOf_congr hbest₁]
        exact List.le_of_mem_argmax hx hbest
      rw [Option.bind_some, bidderOf_congr (hpublished b₁ hb₁).2 hbest₁, hone b₁ b htop₁ htop]

theorem maybeCommit_of_no_bids {s : SwarmStateStore} {taskId : Str}
    (hsame : SameBids (bidsIn (s.registers.get? (bidsKey taskId))) []) :
    maybeCommit floatText text s taskId = some none := by
  unfold maybeCommit
  cases hraw : bidsIn (s.registers.get? (bidsKey taskId)) with
  | nil => rfl
  | cons x raw =>
      obtain ⟨b, hb, -⟩ := hsame.2 x (by rw [hraw]; exact List.mem_cons_self)
      cases hb

/-- Among some bids one has the greatest score. -/
theorem exists_topBid {bids : List Dict} (h : bids ≠ []) : ∃ b, TopBid floatText bids b := by
  cases hb : bids.argmax fun b => (scoreOf floatText b.toJson).getD 0 with
  | none => exact absurd (List.argmax_eq_none.1 hb) h
  | some b => exact ⟨b, List.argmax_mem hb, fun b' hb' => List.le_of_mem_argmax hb' hb⟩

end Winner

/-! ### Two nodes -/

/-- Does an operation leave the registers alone? -/
def StoreOp.keepsRegisters : StoreOp → Bool
  | .updateRegister _ _ _ _ _ => false
  | .mergeRegister _ _ => false
  | .mergeSnapshot _ _ => false
  | _ => true

/-- Two nodes, and the snapshots that each of them has published. -/
structure Auction where
  stores : Bool → SwarmStateStore
  sent : Bool → List MeshStateSnapshot

/-- A node receives a bid; it does something that does not concern the registers, such as noting the
sender of a message or forgetting silent peers; it publishes a snapshot; or it merges a snapshot of
the other one, the `i`-th that was published. -/
inductive AuctionMove
  | bid (node : Bool) (senderId messageId : Str) (payload : Dict) (now : ℤ)
  | quiet (node : Bool) (op : StoreOp)
  | publish (node : Bool) (now : ℤ)
  | merge (node : Bool) (i : ℕ) (now : ℤ)

/-- Two new nodes. -/
def Auction.new (swarmId a b : Str) : Auction where
  stores n := .new (if n then a else b) swarmId
  sent _ := []

section Run

variable (text : Json → Str)

/-- A node with another store. -/
def Auction.setStore (w : Auction) (node : Bool) (s : SwarmStateStore) : Auction :=
  { w with stores := Function.update w.stores node s }

def auctionStep (w : Auction) : AuctionMove → Option Auction
  | .bid n senderId messageId payload now =>
    some (w.setStore n (handleTaskBid text (w.stores n) payload messageId senderId now))
  | .quiet n op => if op.keepsRegisters then some (w.setStore n (op.apply (w.stores n))) else none
  | .publish n now =>
    some { w with
      sent := Function.update w.sent n (w.sent n ++ [((w.stores n).snapshot now).reread]) }
  | .merge n i now =>
    (w.sent (!n))[i]?.map fun snap => w.setStore n ((w.stores n).mergeSnapshot snap now).1

variable (taskId : Str)

/-- The bid for the task that a node receives in a move. -/
def receivesBid (node : Bool) (_ : Auction) : AuctionMove → Option Dict
  | .bid n _ messageId payload _ =>
    if n = node ∧ taskIdOf text payload messageId = taskId then some payload else none
  | _ => none

/-- The bids for the task that a node receives in a run. -/
def receivedBids (node : Bool) (w : Auction) (ms : List AuctionMove) : List Dict :=
  emitted (auctionStep text) (receivesBid text taskId node) w ms

/-- The register with the bids for a task, as it stands in a snapshot. -/
def MeshStateSnapshot.bidsRegister (snap : MeshStateSnapshot) (taskId : Str) : Option LWWValue :=
  (snap.registers.get? (bidsKey taskId)).bind fun d => (LWWValue.ofData d).toOption

/-- A merge whose register wins over the list of bids brings all the bids of the list. -/
def KeepsBids (w : Auction) : AuctionMove → Prop
  | .merge n i _ => ∀ snap ∈ (w.sent (!n))[i]?, snap.Readable →
      ∀ cur ∈ (w.stores n).registers.get? (bidsKey taskId), ∀ v ∈ snap.bidsRegister taskId,
        cur.stamp ≤ v.stamp →
          ∀ x ∈ bidsIn (some cur), ∃ y ∈ bidsIn (some v), sortKeys y = sortKeys x
  | _ => True

/-! ### What one move does to the bids -/

/-- The bids that a node has for the task. -/
def bidsOf (w : Auction) (node : Bool) : List Json :=
  bidsIn ((w.stores node).registers.get? (bidsKey taskId))

variable {text taskId} {w w' : Auction}

theorem bidsKey_injective : Function.Injective bidsKey := fun _ _ h => List.append_cancel_left h

/-- The next version of a register always replaces it. -/
theorem get?_updateRegister (s : SwarmStateStore) (key : Str) (value : Json)
    (sourceId : Option Str) (now : ℤ) (key' : Str) :
    ((s.updateRegister key value sourceId none now).registers.get? key').map LWWValue.value =
      if key' = key then some value else (s.registers.get? key').map LWWValue.value := by
  have hnot : ((s.registers.get? key).any fun c => decide (((none : Option ℤ).getD
      (((s.registers.get? key).map (·.version + 1)).getD 1)) < c.version)) = false := by
    cases s.registers.get? key with
    | none => rfl
    | some c => simp
  unfold SwarmStateStore.updateRegister
  dsimp only
  rw [if_neg (by rw [hnot]; exact Bool.false_ne_true)]
  change ((s.registers.set key _).get? key').map LWWValue.value = _
  rw [OrderedMap.get?_set]
  split <;> rfl

/-- The bids depend on the value of the register alone. -/
theorem bidsIn_congr {r r' : Option LWWValue}
    (h : r.map LWWValue.value = r'.map LWWValue.value) : bidsIn r = bidsIn r' := by
  rw [bidsIn, bidsIn, h]

theorem stores_setStore (w : Auction) (n m : Bool) (s : SwarmStateStore) :
    (w.setStore n s).stores m = if m = n then s else w.stores m :=
  Function.update_apply _ _ _ _

/-- **A bid is added at the node that receives it.** -/
theorem bidsOf_bid {n : Bool} {senderId messageId : Str} {payload : Dict} {now : ℤ}
    (h : auctionStep text w (.bid n senderId messageId payload now) = some w') (m : Bool) :
    bidsOf taskId w' m = bidsOf taskId w m ++
      (receivesBid text taskId m w (.bid n senderId messageId payload now)).toList.map
        Dict.toJson := by
  obtain rfl := Option.some.inj h
  unfold bidsOf receivesBid
  rw [stores_setStore]
  by_cases hm : m = n
  · subst hm
    simp only [true_and, if_pos]
    have hget := get?_updateRegister (w.stores m) (bidsKey (taskIdOf text payload messageId))
      (.arr (bidsIn ((w.stores m).registers.get? (bidsKey (taskIdOf text payload messageId))) ++
        [payload.toJson])) (some senderId) now (bidsKey taskId)
    by_cases ht : taskIdOf text payload messageId = taskId
    · subst ht
      rw [if_pos rfl] at hget ⊢
      exact @bidsIn_congr _ (some ⟨_, 0, 0, []⟩) hget
    · rw [if_neg fun heq => ht (bidsKey_injective heq).symm] at hget
      rw [if_neg ht, Option.toList_none, List.map_nil, List.append_nil]
      exact bidsIn_congr hget
  · rw [if_neg hm]
    simp only [if_neg fun hand : n = m ∧ taskIdOf text payload messageId = taskId => hm hand.1.symm,
      Option.toList_none, List.map_nil, List.append_nil]

theorem registers_pruneStalePeers (s : SwarmStateStore) (timeoutS : ℚ) (now : ℤ) :
    (s.pruneStalePeers timeoutS now).registers = s.registers := by
  refine Merging.foldl_invariant (P := fun s' : SwarmStateStore => s'.registers = s.registers)
    (fun s' p h => ?_) rfl _
  unfold SwarmStateStore.prunePeer
  split
  · exact h
  · exact h

theorem registers_of_keeps {op : StoreOp} (h : op.keepsRegisters = true) (s : SwarmStateStore) :
    (op.apply s).registers = s.registers := by
  cases op with
  | updateRegister => cases h
  | mergeRegister => cases h
  | mergeSnapshot => cases h
  | setRole role =>
      simp only [StoreOp.apply, SwarmStateStore.setRole]
      split <;> rfl
  | setStatus status =>
      simp only [StoreOp.apply, SwarmStateStore.setStatus]
      split <;> rfl
  | setDepth depth =>
      simp only [StoreOp.apply, SwarmStateStore.setDepth]
      split <;> rfl
  | addPeer peer =>
      simp only [StoreOp.apply, SwarmStateStore.addPeer]
      split <;> rfl
  | removePeer peerId =>
      simp only [StoreOp.apply, SwarmStateStore.removePeer]
      split <;> rfl
  | pruneStalePeers timeoutS now => exact registers_pruneStalePeers s timeoutS now
  | touchPeer peerId nowMs updates clock => rfl
  | recordAlert alert => rfl
  | upsertTask taskId payload => rfl
  | incrementMetric key amount => rfl

theorem bidsOf_quiet {n : Bool} {op : StoreOp} (h : auctionStep text w (.quiet n op) = some w')
    (m : Bool) : bidsOf taskId w' m = bidsOf taskId w m ∧ w'.sent = w.sent := by
  obtain ⟨hop, heq⟩ := Option.ite_none_right_eq_some.1 h
  obtain rfl := Option.some.inj heq
  refine ⟨?_, rfl⟩
  unfold bidsOf
  rw [stores_setStore]
  split
  · next hm => rw [registers_of_keeps hop, hm]
  · rfl

/-- The register in a snapshot of a store. -/
theorem bidsRegister_snapshot (s : SwarmStateStore) (now : ℤ) :
    (s.snapshot now).reread.bidsRegister taskId =
      (s.registers.get? (bidsKey taskId)).map LWWValue.reread := by
  rw [MeshStateSnapshot.bidsRegister, get?_registers_snapshot]
  cases s.registers.get? (bidsKey taskId) <;> rfl

theorem bidsIn_reread (v : LWWValue) :
    bidsIn (some v.reread) = (bidsIn (some v)).map sortKeys := by
  obtain ⟨value, version, updatedAtMs, sourceId⟩ := v
  cases value with
  | arr xs => exact Js.Json.sortItems_eq_map xs
  | _ => rfl

/-- **A merge leaves the bids as they are, or takes over those of the snapshot.** -/
theorem bidsOf_mergeSnapshot {s : SwarmStateStore} {snap : MeshStateSnapshot}
    (hregisters : snap.readRegisters.2 = none) (now : ℤ) :
    bidsIn ((s.mergeSnapshot snap now).1.registers.get? (bidsKey taskId)) =
        bidsIn (s.registers.get? (bidsKey taskId)) ∨
      snap.Readable ∧ ∃ v ∈ snap.bidsRegister taskId,
        bidsIn ((s.mergeSnapshot snap now).1.registers.get? (bidsKey taskId)) =
          bidsIn (some v) ∧
        ∀ cur ∈ s.registers.get? (bidsKey taskId), cur.stamp ≤ v.stamp := by
  cases hpeers : snap.readPeers.2 with
  | some e =>
      rw [mergeSnapshot_of_peers hpeers, registers_withPeers]
      exact Or.inl rfl
  | none =>
      have hread : snap.Readable := ⟨hpeers, hregisters⟩
      rw [get?_registers_mergeSnapshot hread]
      cases hv : snap.bidsRegister taskId with
      | none =>
          rw [MeshStateSnapshot.bidsRegister] at hv
          rw [hv]
          exact Or.inl rfl
      | some v =>
          rw [MeshStateSnapshot.bidsRegister] at hv
          rw [hv, Option.elim_some]
          obtain hkept | ⟨hnew, hle⟩ := @LastWriter.offer_cases _ _ _ LWWValue.stamp true
            (s.registers.get? (bidsKey taskId)) v
          · rw [hkept]
            exact Or.inl rfl
          · rw [hnew]
            exact Or.inr ⟨hread, v, rfl, rfl, hle⟩

/-! ### Runs -/

variable {w₀ : Auction} {ms : List AuctionMove}

/-- A bid that some node has received in a run, up to the order of keys. -/
def ReceivedBid (text : Json → Str) (taskId : Str) (w₀ : Auction) (ms : List AuctionMove)
    (x : Json) : Prop :=
  ∃ node, ∃ b ∈ receivedBids text taskId node w₀ ms, sortKeys x = sortKeys b.toJson

/-- Each node has the bids that it has received, and all bids in registers and snapshots were
received by some node. -/
structure BidsKept (text : Json → Str) (taskId : Str) (w₀ : Auction) (ms : List AuctionMove)
    (w : Auction) : Prop where
  kept : ∀ node, ∀ b ∈ receivedBids text taskId node w₀ ms,
    ∃ x ∈ bidsOf taskId w node, sortKeys x = sortKeys b.toJson
  within : ∀ node, ∀ x ∈ bidsOf taskId w node, ReceivedBid text taskId w₀ ms x
  sentWithin : ∀ node, ∀ snap ∈ w.sent node, ∀ v ∈ snap.bidsRegister taskId,
    ∀ x ∈ bidsIn (some v), ReceivedBid text taskId w₀ ms x
  sentRead : ∀ node, ∀ snap ∈ w.sent node, snap.readRegisters.2 = none

theorem receivedBids_concat {mv : AuctionMove} (node : Bool)
    (h : run (auctionStep text) w₀ ms = some w) :
    receivedBids text taskId node w₀ (ms ++ [mv]) =
      receivedBids text taskId node w₀ ms ++ (receivesBid text taskId node w mv).toList :=
  emitted_concat (receivesBid text taskId node) mv h

/-- What was received stays received. -/
theorem ReceivedBid.concat {mv : AuctionMove} {x : Json}
    (h : run (auctionStep text) w₀ ms = some w) (hx : ReceivedBid text taskId w₀ ms x) :
    ReceivedBid text taskId w₀ (ms ++ [mv]) x := by
  obtain ⟨node, b, hb, heq⟩ := hx
  refine ⟨node, b, ?_, heq⟩
  rw [receivedBids_concat node h]
  exact List.mem_append_left _ hb

/-- A move that is not a bid brings no bid. -/
theorem receivedBids_of_none {mv : AuctionMove} (node : Bool)
    (h : run (auctionStep text) w₀ ms = some w) (hmv : receivesBid text taskId node w mv = none) :
    receivedBids text taskId node w₀ (ms ++ [mv]) = receivedBids text taskId node w₀ ms := by
  rw [receivedBids_concat node h, hmv, Option.toList_none, List.append_nil]

theorem BidsKept.bid (hI : BidsKept text taskId w₀ ms w)
    (hrun : run (auctionStep text) w₀ ms = some w) {n : Bool} {senderId messageId : Str}
    {payload : Dict} {now : ℤ}
    (h : auctionStep text w (.bid n senderId messageId payload now) = some w') :
    BidsKept text taskId w₀ (ms ++ [.bid n senderId messageId payload now]) w' := by
  have hbids : ∀ m, bidsOf taskId w' m = _ := bidsOf_bid h
  have hsent : w'.sent = w.sent := by
    obtain rfl := Option.some.inj h
    rfl
  refine ⟨fun node b hb => ?_, fun node x hx => ?_, ?_, ?_⟩
  · rw [receivedBids_concat node hrun] at hb
    rw [hbids]
    obtain hb | hb := List.mem_append.1 hb
    · obtain ⟨x, hx, heq⟩ := hI.kept node b hb
      exact ⟨x, List.mem_append_left _ hx, heq⟩
    · exact ⟨b.toJson, List.mem_append_right _ (List.mem_map_of_mem hb), rfl⟩
  · rw [hbids] at hx
    obtain hx | hx := List.mem_append.1 hx
    · exact (hI.within node x hx).concat hrun
    · obtain ⟨b, hb, rfl⟩ := List.mem_map.1 hx
      refine ⟨node, b, ?_, rfl⟩
      rw [receivedBids_concat node hrun]
      exact List.mem_append_right _ hb
  · rw [hsent]
    exact fun node snap hsnap v hv x hx =>
      (hI.sentWithin node snap hsnap v hv x hx).concat hrun
  · rw [hsent]
    exact hI.sentRead

theorem BidsKept.quiet (hI : BidsKept text taskId w₀ ms w)
    (hrun : run (auctionStep text) w₀ ms = some w) {n : Bool} {op : StoreOp}
    (h : auctionStep text w (.quiet n op) = some w') :
    BidsKept text taskId w₀ (ms ++ [.quiet n op]) w' := by
  have hsame : ∀ m, bidsOf taskId w' m = bidsOf taskId w m := fun m => (bidsOf_quiet h m).1
  have hsent : w'.sent = w.sent := (@bidsOf_quiet text taskId _ _ _ _ h n).2
  refine ⟨fun node b hb => ?_, fun node x hx => ?_, ?_, ?_⟩
  · rw [receivedBids_of_none node hrun rfl] at hb
    rw [hsame]
    exact hI.kept node b hb
  · rw [hsame] at hx
    exact (hI.within node x hx).concat hrun
  · rw [hsent]
    exact fun node snap hsnap v hv x hx =>
      (hI.sentWithin node snap hsnap v hv x hx).concat hrun
  · rw [hsent]
    exact hI.sentRead

theorem BidsKept.publish (hI : BidsKept text taskId w₀ ms w)
    (hrun : run (auctionStep text) w₀ ms = some w) {n : Bool} {now : ℤ}
    (h : auctionStep text w (.publish n now) = some w') :
    BidsKept text taskId w₀ (ms ++ [.publish n now]) w' := by
  obtain rfl := Option.some.inj h
  have hold : ∀ node snap, snap ∈ Function.update w.sent n
      (w.sent n ++ [((w.stores n).snapshot now).reread]) node →
      snap ∈ w.sent node ∨ snap = ((w.stores n).snapshot now).reread := by
    intro node snap hsnap
    rw [Function.update_apply] at hsnap
    split at hsnap
    · next hn =>
        subst hn
        exact (List.mem_append.1 hsnap).imp_right List.mem_singleton.1
    · exact Or.inl hsnap
  refine ⟨fun node b hb => ?_, fun node x hx => (hI.within node x hx).concat hrun, ?_, ?_⟩
  · rw [receivedBids_of_none node hrun rfl] at hb
    exact hI.kept node b hb
  · intro node snap hsnap v hv x hx
    obtain hsnap | rfl := hold node snap hsnap
    · exact (hI.sentWithin node snap hsnap v hv x hx).concat hrun
    · rw [bidsRegister_snapshot, Option.mem_def, Option.map_eq_some_iff] at hv
      obtain ⟨u, hu, rfl⟩ := hv
      rw [bidsIn_reread] at hx
      obtain ⟨y, hy, rfl⟩ := List.mem_map.1 hx
      obtain ⟨m, b, hb, heq⟩ := hI.within n y (by rw [bidsOf, hu]; exact hy)
      exact ReceivedBid.concat hrun ⟨m, b, hb, (Js.Json.sortKeys_sortKeys y).trans heq⟩
  · intro node snap hsnap
    obtain hsnap | rfl := hold node snap hsnap
    · exact hI.sentRead node snap hsnap
    · exact congrArg Prod.snd (readRegisters_snapshot _ _)

/-- **A merge that keeps the bids** loses none of those that its node has, and brings only bids that
the other node has published. -/
theorem BidsKept.merge (hI : BidsKept text taskId w₀ ms w)
    (hrun : run (auctionStep text) w₀ ms = some w) {n : Bool} {i : ℕ} {now : ℤ}
    (hkeeps : KeepsBids taskId w (.merge n i now))
    (h : auctionStep text w (.merge n i now) = some w') :
    BidsKept text taskId w₀ (ms ++ [.merge n i now]) w' := by
  obtain ⟨snap, hsnap, rfl⟩ := Option.map_eq_some_iff.1 h
  have hmem : snap ∈ w.sent (!n) := List.mem_of_getElem? hsnap
  have hother : ∀ m, m ≠ n →
      bidsOf taskId (w.setStore n ((w.stores n).mergeSnapshot snap now).1) m =
        bidsOf taskId w m := by
    intro m hm
    rw [bidsOf, stores_setStore, if_neg hm, bidsOf]
  have hself : bidsOf taskId (w.setStore n ((w.stores n).mergeSnapshot snap now).1) n =
      bidsIn (((w.stores n).mergeSnapshot snap now).1.registers.get? (bidsKey taskId)) := by
    rw [bidsOf, stores_setStore, if_pos rfl]
  have hcases := @bidsOf_mergeSnapshot taskId (w.stores n) snap (hI.sentRead (!n) snap hmem) now
  refine ⟨fun node b hb => ?_, fun node x hx => ?_, fun node snap' hsnap' v hv x hx =>
    (hI.sentWithin node snap' hsnap' v hv x hx).concat hrun, hI.sentRead⟩
  · rw [receivedBids_of_none node hrun rfl] at hb
    obtain ⟨x, hx, heq⟩ := hI.kept node b hb
    by_cases hn : node = n
    · subst hn
      rw [hself]
      obtain hsame | ⟨hread, v, hv, hnew, hle⟩ := hcases
      · exact ⟨x, by rw [hsame]; exact hx, heq⟩
      · rw [hnew]
        cases hcur : (w.stores node).registers.get? (bidsKey taskId) with
        | none =>
            rw [bidsOf, hcur] at hx
            cases hx
        | some cur =>
            rw [bidsOf, hcur] at hx
            obtain ⟨y, hy, hyx⟩ := hkeeps snap hsnap hread cur hcur v hv (hle cur hcur) x hx
            exact ⟨y, hy, hyx.trans heq⟩
    · exact ⟨x, by rw [hother node hn]; exact hx, heq⟩
  · by_cases hn : node = n
    · subst hn
      rw [hself] at hx
      obtain hsame | ⟨-, v, hv, hnew, -⟩ := hcases
      · rw [hsame] at hx
        exact (hI.within node x hx).concat hrun
      · rw [hnew] at hx
        exact (hI.sentWithin (!node) snap hmem v hv x hx).concat hrun
    · rw [hother node hn] at hx
      exact (hI.within node x hx).concat hrun

theorem BidsKept.step (hI : BidsKept text taskId w₀ ms w)
    (hrun : run (auctionStep text) w₀ ms = some w) {mv : AuctionMove}
    (hkeeps : KeepsBids taskId w mv) (h : auctionStep text w mv = some w') :
    BidsKept text taskId w₀ (ms ++ [mv]) w' := by
  cases mv with
  | bid n senderId messageId payload now => exact hI.bid hrun h
  | quiet n op => exact hI.quiet hrun h
  | publish n now => exact hI.publish hrun h
  | merge n i now => exact hI.merge hrun hkeeps h

/-- **No bid is lost in a run whose merges lose none.** -/
theorem bidsKept_run {swarmId a b : Str}
    (hrun : run (auctionStep text) (.new swarmId a b) ms = some w)
    (hkeeps : Along (auctionStep text) (KeepsBids taskId) (.new swarmId a b) ms) :
    BidsKept text taskId (.new swarmId a b) ms w := by
  refine invariant_of_history (I := fun ms w =>
    Along (auctionStep text) (KeepsBids taskId) (.new swarmId a b) ms →
      BidsKept text taskId (.new swarmId a b) ms w) ?_ ?_ hrun hkeeps
  · refine fun _ => ⟨fun node b hb => ?_, fun node x hx => ?_, fun node snap hs => ?_,
      fun node snap hs => ?_⟩
    · cases hb
    · cases hx
    · cases hs
    · cases hs
  · intro ms mv w₁ w₂ h₁ ih hs halong
    obtain ⟨hms, hmv⟩ := (along_concat h₁).1 halong
    exact (ih hms).step h₁ hmv hs

variable (floatText : Str → Option ℚ)

/-- Both nodes have all the bids, and pick the same winner: the bidder of any bid of the greatest
score. -/
structure Agreed (text : Json → Str) (taskId : Str) (bids : List Dict) (w : Auction) : Prop where
  contains : ∀ node, ∀ b ∈ bids, ∃ x ∈ bidsOf taskId w node, sortKeys x = sortKeys b.toJson
  winner : ∃ r, (∀ node, maybeCommit floatText text (w.stores node) taskId = some r) ∧
    ∀ b, TopBid floatText bids b → r = winnerNamed (bidderOf text b.toJson)

/-- **Nodes that have received the same bids agree, if no merge of the run loses bids and only one
bidder has the greatest score.** -/
theorem auction_agrees {swarmId a b : Str} {bids : List Dict}
    (hrun : run (auctionStep text) (.new swarmId a b) ms = some w)
    (hbids : ∀ node x, x ∈ receivedBids text taskId node (.new swarmId a b) ms ↔ x ∈ bids)
    (hpublished : Published floatText bids)
    (hkeeps : Along (auctionStep text) (KeepsBids taskId) (.new swarmId a b) ms)
    (hone : OneTopBidder floatText text bids) : Agreed floatText text taskId bids w := by
  have hkept := bidsKept_run hrun hkeeps
  have hsame : ∀ node, SameBids (bidsOf taskId w node) bids := by
    intro node
    refine ⟨fun x hx => hkept.kept node x ((hbids node x).2 hx), fun x hx => ?_⟩
    obtain ⟨m, y, hy, heq⟩ := hkept.within node x hx
    exact ⟨y, (hbids m y).1 hy, heq⟩
  refine ⟨fun node => (hsame node).1, ?_⟩
  by_cases hne : bids = []
  · subst hne
    exact ⟨none, fun node => maybeCommit_of_no_bids (hsame node), fun x hx => by cases hx.1⟩
  · obtain ⟨top, htop⟩ := @exists_topBid floatText _ hne
    refine ⟨winnerNamed (bidderOf text top.toJson), fun node => ?_, fun x hx => ?_⟩
    · exact maybeCommit_eq (hsame node) hpublished hone htop
    · rw [hone top x htop hx]

end Run

/-! ### Two auctions -/

/-- A bid of a node for the task `t`, with a score. -/
def bidFor (bidderId : String) (score : Js.Decimal) : Dict :=
  .ofList [(lit "task_id", .str (lit "t")), (lit "bidder_id", .str (lit bidderId)),
    (lit "bid", .obj [(lit "score", .num score)])]

/-- The bids of two nodes reach two others in different orders. -/
def crossedBids (score score' : Js.Decimal) : List AuctionMove :=
  [.bid true (lit "c") [] (bidFor "c" score) 1000, .bid true (lit "d") [] (bidFor "d" score') 1001,
    .bid false (lit "d") [] (bidFor "d" score') 1000,
    .bid false (lit "c") [] (bidFor "c" score) 1001]

theorem namesBidder_bidFor (bidderId : String) (score : Js.Decimal) :
    NamesBidder (bidFor bidderId score) := by
  have hget : (bidFor bidderId score).get? (lit "bidder_id") = some (.str (lit bidderId)) := by
    change (OrderedMap.set _ (lit "bid") _).get? _ = _
    rw [OrderedMap.get?_set, if_neg (by decide +kernel)]
    exact OrderedMap.get?_set_self _ _ _
  intro v hv
  exact ⟨_, (Option.some.inj (hget.symm.trans hv)).symm⟩

theorem auction_agrees_crossed :
    ∃ w, run (auctionStep fun _ => []) (.new (lit "s") (lit "a") (lit "b")) (crossedBids 2 1) =
        some w ∧
      Agreed (fun _ => none) (fun _ => []) (lit "t") [bidFor "c" 2, bidFor "d" 1] w := by
  have hreceived : ∀ node x, x ∈ receivedBids (fun _ => []) (lit "t") node
      (.new (lit "s") (lit "a") (lit "b")) (crossedBids 2 1) ↔
      x ∈ [bidFor "c" 2, bidFor "d" 1] := by
    have htrue : receivedBids (fun _ => []) (lit "t") true (.new (lit "s") (lit "a") (lit "b"))
        (crossedBids 2 1) = [bidFor "c" 2, bidFor "d" 1] := by decide +kernel
    have hfalse : receivedBids (fun _ => []) (lit "t") false (.new (lit "s") (lit "a") (lit "b"))
        (crossedBids 2 1) = [bidFor "d" 1, bidFor "c" 2] := by decide +kernel
    rintro (_ | _) x
    · rw [hfalse, List.mem_pair, List.mem_pair, or_comm]
    · rw [htrue]
  have hlow : ¬ TopBid (fun _ => none) [bidFor "c" 2, bidFor "d" 1] (bidFor "d" 1) := fun h =>
    absurd (h.2 (bidFor "c" 2) List.mem_cons_self) (by decide +kernel)
  have htop : ∀ x, TopBid (fun _ => none) [bidFor "c" 2, bidFor "d" 1] x → x = bidFor "c" 2 := by
    intro x hx
    obtain rfl | rfl := List.mem_pair.1 hx.1
    · rfl
    · exact absurd hx hlow
  refine ⟨_, rfl, auction_agrees (fun _ => none) rfl hreceived ?_ ?_ ?_⟩
  · exact List.forall_mem_cons.2 ⟨⟨by decide +kernel, namesBidder_bidFor _ _⟩,
      List.forall_mem_singleton.2 ⟨by decide +kernel, namesBidder_bidFor _ _⟩⟩
  · exact ⟨trivial, fun _ _ => ⟨trivial, fun _ _ => ⟨trivial, fun _ _ => ⟨trivial, fun _ _ =>
      trivial⟩⟩⟩⟩
  · intro x y hx hy
    rw [htop x hx, htop y hy]

/-- Each of two nodes receives one of two bids; one of them, when it has forgotten its silent peers,
publishes a snapshot, which the other one merges; then each receives the bid that it has missed. -/
def lostBid : List AuctionMove :=
  [.quiet true (.touchPeer (lit "c") none [] 1000),
    .bid true (lit "c") [] (bidFor "c" 2) 1000,
    .quiet false (.touchPeer (lit "d") none [] 2000),
    .bid false (lit "d") [] (bidFor "d" 1) 2000, .quiet false (.pruneStalePeers 10 20000),
    .publish false 20000, .quiet true (.touchPeer (lit "b") none [] 21000), .merge true 0 21000,
    .bid true (lit "d") [] (bidFor "d" 1) 22000, .bid false (lit "c") [] (bidFor "c" 2) 22000]

/-- Both nodes receive the same bids, each once, and do not agree.  With equal scores the winner is
the bidder whose bid came first; and a bid is lost when a snapshot replaces the list. -/
theorem auctions_disagree :
    (∃ w, run (auctionStep fun _ => []) (.new (lit "s") (lit "a") (lit "b")) (crossedBids 1 1) =
        some w ∧
      (∀ node, (receivedBids (fun _ => []) (lit "t") node (.new (lit "s") (lit "a") (lit "b"))
        (crossedBids 1 1)).Perm [bidFor "c" 1, bidFor "d" 1]) ∧
      ¬ Agreed (fun _ => none) (fun _ => []) (lit "t") [bidFor "c" 1, bidFor "d" 1] w) ∧
    ∃ w, run (auctionStep fun _ => []) (.new (lit "s") (lit "a") (lit "b")) lostBid = some w ∧
      (∀ node, (receivedBids (fun _ => []) (lit "t") node (.new (lit "s") (lit "a") (lit "b"))
        lostBid).Perm [bidFor "c" 2, bidFor "d" 1]) ∧
      ¬ Agreed (fun _ => none) (fun _ => []) (lit "t") [bidFor "c" 2, bidFor "d" 1] w := by
  constructor
  · have hwinners : ∀ w ∈ run (auctionStep fun _ => []) (.new (lit "s") (lit "a") (lit "b"))
        (crossedBids 1 1),
        maybeCommit (fun _ => none) (fun _ => []) (w.stores true) (lit "t") ≠
          maybeCommit (fun _ => none) (fun _ => []) (w.stores false) (lit "t") := by
      decide +kernel
    refine ⟨_, rfl, by decide +kernel, fun h => ?_⟩
    obtain ⟨r, hr, -⟩ := h.winner
    exact hwinners _ rfl ((hr true).trans (hr false).symm)
  · have hlost : ∀ w ∈ run (auctionStep fun _ => []) (.new (lit "s") (lit "a") (lit "b")) lostBid,
        ∀ x ∈ bidsOf (lit "t") w true, sortKeys x ≠ sortKeys (bidFor "c" 2).toJson := by
      decide +kernel
    obtain ⟨w, hw⟩ : ∃ w, run (auctionStep fun _ => []) (.new (lit "s") (lit "a") (lit "b"))
        lostBid = some w := Option.isSome_iff_exists.1 (by decide +kernel)
    refine ⟨w, hw, by decide +kernel, fun h => ?_⟩
    obtain ⟨x, hx, heq⟩ := h.contains true (bidFor "c" 2) List.mem_cons_self
    exact hlost w hw x hx heq

end SwarmStore
