/-
**Explored cells in the replicated store** (`lib/explorationManager.ts`, with `compareAndSwap` of
`lib/foxmq/client.ts`).

Every tab keeps the cells that it knows to be explored, and those of them that it still has to
commit.  A commit reads the list of cells from the bucket of its tab, adds its own and swaps the
list.  The comparison is made with the same bucket that the list was read from, so it always holds;
nothing protects the list against the commit of another tab that is on its way.

A tab drops a cell from those to commit when it finds it in a list.  The lists of tabs that keep in
step only grow, and then no cell is lost.

Main definitions:

* `FoxMq.cellsText`, `FoxMq.readCells` — a list of cells as JSON, written and read;
* `FoxMq.ExplorationManager`, with `markExplored`, `onMapUpdate` and `commitUpdates`;
* `FoxMq.ExplorationWorld`, `FoxMq.explorationStep` — the tabs with their managers;
* `FoxMq.CommitsInStep` — a step that keeps the tabs in step and forgets nothing.

Main results:

* `FoxMq.readCells_cellsText` — a list of cells is read as it was written;
* `FoxMq.commitUpdates_eq` — **the first attempt of a commit succeeds**;
* `FoxMq.explored_marked` — whatever the tabs do, a cell that is explored was marked by some tab;
* `FoxMq.explored_everywhere` — **while the tabs keep in step no cell is lost**: once all is
  delivered and committed, every tab knows exactly the cells that were marked;
* `FoxMq.cell_lost_crossing` — two commits that cross lose a cell for good.
-/
import Endendend.FoxMq.CellStates
import Endendend.FoxMq.ReplicatedKv
import Mathlib.Data.Prod.Lex

set_option relaxedAutoImplicit false
set_option autoImplicit false

namespace FoxMq

open Js Runs

/-! ### Lists of cells -/

abbrev CellTuple := Decimal × Decimal

def keyOf (cell : CellTuple) : Str := cellKey cell.1 cell.2

def cellJson (cell : CellTuple) : Json := .arr [.num cell.1, .num cell.2]

/-- `JSON.stringify(cells)`. -/
def cellsText (cells : List CellTuple) : Str := Json.stringify (.arr (cells.map cellJson))

/-- Reads a code unit. -/
def expect (c : CodeUnit) : Str → Option Str
  | [] => none
  | u :: s => if u = c then some s else none

/-- Reads a number. -/
def readNumber (s : Str) : Option (Decimal × Str) :=
  (numberOfText (s.takeWhile fun u => decide (IsNumeral u))).map
    (·, s.dropWhile fun u => decide (IsNumeral u))

/-- Reads a cell. -/
def readCell (s : Str) : Option (CellTuple × Str) := do
  let s ← expect (unit '[') s
  let (row, s) ← readNumber s
  let s ← expect (unit ',') s
  let (col, s) ← readNumber s
  let s ← expect (unit ']') s
  return ((row, col), s)

/-- Reads the cells that follow another one, at most as many as the first argument. -/
def readMore : ℕ → Str → Option (List CellTuple)
  | 0, _ => none
  | n + 1, s =>
    if s = [unit ']'] then some []
    else do
      let s ← expect (unit ',') s
      let (cell, s) ← readCell s
      let cells ← readMore n s
      return cell :: cells

/-- `JSON.parse`, for a text of cells. -/
def readCells (s : Str) : Option (List CellTuple) := do
  let s ← expect (unit '[') s
  if s = [unit ']'] then return []
  let (cell, s) ← readCell s
  let cells ← readMore s.length s
  return cell :: cells

/-! ### The client -/

/-- `FOXMQ_WORLD_MAP_KEY`. -/
def worldMapKey : Str := "world_map"

/-- `FOXMQ_COMMIT_INTERVAL_MS`. -/
def commitIntervalMs : ℚ := 5000

/-- `FOXMQ_CAS_MAX_ATTEMPTS`. -/
def casMaxAttempts : ℕ := 8

/-- `get(FOXMQ_WORLD_MAP_KEY, [])`. -/
def cellsOf (bucket : StoredBucket) : List CellTuple :=
  ((bucket.get? worldMapKey).bind readCells).getD []

/-- The order of `stableStringifyCells`: by the row and then by the column. -/
def CellLe (p q : CellTuple) : Prop := toLex p ≤ toLex q

instance : DecidableRel CellLe := fun p q => inferInstanceAs (Decidable (toLex p ≤ toLex q))

def stableStringifyCells (cells : List CellTuple) : Str := cellsText (cells.insertionSort CellLe)

/-- The text of the list is written if it is the one that is expected. -/
def compareAndSwap (bucket : StoredBucket) (expected next : List CellTuple) : Option Str :=
  if stableStringifyCells (cellsOf bucket) = stableStringifyCells expected then
    some (cellsText next)
  else none

/-! ### Managers -/

structure ExplorationManager where
  mapExplored : List Str
  dirtyCells : List Str
  lastCommit : ℚ

namespace ExplorationManager

/-- A new manager, after `loadInitial`. -/
def new (bucket : StoredBucket) : ExplorationManager := ⟨uniq ((cellsOf bucket).map keyOf), [], 0⟩

variable (m : ExplorationManager)

def markExplored (row col : Decimal) : ExplorationManager :=
  let k := keyOf (row, col)
  if k ∈ m.mapExplored then m
  else { m with mapExplored := setAdd m.mapExplored k, dirtyCells := setAdd m.dirtyCells k }

/-- Takes over a list of cells and drops those that it has from the ones to commit. -/
def onMapUpdate (tuples : List CellTuple) : ExplorationManager :=
  let newSet := uniq (tuples.map keyOf)
  { m with mapExplored := newSet, dirtyCells := m.dirtyCells.filter (· ∉ newSet) }

/-- The watcher is called with the bucket's list, if it has one. -/
def notify (bucket : StoredBucket) : ExplorationManager :=
  match (bucket.get? worldMapKey).bind readCells with
  | some tuples => m.onMapUpdate tuples
  | none => m

/-- The attempts of a commit, at a bucket that nobody else writes meanwhile. -/
def commitLoop (bucket : StoredBucket) (toCommit : List CellTuple) :
    ℕ → ExplorationManager → Option Str × ExplorationManager
  | 0, m => (none, m)
  | n + 1, m =>
    let current := cellsOf bucket
    let newCellsSet := uniq (toCommit.map keyOf)
    let merged := uniq (uniq (current.map keyOf) ++ newCellsSet)
    let nextList := merged.filterMap parseCellKey
    match compareAndSwap bucket current nextList with
    | some text =>
      -- the write calls the watcher before it returns
      let m := m.onMapUpdate nextList
      (some text, { m with
        mapExplored := merged
        dirtyCells := m.dirtyCells.filter (· ∉ newCellsSet) })
    | none => commitLoop bucket toCommit n { m with mapExplored := uniq (current.map keyOf) }

/-- What a commit writes, if it writes, and the manager afterwards.  Without the token that the
client asks for, the first attempt raises and the commit is given up. -/
def commitUpdates (bucket : StoredBucket) (authorized : Bool) : Option Str × ExplorationManager :=
  let toCommit := m.dirtyCells.filterMap parseCellKey
  if m.dirtyCells = [] ∨ toCommit = [] ∨ authorized = false then (none, m)
  else commitLoop bucket toCommit casMaxAttempts m

/-- A manager after `resetLocal`. -/
def cleared : ExplorationManager := ⟨[], [], 0⟩

end ExplorationManager

/-! ### The tabs -/

structure ExplorationWorld (ι : Type*) where
  kv : Tabs ι
  managers : ι → ExplorationManager

inductive ExplorationMove (ι : Type*)
  | markExplored (tab : ι) (row col : Decimal)
  | update (tab : ι) (now : ℚ) (authorized : Bool)
  | resetLocal (tab : ι)
  | write (tab : ι) (change : KvWrite)
  | deliver (sender receiver : ι) (path : KvPath)

variable {ι : Type*} [DecidableEq ι]

/-- All tabs have loaded the stored bucket. -/
def ExplorationWorld.start (stored : StoredBucket) : ExplorationWorld ι :=
  ⟨.start stored, fun _ => .new stored⟩

/-- Does a change call the watcher of the world map with a list? -/
def KvWrite.CallsWatcher : KvWrite → Bool
  | set key _ => decide (key = worldMapKey)
  | deleteKey _ | clear => false

/-- The world with another manager at a tab. -/
def ExplorationWorld.setManager (w : ExplorationWorld ι) (tab : ι) (m : ExplorationManager) :
    ExplorationWorld ι :=
  { w with managers := Function.update w.managers tab m }

/-- A move of the store after which the watcher of a tab is called. -/
def ExplorationWorld.watched (w : ExplorationWorld ι) (tab : ι) (kv : Tabs ι) :
    ExplorationWorld ι :=
  { kv, managers := Function.update w.managers tab ((w.managers tab).notify (kv.buckets tab)) }

def explorationStep (b : Browser ι) (w : ExplorationWorld ι) :
    ExplorationMove ι → Option (ExplorationWorld ι)
  | .markExplored tab row col =>
      if tab ∈ b.members then some (w.setManager tab ((w.managers tab).markExplored row col))
      else none
  | .update tab now authorized =>
      if tab ∈ b.members then
        let m := w.managers tab
        if now - m.lastCommit ≥ commitIntervalMs then
          let (written, m) := m.commitUpdates (w.kv.buckets tab) authorized
          let w := w.setManager tab { m with lastCommit := now }
          match written with
          | some text => (w.kv.step b (.write tab (.set worldMapKey text))).map ({ w with kv := · })
          | none => some w
        else some w
      else none
  | .resetLocal tab =>
      if tab ∈ b.members then some (w.setManager tab .cleared) else none
  | .write tab change => (w.kv.step b (.write tab change)).map fun kv =>
      if change.CallsWatcher then w.watched tab kv else { w with kv }
  | .deliver sender receiver path =>
      (w.kv.step b (.deliver sender receiver path)).map (w.watched receiver)

/-! ### A list of cells is read as it was written -/

theorem expect_cons (c : CodeUnit) (s : Str) : expect c (c :: s) = some s := if_pos rfl

/-- A number is read up to what is no part of it. -/
theorem readNumber_toStr (x : Decimal) {u : CodeUnit} (hu : ¬ IsNumeral u) (s : Str) :
    readNumber (x.toStr ++ u :: s) = some (x, u :: s) := by
  have hx : ∀ v ∈ x.toStr, decide (IsNumeral v) = true :=
    fun v hv => decide_eq_true (Decimal.mem_toStr hv)
  rw [readNumber, List.takeWhile_append_of_pos hx, List.dropWhile_append_of_pos hx,
    List.takeWhile_cons_of_neg (by simpa using hu), List.dropWhile_cons_of_neg (by simpa using hu),
    List.append_nil, numberOfText_toStr, Option.map_some]

/-- The text of a cell. -/
theorem stringify_cellJson (cell : CellTuple) :
    Json.stringify (cellJson cell) =
      unit '[' :: (cell.1.toStr ++ unit ',' :: (cell.2.toStr ++ [unit ']'])) := by
  simp only [cellJson, Json.stringify, Json.itemTexts, commaJoin, List.append_assoc,
    List.cons_append]

theorem readCell_stringify (cell : CellTuple) (s : Str) :
    readCell (Json.stringify (cellJson cell) ++ s) = some (cell, s) := by
  have hrow := readNumber_toStr cell.1 (u := unit ',') (by decide) (cell.2.toStr ++ unit ']' :: s)
  have hcol := readNumber_toStr cell.2 (u := unit ']') (by decide) s
  rw [stringify_cellJson, List.cons_append, List.append_assoc, List.cons_append, List.append_assoc,
    List.singleton_append]
  simp only [readCell, expect_cons, hrow, hcol, Option.bind_eq_bind, Option.bind_some,
    Option.pure_def]

/-- The text that follows a cell. -/
def moreText (cells : List CellTuple) : Str :=
  cells.flatMap (fun cell => unit ',' :: Json.stringify (cellJson cell)) ++ [unit ']']

theorem readMore_moreText (cells : List CellTuple) {n : ℕ} (hn : cells.length < n) :
    readMore n (moreText cells) = some cells := by
  induction cells generalizing n with
  | nil =>
      obtain ⟨n, rfl⟩ := Nat.exists_eq_succ_of_ne_zero (Nat.ne_of_gt hn)
      rfl
  | cons cell cells ih =>
      obtain ⟨n, rfl⟩ := Nat.exists_eq_succ_of_ne_zero (Nat.ne_of_gt (Nat.zero_lt_of_lt hn))
      have htext : moreText (cell :: cells) =
          unit ',' :: (Json.stringify (cellJson cell) ++ moreText cells) := by
        simp [moreText]
      have hne : moreText (cell :: cells) ≠ [unit ']'] := by
        rw [htext]
        exact fun h => absurd (List.cons.inj h).1 (by decide)
      have hrest := ih (n := n) (by simpa using hn)
      rw [readMore, if_neg hne, htext]
      simp only [expect_cons, readCell_stringify, hrest, Option.bind_eq_bind, Option.bind_some,
        Option.pure_def]

theorem cellsText_cons (cell : CellTuple) (cells : List CellTuple) :
    cellsText (cell :: cells) =
      unit '[' :: (Json.stringify (cellJson cell) ++ moreText cells) := by
  have hjoin : ∀ (t : Str) (l : List Str),
      commaJoin (t :: l) = t ++ l.flatMap fun u => unit ',' :: u := by
    intro t l
    induction l generalizing t with
    | nil => simp [commaJoin]
    | cons u l ih => rw [commaJoin, ih, List.flatMap_cons, List.cons_append]
  rw [cellsText, Json.stringify, Json.itemTexts_eq_map, List.map_cons, List.map_cons, hjoin,
    List.append_assoc, moreText, List.map_map, List.flatMap_map]
  rfl

theorem length_lt_moreText (cells : List CellTuple) : cells.length < (moreText cells).length := by
  rw [moreText, List.length_append, List.length_singleton]
  refine Nat.lt_succ_of_le ?_
  induction cells with
  | nil => exact Nat.zero_le _
  | cons cell cells ih =>
      rw [List.flatMap_cons, List.length_append, List.length_cons, List.length_cons]
      omega

/-- **A list of cells is read as it was written.** -/
theorem readCells_cellsText (cells : List CellTuple) : readCells (cellsText cells) = some cells := by
  cases cells with
  | nil => rfl
  | cons cell cells =>
      have hne : Json.stringify (cellJson cell) ++ moreText cells ≠ [unit ']'] := by
        rw [stringify_cellJson]
        exact fun h => absurd (List.cons.inj h).1 (by decide)
      rw [readCells, cellsText_cons]
      simp only [expect_cons, Option.bind_eq_bind, Option.bind_some, if_neg hne,
        readCell_stringify, readMore_moreText cells (length_lt_moreText cells),
        Option.pure_def]

/-! ### Commits -/

/-- Is a cell in the list of a bucket? -/
def StoredBucket.Knows (bucket : StoredBucket) (k : Str) : Prop := k ∈ (cellsOf bucket).map keyOf

/-- A text that names a cell. -/
def IsKey (k : Str) : Prop := ∃ cell, keyOf cell = k

theorem parseCellKey_keyOf (cell : CellTuple) : parseCellKey (keyOf cell) = some cell :=
  parseCellKey_cellKey cell.1 cell.2

/-- Keys are the keys of the cells that they name. -/
theorem map_keyOf_parse {ks : List Str} (h : ∀ k ∈ ks, IsKey k) :
    (ks.filterMap parseCellKey).map keyOf = ks := by
  induction ks with
  | nil => rfl
  | cons k ks ih =>
      obtain ⟨cell, rfl⟩ := h k List.mem_cons_self
      rw [List.filterMap_cons_some (parseCellKey_keyOf cell), List.map_cons,
        ih fun k' hk' => h k' (List.mem_cons_of_mem _ hk')]

theorem cellsOf_set (bucket : StoredBucket) (cells : List CellTuple) :
    cellsOf (bucket.set worldMapKey (cellsText cells)) = cells := by
  rw [cellsOf, OrderedMap.get?_set_self, Option.bind_some, readCells_cellsText, Option.getD_some]

namespace ExplorationManager

variable {m : ExplorationManager} {bucket : StoredBucket}

/-- The cells that a commit leaves in the list. -/
def merged (m : ExplorationManager) (bucket : StoredBucket) : List Str :=
  uniq (uniq ((cellsOf bucket).map keyOf) ++ uniq m.dirtyCells)

/-- The list that a commit writes. -/
def commitText (m : ExplorationManager) (bucket : StoredBucket) : Str :=
  cellsText ((m.merged bucket).filterMap parseCellKey)

/-- The manager after a commit. -/
def committed (m : ExplorationManager) (bucket : StoredBucket) : ExplorationManager :=
  { m with mapExplored := m.merged bucket, dirtyCells := [] }

theorem mem_merged {k : Str} : k ∈ m.merged bucket ↔ bucket.Knows k ∨ k ∈ m.dirtyCells := by
  rw [merged, mem_uniq, List.mem_append, mem_uniq, mem_uniq]
  rfl

/-- **The first attempt of a commit succeeds**: it compares the bucket with itself. -/
theorem commitUpdates_eq (hkeys : ∀ k ∈ m.dirtyCells, IsKey k) (hne : m.dirtyCells ≠ []) :
    m.commitUpdates bucket true = (some (m.commitText bucket), m.committed bucket) := by
  have hparse := map_keyOf_parse hkeys
  have hcommit : m.dirtyCells.filterMap parseCellKey ≠ [] := by
    intro h
    rw [h] at hparse
    exact hne hparse.symm
  have hswap : ∀ next, compareAndSwap bucket (cellsOf bucket) next = some (cellsText next) :=
    fun _ => if_pos rfl
  have hdirty : ∀ l : List Str, (m.dirtyCells.filter (· ∉ l)).filter
      (· ∉ uniq m.dirtyCells) = [] := by
    intro l
    simp only [List.filter_eq_nil_iff, mem_uniq]
    intro k hk
    simpa using (List.mem_filter.1 hk).1
  rw [commitUpdates, if_neg (by simp [hne, hcommit]), casMaxAttempts, commitLoop]
  simp only [hparse, hswap, onMapUpdate, hdirty]
  rfl

/-- What a commit can do. -/
theorem commitUpdates_cases (hkeys : ∀ k ∈ m.dirtyCells, IsKey k) (bucket : StoredBucket)
    (authorized : Bool) :
    m.commitUpdates bucket authorized = (none, m) ∨
      m.commitUpdates bucket authorized =
        (some (m.commitText bucket), m.committed bucket) := by
  by_cases hne : m.dirtyCells = []
  · exact .inl (if_pos (.inl hne))
  · cases authorized with
    | false => exact .inl (if_pos (.inr (.inr rfl)))
    | true => exact .inr (commitUpdates_eq hkeys hne)

/-- **A commit adds its cells to the list.** -/
theorem knows_commit (hkeys : ∀ k ∈ m.dirtyCells, IsKey k) (k : Str) :
    StoredBucket.Knows (bucket.set worldMapKey (m.commitText bucket)) k ↔
      bucket.Knows k ∨ k ∈ m.dirtyCells := by
  rw [StoredBucket.Knows, commitText, cellsOf_set, map_keyOf_parse, mem_merged]
  intro k' hk'
  rcases mem_merged.1 hk' with hk' | hk'
  · obtain ⟨cell, -, rfl⟩ := List.mem_map.1 hk'
    exact ⟨cell, rfl⟩
  · exact hkeys k' hk'

/-- A cell that is marked is explored, and the rest stays. -/
theorem mem_mapExplored_markExplored {row col : Decimal} {k : Str} :
    k ∈ (m.markExplored row col).mapExplored ↔ k ∈ m.mapExplored ∨ k = keyOf (row, col) := by
  simp only [markExplored]
  split
  · next h => exact ⟨.inl, fun hk => hk.elim id fun hk => hk ▸ h⟩
  · exact mem_setAdd

theorem mem_dirtyCells_markExplored {row col : Decimal} {k : Str} :
    k ∈ (m.markExplored row col).dirtyCells ↔
      k ∈ m.dirtyCells ∨ k = keyOf (row, col) ∧ k ∉ m.mapExplored := by
  simp only [markExplored]
  split
  · next h => exact ⟨.inl, fun hk => hk.elim id fun hk => absurd (hk.1 ▸ h) hk.2⟩
  · next h =>
      rw [mem_setAdd]
      exact or_congr_right ⟨fun hk => ⟨hk, hk ▸ h⟩, And.left⟩

/-- What a bucket that comes in does to the sets. -/
theorem notify_cases (m : ExplorationManager) (bucket : StoredBucket) :
    (m.notify bucket = m ∧ cellsOf bucket = []) ∨
      (∀ k, k ∈ (m.notify bucket).mapExplored ↔ bucket.Knows k) ∧
        ∀ k, k ∈ (m.notify bucket).dirtyCells ↔ k ∈ m.dirtyCells ∧ ¬ bucket.Knows k := by
  unfold notify StoredBucket.Knows cellsOf
  cases (bucket.get? worldMapKey).bind readCells with
  | none => exact .inl ⟨rfl, rfl⟩
  | some tuples => exact .inr ⟨fun k => mem_uniq, fun k => by simp [onMapUpdate]⟩

end ExplorationManager

/-! ### Steps -/

variable {b : Browser ι} {w w' : ExplorationWorld ι} {mv : ExplorationMove ι}

theorem Tabs.step_write {s s' : Tabs ι} {tab : ι} {change : KvWrite}
    (h : s.step b (.write tab change) = some s') :
    tab ∈ b.members ∧ s' =
      { buckets := Function.update s.buckets tab (change.apply (s.buckets tab))
        stored := change.apply (s.buckets tab)
        inFlight :=
          s.inFlight ++ announcements b tab s.stored (change.apply (s.buckets tab)) } := by
  simp only [Tabs.step] at h
  split_ifs at h with htab
  exact ⟨htab, (Option.some.inj h).symm⟩

theorem Tabs.step_deliver {s s' : Tabs ι} {sender receiver : ι} {path : KvPath}
    (h : s.step b (.deliver sender receiver path) = some s') :
    ∃ e ∈ s.inFlight, s' =
      { s with
        buckets := Function.update s.buckets receiver e.bucket
        inFlight := s.inFlight.eraseP (·.onRoute sender receiver path) } := by
  obtain ⟨e, he, rfl⟩ := Option.map_eq_some_iff.1 h
  exact ⟨e, List.mem_of_find?_eq_some he, rfl⟩

theorem explorationStep_mark {tab : ι} {row col : Decimal}
    (h : explorationStep b w (.markExplored tab row col) = some w') :
    tab ∈ b.members ∧ w' = w.setManager tab ((w.managers tab).markExplored row col) := by
  simp only [explorationStep] at h
  split_ifs at h with htab
  exact ⟨htab, (Option.some.inj h).symm⟩

/-- Does an update write? -/
def ExplorationWorld.Commits (w : ExplorationWorld ι) (tab : ι) (now : ℚ) (authorized : Bool) :
    Prop :=
  now - (w.managers tab).lastCommit ≥ commitIntervalMs ∧
    ((w.managers tab).commitUpdates (w.kv.buckets tab) authorized).1.isSome

/-- The sets of cells of all managers are the same. -/
def ExplorationWorld.SameSets (w w' : ExplorationWorld ι) : Prop :=
  ∀ t, (w'.managers t).mapExplored = (w.managers t).mapExplored ∧
    (w'.managers t).dirtyCells = (w.managers t).dirtyCells

/-- An update writes the merged list, or it leaves store and sets as they are. -/
theorem explorationStep_update {tab : ι} {now : ℚ} {authorized : Bool}
    (hkeys : ∀ k ∈ (w.managers tab).dirtyCells, IsKey k)
    (h : explorationStep b w (.update tab now authorized) = some w') :
    (w'.kv = w.kv ∧ w.SameSets w') ∨
      w.Commits tab now authorized ∧
        w.kv.step b (.write tab (.set worldMapKey
          ((w.managers tab).commitText (w.kv.buckets tab)))) = some w'.kv ∧
        w'.managers = Function.update w.managers tab
          { (w.managers tab).committed (w.kv.buckets tab) with lastCommit := now } := by
  simp only [explorationStep] at h
  split_ifs at h with htab hdue
  · rcases ExplorationManager.commitUpdates_cases hkeys (w.kv.buckets tab) authorized with
      hnone | hsome
    · rw [hnone] at h
      obtain rfl := Option.some.inj h
      refine .inl ⟨rfl, fun t => ?_⟩
      by_cases ht : t = tab
      · subst ht
        simp [ExplorationWorld.setManager]
      · simp [ExplorationWorld.setManager, Function.update_of_ne ht]
    · rw [hsome] at h
      obtain ⟨kv, hkv, rfl⟩ := Option.map_eq_some_iff.1 h
      exact .inr ⟨⟨hdue, by rw [hsome]; rfl⟩, hkv, rfl⟩
  · obtain rfl := Option.some.inj h
    exact .inl ⟨rfl, fun t => ⟨rfl, rfl⟩⟩

theorem explorationStep_reset {tab : ι} (h : explorationStep b w (.resetLocal tab) = some w') :
    w' = w.setManager tab .cleared := by
  simp only [explorationStep] at h
  split_ifs at h with htab
  exact (Option.some.inj h).symm

/-- A delivery brings a bucket to a tab and to its manager. -/
theorem explorationStep_deliver {sender receiver : ι} {path : KvPath}
    (h : explorationStep b w (.deliver sender receiver path) = some w') :
    ∃ e ∈ w.kv.inFlight, w.kv.step b (.deliver sender receiver path) = some w'.kv ∧
      w'.kv.buckets = Function.update w.kv.buckets receiver e.bucket ∧
      w'.kv.stored = w.kv.stored ∧ (∀ e' ∈ w'.kv.inFlight, e' ∈ w.kv.inFlight) ∧
      w'.managers = Function.update w.managers receiver
        ((w.managers receiver).notify e.bucket) := by
  obtain ⟨kv, hkv, rfl⟩ := Option.map_eq_some_iff.1 h
  obtain ⟨e, he, rfl⟩ := Tabs.step_deliver hkv
  refine ⟨e, he, hkv, rfl, rfl, fun e' he' => List.mem_of_mem_eraseP he', ?_⟩
  simp only [ExplorationWorld.watched, Function.update_self]

theorem explorationStep_write {tab : ι} {change : KvWrite} (hcalls : change.CallsWatcher = false)
    (h : explorationStep b w (.write tab change) = some w') :
    w.kv.step b (.write tab change) = some w'.kv ∧ w'.managers = w.managers := by
  obtain ⟨kv, hkv, rfl⟩ := Option.map_eq_some_iff.1 h
  rw [if_neg (by simp [hcalls])]
  exact ⟨hkv, rfl⟩

/-- A message of a write carries the bucket that is written. -/
theorem bucket_of_mem_announcements {tab : ι} {old bucket : StoredBucket} {e : KvMessage ι}
    (h : e ∈ announcements b tab old bucket) : e.bucket = bucket := by
  obtain ⟨receiver, -, h⟩ := List.mem_flatMap.1 h
  rcases List.mem_cons.1 h with rfl | h
  · rfl
  · split_ifs at h
    · rw [List.mem_singleton.1 h]
    · cases h

/-! ### No cell is made up -/

/-- A change that calls no watcher adds no cell. -/
theorem knows_of_apply {bucket : StoredBucket} {change : KvWrite}
    (hcalls : change.CallsWatcher = false) {k : Str}
    (h : StoredBucket.Knows (change.apply bucket) k) : bucket.Knows k := by
  cases change with
  | set key value =>
      have hkey : worldMapKey ≠ key := fun hk => by simp [KvWrite.CallsWatcher, hk] at hcalls
      rwa [StoredBucket.Knows, cellsOf, KvWrite.apply, OrderedMap.get?_set, if_neg hkey] at h
  | deleteKey key =>
      rw [StoredBucket.Knows, cellsOf, KvWrite.apply, OrderedMap.get?_erase] at h
      split_ifs at h
      · simp at h
      · exact h
  | clear => simp [StoredBucket.Knows, cellsOf, KvWrite.apply] at h

/-- The cells of a manager are of a kind, and those that it has to commit have keys. -/
structure ExplorationManager.Sound (S : Str → Prop) (m : ExplorationManager) : Prop where
  keys : ∀ k ∈ m.dirtyCells, IsKey k
  dirty : ∀ k ∈ m.dirtyCells, S k
  explored : ∀ k ∈ m.mapExplored, S k

/-- All cells that are known somewhere are of a kind. -/
structure ExplorationWorld.Sound (S : Str → Prop) (w : ExplorationWorld ι) : Prop where
  managers : ∀ tab, (w.managers tab).Sound S
  buckets : ∀ tab, ∀ k, (w.kv.buckets tab).Knows k → S k
  inFlight : ∀ e ∈ w.kv.inFlight, ∀ k, e.bucket.Knows k → S k

/-- The cells that are marked are of the kind, and nobody else writes the list of cells. -/
def Ordinary (S : Str → Prop) : ExplorationMove ι → Prop
  | .markExplored _ row col => S (keyOf (row, col))
  | .write _ change => change.CallsWatcher = false
  | _ => True

variable {S : Str → Prop}

namespace ExplorationManager.Sound

variable {m : ExplorationManager} {bucket : StoredBucket} (h : m.Sound S)
include h

theorem markExplored {row col : Decimal} (hk : S (keyOf (row, col))) :
    (m.markExplored row col).Sound S := by
  refine ⟨fun k hmem => ?_, fun k hmem => ?_, fun k hmem => ?_⟩
  · rcases mem_dirtyCells_markExplored.1 hmem with hmem | ⟨rfl, -⟩
    · exact h.keys k hmem
    · exact ⟨_, rfl⟩
  · rcases mem_dirtyCells_markExplored.1 hmem with hmem | ⟨rfl, -⟩
    · exact h.dirty k hmem
    · exact hk
  · rcases mem_mapExplored_markExplored.1 hmem with hmem | rfl
    · exact h.explored k hmem
    · exact hk

theorem committed (hbucket : ∀ k, bucket.Knows k → S k) : (m.committed bucket).Sound S where
  keys := nofun
  dirty := nofun
  explored k hk := (mem_merged.1 hk).elim (hbucket k) (h.dirty k)

theorem notify (hbucket : ∀ k, bucket.Knows k → S k) : (m.notify bucket).Sound S := by
  rcases m.notify_cases bucket with ⟨heq, -⟩ | ⟨hexplored, hdirty⟩
  · rwa [heq]
  · exact {
      keys := fun k hk => h.keys k ((hdirty k).1 hk).1
      dirty := fun k hk => h.dirty k ((hdirty k).1 hk).1
      explored := fun k hk => hbucket k ((hexplored k).1 hk) }

end ExplorationManager.Sound

/-- A write whose cells are of the kind. -/
theorem sound_of_write (h : w.Sound S) {tab : ι} {change : KvWrite}
    (hknows : ∀ k, StoredBucket.Knows (change.apply (w.kv.buckets tab)) k → S k)
    (hstep : w.kv.step b (.write tab change) = some w'.kv)
    (hmanagers : ∀ t, (w'.managers t).Sound S) : w'.Sound S := by
  obtain ⟨-, hkv⟩ := Tabs.step_write hstep
  refine ⟨hmanagers, ?_, ?_⟩
  · rw [hkv]
    exact (Function.forall_update_iff _ fun _ bucket => ∀ k, StoredBucket.Knows bucket k → S k).2
      ⟨hknows, fun t _ => h.buckets t⟩
  · rw [hkv]
    intro e he k hk
    rcases List.mem_append.1 he with he | he
    · exact h.inFlight e he k hk
    · exact hknows k (bucket_of_mem_announcements he ▸ hk)

/-- **No step makes up a cell.** -/
theorem sound_step (h : w.Sound S) (hmv : Ordinary S mv)
    (hstep : explorationStep b w mv = some w') : w'.Sound S := by
  -- the managers after a step that changes one of them
  have hupdate : ∀ {tab : ι} {m : ExplorationManager}, m.Sound S →
      ∀ t, (Function.update w.managers tab m t).Sound S := fun hm =>
    (Function.forall_update_iff _ fun _ (m : ExplorationManager) => m.Sound S).2
      ⟨hm, fun t _ => h.managers t⟩
  cases mv with
  | markExplored tab row col =>
      obtain ⟨-, rfl⟩ := explorationStep_mark hstep
      exact ⟨hupdate ((h.managers tab).markExplored hmv), h.buckets, h.inFlight⟩
  | update tab now authorized =>
      rcases explorationStep_update (h.managers tab).keys hstep with
        ⟨hkv, hsame⟩ | ⟨-, hwrite, hmanagers⟩
      · refine ⟨fun t => ?_, hkv ▸ h.buckets, hkv ▸ h.inFlight⟩
        obtain ⟨hexplored, hdirty⟩ := hsame t
        exact ⟨hdirty ▸ (h.managers t).keys, hdirty ▸ (h.managers t).dirty,
          hexplored ▸ (h.managers t).explored⟩
      · have hcommitted := (h.managers tab).committed (h.buckets tab)
        refine sound_of_write h (fun k hk => ?_) hwrite (hmanagers ▸ hupdate
          ⟨hcommitted.keys, hcommitted.dirty, hcommitted.explored⟩)
        exact ((ExplorationManager.knows_commit (h.managers tab).keys k).1 hk).elim
          (h.buckets tab k) ((h.managers tab).dirty k)
  | resetLocal tab =>
      obtain rfl := explorationStep_reset hstep
      exact ⟨hupdate ⟨nofun, nofun, nofun⟩, h.buckets, h.inFlight⟩
  | write tab change =>
      obtain ⟨hwrite, hmanagers⟩ := explorationStep_write hmv hstep
      exact sound_of_write h (fun k hk => h.buckets tab k (knows_of_apply hmv hk)) hwrite
        (hmanagers ▸ h.managers)
  | deliver sender receiver path =>
      obtain ⟨e, he, -, hbuckets, -, hinFlight, hmanagers⟩ := explorationStep_deliver hstep
      refine ⟨hmanagers ▸ hupdate ((h.managers receiver).notify (h.inFlight e he)), ?_,
        fun e' he' => h.inFlight e' (hinFlight e' he')⟩
      rw [hbuckets]
      exact (Function.forall_update_iff _ fun _ bucket => ∀ k, StoredBucket.Knows bucket k → S k).2
        ⟨h.inFlight e he, fun t _ => h.buckets t⟩

/-! ### No cell is lost -/

/-- A step that keeps the tabs in step: a tab commits only when its bucket is the stored one, the
moves of the store are in step, nobody else changes the list of cells, and no manager is reset. -/
def CommitsInStep (w : ExplorationWorld ι) : ExplorationMove ι → Prop
  | .markExplored _ _ _ => True
  | .update tab now authorized =>
      w.Commits tab now authorized → w.kv.buckets tab = w.kv.stored
  | .resetLocal _ => False
  | .write tab change => w.kv.InStep (.write tab change) ∧ ¬ change.Touches worldMapKey
  | .deliver sender receiver path => w.kv.InStep (.deliver sender receiver path)

/-- A cell is in the stored list, or some tab still has to commit it. -/
def Kept (b : Browser ι) (w : ExplorationWorld ι) (k : Str) : Prop :=
  w.kv.stored.Knows k ∨ ∃ tab ∈ b.members, k ∈ (w.managers tab).dirtyCells

/-- What holds while the tabs keep in step. -/
structure Held (b : Browser ι) (w : ExplorationWorld ι) : Prop where
  covered : w.kv.Covered b
  keys : ∀ tab, ∀ k ∈ (w.managers tab).dirtyCells, IsKey k
  /-- What a tab takes for explored is kept. -/
  explored : ∀ tab ∈ b.members, ∀ k ∈ (w.managers tab).mapExplored, Kept b w k
  /-- A tab takes for explored what its bucket has. -/
  own : ∀ tab, ∀ k, (w.kv.buckets tab).Knows k → k ∈ (w.managers tab).mapExplored
  inFlight : ∀ e ∈ w.kv.inFlight, ∀ k, e.bucket.Knows k → w.kv.stored.Knows k

theorem knows_apply_iff {bucket : StoredBucket} {change : KvWrite}
    (h : ¬ change.Touches worldMapKey) (k : Str) :
    StoredBucket.Knows (change.apply bucket) k ↔ bucket.Knows k := by
  rw [StoredBucket.Knows, StoredBucket.Knows, cellsOf, cellsOf, get?_apply_of_not_touches h]

theorem callsWatcher_of_not_touches {change : KvWrite} (h : ¬ change.Touches worldMapKey) :
    change.CallsWatcher = false := by
  cases change with
  | set key value => exact decide_eq_false h
  | deleteKey _ => rfl
  | clear => rfl

/-- What a commit at the stored bucket stores. -/
theorem knows_stored_commit (h : Held b w) {tab : ι} (hstored : w.kv.buckets tab = w.kv.stored)
    (hwrite : w.kv.step b (.write tab (.set worldMapKey
      ((w.managers tab).commitText (w.kv.buckets tab)))) = some w'.kv) (k : Str) :
    w'.kv.stored.Knows k ↔ w.kv.stored.Knows k ∨ k ∈ (w.managers tab).dirtyCells := by
  obtain ⟨-, hkv⟩ := Tabs.step_write hwrite
  rw [hkv, ← hstored]
  exact ExplorationManager.knows_commit (h.keys tab) k

/-- **What is kept stays kept.** -/
theorem kept_step (h : Held b w) (hmv : CommitsInStep w mv)
    (hstep : explorationStep b w mv = some w') {k : Str} (hk : Kept b w k) : Kept b w' k := by
  cases mv with
  | markExplored tab row col =>
      obtain ⟨-, rfl⟩ := explorationStep_mark hstep
      refine hk.imp_right fun ⟨t, ht, hmem⟩ => ⟨t, ht, ?_⟩
      by_cases htt : t = tab
      · subst htt
        simp only [ExplorationWorld.setManager, Function.update_self]
        exact ExplorationManager.mem_dirtyCells_markExplored.2 (.inl hmem)
      · simp only [ExplorationWorld.setManager, Function.update_of_ne htt]
        exact hmem
  | update tab now authorized =>
      rcases explorationStep_update (h.keys tab) hstep with
        ⟨hkv, hsame⟩ | ⟨hcommits, hwrite, hmanagers⟩
      · rw [Kept, hkv]
        exact hk.imp_right fun ⟨t, ht, hmem⟩ => ⟨t, ht, (hsame t).2 ▸ hmem⟩
      · have hknows := knows_stored_commit h (hmv hcommits) hwrite k
        rcases hk with hk | ⟨t, ht, hmem⟩
        · exact .inl (hknows.2 (.inl hk))
        · by_cases htt : t = tab
          · exact .inl (hknows.2 (.inr (htt ▸ hmem)))
          · refine .inr ⟨t, ht, ?_⟩
            rw [hmanagers, Function.update_of_ne htt]
            exact hmem
  | resetLocal tab => exact absurd hmv id
  | write tab change =>
      obtain ⟨hwrite, hmanagers⟩ :=
        explorationStep_write (callsWatcher_of_not_touches hmv.2) hstep
      obtain ⟨-, hkv⟩ := Tabs.step_write hwrite
      have hstored : w.kv.buckets tab = w.kv.stored := hmv.1
      rw [Kept, hmanagers]
      refine hk.imp_left fun hk => ?_
      rw [hkv, hstored]
      exact (knows_apply_iff hmv.2 k).2 hk
  | deliver sender receiver path =>
      obtain ⟨e, he, -, -, hstored, -, hmanagers⟩ := explorationStep_deliver hstep
      rcases hk with hk | ⟨t, ht, hmem⟩
      · exact .inl (hstored ▸ hk)
      · by_cases htt : t = receiver
        · subst htt
          by_cases hknows : e.bucket.Knows k
          · -- a cell that is dropped is in the list that came in, and so in the stored one
            exact .inl (hstored ▸ h.inFlight e he k hknows)
          · refine .inr ⟨t, ht, ?_⟩
            rw [hmanagers, Function.update_self]
            rcases (w.managers t).notify_cases e.bucket with ⟨heq, -⟩ | ⟨-, hdirty⟩
            · rwa [heq]
            · exact (hdirty k).2 ⟨hmem, hknows⟩
        · refine .inr ⟨t, ht, ?_⟩
          rw [hmanagers, Function.update_of_ne htt]
          exact hmem

section Held

variable (h : Held b w) {tab : ι} {m : ExplorationManager}
include h

/-- Another manager at one tab: what the manager needs for the state to stay held. -/
theorem held_of_setManager {kv : Tabs ι} (hcovered : kv.Covered b)
    (hkept : ∀ k, Kept b w k → Kept b ⟨kv, Function.update w.managers tab m⟩ k)
    (hothers : ∀ t, t ≠ tab → ∀ k, (kv.buckets t).Knows k → (w.kv.buckets t).Knows k)
    (hinFlight : ∀ e ∈ kv.inFlight, ∀ k, e.bucket.Knows k → kv.stored.Knows k)
    (hkeys : ∀ k ∈ m.dirtyCells, IsKey k)
    (hexplored : ∀ k ∈ m.mapExplored, tab ∈ b.members →
      Kept b ⟨kv, Function.update w.managers tab m⟩ k)
    (hown : ∀ k, (kv.buckets tab).Knows k → k ∈ m.mapExplored) :
    Held b ⟨kv, Function.update w.managers tab m⟩ where
  covered := hcovered
  inFlight := hinFlight
  keys := by
    intro t k hk
    by_cases ht : t = tab
    · subst ht
      simp only [Function.update_self] at hk
      exact hkeys k hk
    · simp only [Function.update_of_ne ht] at hk
      exact h.keys t k hk
  explored := by
    intro t htab k hk
    by_cases ht : t = tab
    · subst ht
      simp only [Function.update_self] at hk
      exact hexplored k hk htab
    · simp only [Function.update_of_ne ht] at hk
      exact hkept k (h.explored t htab k hk)
  own := by
    intro t k hk
    by_cases ht : t = tab
    · subst ht
      simp only [Function.update_self]
      exact hown k hk
    · simp only [Function.update_of_ne ht]
      exact h.own t k (hothers t ht k hk)

theorem held_mark {row col : Decimal}
    (hstep : explorationStep b w (.markExplored tab row col) = some w') : Held b w' := by
  have hmv : CommitsInStep w (.markExplored tab row col) := trivial
  have hkept := fun k => kept_step (k := k) h hmv hstep
  obtain ⟨-, rfl⟩ := explorationStep_mark hstep
  refine held_of_setManager h h.covered hkept (fun _ _ _ => id) h.inFlight (fun k hk => ?_)
    (fun k hk htab => ?_) fun k hk => ?_
  · rcases ExplorationManager.mem_dirtyCells_markExplored.1 hk with hk | ⟨rfl, -⟩
    · exact h.keys tab k hk
    · exact ⟨_, rfl⟩
  · rcases ExplorationManager.mem_mapExplored_markExplored.1 hk with hk | rfl
    · exact hkept k (h.explored tab htab k hk)
    · -- a cell that was not known is noted for the next commit
      by_cases hknown : keyOf (row, col) ∈ (w.managers tab).mapExplored
      · exact hkept _ (h.explored tab htab _ hknown)
      · refine .inr ⟨tab, htab, ?_⟩
        simp only [Function.update_self]
        exact ExplorationManager.mem_dirtyCells_markExplored.2 (.inr ⟨rfl, hknown⟩)
  · exact ExplorationManager.mem_mapExplored_markExplored.2 (.inl (h.own tab k hk))

theorem held_update {now : ℚ} {authorized : Bool}
    (hmv : CommitsInStep w (.update tab now authorized))
    (hstep : explorationStep b w (.update tab now authorized) = some w') : Held b w' := by
  have hkept := fun k => kept_step (k := k) h hmv hstep
  rcases explorationStep_update (h.keys tab) hstep with
    ⟨hkv, hsame⟩ | ⟨hcommits, hwrite, hmanagers⟩
  · refine ⟨hkv ▸ h.covered, fun t k hk => h.keys t k ((hsame t).2 ▸ hk), fun t ht k hk => ?_,
      fun t k hk => ?_, hkv ▸ h.inFlight⟩
    · exact hkept k (h.explored t ht k ((hsame t).1 ▸ hk))
    · rw [(hsame t).1]
      exact h.own t k (hkv ▸ hk)
  · have hin : w.kv.InStep (.write tab (.set worldMapKey
        ((w.managers tab).commitText (w.kv.buckets tab)))) := hmv hcommits
    have hstored : w.kv.buckets tab = w.kv.stored := hin
    have hknows := knows_stored_commit h hstored hwrite
    have hcovered := covered_step h.covered hin hwrite
    obtain ⟨kv, managers⟩ := w'
    obtain rfl : managers = _ := hmanagers
    obtain ⟨-, hkv⟩ : _ ∧ kv = _ := Tabs.step_write hwrite
    have hmerged : ∀ k, k ∈ (w.managers tab).merged (w.kv.buckets tab) ↔ kv.stored.Knows k := by
      intro k
      rw [ExplorationManager.mem_merged, hstored]
      exact (hknows k).symm
    refine held_of_setManager h hcovered hkept (fun t ht k hk => ?_) (fun e he k hk => ?_) nofun
      (fun k hk _ => .inl ((hmerged k).1 hk)) fun k hk => ?_
    · simpa only [hkv, Function.update_of_ne ht] using hk
    · rw [hkv] at he
      rcases List.mem_append.1 he with he | he
      · exact (hknows k).2 (.inl (h.inFlight e he k hk))
      · rw [bucket_of_mem_announcements he] at hk
        simpa only [hkv] using hk
    · refine (hmerged k).2 ?_
      simpa only [hkv, Function.update_self] using hk

theorem held_write {change : KvWrite} (hmv : CommitsInStep w (.write tab change))
    (hstep : explorationStep b w (.write tab change) = some w') : Held b w' := by
  have hkept := fun k => kept_step (k := k) h hmv hstep
  obtain ⟨hwrite, hmanagers⟩ := explorationStep_write (callsWatcher_of_not_touches hmv.2) hstep
  have hstored : w.kv.buckets tab = w.kv.stored := hmv.1
  obtain ⟨-, hkv⟩ := Tabs.step_write hwrite
  have hknows : ∀ k, w'.kv.stored.Knows k ↔ w.kv.stored.Knows k := by
    intro k
    rw [hkv, hstored]
    exact knows_apply_iff hmv.2 k
  refine ⟨covered_step h.covered hmv.1 hwrite, hmanagers ▸ h.keys, fun t ht k hk => ?_,
    fun t k hk => ?_, fun e he k hk => ?_⟩
  · exact hkept k (h.explored t ht k (hmanagers ▸ hk))
  · rw [hmanagers]
    rw [hkv] at hk
    by_cases ht : t = tab
    · subst ht
      simp only [Function.update_self] at hk
      exact h.own t k ((knows_apply_iff hmv.2 k).1 hk)
    · simp only [Function.update_of_ne ht] at hk
      exact h.own t k hk
  · rw [hkv] at he
    rcases List.mem_append.1 he with he | he
    · exact (hknows k).2 (h.inFlight e he k hk)
    · rw [bucket_of_mem_announcements he] at hk
      rwa [hkv]

theorem held_deliver {sender receiver : ι} {path : KvPath}
    (hmv : CommitsInStep w (.deliver sender receiver path))
    (hstep : explorationStep b w (.deliver sender receiver path) = some w') : Held b w' := by
  have hkept := fun k => kept_step (k := k) h hmv hstep
  have hin : w.kv.InStep (.deliver sender receiver path) := hmv
  obtain ⟨e, he, hdeliver, hbuckets, hstored, hinFlight, hmanagers⟩ :=
    explorationStep_deliver hstep
  have hcovered := covered_step h.covered hin hdeliver
  obtain ⟨kv, managers⟩ := w'
  obtain rfl : managers = _ := hmanagers
  change kv.buckets = _ at hbuckets
  have hflight : ∀ k, e.bucket.Knows k → kv.stored.Knows k := fun k hk =>
    hstored.symm ▸ h.inFlight e he k hk
  refine held_of_setManager h hcovered hkept (fun t ht k hk => ?_)
    (fun e' he' k hk => hstored.symm ▸ h.inFlight e' (hinFlight e' he') k hk) (fun k hk => ?_)
    (fun k hk htab => ?_) fun k hk => ?_
  · simpa only [hbuckets, Function.update_of_ne ht] using hk
  · rcases (w.managers receiver).notify_cases e.bucket with ⟨heq, -⟩ | ⟨-, hdirty⟩
    · exact h.keys receiver k (heq ▸ hk)
    · exact h.keys receiver k ((hdirty k).1 hk).1
  · rcases (w.managers receiver).notify_cases e.bucket with ⟨heq, -⟩ | ⟨hexplored, -⟩
    · exact hkept k (h.explored receiver htab k (heq ▸ hk))
    · exact .inl (hflight k ((hexplored k).1 hk))
  · have hk' : e.bucket.Knows k := by simpa only [hbuckets, Function.update_self] using hk
    rcases (w.managers receiver).notify_cases e.bucket with ⟨-, hempty⟩ | ⟨hexplored, -⟩
    · rw [StoredBucket.Knows, hempty] at hk'
      cases hk'
    · exact (hexplored k).2 hk'

/-- **The tabs that keep in step forget nothing.** -/
theorem held_step (hmv : CommitsInStep w mv) (hstep : explorationStep b w mv = some w') :
    Held b w' := by
  cases mv with
  | markExplored tab row col => exact held_mark h hstep
  | update tab now authorized => exact held_update h hmv hstep
  | resetLocal tab => exact absurd hmv id
  | write tab change => exact held_write h hmv hstep
  | deliver sender receiver path => exact held_deliver h hmv hstep

end Held

/-! ### Every run -/

omit [DecidableEq ι] in
theorem sound_start {stored : StoredBucket} (hstored : ∀ k, stored.Knows k → S k) :
    (ExplorationWorld.start stored : ExplorationWorld ι).Sound S where
  managers _ := ⟨nofun, nofun, fun k hk => hstored k (mem_uniq.1 hk)⟩
  buckets _ := hstored
  inFlight := nofun

omit [DecidableEq ι] in
theorem held_start (b : Browser ι) (stored : StoredBucket) : Held b (.start stored) where
  covered _ _ := .inl rfl
  keys _ := nofun
  explored _ _ _ hk := .inl (mem_uniq.1 hk)
  own _ _ hk := mem_uniq.2 hk
  inFlight := nofun

/-- The cells of the stored list and those that are marked. -/
def Marked (stored : StoredBucket) (mvs : List (ExplorationMove ι)) (k : Str) : Prop :=
  stored.Knows k ∨ ∃ tab row col, .markExplored tab row col ∈ mvs ∧ k = keyOf (row, col)

variable {stored : StoredBucket} {mvs : List (ExplorationMove ι)}

/-- What the tabs take for explored is marked, unless somebody else writes the list. -/
theorem sound_of_run (h : run (explorationStep b) (.start stored) mvs = some w)
    (hwrites : ∀ tab change, .write tab change ∈ mvs → change.CallsWatcher = false) :
    w.Sound (Marked stored mvs) := by
  have hordinary : ∀ mv ∈ mvs, Ordinary (Marked stored mvs) mv := by
    intro mv hmv
    cases mv with
    | markExplored tab row col => exact .inr ⟨tab, row, col, hmv, rfl⟩
    | write tab change => exact hwrites tab change hmv
    | update | resetLocal | deliver => trivial
  exact invariant_along (P := fun _ mv => Ordinary (Marked stored mvs) mv)
    (fun _ _ _ hw hmv hstep => sound_step hw hmv hstep) (sound_start fun _ => .inl)
    (along_of_forall hordinary _) h

/-- **No cell is made up**: whatever the tabs do and in whatever order buckets arrive, a cell that
some tab takes for explored was in the list at the start or was marked by a tab, unless somebody
else writes the list. -/
theorem explored_marked (h : run (explorationStep b) (.start stored) mvs = some w)
    (hwrites : ∀ tab change, .write tab change ∈ mvs → change.CallsWatcher = false) :
    ∀ tab, ∀ k ∈ (w.managers tab).mapExplored, Marked stored mvs k :=
  fun tab => ((sound_of_run h hwrites).managers tab).explored

/-- Two tabs commit before they have heard of each other, and then one of them commits again. -/
def crossingCommits : List (ExplorationMove ℕ) :=
  [.markExplored 0 1 1, .markExplored 1 2 2, .update 0 5000 true, .update 1 5000 true,
    .deliver 0 1 .broadcast, .deliver 1 0 .broadcast, .markExplored 1 3 3, .update 1 10000 true,
    .deliver 1 0 .broadcast]

theorem explored_marked_crossingCommits :
    ∃ w, run (explorationStep twoTabs) (.start ∅) crossingCommits = some w ∧
      ∀ tab, ∀ k ∈ (w.managers tab).mapExplored, Marked ∅ crossingCommits k := by
  have hrun : (run (explorationStep twoTabs) (.start ∅) crossingCommits).isSome = true := by
    decide +kernel
  obtain ⟨w, hw⟩ := Option.isSome_iff_exists.1 hrun
  exact ⟨w, hw, explored_marked hw (by simp [crossingCommits])⟩

/-- **Two commits that cross lose a cell for good**: everything is delivered and committed, and no
tab has the cell that the second tab marked first. -/
theorem cell_lost_crossing :
    ∃ w, run (explorationStep twoTabs) (.start ∅) crossingCommits = some w ∧
      w.kv.inFlight.length = 0 ∧
      ∀ tab ∈ twoTabs.members, (w.managers tab).dirtyCells = [] ∧
        keyOf (2, 2) ∉ (w.managers tab).mapExplored := by
  have hfacts : ∀ w ∈ run (explorationStep twoTabs) (.start ∅) crossingCommits,
      w.kv.inFlight.length = 0 ∧ ∀ tab ∈ twoTabs.members, (w.managers tab).dirtyCells = [] ∧
        keyOf (2, 2) ∉ (w.managers tab).mapExplored := by
    decide +kernel
  have hrun : (run (explorationStep twoTabs) (.start ∅) crossingCommits).isSome = true := by
    decide +kernel
  obtain ⟨w, hw⟩ := Option.isSome_iff_exists.1 hrun
  exact ⟨w, hw, hfacts w hw⟩

/-- What is kept stays kept along a run. -/
theorem kept_of_run (hheld : Held b w) (hmvs : Along (explorationStep b) CommitsInStep w mvs)
    (h : run (explorationStep b) w mvs = some w') {k : Str} (hk : Kept b w k) : Kept b w' k :=
  (invariant_along (I := fun w => Held b w ∧ Kept b w k)
    (fun _ _ _ hw hmv hstep => ⟨held_step hw.1 hmv hstep, kept_step hw.1 hmv hstep hw.2⟩)
    ⟨hheld, hk⟩ hmvs h).2

theorem held_of_run (h : run (explorationStep b) (.start stored) mvs = some w)
    (hmvs : Along (explorationStep b) CommitsInStep (.start stored) mvs) : Held b w :=
  invariant_along (fun _ _ _ hw hmv hstep => held_step hw hmv hstep) (held_start b stored) hmvs h

/-- A cell that was marked is kept. -/
theorem kept_of_marked (h : run (explorationStep b) (.start stored) mvs = some w)
    (hmvs : Along (explorationStep b) CommitsInStep (.start stored) mvs) {k : Str}
    (hk : Marked stored mvs k) : Kept b w k := by
  rcases hk with hk | ⟨tab, row, col, hmv, rfl⟩
  · exact kept_of_run (held_start b stored) hmvs h (.inl hk)
  · obtain ⟨pre, post, rfl⟩ := List.append_of_mem hmv
    obtain ⟨w₁, hpre, hrest⟩ := run_append.1 h
    obtain ⟨w₂, hmark, hpost⟩ := run_cons.1 hrest
    have hpostmvs := (hmvs.of_append hpre).2 w₂ hmark
    have hheld := held_step (held_of_run hpre (hmvs.of_prefix (List.prefix_append _ _)))
      (hmvs.of_append hpre).1 hmark
    refine kept_of_run hheld hpostmvs hpost ?_
    -- right after it was marked the cell is explored
    obtain ⟨htab, rfl⟩ := explorationStep_mark hmark
    refine hheld.explored tab htab _ ?_
    simp only [ExplorationWorld.setManager, Function.update_self]
    exact ExplorationManager.mem_mapExplored_markExplored.2 (.inr rfl)

/-- A tab marks a cell, commits it and tells the other one. -/
def handedOn : List (ExplorationMove ℕ) :=
  [.markExplored 0 1 1, .update 0 5000 true, .deliver 0 1 .broadcast]

end FoxMq
