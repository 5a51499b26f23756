import Mathlib.Data.List.Infix
import War3BattleTool.Foundation.Recent

set_option autoImplicit false

/-!
# The log panel of the client (`client/src/ui/log_panel.rs`)

The panel keeps the most recent entries of the log, and the positions of those that pass its
filter.  `push` adds a position where it can, and finds all of them again where old entries had
to go; every change of the filter finds them again too.
-/

namespace War3BattleTool.Client

open War3BattleTool.Foundation

/-! ## Entries -/

/-- How detailed an entry is, or how detailed the entries shown may be. -/
inductive Verbosity where
  | concise
  | detailed
  | full
  deriving DecidableEq

/-- The derived order: by declaration. -/
def Verbosity.rank : Verbosity → Nat
  | .concise => 0
  | .detailed => 1
  | .full => 2

inductive LogLevel where
  | info
  | warn
  | error
  deriving DecidableEq

structure LogEntry where
  timestamp : String
  message : String
  level : LogLevel
  verbosity : Verbosity
  deriving DecidableEq

/-- `LOG_BUFFER_MIN`. -/
def logBufferMin : Nat := 1000

/-- `LOG_BUFFER_MAX`. -/
def logBufferMax : Nat := 5000

/-! ## The panel -/

structure LogPanel where
  entries : List LogEntry
  filteredIndices : List Nat
  verbosityFilter : Verbosity
  searchQuery : String
  searchActive : Bool
  maxEntries : Nat

/-- What the user does to the toolbar within one frame.  `typed` is the text of the search field
if it was changed. -/
structure ToolbarInput where
  clicked : Verbosity → Bool
  typed : Option String
  closeSearch : Bool
  openSearch : Bool

namespace LogPanel

/-- `LogPanel::new`. -/
def new (maxEntries : Nat) : LogPanel where
  entries := []
  filteredIndices := []
  verbosityFilter := .concise
  searchQuery := ""
  searchActive := false
  maxEntries := max logBufferMin (min maxEntries logBufferMax)

/-- `entry_passes_filter`. -/
def entryPassesFilter (p : LogPanel) (entry : LogEntry) : Bool :=
  if ¬ entry.verbosity.rank ≤ p.verbosityFilter.rank then false
  else if ¬ p.searchQuery.isEmpty then p.searchQuery.toList <:+: entry.message.toList
  else true

/-- `rebuild_filtered_indices`. -/
def rebuildFilteredIndices (p : LogPanel) : LogPanel :=
  { p with filteredIndices := enumerate p.entryPassesFilter p.entries }

/-- `push`. -/
def push (p : LogPanel) (entry : LogEntry) : LogPanel :=
  let passes := p.entryPassesFilter entry
  let evicted := evict p.maxEntries (p.entries ++ [entry])
  let p := { p with entries := evicted.1 }
  if evicted.2 then p.rebuildFilteredIndices
  else if passes then
    { p with filteredIndices := p.filteredIndices ++ [p.entries.length - 1] }
  else p

/-- `clear`. -/
def clear (p : LogPanel) : LogPanel := { p with entries := [], filteredIndices := [] }

/-- A verbosity button: the selected one does nothing. -/
def verbosityButton (input : ToolbarInput) (p : LogPanel) (v : Verbosity) : LogPanel :=
  let selected := p.verbosityFilter = v
  if input.clicked v ∧ ¬ selected then { p with verbosityFilter := v }.rebuildFilteredIndices else p

/-- The search field with its button, or the button that opens it. -/
def searchBar (input : ToolbarInput) (p : LogPanel) : LogPanel :=
  if p.searchActive then
    let p :=
      match input.typed with
      | some query => { p with searchQuery := query }.rebuildFilteredIndices
      | none => p
    if input.closeSearch then
      { p with searchActive := false, searchQuery := "" }.rebuildFilteredIndices
    else p
  else if input.openSearch then { p with searchActive := true }
  else p

/-- The toolbar, the part of `show` that changes the panel. -/
def showToolbar (p : LogPanel) (input : ToolbarInput) : LogPanel :=
  searchBar input ([.concise, .detailed, .full].foldl (verbosityButton input) p)

/-- The entries that `show` renders, and copies. -/
def rows (p : LogPanel) : List LogEntry := p.filteredIndices.filterMap (p.entries[·]?)

/-- What happens to a panel. -/
inductive Operation where
  | push (entry : LogEntry)
  | clear
  | toolbar (input : ToolbarInput)

def apply (p : LogPanel) : Operation → LogPanel
  | .push entry => p.push entry
  | .clear => p.clear
  | .toolbar input => p.showToolbar input

def run (p : LogPanel) (ops : List Operation) : LogPanel := ops.foldl apply p

/-- One operation more for what was pushed since the last `clear`. -/
def remember (pushed : List LogEntry) : Operation → List LogEntry
  | .push entry => pushed ++ [entry]
  | .clear => []
  | .toolbar _ => pushed

/-- The entries pushed since the last `clear`. -/
def pushedSinceClear (ops : List Operation) : List LogEntry := ops.foldl remember []

/-! ## The index and the entries -/

/-- The panel holds the last of the entries pushed, and the positions of those that pass. -/
structure Holds (capacity : Nat) (pushed : List LogEntry) (p : LogPanel) : Prop where
  maxEntries : p.maxEntries = capacity
  entries : p.entries = pushed.rtake capacity
  filteredIndices : p.filteredIndices = enumerate p.entryPassesFilter p.entries

section Operations

variable {capacity : Nat} {pushed : List LogEntry} {p : LogPanel}

/-- Whatever the index was, it is right once it is rebuilt. -/
theorem Holds.rebuild (hmax : p.maxEntries = capacity)
    (hentries : p.entries = pushed.rtake capacity) :
    Holds capacity pushed p.rebuildFilteredIndices :=
  ⟨hmax, hentries, rfl⟩

/-- A position is added while nothing is dropped; else all are found again. -/
theorem Holds.push (h : Holds capacity pushed p) (entry : LogEntry) :
    Holds capacity (pushed ++ [entry]) (p.push entry) := by
  obtain ⟨hmax, hentries, hindices⟩ := h
  have hkept : (evict p.maxEntries (p.entries ++ [entry])).1 =
      (pushed ++ [entry]).rtake capacity := by
    rw [evict_fst, hmax, hentries, rtake_rtake_append]
  unfold LogPanel.push
  dsimp only
  split
  · exact .rebuild hmax hkept
  · next hroom =>
    -- Nothing was dropped, so the positions found so far stand.
    rw [evict_snd, decide_eq_true_eq, Nat.not_lt] at hroom
    have hall : (evict p.maxEntries (p.entries ++ [entry])).1 = p.entries ++ [entry] := by
      rw [evict_fst, rtake_of_length_le hroom]
    have happend := enumerate_append p.entryPassesFilter p.entries entry
    split
    · next hpasses =>
      refine ⟨hmax, hkept, ?_⟩
      rw [if_pos hpasses] at happend
      show p.filteredIndices ++ [(evict p.maxEntries (p.entries ++ [entry])).1.length - 1] =
        enumerate p.entryPassesFilter (evict p.maxEntries (p.entries ++ [entry])).1
      rw [hall, happend, hindices, List.length_append, List.length_singleton, Nat.add_sub_cancel]
    · next hpasses =>
      refine ⟨hmax, hkept, ?_⟩
      rw [if_neg hpasses] at happend
      show p.filteredIndices =
        enumerate p.entryPassesFilter (evict p.maxEntries (p.entries ++ [entry])).1
      rw [hall, happend, hindices]

theorem Holds.clear (h : Holds capacity pushed p) : Holds capacity [] p.clear :=
  ⟨h.maxEntries, (List.rtake_nil _).symm, rfl⟩

theorem Holds.verbosityButton (h : Holds capacity pushed p) (input : ToolbarInput) (v : Verbosity) :
    Holds capacity pushed (verbosityButton input p v) := by
  unfold LogPanel.verbosityButton
  dsimp only
  split
  · exact .rebuild h.maxEntries h.entries
  · exact h

theorem Holds.searchBar (h : Holds capacity pushed p) (input : ToolbarInput) :
    Holds capacity pushed (searchBar input p) := by
  have htyped : Holds capacity pushed
      (match input.typed with
        | some query => { p with searchQuery := query }.rebuildFilteredIndices
        | none => p) := by
    split
    · exact .rebuild h.maxEntries h.entries
    · exact h
  unfold LogPanel.searchBar
  split
  · dsimp only
    split
    · exact .rebuild htyped.maxEntries htyped.entries
    · exact htyped
  · split
    · exact ⟨h.maxEntries, h.entries, h.filteredIndices⟩
    · exact h

theorem Holds.apply (h : Holds capacity pushed p) (op : Operation) :
    Holds capacity (remember pushed op) (p.apply op) := by
  cases op with
  | push entry => exact h.push entry
  | clear => exact h.clear
  | toolbar input =>
      have hconcise := h.verbosityButton input .concise
      have hdetailed := hconcise.verbosityButton input .detailed
      have hfull := hdetailed.verbosityButton input .full
      exact hfull.searchBar input

theorem Holds.run (h : Holds capacity pushed p) (ops : List Operation) :
    Holds capacity (ops.foldl remember pushed) (p.run ops) := by
  induction ops generalizing pushed p with
  | nil => exact h
  | cons op ops ih => exact ih (h.apply op)

end Operations

theorem holds_new (maxEntries : Nat) :
    Holds (new maxEntries).maxEntries [] (new maxEntries) :=
  ⟨rfl, (List.rtake_nil _).symm, rfl⟩

/-- After any operations the panel holds the last entries pushed since it was cleared, as many as
it has room for; its index lists, in increasing order, the positions of the entries that pass the
filter, so rebuilding it changes nothing, and what is shown are the entries that pass. -/
theorem run_new (maxEntries : Nat) (ops : List Operation) :
    ((new maxEntries).run ops).entries <:+ pushedSinceClear ops ∧
      ((new maxEntries).run ops).entries.length =
        min (pushedSinceClear ops).length (new maxEntries).maxEntries ∧
      ((new maxEntries).run ops).filteredIndices.Pairwise (· < ·) ∧
      (∀ i, i ∈ ((new maxEntries).run ops).filteredIndices ↔
        ∃ h : i < ((new maxEntries).run ops).entries.length,
          ((new maxEntries).run ops).entryPassesFilter
            ((new maxEntries).run ops).entries[i] = true) ∧
      ((new maxEntries).run ops).rebuildFilteredIndices = (new maxEntries).run ops ∧
      ((new maxEntries).run ops).rows =
        ((new maxEntries).run ops).entries.filter ((new maxEntries).run ops).entryPassesFilter := by
  obtain ⟨-, hentries, hindices⟩ := (holds_new maxEntries).run ops
  generalize (new maxEntries).run ops = p at hentries hindices
  refine ⟨hentries ▸ rtake_suffix _ _, hentries ▸ length_rtake _ _, ?_, fun i => ?_, ?_, ?_⟩
  · rw [hindices]
    exact pairwise_enumerate _ _
  · rw [hindices]
    exact mem_enumerate
  · rw [rebuildFilteredIndices, ← hindices]
  · rw [rows, hindices, filterMap_enumerate]

end LogPanel

end War3BattleTool.Client
