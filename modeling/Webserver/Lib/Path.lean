import Mathlib.Data.Int.Order.Basic
import Mathlib.Data.List.Induction

/-!
# Relative paths

Resolving a relative path by its text alone: it is split at the separators, and
its segments are moves in a tree of directories (`Move`), from an unknown place.
An empty segment and `.` stay, `..` goes up, and any other segment goes down. The
place reached (`Place`) is so many levels above the start, and then down along
some names.

* `Place.walk_of_level`: a walk that never climbs above its start stays below it,
  whatever the start is.
* `below_iff`: the place reached is below some directory exactly if the walk comes
  back to its start, enters the directory from there, and never leaves it again.
-/

namespace Path

variable {α β : Type*}

/-! ## Moves -/

/-- What a segment of a path does. -/
inductive Move (β : Type*)
  | stay
  | up
  | down (name : β)
  deriving DecidableEq

/-- The move of a segment. -/
def move [DecidableEq α] (dot : α) (segment : List α) : Move (List α) :=
  if segment = [] ∨ segment = [dot] then .stay
  else if segment = [dot, dot] then .up
  else .down segment

/-- The moves of a path. -/
def moves [DecidableEq α] (slash dot : α) (path : List α) : List (Move (List α)) :=
  (path.splitOn slash).map (move dot)

/-- The first segment of a path makes the first move. -/
theorem moves_append_cons [DecidableEq α] {slash dot : α} {segment : List α}
    (h : slash ∉ segment) (rest : List α) :
    moves slash dot (segment ++ slash :: rest) = move dot segment :: moves slash dot rest := by
  rw [moves, List.splitOn_append_cons_self_of_not_mem h, List.map_cons, moves]

/-- How far down a walk leads, minus how far up. -/
def level : List (Move β) → ℤ
  | [] => 0
  | .stay :: ms => level ms
  | .up :: ms => level ms - 1
  | .down _ :: ms => level ms + 1

@[simp] theorem level_nil : level ([] : List (Move β)) = 0 := rfl

@[simp] theorem level_append (ms ms' : List (Move β)) :
    level (ms ++ ms') = level ms + level ms' := by
  induction ms with
  | nil => simp
  | cons m ms ih =>
    cases m with
    | stay => exact ih
    | up => simp only [List.cons_append, level, ih]; omega
    | down name => simp only [List.cons_append, level, ih]; omega

/-- The walk never climbs above its start. -/
def Stays (ms : List (Move β)) : Prop := ∀ ms', ms' <+: ms → 0 ≤ level ms'

theorem Stays.level {ms : List (Move β)} (h : Stays ms) : 0 ≤ level ms := h ms List.prefix_rfl

theorem Stays.of_append {ms ms' : List (Move β)} (h : Stays (ms ++ ms')) : Stays ms :=
  fun _ h' => h _ (h'.trans (List.prefix_append _ _))

theorem stays_nil : Stays ([] : List (Move β)) := by
  intro ms' h
  rw [List.prefix_nil.1 h]
  exact le_rfl

theorem Stays.concat {ms : List (Move β)} {m : Move β} (h : Stays ms)
    (hm : 0 ≤ Path.level (ms ++ [m])) : Stays (ms ++ [m]) := by
  intro ms' h'
  rcases List.prefix_concat_iff.1 h' with rfl | h'
  · exact hm
  · exact h ms' h'

/-! ## Places -/

/-- A place: so many levels above the start, and from there down along the names,
    of which the last one comes first. -/
@[ext]
structure Place (β : Type*) where
  above : ℕ
  names : List β
  deriving DecidableEq

namespace Place

/-- The start. -/
def start : Place β := ⟨0, []⟩

/-- The place a move leads to. -/
def step (p : Place β) : Move β → Place β
  | .stay => p
  | .up =>
    match p.names with
    | [] => ⟨p.above + 1, []⟩
    | _ :: names => ⟨p.above, names⟩
  | .down name => ⟨p.above, name :: p.names⟩

/-- The place a walk leads to. -/
def walk (p : Place β) (ms : List (Move β)) : Place β := ms.foldl step p

@[simp] theorem walk_nil (p : Place β) : p.walk [] = p := rfl

@[simp] theorem walk_append (p : Place β) (ms ms' : List (Move β)) :
    p.walk (ms ++ ms') = (p.walk ms).walk ms' := List.foldl_append

@[simp] theorem walk_singleton (p : Place β) (m : Move β) : p.walk [m] = p.step m := rfl

theorem above_le_step (p : Place β) (m : Move β) : p.above ≤ (p.step m).above := by
  cases m with
  | stay => exact Nat.le_refl _
  | up =>
    simp only [step]
    split
    · exact Nat.le_succ _
    · exact Nat.le_refl _
  | down name => exact Nat.le_refl _

/-- A walk that never climbs above its start stays below it. -/
theorem walk_of_stays {ms : List (Move β)} (h : Stays ms) (p : Place β) :
    ∃ names, p.walk ms = ⟨p.above, names ++ p.names⟩ ∧ (names.length : ℤ) = level ms := by
  -- By induction from the end, as each move is made from where the others have led.
  induction ms using List.reverseRecOn with
  | nil => exact ⟨[], rfl, rfl⟩
  | append_singleton ms m ih =>
    obtain ⟨names, hwalk, hlevel⟩ := ih h.of_append
    have hlast := h.level
    rw [level_append, ← hlevel] at hlast
    rw [walk_append, hwalk, walk_singleton, level_append, ← hlevel]
    cases m with
    | stay => exact ⟨names, rfl, (Int.add_zero _).symm⟩
    | up =>
      cases names with
      | nil => simp [level] at hlast
      | cons name names => exact ⟨names, rfl, by simp only [level, List.length_cons]; omega⟩
    | down name => exact ⟨name :: names, rfl, by simp [level]⟩

theorem start_walk_of_stays {ms : List (Move β)} (h : Stays ms) :
    ∃ names, start.walk ms = ⟨0, names⟩ ∧ (names.length : ℤ) = level ms := by
  obtain ⟨names, hwalk, hlevel⟩ := walk_of_stays h start
  exact ⟨names, by rw [hwalk, start, List.append_nil], hlevel⟩

/-- Only walks that never climb above the start do not end above it. -/
theorem stays_of_above {ms : List (Move β)} (h : (start.walk ms).above = 0) : Stays ms := by
  induction ms using List.reverseRecOn with
  | nil => exact stays_nil
  | append_singleton ms m ih =>
    rw [walk_append, walk_singleton] at h
    have hstays := ih (Nat.le_zero.1 (h ▸ above_le_step _ m))
    obtain ⟨names, hwalk, hlevel⟩ := start_walk_of_stays hstays
    refine hstays.concat ?_
    rw [level_append, ← hlevel]
    cases m with
    | stay => simp [level]
    | up =>
      cases names with
      | nil =>
        rw [hwalk] at h
        cases h
      | cons name names => simp only [level, List.length_cons]; omega
    | down name => simp only [level]; omega

/-- The place is in the directory `name` at the start, or is that directory. -/
def Below (name : β) (p : Place β) : Prop := p.above = 0 ∧ p.names.getLast? = some name

instance [DecidableEq β] (name : β) (p : Place β) : Decidable (Below name p) :=
  inferInstanceAs (Decidable (_ ∧ _))

end Place

open Place

/-- The walk comes back to the start, enters the directory `name` from there, and
    never leaves it again. -/
def Enters (name : β) (ms : List (Move β)) : Prop :=
  ∃ before after, ms = before ++ .down name :: after ∧ Stays before ∧ level before = 0 ∧
    Stays after

theorem Enters.below {name : β} {ms : List (Move β)} (h : Enters name ms) :
    Below name (start.walk ms) := by
  obtain ⟨before, after, rfl, hbefore, hlevel, hafter⟩ := h
  obtain ⟨names, hwalk, hnames⟩ := start_walk_of_stays hbefore
  obtain rfl : names = [] := by
    rw [← List.length_eq_zero_iff]
    omega
  obtain ⟨names, hwalk', -⟩ := walk_of_stays hafter ⟨0, [name]⟩
  rw [← List.singleton_append, walk_append, walk_append, hwalk, walk_singleton]
  exact hwalk' ▸ ⟨rfl, List.getLast?_concat⟩

/-- Another move inside the directory. -/
theorem Enters.concat {name : β} {ms : List (Move β)} {m : Move β} (h : Enters name ms)
    (hm : 1 ≤ level (ms ++ [m])) : Enters name (ms ++ [m]) := by
  obtain ⟨before, after, rfl, hbefore, hlevel, hafter⟩ := h
  refine ⟨before, after ++ [m], by simp, hbefore, hlevel, hafter.concat ?_⟩
  simp only [level_append, level, hlevel] at hm ⊢
  omega

theorem enters_of_below {name : β} {ms : List (Move β)} (h : Below name (start.walk ms)) :
    Enters name ms := by
  -- By induction from the end: the last move is made inside the directory, or enters it.
  induction ms using List.reverseRecOn with
  | nil => cases h.2
  | append_singleton ms m ih =>
    have hstays := stays_of_above h.1
    obtain ⟨names', hwalk', hlevel'⟩ := start_walk_of_stays hstays
    obtain ⟨names, hwalk, hlevel⟩ := start_walk_of_stays hstays.of_append
    have hinside : 1 ≤ level (ms ++ [m]) := by
      obtain ⟨-, hlast⟩ := h
      rw [hwalk'] at hlast
      cases names' with
      | nil => cases hlast
      | cons x names' => simp only [List.length_cons] at hlevel'; omega
    rw [walk_append, walk_singleton] at h
    cases m with
    | stay => exact (ih h).concat hinside
    | up =>
      rw [hwalk] at h ih
      cases names with
      | nil => cases h.1
      | cons x names =>
        have hlast : names.getLast? = some name := h.2
        exact (ih ⟨rfl, by simp [List.getLast?_cons, hlast]⟩).concat hinside
    | down x =>
      rw [hwalk] at h ih
      cases names with
      | nil =>
        obtain rfl : x = name := Option.some.inj h.2
        exact ⟨ms, [], rfl, hstays.of_append, hlevel.symm, stays_nil⟩
      | cons y names => exact (ih ⟨rfl, by simpa [step] using h.2⟩).concat hinside

/-- The place reached is below a directory exactly if the walk enters it for
    good. -/
theorem below_iff {name : β} {ms : List (Move β)} :
    Below name (start.walk ms) ↔ Enters name ms := ⟨enters_of_below, Enters.below⟩

end Path
