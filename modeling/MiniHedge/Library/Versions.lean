import Mathlib.Data.List.Nodup
import Mathlib.Data.List.Enum

/-! Rows as they are stored, and as a session that is open has left them.

A session sees its own writes at once and those of the others when they are
committed. A row that a session has written is locked until the session commits
or closes, so that at most one session holds it. The number of a row is its
place in the table; a row that is given up leaves its number unused.
-/

set_option autoImplicit false

namespace MiniHedge.Library

variable {Row : Type}

structure Version (Row : Type) where
  stored : Option Row
  held : Option (Nat × Row)
  deriving DecidableEq, Repr

namespace Version

variable (v : Version Row) (owner : Nat)

/-- What a session sees; `none` is a session that writes nothing. -/
def seen (session : Option Nat) : Option Row :=
  match v.held with
  | some (holder, row) => if session = some holder then some row else v.stored
  | none => v.stored

def commit : Version Row :=
  match v.held with
  | some (holder, row) => if holder = owner then ⟨some row, none⟩ else v
  | none => v

def release : Version Row :=
  match v.held with
  | some (holder, _) => if holder = owner then ⟨v.stored, none⟩ else v
  | none => v

def hold (f : Row → Row) : Version Row :=
  match v.seen (some owner) with
  | some row => ⟨v.stored, some (owner, f row)⟩
  | none => v

/-- A write of the session would wait for another one. -/
def locked (session : Option Nat) : Bool :=
  match v.held with
  | some (holder, _) => session ≠ some holder ∧ v.stored.isSome
  | none => false

variable {v owner} {session : Option Nat} {row : Row} {f : Row → Row}

theorem seen_commit_own : (v.commit owner).seen (some owner) = v.seen (some owner) := by
  obtain ⟨stored, _ | ⟨holder, row⟩⟩ := v
  · rfl
  · by_cases own : holder = owner
    · simp [commit, seen, own]
    · simp [commit, own]

/-- What is seen after a commit was seen before it, by the owner if by no one else. -/
theorem seen_commit (visible : (v.commit owner).seen session = some row) :
    v.seen session = some row ∨ v.seen (some owner) = some row := by
  obtain ⟨stored, _ | ⟨holder, held⟩⟩ := v
  · exact .inl visible
  · by_cases own : holder = owner
    · simp only [commit, own, if_true, seen] at visible ⊢
      exact .inr visible
    · simp only [commit, own, if_false] at visible
      exact .inl visible

theorem seen_release (visible : (v.release owner).seen session = some row) :
    v.seen session = some row ∨ v.seen none = some row := by
  obtain ⟨stored, _ | ⟨holder, held⟩⟩ := v
  · exact .inl visible
  · by_cases own : holder = owner
    · simp only [release, own, if_true, seen] at visible ⊢
      exact .inr (by simpa using visible)
    · simp only [release, own, if_false] at visible
      exact .inl visible

theorem hold_seen {old : Row} (visible : v.seen (some owner) = some old) :
    v.hold owner f = ⟨v.stored, some (owner, f old)⟩ := by
  rw [hold, visible]

theorem stored_seen : v.seen none = v.stored := by
  obtain ⟨stored, _ | ⟨holder, held⟩⟩ := v <;> rfl

theorem seen_hold_stored : (v.hold owner f).seen none = v.seen none := by
  unfold hold
  split
  · rw [stored_seen, stored_seen]
  · rfl

/-! ## Final rows -/

section Final

variable (final : Row → Prop)

/-- A row that is final as it is stored is held by no session. -/
def Settled (v : Version Row) : Prop := ∀ row, v.stored = some row → final row → v.held = none

variable {final}

theorem Settled.commit (settled : v.Settled final) : (v.commit owner).Settled final := by
  obtain ⟨stored, _ | ⟨holder, held⟩⟩ := v
  · exact settled
  · by_cases own : holder = owner
    · simp [Version.commit, own, Settled]
    · simpa [Version.commit, own] using settled

theorem Settled.release (settled : v.Settled final) : (v.release owner).Settled final := by
  obtain ⟨stored, _ | ⟨holder, held⟩⟩ := v
  · exact settled
  · by_cases own : holder = owner
    · simp [Version.release, own, Settled]
    · simpa [Version.release, own] using settled

/-- A commit takes a final row from no one. -/
theorem Settled.seen_commit (settled : v.Settled final) (visible : v.seen session = some row)
    (done : final row) : (v.commit owner).seen session = some row := by
  obtain ⟨stored, _ | ⟨holder, held⟩⟩ := v
  · exact visible
  · by_cases own : holder = owner
    · simp only [seen] at visible
      split at visible
      · simpa [Version.commit, own, seen] using visible
      · cases settled row visible done
    · simpa [Version.commit, own] using visible

theorem seen_release_other (other : session ≠ some owner) :
    (v.release owner).seen session = v.seen session := by
  obtain ⟨stored, _ | ⟨holder, held⟩⟩ := v
  · rfl
  · by_cases own : holder = owner
    · simp [release, seen, own, other]
    · simp [release, own]

/-- Only a row that is not final is written over. -/
theorem Settled.hold {old : Row} (settled : v.Settled final) (free : v.locked (some owner) = false)
    (visible : v.seen (some owner) = some old) (unfinished : ¬ final old) :
    (v.hold owner f).Settled final := by
  rw [hold_seen visible]
  intro row stored done
  obtain ⟨kept, _ | ⟨holder, held⟩⟩ := v
  · cases stored
    cases visible
    exact absurd done unfinished
  · cases settled row stored done

theorem seen_hold {old : Row} (free : v.locked (some owner) = false)
    (visible : v.seen (some owner) = some old) :
    (v.hold owner f).seen session = if session = some owner then some (f old) else v.seen session := by
  rw [hold_seen visible]
  obtain ⟨stored, _ | ⟨holder, held⟩⟩ := v
  · rfl
  · by_cases own : holder = owner
    · subst own
      simp only [seen]
      split <;> rfl
    · have others : some owner ≠ some holder := fun same => own (Option.some.inj same).symm
      simp only [seen, others, if_false] at visible
      simp [locked, visible, others] at free

end Final

/-! ## Rows that one session may hold -/

section Held

/-- No session but this one holds the row. -/
def HeldBy (session : Option Nat) (v : Version Row) : Prop :=
  ∀ holder row, v.held = some (holder, row) → session = some holder

theorem heldBy_stored {stored : Option Row} : (⟨stored, none⟩ : Version Row).HeldBy session := by
  intro holder row here
  cases here

theorem HeldBy.any (held : v.HeldBy none) : v.HeldBy session := by
  intro holder row here
  cases held holder row here

theorem HeldBy.unlocked (held : v.HeldBy session) : v.locked session = false := by
  obtain ⟨stored, _ | ⟨holder, row⟩⟩ := v
  · rfl
  · simp [locked, held holder row rfl]

/-- Of what no session holds, all see the same. -/
theorem HeldBy.seen_eq (held : v.HeldBy none) (observer : Option Nat) :
    v.seen session = v.seen observer := by
  obtain ⟨stored, _ | ⟨holder, row⟩⟩ := v
  · rfl
  · cases held holder row rfl

theorem HeldBy.commit (held : v.HeldBy session) : (v.commit owner).HeldBy session := by
  obtain ⟨stored, _ | ⟨holder, row⟩⟩ := v
  · exact held
  · by_cases own : holder = owner
    · simp [Version.commit, own, HeldBy]
    · simpa [Version.commit, own] using held

theorem HeldBy.release (held : v.HeldBy (some owner)) : (v.release owner).HeldBy none := by
  obtain ⟨stored, _ | ⟨holder, row⟩⟩ := v
  · intro holder row here
    cases here
  · cases held holder row rfl
    simp [Version.release, HeldBy]

theorem HeldBy.hold (held : v.HeldBy (some owner)) : (v.hold owner f).HeldBy (some owner) := by
  unfold Version.hold
  split
  · intro holder row here
    cases here
    rfl
  · exact held

/-- What the session has left is stored when it is committed. -/
theorem HeldBy.seen_committed (held : v.HeldBy (some owner)) :
    ((v.commit owner).release owner).seen none = v.seen (some owner) := by
  obtain ⟨stored, _ | ⟨holder, row⟩⟩ := v
  · rfl
  · cases held holder row rfl
    simp [Version.commit, Version.release, seen]

end Held

end Version

/-! ## Tables -/

/-- The rows by their numbers. -/
abbrev Versioned (Row : Type) := List (Version Row)

namespace Versioned

variable (t : Versioned Row)

def get (session : Option Nat) (k : Nat) : Option Row := t[k]?.bind (·.seen session)

/-- The rows that a session sees, with their numbers. -/
def rows (session : Option Nat) : List (Nat × Row) :=
  t.zipIdx.filterMap fun (v, k) => (v.seen session).map (k, ·)

def locked (session : Option Nat) (k : Nat) : Bool := t[k]?.any (·.locked session)

/-- The writes of no session are rolled back when the statement is done. -/
def update (session : Option Nat) (k : Nat) (f : Row → Row) : Versioned Row :=
  match session with
  | some owner => t.modify k (·.hold owner f)
  | none => t

def insert (session : Option Nat) (row : Row) : Versioned Row :=
  t ++ [⟨none, session.map (·, row)⟩]

/-- A row that is committed as soon as it is inserted. -/
def store (row : Row) : Versioned Row := t ++ [⟨some row, none⟩]

def commit (session : Option Nat) : Versioned Row :=
  match session with
  | some owner => t.map (·.commit owner)
  | none => t

def close (owner : Nat) : Versioned Row := t.map (·.release owner)

variable {t} {session observer : Option Nat} {k observed : Nat} {row old : Row} {f : Row → Row}

theorem mem_rows : (k, row) ∈ t.rows session ↔ t.get session k = some row := by
  simp only [rows, get, List.mem_filterMap, Option.map_eq_some_iff, Prod.mk.injEq, Prod.exists,
    List.mem_zipIdx_iff_getElem?, Option.bind_eq_some_iff]
  constructor
  · rintro ⟨v, i, member, seen, visible, rfl, rfl⟩
    exact ⟨v, member, visible⟩
  · rintro ⟨v, member, visible⟩
    exact ⟨v, k, member, row, visible, rfl, rfl⟩

/-- A session sees a number once. -/
theorem rows_distinct : ((t.rows session).map (·.1)).Nodup := by
  have numbers : ((t.rows session).map (·.1)).Sublist (t.zipIdx.map (·.2)) := by
    unfold rows
    generalize t.zipIdx = cells
    induction cells with
    | nil => exact .slnil
    | cons cell rest ih =>
      rw [List.filterMap_cons]
      split
      · exact ih.cons _
      · rename_i pair chosen
        obtain ⟨row, -, rfl⟩ := Option.map_eq_some_iff.mp chosen
        exact ih.cons_cons _
  refine numbers.nodup ?_
  rw [List.zipIdx_map_snd]
  exact List.nodup_range'

theorem get_commit_own : (t.commit session).get session k = t.get session k := by
  cases session with
  | none => rfl
  | some owner =>
    simp only [commit, get, List.getElem?_map]
    cases t[k]? with
    | none => rfl
    | some v => exact Version.seen_commit_own

theorem get_commit (visible : (t.commit session).get observer k = some row) :
    ∃ observer, t.get observer k = some row := by
  cases session with
  | none => exact ⟨_, visible⟩
  | some owner =>
    simp only [commit, get, List.getElem?_map, Option.bind_map, Option.bind_eq_some_iff,
      Function.comp_apply] at visible ⊢
    obtain ⟨v, here, visible⟩ := visible
    rcases Version.seen_commit visible with before | own
    · exact ⟨_, v, here, before⟩
    · exact ⟨_, v, here, own⟩

theorem get_close {owner : Nat} (visible : (t.close owner).get observer k = some row) :
    ∃ observer, t.get observer k = some row := by
  simp only [close, get, List.getElem?_map, Option.bind_map, Option.bind_eq_some_iff,
    Function.comp_apply] at visible ⊢
  obtain ⟨v, here, visible⟩ := visible
  rcases Version.seen_release visible with before | stored
  · exact ⟨_, v, here, before⟩
  · exact ⟨_, v, here, stored⟩

theorem get_update_other {j : Nat} (other : j ≠ k) :
    (t.update session j f).get observer k = t.get observer k := by
  cases session with
  | none => rfl
  | some owner => simp [update, get, other]

/-- An update of a row that the session sees and no other session holds. -/
theorem get_update (free : t.locked session k = false) (visible : t.get session k = some old) :
    (t.update session k f).get observer k =
      if session ≠ none ∧ observer = session then some (f old) else t.get observer k := by
  cases session with
  | none => simp [update]
  | some owner =>
    obtain ⟨v, here, seen⟩ := Option.bind_eq_some_iff.mp visible
    have unlocked : v.locked (some owner) = false := by simpa [locked, here] using free
    simp [update, get, here, Version.seen_hold unlocked seen]

/-- An update is not stored before it is committed. -/
theorem get_update_stored : (t.update session k f).get none observed = t.get none observed := by
  cases session with
  | none => rfl
  | some owner =>
    simp only [update, get, List.getElem?_modify]
    cases t[observed]? with
    | none => rfl
    | some v =>
      split
      · exact Version.seen_hold_stored
      · rfl

theorem get_insert (visible : (t.insert session row).get observer k = some old) :
    t.get observer k = some old ∨ k = t.length ∧ session ≠ none ∧ observer = session ∧ row = old := by
  simp only [insert, get, List.getElem?_append, List.getElem?_singleton] at visible
  split at visible
  · exact .inl visible
  · split at visible
    · rename_i late first
      refine .inr ⟨by omega, ?_⟩
      cases session with
      | none => cases visible
      | some owner =>
        simp only [Option.map_some, Option.bind_some, Version.seen] at visible
        split at visible
        · rename_i own
          exact ⟨by simp, own, by simpa using visible⟩
        · cases visible
    · cases visible

theorem get_lt (visible : t.get observer k = some row) : k < t.length := by
  obtain ⟨v, here, -⟩ := Option.bind_eq_some_iff.mp visible
  exact (List.getElem?_eq_some_iff.mp here).1

theorem get_insert_old (visible : t.get observer k = some old) :
    (t.insert session row).get observer k = some old := by
  have place := get_lt visible
  simpa [insert, get, List.getElem?_append_left place] using visible

/-! ## What becomes of the rows -/

/-- Whatever is seen was there before, is new, or is what a move has made of a row that the session
saw before. -/
def Traces (moved : Nat → Row → Row → Prop) (new : Row → Prop) (session : Option Nat)
    (t t' : Versioned Row) : Prop :=
  ∀ observer k row, t'.get observer k = some row →
    (∃ observer, t.get observer k = some row) ∨ new row ∨
      session ≠ none ∧ ∃ old, t.get session k = some old ∧ moved k old row

section Traces

variable {moved : Nat → Row → Row → Prop} {new : Row → Prop} {t' : Versioned Row}

theorem Traces.refl : Traces moved new session t t := fun observer _ _ visible => .inl ⟨observer, visible⟩

theorem Traces.commit (traces : Traces moved new session t t') :
    Traces moved new session t (t'.commit observer) := by
  intro seen k row visible
  obtain ⟨before, here⟩ := get_commit visible
  exact traces before k row here

theorem Traces.insert (traces : Traces moved new session t t') (fresh : new row) :
    Traces moved new session t (t'.insert session row) := by
  intro seen k other visible
  rcases get_insert visible with old | ⟨-, -, -, rfl⟩
  · exact traces seen k other old
  · exact .inr (.inl fresh)

/-- A row may be moved more than once, if that comes to one move of what was there. -/
theorem Traces.update {first : Row} (traces : Traces moved new session t t')
    (free : t'.locked session k = false) (before : t.get session k = some first)
    (visible : t'.get session k = some old) (step : moved k first (f old)) :
    Traces moved new session t (t'.update session k f) := by
  intro seen j row after
  by_cases own : k = j
  · subst own
    rw [get_update free visible] at after
    split at after
    · rename_i written
      cases after
      exact .inr (.inr ⟨written.1, first, before, step⟩)
    · exact traces seen k row after
  · rw [get_update_other own] at after
    exact traces seen j row after

end Traces

/-! ## Final rows -/

variable (final : Row → Prop)

def Settled (t : Versioned Row) : Prop := ∀ v ∈ t, v.Settled final

/-- Who saw a final row sees it still. -/
def Lasts (t t' : Versioned Row) : Prop :=
  ∀ observer k row, t.get observer k = some row → final row → t'.get observer k = some row

variable {final}

theorem Settled.commit (settled : t.Settled final) : (t.commit session).Settled final := by
  cases session with
  | none => exact settled
  | some owner =>
    intro v member
    obtain ⟨old, inside, rfl⟩ := List.mem_map.mp member
    exact (settled old inside).commit

theorem Settled.close {owner : Nat} (settled : t.Settled final) :
    (t.close owner).Settled final := by
  intro v member
  obtain ⟨old, inside, rfl⟩ := List.mem_map.mp member
  exact (settled old inside).release

theorem Settled.insert (settled : t.Settled final) : (t.insert session row).Settled final := by
  intro v member
  rcases List.mem_append.mp member with inside | only
  · exact settled v inside
  · rw [List.mem_singleton] at only
    subst only
    intro stored here
    cases here

theorem Settled.update (settled : t.Settled final) (free : t.locked session k = false)
    (visible : t.get session k = some old) (unfinished : ¬ final old) :
    (t.update session k f).Settled final := by
  cases session with
  | none => exact settled
  | some owner =>
    obtain ⟨v, here, seen⟩ := Option.bind_eq_some_iff.mp visible
    have unlocked : v.locked (some owner) = false := by simpa [locked, here] using free
    intro w member
    obtain ⟨i, place⟩ := List.mem_iff_getElem?.mp member
    rw [Versioned.update, List.getElem?_modify] at place
    by_cases own : k = i
    · subst own
      simp only [here, if_true, Option.map_eq_map, Option.map_some, Option.some.injEq] at place
      subst place
      exact (settled v (List.mem_of_getElem? here)).hold unlocked seen unfinished
    · simp only [own, if_false, Option.map_eq_map, Option.map_id'] at place
      exact settled w (List.mem_of_getElem? place)

theorem Lasts.refl : t.Lasts final t := fun _ _ _ visible _ => visible

theorem Lasts.trans {t' t'' : Versioned Row} (first : t.Lasts final t')
    (next : t'.Lasts final t'') : t.Lasts final t'' :=
  fun observer k row visible done => next observer k row (first observer k row visible done) done

theorem Settled.lasts_commit (settled : t.Settled final) : t.Lasts final (t.commit session) := by
  cases session with
  | none => exact .refl
  | some owner =>
    intro observer k row visible done
    obtain ⟨v, here, seen⟩ := Option.bind_eq_some_iff.mp visible
    simp [Versioned.commit, get, here,
      (settled v (List.mem_of_getElem? here)).seen_commit seen done]

theorem lasts_insert : t.Lasts final (t.insert session row) :=
  fun _ _ _ visible _ => get_insert_old visible

theorem lasts_update (free : t.locked session k = false) (visible : t.get session k = some old)
    (unfinished : ¬ final old) : t.Lasts final (t.update session k f) := by
  intro observer j row seen done
  by_cases own : k = j
  · subst own
    rw [get_update free visible]
    split
    · rename_i same
      rw [same.2, visible] at seen
      cases seen
      exact absurd done unfinished
    · exact seen
  · rwa [get_update_other own]

theorem get_close_other {owner : Nat} (other : observer ≠ some owner) :
    (t.close owner).get observer k = t.get observer k := by
  simp only [close, get, List.getElem?_map]
  cases t[k]? with
  | none => rfl
  | some v => exact Version.seen_release_other other

/-! ## Rows that one session may hold -/

section Held

variable {owner : Nat}

def HeldBy (session : Option Nat) (t : Versioned Row) : Prop := ∀ v ∈ t, v.HeldBy session

theorem HeldBy.any (held : t.HeldBy none) : t.HeldBy session := fun v member => (held v member).any

theorem HeldBy.settled {final : Row → Prop} (held : t.HeldBy none) : t.Settled final := by
  intro v member row stored done
  cases here : v.held with
  | none => rfl
  | some holding => cases held v member holding.1 holding.2 here

theorem HeldBy.unlocked (held : t.HeldBy session) (k : Nat) : t.locked session k = false := by
  unfold locked
  cases here : t[k]? with
  | none => rfl
  | some v => exact (held v (List.mem_of_getElem? here)).unlocked

theorem HeldBy.get_eq (held : t.HeldBy none) (observer : Option Nat) :
    t.get session k = t.get observer k := by
  unfold get
  cases here : t[k]? with
  | none => rfl
  | some v => exact (held v (List.mem_of_getElem? here)).seen_eq observer

theorem HeldBy.commit (held : t.HeldBy session) : (t.commit observer).HeldBy session := by
  cases observer with
  | none => exact held
  | some owner =>
    intro v member
    obtain ⟨old, inside, rfl⟩ := List.mem_map.mp member
    exact (held old inside).commit

theorem HeldBy.close (held : t.HeldBy (some owner)) : (t.close owner).HeldBy none := by
  intro v member
  obtain ⟨old, inside, rfl⟩ := List.mem_map.mp member
  exact (held old inside).release

theorem HeldBy.insert (held : t.HeldBy session) : (t.insert session row).HeldBy session := by
  intro v member
  rcases List.mem_append.mp member with old | new
  · exact held v old
  · rw [List.mem_singleton.mp new]
    intro holder last here
    obtain ⟨owner, own, same⟩ := Option.map_eq_some_iff.mp here
    cases same
    exact own

theorem HeldBy.update (held : t.HeldBy session) : (t.update session k f).HeldBy session := by
  cases session with
  | none => exact held
  | some owner =>
    intro v member
    obtain ⟨i, place⟩ := List.mem_iff_getElem?.mp member
    rw [Versioned.update, List.getElem?_modify] at place
    obtain ⟨old, here, rfl⟩ := Option.map_eq_some_iff.mp place
    have kept := held old (List.mem_of_getElem? here)
    split
    · exact kept.hold
    · exact kept

theorem HeldBy.get_committed (held : t.HeldBy (some owner)) :
    ((t.commit (some owner)).close owner).get none k = t.get (some owner) k := by
  simp only [Versioned.commit, Versioned.close, get, List.getElem?_map]
  cases here : t[k]? with
  | none => rfl
  | some v => exact (held v (List.mem_of_getElem? here)).seen_committed

end Held

end Versioned

end MiniHedge.Library
