import Mathlib.Data.List.Basic
import Mathlib.Tactic.Common

namespace ConcurrentQueue.Monitor

/-!
# Waiters of a condition variable

A monitor has a pool of threads, given by their program counters.  For one
condition variable a `Tally` counts the threads blocked on it, the signals
still to be sent, the threads released from it that have not yet looked again,
and the units (elements, free slots) that waiters wait for.  `Move` lists what
the threads of a monitor may do to a tally; no signal is lost as long as the
tally stays covered.
-/

section Pool

variable {Pc : Type} {pool : List Pc} {thread : Nat} {old : Pc}

/-- A thread that has moved is where it moved to. -/
theorem eq_of_getElem?_set
    {new found : Pc}
    (isAt : (pool.set thread new)[thread]? = some found) :
    found = new := by
  rw [List.getElem?_set] at isAt
  split at isAt
  · split at isAt
    · exact (Option.some.inj isAt).symm
    · cases isAt
  · contradiction

/-- Moving one thread changes a count by that thread. -/
theorem countP_set
    (isAt : pool[thread]? = some old)
    (new : Pc)
    (count : Pc → Bool) :
    (pool.set thread new).countP count + (count old).toNat =
      pool.countP count + (count new).toNat := by
  obtain ⟨inBounds, rfl⟩ := List.getElem?_eq_some_iff.mp isAt
  rw [List.countP_set inBounds]
  cases isCounted : count pool[thread] with
  | false => cases count new <;> simp
  | true =>
      have positive : 0 < pool.countP count :=
        List.countP_pos_iff.mpr ⟨_, List.getElem_mem inBounds, isCounted⟩
      cases count new <;> simp <;> omega

/-- A thread that is counted makes the count positive. -/
theorem countP_pos_of_getElem?
    (isAt : pool[thread]? = some old)
    {count : Pc → Bool}
    (counted : count old = true) :
    0 < pool.countP count :=
  List.countP_pos_iff.mpr ⟨old, List.mem_of_getElem? isAt, counted⟩

end Pool

/-- The threads and units that matter to the waiters of one condition. -/
structure Tally where
  waiting : Nat
  pending : Nat
  released : Nat
  supply : Nat
  deriving Repr, DecidableEq

namespace Tally

/-- One tally from another by what is added to its counts. -/
structure Shift
    (tally next : Tally)
    (waiting pending released supply : Int) : Prop where
  waiting : (next.waiting : Int) = tally.waiting + waiting
  pending : (next.pending : Int) = tally.pending + pending
  released : (next.released : Int) = tally.released + released
  supply : (next.supply : Int) = tally.supply + supply

/-- Changes add up. -/
theorem Shift.trans
    {tally middle next : Tally}
    {w p r s w' p' r' s' : Int}
    (first : Shift tally middle w p r s)
    (second : Shift middle next w' p' r' s') :
    Shift tally next (w + w') (p + p') (r + r') (s + s') := by
  obtain ⟨waiting, pending, released, supply⟩ := first
  obtain ⟨waiting', pending', released', supply'⟩ := second
  constructor <;> omega

/--
What one step of a monitor may do to a tally.  A released thread may leave
without taking a unit where there is none or where it is `excused`.
-/
inductive Move (excused : Prop) (tally next : Tally) : Prop where
  | keep : Shift tally next 0 0 0 0 → Move excused tally next
  | produce : Shift tally next 0 1 0 1 → Move excused tally next
  | consume {left : Int} :
      left ≤ 1 → Shift tally next 0 0 (-left) (-1) →
      Move excused tally next
  | block {left : Int} :
      tally.supply = 0 → Shift tally next 1 0 (-left) 0 →
      Move excused tally next
  | leave {left : Int} :
      (tally.supply = 0 ∨ excused) → Shift tally next 0 0 (-left) 0 →
      Move excused tally next
  | wake : Shift tally next (-1) 0 1 0 → Move excused tally next
  | signal : Shift tally next (-1) (-1) 1 0 → Move excused tally next
  | signalNobody :
      tally.waiting = 0 → Shift tally next 0 (-1) 0 0 →
      Move excused tally next
  | broadcast :
      Shift tally next (-tally.waiting) 0 tally.waiting 0 →
      Move excused tally next

/-- Every unit has a signal or a released thread, unless nobody waits. -/
def Covered (excused : Prop) (tally : Tally) : Prop :=
  excused ∨ tally.waiting = 0 ∨
    tally.supply ≤ tally.pending + tally.released

/-- Every waiter has a signal, or every unit has one or a released thread. -/
def Served (excused : Prop) (tally : Tally) : Prop :=
  excused ∨ tally.waiting ≤ tally.pending ∨
    tally.supply ≤ tally.pending + tally.released

variable {excused weaker : Prop} {tally next : Tally}

/-- What excuses more threads excuses as many moves. -/
theorem Move.mono
    (implied : excused → weaker)
    (move : Move excused tally next) :
    Move weaker tally next := by
  cases move with
  | keep shift => exact .keep shift
  | produce shift => exact .produce shift
  | consume bound shift => exact .consume bound shift
  | block isEmpty shift => exact .block isEmpty shift
  | leave allowed shift => exact .leave (allowed.imp_right implied) shift
  | wake shift => exact .wake shift
  | signal shift => exact .signal shift
  | signalNobody nobody shift => exact .signalNobody nobody shift
  | broadcast shift => exact .broadcast shift

/-- What excuses more threads covers as many tallies. -/
theorem Covered.mono
    (implied : excused → weaker)
    (covered : Covered excused tally) :
    Covered weaker tally :=
  covered.imp_left implied

/-- Every move keeps a covered tally covered. -/
theorem Covered.move
    (covered : Covered excused tally)
    (move : Move excused tally next) :
    Covered excused next := by
  rcases covered with isExcused | covered
  · exact Or.inl isExcused
  · cases move with
    | leave allowed shift =>
        obtain ⟨waiting, pending, released, supply⟩ := shift
        exact allowed.elim (fun isEmpty => Or.inr (by omega)) Or.inl
    | keep shift | produce shift | consume _ shift | block _ shift
    | wake shift | signal shift | signalNobody _ shift | broadcast shift =>
        obtain ⟨waiting, pending, released, supply⟩ := shift
        exact Or.inr (by omega)

/-- What excuses more threads serves as many tallies. -/
theorem Served.mono
    (implied : excused → weaker)
    (served : Served excused tally) :
    Served weaker tally :=
  served.imp_left implied

/-- Every move keeps a served tally served. -/
theorem Served.move
    (served : Served excused tally)
    (move : Move excused tally next) :
    Served excused next := by
  rcases served with isExcused | served
  · exact Or.inl isExcused
  · cases move with
    | leave allowed shift =>
        obtain ⟨waiting, pending, released, supply⟩ := shift
        exact allowed.elim (fun isEmpty => Or.inr (by omega)) Or.inl
    | keep shift | produce shift | consume _ shift | block _ shift
    | wake shift | signal shift | signalNobody _ shift | broadcast shift =>
        obtain ⟨waiting, pending, released, supply⟩ := shift
        exact Or.inr (by omega)

/--
A released thread may leave a unit behind if the waiters can spare it: they all
have a signal, or there are signals and other released threads for every unit.
-/
theorem Served.abandon
    {left : Int}
    (served : Served excused tally)
    (bound : left ≤ 1)
    (spared :
      0 < left →
      excused ∨ tally.waiting ≤ tally.pending ∨
        tally.supply < tally.pending + tally.released)
    (shift : Shift tally next 0 0 (-left) 0) :
    Served excused next := by
  obtain ⟨waiting, pending, released, supply⟩ := shift
  by_cases leaves : 0 < left
  · exact (spared leaves).imp_right fun _ => by omega
  · exact served.imp_right fun _ => by omega

/-- Where units wait for a waiter, a signal or a released thread is there. -/
theorem Served.not_stranded
    (served : Served excused tally)
    (notExcused : ¬ excused)
    (waits : 0 < tally.waiting)
    (supplied : 0 < tally.supply) :
    0 < tally.pending + tally.released := by
  rcases served with isExcused | served
  · exact (notExcused isExcused).elim
  · omega

end Tally

/-- What the program counters of a pool mean to one condition variable. -/
structure Roles (Pc : Type) where
  blocked : Pc → Bool
  notifying : Pc → Bool
  released : Pc → Bool

namespace Roles

variable {Pc : Type} {pool : List Pc}

/-- The tally of a pool. -/
def tally (roles : Roles Pc) (pool : List Pc) (supply : Nat) : Tally where
  waiting := pool.countP roles.blocked
  pending := pool.countP roles.notifying
  released := pool.countP roles.released
  supply := supply

/-- Moving one thread shifts the tally by what the thread was and is. -/
theorem shift_set
    (roles : Roles Pc)
    {thread : Nat}
    {old : Pc}
    (isAt : pool[thread]? = some old)
    (new : Pc)
    (supply supply' : Nat) :
    Tally.Shift (roles.tally pool supply)
      (roles.tally (pool.set thread new) supply')
      ((roles.blocked new).toNat - (roles.blocked old).toNat)
      ((roles.notifying new).toNat - (roles.notifying old).toNat)
      ((roles.released new).toNat - (roles.released old).toNat)
      (supply' - supply) := by
  have waiting := countP_set isAt new roles.blocked
  have pending := countP_set isAt new roles.notifying
  have released := countP_set isAt new roles.released
  constructor <;> simp only [tally] <;> omega

/-- Releasing every blocked thread empties the waiter set. -/
theorem shift_broadcast
    (roles : Roles Pc)
    {release : Pc → Pc}
    (unblocks : ∀ pc, roles.blocked (release pc) = false)
    (notifies : ∀ pc, roles.notifying (release pc) = roles.notifying pc)
    (releases :
      ∀ pc,
        (roles.released (release pc)).toNat =
          (roles.released pc).toNat + (roles.blocked pc).toNat)
    (pool : List Pc)
    (supply : Nat) :
    Tally.Shift (roles.tally pool supply)
      (roles.tally (pool.map release) supply)
      (-(roles.tally pool supply).waiting) 0
      (roles.tally pool supply).waiting 0 := by
  have waiting : (pool.map release).countP roles.blocked = 0 := by
    simp [unblocks]
  have pending :
      (pool.map release).countP roles.notifying =
        pool.countP roles.notifying := by
    rw [List.countP_map]
    exact List.countP_congr fun pc _ => by simp [notifies]
  have released :
      (pool.map release).countP roles.released =
        pool.countP roles.released + pool.countP roles.blocked := by
    clear waiting pending
    induction pool with
    | nil =>
        rfl
    | cons pc rest inductionHypothesis =>
        have moved := releases pc
        simp only [List.map_cons, List.countP_cons, inductionHypothesis]
        cases first : roles.released (release pc) <;>
          cases second : roles.released pc <;>
          cases third : roles.blocked pc <;>
          simp only [first, second, third] at moved ⊢ <;>
          simp at moved ⊢ <;> omega
  constructor <;> simp only [tally] <;> omega

/-- A change that no role notices leaves the tally as it is. -/
theorem shift_map
    (roles : Roles Pc)
    {change : Pc → Pc}
    (blocked : ∀ pc, roles.blocked (change pc) = roles.blocked pc)
    (notifying : ∀ pc, roles.notifying (change pc) = roles.notifying pc)
    (released : ∀ pc, roles.released (change pc) = roles.released pc)
    (pool : List Pc)
    (supply : Nat) :
    Tally.Shift (roles.tally pool supply)
      (roles.tally (pool.map change) supply) 0 0 0 0 := by
  have counted :
      ∀ count : Pc → Bool,
        (∀ pc, count (change pc) = count pc) →
        (pool.map change).countP count = pool.countP count := by
    intro count same
    rw [List.countP_map]
    exact List.countP_congr fun pc _ => by simp [same]
  constructor <;>
    simp [tally, counted _ blocked, counted _ notifying, counted _ released]

end Roles

end ConcurrentQueue.Monitor
